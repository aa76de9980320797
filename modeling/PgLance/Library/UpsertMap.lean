import PgLance.Library.Upsert

/-! Rows of distinct keys as a map from keys to rows: what a merge does under each key. -/

namespace Upsert

variable {ρ κ : Type*} (key : ρ → κ)

def lookup [DecidableEq κ] (rows : List ρ) (k : κ) : Option ρ := rows.find? fun r => key r = k

def put (update insert : Bool) : Option ρ → Option ρ → Option ρ
  | some r, some s => some (if update then s else r)
  | some r, none => some r
  | none, some s => if insert then some s else none
  | none, none => none

@[simp] theorem put_none (update insert : Bool) (old : Option ρ) :
    put update insert old none = old := by
  cases old <;> rfl

section

variable {key} [DecidableEq κ]

theorem lookup_eq_none {rows : List ρ} {k : κ} :
    lookup key rows k = none ↔ k ∉ rows.map key := by
  simp [lookup, List.find?_eq_none]

theorem lookup_eq_some {rows : List ρ} (h : (rows.map key).Nodup) {k : κ} {r : ρ} :
    lookup key rows k = some r ↔ r ∈ rows ∧ key r = k := by
  constructor
  · intro hlookup
    exact ⟨List.mem_of_find?_eq_some hlookup, by simpa using List.find?_some hlookup⟩
  · rintro ⟨hr, rfl⟩
    cases hlookup : lookup key rows (key r) with
    | none => exact absurd (List.mem_map_of_mem hr) (lookup_eq_none.mp hlookup)
    | some s =>
      have hs : s ∈ rows := List.mem_of_find?_eq_some hlookup
      have hkey : key s = key r := by simpa using List.find?_some hlookup
      rw [List.inj_on_of_nodup_map h hs hr hkey]

theorem lookup_perm {rows rows' : List ρ} (hperm : rows.Perm rows') (h : (rows.map key).Nodup)
    (k : κ) : lookup key rows k = lookup key rows' k := by
  have h' : (rows'.map key).Nodup := (hperm.map key).nodup_iff.mp h
  ext r
  rw [lookup_eq_some h, lookup_eq_some h', hperm.mem_iff]

end

section

variable {key} {keysMatch : κ → κ → Bool} (hm : ∀ {k k'}, keysMatch k k' = true → k = k')

include hm

theorem map_key_settled (update : Bool) (target source : List ρ) :
    (target.map (settled key keysMatch update source)).map key = target.map key := by
  rw [List.map_map]
  congr 1
  funext r
  exact key_settled hm update source r

variable {target source : List ρ} (hself : ∀ s ∈ source, keysMatch (key s) (key s) = true)

include hself

theorem unmatched_iff {s : ρ} (hs : s ∈ source) :
    unmatched key keysMatch target s = true ↔ key s ∉ target.map key := by
  refine ⟨?_, mem_unmatched hm⟩
  intro hunmatched hmem
  obtain ⟨r, hr, hkey⟩ := List.mem_map.mp hmem
  have hmatch := List.all_eq_true.mp hunmatched r hr
  rw [hkey, hself s hs] at hmatch
  exact absurd hmatch (by simp)

theorem nodup_merge (ht : (target.map key).Nodup) (hs : (source.map key).Nodup)
    (update insert : Bool) :
    ((merge key keysMatch update insert target source).map key).Nodup := by
  rw [merge, List.map_append, map_key_settled hm]
  cases insert with
  | false => simpa using ht
  | true =>
    rw [if_pos rfl]
    refine ht.append (hs.sublist (List.filter_sublist.map key)) ?_
    intro k hk hk'
    obtain ⟨s, hmem, rfl⟩ := List.mem_map.mp hk'
    obtain ⟨hsource, hunmatched⟩ := List.mem_filter.mp hmem
    exact (unmatched_iff hm hself hsource).mp hunmatched hk

variable [DecidableEq κ]

theorem settled_eq (hs : (source.map key).Nodup) (update : Bool) (r : ρ) :
    settled key keysMatch update source r =
      ((put update false (some r) (lookup key source (key r))).getD r) := by
  cases hlookup : lookup key source (key r) with
  | none =>
    have hhit : hit key keysMatch source r = none := hit_eq_none hm (lookup_eq_none.mp hlookup)
    cases update <;> simp [settled, put, hhit]
  | some s =>
    obtain ⟨hmem, hkey⟩ := (lookup_eq_some hs).mp hlookup
    have hhit : hit key keysMatch source r = some s := hit_self hm hs hself hmem hkey.symm
    cases update <;> simp [settled, put, hhit]

theorem lookup_merge (ht : (target.map key).Nodup) (hs : (source.map key).Nodup)
    (update insert : Bool) (k : κ) :
    lookup key (merge key keysMatch update insert target source) k =
      put update insert (lookup key target k) (lookup key source k) := by
  have hmerged := nodup_merge hm hself ht hs update insert
  cases htarget : lookup key target k with
  | some r =>
    obtain ⟨hr, rfl⟩ := (lookup_eq_some ht).mp htarget
    have hput : put update insert (some r) (lookup key source (key r)) =
        some (settled key keysMatch update source r) := by
      rw [settled_eq hm hself hs]
      cases lookup key source (key r) <;> rfl
    have hkey : key (settled key keysMatch update source r) = key r := key_settled hm update source r
    rw [hput, lookup_eq_some hmerged]
    exact ⟨List.mem_append_left _ (List.mem_map_of_mem hr), hkey⟩
  | none =>
    have habsent := lookup_eq_none.mp htarget
    cases hsource : lookup key source k with
    | none =>
      rw [put, lookup_eq_none, merge, List.map_append, map_key_settled hm, List.mem_append, not_or]
      refine ⟨habsent, ?_⟩
      intro hmem
      cases insert with
      | false => cases hmem
      | true =>
        exact lookup_eq_none.mp hsource (List.map_subset key (List.filter_subset_self _) hmem)
    | some s =>
      obtain ⟨hmem, rfl⟩ := (lookup_eq_some hs).mp hsource
      cases insert with
      | false =>
        rw [put, if_neg (by simp), lookup_eq_none, merge, List.map_append, map_key_settled hm]
        simpa using habsent
      | true =>
        rw [put, if_pos rfl, lookup_eq_some hmerged, merge, if_pos rfl]
        refine ⟨List.mem_append_right _ (List.mem_filter.mpr ⟨hmem, ?_⟩), rfl⟩
        exact (unmatched_iff hm hself hmem).mpr habsent

end

end Upsert
