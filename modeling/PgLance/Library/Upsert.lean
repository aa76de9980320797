import Mathlib.Data.List.Nodup
import Mathlib.Data.List.Perm.Basic

/-! Merging the rows of a source into a target by key.  Which keys match is a parameter:
matching keys are equal, but a key need not match itself. -/

namespace Upsert

variable {ρ κ : Type*} (key : ρ → κ) (keysMatch : κ → κ → Bool)

def hit (source : List ρ) (r : ρ) : Option ρ := source.find? fun s => keysMatch (key r) (key s)

def settled (update : Bool) (source : List ρ) (r : ρ) : ρ :=
  if update then (hit key keysMatch source r).getD r else r

def unmatched (target : List ρ) (s : ρ) : Bool := target.all fun r => !keysMatch (key r) (key s)

def merge (update insert : Bool) (target source : List ρ) : List ρ :=
  target.map (settled key keysMatch update source) ++
    if insert then source.filter (unmatched key keysMatch target) else []

variable {key keysMatch}

@[simp] theorem hit_nil (r : ρ) : hit key keysMatch [] r = none := rfl

theorem hit_append (s t : List ρ) (r : ρ) :
    hit key keysMatch (s ++ t) r = (hit key keysMatch s r).or (hit key keysMatch t r) := by
  simp [hit]

theorem unmatched_append (target target' : List ρ) (s : ρ) :
    unmatched key keysMatch (target ++ target') s =
      (unmatched key keysMatch target s && unmatched key keysMatch target' s) := by
  simp [unmatched]

theorem unmatched_congr {target target' : List ρ} (h : target.map key = target'.map key) (s : ρ) :
    unmatched key keysMatch target s = unmatched key keysMatch target' s := by
  have hkeys : ∀ rows : List ρ,
      unmatched key keysMatch rows s = (rows.map key).all fun k => !keysMatch k (key s) := by
    intro rows
    simp [unmatched, Function.comp_def]
  rw [hkeys, hkeys, h]

theorem map_settled_of_hit {target source : List ρ}
    (h : ∀ r ∈ target, (hit key keysMatch source r).getD r = r) (update : Bool) :
    target.map (settled key keysMatch update source) = target := by
  have hid : ∀ r ∈ target, settled key keysMatch update source r = id r := by
    intro r hr
    cases update with
    | false => rfl
    | true => exact h r hr
  rw [List.map_congr_left hid, List.map_id]

@[simp] theorem merge_nil (update insert : Bool) (target : List ρ) :
    merge key keysMatch update insert target [] = target := by
  rw [merge, map_settled_of_hit (by simp)]
  cases insert <;> simp

theorem merge_perm {target target' : List ρ} (h : target.Perm target') (update insert : Bool)
    (source : List ρ) :
    (merge key keysMatch update insert target source).Perm
      (merge key keysMatch update insert target' source) := by
  have hunmatched : unmatched key keysMatch target = unmatched key keysMatch target' := by
    funext s
    exact h.all_eq
  rw [merge, merge, hunmatched]
  exact (h.map _).append (List.Perm.refl _)

section

variable (hm : ∀ {k k'}, keysMatch k k' = true → k = k')

include hm

theorem key_of_hit {source : List ρ} {r s : ρ} (h : hit key keysMatch source r = some s) :
    key s = key r := by
  have hs := List.find?_some h
  exact (hm hs).symm

theorem key_settled (update : Bool) (source : List ρ) (r : ρ) :
    key (settled key keysMatch update source r) = key r := by
  cases update with
  | false => rfl
  | true =>
    cases h : hit key keysMatch source r with
    | none => simp [settled, h]
    | some s => simp [settled, h, key_of_hit hm h]

theorem hit_eq_none {source : List ρ} {r : ρ} (h : key r ∉ source.map key) :
    hit key keysMatch source r = none := by
  simp only [hit, List.find?_eq_none]
  intro s hs hmatch
  apply h
  rw [hm hmatch]
  exact List.mem_map_of_mem hs

theorem mem_unmatched {target : List ρ} {s : ρ} (h : key s ∉ target.map key) :
    unmatched key keysMatch target s = true := by
  simp only [unmatched, List.all_eq_true, Bool.not_eq_true']
  intro r hr
  cases hmatch : keysMatch (key r) (key s) with
  | false => rfl
  | true =>
    rw [← hm hmatch] at h
    exact absurd (List.mem_map_of_mem hr) h

theorem settled_settled {s t : List ρ} (h : (s.map key).Disjoint (t.map key)) (update : Bool)
    (r : ρ) :
    settled key keysMatch update t (settled key keysMatch update s r) =
      settled key keysMatch update (s ++ t) r := by
  cases update with
  | false => rfl
  | true =>
    cases hs : hit key keysMatch s r with
    | none => simp [settled, hit_append, hs]
    | some u =>
      have hmem : u ∈ s := List.mem_of_find?_eq_some hs
      have hnone : hit key keysMatch t u = none :=
        hit_eq_none hm fun hu => h (List.mem_map_of_mem hmem) hu
      simp [settled, hit_append, hs, hnone]

theorem unmatched_map_settled (update : Bool) (target source : List ρ) (s : ρ) :
    unmatched key keysMatch (target.map (settled key keysMatch update source)) s =
      unmatched key keysMatch target s := by
  apply unmatched_congr
  rw [List.map_map]
  congr 1
  funext r
  exact key_settled hm update source r

/-- Merging a source in two pieces is merging it at once. -/
theorem merge_append {s t : List ρ} (h : ((s ++ t).map key).Nodup) (update insert : Bool)
    (target : List ρ) :
    merge key keysMatch update insert (merge key keysMatch update insert target s) t =
      merge key keysMatch update insert target (s ++ t) := by
  rw [List.map_append] at h
  have hdisj : (s.map key).Disjoint (t.map key) := List.disjoint_of_nodup_append h
  have htarget : (target.map (settled key keysMatch update s)).map (settled key keysMatch update t)
      = target.map (settled key keysMatch update (s ++ t)) := by
    rw [List.map_map]
    congr 1
    funext r
    exact settled_settled hm hdisj update r
  have hinserted : ∀ u ∈ t, unmatched key keysMatch (merge key keysMatch update insert target s) u
      = unmatched key keysMatch target u := by
    intro u hu
    rw [merge, unmatched_append, unmatched_map_settled hm]
    have hrest : unmatched key keysMatch
        (if insert then s.filter (unmatched key keysMatch target) else []) u = true := by
      apply mem_unmatched hm
      intro hmem
      cases insert with
      | false => simp at hmem
      | true =>
        rw [if_pos rfl] at hmem
        exact hdisj (List.map_subset key (List.filter_subset_self s) hmem) (List.mem_map_of_mem hu)
    rw [hrest, Bool.and_true]
  cases insert with
  | false =>
    simp only [merge, Bool.false_eq_true, if_false, List.append_nil]
    exact htarget
  | true =>
    have hfilter := List.filter_congr hinserted
    rw [merge, if_pos rfl, hfilter, merge, if_pos rfl, List.map_append, htarget]
    have hkept : (s.filter (unmatched key keysMatch target)).map (settled key keysMatch update t) =
        s.filter (unmatched key keysMatch target) := by
      apply map_settled_of_hit
      intro r hr
      rw [hit_eq_none hm fun ht => hdisj (List.mem_map_of_mem (List.mem_of_mem_filter hr)) ht]
      rfl
    rw [hkept, merge, if_pos rfl, List.filter_append, List.append_assoc]

theorem hit_self {source : List ρ} (h : (source.map key).Nodup)
    (hrefl : ∀ s ∈ source, keysMatch (key s) (key s) = true) {r s : ρ} (hs : s ∈ source)
    (hkey : key r = key s) : hit key keysMatch source r = some s := by
  cases hhit : hit key keysMatch source r with
  | none =>
    simp only [hit, List.find?_eq_none] at hhit
    rw [hkey] at hhit
    exact absurd (hrefl s hs) (hhit s hs)
  | some u =>
    have hu : u ∈ source := List.mem_of_find?_eq_some hhit
    rw [List.inj_on_of_nodup_map h hu hs ((key_of_hit hm hhit).trans hkey)]

/-- An update merge that was completed changes nothing when it is run again. -/
theorem merge_merge_self (insert : Bool) {source : List ρ} (h : (source.map key).Nodup)
    (hrefl : ∀ s ∈ source, keysMatch (key s) (key s) = true) (target : List ρ) :
    merge key keysMatch true insert (merge key keysMatch true insert target source) source =
      merge key keysMatch true insert target source := by
  have hfixed : ∀ r ∈ merge key keysMatch true insert target source,
      (hit key keysMatch source r).getD r = r := by
    intro r hr
    rw [merge, List.mem_append] at hr
    cases hr with
    | inl hr =>
      obtain ⟨r₀, -, rfl⟩ := List.mem_map.mp hr
      cases hhit : hit key keysMatch source r₀ with
      | none => simp [settled, hhit]
      | some s =>
        have hs : s ∈ source := List.mem_of_find?_eq_some hhit
        simp [settled, hhit, hit_self hm h hrefl hs rfl]
    | inr hr =>
      cases insert with
      | false => simp at hr
      | true =>
        rw [if_pos rfl] at hr
        rw [hit_self hm h hrefl (List.mem_of_mem_filter hr) rfl]
        rfl
  have hnone : (if insert then source.filter
      (unmatched key keysMatch (merge key keysMatch true insert target source)) else []) = [] := by
    cases insert with
    | false => rfl
    | true =>
      rw [if_pos rfl, List.filter_eq_nil_iff]
      intro s hs hunmatched
      rw [merge, if_pos rfl, unmatched_append, unmatched_map_settled hm, Bool.and_eq_true]
        at hunmatched
      have hmem : s ∈ source.filter (unmatched key keysMatch target) :=
        List.mem_filter.mpr ⟨hs, hunmatched.1⟩
      have hself := List.all_eq_true.mp hunmatched.2 s hmem
      rw [hrefl s hs] at hself
      exact absurd hself (by simp)
  rw [merge, map_settled_of_hit hfixed, hnone, List.append_nil]

theorem merge_prefix (insert : Bool) {s t : List ρ} (h : ((s ++ t).map key).Nodup)
    (hrefl : ∀ r ∈ s ++ t, keysMatch (key r) (key r) = true) (target : List ρ) :
    merge key keysMatch true insert (merge key keysMatch true insert target s) (s ++ t) =
      merge key keysMatch true insert target (s ++ t) := by
  have hs : (s.map key).Nodup := by
    rw [List.map_append] at h
    exact h.of_append_left
  have hrefls : ∀ r ∈ s, keysMatch (key r) (key r) = true := by
    intro r hr
    exact hrefl r (List.mem_append_left t hr)
  calc merge key keysMatch true insert (merge key keysMatch true insert target s) (s ++ t)
    _ = merge key keysMatch true insert
          (merge key keysMatch true insert (merge key keysMatch true insert target s) s) t :=
      (merge_append hm h true insert _).symm
    _ = merge key keysMatch true insert (merge key keysMatch true insert target s) t := by
      rw [merge_merge_self hm insert hs hrefls]
    _ = merge key keysMatch true insert target (s ++ t) := merge_append hm h true insert target

end

end Upsert
