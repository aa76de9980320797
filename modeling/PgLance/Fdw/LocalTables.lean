import PgLance.Fdw.Sync

/-! The foreign tables of a server, by the table ids in their options. -/

namespace PgLance

section

variable {env : NamespaceEnv} {serverName : String} {root : TableId} {σ : LocalCatalog}

theorem namespaceTable_eq_some {place : QualName} {rel : Relation} {t : LocalNamespaceTable}
    {json : Option String} :
    namespaceTable serverName (place, rel) = some (t, json) ↔
      t.place = place ∧ ∃ options, rel.kind = .foreignTable serverName options ∧
        options.lookup optNsTableId = some json ∧
        t.batchSize = (options.lookup optBatchSize).join.bind i64Parse := by
  rw [namespaceTable]
  constructor
  · intro h
    cases hkind : rel.kind with
    | foreignTable server options =>
      simp only [hkind] at h
      split at h
      · rename_i hserver
        obtain ⟨json', hjson, heq⟩ := Option.map_eq_some_iff.mp h
        cases heq
        exact ⟨rfl, options, by rw [hserver], hjson, rfl⟩
      · cases h
    | compositeType | other => simp [hkind] at h
  · rintro ⟨rfl, options, hkind, hjson, hbatch⟩
    simp only [hkind, hjson, ← hbatch, if_true, Option.map_some]

theorem mem_namespaceTables {t : LocalNamespaceTable} {json : Option String} :
    (t, json) ∈ namespaceTables σ serverName ↔
      ∃ rel options, σ.relations[t.place]? = some rel ∧
        rel.kind = .foreignTable serverName options ∧ options.lookup optNsTableId = some json ∧
        t.batchSize = (options.lookup optBatchSize).join.bind i64Parse := by
  rw [namespaceTables, List.mem_filterMap]
  constructor
  · rintro ⟨⟨place, rel⟩, hmem, hentry⟩
    obtain ⟨rfl, options, hkind, hjson, hbatch⟩ := namespaceTable_eq_some.mp hentry
    exact ⟨rel, options, Std.TreeMap.mem_toList_iff_getElem?_eq_some.mp hmem, hkind, hjson, hbatch⟩
  · rintro ⟨rel, options, hrel, hkind, hjson, hbatch⟩
    exact ⟨(t.place, rel), Std.TreeMap.mem_toList_iff_getElem?_eq_some.mpr hrel,
      namespaceTable_eq_some.mpr ⟨rfl, options, hkind, hjson, hbatch⟩⟩

theorem pairwise_namespaceTables (σ : LocalCatalog) (serverName : String) :
    (namespaceTables σ serverName).Pairwise fun a b => compare a.1.place b.1.place = .lt := by
  apply List.Pairwise.filterMap _ _ Std.TreeMap.ordered_keys_toList
  intro entry entry' hlt a ha b hb
  rw [(namespaceTable_eq_some.mp ha).1, (namespaceTable_eq_some.mp hb).1]
  exact hlt

def carriedId (env : NamespaceEnv) (root : TableId) (entry : LocalNamespaceTable × Option String) :
    Option TableId :=
  match parseTableId env entry.2 with
  | .ok tableId => if hasPrefix tableId root then some tableId else none
  | .error _ => none

/-- A foreign table of the server with a table id under the root. -/
def Carries (env : NamespaceEnv) (serverName : String) (root : TableId) (σ : LocalCatalog)
    (id : TableId) (t : LocalNamespaceTable) : Prop :=
  ∃ json, (t, json) ∈ namespaceTables σ serverName ∧ carriedId env root (t, json) = some id

theorem carriedId_eq_some {entry : LocalNamespaceTable × Option String} {id : TableId} :
    carriedId env root entry = some id ↔
      parseTableId env entry.2 = .ok id ∧ hasPrefix id root = true := by
  rw [carriedId]
  cases hparse : parseTableId env entry.2 with
  | error e => simp
  | ok tableId =>
    by_cases hin : hasPrefix tableId root = true
    · simp only [hin, if_true, Option.some.injEq, Except.ok.injEq]
      exact ⟨fun h => ⟨h, h ▸ hin⟩, fun h => h.1⟩
    · simp only [hin, Bool.false_eq_true, if_false, Except.ok.injEq]
      constructor
      · intro h
        cases h
      · rintro ⟨rfl, h⟩
        exact absurd h hin

theorem introspectStep_spec (acc : LocalById × List NamespaceRow)
    (entry : LocalNamespaceTable × Option String) :
    introspectStep env root acc entry =
      ((match carriedId env root entry with
        | some id => acc.1.insert id entry.1
        | none => acc.1),
      acc.2 ++ (match parseTableId env entry.2 with
        | .error detail => [⟨[], entry.1.place, .error, .failed, detail⟩]
        | .ok id =>
          if hasPrefix id root && acc.1.contains id then
            [⟨id, entry.1.place, .error, .failed, duplicateTableId⟩]
          else [])) := by
  rw [introspectStep, carriedId]
  cases parseTableId env entry.2 with
  | error e => rfl
  | ok id =>
    cases hin : hasPrefix id root with
    | false => simp [hin]
    | true => by_cases hcontains : acc.1.contains id = true <;> simp [hin, hcontains]

theorem getElem?_introspect (tables : List (LocalNamespaceTable × Option String)) (id : TableId) :
    (tables.foldl (introspectStep env root) (∅, [])).1[id]? =
      ((tables.filter fun entry => carriedId env root entry = some id).getLast?).map Prod.fst := by
  induction tables using List.reverseRecOn with
  | nil => simp
  | append_singleton tables entry ih =>
    rw [List.foldl_append, List.foldl_cons, List.foldl_nil, introspectStep_spec,
      List.filter_append]
    cases hid : carriedId env root entry with
    | none => simp [hid, ih]
    | some id' =>
      by_cases heq : id' = id
      · subst heq
        simp [hid]
      · simp [hid, heq, ih, Std.TreeMap.getElem?_insert]

theorem contains_introspect (tables : List (LocalNamespaceTable × Option String)) (id : TableId) :
    (tables.foldl (introspectStep env root) (∅, [])).1.contains id = true ↔
      ∃ entry ∈ tables, carriedId env root entry = some id := by
  rw [Std.TreeMap.contains_eq_isSome_getElem?, getElem?_introspect, Option.isSome_map,
    List.getLast?_isSome, ne_eq, List.filter_eq_nil_iff]
  simp

def invalidRow (env : NamespaceEnv) (entry : LocalNamespaceTable × Option String) :
    Option NamespaceRow :=
  match parseTableId env entry.2 with
  | .error detail => some ⟨[], entry.1.place, .error, .failed, detail⟩
  | .ok _ => none

theorem introspect_errors {tables : List (LocalNamespaceTable × Option String)}
    (h : tables.Pairwise fun a b =>
      ∀ id, carriedId env root a = some id → carriedId env root b ≠ some id) :
    (tables.foldl (introspectStep env root) (∅, [])).2 = tables.filterMap (invalidRow env) := by
  induction tables using List.reverseRecOn with
  | nil => rfl
  | append_singleton tables entry ih =>
    rw [List.pairwise_append] at h
    rw [List.foldl_append, List.foldl_cons, List.foldl_nil, introspectStep_spec, ih h.1,
      List.filterMap_append, List.filterMap_cons, List.filterMap_nil, invalidRow]
    cases hparse : parseTableId env entry.2 with
    | error e => rfl
    | ok id =>
      cases hin : hasPrefix id root with
      | false => simp [hin]
      | true =>
        have hid := carriedId_eq_some.mpr ⟨hparse, hin⟩
        have hcontains : (tables.foldl (introspectStep env root) (∅, [])).1.contains id = false := by
          rw [← Bool.not_eq_true, contains_introspect]
          rintro ⟨other, hother, hsame⟩
          exact h.2.2 other hother entry (List.mem_singleton_self _) id hsame hid
        simp [hin, hcontains]

theorem introspect_errors_mono (acc : LocalById × List NamespaceRow)
    (tables : List (LocalNamespaceTable × Option String)) {row : NamespaceRow} (h : row ∈ acc.2) :
    row ∈ (tables.foldl (introspectStep env root) acc).2 := by
  induction tables generalizing acc with
  | nil => exact h
  | cons entry tables ih =>
    apply ih
    rw [introspectStep_spec]
    exact List.mem_append_left _ h

theorem mem_introspect_errors {before after : List (LocalNamespaceTable × Option String)}
    {entry other : LocalNamespaceTable × Option String} {id : TableId}
    (hid : carriedId env root entry = some id) (hother : other ∈ before)
    (hsame : carriedId env root other = some id) :
    ⟨id, entry.1.place, .error, .failed, duplicateTableId⟩ ∈
      ((before ++ entry :: after).foldl (introspectStep env root) (∅, [])).2 := by
  rw [List.foldl_append, List.foldl_cons]
  apply introspect_errors_mono
  rw [introspectStep_spec]
  obtain ⟨hparse, hin⟩ := carriedId_eq_some.mp hid
  have hcontains := (contains_introspect before id).mpr ⟨other, hother, hsame⟩
  simp [hparse, hin, hcontains]

theorem getLast?_eq_some_of_pairwise {tables : List (LocalNamespaceTable × Option String)}
    (h : tables.Pairwise fun a b => compare a.1.place b.1.place = .lt)
    {entry : LocalNamespaceTable × Option String} :
    tables.getLast? = some entry ↔
      entry ∈ tables ∧ ∀ other ∈ tables, compare other.1.place entry.1.place ≠ .gt := by
  cases tables using List.reverseRecOn with
  | nil => simp
  | append_singleton tables last =>
    rw [List.pairwise_append] at h
    rw [List.getLast?_concat, Option.some.injEq]
    constructor
    · rintro rfl
      refine ⟨by simp, ?_⟩
      intro other hother
      cases List.mem_append.mp hother with
      | inl hother => simp [h.2.2 other hother last (List.mem_singleton_self last)]
      | inr hother => simp [List.mem_singleton.mp hother]
    · rintro ⟨hmem, hmax⟩
      cases List.mem_append.mp hmem with
      | inl hmem =>
        have hlt := h.2.2 entry hmem last (List.mem_singleton_self last)
        exact absurd (Std.OrientedCmp.gt_of_lt hlt) (hmax last (by simp))
      | inr hmem => exact (List.mem_singleton.mp hmem).symm

theorem localById_eq_some {id : TableId} {t : LocalNamespaceTable} :
    (introspectLocalNamespaceTables env serverName root σ).1[id]? = some t ↔
      Carries env serverName root σ id t ∧
        ∀ t', Carries env serverName root σ id t' → compare t'.place t.place ≠ .gt := by
  have hpairwise := (pairwise_namespaceTables σ serverName).filter
    fun entry => decide (carriedId env root entry = some id)
  have hmem : ∀ t json, (t, json) ∈ (namespaceTables σ serverName).filter (fun entry =>
      decide (carriedId env root entry = some id)) ↔
      (t, json) ∈ namespaceTables σ serverName ∧ carriedId env root (t, json) = some id := by
    intro t json
    rw [List.mem_filter, decide_eq_true_iff]
  rw [introspectLocalNamespaceTables, getElem?_introspect, Option.map_eq_some_iff]
  constructor
  · rintro ⟨⟨t, json⟩, hlast, rfl⟩
    obtain ⟨hin, hmax⟩ := (getLast?_eq_some_of_pairwise hpairwise).mp hlast
    refine ⟨⟨json, (hmem t json).mp hin⟩, ?_⟩
    rintro t' ⟨json', hcarries⟩
    exact hmax (t', json') ((hmem t' json').mpr hcarries)
  · rintro ⟨⟨json, hcarries⟩, hmax⟩
    refine ⟨(t, json), (getLast?_eq_some_of_pairwise hpairwise).mpr ⟨(hmem t json).mpr hcarries, ?_⟩,
      rfl⟩
    rintro ⟨t', json'⟩ hother
    exact hmax t' ⟨json', (hmem t' json').mp hother⟩

theorem localById_eq_none {id : TableId} :
    (introspectLocalNamespaceTables env serverName root σ).1[id]? = none ↔
      ∀ t, ¬ Carries env serverName root σ id t := by
  rw [introspectLocalNamespaceTables, getElem?_introspect, Option.map_eq_none_iff,
    List.getLast?_eq_none_iff, List.filter_eq_nil_iff]
  constructor
  · rintro h t ⟨json, hmem, hid⟩
    exact h (t, json) hmem (decide_eq_true hid)
  · rintro h ⟨t, json⟩ hmem hid
    exact h t ⟨json, hmem, of_decide_eq_true hid⟩

def DistinctIds (env : NamespaceEnv) (serverName : String) (root : TableId) (σ : LocalCatalog) :
    Prop :=
  ∀ id t t', Carries env serverName root σ id t → Carries env serverName root σ id t' → t = t'

theorem introspect_errors_of_distinctIds (h : DistinctIds env serverName root σ) :
    (introspectLocalNamespaceTables env serverName root σ).2 =
      (namespaceTables σ serverName).filterMap (invalidRow env) := by
  apply introspect_errors
  apply (pairwise_namespaceTables σ serverName).imp_of_mem
  rintro ⟨t, json⟩ ⟨t', json'⟩ hmem hmem' hlt id hid hid'
  have heq : t = t' := h id t t' ⟨json, hmem, hid⟩ ⟨json', hmem', hid'⟩
  have hself : compare t'.place t'.place = .eq := Std.ReflCmp.compare_self
  simp only [heq] at hlt
  rw [hself] at hlt
  cases hlt

theorem duplicate_error {id : TableId} {t t' : LocalNamespaceTable}
    (h : Carries env serverName root σ id t) (h' : Carries env serverName root σ id t')
    (hne : t ≠ t') :
    ∃ last, (introspectLocalNamespaceTables env serverName root σ).1[id]? = some last ∧
      ⟨id, last.place, .error, .failed, duplicateTableId⟩ ∈
        (introspectLocalNamespaceTables env serverName root σ).2 := by
  cases hlocal : (introspectLocalNamespaceTables env serverName root σ).1[id]? with
  | none => exact absurd h (localById_eq_none.mp hlocal t)
  | some last =>
    refine ⟨last, rfl, ?_⟩
    obtain ⟨⟨json, hlast, hid⟩, hmax⟩ := localById_eq_some.mp hlocal
    obtain ⟨other, hother, hdiffers⟩ : ∃ other, Carries env serverName root σ id other ∧
        other ≠ last := by
      by_cases heq : t = last
      · exact ⟨t', h', fun heq' => hne (heq.trans heq'.symm)⟩
      · exact ⟨t, h, heq⟩
    have hle := hmax other hother
    obtain ⟨json', hother, hid'⟩ := hother
    have hpairwise := pairwise_namespaceTables σ serverName
    obtain ⟨before, after, hsplit⟩ := List.append_of_mem hlast
    rw [introspectLocalNamespaceTables, hsplit]
    rw [hsplit] at hother hpairwise
    rcases List.mem_append.mp hother with hbefore | hafter
    · exact mem_introspect_errors hid hbefore hid'
    · cases List.mem_cons.mp hafter with
      | inl heq => exact absurd (Prod.mk.inj heq).1 hdiffers
      | inr hafter =>
        have hlt := (List.pairwise_cons.mp (List.pairwise_append.mp hpairwise).2.1).1 _ hafter
        exact absurd (Std.OrientedCmp.gt_of_lt hlt) hle

end

end PgLance
