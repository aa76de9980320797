import Mathlib.Data.Set.Finite.Lattice
import PgLance.Fdw.Attach

/-! Listings of a remote namespace and the mapping of what they list. -/

namespace PgLance

/-- The pages that a service splits a tree into, from a root: each table is listed once and each
namespace at least once. -/
structure LanceNamespace.Paged (service : LanceNamespace) (tree : NamespaceTree) (root : TableId)
    (limit : Int) : Prop where
  tables : ∀ ns, tree.Within root ns → (tree.tables ns).Nodup ∧
    ∃ names, Paging.Splits (listPage service.listTables ns limit) none names ∧
      names.Perm (tree.tables ns)
  children : ∀ ns, tree.Within root ns →
    ∃ names, Paging.Splits (listPage service.listNamespaces ns limit) none names ∧
      ∀ name, name ∈ names ↔ name ∈ tree.children ns

def LanceNamespace.Finds (service : LanceNamespace) (tree : NamespaceTree) (limit : Int)
    (fuel : Nat) (ns : TableId) : Prop :=
  ∃ tables namespaces : List String, service.visit fuel limit ns =
      some (.ok (tables.map fun name => ns ++ [name], namespaces.map fun name => ns ++ [name])) ∧
    tables.Perm (tree.tables ns) ∧ ∀ name, name ∈ namespaces ↔ name ∈ tree.children ns

section

variable {service : LanceNamespace} {tree : NamespaceTree} {root ns : TableId} {limit : Int}
  {fuel fuel' : Nat}

theorem LanceNamespace.visit_mono (hle : fuel ≤ fuel')
    {r : Except String (List TableId × List TableId)} (h : service.visit fuel limit ns = some r) :
    service.visit fuel' limit ns = some r := by
  rw [visit] at h
  cases htables : Paging.read (listPage service.listTables ns limit) fuel none with
  | none =>
    rw [htables] at h
    cases h
  | some result =>
    rw [htables] at h
    rw [visit, Paging.read_mono hle htables]
    cases result with
    | error e => exact h
    | ok tables =>
      obtain ⟨r', hnamespaces, hr⟩ := Option.map_eq_some_iff.mp h
      simp only [Paging.read_mono hle hnamespaces, Option.map_some, hr]

theorem LanceNamespace.listTableIds_mono (hle : fuel ≤ fuel') {r : Except String (List TableId)}
    (h : service.listTableIds root limit fuel = some r) :
    service.listTableIds root limit fuel' = some r :=
  Worklist.run_mono (fun _ _ => visit_mono hle) hle h

theorem LanceNamespace.Paged.finds (h : service.Paged tree root limit)
    (hns : tree.Within root ns) : ∃ fuel, service.Finds tree limit fuel ns := by
  obtain ⟨-, tables, htables, hperm⟩ := h.tables ns hns
  obtain ⟨namespaces, hnamespaces, hmem⟩ := h.children ns hns
  obtain ⟨n, htables⟩ := htables.read
  obtain ⟨m, hnamespaces⟩ := hnamespaces.read
  refine ⟨max n m, tables, namespaces, ?_, hperm, hmem⟩
  rw [visit, Paging.read_mono (le_max_left n m) htables]
  simp only [Paging.read_mono (le_max_right n m) hnamespaces]
  rfl

/-- One amount of fuel will do for all visits to a finite tree. -/
theorem LanceNamespace.Paged.finds_all (h : service.Paged tree root limit)
    (hfinite : {ns | tree.Within root ns}.Finite) :
    ∃ n, ∀ fuel, n ≤ fuel → ∀ ns, tree.Within root ns → service.Finds tree limit fuel ns := by
  have hfinds : ∀ ns, ∃ fuel, tree.Within root ns → service.Finds tree limit fuel ns := by
    intro ns
    by_cases hns : tree.Within root ns
    · obtain ⟨fuel, hfuel⟩ := h.finds hns
      exact ⟨fuel, fun _ => hfuel⟩
    · exact ⟨0, fun hns' => absurd hns' hns⟩
  choose enough henough using hfinds
  obtain ⟨n, hn⟩ := (hfinite.image enough).bddAbove
  refine ⟨n, fun fuel hfuel ns hns => ?_⟩
  have hle : enough ns ≤ fuel := (hn (Set.mem_image_of_mem enough hns)).trans hfuel
  obtain ⟨tables, namespaces, hvisit, hrest⟩ := henough ns hns
  exact ⟨tables, namespaces, visit_mono hle hvisit, hrest⟩

theorem reached_iff (h : ∀ ns, tree.Within root ns → service.Finds tree limit fuel ns) :
    Relation.ReflTransGen (Worklist.Child (service.visit fuel limit)) root ns ↔
      tree.Within root ns := by
  constructor
  · intro hpath
    induction hpath with
    | refl => exact .refl
    | @tail ns ns' _ hchild ih =>
      obtain ⟨tables, namespaces, hvisit, -, hmem⟩ := h _ ih
      obtain ⟨items, children, hvisit', hchild⟩ := hchild
      rw [hvisit] at hvisit'
      cases hvisit'
      obtain ⟨name, hname, rfl⟩ := List.mem_map.mp hchild
      exact ih.tail ⟨name, (hmem name).mp hname, rfl⟩
  · intro hwithin
    induction hwithin with
    | refl => exact .refl
    | @tail ns ns' hns hchild ih =>
      obtain ⟨tables, namespaces, hvisit, -, hmem⟩ := h _ hns
      obtain ⟨name, hname, rfl⟩ := hchild
      exact ih.tail ⟨_, _, hvisit, List.mem_map_of_mem ((hmem name).mpr hname)⟩

theorem listTableIds_ends (hfinite : {ns | tree.Within root ns}.Finite)
    (h : ∀ ns, tree.Within root ns → service.Finds tree limit fuel ns)
    (hfuel : hfinite.toFinset.toList.length ≤ fuel) :
    ∃ ids, service.listTableIds root limit fuel = some (.ok ids) := by
  have hends : (service.listTableIds root limit fuel).isSome := by
    apply Worklist.run_ends hfinite.toFinset.toList (List.nodup_singleton root)
    · have hroot : tree.Within root root := .refl
      simpa using hroot
    · simp
    · intro y hy x hpath
      rw [List.mem_singleton.mp hy, reached_iff h] at hpath
      obtain ⟨tables, namespaces, hvisit, -⟩ := h x hpath
      exact ⟨by simpa using hpath, by rw [hvisit]; rfl⟩
    · exact Nat.add_le_add_right hfuel 1
  obtain ⟨r, hr⟩ := Option.isSome_iff_exists.mp hends
  have hok : ∃ ids, r = .ok ids := by
    refine Worklist.run_ok ?_ hr
    intro y hy x hpath e
    rw [List.mem_singleton.mp hy, reached_iff h] at hpath
    obtain ⟨tables, namespaces, hvisit, -⟩ := h x hpath
    rw [hvisit]
    simp
  obtain ⟨ids, rfl⟩ := hok
  exact ⟨ids, hr⟩

theorem nodup_listTableIds (hnodup : ∀ ns, tree.Within root ns → (tree.tables ns).Nodup)
    (h : ∀ ns, tree.Within root ns → service.Finds tree limit fuel ns) {ids : List TableId}
    (hids : service.listTableIds root limit fuel = some (.ok ids)) : ids.Nodup := by
  obtain ⟨done, rfl, hdone, -, hreached⟩ :=
    Worklist.run_flatMap (List.nodup_singleton root) (by simp) hids
  have hitems : ∀ ns ∈ done, ∃ tables : List String, tables.Nodup ∧
      Worklist.itemsOf (service.visit fuel limit) ns = tables.map fun name => ns ++ [name] := by
    intro ns hns
    obtain ⟨y, hy, hpath⟩ := hreached ns hns
    rw [List.mem_singleton.mp hy, reached_iff h] at hpath
    obtain ⟨tables, namespaces, hvisit, hperm, -⟩ := h ns hpath
    refine ⟨tables, hperm.nodup_iff.mpr (hnodup ns hpath), ?_⟩
    rw [Worklist.itemsOf, hvisit]
  rw [List.nodup_flatMap]
  refine ⟨?_, hdone.imp_of_mem ?_⟩
  · intro ns hns
    obtain ⟨tables, hnodup, htables⟩ := hitems ns hns
    rw [htables]
    exact hnodup.map fun _ _ heq => (List.singleton_inj.mp (List.append_cancel_left heq))
  · intro ns ns' hns hns' hne id hid hid'
    obtain ⟨tables, -, htables⟩ := hitems ns hns
    obtain ⟨tables', -, htables'⟩ := hitems ns' hns'
    rw [htables] at hid
    rw [htables'] at hid'
    obtain ⟨name, -, rfl⟩ := List.mem_map.mp hid
    obtain ⟨name', -, heq⟩ := List.mem_map.mp hid'
    exact hne (List.append_inj_left' heq rfl).symm

theorem mem_listTableIds_iff (h : ∀ ns, tree.Within root ns → service.Finds tree limit fuel ns)
    {ids : List TableId} (hids : service.listTableIds root limit fuel = some (.ok ids))
    (id : TableId) : id ∈ ids ↔
      ∃ ns name, tree.Within root ns ∧ name ∈ tree.tables ns ∧ id = ns ++ [name] := by
  rw [(Worklist.mem_run hids).2]
  constructor
  · rintro ⟨ns, hpath, items, children, hvisit, hid⟩
    rw [reached_iff h] at hpath
    obtain ⟨tables, namespaces, hvisit', hperm, -⟩ := h ns hpath
    rw [hvisit] at hvisit'
    cases hvisit'
    obtain ⟨name, hname, rfl⟩ := List.mem_map.mp hid
    exact ⟨ns, name, hpath, hperm.mem_iff.mp hname, rfl⟩
  · rintro ⟨ns, name, hwithin, hname, rfl⟩
    obtain ⟨tables, namespaces, hvisit, hperm, -⟩ := h ns hwithin
    exact ⟨ns, (reached_iff h).mpr hwithin, _, _, hvisit,
      List.mem_map_of_mem (hperm.mem_iff.mpr hname)⟩

/-- However it is split into pages, the listing of a finite tree ends with each table within its
root once. -/
theorem listTableIds_exact (hfinite : {ns | tree.Within root ns}.Finite)
    (h : service.Paged tree root limit) :
    ∃ ids, (∃ n, ∀ fuel, n ≤ fuel → service.listTableIds root limit fuel = some (.ok ids)) ∧
      ids.Nodup ∧ ∀ id, id ∈ ids ↔
        ∃ ns name, tree.Within root ns ∧ name ∈ tree.tables ns ∧ id = ns ++ [name] := by
  obtain ⟨m, hfinds⟩ := h.finds_all hfinite
  let n := max m hfinite.toFinset.toList.length
  have hfinds : ∀ ns, tree.Within root ns → service.Finds tree limit n ns :=
    hfinds n (le_max_left _ _)
  obtain ⟨ids, hids⟩ := listTableIds_ends hfinite hfinds (le_max_right _ _)
  refine ⟨ids, ⟨n, fun fuel hle => LanceNamespace.listTableIds_mono hle hids⟩, ?_, ?_⟩
  · exact nodup_listTableIds (fun ns hns => (h.tables ns hns).1) hfinds hids
  · exact mem_listTableIds_iff hfinds hids

end

def pagedTree : NamespaceTree where
  tables ns := if ns = [] then ["a", "b"] else if ns = ["x"] then ["a"] else []
  children ns := if ns = [] then ["x"] else []

/-- The pages have one item at most, and one repeats the namespace, unless more are asked for. -/
def pagedService : LanceNamespace where
  listTables request :=
    if request.limit > 1 then .ok ⟨pagedTree.tables request.id, none⟩
    else if request.id = ["x"] then .ok ⟨["a"], none⟩
    else
      match request.pageToken with
      | none => .ok ⟨["b"], some "1"⟩
      | some token =>
        if token = "1" then .ok ⟨[], some "2"⟩
        else if token = "2" then .ok ⟨["a"], some ""⟩
        else .error "no such page"
  listNamespaces request :=
    if request.limit > 1 then .ok ⟨pagedTree.children request.id, some ""⟩
    else if request.id = ["x"] then .ok ⟨[], none⟩
    else
      match request.pageToken with
      | none => .ok ⟨["x"], some "1"⟩
      | some token => if token = "1" then .ok ⟨["x"], none⟩ else .error "no such page"

theorem within_pagedTree {ns : TableId} (h : pagedTree.Within [] ns) : ns = [] ∨ ns = ["x"] := by
  induction h with
  | refl => exact .inl rfl
  | tail _ hchild ih =>
    obtain ⟨name, hname, rfl⟩ := hchild
    rcases ih with rfl | rfl
    · have hname : name = "x" := by simpa [pagedTree] using hname
      exact .inr (by rw [hname]; rfl)
    · cases hname

theorem pagedTree_finite : {ns | pagedTree.Within [] ns}.Finite :=
  (Set.toFinite {[], ["x"]}).subset fun _ hns => within_pagedTree hns

theorem pagedService_small : pagedService.Paged pagedTree [] 1 where
  tables ns hns := by
    rcases within_pagedTree hns with rfl | rfl
    · exact ⟨by decide, _, .more rfl (.more rfl (.last rfl)), by decide⟩
    · exact ⟨by decide, _, .last rfl, by decide⟩
  children ns hns := by
    rcases within_pagedTree hns with rfl | rfl
    · refine ⟨_, .more rfl (.last rfl), ?_⟩
      simp [pagedTree]
    · exact ⟨_, .last rfl, by simp [pagedTree]⟩

theorem pagedService_large : pagedService.Paged pagedTree [] 10 where
  tables ns hns := by
    rcases within_pagedTree hns with rfl | rfl
    · exact ⟨by decide, _, .last rfl, List.Perm.refl _⟩
    · exact ⟨by decide, _, .last rfl, List.Perm.refl _⟩
  children ns hns := by
    rcases within_pagedTree hns with rfl | rfl
    · exact ⟨_, .last rfl, fun _ => Iff.rfl⟩
    · exact ⟨_, .last rfl, fun _ => Iff.rfl⟩

theorem listTableIds_exact_pages :
    (∃ ids, (∃ n, ∀ fuel, n ≤ fuel → pagedService.listTableIds [] 1 fuel = some (.ok ids)) ∧
      ids.Nodup ∧ ∀ id, id ∈ ids ↔
        ∃ ns name, pagedTree.Within [] ns ∧ name ∈ pagedTree.tables ns ∧ id = ns ++ [name]) ∧
    ∃ ids, (∃ n, ∀ fuel, n ≤ fuel → pagedService.listTableIds [] 10 fuel = some (.ok ids)) ∧
      ids.Nodup ∧ ∀ id, id ∈ ids ↔
        ∃ ns name, pagedTree.Within [] ns ∧ name ∈ pagedTree.tables ns ∧ id = ns ++ [name] :=
  ⟨listTableIds_exact pagedTree_finite pagedService_small,
    listTableIds_exact pagedTree_finite pagedService_large⟩

section

variable {schemaPrefix : String} {ids : List TableId} {mapping : Mapping}

/-- Another position of the list is mapped to the same place. -/
def Clashes (schemaPrefix : String) (ids : List TableId) (i : Nat) (id : TableId) : Prop :=
  ∃ j other, j ≠ i ∧ ids[j]? = some other ∧
    localPlace schemaPrefix other = localPlace schemaPrefix id

theorem mem_conflicts_ofGroups {byLocal : List (QualName × List TableId)} {id : TableId} :
    id ∈ (Mapping.ofGroups byLocal).conflicts ↔
      ∃ group ∈ byLocal, 1 < group.2.length ∧ id ∈ group.2 := by
  rw [Mapping.ofGroups, List.mem_flatMap]
  refine exists_congr fun group => and_congr_right fun _ => ?_
  split
  · rename_i hlength
    simp [hlength]
  · rename_i hlength
    simp [hlength]

theorem ofKey_placed {placed : List (QualName × TableId)} {place : QualName}
    (h : ∀ entry ∈ placed, localPlace schemaPrefix entry.2 = .ok entry.1) :
    Grouping.ofKey place placed =
      (placed.map Prod.snd).filter fun id => localPlace schemaPrefix id = .ok place := by
  rw [Grouping.ofKey, List.filter_map]
  congr 1
  apply List.filter_congr
  intro entry hentry
  simp [h entry hentry]

theorem mem_conflicts_iff (h : buildMapping schemaPrefix ids = .ok mapping) {i : Nat}
    {id : TableId} (hid : ids[i]? = some id) :
    id ∈ mapping.conflicts ↔ Clashes schemaPrefix ids i id := by
  obtain ⟨placed, hplaced, h⟩ := Fallible.bind_ok_iff.mp h
  cases h
  obtain ⟨rfl, hplaces⟩ := placed_ok hplaced
  obtain ⟨⟨place, id'⟩, hentry, rfl⟩ := List.mem_map.mp (List.mem_of_getElem? hid)
  have hplace := hplaces _ hentry
  simp only at hid hplace
  have hcount := Grouping.one_lt_length_filter_iff
    (p := fun id => localPlace schemaPrefix id = .ok place) hid (by simpa using hplace)
  simp only [decide_eq_true_eq] at hcount
  rw [mem_conflicts_ofGroups, Clashes, hplace, ← hcount, ← ofKey_placed hplaces]
  constructor
  · rintro ⟨⟨k, values⟩, hgroup, hlength, hmem⟩
    obtain ⟨-, rfl⟩ := Grouping.mem_toList_group.mp hgroup
    rw [ofKey_placed hplaces, List.mem_filter] at hmem
    have hk := of_decide_eq_true hmem.2
    rw [hplace, Except.ok.injEq] at hk
    exact hk ▸ hlength
  · intro hlength
    refine ⟨(place, Grouping.ofKey place placed), ?_, hlength, ?_⟩
    · rw [Grouping.mem_toList_group]
      refine ⟨fun hnil => ?_, rfl⟩
      simp [hnil] at hlength
    · rw [ofKey_placed hplaces, List.mem_filter]
      exact ⟨List.mem_of_getElem? hid, decide_eq_true hplace⟩

theorem not_mem_conflicts_of_mem_entries (h : buildMapping schemaPrefix ids = .ok mapping)
    {id : TableId} (hid : id ∈ mapping.entries.map Prod.fst) : id ∉ mapping.conflicts := by
  obtain ⟨placed, hplaced, h⟩ := Fallible.bind_ok_iff.mp h
  cases h
  obtain ⟨rfl, hplaces⟩ := placed_ok hplaced
  obtain ⟨⟨id, place⟩, hentry, rfl⟩ := List.mem_map.mp hid
  obtain ⟨-, hsingle⟩ := Grouping.mem_toList_group.mp (mem_ofGroups.mp hentry)
  have hplaceOf : ∀ k values, (k, values) ∈ (Grouping.group placed).toList → id ∈ values →
      localPlace schemaPrefix id = .ok k := by
    intro k values hgroup hmem
    obtain ⟨-, rfl⟩ := Grouping.mem_toList_group.mp hgroup
    rw [ofKey_placed hplaces, List.mem_filter] at hmem
    exact of_decide_eq_true hmem.2
  have hplace := hplaceOf place [id] (mem_ofGroups.mp hentry) List.mem_cons_self
  rw [mem_conflicts_ofGroups]
  rintro ⟨⟨k, values⟩, hgroup, hlength, hmem⟩
  have hk := hplaceOf k values hgroup hmem
  rw [hplace, Except.ok.injEq] at hk
  obtain ⟨-, rfl⟩ := Grouping.mem_toList_group.mp hgroup
  rw [← hk, ← hsingle] at hlength
  exact absurd hlength (lt_irrefl 1)

theorem mem_entries_iff (h : buildMapping schemaPrefix ids = .ok mapping) {i : Nat}
    {id : TableId} (hid : ids[i]? = some id) :
    id ∈ mapping.entries.map Prod.fst ↔ ¬ Clashes schemaPrefix ids i id := by
  rw [← mem_conflicts_iff h hid]
  constructor
  · exact not_mem_conflicts_of_mem_entries h
  · intro hconflict
    have hmem := (buildMapping_covers h).perm.mem_iff.mpr (List.mem_of_getElem? hid)
    exact (List.mem_append.mp hmem).resolve_left hconflict

end

end PgLance
