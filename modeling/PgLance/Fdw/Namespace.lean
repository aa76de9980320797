import PgLance.Arrow
import PgLance.Fdw.LocalCatalog
import PgLance.Fdw.Naming
import PgLance.Library.Fallible
import PgLance.Library.Grouping
import PgLance.Library.Paging
import PgLance.Library.Worklist

/-! The tables of a remote namespace, and the local places they are mapped to. -/

namespace PgLance

structure ListRequest where
  id : TableId
  pageToken : Option String
  limit : Int

structure ListResponse where
  items : List String
  pageToken : Option String

def ListResponse.next (response : ListResponse) : Option String :=
  match response.pageToken with
  | none => none
  | some tok => if tok.isEmpty then none else some tok

/-- A namespace service, which does not change between two requests. -/
structure LanceNamespace where
  listTables : ListRequest → Except String ListResponse
  listNamespaces : ListRequest → Except String ListResponse

def listPage (list : ListRequest → Except String ListResponse) (nsId : TableId) (limit : Int)
    (pageToken : Option String) : Except String (List String × Option String) :=
  (list ⟨nsId, pageToken, limit⟩).map fun response => (response.items, response.next)

namespace LanceNamespace

variable (service : LanceNamespace)

/-- Each of the two listings of a namespace starts without a token. -/
def visit (fuel : Nat) (limit : Int) (nsId : TableId) :
    Option (Except String (List TableId × List TableId)) :=
  match Paging.read (listPage service.listTables nsId limit) fuel none with
  | none => none
  | some (.error e) => some (.error e)
  | some (.ok tables) =>
    (Paging.read (listPage service.listNamespaces nsId limit) fuel none).map
      (·.map fun namespaces =>
        (tables.map fun name => nsId ++ [name], namespaces.map fun name => nsId ++ [name]))

/-- `none` when the listing has not ended with the fuel. -/
def listTableIds (rootNamespaceId : TableId) (limitPerListCall : Int) (fuel : Nat) :
    Option (Except String (List TableId)) :=
  Worklist.run (service.visit fuel limitPerListCall) fuel [rootNamespaceId] [rootNamespaceId]

end LanceNamespace

structure NamespaceTree where
  tables : TableId → List String
  children : TableId → List String

namespace NamespaceTree

variable (tree : NamespaceTree)

def Within : TableId → TableId → Prop :=
  Relation.ReflTransGen fun ns ns' => ∃ name ∈ tree.children ns, ns' = ns ++ [name]

def Present (id : TableId) : Prop :=
  ∃ ns name, tree.Within [] ns ∧ name ∈ tree.tables ns ∧ id = ns ++ [name]

def service : LanceNamespace where
  listTables request := .ok ⟨tree.tables request.id, none⟩
  listNamespaces request := .ok ⟨tree.children request.id, none⟩

end NamespaceTree

inductive LoadSite
  | driftCheck | attach
  deriving DecidableEq, Repr

/-- A remote namespace, whose listings end. -/
structure Remote extends NamespaceTree, LanceNamespace where
  load : LoadSite → TableId → Except String Schema
  fuel : TableId → Int → Nat
  ends : ∀ root limit, (toLanceNamespace.listTableIds root limit (fuel root limit)).isSome

namespace Remote

/-- The listings that succeed are complete. -/
structure Lawful (remote : Remote) : Prop where
  tables : ∀ limit ns names, Paging.Splits (listPage remote.listTables ns limit) none names →
    ∀ name, name ∈ names ↔ name ∈ remote.tables ns
  children : ∀ limit ns names, Paging.Splits (listPage remote.listNamespaces ns limit) none names →
    ∀ name, name ∈ names ↔ name ∈ remote.children ns

theorem nil_listed (ns : TableId) (name : String) (h : name ∈ ([] : List String)) :
    ns ++ [name] ∈ ([] : List TableId) := nomatch h

theorem service_ends (tree : NamespaceTree) {ids : List TableId}
    (h : ∀ ns, ∀ name ∈ tree.children ns, ns ++ [name] ∈ ids) (root : TableId) (limit : Int) :
    (tree.service.listTableIds root limit (ids.length + 1)).isSome := by
  have hvisit : ∀ ns, tree.service.visit (ids.length + 1) limit ns =
      some (.ok ((tree.tables ns).map fun name => ns ++ [name],
        (tree.children ns).map fun name => ns ++ [name])) := fun _ => rfl
  have hreached : ∀ x, Relation.ReflTransGen
      (Worklist.Child (tree.service.visit (ids.length + 1) limit)) root x → x ∈ root :: ids := by
    intro x hpath
    cases hpath with
    | refl => exact List.mem_cons_self
    | @tail ns _ _ hchild =>
      obtain ⟨items, children, hns, hx⟩ := hchild
      rw [hvisit] at hns
      cases hns
      obtain ⟨name, hname, rfl⟩ := List.mem_map.mp hx
      exact List.mem_cons_of_mem root (h ns name hname)
  apply Worklist.run_ends (root :: ids) (List.nodup_singleton root) (by simp) (by simp)
  · intro y hy x hpath
    rw [List.mem_singleton.mp hy] at hpath
    exact ⟨hreached x hpath, by rw [hvisit]; rfl⟩
  · simp

def ofTree (tables children : TableId → List String) (ids : List TableId)
    (h : ∀ ns, ∀ name ∈ children ns, ns ++ [name] ∈ ids)
    (load : LoadSite → TableId → Except String Schema) : Remote where
  toNamespaceTree := ⟨tables, children⟩
  toLanceNamespace := NamespaceTree.service ⟨tables, children⟩
  load := load
  fuel _ _ := ids.length + 1
  ends := service_ends ⟨tables, children⟩ h

theorem ofTree_lawful (tables children : TableId → List String) (ids : List TableId)
    (h : ∀ ns, ∀ name ∈ children ns, ns ++ [name] ∈ ids)
    (load : LoadSite → TableId → Except String Schema) :
    (ofTree tables children ids h load).Lawful where
  tables limit ns names hsplits name := by
    cases hsplits with
    | last hpage =>
      cases hpage
      exact Iff.rfl
    | more hpage => cases hpage
  children limit ns names hsplits name := by
    cases hsplits with
    | last hpage =>
      cases hpage
      exact Iff.rfl
    | more hpage => cases hpage

end Remote

def listTableIds (remote : Remote) (rootNamespaceId : TableId) (limitPerListCall : Int) :
    Except String (List TableId) :=
  (remote.toLanceNamespace.listTableIds rootNamespaceId limitPerListCall
    (remote.fuel rootNamespaceId limitPerListCall)).get
      (remote.ends rootNamespaceId limitPerListCall)

def localPlace (schemaPrefix : String) (tableId : TableId) : Except String QualName :=
  (schemaAndTableForTableId schemaPrefix tableId).map fun place => ⟨place.1, place.2⟩

structure Mapping where
  conflicts : List TableId
  entries : List (TableId × QualName)

def Mapping.ofGroups (byLocal : List (QualName × List TableId)) : Mapping where
  conflicts := byLocal.flatMap fun group => if group.2.length > 1 then group.2 else []
  entries := byLocal.filterMap fun group =>
    if group.2.length > 1 then none else group.2.head?.map fun tableId => (tableId, group.1)

def buildMapping (schemaPrefix : String) (tableIds : List TableId) : Except String Mapping := do
  let placed ← tableIds.mapM fun tableId =>
    (localPlace schemaPrefix tableId).map fun place => (place, tableId)
  return .ofGroups (Grouping.group placed).toList

section

variable {remote : Remote} {root : TableId} {limit : Int} {ids : List TableId}

theorem LanceNamespace.visit_ok {service : LanceNamespace} {fuel : Nat} {ns : TableId}
    {p : List TableId × List TableId} (h : service.visit fuel limit ns = some (.ok p)) :
    ∃ tables namespaces, Paging.Splits (listPage service.listTables ns limit) none tables ∧
      Paging.Splits (listPage service.listNamespaces ns limit) none namespaces ∧
      p = (tables.map fun name => ns ++ [name], namespaces.map fun name => ns ++ [name]) := by
  rw [LanceNamespace.visit] at h
  match htables : Paging.read (listPage service.listTables ns limit) fuel none with
  | none =>
    rw [htables] at h
    cases h
  | some (.error e) =>
    rw [htables] at h
    cases h
  | some (.ok tables) =>
    rw [htables] at h
    obtain ⟨r, hnamespaces, hp⟩ := Option.map_eq_some_iff.mp h
    obtain ⟨namespaces, rfl, rfl⟩ := Fallible.map_ok_iff.mp hp
    exact ⟨tables, namespaces, .of_read htables, .of_read hnamespaces, rfl⟩

/-- What is listed are the tables of the namespaces that are reached from the root. -/
theorem listTableIds_visits (h : listTableIds remote root limit = .ok ids) :
    ∃ visit : TableId → Option (Except String (List TableId × List TableId)),
      (∀ ns p, visit ns = some (.ok p) → ∃ tables namespaces,
        Paging.Splits (listPage remote.listTables ns limit) none tables ∧
        Paging.Splits (listPage remote.listNamespaces ns limit) none namespaces ∧
        p = (tables.map fun name => ns ++ [name], namespaces.map fun name => ns ++ [name])) ∧
      (∀ ns, Relation.ReflTransGen (Worklist.Child visit) root ns →
        ∃ items children, visit ns = some (.ok (items, children))) ∧
      ∀ id, id ∈ ids ↔ ∃ ns, Relation.ReflTransGen (Worklist.Child visit) root ns ∧
        ∃ items children, visit ns = some (.ok (items, children)) ∧ id ∈ items := by
  have hrun : remote.toLanceNamespace.listTableIds root limit (remote.fuel root limit) =
      some (.ok ids) := by
    rw [← h, listTableIds, Option.some_get]
  exact ⟨_, fun _ _ => LanceNamespace.visit_ok, Worklist.mem_run hrun⟩

theorem mem_listTableIds (hlawful : remote.Lawful) (h : listTableIds remote root limit = .ok ids)
    (id : TableId) :
    id ∈ ids ↔ ∃ ns name, remote.Within root ns ∧ name ∈ remote.tables ns ∧ id = ns ++ [name] := by
  obtain ⟨visit, hok, hvisits, hmem⟩ := listTableIds_visits h
  rw [hmem]
  constructor
  · rintro ⟨ns, hpath, items, children, hvisit, hid⟩
    obtain ⟨tables, namespaces, htables, -, hp⟩ := hok ns _ hvisit
    rw [(Prod.mk.inj hp).1] at hid
    obtain ⟨name, hname, rfl⟩ := List.mem_map.mp hid
    have hwithin : remote.Within root ns := by
      refine hpath.lift (fun ns => ns) ?_
      rintro ns ns' ⟨items, children, hvisit, hchild⟩
      obtain ⟨tables, namespaces, -, hnamespaces, hp⟩ := hok ns _ hvisit
      rw [(Prod.mk.inj hp).2] at hchild
      obtain ⟨name, hname, rfl⟩ := List.mem_map.mp hchild
      exact ⟨name, (hlawful.children limit ns namespaces hnamespaces name).mp hname, rfl⟩
    exact ⟨ns, name, hwithin, (hlawful.tables limit ns tables htables name).mp hname, rfl⟩
  · rintro ⟨ns, name, hwithin, hname, rfl⟩
    have hpath : Relation.ReflTransGen (Worklist.Child visit) root ns := by
      clear hname
      induction hwithin with
      | refl => exact .refl
      | tail _ hchild ih =>
        obtain ⟨child, hchild, rfl⟩ := hchild
        obtain ⟨items, children, hvisit⟩ := hvisits _ ih
        obtain ⟨tables, namespaces, -, hnamespaces, hp⟩ := hok _ _ hvisit
        refine ih.tail ⟨items, children, hvisit, ?_⟩
        rw [(Prod.mk.inj hp).2]
        exact List.mem_map_of_mem ((hlawful.children limit _ namespaces hnamespaces child).mpr hchild)
    obtain ⟨items, children, hvisit⟩ := hvisits ns hpath
    obtain ⟨tables, namespaces, htables, -, hp⟩ := hok ns _ hvisit
    refine ⟨ns, hpath, items, children, hvisit, ?_⟩
    rw [(Prod.mk.inj hp).1]
    exact List.mem_map_of_mem ((hlawful.tables limit ns tables htables name).mpr hname)

theorem concat_of_mem_listTableIds (h : listTableIds remote root limit = .ok ids) {id : TableId}
    (hid : id ∈ ids) : ∃ ns name, root <+: ns ∧ id = ns ++ [name] := by
  obtain ⟨visit, hok, -, hmem⟩ := listTableIds_visits h
  obtain ⟨ns, hpath, items, children, hvisit, hitem⟩ := (hmem id).mp hid
  obtain ⟨tables, namespaces, -, -, hp⟩ := hok ns _ hvisit
  rw [(Prod.mk.inj hp).1] at hitem
  obtain ⟨name, -, rfl⟩ := List.mem_map.mp hitem
  refine ⟨ns, name, ?_, rfl⟩
  clear hid hitem hvisit hp
  induction hpath with
  | refl => exact List.prefix_rfl
  | tail _ hchild ih =>
    obtain ⟨items, children, hvisit, hchild⟩ := hchild
    obtain ⟨tables, namespaces, -, -, hp⟩ := hok _ _ hvisit
    rw [(Prod.mk.inj hp).2] at hchild
    obtain ⟨name, -, rfl⟩ := List.mem_map.mp hchild
    exact ih.trans (List.prefix_append _ _)

theorem within_of_prefix {tree : NamespaceTree} {ns : TableId} (h : tree.Within [] ns)
    (hroot : root <+: ns) : tree.Within root ns := by
  induction h with
  | refl =>
    rw [List.prefix_nil.mp hroot]
    exact .refl
  | tail hpath hchild ih =>
    obtain ⟨name, hname, rfl⟩ := hchild
    cases List.prefix_concat_iff.mp hroot with
    | inl heq =>
      rw [heq]
      exact .refl
    | inr hroot => exact (ih hroot).tail ⟨name, hname, rfl⟩

/-- A listing has the tables that are present and whose ids start with its root, except for the
one with the id of the root itself. -/
theorem mem_listTableIds_of_present (hlawful : remote.Lawful)
    (h : listTableIds remote root limit = .ok ids) {id : TableId} (hpresent : remote.Present id)
    (hroot : root <+: id) (hne : id ≠ root) : id ∈ ids := by
  obtain ⟨ns, name, hwithin, hname, rfl⟩ := hpresent
  rw [mem_listTableIds hlawful h]
  cases List.prefix_concat_iff.mp hroot with
  | inl heq => exact absurd heq.symm hne
  | inr hroot => exact ⟨ns, name, within_of_prefix hwithin hroot, hname, rfl⟩

theorem prefix_of_mem_listTableIds (h : listTableIds remote root limit = .ok ids) {id : TableId}
    (hid : id ∈ ids) : root <+: id := by
  obtain ⟨ns, name, hroot, rfl⟩ := concat_of_mem_listTableIds h hid
  exact hroot.trans (List.prefix_append _ _)

theorem length_lt_of_mem_listTableIds (h : listTableIds remote root limit = .ok ids) {id : TableId}
    (hid : id ∈ ids) : root.length < id.length := by
  obtain ⟨ns, name, hroot, rfl⟩ := concat_of_mem_listTableIds h hid
  rw [List.length_append, List.length_singleton]
  exact Nat.lt_succ_of_le hroot.length_le

end

section

variable {schemaPrefix : String} {ids : List TableId} {mapping : Mapping}

theorem localPlace_ok (schemaPrefix : String) {id : TableId} (h : id ≠ []) :
    ∃ place, localPlace schemaPrefix id = .ok place := by
  obtain ⟨place, hplace⟩ := schemaAndTableForTableId_ok schemaPrefix h
  exact ⟨⟨place.1, place.2⟩, by rw [localPlace, hplace]; rfl⟩

theorem placed_ok {placed : List (QualName × TableId)}
    (h : (ids.mapM fun id => (localPlace schemaPrefix id).map fun place => (place, id)) =
      .ok placed) :
    placed.map Prod.snd = ids ∧ ∀ entry ∈ placed, localPlace schemaPrefix entry.2 = .ok entry.1 := by
  have hall := Fallible.mapM_ok_iff.mp h
  clear h
  induction hall with
  | nil => simp
  | cons hentry hall ih =>
    obtain ⟨place, hplace, rfl⟩ := Fallible.map_ok_iff.mp hentry
    rw [List.map_cons, ih.1, List.forall_mem_cons]
    exact ⟨rfl, hplace, ih.2⟩

theorem buildMapping_total (h : ∀ id ∈ ids, id ≠ []) :
    ∃ mapping, buildMapping schemaPrefix ids = .ok mapping := by
  have hplaced : ∃ placed, (ids.mapM fun id =>
      (localPlace schemaPrefix id).map fun place => (place, id)) = .ok placed := by
    rw [Fallible.exists_mapM_ok_iff]
    intro id hid
    obtain ⟨place, hplace⟩ := localPlace_ok schemaPrefix (h id hid)
    exact ⟨(place, id), by rw [hplace]; rfl⟩
  obtain ⟨placed, hplaced⟩ := hplaced
  rw [buildMapping, hplaced]
  exact ⟨_, rfl⟩

theorem mem_ofGroups {byLocal : List (QualName × List TableId)} {id : TableId} {place : QualName} :
    (id, place) ∈ (Mapping.ofGroups byLocal).entries ↔ (place, [id]) ∈ byLocal := by
  rw [Mapping.ofGroups, List.mem_filterMap]
  constructor
  · rintro ⟨⟨k, values⟩, hgroup, heq⟩
    match values, heq with
    | [], heq => cases heq
    | [x], heq =>
      cases heq
      exact hgroup
    | x :: y :: rest, heq => simp at heq
  · intro h
    exact ⟨_, h, rfl⟩

theorem perm_ofGroups (byLocal : List (QualName × List TableId)) :
    ((Mapping.ofGroups byLocal).conflicts ++ (Mapping.ofGroups byLocal).entries.map Prod.fst).Perm
      (byLocal.flatMap Prod.snd) := by
  induction byLocal with
  | nil => exact List.Perm.refl _
  | cons group byLocal ih =>
    obtain ⟨k, values⟩ := group
    match values with
    | [] => exact ih
    | [x] => exact List.perm_middle.trans (ih.cons x)
    | x :: y :: rest =>
      have hlength : (x :: y :: rest).length > 1 := by simp
      simp only [Mapping.ofGroups, List.flatMap_cons, List.filterMap_cons, hlength, if_true,
        List.append_assoc]
      exact ih.append_left _

/-- Each table is in conflict with others or mapped to a place of its own. -/
structure Mapping.Covers (mapping : Mapping) (schemaPrefix : String) (ids : List TableId) :
    Prop where
  place : ∀ id place, (id, place) ∈ mapping.entries →
    localPlace schemaPrefix id = .ok place ∧ id ∈ ids
  places : (mapping.entries.map Prod.snd).Nodup
  tableIds : (mapping.entries.map Prod.fst).Nodup
  perm : (mapping.conflicts ++ mapping.entries.map Prod.fst).Perm ids

theorem buildMapping_covers (h : buildMapping schemaPrefix ids = .ok mapping) :
    mapping.Covers schemaPrefix ids := by
  obtain ⟨placed, hplaced, h⟩ := Fallible.bind_ok_iff.mp h
  cases h
  obtain ⟨hids, hplaces⟩ := placed_ok hplaced
  have hplace : ∀ id place,
      (id, place) ∈ (Mapping.ofGroups (Grouping.group placed).toList).entries →
      localPlace schemaPrefix id = .ok place ∧ id ∈ ids := by
    intro id place hmem
    have hkey := (Grouping.mem_toList_group.mp (mem_ofGroups.mp hmem)).2
    have hid : id ∈ Grouping.ofKey place placed := hkey ▸ List.mem_singleton_self id
    obtain ⟨⟨k, x⟩, hentry, rfl⟩ := List.mem_map.mp hid
    obtain ⟨hentry, hk⟩ := List.mem_filter.mp hentry
    rw [← of_decide_eq_true hk]
    exact ⟨hplaces _ hentry, hids ▸ List.mem_map_of_mem hentry⟩
  have hnodup : ((Mapping.ofGroups (Grouping.group placed).toList).entries.map Prod.snd).Nodup := by
    have hkeys : (Grouping.group placed).toList.Pairwise fun a b => a.1 ≠ b.1 :=
      (Std.TreeMap.distinct_keys_toList).imp fun hne heq => hne (by rw [heq]; simp)
    rw [List.Nodup, List.pairwise_map]
    apply List.Pairwise.filterMap _ _ hkeys
    rintro ⟨k, values⟩ ⟨k', values'⟩ hne x hx y hy
    have hx' := mem_ofGroups.mp (List.mem_filterMap.mpr ⟨(k, values), List.mem_singleton_self _, hx⟩)
    have hy' := mem_ofGroups.mp
      (List.mem_filterMap.mpr ⟨(k', values'), List.mem_singleton_self _, hy⟩)
    rw [(Prod.mk.inj (List.mem_singleton.mp hx')).1, (Prod.mk.inj (List.mem_singleton.mp hy')).1]
    exact hne
  refine ⟨hplace, hnodup, ?_, ?_⟩
  · have hmap : ((Mapping.ofGroups (Grouping.group placed).toList).entries.map fun entry =>
        localPlace schemaPrefix entry.1).Nodup := by
      rw [List.map_congr_left fun entry hentry => (hplace entry.1 entry.2 hentry).1]
      have hok := hnodup.map (f := Except.ok (ε := String)) fun _ _ heq => Except.ok.inj heq
      rwa [List.map_map] at hok
    exact List.Nodup.of_map (localPlace schemaPrefix) (by rwa [List.map_map])
  · exact ((perm_ofGroups _).trans (Grouping.perm_group placed)).trans (by rw [hids])

end

theorem utf8ByteSize_of_nameChars {cs : List Char} (h : ∀ c ∈ cs, isNameChar c = true) :
    (String.ofList cs).utf8ByteSize = cs.length := by
  induction cs with
  | nil => rfl
  | cons c cs ih =>
    rw [List.forall_mem_cons] at h
    have hsize : c.utf8Size = 1 := by
      have hname := toNat_of_isNameChar h.1
      have hle : c.val ≤ 0x7f := by
        rw [UInt32.le_iff_toNat_le]
        change c.toNat ≤ 127
        omega
      simp [Char.utf8Size, hle]
    rw [utf8ByteSize_ofList_cons, hsize, ih h.2, List.length_cons, Nat.add_comm]

theorem isNameChar_of_mem_sanitizeChars (lastWasUnderscore : Bool) (cs : List Char) :
    ∀ c ∈ sanitizeChars lastWasUnderscore cs, isNameChar c = true := by
  fun_induction sanitizeChars lastWasUnderscore cs with
  | case1 => simp
  | case2 c rest mapped hmapped ih => exact ih
  | case3 last c rest mapped hmapped hlast ih =>
    rw [List.forall_mem_cons]
    exact ⟨by decide, ih⟩
  | case4 last c rest mapped hmapped ih =>
    rw [List.forall_mem_cons]
    refine ⟨?_, ih⟩
    simp only [mapped] at hmapped ⊢
    split
    · assumption
    · decide

theorem isNameChar_of_mem_uncut (input : String) : ∀ c ∈ uncut input, isNameChar c = true := by
  have hunderscore : isNameChar '_' = true := by decide
  have htrimmed : ∀ c ∈ trimUnderscores (sanitizeChars false input.toList), isNameChar c = true := by
    intro c hc
    rw [trimUnderscores, List.mem_reverse] at hc
    have hinner := (List.dropWhile_sublist _).subset hc
    rw [List.mem_reverse] at hinner
    exact isNameChar_of_mem_sanitizeChars _ _ c ((List.dropWhile_sublist _).subset hinner)
  intro c hc
  have hguarded : ∀ out : List Char, (∀ d ∈ out, isNameChar d = true) →
      c ∈ (if out.head?.any Char.isDigit then '_' :: out else out) → isNameChar c = true := by
    intro out hout hc
    split at hc
    · obtain rfl | hmem := List.mem_cons.mp hc
      · exact hunderscore
      · exact hout c hmem
    · exact hout c hc
  refine hguarded _ ?_ hc
  split
  · exact List.forall_mem_cons.mpr ⟨hunderscore, fun _ h => absurd h List.not_mem_nil⟩
  · exact htrimmed

theorem isNameChar_of_mem_sanitizeIdent (input : String) :
    ∀ c ∈ (sanitizeIdent input).toList, isNameChar c = true := by
  rw [toList_sanitizeIdent]
  exact fun c hc => isNameChar_of_mem_uncut input c (List.mem_of_mem_take hc)

theorem length_sanitizeIdent (input : String) : (sanitizeIdent input).toList.length ≤ 63 := by
  simp only [sanitizeIdent, String.toList_ofList]
  exact List.length_take_le 63 _

theorem fits_of_nameChars {name : String} (h : ∀ c ∈ name.toList, isNameChar c = true)
    (hlength : name.toList.length ≤ 63) : truncateIdentifier name = name := by
  apply truncateIdentifier_of_le
  rw [← String.ofList_toList (s := name), utf8ByteSize_of_nameChars h]
  exact hlength

theorem localPlace_fits {schemaPrefix : String} {id : TableId} {place : QualName}
    (h : localPlace schemaPrefix id = .ok place) : place.Fits := by
  have hunderscore : isNameChar '_' = true := by decide
  have hfold : ∀ (segs : TableId) (schema : String),
      (∀ c ∈ schema.toList, isNameChar c = true) → ∀ c ∈ (segs.foldl (fun schema seg =>
        schema ++ "__" ++ sanitizeIdent seg) schema).toList, isNameChar c = true := by
    intro segs
    induction segs with
    | nil => exact fun _ h => h
    | cons seg segs ih =>
      intro schema hschema
      apply ih
      intro c hc
      have hunderscores : ∀ c ∈ "__".toList, isNameChar c = true := by
        intro c hc
        have heq : c = '_' := by simpa using hc
        exact heq ▸ hunderscore
      simp only [String.toList_append, List.mem_append] at hc
      rcases hc with (hc | hc) | hc
      · exact hschema c hc
      · exact hunderscores c hc
      · exact isNameChar_of_mem_sanitizeIdent seg c hc
  obtain ⟨⟨schema, table⟩, hplace, rfl⟩ := Fallible.map_ok_iff.mp h
  simp only [schemaAndTableForTableId] at hplace
  split at hplace
  · cases hplace
  · rename_i last hlast
    cases hplace
    have htable : truncateIdentifier (sanitizeIdent last) = sanitizeIdent last :=
      fits_of_nameChars (isNameChar_of_mem_sanitizeIdent last) (length_sanitizeIdent last)
    have hchars := hfold id.dropLast _ (isNameChar_of_mem_sanitizeIdent schemaPrefix)
    simp only [QualName.Fits, QualName.stored, htable]
    split
    · rename_i hnil
      rw [List.isEmpty_iff.mp hnil]
      simp only [List.foldl_nil]
      rw [fits_of_nameChars (isNameChar_of_mem_sanitizeIdent _) (length_sanitizeIdent _)]
    · rw [fits_of_nameChars]
      · intro c hc
        rw [String.toList_ofList] at hc
        exact hchars c (List.mem_of_mem_take hc)
      · rw [String.toList_ofList]
        exact List.length_take_le 63 _

end PgLance
