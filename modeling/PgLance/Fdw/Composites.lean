import PgLance.Fdw.AttachLaws

/-! The composite types that the structs of a new table are declared with. -/

namespace PgLance

/-- The name of the relation or type that a type text refers to in a schema. -/
def referenced (schema ty : String) : Option String :=
  match readType schema ty with
  | some ⟨.named name, _⟩ => some name.name
  | _ => none

theorem readType_array (schema ty : String) :
    (readType schema (ty ++ "[]")).map PgType.name = (readType schema ty).map PgType.name := by
  have hsplit := Text.splitArrays_append_brackets ty.toList
  simp only [readType, String.toList_append, show "[]".toList = ['[', ']'] from rfl, hsplit]
  split
  · rfl
  · cases BaseType.ofName (String.ofList (Text.splitArrays ty.toList).2) <;> rfl

theorem referenced_eq (schema ty : String) :
    referenced schema ty = ((readType schema ty).map PgType.name).bind fun
      | .named name => some name.name
      | .base _ => none := by
  rw [referenced]
  rcases readType schema ty with _ | ⟨_ | _, _⟩ <;> rfl

section

variable (table : String)

/-- The composite type that the innermost element of a type is declared with. -/
def rootName : DataType → String → Option String
  | .leaf _, _ => none
  | .list _ ⟨_, elem, _⟩, path => rootName elem (path ++ "_item")
  | .struct _, path => some (compositeTypeName table path)
  | .map _ _, _ => none
  | .dictionary _ value, path => rootName value (path ++ "_dict")
termination_by structural dt => dt

variable {table}

theorem readType_composite (schema path : String) :
    readType schema (compositeTypeName table path) =
      some ⟨.named ⟨truncateIdentifier schema, compositeTypeName table path⟩, false⟩ := by
  rw [readType, splitArrays_compositeTypeName]
  simp only [isLanceType_compositeTypeName, if_true, String.ofList_toList,
    stored_compositeTypeName, bne_self_eq_false]

theorem referenced_base (schema : String) {name : String} (h : name ∈ baseTypes.map Prod.fst) :
    referenced schema name = none := by
  rw [referenced_eq, readType_base schema h]
  cases BaseType.ofName name <;> rfl

theorem referenced_declaredType (schema : String) (dt : DataType) (path : String) :
    referenced schema (declaredType table dt path) = rootName table dt path := by
  induction dt generalizing path with
  | leaf type => exact referenced_base schema (pgTypeForLeaf_mem type)
  | list kind elem ih =>
    rw [declaredType, referenced_eq, readType_array, ← referenced_eq, ih]
    rfl
  | struct fields ih =>
    rw [declaredType, referenced_eq, readType_composite]
    rfl
  | map entries sorted ih => exact referenced_base schema (pgTypeForLeaf_mem .null)
  | dictionary key value ihk ihv => exact ihv (path ++ "_dict")

end

def CompositeTypeDef.refs (schema : String) (ty : CompositeTypeDef) : List String :=
  ty.fields.filterMap fun column => referenced schema column.2

/-- From `st` to `st'`, types were mapped that stand for `defs` and refer to `roots`: each name
that is new belongs to one of `defs`, was collected, and what that one refers to has been seen. -/
structure Walk (schema : String) (defs : List CompositeTypeDef) (roots : List String)
    (st st' : MappingState) : Prop where
  seen : ∀ name ∈ st.seen, name ∈ st'.seen
  collected : ∀ name ∈ st.composites, name ∈ st'.composites
  roots : ∀ name ∈ roots, name ∈ st'.seen
  new : ∀ name ∈ st'.seen, name ∈ st.seen ∨ (name ∈ st'.composites ∧
    ∃ ty ∈ defs, ty.typeName = name ∧ ∀ ref ∈ ty.refs schema, ref ∈ st'.seen)
  only : ∀ (name : String) (ty : CompositeTypeDef), st'.composites[name]? = some ty →
    st.composites[name]? = some ty ∨ ty ∈ defs

namespace Walk

variable {schema : String} {defs more : List CompositeTypeDef} {roots others : List String}
  {st st₁ st₂ : MappingState}

theorem nil (schema : String) (st : MappingState) : Walk schema [] [] st st :=
  ⟨fun _ h => h, fun _ h => h, by simp, fun _ h => .inl h, fun _ _ h => .inl h⟩

theorem append (h₁ : Walk schema defs roots st st₁) (h₂ : Walk schema more others st₁ st₂) :
    Walk schema (defs ++ more) (roots ++ others) st st₂ where
  seen name hname := h₂.seen name (h₁.seen name hname)
  collected name hname := h₂.collected name (h₁.collected name hname)
  roots name hname := by
    cases List.mem_append.mp hname with
    | inl hroot => exact h₂.seen name (h₁.roots name hroot)
    | inr hother => exact h₂.roots name hother
  new name hname := by
    rcases h₂.new name hname with hseen | ⟨hcollected, ty, hty, hrefs⟩
    · rcases h₁.new name hseen with hseen | ⟨hcollected, ty, hty, hname, hrefs⟩
      · exact .inl hseen
      · exact .inr ⟨h₂.collected name hcollected, ty, List.mem_append_left _ hty, hname,
          fun ref href => h₂.seen ref (hrefs ref href)⟩
    · exact .inr ⟨hcollected, ty, List.mem_append_right _ hty, hrefs⟩
  only name ty hget := by
    rcases h₂.only name ty hget with hget | hmem
    · rcases h₁.only name ty hget with hget | hmem
      · exact .inl hget
      · exact .inr (List.mem_append_left _ hmem)
    · exact .inr (List.mem_append_right _ hmem)

theorem struct {ty : CompositeTypeDef}
    (h : Walk schema defs (ty.refs schema) { st with seen := st.seen.insert ty.typeName } st₁) :
    Walk schema (ty :: defs) [ty.typeName] st
      { st₁ with composites := st₁.composites.insert ty.typeName ty } where
  seen name hname := h.seen name (Std.TreeSet.mem_insert.mpr (.inr hname))
  collected name hname := Std.TreeMap.mem_insert.mpr (.inr (h.collected name hname))
  roots name hname := by
    rw [List.mem_singleton.mp hname]
    exact h.seen _ Std.TreeSet.mem_insert_self
  new name hname := by
    rcases h.new name hname with hseen | ⟨hcollected, ty', hty', hrefs⟩
    · rcases Std.TreeSet.mem_insert.mp hseen with heq | hseen
      · rw [← Std.LawfulEqOrd.eq_of_compare heq]
        exact .inr ⟨Std.TreeMap.mem_insert_self, ty, List.mem_cons_self, rfl, h.roots⟩
      · exact .inl hseen
    · exact .inr ⟨Std.TreeMap.mem_insert.mpr (.inr hcollected), ty',
        List.mem_cons_of_mem _ hty', hrefs⟩
  only name ty' hget := by
    rw [Std.TreeMap.getElem?_insert] at hget
    split at hget
    · cases hget
      exact .inr List.mem_cons_self
    · rcases h.only name ty' hget with hget | hmem
      · exact .inl hget
      · exact .inr (List.mem_cons_of_mem _ hmem)

end Walk

section

variable {table : String}

theorem refs_struct (schema : String) (fields : List Field) (path name : String) :
    CompositeTypeDef.refs schema ⟨name, fields.map fun f =>
        (f.name, declaredType table f.dataType (path ++ "_" ++ f.name))⟩ =
      fields.filterMap fun f => rootName table f.dataType (path ++ "_" ++ f.name) := by
  rw [CompositeTypeDef.refs, List.filterMap_map]
  congr 1
  funext f
  exact referenced_declaredType schema f.dataType (path ++ "_" ++ f.name)

theorem walk_pgTypesForFields {schema : String} {fields : List Field}
    (ih : ∀ f ∈ fields, ∀ path st, Walk schema (compositesOf table f.dataType path)
      (rootName table f.dataType path).toList st (pgTypeForArrow table f.dataType path st).2)
    (path : String) (st : MappingState) :
    Walk schema (compositesOfFields table fields path)
      (fields.filterMap fun f => rootName table f.dataType (path ++ "_" ++ f.name)) st
      (pgTypesForFields table fields path st).2 := by
  induction fields generalizing st with
  | nil => exact .nil schema st
  | cons f fields ihs =>
    rw [List.forall_mem_cons] at ih
    have hboth := (ih.1 (path ++ "_" ++ f.name) st).append (ihs ih.2 _)
    have hroots : (f :: fields).filterMap (fun f =>
          rootName table f.dataType (path ++ "_" ++ f.name)) =
        (rootName table f.dataType (path ++ "_" ++ f.name)).toList ++
          fields.filterMap fun f => rootName table f.dataType (path ++ "_" ++ f.name) := by
      rw [List.filterMap_cons]
      cases rootName table f.dataType (path ++ "_" ++ f.name) <;> rfl
    rw [hroots]
    exact hboth

theorem walk_pgTypeForArrow (schema : String) (dt : DataType) (path : String)
    (st : MappingState) :
    Walk schema (compositesOf table dt path) (rootName table dt path).toList st
      (pgTypeForArrow table dt path st).2 := by
  induction dt generalizing path st with
  | leaf type => exact .nil schema st
  | list kind elem ih => exact ih (path ++ "_item") st
  | struct fields ih =>
    simp only [pgTypeForArrow]
    split
    · rename_i hseen
      rw [← Std.TreeSet.mem_iff_contains] at hseen
      exact ⟨fun _ h => h, fun _ h => h, by simpa [rootName] using hseen, fun _ h => .inl h,
        fun _ _ h => .inl h⟩
    · have hfields := walk_pgTypesForFields ih path
        { st with seen := st.seen.insert (compositeTypeName table path) }
      rw [← refs_struct schema fields path (compositeTypeName table path)] at hfields
      rw [fst_pgTypesForFields]
      exact hfields.struct
  | map entries sorted ih => exact .nil schema st
  | dictionary key value ihk ihv => exact ihv (path ++ "_dict") st

theorem walk_pgTypesForColumns (schema : String) (fields : List Field) (st : MappingState) :
    Walk schema (compositesOfColumns table fields)
      (fields.flatMap fun f => (rootName table f.dataType f.name).toList) st
      (pgTypesForColumns table fields st).2 := by
  induction fields generalizing st with
  | nil => exact .nil schema st
  | cons f fields ih => exact (walk_pgTypeForArrow schema f.dataType f.name st).append (ih _)

def SameDefinitions (schema : String) (defs : List CompositeTypeDef) : Prop :=
  ∀ ty ∈ defs, ∀ ty' ∈ defs, ty.typeName = ty'.typeName →
    ty.fields.map (readColumn schema) = ty'.fields.map (readColumn schema)

theorem refs_congr {schema : String} {ty ty' : CompositeTypeDef}
    (h : ty.fields.map (readColumn schema) = ty'.fields.map (readColumn schema)) :
    ty.refs schema = ty'.refs schema := by
  have hrefs : ∀ ty : CompositeTypeDef, ty.refs schema =
      (ty.fields.map (readColumn schema)).filterMap fun column =>
        (column.map fun column => column.type.name).bind fun
          | .named name => some name.name
          | .base _ => none := by
    intro ty
    rw [CompositeTypeDef.refs, List.filterMap_map]
    congr 1
    funext column
    rw [referenced_eq, Function.comp_apply, readColumn, Option.map_map]
    rfl
  rw [hrefs, hrefs, h]

/-- Where structs with the same name have the same attributes, every struct's name is seen: those
of the fields of a struct that was skipped are seen with the struct of its name. -/
theorem seen_of_compositesOf {schema : String} {defs : List CompositeTypeDef} {st : MappingState}
    (hsame : SameDefinitions schema defs)
    (hseen : ∀ name ∈ st.seen, ∃ ty ∈ defs, ty.typeName = name ∧
      ∀ ref ∈ ty.refs schema, ref ∈ st.seen)
    (dt : DataType) (path : String) (hdefs : ∀ ty ∈ compositesOf table dt path, ty ∈ defs)
    (hroot : ∀ name ∈ rootName table dt path, name ∈ st.seen) :
    ∀ ty ∈ compositesOf table dt path, ty.typeName ∈ st.seen := by
  induction dt generalizing path with
  | leaf type => simp [compositesOf]
  | list kind elem ih => exact ih (path ++ "_item") hdefs hroot
  | struct fields ih =>
    rw [compositesOf, List.forall_mem_cons] at hdefs ⊢
    have hname : compositeTypeName table path ∈ st.seen := hroot _ rfl
    obtain ⟨ty, hty, htypeName, hrefs⟩ := hseen _ hname
    rw [← refs_congr (hsame _ hdefs.1 _ hty htypeName.symm), refs_struct] at hrefs
    refine ⟨hname, ?_⟩
    replace hdefs := hdefs.2
    clear hroot hname hty htypeName
    induction fields with
    | nil => simp [compositesOfFields]
    | cons f fields ihs =>
      rw [List.forall_mem_cons] at ih
      rw [compositesOfFields, List.forall_mem_append] at hdefs ⊢
      refine ⟨ih.1 _ hdefs.1 fun name hname => hrefs name ?_, ihs ih.2 ?_ hdefs.2⟩
      · exact List.mem_filterMap.mpr ⟨f, List.mem_cons_self, hname⟩
      · intro ref href
        obtain ⟨g, hg, href⟩ := List.mem_filterMap.mp href
        exact hrefs ref (List.mem_filterMap.mpr ⟨g, List.mem_cons_of_mem _ hg, href⟩)
  | map entries sorted ih => simp [compositesOf]
  | dictionary key value ihk ihv => exact ihv (path ++ "_dict") hdefs hroot

theorem mem_compositesOfColumns {fields : List Field} {ty : CompositeTypeDef}
    (h : ty ∈ (buildSchemaMapping table fields).compositeTypes) :
    ty ∈ compositesOfColumns table fields := by
  have hget := mem_compositeTypes_iff.mp h
  have hwalk := @walk_pgTypesForColumns table "" fields ⟨∅, ∅⟩
  rcases hwalk.only _ ty hget with hempty | hmem
  · simp at hempty
  · exact hmem

theorem exists_compositeType {schema : String} {fields : List Field}
    (hsame : SameDefinitions schema (compositesOfColumns table fields)) {ty : CompositeTypeDef}
    (hty : ty ∈ compositesOfColumns table fields) :
    ∃ ty' ∈ (buildSchemaMapping table fields).compositeTypes, ty'.typeName = ty.typeName := by
  have hwalk := @walk_pgTypesForColumns table schema fields ⟨∅, ∅⟩
  have hempty : ∀ name : String, name ∉ (∅ : Std.TreeSet String) := by simp
  have hnew : ∀ name ∈ (pgTypesForColumns table fields ⟨∅, ∅⟩).2.seen,
      ∃ ty ∈ compositesOfColumns table fields, ty.typeName = name ∧ ∀ ref ∈ ty.refs schema,
        ref ∈ (pgTypesForColumns table fields ⟨∅, ∅⟩).2.seen := by
    intro name hname
    rcases hwalk.new name hname with hseen | ⟨-, hty⟩
    · exact absurd hseen (hempty name)
    · exact hty
  obtain ⟨f, hf, hmem⟩ := List.mem_flatMap.mp hty
  have hseen := seen_of_compositesOf hsame hnew f.dataType f.name
    (fun ty hty => List.mem_flatMap.mpr ⟨f, hf, hty⟩)
    (fun name hname => hwalk.roots name (List.mem_flatMap.mpr ⟨f, hf, by simpa using hname⟩))
    ty hmem
  rcases hwalk.new _ hseen with hseen | ⟨hcollected, -⟩
  · exact absurd hseen (hempty _)
  · obtain ⟨ty', hget⟩ := Option.isSome_iff_exists.mp (Std.TreeMap.mem_iff_isSome_getElem?.mp hcollected)
    have hkeyed : (pgTypesForColumns table fields ⟨∅, ∅⟩).2.Keyed table :=
      keyed_pgTypesForColumns fields fun name ty hget => by simp at hget
    have hname := (hkeyed _ _ hget).1
    exact ⟨ty', mem_compositeTypes_iff.mpr (hname ▸ hget), hname⟩

end

/-! In the catalogue. -/

def CompositeTypeDef.There (schema : String) (ty : CompositeTypeDef) (σ : LocalCatalog) : Prop :=
  ∃ rel, σ.relations[QualName.stored schema ty.typeName]? = some rel ∧
    rel.kind = .compositeType ∧ ty.fields.mapM (readColumn schema) = some rel.columns

def CompositeTypeDef.Available (schema : String) (ty : CompositeTypeDef) (σ : LocalCatalog) :
    Prop :=
  (σ.relations[QualName.stored schema ty.typeName]? = none ∧
    QualName.stored schema ty.typeName ∉ σ.types) ∨ ty.There schema σ

section

variable {pg : Postgres} {schema : String} {ty : CompositeTypeDef} {σ σ' : LocalCatalog}
  {s s' : Session}

theorem CompositeTypeDef.There.congr {ty' : CompositeTypeDef} (h : ty.There schema σ)
    (hname : ty.typeName = ty'.typeName)
    (hfields : ty.fields.map (readColumn schema) = ty'.fields.map (readColumn schema)) :
    ty'.There schema σ := by
  obtain ⟨rel, hrel, hkind, hcolumns⟩ := h
  rw [Fallible.mapM_eq_some_iff, hfields, ← Fallible.mapM_eq_some_iff] at hcolumns
  exact ⟨rel, hname ▸ hrel, hkind, hcolumns⟩

theorem CompositeTypeDef.There.same {schema' : String} {ty' : CompositeTypeDef}
    (h : ty.There schema σ) (h' : ty'.There schema' σ)
    (hname : QualName.stored schema ty.typeName = .stored schema' ty'.typeName) :
    ty.fields.map (readColumn schema) = ty'.fields.map (readColumn schema') := by
  obtain ⟨rel, hrel, -, hcolumns⟩ := h
  obtain ⟨rel', hrel', -, hcolumns'⟩ := h'
  rw [hname, hrel'] at hrel
  cases hrel
  rw [Fallible.mapM_eq_some_iff] at hcolumns hcolumns'
  rw [hcolumns, hcolumns']

theorem CompositeTypeDef.There.keeps {commands : List Command} (h : ty.There schema σ)
    (hadds : Adds commands σ σ') : ty.There schema σ' := by
  obtain ⟨rel, hrel, hkind, hcolumns⟩ := h
  exact ⟨rel, hadds.keeps hrel, hkind, hcolumns⟩

def createTypes (schema : String) (tys : List CompositeTypeDef) : List Command :=
  tys.map (.createCompositeType schema)

theorem createTypes_drops (schema : String) (tys : List CompositeTypeDef) :
    ∀ command ∈ createTypes schema tys, ∀ name, ¬ command.Drops name := by
  simp [createTypes, Command.Drops]

theorem there_of_createTypes {tys : List CompositeTypeDef}
    (h : s.executeAll pg (createTypes schema tys) = .ok s')
    (hnames : (tys.map fun ty => QualName.stored schema ty.typeName).Nodup) (hty : ty ∈ tys)
    (hnone : s.catalog.relations[QualName.stored schema ty.typeName]? = none)
    (htypes : QualName.stored schema ty.typeName ∉ s.catalog.types) :
    ty.There schema s'.catalog := by
  induction tys generalizing s with
  | nil => cases hty
  | cons first tys ih =>
    rw [List.map_cons, List.nodup_cons] at hnames
    obtain ⟨s₁, hfirst, hrest⟩ := Fallible.bind_ok_iff.mp h
    obtain ⟨hexec, -, -⟩ := Session.execute_ok hfirst
    cases List.mem_cons.mp hty with
    | inl heq =>
      subst heq
      have hmade : ty.There schema s₁.catalog := by
        rcases Postgres.execCreateCompositeType_ok (Postgres.exec_ok hexec).2 with
          ⟨hname, -⟩ | ⟨-, -, rel, hkind, hcolumns, heq⟩
        · simp [LocalCatalog.hasTypeName, LocalCatalog.rowType, hnone, htypes] at hname
        · exact ⟨rel, by rw [heq]; simp [LocalCatalog.insert], hkind, hcolumns⟩
      exact hmade.keeps (Session.executeAll_ok hrest (createTypes_drops schema tys)).1
    | inr hmem =>
      have hchanges := Postgres.exec_changes hexec
      apply ih hrest hnames.2 hmem
      · rcases hchanges.relations (QualName.stored schema ty.typeName) with
          heq | ⟨-, rel, -, hname, -⟩ | ⟨hdrops, -⟩
        · rw [heq, hnone]
        · exact absurd (List.mem_map.mpr ⟨ty, hmem, hname⟩) hnames.1
        · cases hdrops
      · rw [hchanges.types]
        exact htypes

theorem none_of_createTypes {tys : List CompositeTypeDef} {name : QualName}
    (h : s.executeAll pg (createTypes schema tys) = .ok s')
    (hnone : s.catalog.relations[name]? = none) (htypes : name ∈ s.catalog.types) :
    s'.catalog.relations[name]? = none := by
  induction tys generalizing s with
  | nil =>
    cases h
    exact hnone
  | cons first tys ih =>
    obtain ⟨s₁, hfirst, hrest⟩ := Fallible.bind_ok_iff.mp h
    obtain ⟨hexec, -, -⟩ := Session.execute_ok hfirst
    have hchanges := Postgres.exec_changes hexec
    apply ih hrest
    · rcases Postgres.execCreateCompositeType_ok (Postgres.exec_ok hexec).2 with
        ⟨-, heq⟩ | ⟨hname, -, rel, -, -, heq⟩
      · rw [heq, hnone]
      · rw [heq, LocalCatalog.insert, Std.TreeMap.getElem?_insert]
        split
        · rename_i heq
          rw [Std.LawfulEqOrd.eq_of_compare heq] at hname
          simp [LocalCatalog.hasTypeName, htypes] at hname
        · exact hnone
    · rw [hchanges.types]
      exact htypes

end

/-! The creation of a table. -/

namespace Creation

def structs (c : Creation) : List CompositeTypeDef := compositesOfColumns c.table c.fields

def place (c : Creation) : QualName := .stored c.schema c.table

/-- The structs of a table that have the same derived name have the same attributes, and before
the table was made nothing else had such a name. -/
structure Clean (c : Creation) : Prop where
  same : SameDefinitions c.schema c.structs
  available : ∀ ty ∈ c.structs, ty.Available c.schema c.before

def Declared (c : Creation) (σ : LocalCatalog) : Prop := ∀ ty ∈ c.structs, ty.There c.schema σ

def Made (c : Creation) (rel : Relation) : Prop :=
  (c.fields.map fun f => (f.name, declaredType c.table f.dataType f.name)).mapM
    (readColumn c.schema) = some rel.columns

end Creation

section

variable {pg : Postgres} {server schema table : String} {options : List (String × String)}
  {fields : Schema} {s s' : Session}

theorem createTypes_adds {tys : List CompositeTypeDef} {s₁ : Session}
    (h : s.executeAll pg (createTypes schema tys) = .ok s₁) :
    Adds (createTypes schema tys) s.catalog s₁.catalog ∧ s₁.created = s.created := by
  have hall := Session.executeAll_ok h (createTypes_drops schema tys)
  exact ⟨hall.1, hall.2.2⟩

theorem Postgres.execCreateForeignTable_server {columns : List (String × String)}
    {σ σ' : LocalCatalog} (h : execCreateForeignTable server schema table options columns σ = .ok σ')
    (hnone : σ.relations[QualName.stored schema table]? = none) :
    (σ.servers.lookup server).isSome = true := by
  rw [execCreateForeignTable] at h
  split at h
  · obtain ⟨defined, -, h⟩ := Fallible.bind_ok_iff.mp h
    split at h
    · rename_i hcontains
      rw [Std.TreeMap.contains_eq_isSome_getElem?, hnone] at hcontains
      cases hcontains
    · split at h
      · cases h
      · split at h
        · rename_i hserver
          exact hserver
        · cases h
  · cases h

structure NewTable (pg : Postgres) (server : String) (options : List (String × String))
    (c : Creation) (s₁ : Session) (s s' : Session) : Prop where
  before : c.before = s.catalog
  created : s'.created = s.created ++ [c]
  types : s.executeAll pg (createTypes c.schema
    (orderCompositeTypes (buildSchemaMapping c.table c.fields).compositeTypes)) = .ok s₁
  adds : Adds [.createForeignTable server c.schema c.table options
    (buildSchemaMapping c.table c.fields).columnTypes] s₁.catalog s'.catalog
  there : ∃ rel, s'.catalog.relations[c.place]? = some rel ∧ c.Made rel
  free : s₁.catalog.relations[c.place]? = none
  known : (s₁.catalog.servers.lookup server).isSome = true

theorem Session.createTable_cases (h : s.createTable pg server schema table options fields = .ok s') :
    (s'.created = s.created ∧ ∃ tys s₁, s.executeAll pg (createTypes schema tys) = .ok s₁ ∧
      s'.catalog = s₁.catalog) ∨
    ∃ s₁, NewTable pg server options ⟨schema, table, fields, s.catalog, s'.catalog⟩ s₁ s s' := by
  obtain ⟨s₁, h₁, h⟩ := Fallible.bind_ok_iff.mp h
  obtain ⟨s₂, h₂, h⟩ := Fallible.bind_ok_iff.mp h
  obtain ⟨-, hcreated₁⟩ := createTypes_adds h₁
  obtain ⟨hexec, -, hcreated₂⟩ := Session.execute_ok h₂
  have hmade := Postgres.execCreateForeignTable_ok (Postgres.exec_ok hexec).2
  split at h
  · rename_i hcontains
    cases h
    refine .inl ⟨hcreated₂.trans hcreated₁, _, s₁, h₁, ?_⟩
    rcases hmade with ⟨-, heq⟩ | ⟨hnone, -⟩
    · exact heq
    · rw [Std.TreeMap.contains_eq_isSome_getElem?, hnone] at hcontains
      cases hcontains
  · rename_i hcontains
    cases h
    rcases hmade with ⟨hthere, -⟩ | ⟨hnone, rel, hkind, hcolumns, heq⟩
    · exact absurd hthere hcontains
    · refine .inr ⟨s₁, ?_⟩
      rw [columnTypes_buildSchemaMapping] at hcolumns
      exact {
        before := rfl
        created := by simp only [hcreated₂, hcreated₁]
        types := h₁
        adds := (Postgres.exec_changes hexec).adds (by simp [Command.Drops])
        there := ⟨rel, by simp only [heq]; simp [LocalCatalog.insert, Creation.place], hcolumns⟩
        free := hnone
        known := Postgres.execCreateForeignTable_server (Postgres.exec_ok hexec).2 hnone }

theorem createTypes_nodup (schema table : String) (fields : Schema) :
    ((orderCompositeTypes (buildSchemaMapping table fields).compositeTypes).map fun ty =>
      QualName.stored schema ty.typeName).Nodup := by
  have hstored : (orderCompositeTypes (buildSchemaMapping table fields).compositeTypes).map
        (fun ty => QualName.stored schema ty.typeName) =
      ((orderCompositeTypes (buildSchemaMapping table fields).compositeTypes).map
        CompositeTypeDef.typeName).map (QualName.mk (truncateIdentifier schema)) := by
    rw [List.map_map]
    apply List.map_congr_left
    intro ty hty
    obtain ⟨path, hpath⟩ :=
      compositeTypes_path ((orderCompositeTypes_perm table fields).mem_iff.mp hty)
    rw [Function.comp_apply, hpath, stored_compositeTypeName]
  rw [hstored]
  apply List.Nodup.map
  · intro a b heq
    exact congrArg QualName.name heq
  · rw [((orderCompositeTypes_perm table fields).map CompositeTypeDef.typeName).nodup_iff]
    exact compositeTypes_nodup table fields

namespace NewTable

variable {c : Creation} {s₁ : Session}

theorem types_adds (h : NewTable pg server options c s₁ s s') :
    ∃ commands, Adds commands s.catalog s'.catalog :=
  ⟨_, (createTypes_adds h.types).1.trans h.adds⟩

theorem declared (h : NewTable pg server options c s₁ s s') (hclean : c.Clean) :
    c.Declared s'.catalog := by
  obtain ⟨commands, hadds⟩ := h.types_adds
  intro ty hty
  have havailable := hclean.available ty hty
  rw [h.before] at havailable
  rcases havailable with ⟨hnone, htypes⟩ | hthere
  · obtain ⟨ty', hty', hname⟩ := exists_compositeType hclean.same hty
    have hsame := hclean.same ty' (mem_compositesOfColumns hty') ty hty hname
    have hmem := (orderCompositeTypes_perm c.table c.fields).mem_iff.mpr hty'
    rw [← hname] at hnone htypes
    have hthere := there_of_createTypes h.types (createTypes_nodup c.schema c.table c.fields) hmem
      hnone htypes
    exact (hthere.congr hname hsame).keeps h.adds
  · exact hthere.keeps hadds

theorem clean (h : NewTable pg server options c s₁ s s') (hdeclared : c.Declared s'.catalog) :
    c.Clean where
  same ty hty ty' hty' hname :=
    (hdeclared ty hty).same (hdeclared ty' hty') (congrArg (QualName.stored c.schema) hname)
  available ty hty := by
    obtain ⟨commands, hadds⟩ := h.types_adds
    obtain ⟨rel, hrel, hkind, hcolumns⟩ := hdeclared ty hty
    rw [CompositeTypeDef.Available, h.before]
    cases hbefore : s.catalog.relations[QualName.stored c.schema ty.typeName]? with
    | some rel' =>
      rw [hadds.keeps hbefore] at hrel
      cases hrel
      exact .inr ⟨rel, hbefore, hkind, hcolumns⟩
    | none =>
      refine .inl ⟨rfl, fun htypes => ?_⟩
      -- neither a composite type nor the table itself is made under a name that is taken
      have hnone := none_of_createTypes h.types hbefore htypes
      rcases h.adds.made hrel with hold | ⟨-, command, hcommand, hcreates⟩
      · rw [hnone] at hold
        cases hold
      · rw [List.mem_singleton.mp hcommand] at hcreates
        rw [hcreates.2.1] at hkind
        cases hkind

/-- The types of a new table are its own exactly when its creation was clean. -/
theorem declared_iff (h : NewTable pg server options c s₁ s s') :
    c.Declared s'.catalog ↔ c.Clean := ⟨h.clean, h.declared⟩

end NewTable

end

end PgLance
