import PgLance.Arrow

/-! The PostgreSQL types that the extension declares for Arrow types: the text of each
column's type and the composite types that it refers to. -/

namespace PgLance

structure CompositeTypeDef where
  typeName : String
  fields : List (String × String)
  deriving DecidableEq, Repr

structure SchemaMapping where
  compositeTypes : List CompositeTypeDef
  columnTypes : List (String × String)
  deriving DecidableEq, Repr

def compositeTypeName (table path : String) : String :=
  let name := ("lance_" ++ table ++ "_" ++ path).toLower
  let name := name.map fun c => if c.isAlphanum || c == '_' then c else '_'
  if name.utf8ByteSize > 60 then String.ofList (name.toList.take 60) else name

def pgTypeForLeaf : LeafType → String
  | .boolean => "boolean"
  | .int8 | .uint8 => "int2"
  | .int16 => "int2"
  | .uint16 => "int4"
  | .int32 => "int4"
  | .uint32 => "int8"
  | .int64 | .uint64 => "int8"
  | .float16 | .float32 => "float4"
  | .float64 => "float8"
  | .utf8 | .largeUtf8 => "text"
  | .binary | .largeBinary | .fixedSizeBinary _ => "bytea"
  | .date32 | .date64 => "date"
  | .timestamp _ tz => if tz.isSome then "timestamptz" else "timestamp"
  | .decimal128 _ _ | .decimal256 _ _ => "numeric"
  | _ => "jsonb"

structure MappingState where
  composites : Std.TreeMap String CompositeTypeDef
  seen : Std.TreeSet String

section

variable (tableName : String)

/-! No case of `pg_type_for_arrow` fails, so its result is given without the `Result`. -/

mutual
def pgTypeForArrow : DataType → String → MappingState → String × MappingState
  | .leaf type, _, st => (pgTypeForLeaf type, st)
  | .list _ ⟨_, elem, _⟩, path, st =>
    let (inner, st) := pgTypeForArrow elem (path ++ "_item") st
    (inner ++ "[]", st)
  | .struct fields, path, st =>
    let typeName := compositeTypeName tableName path
    if st.seen.contains typeName then (typeName, st)
    else
      let (cols, st) := pgTypesForFields fields path { st with seen := st.seen.insert typeName }
      (typeName, { st with composites := st.composites.insert typeName ⟨typeName, cols⟩ })
  | .map _ _, _, st => ("jsonb", st)
  | .dictionary _ value, path, st => pgTypeForArrow value (path ++ "_dict") st
termination_by structural dt => dt

def pgTypesForFields : List Field → String → MappingState → List (String × String) × MappingState
  | [], _, st => ([], st)
  | ⟨name, dt, _⟩ :: fields, path, st =>
    let (ty, st) := pgTypeForArrow dt (path ++ "_" ++ name) st
    let (cols, st) := pgTypesForFields fields path st
    ((name, ty) :: cols, st)
termination_by structural fields => fields
end

def pgTypesForColumns : List Field → MappingState → List (String × String) × MappingState
  | [], st => ([], st)
  | field :: fields, st =>
    let (ty, st) := pgTypeForArrow tableName field.dataType field.name st
    let (cols, st) := pgTypesForColumns fields st
    ((field.name, ty) :: cols, st)

def buildSchemaMapping (fields : List Field) : SchemaMapping :=
  let (columnTypes, st) := pgTypesForColumns tableName fields ⟨∅, ∅⟩
  ⟨st.composites.toList.map Prod.snd, columnTypes⟩

/-- The type text of an Arrow type at a path, whatever was seen before. -/
def declaredType : DataType → String → String
  | .leaf type, _ => pgTypeForLeaf type
  | .list _ ⟨_, elem, _⟩, path => declaredType elem (path ++ "_item") ++ "[]"
  | .struct _, path => compositeTypeName tableName path
  | .map _ _, _ => "jsonb"
  | .dictionary _ value, path => declaredType value (path ++ "_dict")
termination_by structural dt => dt

mutual
/-- The composite types that the structs of an Arrow type stand for, one for each position. -/
def compositesOf : DataType → String → List CompositeTypeDef
  | .leaf _, _ => []
  | .list _ ⟨_, elem, _⟩, path => compositesOf elem (path ++ "_item")
  | .struct fields, path =>
    ⟨compositeTypeName tableName path,
      fields.map fun f => (f.name, declaredType tableName f.dataType (path ++ "_" ++ f.name))⟩ ::
      compositesOfFields fields path
  | .map _ _, _ => []
  | .dictionary _ value, path => compositesOf value (path ++ "_dict")
termination_by structural dt => dt

def compositesOfFields : List Field → String → List CompositeTypeDef
  | [], _ => []
  | ⟨name, dt, _⟩ :: fields, path =>
    compositesOf dt (path ++ "_" ++ name) ++ compositesOfFields fields path
termination_by structural fields => fields
end

def compositesOfColumns (fields : List Field) : List CompositeTypeDef :=
  fields.flatMap fun f => compositesOf tableName f.dataType f.name

end

section

variable {tableName : String}

theorem fst_pgTypeForArrow (dt : DataType) (path : String) (st : MappingState) :
    (pgTypeForArrow tableName dt path st).1 = declaredType tableName dt path := by
  induction dt generalizing path st with
  | leaf type => rfl
  | list kind elem ih => simp only [pgTypeForArrow, declaredType, ih]
  | struct fields ih =>
    simp only [pgTypeForArrow, declaredType]
    split <;> rfl
  | map entries sorted ih => rfl
  | dictionary key value ihk ihv => simp only [pgTypeForArrow, declaredType, ihv]

theorem fst_pgTypesForFields (fields : List Field) (path : String) (st : MappingState) :
    (pgTypesForFields tableName fields path st).1 =
      fields.map fun f => (f.name, declaredType tableName f.dataType (path ++ "_" ++ f.name)) := by
  induction fields generalizing st with
  | nil => rfl
  | cons f fields ih => simp only [pgTypesForFields, fst_pgTypeForArrow, ih, List.map_cons]

theorem fst_pgTypesForColumns (fields : List Field) (st : MappingState) :
    (pgTypesForColumns tableName fields st).1 =
      fields.map fun f => (f.name, declaredType tableName f.dataType f.name) := by
  induction fields generalizing st with
  | nil => rfl
  | cons f fields ih => simp only [pgTypesForColumns, fst_pgTypeForArrow, ih, List.map_cons]

theorem columnTypes_buildSchemaMapping (fields : List Field) :
    (buildSchemaMapping tableName fields).columnTypes =
      fields.map fun f => (f.name, declaredType tableName f.dataType f.name) :=
  fst_pgTypesForColumns fields ⟨∅, ∅⟩

structure Collected (st : MappingState) (defs : List CompositeTypeDef) (st' : MappingState) :
    Prop where
  added : ∀ ty ∈ defs, st'.composites[ty.typeName]? = some ty
  kept : ∀ name ∉ defs.map CompositeTypeDef.typeName,
    st'.composites[name]? = st.composites[name]?
  seen : ∀ name, name ∈ st'.seen ↔ name ∈ st.seen ∨ name ∈ defs.map CompositeTypeDef.typeName

def Fresh (st : MappingState) (defs : List CompositeTypeDef) : Prop :=
  (defs.map CompositeTypeDef.typeName).Nodup ∧
    ∀ name ∈ defs.map CompositeTypeDef.typeName, name ∉ st.seen

theorem Collected.nil (st : MappingState) : Collected st [] st := ⟨by simp, by simp, by simp⟩

theorem Collected.append {st st₁ st₂ : MappingState} {defs more : List CompositeTypeDef}
    (h₁ : Collected st defs st₁) (h₂ : Collected st₁ more st₂) (hfresh : Fresh st (defs ++ more)) :
    Collected st (defs ++ more) st₂ := by
  have hdisjoint := (List.nodup_append'.mp (List.map_append ▸ hfresh.1)).2.2
  constructor
  · intro ty hty
    cases List.mem_append.mp hty with
    | inl h =>
      rw [h₂.kept _ (fun hmore => hdisjoint (List.mem_map_of_mem h) hmore)]
      exact h₁.added ty h
    | inr h => exact h₂.added ty h
  · intro name hname
    simp only [List.map_append, List.mem_append, not_or] at hname
    rw [h₂.kept name hname.2, h₁.kept name hname.1]
  · intro name
    simp only [h₂.seen, h₁.seen, List.map_append, List.mem_append, or_assoc]

theorem Fresh.left {st : MappingState} {defs more : List CompositeTypeDef}
    (h : Fresh st (defs ++ more)) : Fresh st defs := by
  simp only [Fresh, List.map_append] at h ⊢
  exact ⟨h.1.of_append_left, fun name hname => h.2 name (List.mem_append_left _ hname)⟩

theorem Fresh.right {st st₁ : MappingState} {defs more : List CompositeTypeDef}
    (h : Fresh st (defs ++ more)) (h₁ : Collected st defs st₁) : Fresh st₁ more := by
  simp only [Fresh, List.map_append] at h ⊢
  refine ⟨h.1.of_append_right, ?_⟩
  intro name hname hseen
  cases (h₁.seen name).mp hseen with
  | inl hst => exact h.2 name (List.mem_append_right _ hname) hst
  | inr hdefs => exact (List.nodup_append'.mp h.1).2.2 hdefs hname

theorem Collected.struct {st st' : MappingState} {ty : CompositeTypeDef}
    {defs : List CompositeTypeDef}
    (h : Collected { st with seen := st.seen.insert ty.typeName } defs st')
    (hfresh : Fresh st (ty :: defs)) :
    Collected st (ty :: defs) { st' with composites := st'.composites.insert ty.typeName ty } := by
  have hty : ty.typeName ∉ defs.map CompositeTypeDef.typeName :=
    (List.nodup_cons.mp hfresh.1).1
  constructor
  · intro ty' hty'
    cases List.mem_cons.mp hty' with
    | inl heq => simp [heq]
    | inr hmem =>
      have hne : ty.typeName ≠ ty'.typeName := by
        intro heq
        exact hty (heq ▸ List.mem_map_of_mem hmem)
      simp [Std.TreeMap.getElem?_insert, hne, h.added ty' hmem]
  · intro name hname
    simp only [List.map_cons, List.mem_cons, not_or] at hname
    simp [Std.TreeMap.getElem?_insert, Ne.symm hname.1, h.kept name hname.2]
  · intro name
    simp only [h.seen, Std.TreeSet.mem_insert, Std.compare_eq_iff_eq, List.map_cons, List.mem_cons]
    tauto

theorem Collected.fields {fields : List Field}
    (ih : ∀ f ∈ fields, ∀ path st, Fresh st (compositesOf tableName f.dataType path) →
      Collected st (compositesOf tableName f.dataType path)
        (pgTypeForArrow tableName f.dataType path st).2)
    (path : String) {st : MappingState}
    (hfresh : Fresh st (compositesOfFields tableName fields path)) :
    Collected st (compositesOfFields tableName fields path)
      (pgTypesForFields tableName fields path st).2 := by
  induction fields generalizing st with
  | nil => exact .nil st
  | cons f fields ihs =>
    have hf := ih f (by simp) (path ++ "_" ++ f.name) st hfresh.left
    exact hf.append (ihs (fun g hg => ih g (by simp [hg])) (hfresh.right hf)) hfresh

theorem collected_pgTypeForArrow (dt : DataType) (path : String) (st : MappingState)
    (hfresh : Fresh st (compositesOf tableName dt path)) :
    Collected st (compositesOf tableName dt path) (pgTypeForArrow tableName dt path st).2 := by
  induction dt generalizing path st with
  | leaf type => exact .nil st
  | list kind elem ih => exact ih _ st hfresh
  | struct fields ih =>
    have hseen : compositeTypeName tableName path ∉ st.seen := hfresh.2 _ (by simp [compositesOf])
    have hfields : Fresh { st with seen := st.seen.insert (compositeTypeName tableName path) }
        (compositesOfFields tableName fields path) := by
      obtain ⟨hnodup, hunseen⟩ := hfresh
      simp only [compositesOf, List.map_cons, List.nodup_cons] at hnodup hunseen
      refine ⟨hnodup.2, ?_⟩
      intro name hname hinsert
      simp only [Std.TreeSet.mem_insert, Std.compare_eq_iff_eq] at hinsert
      cases hinsert with
      | inl heq => exact hnodup.1 (heq ▸ hname)
      | inr hst => exact hunseen name (List.mem_cons_of_mem _ hname) hst
    have hcollected := Collected.fields ih path hfields
    rw [Std.TreeSet.mem_iff_contains, Bool.not_eq_true] at hseen
    simp only [pgTypeForArrow, hseen, Bool.false_eq_true, if_false, fst_pgTypesForFields]
    exact Collected.struct hcollected hfresh
  | map entries sorted ih => exact .nil st
  | dictionary key value ihk ihv => exact ihv _ st hfresh

theorem collected_pgTypesForColumns (fields : List Field) (st : MappingState)
    (hfresh : Fresh st (compositesOfColumns tableName fields)) :
    Collected st (compositesOfColumns tableName fields)
      (pgTypesForColumns tableName fields st).2 := by
  induction fields generalizing st with
  | nil => exact .nil st
  | cons f fields ih =>
    have hf := collected_pgTypeForArrow f.dataType f.name st hfresh.left
    exact hf.append (ih _ (hfresh.right hf)) hfresh

theorem mem_compositeTypes {fields : List Field}
    (hnames : ((compositesOfColumns tableName fields).map CompositeTypeDef.typeName).Nodup)
    {ty : CompositeTypeDef} (hty : ty ∈ compositesOfColumns tableName fields) :
    ty ∈ (buildSchemaMapping tableName fields).compositeTypes := by
  have hcollected : Collected ⟨∅, ∅⟩ (compositesOfColumns tableName fields) _ :=
    collected_pgTypesForColumns fields ⟨∅, ∅⟩ ⟨hnames, by simp⟩
  have hget := hcollected.added ty hty
  exact List.mem_map.mpr ⟨(ty.typeName, ty),
    Std.TreeMap.mem_toList_iff_getElem?_eq_some.mpr hget, rfl⟩

end

end PgLance
