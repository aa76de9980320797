import PgLance.Fdw.ScanRuns
import PgLance.Fdw.TypeMapping

/-! Declared types against the check at the begin of a scan: which Arrow types a table that was
created for them can be scanned with. -/

namespace PgLance

open Fallible

namespace DataType

def isList : DataType → Bool
  | .list _ _ => true
  | .dictionary _ value => value.isList
  | _ => false
termination_by structural dt => dt

def element : DataType → DataType
  | .list _ ⟨_, elem, _⟩ => elem.element
  | .dictionary _ value => value.element
  | dt => dt
termination_by structural dt => dt

def isJsonb : DataType → Bool
  | .leaf type => pgTypeForLeaf type == "jsonb"
  | .map _ _ => true
  | _ => false

mutual
/-- No list in the type holds lists, other than lists of values that are declared as `jsonb`. -/
def scannable : DataType → Bool
  | .leaf _ => true
  | .list _ ⟨_, elem, _⟩ => if elem.isList then elem.element.isJsonb else elem.scannable
  | .struct fields => scannableFields fields
  | .map _ _ => true
  | .dictionary _ value => value.scannable
termination_by structural dt => dt

def scannableFields : List Field → Bool
  | [] => true
  | ⟨_, dt, _⟩ :: fields => dt.scannable && scannableFields fields
termination_by structural fields => fields
end

theorem scannableFields_iff {fields : List Field} :
    scannableFields fields = true ↔ ∀ f ∈ fields, f.dataType.scannable = true := by
  induction fields with
  | nil => simp [scannableFields]
  | cons f fields ih => simp [scannableFields, ih]

/-- Struct fields have distinct names that fit into an identifier. -/
inductive WellNamed : DataType → Prop
  | leaf (type) : WellNamed (.leaf type)
  | list {kind elem} : WellNamed elem.dataType → WellNamed (.list kind elem)
  | struct {fields : List Field} : (fields.map FieldOf.name).Nodup →
    (∀ f ∈ fields, f.name.utf8ByteSize ≤ 63) → (∀ f ∈ fields, WellNamed f.dataType) →
    WellNamed (.struct fields)
  | map (entries sorted) : WellNamed (.map entries sorted)
  | dictionary {key value} : WellNamed value → WellNamed (.dictionary key value)

end DataType

theorem truncateIdentifier_of_le {ident : String} (h : ident.utf8ByteSize ≤ 63) :
    truncateIdentifier ident = ident := by
  rw [truncateIdentifier, if_neg (Nat.not_le.mpr (Nat.lt_succ_of_le h))]

def baseTypes : List (String × Oid) :=
  [("boolean", boolOid), ("int2", int2Oid), ("int4", int4Oid), ("int8", int8Oid),
    ("float4", float4Oid), ("float8", float8Oid), ("text", textOid), ("bytea", byteaOid),
    ("date", dateOid), ("timestamp", timestampOid), ("timestamptz", timestamptzOid),
    ("numeric", numericOid), ("jsonb", jsonbOid)]

def SchemaMapping.typeNames (mapping : SchemaMapping) : List String :=
  baseTypes.map Prod.fst ++ mapping.compositeTypes.map CompositeTypeDef.typeName

def attributesOf (typeOid : String → Oid) (columns : List (String × String)) : List Attribute :=
  columns.map fun (name, ty) => ⟨truncateIdentifier name, typeOid ty, false⟩

/-- PostgreSQL holds what a mapping declares; `typeOid` is the type that a type text names. -/
structure Declares (catalog : Catalog) (typeOid : String → Oid) (mapping : SchemaMapping) :
    Prop where
  base : ∀ name oid, (name, oid) ∈ baseTypes → typeOid name = oid
  composite : ∀ ty ∈ mapping.compositeTypes,
    catalog.lookupTypeCache (typeOid ty.typeName) = some (attributesOf typeOid ty.fields)
  jsonb : catalog.lookupTypeCache jsonbOid = none
  valid : ∀ name ∈ mapping.typeNames, typeOid name ≠ invalidOid
  array_array : ∀ ty, typeOid (ty ++ "[]" ++ "[]") = typeOid (ty ++ "[]")
  elementType : ∀ name ∈ mapping.typeNames, catalog.getElementType (typeOid (name ++ "[]")) =
    typeOid name
  notArray : ∀ name ∈ mapping.typeNames, catalog.getElementType (typeOid name) = invalidOid

section

variable {catalog : Catalog} {typeOid : String → Oid} {mapping : SchemaMapping} {tableName : String}

theorem pgTypeForLeaf_mem (type : LeafType) : pgTypeForLeaf type ∈ baseTypes.map Prod.fst := by
  cases type with
  | timestamp unit tz => cases tz <;> simp [pgTypeForLeaf, baseTypes]
  | _ => simp only [pgTypeForLeaf]; decide

theorem validateLeafType_declared (h : Declares catalog typeOid mapping) (type : LeafType) :
    validateLeafType type (typeOid (pgTypeForLeaf type)) = .ok () := by
  have hbase := fun name oid hmem => h.base name oid hmem
  simp only [baseTypes, List.mem_cons, List.not_mem_nil, or_false, Prod.mk.injEq] at hbase
  cases type with
  | timestamp unit tz =>
    cases tz <;> simp [validateLeafType, requireTargetOid, pgTypeForLeaf, hbase]
  | _ => simp [validateLeafType, requireTargetOid, pgTypeForLeaf, hbase]

def baseType (tableName : String) : DataType → String → String
  | .leaf type, _ => pgTypeForLeaf type
  | .list _ ⟨_, elem, _⟩, path => baseType tableName elem (path ++ "_item")
  | .struct _, path => compositeTypeName tableName path
  | .map _ _, _ => "jsonb"
  | .dictionary _ value, path => baseType tableName value (path ++ "_dict")
termination_by structural dt => dt

theorem declaredType_of_not_isList {dt : DataType} (h : dt.isList = false) (path : String) :
    declaredType tableName dt path = baseType tableName dt path := by
  induction dt generalizing path with
  | list kind elem ih => cases h
  | dictionary key value ihk ihv => exact ihv h _
  | _ => rfl

theorem typeOid_array (h : Declares catalog typeOid mapping) (dt : DataType) (path : String) :
    typeOid (declaredType tableName dt path ++ "[]") =
      typeOid (baseType tableName dt path ++ "[]") := by
  induction dt generalizing path with
  | leaf type => rfl
  | list kind elem ih =>
    simp only [declaredType, baseType, h.array_array]
    exact ih _
  | struct fields ih => rfl
  | map entries sorted ih => rfl
  | dictionary key value ihk ihv => exact ihv _

theorem jsonb_mem_typeNames (mapping : SchemaMapping) : "jsonb" ∈ mapping.typeNames :=
  List.mem_append_left _ (by decide)

theorem baseType_mem {dt : DataType} {path : String}
    (hdefs : ∀ ty ∈ compositesOf tableName dt path, ty ∈ mapping.compositeTypes) :
    baseType tableName dt path ∈ mapping.typeNames := by
  induction dt generalizing path with
  | leaf type => exact List.mem_append_left _ (pgTypeForLeaf_mem type)
  | list kind elem ih => exact ih hdefs
  | struct fields ih =>
    apply List.mem_append_right
    have hmem := hdefs ⟨compositeTypeName tableName path, _⟩ List.mem_cons_self
    exact List.mem_map_of_mem (f := CompositeTypeDef.typeName) hmem
  | map entries sorted ih => exact jsonb_mem_typeNames mapping
  | dictionary key value ihk ihv => exact ihv hdefs

theorem typeOid_baseType_jsonb (h : Declares catalog typeOid mapping) {dt : DataType}
    {path : String}
    (hdefs : ∀ ty ∈ compositesOf tableName dt path, ty ∈ mapping.compositeTypes) :
    typeOid (baseType tableName dt path) = jsonbOid ↔ dt.element.isJsonb = true := by
  have hbase := fun name oid hmem => h.base name oid hmem
  simp only [baseTypes, List.mem_cons, List.not_mem_nil, or_false, Prod.mk.injEq] at hbase
  induction dt generalizing path with
  | leaf type =>
    have hmem := pgTypeForLeaf_mem type
    simp only [baseType, DataType.element, DataType.isJsonb]
    generalize pgTypeForLeaf type = name at hmem
    simp only [baseTypes, List.map_cons, List.map_nil, List.mem_cons, List.not_mem_nil,
      or_false] at hmem
    rcases hmem with rfl | rfl | rfl | rfl | rfl | rfl | rfl | rfl | rfl | rfl | rfl | rfl | rfl <;>
      simp [hbase]
  | list kind elem ih => exact ih hdefs
  | struct fields ih =>
    have hcomposite := h.composite _ (hdefs _ List.mem_cons_self)
    have hne : typeOid (compositeTypeName tableName path) ≠ jsonbOid := by
      intro heq
      rw [heq, h.jsonb] at hcomposite
      cases hcomposite
    simpa [baseType, DataType.element, DataType.isJsonb] using hne
  | map entries sorted ih => simp [baseType, DataType.element, DataType.isJsonb, hbase]
  | dictionary key value ihk ihv => exact ihv hdefs

theorem validate_list_of_notArray {dt : DataType} (hlist : dt.isList = true) {oid : Oid}
    (hoid : catalog.getElementType oid = invalidOid) :
    validateArrowTypeForPgOid catalog dt oid = .ok () ↔ oid = jsonbOid := by
  induction dt with
  | list kind elem ih =>
    simp only [validateArrowTypeForPgOid, hoid, if_true]
    split <;> simp_all
  | dictionary key value ihk ihv => exact ihv hlist
  | _ => cases hlist

theorem validateStructField_of_mem {fields : List Field}
    (hdistinct : (fields.map FieldOf.name).Nodup) {f : Field} (hf : f ∈ fields) (oid : Oid) :
    validateStructField catalog fields f.name oid =
      validateArrowTypeForPgOid catalog f.dataType oid := by
  induction fields with
  | nil => cases hf
  | cons g fields ih =>
    simp only [List.map_cons, List.nodup_cons] at hdistinct
    cases List.mem_cons.mp hf with
    | inl h =>
      rw [h]
      simp [validateStructField]
    | inr h =>
      have hne : g.name ≠ f.name := by
        intro heq
        exact hdistinct.1 (heq ▸ List.mem_map_of_mem h)
      simp only [validateStructField, hne, if_false, ih hdistinct.2 h]

theorem compositesOf_mem_compositesOfFields {fields : List Field} {f : Field} (hf : f ∈ fields)
    {path : String} {ty : CompositeTypeDef}
    (hty : ty ∈ compositesOf tableName f.dataType (path ++ "_" ++ f.name)) :
    ty ∈ compositesOfFields tableName fields path := by
  induction fields with
  | nil => cases hf
  | cons g fields ih =>
    cases List.mem_cons.mp hf with
    | inl h => rw [h] at hty; exact List.mem_append_left _ hty
    | inr h => exact List.mem_append_right _ (ih h)

theorem validate_declaredType_iff (h : Declares catalog typeOid mapping) {dt : DataType}
    (hnamed : dt.WellNamed) {path : String}
    (hdefs : ∀ ty ∈ compositesOf tableName dt path, ty ∈ mapping.compositeTypes) :
    validateArrowTypeForPgOid catalog dt (typeOid (declaredType tableName dt path)) = .ok () ↔
      dt.scannable = true := by
  induction dt generalizing path with
  | leaf type =>
    simp only [validateArrowTypeForPgOid, declaredType, validateLeafType_declared h,
      DataType.scannable]
  | list kind elem ih =>
    obtain ⟨name, elem, nullable⟩ := elem
    cases hnamed with
    | list hnamed =>
      have hname : baseType tableName elem (path ++ "_item") ∈ mapping.typeNames :=
        baseType_mem hdefs
      have helem := h.elementType _ hname
      have hvalid := h.valid _ hname
      have harray : typeOid (baseType tableName elem (path ++ "_item") ++ "[]") ≠ jsonbOid := by
        intro heq
        have hjsonb := h.notArray _ (jsonb_mem_typeNames mapping)
        rw [h.base "jsonb" jsonbOid (by decide), ← heq, helem] at hjsonb
        exact hvalid hjsonb
      simp only [validateArrowTypeForPgOid, declaredType, typeOid_array h, harray, if_false, helem,
        hvalid, DataType.scannable]
      cases hlist : elem.isList with
      | true =>
        exact (validate_list_of_notArray hlist (h.notArray _ hname)).trans
          (typeOid_baseType_jsonb h hdefs)
      | false =>
        rw [← declaredType_of_not_isList hlist]
        simpa using ih hnamed hdefs
  | struct fields ih =>
    cases hnamed with
    | struct hdistinct hshort hfields =>
      have hcomposite := h.composite _ (hdefs _ List.mem_cons_self)
      simp only [validateArrowTypeForPgOid, declaredType, hcomposite, DataType.scannable,
        DataType.scannableFields_iff, attributesOf, forM_ok_iff, List.forall_mem_map,
        Bool.false_eq_true, if_false]
      apply forall₂_congr
      intro f hf
      rw [truncateIdentifier_of_le (hshort f hf), validateStructField_of_mem hdistinct hf]
      apply ih f hf (hfields f hf)
      intro ty hty
      exact hdefs ty (List.mem_cons_of_mem _ (compositesOf_mem_compositesOfFields hf hty))
  | map entries sorted ih =>
    simp [validateArrowTypeForPgOid, declaredType, requireTargetOid, DataType.scannable,
      h.base "jsonb" jsonbOid (by decide)]
  | dictionary key value ihk ihv =>
    cases hnamed with
    | dictionary hnamed => exact ihv hnamed hdefs

end

theorem beginForeignScan_accepts_iff (env : ScanEnv) (datasetFields : Schema)
    (tupdesc : List Attribute) (stream : BatchStream) :
    (∃ node, beginForeignScan env datasetFields tupdesc false (.ok stream) = .ok node) ↔
      ∀ attr ∈ tupdesc, ∃ col, attributeToBatchCol env datasetFields attr = .ok col := by
  rw [← exists_mapM_ok_iff]
  simp only [beginForeignScan, Bool.false_eq_true, if_false, createStream, Except.mapError,
    Bind.bind, Except.bind, pure, Except.pure]
  cases tupdesc.mapM (attributeToBatchCol env datasetFields) <;> simp

theorem attributeToBatchCol_iff (env : ScanEnv) {fields : Schema}
    (hdistinct : (fields.map FieldOf.name).Nodup) {f : Field} (hf : f ∈ fields) (oid : Oid) :
    (∃ col, attributeToBatchCol env fields ⟨f.name, oid, false⟩ = .ok col) ↔
      validateArrowTypeForPgOid env.convert.catalog f.dataType oid = .ok () := by
  obtain ⟨idx, hidx⟩ := nameToIdx_of_mem hf
  obtain ⟨g, hg, hname⟩ := nameToIdx_some hidx
  have hgf : g = f := List.inj_on_of_nodup_map hdistinct (List.mem_of_getElem? hg) hf hname
  rw [hgf] at hg
  simp only [attributeToBatchCol, attname, Bool.false_eq_true, if_false, hidx, hg]
  cases validateArrowTypeForPgOid env.convert.catalog f.dataType oid <;> simp

/-- A table that was created for its dataset can be scanned exactly when the Arrow types of
the dataset are scannable. -/
theorem beginForeignScan_declared_iff (env : ScanEnv) (typeOid : String → Oid) (tableName : String)
    (fields : Schema) (stream : BatchStream) (hdistinct : (fields.map FieldOf.name).Nodup)
    (hshort : ∀ f ∈ fields, f.name.utf8ByteSize ≤ 63) (hnamed : ∀ f ∈ fields, f.dataType.WellNamed)
    (hcomposites : ((compositesOfColumns tableName fields).map CompositeTypeDef.typeName).Nodup)
    (hdeclares : Declares env.convert.catalog typeOid (buildSchemaMapping tableName fields)) :
    (∀ f ∈ fields, ∀ ty, (f.name, ty) ∈ (buildSchemaMapping tableName fields).columnTypes →
      (validateArrowTypeForPgOid env.convert.catalog f.dataType (typeOid ty) = .ok () ↔
        f.dataType.scannable = true)) ∧
    ((∃ node, beginForeignScan env fields
        (attributesOf typeOid (buildSchemaMapping tableName fields).columnTypes) false
          (.ok stream) = .ok node) ↔
      ∀ f ∈ fields, f.dataType.scannable = true) := by
  have hvalidate : ∀ f ∈ fields, validateArrowTypeForPgOid env.convert.catalog f.dataType
      (typeOid (declaredType tableName f.dataType f.name)) = .ok () ↔
        f.dataType.scannable = true := by
    intro f hf
    apply validate_declaredType_iff hdeclares (hnamed f hf)
    intro ty hty
    exact mem_compositeTypes hcomposites (List.mem_flatMap.mpr ⟨f, hf, hty⟩)
  rw [columnTypes_buildSchemaMapping]
  constructor
  · intro f hf ty hty
    obtain ⟨g, hg, heq⟩ := List.mem_map.mp hty
    rw [Prod.mk.injEq] at heq
    have hgf : g = f := List.inj_on_of_nodup_map hdistinct hg hf heq.1
    rw [← heq.2, hgf]
    exact hvalidate f hf
  · rw [beginForeignScan_accepts_iff, attributesOf, List.map_map, List.forall_mem_map]
    apply forall₂_congr
    intro f hf
    rw [← hvalidate f hf, ← attributeToBatchCol_iff env hdistinct hf]
    simp only [Function.comp_apply, truncateIdentifier_of_le (hshort f hf)]

def stripBrackets : List Char → List Char × Bool
  | ']' :: '[' :: rest => ((stripBrackets rest).1, true)
  | rest => (rest, false)

def sampleTypeOid (ty : String) : Oid :=
  let (reversed, isArray) := stripBrackets ty.toList.reverse
  let name := String.ofList reversed.reverse
  let oid := (baseTypes.lookup name).getD (if name = "lance_t_pos" then ⟨90000⟩ else invalidOid)
  if isArray then ⟨oid.number + 100000⟩ else oid

def sampleCatalog (attrs : List Attribute) : Catalog where
  getElementType oid := if oid.number ≥ 100000 then ⟨oid.number - 100000⟩ else invalidOid
  lookupTypeCache oid := if oid = ⟨90000⟩ then some attrs else none

theorem sampleTypeOid_array (ty : String) :
    sampleTypeOid (ty ++ "[]" ++ "[]") = sampleTypeOid (ty ++ "[]") := by
  simp [sampleTypeOid, stripBrackets, String.toList_append]

theorem sample_declares {mapping : SchemaMapping} {attrs : List Attribute}
    (h : ∀ ty ∈ mapping.compositeTypes,
      ty.typeName = "lance_t_pos" ∧ attrs = attributesOf sampleTypeOid ty.fields) :
    Declares (sampleCatalog attrs) sampleTypeOid mapping := by
  have hnames : ∀ name ∈ mapping.typeNames, name ∈ baseTypes.map Prod.fst ++ ["lance_t_pos"] := by
    intro name hname
    cases List.mem_append.mp hname with
    | inl hbase => exact List.mem_append_left _ hbase
    | inr hcomposite =>
      obtain ⟨ty, hty, rfl⟩ := List.mem_map.mp hcomposite
      simp [(h ty hty).1]
  have hpos : sampleTypeOid "lance_t_pos" = ⟨90000⟩ := by decide
  have hbase : ∀ p ∈ baseTypes, sampleTypeOid p.1 = p.2 := by decide
  have hall : ∀ name ∈ baseTypes.map Prod.fst ++ ["lance_t_pos"], sampleTypeOid name ≠ invalidOid ∧
      (sampleCatalog []).getElementType (sampleTypeOid (name ++ "[]")) = sampleTypeOid name ∧
      (sampleCatalog []).getElementType (sampleTypeOid name) = invalidOid := by decide
  constructor
  · exact fun name oid hmem => hbase (name, oid) hmem
  · intro ty hty
    rw [(h ty hty).1, ← (h ty hty).2, hpos]
    rfl
  · rfl
  · exact fun name hname => (hall name (hnames name hname)).1
  · exact sampleTypeOid_array
  · exact fun name hname => (hall name (hnames name hname)).2.1
  · exact fun name hname => (hall name (hnames name hname)).2.2

def sampleFields : Schema :=
  [⟨"id", .leaf .int32, true⟩,
    ⟨"tags", .list .list ⟨"item", .dictionary (.leaf .int32) (.leaf .utf8), true⟩, true⟩,
    ⟨"pos", .struct [⟨"x", .leaf .float64, true⟩,
      ⟨"hist", .list .list ⟨"item", .leaf .int32, true⟩, true⟩], true⟩]

def sampleScanEnv (attrs : List Attribute) : ScanEnv :=
  { ScanEnv.sample with convert := .sample (sampleCatalog attrs) }

theorem beginForeignScan_declared_iff_sample :
    ∃ node, beginForeignScan
      (sampleScanEnv [⟨"x", float8Oid, false⟩, ⟨"hist", ⟨100023⟩, false⟩]) sampleFields
      (attributesOf sampleTypeOid (buildSchemaMapping "t" sampleFields).columnTypes) false
      (.ok []) = .ok node := by
  have hnamed : ∀ f ∈ sampleFields, f.dataType.WellNamed := by
    intro f hf
    simp only [sampleFields, List.mem_cons, List.not_mem_nil, or_false] at hf
    rcases hf with rfl | rfl | rfl
    · exact .leaf _
    · exact .list (.dictionary (.leaf _))
    · refine .struct (by decide) (by decide) ?_
      intro f hf
      simp only [List.mem_cons, List.not_mem_nil, or_false] at hf
      rcases hf with rfl | rfl
      · exact .leaf _
      · exact .list (.leaf _)
  exact (beginForeignScan_declared_iff
    (sampleScanEnv [⟨"x", float8Oid, false⟩, ⟨"hist", ⟨100023⟩, false⟩]) sampleTypeOid "t"
    sampleFields [] (by decide) (by decide) hnamed (by decide)
    (sample_declares (by decide +kernel))).2.mpr (by decide +kernel)

def matrixType : DataType :=
  .list .list ⟨"item", .list .list ⟨"item", .leaf .int32, true⟩, true⟩

/-- A list of lists of integers is declared as an array of arrays, which PostgreSQL does not
tell from an array of integers; the check wants an array as its element. -/
theorem beginForeignScan_rejects_nested_list :
    (buildSchemaMapping "t" [⟨"m", matrixType, true⟩]) = ⟨[], [("m", "int4[][]")]⟩ ∧
    Declares (sampleCatalog []) sampleTypeOid ⟨[], [("m", "int4[][]")]⟩ ∧
    validateArrowTypeForPgOid (sampleCatalog []) matrixType (sampleTypeOid "int4[][]") =
      .error (.typeMismatch "arrow list requires postgres array (or jsonb)") ∧
    ¬ ∃ node, beginForeignScan (sampleScanEnv []) [⟨"m", matrixType, true⟩]
      (attributesOf sampleTypeOid [("m", "int4[][]")]) false (.ok []) = .ok node := by
  have hvalidate : validateArrowTypeForPgOid (sampleCatalog []) matrixType
      (sampleTypeOid "int4[][]") =
        .error (.typeMismatch "arrow list requires postgres array (or jsonb)") := by decide
  refine ⟨by decide, sample_declares (by simp), hvalidate, ?_⟩
  rw [beginForeignScan_accepts_iff]
  intro h
  have hcol := h ⟨"m", sampleTypeOid "int4[][]", false⟩ (by decide)
  rw [attributeToBatchCol_iff (sampleScanEnv []) (f := ⟨"m", matrixType, true⟩) (by decide)
    (by simp)] at hcol
  cases hvalidate.symm.trans hcol

end PgLance
