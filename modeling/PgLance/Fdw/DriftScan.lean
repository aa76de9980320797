import PgLance.Fdw.DriftLaws
import PgLance.Library.Lookup

/-! Scans of tables without drift. -/

namespace PgLance

def Column.attribute (oidOf : PgType → Oid) (column : Column) : Attribute :=
  ⟨column.name, oidOf column.type, column.dropped⟩

def PgType.dims (ty : PgType) : Nat := if ty.array then 1 else 0

namespace LocalCatalog

def columnsOf (σ : LocalCatalog) (ty : PgType) : Option (List Column) :=
  match ty with
  | ⟨.named name, false⟩ => σ.rowType name
  | _ => none

/-- `oidOf` gives the OIDs of the types, under which PostgreSQL's lookups find them. -/
structure Represents (σ : LocalCatalog) (catalog : Catalog) (oidOf : PgType → Oid) : Prop where
  base : ∀ name oid type, (name, oid) ∈ baseTypes → BaseType.ofName name = some type →
    ∀ ty, σ.hasType ty = true → (oidOf ty = oid ↔ ty = ⟨.base type, false⟩)
  valid : ∀ ty, σ.hasType ty = true → oidOf ty ≠ invalidOid
  elementType : ∀ ty, σ.hasType ty = true →
    catalog.getElementType (oidOf ty) = (ty.elementType.map oidOf).getD invalidOid
  rowType : ∀ ty, σ.hasType ty = true →
    catalog.lookupTypeCache (oidOf ty) =
      (σ.columnsOf ty).map (List.map (Column.attribute oidOf))
  columns : ∀ (place : QualName) (rel : Relation), σ.relations[place]? = some rel →
    ∀ column ∈ rel.columns, column.dropped = false → σ.hasType column.type = true

inductive Takes (σ : LocalCatalog) : DataType → PgType → Prop
  | leaf {type base} : BaseType.ofName (pgTypeForLeaf type) = some base →
    Takes σ (.leaf type) ⟨.base base, false⟩
  | listJsonb (kind elem) : Takes σ (.list kind elem) ⟨.base .jsonb, false⟩
  | list {kind elem ty elemType} : ty.elementType = some elemType →
    Takes σ elem.dataType elemType → Takes σ (.list kind elem) ty
  | struct {fields name columns} : σ.rowType name = some columns →
    (∀ column ∈ columns, column.dropped = false → column.name ∈ fields.map FieldOf.name) →
    (∀ column ∈ columns, column.dropped = false → ∀ f : Field,
      fields.find? (fun f => f.name = column.name) = some f → Takes σ f.dataType column.type) →
    Takes σ (.struct fields) ⟨.named name, false⟩
  | map (entries sorted) : Takes σ (.map entries sorted) ⟨.base .jsonb, false⟩
  | dictionary {key value ty} : Takes σ value ty → Takes σ (.dictionary key value) ty

end LocalCatalog

theorem validateLeafType_iff (type : LeafType) (oid : Oid) :
    validateLeafType type oid = .ok () ↔ (pgTypeForLeaf type, oid) ∈ baseTypes := by
  have hoid : ∀ expected message, requireTargetOid oid expected message = .ok () ↔
      oid = expected := by
    intro expected message
    simp [requireTargetOid]
  cases type with
  | timestamp unit tz =>
    cases tz <;> simp [validateLeafType, hoid, pgTypeForLeaf, baseTypes]
  | _ => simp [validateLeafType, hoid, pgTypeForLeaf, baseTypes]

theorem validateStructField_iff {catalog : Catalog} {fields : List Field} {name : String}
    {oid : Oid} : validateStructField catalog fields name oid = .ok () ↔
      name ∈ fields.map FieldOf.name ∧ ∀ f, fields.find? (fun f => f.name = name) = some f →
        validateArrowTypeForPgOid catalog f.dataType oid = .ok () := by
  induction fields with
  | nil => simp [validateStructField]
  | cons f fields ih =>
    rw [validateStructField, List.find?_cons]
    by_cases hname : f.name = name
    · simp [hname]
    · simp [hname, Ne.symm hname, ih]

theorem exists_baseType (type : LeafType) : ∃ oid base, (pgTypeForLeaf type, oid) ∈ baseTypes ∧
    BaseType.ofName (pgTypeForLeaf type) = some base := by
  have hmem := pgTypeForLeaf_mem type
  have hall : ∀ name ∈ baseTypes.map Prod.fst, (baseTypes.lookup name).isSome = true ∧
      (BaseType.ofName name).isSome = true := by decide
  obtain ⟨p, hp, hname⟩ := List.mem_map.1 hmem
  obtain ⟨base, hbase⟩ := Option.isSome_iff_exists.1 (hall _ hmem).2
  exact ⟨p.2, base, hname ▸ hp, hbase⟩

theorem baseTypes_unique {name : String} {oid oid' : Oid} (h : (name, oid) ∈ baseTypes)
    (h' : (name, oid') ∈ baseTypes) : oid = oid' := by
  have hnodup : (baseTypes.map Prod.fst).Nodup := by decide
  have heq := List.inj_on_of_nodup_map hnodup h h' rfl
  exact congrArg Prod.snd heq

namespace LocalCatalog

variable {σ : LocalCatalog} {catalog : Catalog} {oidOf : PgType → Oid}

theorem Represents.element_hasType {ty elemType : PgType}
    (hty : σ.hasType ty = true) (helem : ty.elementType = some elemType) :
    σ.hasType elemType = true := by
  obtain ⟨name, array⟩ := ty
  rw [PgType.elementType] at helem
  split at helem
  · cases helem
    exact hty
  · split at helem
    · cases helem
      rfl
    · split at helem
      · cases helem
        rfl
      · cases helem

theorem Represents.jsonb (h : σ.Represents catalog oidOf) {ty : PgType}
    (hty : σ.hasType ty = true) : oidOf ty = jsonbOid ↔ ty = ⟨.base .jsonb, false⟩ :=
  h.base "jsonb" jsonbOid .jsonb (by decide) (by decide) ty hty

theorem columnsOf_eq_some {ty : PgType} {columns : List Column} :
    σ.columnsOf ty = some columns ↔
      ∃ name, ty = ⟨.named name, false⟩ ∧ σ.rowType name = some columns := by
  unfold columnsOf
  split
  · simp
  · rename_i hne
    refine iff_of_false (by simp) ?_
    rintro ⟨name, hname, -⟩
    exact hne name hname

theorem Represents.column_hasType (h : σ.Represents catalog oidOf) {ty : PgType}
    {columns : List Column} (hcolumns : σ.columnsOf ty = some columns) :
    ∀ column ∈ columns, column.dropped = false → σ.hasType column.type = true := by
  obtain ⟨name, -, hrow⟩ := columnsOf_eq_some.1 hcolumns
  rw [LocalCatalog.rowType] at hrow
  split at hrow
  · rename_i rel hrel
    split at hrow
    · cases hrow
      exact h.columns name rel hrel
    · cases hrow
  · cases hrow

theorem Represents.validate_iff (h : σ.Represents catalog oidOf) (dt : DataType) {ty : PgType}
    (hty : σ.hasType ty = true) :
    validateArrowTypeForPgOid catalog dt (oidOf ty) = .ok () ↔ σ.Takes dt ty := by
  induction dt generalizing ty with
  | leaf type =>
    obtain ⟨oid, base, hmem, hbase⟩ := exists_baseType type
    have hoid := h.base _ oid base hmem hbase ty hty
    rw [validateArrowTypeForPgOid, validateLeafType_iff]
    constructor
    · intro hvalid
      rw [hoid.1 (baseTypes_unique hvalid hmem)]
      exact .leaf hbase
    · intro htakes
      cases htakes with
      | leaf hbase' =>
        rw [hbase] at hbase'
        cases hbase'
        rwa [hoid.2 rfl]
  | list kind elem ih =>
    obtain ⟨name, elem, nullable⟩ := elem
    rw [validateArrowTypeForPgOid]
    simp only [h.jsonb hty, h.elementType ty hty]
    split
    · rename_i hjsonb
      rw [hjsonb]
      exact iff_of_true rfl (.listJsonb _ _)
    · rename_i hjsonb
      cases helem : ty.elementType with
      | none =>
        refine iff_of_false (by simp) ?_
        intro htakes
        cases htakes with
        | listJsonb => exact hjsonb rfl
        | list helem' =>
          rw [helem] at helem'
          cases helem'
      | some elemType =>
        have helemType := element_hasType hty helem
        simp only [Option.map_some, Option.getD_some, h.valid elemType helemType, if_false]
        rw [ih helemType]
        constructor
        · exact .list helem
        · intro htakes
          cases htakes with
          | listJsonb => exact absurd rfl hjsonb
          | list helem' htakes =>
            rw [helem] at helem'
            cases helem'
            exact htakes
  | struct fields ih =>
    rw [validateArrowTypeForPgOid, h.rowType ty hty]
    cases hcolumns : σ.columnsOf ty with
    | none =>
      refine iff_of_false (by simp) ?_
      intro htakes
      cases htakes with
      | struct hrow =>
        rw [columnsOf, hrow] at hcolumns
        cases hcolumns
    | some columns =>
      have hexists := h.column_hasType hcolumns
      obtain ⟨name, rfl, hrow⟩ := columnsOf_eq_some.1 hcolumns
      simp only [Option.map_some, Fallible.forM_ok_iff, List.forall_mem_map, Column.attribute]
      have hvalid : ∀ column ∈ columns, (if column.dropped = true then .ok ()
          else validateStructField catalog fields column.name (oidOf column.type)) = .ok () ↔
          (column.dropped = false → column.name ∈ fields.map FieldOf.name) ∧
            (column.dropped = false → ∀ f : Field,
              fields.find? (fun f => f.name = column.name) = some f →
                σ.Takes f.dataType column.type) := by
        intro column hcolumn
        cases hdropped : column.dropped with
        | true => simp
        | false =>
          simp only [Bool.false_eq_true, if_false, forall_const, validateStructField_iff]
          refine and_congr_right fun _ => forall₂_congr fun f hf => ?_
          exact ih f (List.mem_of_find?_eq_some hf) (hexists column hcolumn hdropped)
      refine (forall₂_congr hvalid).trans ⟨?_, ?_⟩
      · intro hall
        exact .struct hrow (fun column hcolumn => (hall column hcolumn).1)
          fun column hcolumn => (hall column hcolumn).2
      · intro htakes
        cases htakes with
        | struct hrow' hnames hall =>
          rw [hrow] at hrow'
          cases hrow'
          exact fun column hcolumn => ⟨hnames column hcolumn, hall column hcolumn⟩
  | map entries sorted ih =>
    simp only [validateArrowTypeForPgOid, requireTargetOid, ne_eq, ite_not]
    constructor
    · intro hvalid
      split at hvalid
      · rename_i hjsonb
        rw [(h.jsonb hty).1 hjsonb]
        exact .map _ _
      · cases hvalid
    · intro htakes
      cases htakes
      rw [if_pos ((h.jsonb hty).2 rfl)]
  | dictionary key value ihk ihv =>
    rw [validateArrowTypeForPgOid, ihv hty]
    constructor
    · exact .dictionary
    · intro htakes
      cases htakes with
      | dictionary htakes => exact htakes

end LocalCatalog

theorem words_parts (type : BaseType) : (typeParts (type.words.1 ++ type.words.2)).1 = 0 ∧
    isLanceType (typeParts (type.words.1 ++ type.words.2)).2.toList = false ∧
    ∀ name ∈ baseTypes.map Prod.fst, (typeParts (type.words.1 ++ type.words.2)).2 = name →
      BaseType.ofName name = some type := by
  cases type with
  | other type =>
    refine ⟨type.dims, type.notLance, ?_⟩
    intro name hname heq
    have hall : ∀ name ∈ baseTypes.map Prod.fst, name ∈ typeAliases.map Prod.snd := by decide
    exact absurd (heq ▸ hall name hname) type.notAlias
  | _ => decide

theorem words_dots (type : BaseType) : '.' ∉ type.words.1.toList ∧ '.' ∉ type.words.2.toList := by
  cases type with
  | other type => simpa [BaseType.words] using type.dots
  | _ => decide

theorem paren_mem_typeParts (pg : Postgres) (sizes : List Nat) (type : BaseType) :
    '(' ∈ (typeParts (pg.formatTypeName (some sizes) (.base type))).2.toList := by
  apply mem_typeParts
  · have hdigits : ∀ c ∈ (String.intercalate "," (sizes.map toString)).toList, c ≠ '.' := by
      have hcomma : ∀ c ∈ ",".toList, c ≠ '.' := by simp
      rw [String.toList_intercalate]
      refine Text.forall_mem_intercalate hcomma ?_
      rw [List.forall_mem_map, List.forall_mem_map]
      rintro size - c hc rfl
      rw [Nat.toString_eq_repr, Nat.toList_repr] at hc
      have hdigit := Nat.isDigit_of_mem_toDigits (by decide) (by decide) hc
      exact absurd hdigit (by decide)
    obtain ⟨hbefore, hafter⟩ := words_dots type
    simp only [Postgres.formatTypeName, String.toList_append, List.mem_append, hbefore, hafter,
      or_false, false_or]
    rintro ((hopen | hsizes) | hclose)
    · exact absurd hopen (by decide)
    · exact hdigits _ hsizes rfl
    · exact absurd hclose (by decide)
  · simp [Postgres.formatTypeName]

section

variable {pg : Postgres} {typmod : Option (List Nat)}

theorem typmod_eq_none {type : BaseType}
    (h : '(' ∉ (typeParts (pg.formatTypeName typmod (.base type))).2.toList) : typmod = none := by
  cases typmod with
  | none => rfl
  | some sizes => exact absurd (paren_mem_typeParts pg sizes type) h

theorem formatTypeName_base_none (pg : Postgres) (type : BaseType) :
    pg.formatTypeName none (.base type) = type.words.1 ++ type.words.2 := by
  rw [Postgres.formatTypeName, String.append_empty]

theorem typeParts_compositeTypeName (table path : String) :
    typeParts (compositeTypeName table path) = (0, compositeTypeName table path) := by
  have hlookup : typeAliases.lookup (compositeTypeName table path) = none := by
    have hkeys : ∀ p ∈ typeAliases, isLanceType p.1.toList = false := by decide
    rw [List.lookup_eq_none_iff]
    intro p hp
    rw [bne_iff_ne]
    rintro heq
    have hlance := isLanceType_compositeTypeName table path
    rw [heq, hkeys p hp] at hlance
    cases hlance
  rw [typeParts_of_nameChars (compositeTypeName_chars table path), canonicalAlias, hlookup,
    Option.getD_none]

theorem typeParts_baseTypes : ∀ name ∈ baseTypes.map Prod.fst, typeParts name = (0, name) := by
  decide

theorem typeParts_declaredType (table : String) (dt : DataType) (path : String) :
    typeParts (declaredType table dt path) = (dt.listDepth, baseType table dt path) := by
  induction dt generalizing path with
  | leaf type => exact typeParts_baseTypes _ (pgTypeForLeaf_mem type)
  | list kind elem ih =>
    rw [declaredType, typeParts_array, ih, DataType.listDepth, baseType]
  | struct fields ih => exact typeParts_compositeTypeName table path
  | map entries sorted ih => exact typeParts_baseTypes "jsonb" (by decide)
  | dictionary key value ihk ihv => exact ihv _

theorem baseType_cases (table : String) (dt : DataType) (path : String) :
    baseType table dt path ∈ baseTypes.map Prod.fst ∨
      ∃ path', baseType table dt path = compositeTypeName table path' := by
  induction dt generalizing path with
  | leaf type => exact .inl (pgTypeForLeaf_mem type)
  | list kind elem ih => exact ih _
  | struct fields ih => exact .inr ⟨path, rfl⟩
  | map entries sorted ih =>
    have hjsonb : "jsonb" ∈ baseTypes.map Prod.fst := by decide
    exact .inl hjsonb
  | dictionary key value ihk ihv => exact ihv _

theorem paren_not_mem_baseType (table : String) (dt : DataType) (path : String) :
    '(' ∉ (baseType table dt path).toList := by
  rcases baseType_cases table dt path with hbase | ⟨path', hcomposite⟩
  · have hall : ∀ name ∈ baseTypes.map Prod.fst, '(' ∉ name.toList := by decide
    exact hall _ hbase
  · rw [hcomposite]
    intro hparen
    exact absurd (compositeTypeName_chars table path' _ hparen) (by decide)

theorem typeParts_formatType (pg : Postgres) (ty : PgType) (typmod : Option (List Nat)) :
    typeParts (pg.formatType ty typmod) =
      ((typeParts (pg.formatTypeName typmod ty.name)).1 + ty.dims,
        (typeParts (pg.formatTypeName typmod ty.name)).2) := by
  obtain ⟨name, array⟩ := ty
  cases array with
  | true =>
    simp only [Postgres.formatType, PgType.dims, if_true]
    exact typeParts_array _
  | false =>
    simp only [Postgres.formatType, PgType.dims, Bool.false_eq_true, if_false, Nat.add_zero,
      Prod.mk.eta]

end

def SameText (pg : Postgres) (table : String) (dt : DataType) (path : String) (ty : PgType)
    (typmod : Option (List Nat)) : Prop :=
  typeParts (pg.formatType ty typmod) = typeParts (declaredType table dt path)

namespace SameText

variable {pg : Postgres} {table path : String} {dt : DataType} {ty : PgType}
  {typmod : Option (List Nat)}

theorem dims (h : SameText pg table dt path ty typmod) :
    (typeParts (pg.formatTypeName typmod ty.name)).1 + ty.dims = dt.listDepth := by
  rw [SameText, typeParts_formatType, typeParts_declaredType] at h
  exact (Prod.mk.inj h).1

theorem base (h : SameText pg table dt path ty typmod) :
    (typeParts (pg.formatTypeName typmod ty.name)).2 = baseType table dt path := by
  rw [SameText, typeParts_formatType, typeParts_declaredType] at h
  exact (Prod.mk.inj h).2

theorem of_base (h : SameText pg table dt path ty typmod) {type : BaseType}
    (hname : ty.name = .base type) : ty.dims = dt.listDepth ∧
      (typeParts (type.words.1 ++ type.words.2)).2 = baseType table dt path := by
  have hdims := h.dims
  have hbase := h.base
  rw [hname] at hdims hbase
  have hparen := paren_not_mem_baseType table dt path
  rw [← hbase] at hparen
  rw [typmod_eq_none hparen, formatTypeName_base_none] at hdims hbase
  rw [(words_parts type).1, Nat.zero_add] at hdims
  exact ⟨hdims, hbase⟩

end SameText

namespace LocalCatalog

/-- A type with the dimensions of an Arrow type is built in, unless there are structs, which have
a row type that takes them. -/
def Genuine (σ : LocalCatalog) (dt : DataType) (ty : PgType) : Prop :=
  ty.dims = dt.listDepth ∧
    match dt.element with
    | .struct fields => σ.Takes (.struct fields) ⟨ty.name, false⟩
    | _ => ∃ type, ty.name = .base type

variable {σ : LocalCatalog} {pg : Postgres} {table path : String} {dt : DataType} {ty : PgType}
  {typmod : Option (List Nat)}

theorem takes_base_iff {name : String} (hname : name ∈ baseTypes.map Prod.fst)
    (hbase : baseType table dt path = name)
    (h : SameText pg table dt path ty typmod) :
    (∃ base, BaseType.ofName name = some base ∧ ty = ⟨.base base, false⟩) ↔
      ty.dims = 0 ∧ ∃ type, ty.name = .base type := by
  constructor
  · rintro ⟨base, hbase, rfl⟩
    exact ⟨rfl, base, rfl⟩
  · rintro ⟨hdims, type, htype⟩
    have hwords := (h.of_base htype).2
    rw [hbase] at hwords
    refine ⟨type, (words_parts type).2.2 name hname hwords, ?_⟩
    obtain ⟨tyName, array⟩ := ty
    cases htype
    cases array with
    | true => cases hdims
    | false => rfl

/-- A type with the text that is declared for an Arrow type takes its values exactly if it is
genuine. -/
theorem takes_iff_genuine (h : SameText pg table dt path ty typmod) :
    σ.Takes dt ty ↔ σ.Genuine dt ty := by
  induction dt generalizing ty path with
  | leaf type =>
    rw [Genuine]
    simp only [DataType.element, DataType.listDepth]
    rw [← takes_base_iff (pgTypeForLeaf_mem type) rfl h]
    constructor
    · intro htakes
      cases htakes with
      | leaf hbase => exact ⟨_, hbase, rfl⟩
    · rintro ⟨base, hbase, rfl⟩
      exact .leaf hbase
  | list kind elem ih =>
    obtain ⟨f, elem, nullable⟩ := elem
    obtain ⟨name, array⟩ := ty
    have hdims := h.dims
    rw [DataType.listDepth] at hdims
    have hbase : ∀ type, name = .base type → array = true ∧ elem.listDepth = 0 := by
      intro type hname
      have hdepth := (h.of_base hname).1
      rw [DataType.listDepth, PgType.dims] at hdepth
      split at hdepth
      · rename_i harray
        exact ⟨harray, by omega⟩
      · omega
    cases array with
    | true =>
      have helem : SameText pg table elem (path ++ "_item") ⟨name, false⟩ typmod := by
        have hname := h.base
        rw [baseType] at hname
        rw [SameText, typeParts_formatType, typeParts_declaredType, Prod.mk.injEq]
        refine ⟨?_, hname⟩
        simp only [PgType.dims, if_true, Bool.false_eq_true, if_false] at hdims ⊢
        omega
      have hgenuine : σ.Genuine (.list kind ⟨f, elem, nullable⟩) ⟨name, true⟩ ↔
          σ.Genuine elem ⟨name, false⟩ := by
        rw [Genuine, Genuine]
        simp only [DataType.element, DataType.listDepth, PgType.dims, if_true, Bool.false_eq_true,
          if_false]
        refine and_congr_left fun _ => ?_
        omega
      rw [hgenuine, ← ih helem]
      constructor
      · intro htakes
        cases htakes with
        | list helem' htakes =>
          cases helem'
          exact htakes
      · exact .list rfl
    | false =>
      refine iff_of_false ?_ ?_
      · intro htakes
        cases htakes with
        | listJsonb => exact absurd (hbase .jsonb rfl).1 Bool.false_ne_true
        | list helem' =>
          rw [PgType.elementType, if_neg Bool.false_ne_true] at helem'
          simp only at helem'
          split at helem'
          · rename_i hname
            exact absurd (hbase _ hname).1 Bool.false_ne_true
          · split at helem'
            · rename_i hname
              exact absurd (hbase _ hname).1 Bool.false_ne_true
            · cases helem'
      · rintro ⟨hdepth, -⟩
        rw [DataType.listDepth, PgType.dims, if_neg Bool.false_ne_true] at hdepth
        omega
  | struct fields ih =>
    rw [Genuine]
    simp only [DataType.element, DataType.listDepth]
    obtain ⟨name, array⟩ := ty
    constructor
    · intro htakes
      cases htakes with
      | struct hrow hnames hall => exact ⟨rfl, .struct hrow hnames hall⟩
    · rintro ⟨hdims, htakes⟩
      cases array with
      | true => cases hdims
      | false => exact htakes
  | map entries sorted ih =>
    have hjsonb : "jsonb" ∈ baseTypes.map Prod.fst := by decide
    rw [Genuine]
    simp only [DataType.element, DataType.listDepth]
    rw [← takes_base_iff hjsonb rfl h]
    constructor
    · intro htakes
      cases htakes
      exact ⟨.jsonb, by decide, rfl⟩
    · rintro ⟨base, hbase, rfl⟩
      cases hbase
      exact .map _ _
  | dictionary key value ihk ihv =>
    rw [show σ.Genuine (.dictionary key value) ty ↔ σ.Genuine value ty from Iff.rfl, ← ihv h]
    constructor
    · intro htakes
      cases htakes with
      | dictionary htakes => exact htakes
    · exact .dictionary

end LocalCatalog

theorem schemaDrift_eq_none_iff {pg : Postgres} {place : QualName} {fields : Schema}
    {rel : Relation} : schemaDrift pg place fields (some rel) = none ↔
      List.Forall₂ (fun f column => column.name = f.name ∧
          SameText pg place.name f.dataType f.name column.type column.typmod) fields
        (rel.columns.filter fun column => !column.dropped) := by
  rw [schemaDrift_eq_none, columnTypes_buildSchemaMapping, localColumns, normalizeColumns,
    normalizeColumns, List.map_map, List.map_map, ← List.forall₂_eq_eq_eq,
    List.forall₂_map_left_iff, List.forall₂_map_right_iff]
  simp only [Function.comp_apply, Prod.mk.injEq, canonicalTypeString_inj, SameText,
    eq_comm (a := _)]

/-- A table that is in sync can be scanned exactly if the types of its columns are the ones that
their texts stand for. -/
theorem beginForeignScan_inSync_iff {nsEnv : NamespaceEnv} {env : ScanEnv} {σ : LocalCatalog}
    {oidOf : PgType → Oid} {tableId : TableId} {place : QualName} {fields : Schema}
    {rel : Relation} (stream : BatchStream) (h : σ.Represents env.convert.catalog oidOf)
    (hrel : σ.relations[place]? = some rel)
    (hload : nsEnv.remote.load .driftCheck tableId = .ok fields)
    (hdrift : detectSchemaDrift nsEnv tableId place σ = .ok none) :
    (∃ node, beginForeignScan env fields (rel.columns.map (Column.attribute oidOf)) false
        (.ok stream) = .ok node) ↔
      List.Forall₂ (fun f column => σ.Genuine f.dataType column.type) fields
        (rel.columns.filter fun column => !column.dropped) := by
  rw [detectSchemaDrift, hload, hrel] at hdrift
  simp only [Except.map, Except.ok.injEq] at hdrift
  have hsame := schemaDrift_eq_none_iff.1 hdrift
  have hdistinct : (fields.map FieldOf.name).Nodup := by
    have hnames : fields.map FieldOf.name =
        (rel.columns.filter fun column => !column.dropped).map Column.name := by
      rw [← List.forall₂_eq_eq_eq, List.forall₂_map_left_iff, List.forall₂_map_right_iff]
      exact hsame.imp fun f column hcolumn => hcolumn.1.symm
    rw [hnames]
    exact rel.distinct.sublist (List.filter_sublist.map _)
  rw [beginForeignScan_accepts_iff, List.forall_mem_map,
    ← Fallible.forall_mem_iff_forall₂ (p := fun column => ∃ col,
      attributeToBatchCol env fields (column.attribute oidOf) = .ok col) hsame]
  · simp only [List.mem_filter, Bool.not_eq_true', and_imp]
    refine forall₂_congr fun column _ => ?_
    cases hdropped : column.dropped with
    | true => simp [attributeToBatchCol, attname, Column.attribute, hdropped]
    | false => simp
  · rintro f hf column hcolumn ⟨hname, htext⟩
    obtain ⟨hmem, hdropped⟩ := List.mem_filter.1 hcolumn
    have hlive : column.dropped = false := by simpa using hdropped
    rw [Column.attribute, hname, hlive, attributeToBatchCol_iff env hdistinct hf,
      h.validate_iff f.dataType (h.columns place rel hrel column hmem hlive),
      LocalCatalog.takes_iff_genuine htext]

def posType (x : BaseType) : Relation where
  kind := .compositeType
  columns := [⟨"x", ⟨.base x, false⟩, none, false⟩]
  distinct := by simp

def posTable : Relation where
  kind := .foreignTable "srv" [("ns.table_id", some "[\"t\"]")]
  columns := [⟨"pos", ⟨.named ⟨"lance", "lance_t_pos"⟩, false⟩, none, false⟩]
  distinct := by simp

def posCatalog (x : BaseType) : LocalCatalog :=
  (LocalCatalog.sample.insert "lance" "lance_t_pos" (posType x)).insert "lance" "t" posTable

def baseOid : BaseType → Oid
  | .boolean => boolOid
  | .int2 => int2Oid
  | .int4 => int4Oid
  | .int8 => int8Oid
  | .float4 => float4Oid
  | .float8 => float8Oid
  | .text => textOid
  | .bytea => byteaOid
  | .date => dateOid
  | .timestamp => timestampOid
  | .timestamptz => timestamptzOid
  | .numeric => numericOid
  | .jsonb => jsonbOid
  | .int2vector => ⟨22⟩
  | .oidvector => ⟨30⟩
  | .other _ => ⟨26⟩

def posOidOf (ty : PgType) : Oid :=
  let oid := match ty.name with
    | .base type => baseOid type
    | .named name => if name = ⟨"lance", "lance_t_pos"⟩ then ⟨90000⟩ else ⟨90001⟩
  if ty.array then ⟨oid.number + 100000⟩ else oid

def posLookups (x : BaseType) : Catalog where
  getElementType oid :=
    if oid.number ≥ 100000 then ⟨oid.number - 100000⟩
    else if oid = ⟨22⟩ then int2Oid
    else if oid = ⟨30⟩ then ⟨26⟩
    else invalidOid
  lookupTypeCache oid :=
    if oid = ⟨90000⟩ then some [⟨"x", baseOid x, false⟩]
    else if oid = ⟨90001⟩ then some [⟨"pos", ⟨90000⟩, false⟩]
    else none

theorem posCatalog_relations (x : BaseType) (place : QualName) :
    (posCatalog x).relations[place]? =
      if place = ⟨"lance", "t"⟩ then some posTable
      else if place = ⟨"lance", "lance_t_pos"⟩ then some (posType x)
      else none := by
  have hplace : ∀ name : QualName, compare name place = .eq ↔ place = name := by
    intro name
    rw [Std.LawfulEqOrd.compare_eq_iff_eq, eq_comm]
  have htable : QualName.stored "lance" "t" = ⟨"lance", "t"⟩ := by decide
  have htype : QualName.stored "lance" "lance_t_pos" = ⟨"lance", "lance_t_pos"⟩ := by decide
  simp only [posCatalog, LocalCatalog.insert, Std.TreeMap.getElem?_insert, hplace, htable, htype]
  rfl

theorem posCatalog_rowType (x : BaseType) (name : QualName) :
    (posCatalog x).rowType name =
      if name = ⟨"lance", "t"⟩ then some posTable.columns
      else if name = ⟨"lance", "lance_t_pos"⟩ then some (posType x).columns
      else none := by
  rw [LocalCatalog.rowType, posCatalog_relations]
  split_ifs <;> rfl

theorem posCatalog_hasType {x : BaseType} {name : QualName} {array : Bool}
    (h : (posCatalog x).hasType ⟨.named name, array⟩ = true) :
    name = ⟨"lance", "t"⟩ ∨ name = ⟨"lance", "lance_t_pos"⟩ := by
  have htypes : (posCatalog x).types = [] := rfl
  simp only [LocalCatalog.hasType, LocalCatalog.hasTypeName, posCatalog_rowType, htypes] at h
  split_ifs at h with htable hpos
  · exact .inl htable
  · exact .inr hpos
  · cases h

theorem baseOid_eq_iff (type : BaseType) :
    ∀ p ∈ baseTypes, baseOid type = p.2 ↔ BaseType.ofName p.1 = some type := by
  cases type with
  | other type =>
    intro p hp
    refine iff_of_false ?_ ?_
    · have hall : ∀ p ∈ baseTypes, (⟨26⟩ : Oid) ≠ p.2 := by decide
      exact hall p hp
    · intro hname
      have hmem := Lookup.mem_of_lookup hname
      simp at hmem
  | _ => decide

theorem baseOid_range (type : BaseType) :
    0 < (baseOid type).number ∧ (baseOid type).number < 90000 := by
  cases type with
  | other type => exact ⟨by simp [baseOid], by simp [baseOid]⟩
  | _ => decide

theorem posOidOf_array (name : TypeName) :
    posOidOf ⟨name, true⟩ = ⟨(posOidOf ⟨name, false⟩).number + 100000⟩ := rfl

theorem posOidOf_range (name : TypeName) :
    0 < (posOidOf ⟨name, false⟩).number ∧ (posOidOf ⟨name, false⟩).number < 100000 := by
  cases name with
  | base type =>
    have hrange := baseOid_range type
    exact ⟨hrange.1, hrange.2.trans (by decide)⟩
  | named name =>
    simp only [posOidOf, Bool.false_eq_true, if_false]
    split <;> decide

theorem posLookups_other (x : BaseType) {oid : Oid}
    (h : oid.number < 90000 ∨ 90001 < oid.number) : (posLookups x).lookupTypeCache oid = none := by
  have hne : ∀ n, n = 90000 ∨ n = 90001 → oid ≠ ⟨n⟩ := by
    rintro n hn rfl
    simp only at h
    omega
  simp only [posLookups, hne 90000 (.inl rfl), hne 90001 (.inr rfl), if_false]

theorem posCatalog_represents (x : BaseType) :
    (posCatalog x).Represents (posLookups x) posOidOf := by
  constructor
  · rintro name oid type hmem hname ⟨tyName, array⟩ hty
    have hoid := baseOid_eq_iff type (name, oid) hmem
    have hrange := baseOid_range type
    rw [hoid.2 hname] at hrange
    cases array with
    | true =>
      refine iff_of_false ?_ (by simp)
      intro heq
      rw [← heq, posOidOf_array] at hrange
      simp only at hrange
      omega
    | false =>
      cases tyName with
      | base other =>
        rw [show posOidOf ⟨.base other, false⟩ = baseOid other from rfl,
          baseOid_eq_iff other (name, oid) hmem, hname]
        simp [eq_comm]
      | named other =>
        refine iff_of_false ?_ (by simp)
        intro heq
        rw [← heq, posOidOf] at hrange
        simp only [Bool.false_eq_true, if_false] at hrange
        split_ifs at hrange <;> simp at hrange
  · rintro ⟨name, array⟩ - heq
    have hrange := posOidOf_range name
    cases array with
    | true => simp [posOidOf_array] at heq
    | false =>
      rw [heq] at hrange
      exact absurd hrange.1 (by simp)
  · rintro ⟨name, array⟩ -
    cases array with
    | true => simp [posOidOf_array, posLookups, PgType.elementType]
    | false =>
      have hrange := posOidOf_range name
      have hsmall : ¬ (posOidOf ⟨name, false⟩).number ≥ 100000 := by omega
      simp only [posLookups, hsmall, if_false]
      cases name with
      | named name =>
        simp only [posOidOf, PgType.elementType, Bool.false_eq_true, if_false]
        split_ifs <;> simp_all
      | base type =>
        cases type with
        | other type => simp [posOidOf, baseOid, PgType.elementType]
        | _ => rfl
  · rintro ⟨name, array⟩ hty
    cases array with
    | true =>
      rw [posLookups_other]
      · cases name <;> rfl
      · exact .inr (Nat.lt_of_lt_of_le (by decide) (Nat.le_add_left 100000 _))
    | false =>
      cases name with
      | base type =>
        rw [posLookups_other]
        · rfl
        · exact .inl (baseOid_range type).2
      | named name =>
        rw [LocalCatalog.columnsOf, posCatalog_rowType]
        obtain rfl | rfl := posCatalog_hasType hty <;> rfl
  · intro place rel hrel column hcolumn hdropped
    rw [posCatalog_relations] at hrel
    split_ifs at hrel
    · cases hrel
      rw [List.mem_singleton.1 hcolumn, LocalCatalog.hasType]
      simp only [LocalCatalog.hasTypeName, posCatalog_rowType]
      rfl
    · cases hrel
      rw [List.mem_singleton.1 hcolumn]
      rfl

def posFields : Schema := [⟨"pos", .struct [⟨"x", .leaf .int64, true⟩], true⟩]

def posRemote : Remote :=
  .ofTree (fun ns => if ns = [] then ["t"] else []) (fun _ => []) [] Remote.nil_listed fun _ _ =>
    .ok posFields

def posEnv (x : BaseType) : ScanEnv := { ScanEnv.sample with convert := .sample (posLookups x) }

theorem posCatalog_inSync (x : BaseType) : detectSchemaDrift (.sample posRemote [["t"]]) ["t"]
    ⟨"lance", "t"⟩ (posCatalog x) = .ok none := by
  have hdrift : schemaDrift .sample ⟨"lance", "t"⟩ posFields (some posTable) = none := by
    rw [schemaDrift_eq_none_iff]
    refine .cons ⟨rfl, ?_⟩ .nil
    rw [SameText]
    decide +kernel
  rw [detectSchemaDrift, posCatalog_relations, if_pos rfl]
  exact congrArg Except.ok hdrift

theorem beginForeignScan_inSync_iff_positions :
    (∃ node, beginForeignScan (posEnv .int8) posFields
        (posTable.columns.map (Column.attribute posOidOf)) false (.ok []) = .ok node) ↔
      List.Forall₂ (fun f column => (posCatalog .int8).Genuine f.dataType column.type) posFields
        (posTable.columns.filter fun column => !column.dropped) := by
  have hrel := posCatalog_relations .int8 ⟨"lance", "t"⟩
  rw [if_pos rfl] at hrel
  have hrepresents : (posCatalog .int8).Represents (posEnv .int8).convert.catalog posOidOf :=
    posCatalog_represents .int8
  exact beginForeignScan_inSync_iff [] hrepresents hrel rfl (posCatalog_inSync .int8)

/-- A struct's field has another type than the attribute of the composite type, the name of which
is all that is compared. -/
theorem beginForeignScan_inSync_fails :
    (posCatalog .int4).Represents (posEnv .int4).convert.catalog posOidOf ∧
    detectSchemaDrift (.sample posRemote [["t"]]) ["t"] ⟨"lance", "t"⟩ (posCatalog .int4) =
      .ok none ∧
    ¬ ∃ node, beginForeignScan (posEnv .int4) posFields
      (posTable.columns.map (Column.attribute posOidOf)) false (.ok []) = .ok node := by
  refine ⟨posCatalog_represents .int4, posCatalog_inSync .int4, ?_⟩
  rw [beginForeignScan_accepts_iff]
  intro h
  obtain ⟨col, hcol⟩ := h ⟨"pos", ⟨90000⟩, false⟩ (by decide)
  have hfails : (attributeToBatchCol (posEnv .int4) posFields ⟨"pos", ⟨90000⟩, false⟩).isOk =
    false := by decide
  rw [hcol] at hfails
  cases hfails

end PgLance
