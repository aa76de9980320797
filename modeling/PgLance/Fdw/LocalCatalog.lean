import PgLance.Fdw.TypeStrings
import PgLance.Library.Fallible
import PgLance.Postgres

/-! What PostgreSQL's catalogue says about schemas, relations and types, and what the generated
statements do to it. -/

namespace PgLance

structure QualName where
  schema : String
  name : String
  deriving DecidableEq, Repr

instance : Ord QualName := ⟨compareLex (compareOn QualName.schema) (compareOn QualName.name)⟩

instance : Std.TransOrd QualName :=
  inferInstanceAs (Std.TransCmp (compareLex (compareOn QualName.schema) (compareOn QualName.name)))

instance : Std.LawfulEqOrd QualName where
  eq_of_compare {a b} h := by
    obtain ⟨hschema, hname⟩ := compareLex_eq_eq.mp h
    have hs : a.schema = b.schema := Std.LawfulEqOrd.eq_of_compare hschema
    have hn : a.name = b.name := Std.LawfulEqOrd.eq_of_compare hname
    cases a
    cases b
    simp only at hs hn
    rw [hs, hn]

theorem utf8ByteSize_ofList_cons (c : Char) (cs : List Char) :
    (String.ofList (c :: cs)).utf8ByteSize = c.utf8Size + (String.ofList cs).utf8ByteSize := by
  rw [String.ofList_cons, String.utf8ByteSize_append, String.utf8ByteSize_singleton]

theorem utf8ByteSize_mbCharClip (limit : Nat) (cs : List Char) :
    (String.ofList (mbCharClip limit cs)).utf8ByteSize ≤ limit := by
  induction cs generalizing limit with
  | nil => simp [mbCharClip]
  | cons c cs ih =>
    rw [mbCharClip]
    split
    · rename_i hle
      have hrest := ih (limit - c.utf8Size)
      rw [utf8ByteSize_ofList_cons]
      omega
    · simp

theorem truncateIdentifier_idem (ident : String) :
    truncateIdentifier (truncateIdentifier ident) = truncateIdentifier ident := by
  apply truncateIdentifier_of_le
  rw [truncateIdentifier]
  split
  · exact utf8ByteSize_mbCharClip 63 ident.toList
  · omega

namespace QualName

def stored (schema name : String) : QualName := ⟨truncateIdentifier schema, truncateIdentifier name⟩

def Fits (name : QualName) : Prop := stored name.schema name.name = name

theorem stored_fits (schema name : String) : (stored schema name).Fits := by
  simp only [Fits, stored, truncateIdentifier_idem]

end QualName

/-- A built-in type that is declared for no Arrow type, by the words before and after a modifier
of it. -/
structure OtherType where
  before : String
  after : String
  dots : '.' ∉ (before ++ after).toList
  dims : (typeParts (before ++ after)).1 = 0
  notAlias : (typeParts (before ++ after)).2 ∉ typeAliases.map Prod.snd
  notLance : isLanceType (typeParts (before ++ after)).2.toList = false
  deriving DecidableEq

inductive BaseType
  | boolean | int2 | int4 | int8 | float4 | float8 | text | bytea | date
  | timestamp | timestamptz | numeric | jsonb | int2vector | oidvector
  | other (type : OtherType)
  deriving DecidableEq

namespace BaseType

def words : BaseType → String × String
  | boolean => ("boolean", "")
  | int2 => ("smallint", "")
  | int4 => ("integer", "")
  | int8 => ("bigint", "")
  | float4 => ("real", "")
  | float8 => ("double precision", "")
  | text => ("text", "")
  | bytea => ("bytea", "")
  | date => ("date", "")
  | timestamp => ("timestamp", " without time zone")
  | timestamptz => ("timestamp", " with time zone")
  | numeric => ("numeric", "")
  | jsonb => ("jsonb", "")
  | int2vector => ("int2vector", "")
  | oidvector => ("oidvector", "")
  | other type => (type.before, type.after)

def ofName (name : String) : Option BaseType :=
  [("boolean", boolean), ("int2", int2), ("int4", int4), ("int8", int8), ("float4", float4),
    ("float8", float8), ("text", text), ("bytea", bytea), ("date", date),
    ("timestamp", timestamp), ("timestamptz", timestamptz), ("numeric", numeric),
    ("jsonb", jsonb)].lookup name

end BaseType

def OtherType.oid : OtherType where
  before := "oid"
  after := ""
  dots := by decide
  dims := by decide
  notAlias := by decide
  notLance := by decide

/-- A type without an array around it; `named` is a type of a relation's rows or one that a user
made. -/
inductive TypeName
  | base (type : BaseType)
  | named (name : QualName)
  deriving DecidableEq

/-- An array of arrays is an array of the same type. -/
structure PgType where
  name : TypeName
  array : Bool
  deriving DecidableEq

def PgType.elementType (ty : PgType) : Option PgType :=
  if ty.array then some ⟨ty.name, false⟩
  else if ty.name = .base .int2vector then some ⟨.base .int2, false⟩
  else if ty.name = .base .oidvector then some ⟨.base (.other .oid), false⟩
  else none

structure Column where
  name : String
  type : PgType
  typmod : Option (List Nat)
  dropped : Bool
  deriving DecidableEq

inductive RelKind
  | table | index | sequence | view | materializedView | toast | partitionedTable
  | partitionedIndex
  deriving DecidableEq, Repr

def RelKind.relkind : RelKind → Char
  | table => 'r'
  | index => 'i'
  | sequence => 'S'
  | view => 'v'
  | materializedView => 'm'
  | toast => 't'
  | partitionedTable => 'p'
  | partitionedIndex => 'I'

inductive RelationKind
  | foreignTable (server : String) (options : List (String × Option String))
  | compositeType
  | other (kind : RelKind)
  deriving DecidableEq, Repr

namespace RelationKind

def relkind : RelationKind → Char
  | foreignTable _ _ => 'f'
  | compositeType => 'c'
  | other kind => kind.relkind

def hasRowType : RelationKind → Bool
  | other .index | other .sequence | other .toast | other .partitionedIndex => false
  | _ => true

end RelationKind

structure Relation where
  kind : RelationKind
  columns : List Column
  distinct : (columns.map Column.name).Nodup
  deriving DecidableEq

structure LocalCatalog where
  servers : List (String × List (String × String))
  schemas : Std.TreeSet String
  relations : Std.TreeMap QualName Relation
  /-- The types that users made other than those of relations. -/
  types : List QualName
  fits : ∀ name ∈ relations, name.Fits

namespace LocalCatalog

def insert (σ : LocalCatalog) (schema name : String) (rel : Relation) : LocalCatalog where
  servers := σ.servers
  schemas := σ.schemas
  relations := σ.relations.insert (.stored schema name) rel
  types := σ.types
  fits other hmem := by
    cases Std.TreeMap.mem_insert.mp hmem with
    | inl heq => exact Std.LawfulEqOrd.eq_of_compare heq ▸ QualName.stored_fits schema name
    | inr hmem => exact σ.fits other hmem

def erase (σ : LocalCatalog) (name : QualName) : LocalCatalog where
  servers := σ.servers
  schemas := σ.schemas
  relations := σ.relations.erase name
  types := σ.types
  fits other hmem := σ.fits other (Std.TreeMap.mem_of_mem_erase hmem)

def rowType (σ : LocalCatalog) (name : QualName) : Option (List Column) :=
  match σ.relations[name]? with
  | some rel => if rel.kind.hasRowType then some rel.columns else none
  | none => none

def hasTypeName (σ : LocalCatalog) (name : QualName) : Bool :=
  (σ.rowType name).isSome || σ.types.contains name

def hasType (σ : LocalCatalog) (ty : PgType) : Bool :=
  match ty.name with
  | .base _ => true
  | .named name => σ.hasTypeName name

end LocalCatalog

def readType (schema ty : String) : Option PgType :=
  let (dims, t) := Text.splitArrays ty.toList
  if isLanceType t then
    some ⟨.named (.stored schema (String.ofList t)), dims != 0⟩
  else (BaseType.ofName (String.ofList t)).map fun type => ⟨.base type, dims != 0⟩

def readColumn (schema : String) (column : String × String) : Option Column :=
  (readType schema column.2).map fun type => ⟨truncateIdentifier column.1, type, none, false⟩

/-- The statements that the extension executes. -/
inductive Command
  | createSchema (schema : String)
  | createCompositeType (schema : String) (ty : CompositeTypeDef)
  | createForeignTable (server schema table : String) (options columns : List (String × String))
  | dropForeignTable (schema table : String)
  deriving DecidableEq, Repr

def dropForeignTableSql (schema table : String) : String :=
  "DROP FOREIGN TABLE " ++ quoteIdent schema ++ "." ++ quoteIdent table ++ ";"

namespace Command

def sql : Command → String
  | createSchema schema => createSchemaSql schema
  | createCompositeType schema ty => createCompositeTypeSql schema ty
  | createForeignTable server schema table options columns =>
    createForeignTableSql server schema table options columns
  | dropForeignTable schema table => dropForeignTableSql schema table

def names : Command → List String
  | createSchema schema => [schema]
  | createCompositeType schema ty => schema :: ty.typeName :: ty.fields.map Prod.fst
  | createForeignTable server schema table options columns =>
    [server, schema, table] ++ columns.map Prod.fst ++ options.flatMap fun option =>
      [option.1, option.2]
  | dropForeignTable _ _ => []

/-- A body that ends at a `$$` inside a name is not the statement that was meant. -/
def broken (command : Command) : Bool :=
  command.names.any fun name => SqlText.hasDollars name.toList

end Command

/-- What the session and the rest of the catalogue decide. -/
structure Postgres where
  visible : QualName → Bool
  needsQuotes : String → Bool
  /-- The errors of a statement for reasons that are not modelled, such as permissions, dependent
  objects, reserved names and limits. -/
  raises : Command → LocalCatalog → Option String

def Postgres.sample : Postgres := ⟨fun _ => false, fun _ => false, fun _ _ => none⟩

namespace Postgres

variable (pg : Postgres)

def quoteIdentifier (ident : String) : String :=
  if pg.needsQuotes ident then quoteIdent ident else ident

def formatTypeName (typmod : Option (List Nat)) : TypeName → String
  | .base type =>
    type.words.1 ++ (match typmod with
      | none => ""
      | some sizes => "(" ++ String.intercalate "," (sizes.map toString) ++ ")") ++ type.words.2
  | .named name =>
    (if pg.visible name then "" else pg.quoteIdentifier name.schema ++ ".") ++
      pg.quoteIdentifier name.name

def formatType (ty : PgType) (typmod : Option (List Nat)) : String :=
  if ty.array then pg.formatTypeName typmod ty.name ++ "[]" else pg.formatTypeName typmod ty.name

def defineColumns (σ : LocalCatalog) (schema : String) (columns : List (String × String)) :
    Except String {columns : List Column // (columns.map Column.name).Nodup} :=
  match columns.mapM (readColumn schema) with
  | none => .error "type does not exist"
  | some columns =>
    if columns.all fun column => σ.hasType column.type then
      if distinct : (columns.map Column.name).Nodup then .ok ⟨columns, distinct⟩
      else .error "column specified more than once"
    else .error "type does not exist"

def execCreateCompositeType (schema : String) (ty : CompositeTypeDef) (σ : LocalCatalog) :
    Except String LocalCatalog :=
  let name := QualName.stored schema ty.typeName
  if σ.schemas.contains name.schema then
    -- `duplicate_object` is caught
    if σ.hasTypeName name then .ok σ
    else do
      let columns ← defineColumns σ schema ty.fields
      if σ.relations.contains name then .error "relation already exists"
      else return σ.insert schema ty.typeName ⟨.compositeType, columns.1, columns.2⟩
  else .error "schema does not exist"

def execCreateForeignTable (server schema table : String) (options columns : List (String × String))
    (σ : LocalCatalog) : Except String LocalCatalog :=
  let name := QualName.stored schema table
  if σ.schemas.contains name.schema then do
    let columns ← defineColumns σ schema columns
    -- `duplicate_table` is caught
    if σ.relations.contains name then return σ
    else if σ.hasTypeName name then .error "type already exists"
    else if (σ.servers.lookup server).isSome then
      return σ.insert schema table ⟨.foreignTable server
        (options.map fun option => (truncateIdentifier option.1, some option.2)), columns.1,
        columns.2⟩
    else .error "server does not exist"
  else .error "schema does not exist"

def execDropForeignTable (schema table : String) (σ : LocalCatalog) : Except String LocalCatalog :=
  let name := QualName.stored schema table
  match σ.relations[name]? with
  | none => .error "foreign table does not exist"
  | some rel =>
    match rel.kind with
    | .foreignTable _ _ => .ok (σ.erase name)
    | _ => .error "relation is not a foreign table"

/-- What a statement leaves, unless it raises an error. -/
def exec (command : Command) (σ : LocalCatalog) : Except String LocalCatalog :=
  match pg.raises command σ with
  | some e => .error e
  | none =>
    if command.broken then .error "syntax error"
    else
      match command with
      | .createSchema schema =>
        if σ.schemas.contains (truncateIdentifier schema) then .ok σ
        else .ok { σ with schemas := σ.schemas.insert (truncateIdentifier schema) }
      | .createCompositeType schema ty => execCreateCompositeType schema ty σ
      | .createForeignTable server schema table options columns =>
        execCreateForeignTable server schema table options columns σ
      | .dropForeignTable schema table => execDropForeignTable schema table σ

variable {pg} {σ σ' : LocalCatalog}

theorem defineColumns_ok {schema : String} {columns : List (String × String)}
    {defined : {columns : List Column // (columns.map Column.name).Nodup}}
    (h : defineColumns σ schema columns = .ok defined) :
    columns.mapM (readColumn schema) = some defined.1 := by
  rw [defineColumns] at h
  split at h
  · cases h
  · rename_i read hread
    split at h
    · split at h
      · cases h
        exact hread
      · cases h
    · cases h

theorem exec_ok {command : Command} (h : pg.exec command σ = .ok σ') :
    command.broken = false ∧
      match command with
      | .createSchema schema =>
        σ' = if σ.schemas.contains (truncateIdentifier schema) then σ
          else { σ with schemas := σ.schemas.insert (truncateIdentifier schema) }
      | .createCompositeType schema ty => execCreateCompositeType schema ty σ = .ok σ'
      | .createForeignTable server schema table options columns =>
        execCreateForeignTable server schema table options columns σ = .ok σ'
      | .dropForeignTable schema table => execDropForeignTable schema table σ = .ok σ' := by
  unfold exec at h
  split at h
  · cases h
  · split at h
    · cases h
    · rename_i hbroken
      refine ⟨by simpa using hbroken, ?_⟩
      cases command with
      | createSchema schema =>
        simp only at h ⊢
        split at h <;> cases h <;> rename_i hcontains
        · rw [if_pos hcontains]
        · rw [if_neg hcontains]
      | createCompositeType schema ty => exact h
      | createForeignTable server schema table options columns => exact h
      | dropForeignTable schema table => exact h

theorem execCreateCompositeType_ok {schema : String} {ty : CompositeTypeDef}
    (h : execCreateCompositeType schema ty σ = .ok σ') :
    let name := QualName.stored schema ty.typeName
    (σ.hasTypeName name = true ∧ σ' = σ) ∨
      (σ.hasTypeName name = false ∧ σ.relations[name]? = none ∧ ∃ rel : Relation,
        rel.kind = .compositeType ∧ ty.fields.mapM (readColumn schema) = some rel.columns ∧
        σ' = σ.insert schema ty.typeName rel) := by
  rw [execCreateCompositeType] at h
  simp only at h ⊢
  split at h
  · split at h
    · rename_i hname
      cases h
      exact .inl ⟨hname, rfl⟩
    · rename_i hname
      obtain ⟨defined, hdefined, h⟩ := Fallible.bind_ok_iff.mp h
      split at h
      · cases h
      · rename_i hcontains
        cases h
        refine .inr ⟨by simpa using hname, ?_, _, rfl, defineColumns_ok hdefined, rfl⟩
        rwa [Std.TreeMap.contains_eq_isSome_getElem?, Option.not_isSome_iff_eq_none] at hcontains
  · cases h

theorem execCreateForeignTable_ok {server schema table : String}
    {options columns : List (String × String)}
    (h : execCreateForeignTable server schema table options columns σ = .ok σ') :
    let name := QualName.stored schema table
    (σ.relations.contains name = true ∧ σ' = σ) ∨
      (σ.relations[name]? = none ∧ ∃ rel : Relation,
        rel.kind = .foreignTable server
          (options.map fun option => (truncateIdentifier option.1, some option.2)) ∧
        columns.mapM (readColumn schema) = some rel.columns ∧
        σ' = σ.insert schema table rel) := by
  rw [execCreateForeignTable] at h
  simp only at h ⊢
  split at h
  · obtain ⟨defined, hdefined, h⟩ := Fallible.bind_ok_iff.mp h
    split at h
    · rename_i hcontains
      cases h
      exact .inl ⟨hcontains, rfl⟩
    · rename_i hcontains
      split at h
      · cases h
      · split at h
        · cases h
          refine .inr ⟨?_, _, rfl, defineColumns_ok hdefined, rfl⟩
          rwa [Std.TreeMap.contains_eq_isSome_getElem?, Option.not_isSome_iff_eq_none] at hcontains
        · cases h
  · cases h

theorem execDropForeignTable_ok {schema table : String}
    (h : execDropForeignTable schema table σ = .ok σ') :
    let name := QualName.stored schema table
    (∃ rel server options, σ.relations[name]? = some rel ∧
      rel.kind = .foreignTable server options) ∧
      σ' = σ.erase name := by
  rw [execDropForeignTable] at h
  simp only at h ⊢
  split at h
  · cases h
  · rename_i rel hrel
    split at h
    · rename_i server options hkind
      cases h
      exact ⟨⟨rel, server, options, hrel, hkind⟩, rfl⟩
    · cases h

end Postgres

namespace Command

def Creates (command : Command) (name : QualName) (rel : Relation) : Prop :=
  match command with
  | createCompositeType schema ty =>
    name = .stored schema ty.typeName ∧
      rel.kind = .compositeType ∧ ty.fields.mapM (readColumn schema) = some rel.columns
  | createForeignTable server schema table options columns =>
    name = .stored schema table ∧
      rel.kind = .foreignTable server
        (options.map fun option => (truncateIdentifier option.1, some option.2)) ∧
      columns.mapM (readColumn schema) = some rel.columns
  | _ => False

def Drops (command : Command) (name : QualName) : Prop :=
  match command with
  | dropForeignTable schema table =>
    name = .stored schema table
  | _ => False

end Command

structure Changes (command : Command) (σ σ' : LocalCatalog) : Prop where
  servers : σ'.servers = σ.servers
  types : σ'.types = σ.types
  relations : ∀ name, σ'.relations[name]? = σ.relations[name]? ∨
    (σ.relations[name]? = none ∧ ∃ rel, σ'.relations[name]? = some rel ∧
      command.Creates name rel) ∨
    (command.Drops name ∧ σ'.relations[name]? = none ∧ ∃ rel server options,
      σ.relations[name]? = some rel ∧ rel.kind = .foreignTable server options)

theorem Changes.rfl {command : Command} {σ : LocalCatalog} : Changes command σ σ where
  servers := .refl _
  types := .refl _
  relations _ := .inl (.refl _)

theorem Changes.insert {command : Command} {σ : LocalCatalog} {schema name : String}
    {rel : Relation} (hnone : σ.relations[QualName.stored schema name]? = none)
    (hcreates : command.Creates (.stored schema name) rel) :
    Changes command σ (σ.insert schema name rel) where
  servers := .refl _
  types := .refl _
  relations other := by
    rw [LocalCatalog.insert, Std.TreeMap.getElem?_insert]
    by_cases heq : QualName.stored schema name = other
    · subst heq
      exact .inr (.inl ⟨hnone, rel, by simp, hcreates⟩)
    · exact .inl (by simp [heq])

theorem Postgres.exec_changes {pg : Postgres} {command : Command} {σ σ' : LocalCatalog}
    (h : pg.exec command σ = .ok σ') : Changes command σ σ' := by
  have hexec := (exec_ok h).2
  cases command with
  | createSchema schema =>
    simp only at hexec
    split at hexec <;> subst hexec
    · exact .rfl
    · exact ⟨.refl _, .refl _, fun _ => .inl (.refl _)⟩
  | createCompositeType schema ty =>
    rcases execCreateCompositeType_ok hexec with ⟨-, rfl⟩ | ⟨-, hnone, rel, hkind, hcolumns, rfl⟩
    · exact .rfl
    · exact .insert hnone ⟨.refl _, hkind, hcolumns⟩
  | createForeignTable server schema table options columns =>
    rcases execCreateForeignTable_ok hexec with ⟨-, rfl⟩ | ⟨hnone, rel, hkind, hcolumns, rfl⟩
    · exact .rfl
    · exact .insert hnone ⟨.refl _, hkind, hcolumns⟩
  | dropForeignTable schema table =>
    obtain ⟨⟨rel, server, options, hrel, hkind⟩, rfl⟩ := execDropForeignTable_ok hexec
    refine ⟨.refl _, .refl _, ?_⟩
    intro other
    rw [LocalCatalog.erase, Std.TreeMap.getElem?_erase]
    by_cases heq : QualName.stored schema table = other
    · subst heq
      exact .inr (.inr ⟨.refl _, by simp, rel, server, options, hrel, hkind⟩)
    · exact .inl (by simp [heq])

end PgLance
