import PgLance.Fdw.Attach

/-! Whether the columns of a foreign table are those that its dataset is declared with. -/

namespace PgLance

/-- The columns of a relation, with their types as `format_type` prints them. -/
def localColumns (pg : Postgres) (rel : Option Relation) : List (String × String) :=
  match rel with
  | none => []
  | some rel =>
    (rel.columns.filter fun column => !column.dropped).map fun column =>
      (column.name, pg.formatType column.type column.typmod)

def normalizeColumns (columns : List (String × String)) : List (String × String) :=
  columns.map fun column => (column.1, canonicalTypeString column.2)

def firstDifference (qualified : String) :
    Nat → List (String × String) → List (String × String) → Option String
  | idx, exp :: expected, act :: actual =>
    if exp.1 ≠ act.1 then
      some (qualified ++ " column name mismatch at position " ++ toString (idx + 1) ++ ": expected=" ++
        exp.1 ++ " actual=" ++ act.1)
    else if exp.2 ≠ act.2 then
      some (qualified ++ " column type mismatch for " ++ exp.1 ++ ": expected=" ++ exp.2 ++ " actual=" ++
        act.2)
    else firstDifference qualified (idx + 1) expected actual
  | _, _, _ => none

def summarizeColumnDiff (place : QualName) (expected actual : List (String × String)) : String :=
  let qualified := place.schema ++ "." ++ place.name
  if expected.length ≠ actual.length then
    qualified ++ " column count mismatch: expected=" ++ toString expected.length ++ " actual=" ++
      toString actual.length
  else (firstDifference qualified 0 expected actual).getD (qualified ++ " column definitions differ")

def schemaDrift (pg : Postgres) (place : QualName) (fields : Schema) (rel : Option Relation) :
    Option String :=
  let expectedNorm := normalizeColumns (buildSchemaMapping place.name fields).columnTypes
  let actualNorm := normalizeColumns (localColumns pg rel)
  if expectedNorm = actualNorm then none
  else some ("schema drift: " ++ summarizeColumnDiff place expectedNorm actualNorm)

def detectSchemaDrift (env : NamespaceEnv) (tableId : TableId) (place : QualName)
    (σ : LocalCatalog) : Except String (Option String) :=
  (env.remote.load .driftCheck tableId).map fun fields =>
    schemaDrift env.pg place fields σ.relations[place]?

theorem schemaDrift_eq_none {pg : Postgres} {place : QualName} {fields : Schema}
    {rel : Option Relation} :
    schemaDrift pg place fields rel = none ↔
      normalizeColumns (buildSchemaMapping place.name fields).columnTypes =
        normalizeColumns (localColumns pg rel) := by
  simp only [schemaDrift]
  split
  · simpa
  · simpa

end PgLance
