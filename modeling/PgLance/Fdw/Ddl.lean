import PgLance.Fdw.TypeMapping
import PgLance.Library.SqlText
import PgLance.Library.Text

/-! The statements that create schemas, composite types and foreign tables. -/

namespace PgLance

def quoteIdent (ident : String) : String :=
  "\"" ++ String.ofList (SqlText.double '"' ident.toList) ++ "\""

def quoteLiteral (value : String) : String :=
  "'" ++ String.ofList (SqlText.double '\'' value.toList) ++ "'"

def qualifyCompositeType (typeName schema : String) : String :=
  quoteIdent schema ++ "." ++ quoteIdent typeName

/-- `starts_with("lance_")`, by which composite types are told from others. -/
def isLanceType (ty : List Char) : Bool := "lance_".toList.isPrefixOf ty

def qualifyTypeString (ty schema : String) : String :=
  let (dims, t) := Text.splitArrays ty.toList
  let base :=
    if isLanceType t then qualifyCompositeType (String.ofList t) schema else String.ofList t
  base ++ String.join (List.replicate dims "[]")

def columnSql (schema : String) (column : String × String) : String :=
  quoteIdent column.1 ++ " " ++ qualifyTypeString column.2 schema

def columnsSql (schema : String) (columns : List (String × String)) : String :=
  String.intercalate ", " (columns.map (columnSql schema))

def optionSql (option : String × String) : String :=
  quoteIdent option.1 ++ " " ++ quoteLiteral option.2

def createSchemaSql (schema : String) : String :=
  "DO $$ BEGIN CREATE SCHEMA " ++ quoteIdent schema ++
    "; EXCEPTION WHEN duplicate_schema THEN NULL; END $$;"

def createCompositeTypeSql (schema : String) (ty : CompositeTypeDef) : String :=
  "DO $$ BEGIN CREATE TYPE " ++ qualifyCompositeType ty.typeName schema ++ " AS (" ++
    columnsSql schema ty.fields ++ "); EXCEPTION WHEN duplicate_object THEN NULL; END $$;"

def createForeignTableSql (server schema table : String) (options : List (String × String))
    (columns : List (String × String)) : String :=
  "DO $$ BEGIN CREATE FOREIGN TABLE " ++ quoteIdent schema ++ "." ++ quoteIdent table ++ " (" ++
    columnsSql schema columns ++ ") SERVER " ++ quoteIdent server ++ " OPTIONS (" ++
    String.intercalate ", " (options.map optionSql) ++
    "); EXCEPTION WHEN duplicate_table THEN NULL; END $$;"

def baseTypeName (ty : String) : String := String.ofList (Text.splitArrays ty.toList).2

def CompositeTypeDef.deps (ty : CompositeTypeDef) : List String :=
  (ty.fields.map fun field => baseTypeName field.2).filter fun t => isLanceType t.toList

structure OrderState where
  emitted : Std.TreeSet String
  out : List CompositeTypeDef

def orderStep (st : OrderState) (entry : String × CompositeTypeDef) : OrderState :=
  if st.emitted.contains entry.1 then st
  else if entry.2.deps.all st.emitted.contains then
    ⟨st.emitted.insert entry.1, st.out ++ [entry.2]⟩
  else st

/-- Passes over the definitions, until one emits nothing or all are emitted. -/
def orderPasses (byName : List (String × CompositeTypeDef)) : Nat → OrderState → OrderState
  | 0, st => st
  | fuel + 1, st =>
    let next := byName.foldl orderStep st
    if next.out.length = st.out.length then next
    else if next.out.length = byName.length then next
    else orderPasses byName fuel next

def orderCompositeTypes (types : List CompositeTypeDef) : List CompositeTypeDef :=
  let byName := (Std.TreeMap.ofList (types.map fun ty => (ty.typeName, ty))).toList
  let st := orderPasses byName (byName.length + 1) ⟨∅, []⟩
  st.out ++ (byName.filter fun entry => !st.emitted.contains entry.1).map Prod.snd

end PgLance
