import PgLance.Fdw.Drift

/-! Reconciling the foreign tables of a server with a remote namespace. -/

namespace PgLance

structure LocalNamespaceTable where
  place : QualName
  batchSize : Option Int
  deriving DecidableEq, Repr

def i64Parse (text : String) : Option Int :=
  let (negative, digits) :=
    match text.toList with
    | '-' :: digits => (true, digits)
    | '+' :: digits => (false, digits)
    | digits => (false, digits)
  if digits.isEmpty || !digits.all Char.isDigit then none
  else
    let n : Int := digits.foldl (fun n c => 10 * n + (c.toNat - '0'.toNat)) 0
    let n := if negative then -n else n
    if i64Min ≤ n ∧ n ≤ i64Max then some n else none

def hasPrefix (full pre : TableId) : Bool := pre.isPrefixOf full

def namespaceTable (serverName : String) (entry : QualName × Relation) :
    Option (LocalNamespaceTable × Option String) :=
  match entry.2.kind with
  | .foreignTable server options =>
    if server = serverName then
      (options.lookup optNsTableId).map fun tableIdJson =>
        (⟨entry.1, (options.lookup optBatchSize).join.bind i64Parse⟩, tableIdJson)
    else none
  | _ => none

/-- The foreign tables of a server with the option, in the order of their places. -/
def namespaceTables (σ : LocalCatalog) (serverName : String) :
    List (LocalNamespaceTable × Option String) :=
  σ.relations.toList.filterMap (namespaceTable serverName)

def parseTableId (env : NamespaceEnv) (tableIdJson : Option String) : Except String TableId :=
  match tableIdJson with
  | none => .error ("missing required option: " ++ optNsTableId)
  | some json =>
    match env.tableIdFromJson json with
    | .error e => .error ("invalid option: " ++ optNsTableId ++
        " must be a JSON array of strings, error=" ++ e)
    | .ok tableId =>
      if tableId.isEmpty then .error ("invalid option: " ++ optNsTableId ++ " must not be empty")
      else .ok tableId

def duplicateTableId : String :=
  "duplicate local ns.table_id (multiple foreign tables point to the same table_id)"

abbrev LocalById := Std.TreeMap TableId LocalNamespaceTable

def introspectStep (env : NamespaceEnv) (rootNamespaceId : TableId)
    (acc : LocalById × List NamespaceRow) (entry : LocalNamespaceTable × Option String) :
    LocalById × List NamespaceRow :=
  match parseTableId env entry.2 with
  | .error detail => (acc.1, acc.2 ++ [⟨[], entry.1.place, .error, .failed, detail⟩])
  | .ok tableId =>
    if !hasPrefix tableId rootNamespaceId then acc
    else if acc.1.contains tableId then
      (acc.1.insert tableId entry.1,
        acc.2 ++ [⟨tableId, entry.1.place, .error, .failed, duplicateTableId⟩])
    else (acc.1.insert tableId entry.1, acc.2)

def introspectLocalNamespaceTables (env : NamespaceEnv) (serverName : String)
    (rootNamespaceId : TableId) (σ : LocalCatalog) : LocalById × List NamespaceRow :=
  (namespaceTables σ serverName).foldl (introspectStep env rootNamespaceId) (∅, [])

structure SyncContext where
  env : NamespaceEnv
  serverName : String
  dropMissing : Bool
  recreateChanged : Bool
  dryRun : Bool

def defaultLimitPerListCall : Int := 1000

def createRow (tableId : TableId) (place : QualName) : Except String NamespaceRow → NamespaceRow
  | .ok row => row
  | .error e => ⟨tableId, place, .createTable, .failed, e⟩

def recreateRow (tableId : TableId) (place : QualName) (driftDetail : String) :
    Except String NamespaceRow → NamespaceRow
  | .ok row => { row with action := .recreateTable, detail := "recreated: " ++ driftDetail }
  | .error e =>
    ⟨tableId, place, .recreateTable, .failed, "failed to recreate foreign table: " ++ e⟩

def misplacedDetail (actual expected : QualName) : String :=
  "local mapping differs: actual=" ++ actual.schema ++ "." ++ actual.name ++ " expected=" ++
    expected.schema ++ "." ++ expected.name

def recreate (ctx : SyncContext) (tableId : TableId) (place : QualName)
    (localTable : LocalNamespaceTable) (driftDetail : String) (s : Session) :
    Except String (NamespaceRow × Session) := do
  let s ← s.execute ctx.env.pg (.dropForeignTable place.schema place.name)
  let (result, s) ← attachOne ⟨ctx.env, ctx.serverName, localTable.batchSize, false⟩ tableId place s
  return (recreateRow tableId place driftDetail result, s)

/-- One remote table; an `error` inside is one that the sync returns. -/
def syncEntry (ctx : SyncContext) (localById : LocalById) (tableId : TableId)
    (place : QualName) (s : Session) :
    Except String (Except String (NamespaceRow × Session)) :=
  match localById[tableId]? with
  | none =>
    (attachOne ⟨ctx.env, ctx.serverName, none, ctx.dryRun⟩ tableId place s).map fun (result, s) =>
      .ok (createRow tableId place result, s)
  | some localTable =>
    if localTable.place ≠ place then
      .ok (.ok (⟨tableId, place, .drift, .ok, misplacedDetail localTable.place place⟩, s))
    else
      match detectSchemaDrift ctx.env tableId place s.catalog with
      | .error e => .ok (.error e)
      | .ok none => .ok (.ok (⟨tableId, place, .inSync, .ok, "up to date"⟩, s))
      | .ok (some driftDetail) =>
        if !ctx.recreateChanged then .ok (.ok (⟨tableId, place, .drift, .ok, driftDetail⟩, s))
        else if ctx.dryRun then
          .ok (.ok (⟨tableId, place, .recreateTable, .skipped, "dry_run: " ++ driftDetail⟩, s))
        else (recreate ctx tableId place localTable driftDetail s).map .ok

def syncEntries (ctx : SyncContext) (localById : LocalById) :
    List (TableId × QualName) → Session → Except String (Except String (List NamespaceRow × Session))
  | [], s => .ok (.ok ([], s))
  | (tableId, place) :: entries, s => do
    match ← syncEntry ctx localById tableId place s with
    | .error e => return .error e
    | .ok (row, s) =>
      match ← syncEntries ctx localById entries s with
      | .error e => return .error e
      | .ok (rows, s) => return .ok (row :: rows, s)

def localOnlyTables (localById : LocalById) (remoteTableIds : List TableId) :
    List (TableId × LocalNamespaceTable) :=
  (localById.toList.filter fun entry => !remoteTableIds.contains entry.1).insertionSort fun a b =>
    (compare a.2.place b.2.place).isLE

def dropEntry (ctx : SyncContext) (tableId : TableId) (place : QualName) (s : Session) :
    Except String (NamespaceRow × Session) :=
  if !ctx.dropMissing then
    .ok (⟨tableId, place, .drift, .ok,
      "local foreign table not found in remote namespace listing"⟩, s)
  else if ctx.dryRun then .ok (⟨tableId, place, .dropTable, .skipped, "dry_run"⟩, s)
  else (s.execute ctx.env.pg (.dropForeignTable place.schema place.name)).map fun s =>
    (⟨tableId, place, .dropTable, .ok, "dropped"⟩, s)

def dropEntries (ctx : SyncContext) :
    List (TableId × LocalNamespaceTable) → Session → Except String (List NamespaceRow × Session)
  | [], s => .ok ([], s)
  | (tableId, localTable) :: entries, s => do
    let (row, s) ← dropEntry ctx tableId localTable.place s
    let (rows, s) ← dropEntries ctx entries s
    return (row :: rows, s)

/-- The outer `error` is an error that PostgreSQL raises; the inner one is returned, with the
session that the caller aborts. -/
def syncNamespace (ctx : SyncContext) (rootNamespaceId : TableId) (schemaPrefix : String)
    (s : Session) : Except String (Except String (List NamespaceRow × Session)) :=
  match mapNamespace ctx.env ctx.serverName rootNamespaceId schemaPrefix
    defaultLimitPerListCall s.catalog with
  | .error e => .ok (.error e)
  | .ok (remoteTableIds, mapping) => do
    let (localById, localErrors) :=
      introspectLocalNamespaceTables ctx.env ctx.serverName rootNamespaceId s.catalog
    match ← syncEntries ctx localById mapping.entries s with
    | .error e => return .error e
    | .ok (rows, s) =>
      let (dropRows, s) ← dropEntries ctx (localOnlyTables localById remoteTableIds) s
      return .ok ((mapping.conflicts.map fun tableId =>
        rowError tableId schemaPrefix mappingConflict) ++ localErrors ++ rows ++ dropRows, s)

end PgLance
