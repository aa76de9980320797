import PgLance.Fdw.Namespace
import PgLance.Write.Storage

/-! Creating foreign tables for datasets: one for a URI, or those of a namespace. -/

namespace PgLance

def optNsTableId : String := "ns.table_id"

def optBatchSize : String := "batch_size"

structure Creation where
  schema : String
  table : String
  fields : Schema
  before : LocalCatalog
  after : LocalCatalog

structure Session where
  catalog : LocalCatalog
  statements : List Command
  created : List Creation

/-- What the functions take from the server that they run in and from the crates they use. -/
structure NamespaceEnv where
  runtimeNew : Except String Unit
  pg : Postgres
  remote : Remote
  connect : String → List (String × String) → Except String Unit
  openDataset : String → Except String Schema
  tableIdToJson : TableId → String
  tableIdFromJson : String → Except String TableId
  debugOption : Option String → String
  /-- Whether pgrx reads a column of a type as a `String`. -/
  isCompatibleWith : Oid → Bool
  incompatibleTypes : Oid → String

def sampleIdToJson (id : TableId) : String :=
  "[" ++ String.intercalate "," (id.map fun name => "\"" ++ name ++ "\"") ++ "]"

def NamespaceEnv.sample (remote : Remote) (ids : List TableId) : NamespaceEnv where
  runtimeNew := .ok ()
  pg := .sample
  remote := remote
  connect _ _ := .ok ()
  openDataset _ := .error "dataset not found"
  tableIdToJson := sampleIdToJson
  tableIdFromJson json :=
    (ids.find? fun id => sampleIdToJson id = json).elim (.error "expected value") .ok
  debugOption value := value.elim "None" fun text => "Some(" ++ text ++ ")"
  isCompatibleWith typeOid := typeOid == textOid || typeOid == varcharOid
  incompatibleTypes _ := "incompatible types"

def LocalCatalog.sample : LocalCatalog where
  servers := [("srv", [("ns.impl", "dir")])]
  schemas := .ofList ["lance"]
  relations := ∅
  types := []
  fits := by simp

def Relation.sample (id : TableId) (column : String) (type : BaseType) : Relation where
  kind := .foreignTable "srv" [(optNsTableId, some (sampleIdToJson id))]
  columns := [⟨column, ⟨.base type, false⟩, none, false⟩]
  distinct := by simp

inductive Action
  | createTable | recreateTable | dropTable | skipExisting | inSync | drift | error
  deriving DecidableEq, Repr

inductive Status
  | ok | skipped | failed
  deriving DecidableEq, Repr

structure NamespaceRow where
  tableId : TableId
  place : QualName
  action : Action
  status : Status
  detail : String
  deriving DecidableEq, Repr

namespace Session

/-- A statement, which ends the transaction where it raises an error. -/
def execute (pg : Postgres) (command : Command) (s : Session) : Except String Session :=
  (pg.exec command s.catalog).map fun catalog =>
    { s with catalog, statements := s.statements ++ [command] }

def executeAll (pg : Postgres) : List Command → Session → Except String Session
  | [], s => .ok s
  | command :: commands, s => s.execute pg command >>= executeAll pg commands

def createTable (pg : Postgres) (server schema table : String) (options : List (String × String))
    (fields : Schema) (s : Session) : Except String Session := do
  let mapping := buildSchemaMapping table fields
  let s' ← s.executeAll pg
    ((orderCompositeTypes mapping.compositeTypes).map (.createCompositeType schema))
  let s'' ← s'.execute pg (.createForeignTable server schema table options mapping.columnTypes)
  if s'.catalog.relations.contains (.stored schema table) then
    return s''
  else
    return { s'' with
      created := s''.created ++ [⟨schema, table, fields, s.catalog, s''.catalog⟩] }

end Session

def batchSizeOption (batchSize : Option Int) : List (String × String) :=
  match batchSize with
  | none => []
  | some bs => [(optBatchSize, toString bs)]

def importLanceTable (env : NamespaceEnv) (serverName localSchema tableName uri : String)
    (batchSize : Option Int) (s : Session) : Except String (Except String Unit × Session) :=
  match env.runtimeNew with
  | .error e => .ok (.error e, s)
  | .ok () =>
    match env.openDataset uri with
    | .error e => .ok (.error e, s)
    | .ok fields =>
      (s.createTable env.pg serverName localSchema tableName
        (("uri", uri) :: batchSizeOption batchSize) fields).map fun s => (.ok (), s)

structure AttachContext where
  env : NamespaceEnv
  serverName : String
  batchSize : Option Int
  dryRun : Bool

inductive ExistingRelation
  | foreignTable (server : String) (nsTableId : Option String)
  | other (relkind : Char)
  deriving DecidableEq, Repr

/-- A column of a row, which is not null, as `Spi::get_two` gives it. -/
def NamespaceEnv.getString (env : NamespaceEnv) (typeOid : Oid) (value : String) :
    Except String String :=
  if env.isCompatibleWith typeOid then .ok value else .error (env.incompatibleTypes typeOid)

def existingRelation (env : NamespaceEnv) (rel : Relation) : Except String ExistingRelation :=
  match rel.kind with
  | .foreignTable server options =>
    -- `fs.srvname` has no cast to `text`
    (env.getString nameOid server).map fun server =>
      .foreignTable server (options.lookup optNsTableId).join
  | kind => .ok (.other kind.relkind)

def lookupExistingRelation (env : NamespaceEnv) (σ : LocalCatalog) (place : QualName) :
    Except String (Option ExistingRelation) :=
  match σ.relations[place]? with
  | none => .ok none
  | some rel => (existingRelation env rel).map some

def tableIdMatches (env : NamespaceEnv) (expected : TableId) (actualJson : Option String) :
    Except String Bool :=
  match actualJson with
  | none => .ok false
  | some actualJson =>
    match env.tableIdFromJson actualJson with
    | .error e => .error ("invalid existing option: " ++ optNsTableId ++
        " must be a JSON array of strings, error=" ++ e)
    | .ok actual => .ok (actual == expected)

def existingRow (ctx : AttachContext) (tableId : TableId) (place : QualName) :
    ExistingRelation → Except String NamespaceRow
  | .foreignTable server nsTableId =>
    if server ≠ ctx.serverName then
      .error ("foreign table already exists with different server: existing=" ++ server ++
        " expected=" ++ ctx.serverName)
    else
      match tableIdMatches ctx.env tableId nsTableId with
      | .error e => .error e
      | .ok false =>
        .error ("foreign table already exists with different " ++ optNsTableId ++ ": existing=" ++
          ctx.env.debugOption nsTableId ++ " expected=" ++ ctx.env.tableIdToJson tableId)
      | .ok true => .ok ⟨tableId, place, .skipExisting, .skipped, "already attached"⟩
  | .other relkind =>
    .error ("relation already exists with relkind='" ++ String.singleton relkind ++
      "' (expected foreign table)")

def existingResult (ctx : AttachContext) (tableId : TableId) (place : QualName) (rel : Relation) :
    Except String NamespaceRow :=
  existingRelation ctx.env rel >>= existingRow ctx tableId place

def attachOptions (ctx : AttachContext) (tableId : TableId) : List (String × String) :=
  (optNsTableId, ctx.env.tableIdToJson tableId) :: batchSizeOption ctx.batchSize

def attachOne (ctx : AttachContext) (tableId : TableId) (place : QualName) (s : Session) :
    Except String (Except String NamespaceRow × Session) :=
  match lookupExistingRelation ctx.env s.catalog place with
  | .error e => .ok (.error e, s)
  | .ok (some found) => .ok (existingRow ctx tableId place found, s)
  | .ok none =>
    if ctx.dryRun then .ok (.ok ⟨tableId, place, .createTable, .skipped, "dry_run"⟩, s)
    else
      match ctx.env.remote.load .attach tableId with
      | .error e => .ok (.error e, s)
      | .ok fields => do
        let s ← s.execute ctx.env.pg (.createSchema place.schema)
        let s ← s.createTable ctx.env.pg ctx.serverName place.schema place.name
          (attachOptions ctx tableId) fields
        return (.ok ⟨tableId, place, .createTable, .ok, "attached"⟩, s)

def rowError (tableId : TableId) (schemaPrefix detail : String) : NamespaceRow :=
  let place :=
    match localPlace schemaPrefix tableId with
    | .ok place => place
    | .error _ => ⟨"_", "_"⟩
  ⟨tableId, place, .error, .failed, detail⟩

def mappingConflict : String :=
  "mapping conflict: multiple table_id map to the same (schema, table)"

def attachRow (tableId : TableId) (place : QualName) :
    Except String NamespaceRow → NamespaceRow
  | .ok row => row
  | .error e => ⟨tableId, place, .error, .failed, e⟩

def attachEntries (ctx : AttachContext) :
    List (TableId × QualName) → Session → Except String (List NamespaceRow × Session)
  | [], s => .ok ([], s)
  | (tableId, place) :: entries, s => do
    let (result, s) ← attachOne ctx tableId place s
    let (rows, s) ← attachEntries ctx entries s
    return (attachRow tableId place result :: rows, s)

def optNsPrefix : String := "ns."

def optNsImpl : String := "ns.impl"

def namespaceProperty (option : String × String) : Option (String × String) :=
  if optNsPrefix.toList.isPrefixOf option.1.toList then
    let key := String.ofList (option.1.toList.drop optNsPrefix.length)
    if key = "impl" then none else some (key, option.2)
  else none

def connectNamespace (env : NamespaceEnv) (options : List (String × String)) :
    Except String Unit :=
  let rawOpts := parseDefelemList options
  match rawOpts[optNsImpl]? with
  | none => .error ("missing required option: " ++ optNsImpl)
  | some implName => env.connect implName (rawOpts.toList.filterMap namespaceProperty)

/-- `foreign_server_oid_by_name` and `connect_namespace`. -/
def connectServer (env : NamespaceEnv) (serverName : String) (σ : LocalCatalog) :
    Except String Unit :=
  if serverName.toList.contains '\x00' then .error "server_name contains NUL"
  else
    match σ.servers.lookup serverName with
    | none => .error ("foreign server not found: " ++ serverName)
    | some options => connectNamespace env options

/-- The listing of a namespace and its mapping, before anything is executed. -/
def mapNamespace (env : NamespaceEnv) (serverName : String) (rootNamespaceId : TableId)
    (schemaPrefix : String) (limitPerListCall : Int) (σ : LocalCatalog) :
    Except String (List TableId × Mapping) := do
  env.runtimeNew
  connectServer env serverName σ
  let tableIds ← listTableIds env.remote rootNamespaceId limitPerListCall
  let mapping ← buildMapping schemaPrefix tableIds
  return (tableIds, mapping)

def attachNamespace (env : NamespaceEnv) (serverName : String) (rootNamespaceId : TableId)
    (schemaPrefix : String) (batchSize : Option Int) (limitPerListCall : Int) (dryRun : Bool)
    (s : Session) : Except String (Except String (List NamespaceRow) × Session) :=
  match mapNamespace env serverName rootNamespaceId schemaPrefix limitPerListCall s.catalog with
  | .error e => .ok (.error e, s)
  | .ok (_, mapping) => do
    let (rows, s) ← attachEntries ⟨env, serverName, batchSize, dryRun⟩ mapping.entries s
    return (.ok ((mapping.conflicts.map fun tableId =>
      rowError tableId schemaPrefix mappingConflict) ++ rows), s)

end PgLance
