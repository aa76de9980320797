import PgLance.Fdw.Scan
import PgLance.Fdw.Sync
import PgLance.Library.Decimal

/-! The options of a foreign table, the dataset that they name, and the callbacks that read
them. -/

namespace PgLance

def optUri : String := "uri"

inductive LanceDatasetSource
  | uri (uri : String)
  /-- A table of a namespace; a server stands for its OID. -/
  | namespaced (server : String) (tableId : TableId)
  deriving DecidableEq, Repr

structure LanceFdwOptions where
  source : LanceDatasetSource
  batchSize : Nat
  deriving DecidableEq, Repr

def stripPlus : List Char → List Char
  | '+' :: digits => digits
  | digits => digits

/-- `str::parse::<usize>`. -/
def usizeParse (text : String) : Option Nat :=
  let digits := stripPlus text.toList
  if digits.isEmpty || !digits.all Char.isDigit then none
  else
    let n := Decimal.Literal.natValue digits
    if n ≤ usizeMax then some n else none

/-- `defGetString`, which raises an error for an option without a value. -/
def defGetString (option : String × Option String) : Except Failure (String × String) :=
  match option.2 with
  | none => .error (.raised (option.1 ++ " requires a parameter"))
  | some value => .ok (option.1, value)

/-- The batch size of a table, or of its server, or the default one where it is not a number. -/
def batchSizeOf (serverOpts tableOpts : Std.TreeMap String String) : Nat :=
  ((tableOpts[optBatchSize]?.or serverOpts[optBatchSize]?).bind usizeParse).getD 1024

def LanceFdwOptions.fromForeignTable (tableIdFromJson : String → Except String TableId)
    (σ : LocalCatalog) (place : QualName) : Except Failure LanceFdwOptions :=
  match σ.relations[place]?.map Relation.kind with
  | some (.foreignTable server options) =>
    match σ.servers.lookup server with
    | none => .error (.returned "missing ForeignServer")
    | some serverOptions => do
      let serverOpts := parseDefelemList serverOptions
      let tableOpts ← parseDefelemList <$> options.mapM defGetString
      let batchSize := batchSizeOf serverOpts tableOpts
      match tableOpts[optNsTableId]? with
      | some tableIdJson =>
        match tableIdFromJson tableIdJson with
        | .error e => .error (.returned ("invalid option: " ++ optNsTableId ++
            " must be a JSON array of strings, error=" ++ e))
        | .ok tableId =>
          if tableId.isEmpty then
            .error (.returned ("invalid option: " ++ optNsTableId ++ " must not be empty"))
          else return ⟨.namespaced server tableId, batchSize⟩
      | none =>
        match tableOpts[optUri]?.or serverOpts[optUri]? with
        | none => .error (.returned ("missing required option: " ++ optUri))
        | some uri => return ⟨.uri uri, batchSize⟩
  | _ => .error (.returned "missing ForeignTable")

def splitOnce (sep : Char) : List Char → Option (List Char × List Char)
  | [] => none
  | c :: cs => if c = sep then some ([], cs) else (splitOnce sep cs).map fun (k, v) => (c :: k, v)

/-- PostgreSQL gives the options of an object as texts `name=value`. -/
def lanceFdwValidator (options : List String) : Except Failure Unit :=
  options.forM fun opt =>
    match splitOnce '=' opt.toList with
    | none => .error (.raised ("invalid option format: " ++ opt))
    | some (k, _) =>
      if k = "uri".toList ∨ k = "batch_size".toList ∨ "aws_".toList.isPrefixOf k = true ∨
          "s3_".toList.isPrefixOf k = true ∨ "ns.".toList.isPrefixOf k = true then
        .ok ()
      else .error (.raised ("unsupported option: " ++ String.ofList k))

structure ScanDataset where
  fields : Schema
  stream : Nat → Except String BatchStream

structure FdwEnv where
  env : NamespaceEnv
  convert : ConvertEnv
  formatTypeBe : Oid → Option String
  displayDataType : DataType → String
  serverOid : String → Oid
  relationOid : QualName → Oid
  openUri : String → Except String ScanDataset
  /-- A table of the namespace that the options of a server name. -/
  loadTable : List (String × String) → TableId → Except String ScanDataset

inductive BeginError
  | invalidOptionName (message detail : String)
  | tableNotFound (message detail : String)
  | report (report : Report)
  deriving DecidableEq, Repr

namespace FdwEnv

variable (fdw : FdwEnv)

def datasetLabel : LanceDatasetSource → String
  | .uri uri => "uri=" ++ uri
  | .namespaced server tableId =>
    "server_oid=" ++ toString (fdw.serverOid server).number ++ " table_id=" ++
      fdw.env.tableIdToJson tableId

def scanEnv (source : LanceDatasetSource) : ScanEnv :=
  ⟨fdw.convert, fdw.formatTypeBe, fdw.displayDataType, fdw.datasetLabel source⟩

def failureMessage : Failure → String
  | .returned message | .raised message | .panicked message => message

/-- The dataset of a source.  A URI is opened without the options of the server. -/
def openSource (σ : LocalCatalog) : LanceDatasetSource → Except BeginError ScanDataset
  | .uri uri => (fdw.openUri uri).mapError fun e =>
    .tableNotFound "failed to open lance dataset" ("uri=" ++ uri ++ " error=" ++ e)
  | .namespaced server tableId => do
    let invalid (e : String) : BeginError :=
      .invalidOptionName "invalid namespace server options"
        ("server_oid=" ++ toString (fdw.serverOid server).number ++ " error=" ++ e)
    match σ.servers.lookup server with
    | none =>
      .error (invalid ("missing ForeignServer, server_oid=" ++
        toString (fdw.serverOid server).number))
    | some options =>
      (connectNamespace fdw.env options).mapError invalid
      (fdw.loadTable options tableId).mapError fun e =>
        .tableNotFound "failed to open lance dataset via namespace"
          (fdw.datasetLabel (.namespaced server tableId) ++ " error=" ++ e)

/-- `begin_foreign_scan` from the options of the table on. -/
def beginScan (σ : LocalCatalog) (place : QualName) (tupdesc : List Attribute)
    (explainOnly : Bool) : Except BeginError (Option LanceScanState) :=
  if explainOnly then .ok none
  else do
    let opts ← (LanceFdwOptions.fromForeignTable fdw.env.tableIdFromJson σ place).mapError fun e =>
      .invalidOptionName "invalid foreign table options"
        ("relation_oid=" ++ toString (fdw.relationOid place).number ++ " error=" ++
          failureMessage e)
    fdw.env.runtimeNew.mapError fun e =>
      .report ⟨.fdwUnableToCreateExecution, "failed to create tokio runtime", "error=" ++ e⟩
    let dataset ← fdw.openSource σ opts.source
    (beginForeignScan (fdw.scanEnv opts.source) dataset.fields tupdesc false
      (dataset.stream opts.batchSize)).mapError .report

end FdwEnv

inductive ExplainProperty
  | text (label value : String)
  | integer (label : String) (value : Int)
  deriving DecidableEq, Repr

def dropNuls (text : String) : String := String.ofList (text.toList.filter (· ≠ '\x00'))

def formatProjectionList (columns : List Column) : String :=
  let cols := (columns.filter fun column => !column.dropped).map Column.name
  if cols.isEmpty then "[]" else ", ".intercalate cols

/-- What `explain_foreign_scan` adds to the plan of a scan, which is nothing where the options
of the table are not valid. -/
def FdwEnv.explainForeignScan (fdw : FdwEnv) (σ : LocalCatalog) (place : QualName)
    (columns : List Column) : List ExplainProperty :=
  match LanceFdwOptions.fromForeignTable fdw.env.tableIdFromJson σ place with
  | .error _ => []
  | .ok opts =>
    (match opts.source with
      | .uri uri => [.text "Lance URI" (dropNuls uri)]
      | .namespaced server tableId =>
        [.text "Lance Table ID" (dropNuls (fdw.env.tableIdToJson tableId)),
          .integer "Lance Namespace Server OID" (fdw.serverOid server).number]) ++
      [.integer "Batch Size" (i64Wrap opts.batchSize),
        .text "Projection" (formatProjectionList columns)]

theorem FdwEnv.openSource_error {fdw : FdwEnv} {σ : LocalCatalog} {source : LanceDatasetSource}
    {e : BeginError} (h : fdw.openSource σ source = .error e) (detail : String) :
    e ≠ .invalidOptionName "invalid foreign table options" detail := by
  rintro rfl
  cases source with
  | uri uri =>
    rw [openSource] at h
    cases hopen : fdw.openUri uri <;> rw [hopen] at h <;> cases h
  | namespaced server tableId =>
    rw [openSource] at h
    cases hserver : σ.servers.lookup server with
    | none => simp [hserver] at h
    | some options =>
      simp only [hserver, Bind.bind, Except.bind] at h
      cases hconnect : connectNamespace fdw.env options with
      | error e => simp [hconnect, Except.mapError] at h
      | ok _ =>
        cases hload : fdw.loadTable options tableId <;>
          simp [hconnect, hload, Except.mapError] at h

/-- A scan is explained unless its table has options that no scan of it begins with. -/
theorem FdwEnv.explainForeignScan_eq_nil_iff (fdw : FdwEnv) (σ : LocalCatalog) (place : QualName)
    (columns : List Column) (tupdesc : List Attribute) :
    fdw.explainForeignScan σ place columns = [] ↔ ∃ detail, fdw.beginScan σ place tupdesc false =
      .error (.invalidOptionName "invalid foreign table options" detail) := by
  simp only [explainForeignScan, beginScan, Bool.false_eq_true, if_false]
  cases LanceFdwOptions.fromForeignTable fdw.env.tableIdFromJson σ place with
  | error e => simp [Except.mapError, Bind.bind, Except.bind]
  | ok opts =>
    simp only [Except.mapError, Bind.bind, Except.bind]
    constructor
    · intro hnil
      exact absurd hnil (by simp)
    · rintro ⟨detail, hbegin⟩
      cases hruntime : fdw.env.runtimeNew with
      | error e =>
        rw [hruntime] at hbegin
        cases hbegin
      | ok _ =>
        cases hopen : fdw.openSource σ opts.source with
        | error e =>
          simp only [hruntime, hopen] at hbegin
          cases hbegin
          exact absurd rfl (openSource_error hopen detail)
        | ok dataset =>
          simp only [hruntime, hopen] at hbegin
          split at hbegin <;> cases hbegin

end PgLance
