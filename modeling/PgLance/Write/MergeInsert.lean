import PgLance.Write.Append

/-! `lance_merge_insert`: every chunk is merged into the dataset that the merge of the chunk
before it returned. -/

namespace PgLance

variable {Raw : Type}

/-- `dataset` is the handle that the handler threads through its calls, `store` is what
stands at the URI. -/
structure MergeState where
  dataset : Option Dataset
  store : Option Dataset
  chunkTxns : Nat
  merges : Nat
  deriving DecidableEq

def checkOnColumns (place : String) (names : List String) : List String → Except String Unit
  | [] => .ok ()
  | col :: onColumns =>
    if names.contains col then checkOnColumns place names onColumns
    else .error ("on_column '" ++ col ++ "' not found in " ++ place ++ " (columns: " ++
      ", ".intercalate names ++ ")")

def openMergeTarget (host : Host) (lance : Lance) (uri : String) (onColumns : List String)
    (serverName : Option String) (schema : Schema) (store : Option Dataset) :
    Except String Dataset := do
  let ds ← openDataset host lance uri serverName store
  checkOnColumns "source query result" (schema.map FieldOf.name) onColumns
  checkOnColumns "Lance schema" ds.fieldNames onColumns
  return ds

def parseWhenMatched (whenMatched : String) : Except String WhenMatched :=
  match whenMatched with
  | "update" => .ok .updateAll
  | "nothing" => .ok .doNothing
  | _ =>
    .error ("invalid when_matched value '" ++ whenMatched ++ "': must be 'update' or 'nothing'")

def parseWhenNotMatched (whenNotMatched : String) : Except String WhenNotMatched :=
  match whenNotMatched with
  | "insert" => .ok .insertAll
  | "nothing" => .ok .doNothing
  | _ => .error ("invalid when_not_matched value '" ++ whenNotMatched ++
      "': must be 'insert' or 'nothing'")

def mergeBuilder (lance : Lance) (current : Dataset) (onColumns : List String)
    (mergeUseIndex : Bool) (whenMatched whenNotMatched : String) :
    Except String MergeInsertBuilder := do
  (lance.mergeTryNew current onColumns).mapError ("MergeInsertBuilder::try_new failed: " ++ ·)
  let builder := MergeInsertBuilder.new current onColumns
  let builder := if !mergeUseIndex then { builder with useIndex := false } else builder
  let matched ← parseWhenMatched whenMatched
  let builder := { builder with whenMatched := matched }
  let notMatched ← parseWhenNotMatched whenNotMatched
  let builder := { builder with whenNotMatched := notMatched }
  (lance.mergeTryBuild builder).mapError ("merge_insert try_build failed: " ++ ·)
  return builder

def mergeInto (lance : Lance) (onColumns : List String) (whenMatched whenNotMatched : String)
    (mergeUseIndex : Bool) (current : Dataset) : Handler MergeState := fun schema batches st =>
  match mergeBuilder lance current onColumns mergeUseIndex whenMatched whenNotMatched with
  | .error e => (.error (.returned e), st)
  | .ok builder =>
    match lance.mergeExecuteNth st.merges builder st.store schema batches with
    | (.error e, store) =>
      (.error (.returned ("lance merge_insert failed: " ++ e)),
        { st with store, merges := st.merges + 1 })
    | (.ok newDataset, store) =>
      (.ok (), ⟨some newDataset, store, st.chunkTxns + 1, st.merges + 1⟩)

def mergeChunk (host : Host) (lance : Lance) (uri : String) (onColumns : List String)
    (whenMatched whenNotMatched : String) (serverName : Option String) (mergeUseIndex : Bool) :
    Handler MergeState := fun schema batches st =>
  if batches.isEmpty then (.ok (), st)
  else
    let dataset : Except String (Option Dataset) :=
      match st.dataset with
      | none =>
        (openMergeTarget host lance uri onColumns serverName schema st.store).map .some
      | some ds => .ok (some ds)
    match dataset with
    | .error e => (.error (.returned e), st)
    | .ok none => (.error (.panicked "dataset initialized on first chunk"), st)
    | .ok (some current) =>
      mergeInto lance onColumns whenMatched whenNotMatched mergeUseIndex current schema batches
        { st with dataset := none }

structure MergeReport where
  rowsMerged : Int
  rowsInserted : Int
  rowsUpdated : Int
  durationMs : Int
  chunkTxns : Int
  chunkRows : Int
  deriving DecidableEq, Repr

/-- Lance does not report inserts and updates apart: the counts are 0 when there was no
source row, and otherwise unknown. -/
def mergeReport (totalRows : Nat) (durationMs : Int) (chunkTxns chunkRows : Nat) : MergeReport :=
  let (rowsInserted, rowsUpdated) := if totalRows = 0 then (0, 0) else (-1, -1)
  ⟨asI64 totalRows, rowsInserted, rowsUpdated, durationMs, asI64 chunkTxns, asI64 chunkRows⟩

@[simp] theorem rowsMerged_mergeReport (totalRows : Nat) (durationMs : Int)
    (chunkTxns chunkRows : Nat) :
    (mergeReport totalRows durationMs chunkTxns chunkRows).rowsMerged = asI64 totalRows := by
  simp only [mergeReport]

@[simp] theorem chunkTxns_mergeReport (totalRows : Nat) (durationMs : Int)
    (chunkTxns chunkRows : Nat) :
    (mergeReport totalRows durationMs chunkTxns chunkRows).chunkTxns = asI64 chunkTxns := by
  simp only [mergeReport]

def forEachMergeChunk (env : Env Raw) (source : ResultSet Raw) (batchSize chunkRows : Nat)
    (typeOverrides : Option ArrowTypeOverrides) (handleChunk : Handler MergeState)
    (st : MergeState) : Except Failure Nat × MergeState :=
  match typeOverrides with
  | some typeOverrides =>
    forEachSpiChunkWithTypeOverrides env source batchSize chunkRows (some typeOverrides)
      handleChunk st
  | none => forEachSpiChunk env source batchSize chunkRows handleChunk st

def lanceMergeInsertImplInner (env : Env Raw) (host : Host) (lance : Lance) (uri : String)
    (source : ResultSet Raw) (onColumns : List String) (whenMatched whenNotMatched : String)
    (batchSize : Nat) (serverName : Option String) (typeOverrides : Option ArrowTypeOverrides)
    (store : Option Dataset) : Except Failure MergeReport × Option Dataset :=
  if onColumns.isEmpty then (.error (.returned "on_columns must not be empty"), store)
  else
    match host.runtimeNew with
    | .error e => (.error (.returned ("failed to create tokio runtime: " ++ e)), store)
    | .ok () =>
      let chunkRows := env.settings.writeChunkRows
      let handleChunk := mergeChunk host lance uri onColumns whenMatched whenNotMatched serverName
        env.settings.mergeUseIndex
      let (totalRows, st) := forEachMergeChunk env source batchSize chunkRows typeOverrides
        handleChunk ⟨none, store, 0, 0⟩
      (totalRows.map fun totalRows => mergeReport totalRows host.elapsedMs st.chunkTxns chunkRows,
        st.store)

def lanceMergeInsertImpl (env : Env Raw) (host : Host) (lance : Lance) (uri : String)
    (source : ResultSet Raw) (onColumns : List String) (whenMatched whenNotMatched : String)
    (batchSize : Nat) (serverName : Option String) (store : Option Dataset) :
    Except Failure MergeReport × Option Dataset :=
  lanceMergeInsertImplInner env host lance uri source onColumns whenMatched whenNotMatched
    batchSize serverName none store

def lanceMergeInsertWithSchemaImpl (env : Env Raw) (host : Host) (lance : Lance) (uri : String)
    (source : ResultSet Raw) (onColumns : List String) (whenMatched whenNotMatched : String)
    (batchSize : Nat) (serverName : Option String) (typeOverrides : ArrowTypeOverrides)
    (store : Option Dataset) : Except Failure MergeReport × Option Dataset :=
  lanceMergeInsertImplInner env host lance uri source onColumns whenMatched whenNotMatched
    batchSize serverName (some typeOverrides) store

/-- The row that the SQL function returns, where a negative count is shown as NULL. -/
structure MergeRow where
  rowsMerged : Int
  rowsInserted : Option Int
  rowsUpdated : Option Int
  durationMs : Int
  chunkTxns : Int
  chunkRows : Int
  deriving DecidableEq, Repr

def MergeReport.row (report : MergeReport) : MergeRow :=
  let inserted := if report.rowsInserted < 0 then none else some report.rowsInserted
  let updated := if report.rowsUpdated < 0 then none else some report.rowsUpdated
  ⟨report.rowsMerged, inserted, updated, report.durationMs, report.chunkTxns, report.chunkRows⟩

@[simp] theorem MergeReport.rowsMerged_row (report : MergeReport) :
    report.row.rowsMerged = report.rowsMerged := rfl

@[simp] theorem MergeReport.chunkTxns_row (report : MergeReport) :
    report.row.chunkTxns = report.chunkTxns := rfl

def lanceMergeInsert (env : Env Raw) (host : Host) (lance : Lance) (uri : String)
    (source : ResultSet Raw) (onColumns : List String) (whenMatched whenNotMatched : String)
    (batchSize : Int) (serverName : Option String) (store : Option Dataset) :
    Except Failure MergeRow × Option Dataset :=
  let (result, store) := lanceMergeInsertImpl env host lance uri source onColumns whenMatched
    whenNotMatched (i32AsUsize batchSize) serverName store
  ((result.mapError (raiseError "lance_merge_insert failed: ")).map MergeReport.row, store)

def lanceMergeInsertWithSchema (env : Env Raw) (host : Host) (lance : Lance) (uri : String)
    (source : ResultSet Raw) (onColumns : List String) (columnTypes : Json)
    (whenMatched whenNotMatched : String) (batchSize : Int) (serverName : Option String)
    (store : Option Dataset) : Except Failure MergeRow × Option Dataset :=
  match parseArrowTypeOverrides columnTypes with
  | .error e => (.error (.raised ("invalid column_types: " ++ e)), store)
  | .ok typeOverrides =>
    let (result, store) := lanceMergeInsertWithSchemaImpl env host lance uri source onColumns
      whenMatched whenNotMatched (i32AsUsize batchSize) serverName typeOverrides store
    ((result.mapError (raiseError "lance_merge_insert_with_schema failed: ")).map MergeReport.row,
      store)

end PgLance
