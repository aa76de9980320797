import PgLance.Fdw.Convert

/-! The callbacks of a foreign scan. -/

namespace PgLance

inductive SqlErrorCode
  | fdwUnableToCreateExecution | fdwColumnNameNotFound | fdwInvalidDataTypeDescriptors
  | fdwInvalidDataType | fdwError | fdwInconsistentDescriptorInformation | internalError
  deriving DecidableEq, Repr

/-- What `ereport!` is given.  A panic is reported as an internal error. -/
structure Report where
  code : SqlErrorCode
  message : String
  detail : String
  deriving DecidableEq, Repr

structure ScanEnv where
  convert : ConvertEnv
  formatTypeBe : Oid → Option String
  displayDataType : DataType → String
  datasetLabel : String

def pgTypeName (formatTypeBe : Oid → Option String) (oid : Oid) : String :=
  (formatTypeBe oid).getD ("oid " ++ toString oid.number)

abbrev BatchStream := List (Except String RecordBatch)

abbrev Tuple := List (Option Datum)

structure LanceScanState where
  stream : BatchStream
  currentBatch : Option RecordBatch
  currentRow : Nat
  atttypids : List Oid
  attnames : List (Option String)
  attToBatchCol : List (Option Nat)

section

variable (env : ScanEnv)

def createStream (stream : Except String BatchStream) : Except Report BatchStream :=
  stream.mapError fun e => ⟨.fdwUnableToCreateExecution, "failed to create scanner stream",
    env.datasetLabel ++ " error=" ++ e⟩

def convertReport (internalMessage column : String) (arrowType : DataType) (oid : Oid)
    (e : ConvertError) : Report :=
  let (code, message) :=
    match e.kind with
    | .typeMismatch => (SqlErrorCode.fdwInvalidDataTypeDescriptors,
        "column type mismatch between foreign table and dataset schema")
    | .unsupportedType | .valueOutOfRange =>
      (SqlErrorCode.fdwInvalidDataType, "unsupported column type for lance_fdw")
    | .internal => (SqlErrorCode.fdwError, internalMessage)
  ⟨code, message, env.datasetLabel ++ " column=" ++ column ++ " arrow_type=" ++
    env.displayDataType arrowType ++ " pg_type=" ++ pgTypeName env.formatTypeBe oid ++ " error=" ++
    e.message⟩

def attname (attr : Attribute) : Option String :=
  if attr.attisdropped then none else some attr.attname

def nameToIdx (datasetFields : Schema) : Std.TreeMap String Nat :=
  datasetFields.zipIdx.foldl (fun names (f, idx) => names.insert f.name idx) ∅

def attributeToBatchCol (datasetFields : Schema) (attr : Attribute) :
    Except Report (Option Nat) :=
  match attname attr with
  | none => .ok none
  | some name =>
    match (nameToIdx datasetFields)[name]? with
    | none =>
      .error ⟨.fdwColumnNameNotFound, "column not found in lance dataset schema",
        env.datasetLabel ++ " column=" ++ name ++ " dataset_columns=" ++
          ",".intercalate (datasetFields.map FieldOf.name)⟩
    | some idx =>
      match datasetFields[idx]? with
      | none => .error ⟨.internalError, "index out of bounds", ""⟩
      | some field =>
        match validateArrowTypeForPgOid env.convert.catalog field.dataType attr.atttypid with
        | .error e =>
          .error (convertReport env "internal lance_fdw schema validation error" name
            field.dataType attr.atttypid e)
        | .ok () => .ok (some idx)

/-- The scan state that is left in the node, which has none under `EXPLAIN`. -/
def beginForeignScan (datasetFields : Schema) (tupdesc : List Attribute) (explainOnly : Bool)
    (stream : Except String BatchStream) : Except Report (Option LanceScanState) :=
  if explainOnly then .ok none
  else do
    let stream ← createStream env stream
    let attToBatchCol ← tupdesc.mapM (attributeToBatchCol env datasetFields)
    return some
      ⟨stream, none, 0, tupdesc.map Attribute.atttypid, tupdesc.map attname, attToBatchCol⟩

def formAttribute (state : LanceScanState) (batch : RecordBatch) (row : Nat) (attr : Attribute)
    (i : Nat) : Except Report (Option Datum) :=
  if attr.attisdropped then .ok none
  else
    match state.attToBatchCol[i]? with
    | some (some batchIdx) =>
      match batch.columns[batchIdx]?, state.atttypids[i]? with
      | some col, some oid =>
        (arrowValueToDatum env.convert col row oid).mapError
          (convertReport env "internal lance_fdw conversion error"
            ((state.attnames[i]?.join).getD "<unknown>") col.dataType oid)
      | _, _ => .error ⟨.internalError, "index out of bounds", ""⟩
    | _ =>
      .error ⟨.fdwInconsistentDescriptorInformation, "missing batch column mapping for attribute",
        "attribute_number=" ++ toString (i + 1)⟩

def formTuple (tupdesc : List Attribute) (state : LanceScanState) (batch : RecordBatch)
    (row : Nat) : Except Report Tuple :=
  tupdesc.zipIdx.mapM fun (attr, i) => formAttribute env state batch row attr i

def emitRow (tupdesc : List Attribute) (batch : RecordBatch) (state : LanceScanState) :
    Except Report (Option Tuple) × LanceScanState :=
  let row := state.currentRow
  let state := { state with currentRow := state.currentRow + 1 }
  ((formTuple env tupdesc state batch row).map .some, state)

/-- The loop from a turn on that needs a batch.  A turn that continues leaves no current
batch, so the next one needs a batch as well. -/
def scanLoop (tupdesc : List Attribute) :
    BatchStream → LanceScanState → Except Report (Option Tuple) × LanceScanState
  | [], state => (.ok none, { state with stream := [] })
  | .error e :: stream, state =>
    (.error ⟨.fdwError, "failed to read next record batch", env.datasetLabel ++ " error=" ++ e⟩,
      { state with stream })
  | .ok batch :: stream, state =>
    let state := { state with stream, currentBatch := some batch, currentRow := 0 }
    if state.currentRow ≥ batch.numRows then
      scanLoop tupdesc stream { state with currentBatch := none }
    else emitRow env tupdesc batch state

def iterateForeignScan (tupdesc : List Attribute) :
    Option LanceScanState → Except Report (Option Tuple) × Option LanceScanState
  | none => (.ok none, none)
  | some state =>
    match state.currentBatch with
    | none => (scanLoop env tupdesc state.stream state).map id some
    | some batch =>
      if state.currentRow ≥ batch.numRows then (scanLoop env tupdesc state.stream state).map id some
      else (emitRow env tupdesc batch state).map id some

def rescanForeignScan (stream : Except String BatchStream) :
    Option LanceScanState → Except Report Unit × Option LanceScanState
  | none => (.ok (), none)
  | some state =>
    match createStream env stream with
    | .error e => (.error e, some state)
    | .ok stream => (.ok (), some { state with stream, currentBatch := none, currentRow := 0 })

end

end PgLance
