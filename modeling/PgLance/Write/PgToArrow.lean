import PgLance.Arrow
import PgLance.Postgres

/-! Reading a source query through a cursor into Arrow record batches. -/

namespace PgLance

variable {Raw σ : Type}

inductive BuilderVariant
  | boolean | int16 | int32 | int64 | float32 | float64
  | utf8 | binary | date32 | timestampMicro | timestampMicroUtc
  deriving DecidableEq, Repr

def BuilderVariant.dataType : BuilderVariant → DataType
  | .boolean => .leaf .boolean
  | .int16 => .leaf .int16
  | .int32 => .leaf .int32
  | .int64 => .leaf .int64
  | .float32 => .leaf .float32
  | .float64 => .leaf .float64
  | .utf8 => .leaf .utf8
  | .binary => .leaf .binary
  | .date32 => .leaf .date32
  | .timestampMicro => .leaf (.timestamp .microsecond none)
  | .timestampMicroUtc => .leaf (.timestamp .microsecond (some "UTC"))

structure WritableType where
  dataType : DataType
  variant : BuilderVariant
  dataType_eq : variant.dataType = dataType
  deriving DecidableEq

abbrev ArrowTypeOverrides := Std.TreeMap String WritableType

def parseArrowTypeName (typeName : String) : Except String WritableType :=
  match typeName.toLower with
  | "bool" | "boolean" => .ok ⟨.leaf .boolean, .boolean, rfl⟩
  | "int2" | "int16" => .ok ⟨.leaf .int16, .int16, rfl⟩
  | "int4" | "int32" => .ok ⟨.leaf .int32, .int32, rfl⟩
  | "int8" | "int64" => .ok ⟨.leaf .int64, .int64, rfl⟩
  | "float4" | "float32" => .ok ⟨.leaf .float32, .float32, rfl⟩
  | "float8" | "float64" => .ok ⟨.leaf .float64, .float64, rfl⟩
  | "text" | "utf8" | "json_text" | "jsonb_text" => .ok ⟨.leaf .utf8, .utf8, rfl⟩
  | "bytea" | "binary" => .ok ⟨.leaf .binary, .binary, rfl⟩
  | "date32" | "date_days" => .ok ⟨.leaf .date32, .date32, rfl⟩
  | "timestamp" | "timestamp_us" =>
    .ok ⟨.leaf (.timestamp .microsecond none), .timestampMicro, rfl⟩
  | "timestamptz" | "timestamp_us_utc" =>
    .ok ⟨.leaf (.timestamp .microsecond (some "UTC")), .timestampMicroUtc, rfl⟩
  | other =>
    .error ("unsupported Arrow type override '" ++ other ++ "'; expected boolean, " ++
      "int2/int4/int8, float4/float8, text, binary, date32, timestamp_us, or timestamp_us_utc")

def parseArrowTypeOverrides (value : Json) : Except String ArrowTypeOverrides :=
  match value with
  | .object entries =>
    entries.foldlM (fun overrides (column, ty) =>
      match ty with
      | .string typeName => do
        let dataType ← parseArrowTypeName typeName
        return overrides.insert column dataType
      | _ => .error ("column_types['" ++ column ++ "'] must be a string")) ∅
  | _ =>
    .error "column_types must be a JSON object mapping column names to Arrow type names"

/-- `formatTypeBe` is PostgreSQL's `format_type_be`, whose result may be null. -/
def pgOidToArrowType (formatTypeBe : Oid → Option String) (oid : Oid) :
    Except String WritableType :=
  match oid with
  | boolOid => .ok ⟨.leaf .boolean, .boolean, rfl⟩
  | int2Oid => .ok ⟨.leaf .int16, .int16, rfl⟩
  | int4Oid => .ok ⟨.leaf .int32, .int32, rfl⟩
  | int8Oid => .ok ⟨.leaf .int64, .int64, rfl⟩
  | float4Oid => .ok ⟨.leaf .float32, .float32, rfl⟩
  | float8Oid => .ok ⟨.leaf .float64, .float64, rfl⟩
  | numericOid => .ok ⟨.leaf .utf8, .utf8, rfl⟩
  | textOid | varcharOid => .ok ⟨.leaf .utf8, .utf8, rfl⟩
  | uuidOid => .ok ⟨.leaf .utf8, .utf8, rfl⟩
  | byteaOid => .ok ⟨.leaf .binary, .binary, rfl⟩
  | dateOid => .ok ⟨.leaf .date32, .date32, rfl⟩
  | timestampOid => .ok ⟨.leaf (.timestamp .microsecond none), .timestampMicro, rfl⟩
  | timestamptzOid =>
    .ok ⟨.leaf (.timestamp .microsecond (some "UTC")), .timestampMicroUtc, rfl⟩
  | jsonbOid | jsonOid => .ok ⟨.leaf .utf8, .utf8, rfl⟩
  | oid =>
    .error ("unsupported PostgreSQL type for write: " ++
      (formatTypeBe oid).getD ("oid " ++ toString oid.number))

structure SpiColumnInfo where
  name : String
  pgOid : Oid
  arrowType : WritableType
  deriving DecidableEq

def buildArrowSchema (columns : List SpiColumnInfo) : Schema :=
  columns.map fun c => ⟨c.name, c.arrowType.dataType, true⟩

def applyArrowTypeOverrides (columns : List SpiColumnInfo) (overrides : ArrowTypeOverrides) :
    Except String (List SpiColumnInfo) :=
  overrides.toList.foldlM (fun columns (column, arrowType) =>
    match columns.findIdx? (·.name == column) with
    | none =>
      .error ("column_types override references column '" ++ column ++
        "' not present in source query")
    | some i => .ok (columns.modify i fun info => { info with arrowType })) columns

def extractSpiColumns (formatTypeBe : Oid → Option String) (columns : List SpiColumn) :
    Except String (List SpiColumnInfo) :=
  if columns.isEmpty then .error "source_query returned zero columns"
  else columns.mapM fun column => do
    let arrowType ← pgOidToArrowType formatTypeBe column.typeOid
    return ⟨column.name, column.typeOid, arrowType⟩

structure TypedBuilder where
  variant : BuilderVariant
  capacity : Nat
  cells : List (Option Scalar)
  deriving DecidableEq, Repr

namespace TypedBuilder

def new (dt : DataType) (capacity : Nat) : Except String TypedBuilder :=
  match dt with
  | .leaf .boolean => .ok ⟨.boolean, capacity, []⟩
  | .leaf .int16 => .ok ⟨.int16, capacity, []⟩
  | .leaf .int32 => .ok ⟨.int32, capacity, []⟩
  | .leaf .int64 => .ok ⟨.int64, capacity, []⟩
  | .leaf .float32 => .ok ⟨.float32, capacity, []⟩
  | .leaf .float64 => .ok ⟨.float64, capacity, []⟩
  | .leaf .utf8 => .ok ⟨.utf8, capacity, []⟩
  | .leaf .binary => .ok ⟨.binary, capacity, []⟩
  | .leaf .date32 => .ok ⟨.date32, capacity, []⟩
  | .leaf (.timestamp .microsecond none) => .ok ⟨.timestampMicro, capacity, []⟩
  | .leaf (.timestamp .microsecond (some _)) => .ok ⟨.timestampMicroUtc, capacity, []⟩
  | dt => .error ("unsupported Arrow type for builder: " ++ reprStr dt)

def append (builder : TypedBuilder) (cell : Option Scalar) : TypedBuilder :=
  { builder with cells := builder.cells ++ [cell] }

def finish (builder : TypedBuilder) : ArrowArray :=
  match builder.variant with
  | .boolean => .primitive .boolean builder.cells
  | .int16 => .primitive .int16 builder.cells
  | .int32 => .primitive .int32 builder.cells
  | .int64 => .primitive .int64 builder.cells
  | .float32 => .primitive .float32 builder.cells
  | .float64 => .primitive .float64 builder.cells
  | .utf8 => .primitive .utf8 builder.cells
  | .binary => .primitive .binary builder.cells
  | .date32 => .primitive .date32 builder.cells
  | .timestampMicro => .primitive (.timestamp .microsecond none) builder.cells
  | .timestampMicroUtc => .primitive (.timestamp .microsecond (some "UTC")) builder.cells

end TypedBuilder

def unixToPostgresEpochSecs : Int := 946684800

/-- Addition on `i64` as the release profile compiles it. -/
def i64Add (a b : Int) : Int := (a + b).bmod (2 ^ 64)

/-- The arm that every `append_datum` case is made of: a value is appended as `wrap` makes
it, a NULL and a datum that cannot be read are appended as null. -/
def readCell (pgrx : Pgrx Raw) (type : RustType) (wrap : type.Val → Scalar)
    (row : SpiRow Raw) (colIndex : Nat) : Option Scalar :=
  match getDatumByOrdinal row (colIndex + 1) with
  | .ok val =>
    match pgrx.value type val with
    | .ok (some v) => some (wrap v)
    | .ok none => none
    | .error _ => none
  | .error _ => none

def jsonText (pgrx : Pgrx Raw) (json : Json) : String := (pgrx.jsonToString json).toOption.getD ""

def pgMicrosToUnix (pgMicros : Int) : Int := i64Add pgMicros (unixToPostgresEpochSecs * 1000000)

/-- The cell that `append_datum` appends to a builder of the given variant. -/
def datumCell (pgrx : Pgrx Raw) (variant : BuilderVariant) (row : SpiRow Raw)
    (colIndex : Nat) (pgOid : Oid) : Option Scalar :=
  match variant with
  | .boolean => readCell pgrx .bool .bool row colIndex
  | .int16 => readCell pgrx .i16 .int row colIndex
  | .int32 => readCell pgrx .i32 .int row colIndex
  | .int64 => readCell pgrx .i64 .int row colIndex
  | .float32 => readCell pgrx .f32 .float row colIndex
  | .float64 => readCell pgrx .f64 .float row colIndex
  | .utf8 =>
    match pgOid with
    | numericOid => readCell pgrx .anyNumeric .utf8 row colIndex
    | jsonbOid => readCell pgrx .jsonB (fun v => .utf8 (jsonText pgrx v)) row colIndex
    | jsonOid => readCell pgrx .json (fun v => .utf8 (jsonText pgrx v)) row colIndex
    | uuidOid => readCell pgrx .uuid .utf8 row colIndex
    | _ => readCell pgrx .string .utf8 row colIndex
  | .binary => readCell pgrx .vecU8 .binary row colIndex
  | .date32 =>
    match pgOid with
    | int4Oid => readCell pgrx .i32 .int row colIndex
    | _ => readCell pgrx .date (fun date => .int (pgrx.toUnixEpochDays date)) row colIndex
  | .timestampMicro =>
    match pgOid with
    | int8Oid => readCell pgrx .i64 .int row colIndex
    | _ => readCell pgrx .timestamp (fun ts => .int (pgMicrosToUnix ts)) row colIndex
  | .timestampMicroUtc =>
    match pgOid with
    | int8Oid => readCell pgrx .i64 .int row colIndex
    | _ => readCell pgrx .timestampWithTimeZone (fun ts => .int (pgMicrosToUnix ts)) row colIndex

def appendDatum (pgrx : Pgrx Raw) (builder : TypedBuilder) (row : SpiRow Raw)
    (colIndex : Nat) (pgOid : Oid) : Except String TypedBuilder :=
  .ok (builder.append (datumCell pgrx builder.variant row colIndex pgOid))

/-- What the write path takes from its surroundings.  The memory size of a finished array
also depends on the capacity that its builder was given. -/
structure Env (Raw : Type) where
  pgrx : Pgrx Raw
  formatTypeBe : Oid → Option String
  getArrayMemorySize : Nat → ArrowArray → Nat
  settings : Settings

def Env.sample (settings : Settings) : Env Int :=
  ⟨Pgrx.sample, fun _ => none, fun _ _ => 1, settings⟩

def bufferGuardMessage (maxBufferBytes bufferedBytes : Nat) : String :=
  "source chunk exceeds lance.max_write_buffer_mb limit (" ++
    toString (maxBufferBytes / (1024 * 1024)) ++ " MB): buffered ~" ++
    toString (bufferedBytes / (1024 * 1024)) ++ " MB before completing. Aborting to avoid an " ++
    "out-of-memory crash. Lower lance.write_chunk_rows, or raise lance.max_write_buffer_mb " ++
    "(e.g. SET lance.max_write_buffer_mb = ...)."

def newBuilders (cols : List SpiColumnInfo) (capacity : Nat) :
    Except String (List TypedBuilder) :=
  cols.mapM fun c => TypedBuilder.new c.arrowType.dataType capacity

def appendRow (pgrx : Pgrx Raw) (row : SpiRow Raw) :
    Nat → List SpiColumnInfo → List TypedBuilder → Except String (List TypedBuilder)
  | colIdx, col :: cols, builder :: builders => do
    let builder ← appendDatum pgrx builder row colIdx col.pgOid
    let builders ← appendRow pgrx row (colIdx + 1) cols builders
    return builder :: builders
  | _, _, builders => return builders

def finishBatch (env : Env Raw) (schema : Schema) (builders : List TypedBuilder) :
    Except String (RecordBatch × Nat) :=
  match RecordBatch.tryNew schema (builders.map TypedBuilder.finish) with
  | .error e => .error ("failed to create RecordBatch: " ++ e)
  | .ok batch =>
    .ok (batch, (builders.map fun b => env.getArrayMemorySize b.capacity b.finish).sum)

structure ConvertState where
  builders : List TypedBuilder
  rowsInBatch : Nat
  batches : List RecordBatch
  bufferedBytes : Nat
  totalRows : Nat

def convertLoop (env : Env Raw) (cols : List SpiColumnInfo) (schema : Schema)
    (batchSize : Nat) : List (SpiRow Raw) → ConvertState → Except String ConvertState
  | [], st => .ok st
  | row :: rows, st => do
    let builders ← appendRow env.pgrx row 0 cols st.builders
    let rowsInBatch := st.rowsInBatch + 1
    let totalRows := st.totalRows + 1
    if rowsInBatch ≥ batchSize then
      let (batch, bytes) ← finishBatch env schema builders
      let bufferedBytes := st.bufferedBytes + bytes
      let maxBufferBytes := env.settings.maxWriteBufferBytes
      if maxBufferBytes > 0 ∧ bufferedBytes > maxBufferBytes then
        .error (bufferGuardMessage maxBufferBytes bufferedBytes)
      else
        let builders ← newBuilders cols batchSize
        convertLoop env cols schema batchSize rows
          ⟨builders, 0, st.batches ++ [batch], bufferedBytes, totalRows⟩
    else
      convertLoop env cols schema batchSize rows
        ⟨builders, rowsInBatch, st.batches, st.bufferedBytes, totalRows⟩

def convertTail (env : Env Raw) (schema : Schema) (st : ConvertState) :
    Except String (List RecordBatch × Nat) :=
  if st.rowsInBatch > 0 then do
    let (batch, bytes) ← finishBatch env schema st.builders
    let bufferedBytes := st.bufferedBytes + bytes
    let maxBufferBytes := env.settings.maxWriteBufferBytes
    if maxBufferBytes > 0 ∧ bufferedBytes > maxBufferBytes then
      .error (bufferGuardMessage maxBufferBytes bufferedBytes)
    else
      .ok (st.batches ++ [batch], st.totalRows)
  else
    .ok (st.batches, st.totalRows)

def convertSpiRows (env : Env Raw) (tuptable : List (SpiRow Raw)) (cols : List SpiColumnInfo)
    (schema : Schema) (batchSize : Nat) : Except String (List RecordBatch × Nat) := do
  let builderCapacity := max (min batchSize tuptable.length) 1
  let builders ← newBuilders cols builderCapacity
  let st ← convertLoop env cols schema batchSize tuptable ⟨builders, 0, [], 0, 0⟩
  convertTail env schema st

abbrev Handler (σ : Type) := Schema → List RecordBatch → σ → Except Failure Unit × σ

structure ChunkLoopState (σ : Type) where
  totalRows : Nat
  schemaCols : Option (Schema × List SpiColumnInfo)
  handler : σ

def deriveColumns (env : Env Raw) (columns : List SpiColumn)
    (typeOverrides : Option ArrowTypeOverrides) : Except String (List SpiColumnInfo) := do
  let cols ← extractSpiColumns env.formatTypeBe columns
  match typeOverrides with
  | some overrides => applyArrowTypeOverrides cols overrides
  | none => return cols

/-- Returned errors leave the SPI connection with a prefix, raised ones as they are. -/
def spiConnect : Failure → Failure
  | .returned message => .returned ("SPI connect failed: " ++ message)
  | failure => failure

def processChunk (env : Env Raw) (columns : List SpiColumn) (batchSize : Nat)
    (typeOverrides : Option ArrowTypeOverrides) (handle : Handler σ)
    (tuptable : List (SpiRow Raw)) (st : ChunkLoopState σ) :
    Except Failure Unit × ChunkLoopState σ :=
  let schemaCols : Except String (Schema × List SpiColumnInfo) :=
    match st.schemaCols with
    | some schemaCols => .ok schemaCols
    | none => do
      let cols ← deriveColumns env columns typeOverrides
      return (buildArrowSchema cols, cols)
  match schemaCols with
  | .error e => (.error (.returned e), st)
  | .ok (schema, cols) =>
    match convertSpiRows env tuptable cols schema batchSize with
    | .error e => (.error (.returned e), { st with schemaCols := some (schema, cols) })
    | .ok (batches, rows) =>
      let (result, handler) := handle schema batches st.handler
      (result, ⟨st.totalRows + rows, some (schema, cols), handler⟩)

def fetchCountOf (chunkRows : Nat) : Nat :=
  if chunkRows = 0 then cLongMax else min chunkRows cLongMax

theorem fetchCountOf_pos (chunkRows : Nat) : 0 < fetchCountOf chunkRows := by
  unfold fetchCountOf cLongMax
  split <;> omega

def chunkLoop (env : Env Raw) (columns : List SpiColumn) (batchSize chunkRows : Nat)
    (typeOverrides : Option ArrowTypeOverrides) (handle : Handler σ)
    (cursor : Cursor Raw) (st : ChunkLoopState σ) : Except Failure Unit × ChunkLoopState σ :=
  match _ : cursor.fetch (fetchCountOf chunkRows) with
  | .error (.spi e) => (.error (.returned ("SPI cursor fetch failed: " ++ e)), st)
  | .error (.raised e) => (.error (.raised e), st)
  | .ok tuptable =>
    if _ : tuptable = [] then (.ok (), st)
    else
      match processChunk env columns batchSize typeOverrides handle tuptable st with
      | (.error e, st) => (.error e, st)
      | (.ok (), st) =>
        chunkLoop env columns batchSize chunkRows typeOverrides handle
          (cursor.advance (fetchCountOf chunkRows)) st
termination_by cursor.rest.length
decreasing_by exact Cursor.length_advance_lt ‹_› ‹_› (fetchCountOf_pos chunkRows)

def forEachSpiChunkWithTypeOverrides (env : Env Raw) (source : ResultSet Raw)
    (batchSize chunkRows : Nat) (typeOverrides : Option ArrowTypeOverrides)
    (handle : Handler σ) (s : σ) : Except Failure Nat × σ :=
  let batchSize := max batchSize 1
  let (result, st) := chunkLoop env source.columns batchSize chunkRows typeOverrides handle
    source.openCursor ⟨0, none, s⟩
  ((result.mapError spiConnect).map fun _ => st.totalRows, st.handler)

def forEachSpiChunk (env : Env Raw) (source : ResultSet Raw) (batchSize chunkRows : Nat)
    (handle : Handler σ) (s : σ) : Except Failure Nat × σ :=
  forEachSpiChunkWithTypeOverrides env source batchSize chunkRows none handle s

end PgLance
