import PgLance.Write.Storage
import PgLance.Fdw.Scan

/-! The least and the greatest value of a column, read in one scan. -/

namespace PgLance

def orFail {α : Type} (r : Except String α) : Except Failure α := r.mapError .returned

inductive Extremum
  | min | max
  deriving DecidableEq, Repr

inductive ExtremumState
  | int8 (value : Option Int) | int16 (value : Option Int) | int32 (value : Option Int)
  | int64 (value : Option Int)
  | uint8 (value : Option Int) | uint16 (value : Option Int) | uint32 (value : Option Int)
  | uint64 (value : Option Int)
  | float32 (value : Option Float32) | float64 (value : Option Float)
  | date32 (value : Option Int) | date64 (value : Option Int)
  | timestampSecond (value : Option Int) (hasTz : Bool)
  | timestampMillisecond (value : Option Int) (hasTz : Bool)
  | timestampMicrosecond (value : Option Int) (hasTz : Bool)
  | timestampNanosecond (value : Option Int) (hasTz : Bool)
  | decimal128 (value : Option Int) (scale : Int)

structure AggregateEnv where
  DateTime : Type
  naiveDateFromEpochDays : Int → Option CalendarDate
  fromTimestampMillis : Int → Option DateTime
  fromTimestampMicros : Int → Option DateTime
  dateNaive : DateTime → CalendarDate
  formatDate : CalendarDate → String
  formatNaiveUtc : DateTime → String
  toRfc3339Micros : DateTime → String
  displayF32 : Float32 → String
  displayF64 : Float → String
  displayDataType : DataType → String

def shouldReplace {α : Type} [LT α] [DecidableLT α] (current : Option α) (candidate : α)
    (op : Extremum) : Bool :=
  match current with
  | none => true
  | some current =>
    match op with
    | .min => candidate < current
    | .max => candidate > current

def updateOrd {α : Type} [LT α] [DecidableLT α] (current : Option α) (array : List (Option α))
    (op : Extremum) : Option α :=
  array.foldl (fun current cell =>
    match cell with
    | none => current
    | some value => if shouldReplace current value op then some value else current) current

def updateFloat {α : Type} [LT α] [DecidableLT α] (isNan : α → Bool) (current : Option α)
    (array : List (Option α)) (op : Extremum) : Option α :=
  array.foldl (fun current cell =>
    match cell with
    | none => current
    | some value =>
      if isNan value then current
      else if shouldReplace current value op then some value else current) current

def Scalar.toInt? : Scalar → Option Int
  | .int i => some i
  | _ => none

def Scalar.toF32? : Scalar → Option Float32
  | .float bits => some (Float32.ofBits bits.toUInt32)
  | _ => none

def Scalar.toF64? : Scalar → Option Float
  | .float bits => some (Float.ofBits bits.toUInt64)
  | _ => none

def LeafType.isTimestamp (unit : TimeUnit) : LeafType → Bool
  | .timestamp u _ => u == unit
  | _ => false

def LeafType.isDecimal128 : LeafType → Bool
  | .decimal128 _ _ => true
  | _ => false

def typedArray {α : Type} (is : LeafType → Bool) (cell : Scalar → Option α) (label : String) :
    ArrowArray → Except String (List (Option α))
  | .primitive type cells =>
    if is type then
      match cells.mapM fun c => c.elim (some none) fun s => (cell s).map some with
      | some values => .ok values
      | none => .error ("invalid " ++ label ++ " array")
    else .error ("invalid " ++ label ++ " array")
  | _ => .error ("invalid " ++ label ++ " array")

namespace ExtremumState

def new (displayDataType : DataType → String) : DataType → Except String ExtremumState
  | .leaf .int8 => .ok (.int8 none)
  | .leaf .int16 => .ok (.int16 none)
  | .leaf .int32 => .ok (.int32 none)
  | .leaf .int64 => .ok (.int64 none)
  | .leaf .uint8 => .ok (.uint8 none)
  | .leaf .uint16 => .ok (.uint16 none)
  | .leaf .uint32 => .ok (.uint32 none)
  | .leaf .uint64 => .ok (.uint64 none)
  | .leaf .float32 => .ok (.float32 none)
  | .leaf .float64 => .ok (.float64 none)
  | .leaf .date32 => .ok (.date32 none)
  | .leaf .date64 => .ok (.date64 none)
  | .leaf (.timestamp .second tz) => .ok (.timestampSecond none tz.isSome)
  | .leaf (.timestamp .millisecond tz) => .ok (.timestampMillisecond none tz.isSome)
  | .leaf (.timestamp .microsecond tz) => .ok (.timestampMicrosecond none tz.isSome)
  | .leaf (.timestamp .nanosecond tz) => .ok (.timestampNanosecond none tz.isSome)
  | .leaf (.decimal128 _ scale) => .ok (.decimal128 none scale)
  | other => .error ("lance_min/lance_max do not support column type " ++ displayDataType other ++
      "; supported types are integer, float, date, timestamp, and decimal128")

def intArray (type : LeafType) (label : String) (array : ArrowArray) :
    Except String (List (Option Int)) :=
  typedArray (· == type) Scalar.toInt? label array

def timestampArray (unit : TimeUnit) (label : String) (array : ArrowArray) :
    Except String (List (Option Int)) :=
  typedArray (LeafType.isTimestamp unit) Scalar.toInt? label array

def update (state : ExtremumState) (array : ArrowArray) (op : Extremum) :
    Except String ExtremumState :=
  match state with
  | .int8 current => return .int8 (updateOrd current (← intArray .int8 "int8" array) op)
  | .int16 current => return .int16 (updateOrd current (← intArray .int16 "int16" array) op)
  | .int32 current => return .int32 (updateOrd current (← intArray .int32 "int32" array) op)
  | .int64 current => return .int64 (updateOrd current (← intArray .int64 "int64" array) op)
  | .uint8 current => return .uint8 (updateOrd current (← intArray .uint8 "uint8" array) op)
  | .uint16 current => return .uint16 (updateOrd current (← intArray .uint16 "uint16" array) op)
  | .uint32 current => return .uint32 (updateOrd current (← intArray .uint32 "uint32" array) op)
  | .uint64 current => return .uint64 (updateOrd current (← intArray .uint64 "uint64" array) op)
  | .float32 current =>
    return .float32 (updateFloat Float32.isNaN current
      (← typedArray (· == .float32) Scalar.toF32? "float32" array) op)
  | .float64 current =>
    return .float64 (updateFloat Float.isNaN current
      (← typedArray (· == .float64) Scalar.toF64? "float64" array) op)
  | .date32 current => return .date32 (updateOrd current (← intArray .date32 "date32" array) op)
  | .date64 current => return .date64 (updateOrd current (← intArray .date64 "date64" array) op)
  | .timestampSecond current hasTz =>
    return .timestampSecond
      (updateOrd current (← timestampArray .second "timestamp second" array) op) hasTz
  | .timestampMillisecond current hasTz =>
    return .timestampMillisecond
      (updateOrd current (← timestampArray .millisecond "timestamp millisecond" array) op) hasTz
  | .timestampMicrosecond current hasTz =>
    return .timestampMicrosecond
      (updateOrd current (← timestampArray .microsecond "timestamp microsecond" array) op) hasTz
  | .timestampNanosecond current hasTz =>
    return .timestampNanosecond
      (updateOrd current (← timestampArray .nanosecond "timestamp nanosecond" array) op) hasTz
  | .decimal128 current scale =>
    return .decimal128
      (updateOrd current (← typedArray LeafType.isDecimal128 Scalar.toInt? "decimal128" array) op)
      scale

end ExtremumState

section

variable (env : AggregateEnv)

def formatDate32 (days : Int) : Except String String :=
  match env.naiveDateFromEpochDays days with
  | some date => .ok (env.formatDate date)
  | none => .error "date32 value out of range"

def formatDate64 (millis : Int) : Except String String :=
  match env.fromTimestampMillis millis with
  | some timestamp => .ok (env.formatDate (env.dateNaive timestamp))
  | none => .error "date64 value out of range"

def formatTimestampMicros (micros : Int) (hasTz : Bool) : Except String String :=
  match env.fromTimestampMicros micros with
  | some timestamp =>
    .ok (if hasTz then env.toRfc3339Micros timestamp else env.formatNaiveUtc timestamp)
  | none => .error "timestamp value out of range"

/-- Negation of an `i8`, which is itself at the lower end of the range. -/
def i8Neg (i : Int) : Int := (-i).bmod (2 ^ 8)

def asUsize (i : Int) : Nat := (i % 2 ^ 64).toNat

/-- `str::repeat` of one byte, which panics beyond the capacity of a string. -/
def repeatZero (n : Nat) : Except Failure (List Char) :=
  if (n : Int) ≤ i64Max then .ok (List.replicate n '0') else .error (.panicked "capacity overflow")

def padDigits (digits : List Char) (scale : Nat) : Except Failure (List Char) :=
  if digits.length ≤ scale then
    (repeatZero (scale + 1 - digits.length)).map fun zeros => zeros ++ digits
  else .ok digits

def formatDecimal128 (value scale : Int) : Except Failure String :=
  if scale ≤ 0 then do
    let zeros ← repeatZero (asUsize (i8Neg scale))
    return toString value ++ String.ofList zeros
  else do
    let scale := asUsize scale
    let negative := value < 0
    let digits ← padDigits (Nat.toDigits 10 value.natAbs) scale
    let point := digits.length - scale
    let digits := digits.take point ++ '.' :: digits.drop point
    return String.ofList (if negative then '-' :: digits else digits)

def ExtremumState.finish : ExtremumState → Except Failure (Option String)
  | .int8 value | .int16 value | .int32 value | .int64 value
  | .uint8 value | .uint16 value | .uint32 value | .uint64 value => .ok (value.map toString)
  | .float32 value => .ok (value.map env.displayF32)
  | .float64 value => .ok (value.map env.displayF64)
  | .date32 value => value.mapM fun v => orFail (formatDate32 env v)
  | .date64 value => value.mapM fun v => orFail (formatDate64 env v)
  | .timestampSecond value hasTz =>
    value.mapM fun v => orFail (formatTimestampMicros env (i64SaturatingMul v 1000000) hasTz)
  | .timestampMillisecond value hasTz =>
    value.mapM fun v => orFail (formatTimestampMicros env (i64SaturatingMul v 1000) hasTz)
  | .timestampMicrosecond value hasTz =>
    value.mapM fun v => orFail (formatTimestampMicros env v hasTz)
  | .timestampNanosecond value hasTz =>
    value.mapM fun v => orFail (formatTimestampMicros env (v.tdiv 1000) hasTz)
  | .decimal128 value scale => value.mapM fun v => formatDecimal128 v scale

structure ScannedDataset where
  fields : Schema
  project : String → Except String Unit
  tryIntoStream : String → Except String BatchStream

def readBatches (op : Extremum) (state : ExtremumState) : BatchStream → Except Failure ExtremumState
  | [] => .ok state
  | .error e :: _ => .error (.returned ("failed to read Lance batch: " ++ e))
  | .ok batch :: stream =>
    match batch.columns with
    | [] => .error (.panicked "index out of bounds")
    | column :: _ => do
      let state ← orFail (state.update column op)
      readBatches op state stream

def lanceExtremumImpl (host : Host) (dataset : Except String ScannedDataset) (columnName : String)
    (op : Extremum) : Except Failure (Option String × String × Int) := do
  orFail (host.runtimeNew.mapError ("failed to create tokio runtime: " ++ ·))
  let dataset ← orFail dataset
  match dataset.fields.find? (·.name == columnName) with
  | none => .error (.returned ("column '" ++ columnName ++ "' not found in Lance dataset"))
  | some field => do
    orFail ((dataset.project columnName).mapError
      ("failed to project column '" ++ columnName ++ "': " ++ ·))
    let stream ← orFail ((dataset.tryIntoStream columnName).mapError
      ("failed to open Lance scan stream: " ++ ·))
    let state ← orFail (ExtremumState.new env.displayDataType field.dataType)
    let state ← readBatches op state stream
    return (← state.finish env, env.displayDataType field.dataType, host.elapsedMs)

def lanceMinImpl (host : Host) (dataset : Except String ScannedDataset) (columnName : String) :
    Except Failure (Option String × String × Int) :=
  lanceExtremumImpl env host dataset columnName .min

def lanceMaxImpl (host : Host) (dataset : Except String ScannedDataset) (columnName : String) :
    Except Failure (Option String × String × Int) :=
  lanceExtremumImpl env host dataset columnName .max

end

end PgLance
