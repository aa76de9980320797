import PgLance.Arrow
import PgLance.Postgres

/-! Checking Arrow types against PostgreSQL types, and converting Arrow values to datums of
them. -/

namespace PgLance

inductive ConvertErrorKind
  | typeMismatch | unsupportedType | valueOutOfRange | internal
  deriving DecidableEq, Repr

structure ConvertError where
  kind : ConvertErrorKind
  message : String
  deriving DecidableEq, Repr

namespace ConvertError

def typeMismatch (message : String) : ConvertError := ⟨.typeMismatch, message⟩
def unsupportedType (message : String) : ConvertError := ⟨.unsupportedType, message⟩
def valueOutOfRange (message : String) : ConvertError := ⟨.valueOutOfRange, message⟩
def internal (message : String) : ConvertError := ⟨.internal, message⟩

end ConvertError

def requireTargetOid (targetTypeOid expectedOid : Oid) (message : String) :
    Except ConvertError Unit :=
  if targetTypeOid ≠ expectedOid then .error (.typeMismatch message) else .ok ()

def validateLeafType (type : LeafType) (oid : Oid) : Except ConvertError Unit :=
  match type with
  | .boolean => requireTargetOid oid boolOid "arrow boolean requires postgres boolean"
  | .int8 | .uint8 | .int16 =>
    requireTargetOid oid int2Oid "arrow int8/uint8/int16 requires postgres int2"
  | .uint16 | .int32 => requireTargetOid oid int4Oid "arrow uint16/int32 requires postgres int4"
  | .uint32 | .int64 | .uint64 =>
    requireTargetOid oid int8Oid "arrow uint32/int64/uint64 requires postgres int8"
  | .float16 | .float32 =>
    requireTargetOid oid float4Oid "arrow float16/float32 requires postgres float4"
  | .float64 => requireTargetOid oid float8Oid "arrow float64 requires postgres float8"
  | .utf8 | .largeUtf8 => requireTargetOid oid textOid "arrow utf8 requires postgres text"
  | .binary | .largeBinary | .fixedSizeBinary _ =>
    requireTargetOid oid byteaOid "arrow binary requires postgres bytea"
  | .date32 | .date64 => requireTargetOid oid dateOid "arrow date requires postgres date"
  | .timestamp _ (some _) =>
    requireTargetOid oid timestamptzOid
      "arrow timestamp with timezone requires postgres timestamptz"
  | .timestamp _ none =>
    requireTargetOid oid timestampOid
      "arrow timestamp without timezone requires postgres timestamp"
  | .decimal128 _ _ | .decimal256 _ _ =>
    requireTargetOid oid numericOid "arrow decimal requires postgres numeric"
  | _ => requireTargetOid oid jsonbOid "unsupported arrow type requires postgres jsonb"

section

variable (catalog : Catalog)

mutual
def validateArrowTypeForPgOid : DataType → Oid → Except ConvertError Unit
  | .leaf type, oid => validateLeafType type oid
  | .dictionary _ value, oid => validateArrowTypeForPgOid value oid
  | .list _ ⟨_, elem, _⟩, oid =>
    if oid = jsonbOid then .ok ()
    else
      let elemOid := catalog.getElementType oid
      if elemOid = invalidOid then
        .error (.typeMismatch "arrow list requires postgres array (or jsonb)")
      else validateArrowTypeForPgOid elem elemOid
  | .struct fields, oid =>
    match catalog.lookupTypeCache oid with
    | none => .error (.typeMismatch "arrow struct requires postgres composite type")
    | some attrs => attrs.forM fun attr =>
        if attr.attisdropped then .ok ()
        else validateStructField fields attr.attname attr.atttypid
  | .map _ _, oid => requireTargetOid oid jsonbOid "arrow map requires postgres jsonb"
termination_by structural dt => dt

/-- The first field of the given name against the type of its attribute. -/
def validateStructField : List Field → String → Oid → Except ConvertError Unit
  | [], name, _ => .error (.typeMismatch ("missing struct field: " ++ name))
  | ⟨fieldName, dt, _⟩ :: fields, name, oid =>
    if fieldName = name then validateArrowTypeForPgOid dt oid
    else validateStructField fields name oid
termination_by structural fields => fields
end

end

/-- Dates are days and timestamps microseconds from 2000-01-01, floats are bits. -/
inductive Datum
  | bool (b : Bool)
  | int2 (i : Int)
  | int4 (i : Int)
  | int8 (i : Int)
  | float4 (bits : Nat)
  | float8 (bits : Nat)
  | text (s : String)
  | bytea (bytes : List UInt8)
  | date (days : Int)
  | timestamp (micros : Int)
  | timestamptz (micros : Int)
  | numeric (text : String)
  | jsonb (json : Json)
  | array (elemOid : Oid) (items : List (Option Datum))
  | composite (oid : Oid) (values : List (Option Datum))
  deriving Repr

structure CalendarDate where
  year : Int
  month : Nat
  day : Nat
  deriving DecidableEq, Repr

structure ConvertEnv where
  catalog : Catalog
  halfToF32 : Nat → Nat
  /-- 1970-01-01 and a number of days, where that is in the range of `NaiveDate`. -/
  naiveDateFromEpochDays : Int → Option CalendarDate
  naiveDateFromTimestampMillis : Int → Option CalendarDate
  dateNew : CalendarDate → Except String Int
  timestampTryFrom : Int → Except String Int
  timestampWithTimeZoneTryFrom : Int → Except String Int
  /-- `value_as_string` of a decimal array with a precision and a scale. -/
  valueAsString : Int → Int → Int → String
  anyNumericTryFrom : String → Except String String
  base64Encode : List UInt8 → String
  debugDataType : DataType → String

def ConvertEnv.sample (catalog : Catalog) : ConvertEnv where
  catalog := catalog
  halfToF32 bits := bits
  naiveDateFromEpochDays _ := none
  naiveDateFromTimestampMillis _ := none
  dateNew _ := .error "date out of range"
  timestampTryFrom := .ok
  timestampWithTimeZoneTryFrom := .ok
  valueAsString _ _ v := toString v
  anyNumericTryFrom := .ok
  base64Encode _ := ""
  debugDataType dt := reprStr dt

def i64Max : Int := 2 ^ 63 - 1

def i64Min : Int := -2 ^ 63

/-- The `as i64` cast, and what `i64` arithmetic returns in the release profile. -/
def i64Wrap (i : Int) : Int := i.bmod (2 ^ 64)

def i64SaturatingMul (a b : Int) : Int := max i64Min (min i64Max (a * b))

namespace Cells

variable (cells : List (Option Scalar)) (row : Nat)

def bool : Except ConvertError Bool :=
  match cells[row]? with
  | some (some (.bool b)) => .ok b
  | _ => .error (.internal "invalid boolean array")

def int (array : String) : Except ConvertError Int :=
  match cells[row]? with
  | some (some (.int i)) => .ok i
  | _ => .error (.internal ("invalid " ++ array ++ " array"))

def float (array : String) : Except ConvertError Nat :=
  match cells[row]? with
  | some (some (.float bits)) => .ok bits
  | _ => .error (.internal ("invalid " ++ array ++ " array"))

def utf8 (array : String) : Except ConvertError String :=
  match cells[row]? with
  | some (some (.utf8 s)) => .ok s
  | _ => .error (.internal ("invalid " ++ array ++ " array"))

def binary (array : String) : Except ConvertError (List UInt8) :=
  match cells[row]? with
  | some (some (.binary bytes)) => .ok bytes
  | _ => .error (.internal ("invalid " ++ array ++ " array"))

end Cells

def jsonNumber (i : Int) : Json := .number (.int i)

/-- `Number::from_f64`, which has no number for infinities and NaN. -/
def jsonFloat (bits : Nat) : Json :=
  if (Float.ofBits bits.toUInt64).isFinite then .number (.float bits) else .null

def f32AsF64 (bits : Nat) : Nat := (Float32.ofBits bits.toUInt32).toFloat.toBits.toNat

/-- `Map::insert`, which keeps the keys in order and replaces the value of one that is there. -/
def jsonInsert (name : String) (value : Json) : List (String × Json) → List (String × Json)
  | [] => [(name, value)]
  | (key, old) :: entries =>
    if name = key then (name, value) :: entries
    else if name < key then (name, value) :: (key, old) :: entries
    else (key, old) :: jsonInsert name value entries

def dictionaryKeyToUsize (key : DataType) (keys : List (Option Int)) (row : Nat) :
    Except ConvertError Nat :=
  let signed (name : String) : Except ConvertError Nat :=
    match keys[row]? with
    | some (some k) => if k < 0 then .error (.internal "negative dictionary key") else .ok k.toNat
    | _ => .error (.internal ("invalid dictionary keys (" ++ name ++ ")"))
  let unsigned (name : String) : Except ConvertError Nat :=
    match keys[row]? with
    | some (some k) => .ok k.toNat
    | _ => .error (.internal ("invalid dictionary keys (" ++ name ++ ")"))
  match key with
  | .leaf .int8 => signed "int8"
  | .leaf .int16 => signed "int16"
  | .leaf .int32 => signed "int32"
  | .leaf .int64 => signed "int64"
  | .leaf .uint8 => unsigned "uint8"
  | .leaf .uint16 => unsigned "uint16"
  | .leaf .uint32 => unsigned "uint32"
  | .leaf .uint64 => unsigned "uint64"
  | _ => .error (.unsupportedType "unsupported dictionary key type")

def listSlot (slots : List Slot) (row : Nat) : Except ConvertError (Nat × Nat) :=
  match slots[row]? with
  | some (some slot) => .ok slot
  | _ => .error (.internal "invalid list array")

section

variable (env : ConvertEnv)

def leafToJson (type : LeafType) (cells : List (Option Scalar)) (row : Nat) :
    Except ConvertError Json :=
  match type with
  | .boolean => return .bool (← Cells.bool cells row)
  | .int8 => return jsonNumber (← Cells.int cells row "int8")
  | .int16 => return jsonNumber (← Cells.int cells row "int16")
  | .int32 => return jsonNumber (← Cells.int cells row "int32")
  | .int64 => return jsonNumber (← Cells.int cells row "int64")
  | .uint8 => return jsonNumber (← Cells.int cells row "uint8")
  | .uint16 => return jsonNumber (← Cells.int cells row "uint16")
  | .uint32 => return jsonNumber (← Cells.int cells row "uint32")
  | .uint64 => return jsonNumber (i64Wrap (← Cells.int cells row "uint64"))
  | .float16 => return jsonFloat (f32AsF64 (env.halfToF32 (← Cells.float cells row "float16")))
  | .float32 => return jsonFloat (f32AsF64 (← Cells.float cells row "float32"))
  | .float64 => return jsonFloat (← Cells.float cells row "float64")
  | .utf8 => return .string (← Cells.utf8 cells row "utf8")
  | .largeUtf8 => return .string (← Cells.utf8 cells row "large utf8")
  | .binary => return .string (env.base64Encode (← Cells.binary cells row "binary"))
  | .largeBinary => return .string (env.base64Encode (← Cells.binary cells row "large binary"))
  | .fixedSizeBinary _ =>
    return .string (env.base64Encode (← Cells.binary cells row "fixed size binary"))
  | .decimal128 precision scale =>
    return .string (env.valueAsString precision scale (← Cells.int cells row "decimal128"))
  | .decimal256 precision scale =>
    return .string (env.valueAsString precision scale (← Cells.int cells row "decimal256"))
  | type => return .string ("<unsupported_type: " ++ env.debugDataType (.leaf type) ++ ">")

mutual
def arrowValueToJson : ArrowArray → Nat → Except ConvertError Json
  | .primitive type cells, row =>
    if (ArrowArray.primitive type cells).isNull row then .ok .null
    else leafToJson env type cells row
  | .list kind elem slots values, row =>
    if (ArrowArray.list kind elem slots values).isNull row then .ok .null
    else do
      let (start, n) ← listSlot slots row
      let out ← (List.range n).mapM fun i => arrowValueToJson values (start + i)
      return .array out
  | .struct fields validity columns, row =>
    if (ArrowArray.struct fields validity columns).isNull row then .ok .null
    else return .object (← structColumnsToJson fields columns row [])
  | .map entries sorted slots values, row =>
    if (ArrowArray.map entries sorted slots values).isNull row then .ok .null
    else .ok (.string ("<unsupported_type: " ++ env.debugDataType (.map entries sorted) ++ ">"))
  | .dictionary key value keys values, row =>
    if (ArrowArray.dictionary key value keys values).isNull row then .ok .null
    else do
      let valueIdx ← dictionaryKeyToUsize key keys row
      if valueIdx ≥ values.len then .error (.internal "dictionary key out of range")
      else arrowValueToJson values valueIdx
termination_by structural array => array

def structColumnsToJson : List Field → List ArrowArray → Nat → List (String × Json) →
    Except ConvertError (List (String × Json))
  | f :: fields, column :: columns, row, entries => do
    let value ← arrowValueToJson column row
    structColumnsToJson fields columns row (jsonInsert f.name value entries)
  | _, _, _, entries => return entries
termination_by structural _ columns => columns
end

def calendarToDate (date : CalendarDate) : Except ConvertError Datum :=
  match env.dateNew date with
  | .ok days => .ok (.date days)
  | .error _ => .error (.internal "invalid date")

def unixToPostgresEpochMicros : Int := 946684800 * 1000000

def timestampToUnixMicros (unit : TimeUnit) (cells : List (Option Scalar)) (row : Nat) :
    Except ConvertError Int :=
  match unit with
  | .second => return i64SaturatingMul (← Cells.int cells row "timestamp(s)") 1000000
  | .millisecond => return i64SaturatingMul (← Cells.int cells row "timestamp(ms)") 1000
  | .microsecond => Cells.int cells row "timestamp(us)"
  | .nanosecond => return (← Cells.int cells row "timestamp(ns)").tdiv 1000

def timestampToDatum (unit : TimeUnit) (tz : Option String) (cells : List (Option Scalar))
    (row : Nat) : Except ConvertError Datum := do
  let unixMicros ← timestampToUnixMicros unit cells row
  let pgMicros := i64Wrap (unixMicros - unixToPostgresEpochMicros)
  match tz with
  | some _ =>
    match env.timestampWithTimeZoneTryFrom pgMicros with
    | .ok ts => return .timestamptz ts
    | .error _ => .error (.valueOutOfRange "invalid timestamptz")
  | none =>
    match env.timestampTryFrom pgMicros with
    | .ok ts => return .timestamp ts
    | .error _ => .error (.valueOutOfRange "invalid timestamp")

def decimalToDatum (precision scale : Int) (v : Int) : Except ConvertError Datum :=
  match env.anyNumericTryFrom (env.valueAsString precision scale v) with
  | .ok numeric => .ok (.numeric numeric)
  | .error _ => .error (.internal "invalid numeric")

def leafToDatum (type : LeafType) (cells : List (Option Scalar)) (row : Nat) (oid : Oid) :
    Except ConvertError Datum :=
  match type with
  | .boolean => do
    requireTargetOid oid boolOid "arrow boolean requires postgres boolean"
    return .bool (← Cells.bool cells row)
  | .int8 => do
    requireTargetOid oid int2Oid "arrow int8 requires postgres int2"
    return .int2 (← Cells.int cells row "int8")
  | .int16 => do
    requireTargetOid oid int2Oid "arrow int16 requires postgres int2"
    return .int2 (← Cells.int cells row "int16")
  | .int32 => do
    requireTargetOid oid int4Oid "arrow int32 requires postgres int4"
    return .int4 (← Cells.int cells row "int32")
  | .int64 => do
    requireTargetOid oid int8Oid "arrow int64 requires postgres int8"
    return .int8 (← Cells.int cells row "int64")
  | .uint8 => do
    requireTargetOid oid int2Oid "arrow uint8 requires postgres int2"
    return .int2 (← Cells.int cells row "uint8")
  | .uint16 => do
    requireTargetOid oid int4Oid "arrow uint16 requires postgres int4"
    return .int4 (← Cells.int cells row "uint16")
  | .uint32 => do
    requireTargetOid oid int8Oid "arrow uint32 requires postgres int8"
    return .int8 (← Cells.int cells row "uint32")
  | .uint64 => do
    requireTargetOid oid int8Oid "arrow uint64 requires postgres int8"
    let v ← Cells.int cells row "uint64"
    if v > i64Max then
      .error (.valueOutOfRange "arrow uint64 value out of range for postgres int8")
    else return .int8 v
  | .float16 => do
    requireTargetOid oid float4Oid "arrow float16 requires postgres float4"
    return .float4 (env.halfToF32 (← Cells.float cells row "float16"))
  | .float32 => do
    requireTargetOid oid float4Oid "arrow float32 requires postgres float4"
    return .float4 (← Cells.float cells row "float32")
  | .float64 => do
    requireTargetOid oid float8Oid "arrow float64 requires postgres float8"
    return .float8 (← Cells.float cells row "float64")
  | .utf8 => do
    requireTargetOid oid textOid "arrow utf8 requires postgres text"
    return .text (← Cells.utf8 cells row "utf8")
  | .largeUtf8 => do
    requireTargetOid oid textOid "arrow large utf8 requires postgres text"
    return .text (← Cells.utf8 cells row "large utf8")
  | .binary => do
    requireTargetOid oid byteaOid "arrow binary requires postgres bytea"
    return .bytea (← Cells.binary cells row "binary")
  | .largeBinary => do
    requireTargetOid oid byteaOid "arrow large binary requires postgres bytea"
    return .bytea (← Cells.binary cells row "large binary")
  | .fixedSizeBinary _ => do
    requireTargetOid oid byteaOid "arrow fixed size binary requires postgres bytea"
    return .bytea (← Cells.binary cells row "fixed size binary")
  | .date32 => do
    requireTargetOid oid dateOid "arrow date32 requires postgres date"
    match env.naiveDateFromEpochDays (← Cells.int cells row "date32") with
    | some date => calendarToDate env date
    | none => .error (.valueOutOfRange "arrow date32 overflow")
  | .date64 => do
    requireTargetOid oid dateOid "arrow date64 requires postgres date"
    match env.naiveDateFromTimestampMillis (← Cells.int cells row "date64") with
    | some date => calendarToDate env date
    | none => .error (.valueOutOfRange "arrow date64 overflow")
  | .timestamp unit tz => do
    validateLeafType (.timestamp unit tz) oid
    timestampToDatum env unit tz cells row
  | .decimal128 precision scale => do
    requireTargetOid oid numericOid "arrow decimal128 requires postgres numeric"
    decimalToDatum env precision scale (← Cells.int cells row "decimal128")
  | .decimal256 precision scale => do
    requireTargetOid oid numericOid "arrow decimal256 requires postgres numeric"
    decimalToDatum env precision scale (← Cells.int cells row "decimal256")
  | type => do
    requireTargetOid oid jsonbOid "unsupported arrow type requires postgres jsonb"
    return .jsonb (← arrowValueToJson env (.primitive type cells) row)

def ListKind.arrayMessage : ListKind → String
  | .fixedSizeList _ => "arrow fixed size list requires postgres array (or jsonb)"
  | _ => "arrow list requires postgres array (or jsonb)"

mutual
/-- A datum of the target type, or `none` for NULL. -/
def arrowValueToDatum : ArrowArray → Nat → Oid → Except ConvertError (Option Datum)
  | .primitive type cells, row, oid =>
    if (ArrowArray.primitive type cells).isNull row then .ok none
    else (leafToDatum env type cells row oid).map .some
  | .dictionary key value keys values, row, oid =>
    if (ArrowArray.dictionary key value keys values).isNull row then .ok none
    else do
      let valueIdx ← dictionaryKeyToUsize key keys row
      if valueIdx ≥ values.len then .error (.internal "dictionary key out of range")
      else arrowValueToDatum values valueIdx oid
  | .list kind elem slots values, row, oid =>
    if (ArrowArray.list kind elem slots values).isNull row then .ok none
    else
      let elemOid := env.catalog.getElementType oid
      if elemOid = invalidOid then
        if oid = jsonbOid then
          return some (.jsonb (← arrowValueToJson env (.list kind elem slots values) row))
        else .error (.typeMismatch kind.arrayMessage)
      else do
        let (start, n) ← listSlot slots row
        let datums ← (List.range n).mapM fun i => arrowValueToDatum values (start + i) elemOid
        return some (.array elemOid datums)
  | .struct fields validity columns, row, oid =>
    if (ArrowArray.struct fields validity columns).isNull row then .ok none
    else
      match env.catalog.lookupTypeCache oid with
      | none => .error (.typeMismatch "failed to lookup composite tupdesc")
      | some attrs => do
        let values ← attrs.mapM fun attr =>
          if attr.attisdropped then .ok none
          else structColumnToDatum fields columns row attr.attname attr.atttypid
        return some (.composite oid values)
  | .map entries sorted slots values, row, oid =>
    if (ArrowArray.map entries sorted slots values).isNull row then .ok none
    else do
      requireTargetOid oid jsonbOid "arrow map requires postgres jsonb"
      return some (.jsonb (← arrowValueToJson env (.map entries sorted slots values) row))
termination_by structural array => array

def structColumnToDatum : List Field → List ArrowArray → Nat → String → Oid →
    Except ConvertError (Option Datum)
  | f :: fields, column :: columns, row, name, oid =>
    if f.name = name then arrowValueToDatum column row oid
    else structColumnToDatum fields columns row name oid
  | _, _, _, name, _ => .error (.typeMismatch ("struct field name mismatch: " ++ name))
termination_by structural _ columns => columns
end

end

end PgLance
