import Mathlib

/-! What the extension reads from PostgreSQL and pgrx: type OIDs, catalogue lookups,
settings, and SPI result sets read through a cursor. -/

namespace PgLance

structure Oid where
  number : Nat
  deriving DecidableEq, Repr

@[match_pattern] abbrev invalidOid : Oid := ⟨0⟩
@[match_pattern] abbrev boolOid : Oid := ⟨16⟩
@[match_pattern] abbrev byteaOid : Oid := ⟨17⟩
@[match_pattern] abbrev nameOid : Oid := ⟨19⟩
@[match_pattern] abbrev int8Oid : Oid := ⟨20⟩
@[match_pattern] abbrev int2Oid : Oid := ⟨21⟩
@[match_pattern] abbrev int4Oid : Oid := ⟨23⟩
@[match_pattern] abbrev textOid : Oid := ⟨25⟩
@[match_pattern] abbrev jsonOid : Oid := ⟨114⟩
@[match_pattern] abbrev float4Oid : Oid := ⟨700⟩
@[match_pattern] abbrev float8Oid : Oid := ⟨701⟩
@[match_pattern] abbrev varcharOid : Oid := ⟨1043⟩
@[match_pattern] abbrev dateOid : Oid := ⟨1082⟩
@[match_pattern] abbrev timestampOid : Oid := ⟨1114⟩
@[match_pattern] abbrev timestamptzOid : Oid := ⟨1184⟩
@[match_pattern] abbrev numericOid : Oid := ⟨1700⟩
@[match_pattern] abbrev uuidOid : Oid := ⟨2950⟩
@[match_pattern] abbrev jsonbOid : Oid := ⟨3802⟩

structure Attribute where
  attname : String
  atttypid : Oid
  attisdropped : Bool
  deriving DecidableEq, Repr

def mbCharClip : Nat → List Char → List Char
  | _, [] => []
  | limit, c :: cs => if c.utf8Size ≤ limit then c :: mbCharClip (limit - c.utf8Size) cs else []

/-- An identifier as it is stored, with at most 63 bytes. -/
def truncateIdentifier (ident : String) : String :=
  if ident.utf8ByteSize ≥ 64 then String.ofList (mbCharClip 63 ident.toList) else ident

structure Catalog where
  getElementType : Oid → Oid
  /-- `lookup_type_cache(oid, TYPECACHE_TUPDESC)`; `none` is a null tuple descriptor. -/
  lookupTypeCache : Oid → Option (List Attribute)

inductive JsonNumber
  | int (i : Int)
  | float (bits : Nat)
  deriving DecidableEq, Repr

/-- `serde_json::Value`; an object lists its keys in order. -/
inductive Json
  | null
  | bool (b : Bool)
  | number (n : JsonNumber)
  | string (s : String)
  | array (items : List Json)
  | object (entries : List (String × Json))
  deriving Repr

inductive RustType
  | bool | i16 | i32 | i64 | f32 | f64
  | anyNumeric | jsonB | json | uuid | string | vecU8
  | date | timestamp | timestampWithTimeZone
  deriving DecidableEq, Repr

/-- Integers and the day and microsecond counts of dates and timestamps are `Int`, floats
are their bits, and a numeric or a uuid is its text. -/
def RustType.Val : RustType → Type
  | .bool => Bool
  | .i16 | .i32 | .i64 | .date | .timestamp | .timestampWithTimeZone => Int
  | .f32 | .f64 => Nat
  | .anyNumeric | .uuid | .string => String
  | .jsonB | .json => Json
  | .vecU8 => List UInt8

def RustType.typeOid : RustType → Oid
  | .bool => boolOid
  | .i16 => int2Oid
  | .i32 => int4Oid
  | .i64 => int8Oid
  | .f32 => float4Oid
  | .f64 => float8Oid
  | .anyNumeric => numericOid
  | .jsonB => jsonbOid
  | .json => jsonOid
  | .uuid => uuidOid
  | .string => textOid
  | .vecU8 => byteaOid
  | .date => dateOid
  | .timestamp => timestampOid
  | .timestampWithTimeZone => timestamptzOid

variable {Raw : Type}

structure SpiEntry (Raw : Type) where
  typeOid : Oid
  datum : Option Raw

abbrev SpiRow (Raw : Type) := List (SpiEntry Raw)

structure Pgrx (Raw : Type) where
  isCompatibleWith : RustType → Oid → Bool
  tryFromDatum : (type : RustType) → Oid → Raw → Except String (Option type.Val)
  toUnixEpochDays : Int → Int
  jsonToString : Json → Except String String

namespace Pgrx

/-- `value::<T>()` of an SPI entry. -/
def value (pgrx : Pgrx Raw) (type : RustType) (entry : SpiEntry Raw) :
    Except String (Option type.Val) :=
  match entry.datum with
  | none => .ok none
  | some raw => pgrx.tryFromDatum type entry.typeOid raw

/-- A datum is read as a type exactly when the types are compatible, as every type is with
its own OID and `String` with `varchar`. -/
structure Lawful (pgrx : Pgrx Raw) : Prop where
  incompatible : ∀ type oid raw, pgrx.isCompatibleWith type oid = false →
    ∃ e, pgrx.tryFromDatum type oid raw = .error e
  compatible : ∀ type oid raw, pgrx.isCompatibleWith type oid = true →
    ∃ v, pgrx.tryFromDatum type oid raw = .ok (some v)
  own : ∀ type, pgrx.isCompatibleWith type type.typeOid = true
  varchar : pgrx.isCompatibleWith .string varcharOid = true

end Pgrx

def RustType.ofInt : (type : RustType) → Int → type.Val
  | .bool, i => show Bool from i != 0
  | .i16, i | .i32, i | .i64, i | .date, i | .timestamp, i | .timestampWithTimeZone, i =>
    show Int from i
  | .f32, i | .f64, i => show Nat from i.toNat
  | .anyNumeric, i | .uuid, i | .string, i => show String from toString i
  | .jsonB, i | .json, i => show Json from .number (.int i)
  | .vecU8, i => show List UInt8 from [i.toNat.toUInt8]

/-- A pgrx over integer datums, which reads a datum as the type of its OID only. -/
def Pgrx.sample : Pgrx Int where
  isCompatibleWith type oid := type.typeOid == oid || (type == .string && oid == varcharOid)
  tryFromDatum type oid raw :=
    if type.typeOid == oid || (type == .string && oid == varcharOid) then
      .ok (some (type.ofInt raw))
    else .error "incompatible types"
  toUnixEpochDays days := days + 10957
  jsonToString _ := .ok ""

theorem Pgrx.sample_lawful : Pgrx.sample.Lawful where
  incompatible type oid raw h := by
    simp only [Pgrx.sample] at h
    exact ⟨_, by simp only [Pgrx.sample, h, Bool.false_eq_true, if_false]; rfl⟩
  compatible type oid raw h := by
    simp only [Pgrx.sample] at h
    exact ⟨_, by simp only [Pgrx.sample, h, if_true]; rfl⟩
  own type := by simp [Pgrx.sample]
  varchar := by decide

/-- `get_datum_by_ordinal`, which counts from one. -/
def getDatumByOrdinal (row : SpiRow Raw) (ordinal : Nat) : Except String (SpiEntry Raw) :=
  match ordinal with
  | 0 => .error "no attribute"
  | i + 1 => (row[i]?).elim (.error "no attribute") .ok

structure SpiColumn where
  name : String
  typeOid : Oid
  deriving DecidableEq, Repr

inductive SourceError
  | spi (message : String)
  | raised (message : String)
  deriving DecidableEq, Repr

def cLongMax : Nat := 2 ^ 63 - 1

/-- What a source query yields: rows, then its end or an error.  A query that cannot be
opened fails before its first row.  Every row has the result set's column types, and SPI
counts the rows in a `c_long`. -/
structure ResultSet (Raw : Type) where
  columns : List SpiColumn
  rows : List (SpiRow Raw)
  error : Option SourceError
  typed : ∀ row ∈ rows, row.map SpiEntry.typeOid = columns.map SpiColumn.typeOid
  countable : rows.length < cLongMax

def ResultSet.sample (ids : List Int) (error : Option SourceError) (h : ids.length < cLongMax) :
    ResultSet Int where
  columns := [⟨"id", int4Oid⟩]
  rows := ids.map fun id => [⟨int4Oid, some id⟩]
  error := error
  typed := by simp
  countable := by simpa using h

structure Cursor (Raw : Type) where
  rest : List (SpiRow Raw)
  error : Option SourceError

def ResultSet.openCursor (source : ResultSet Raw) : Cursor Raw := ⟨source.rows, source.error⟩

/-- `fetch(count)` returns the next `count` rows or all that remain.  It meets the error of
the query when it asks for the row after the last. -/
def Cursor.fetch (cursor : Cursor Raw) (count : Nat) : Except SourceError (List (SpiRow Raw)) :=
  if count ≤ cursor.rest.length then .ok (cursor.rest.take count)
  else cursor.error.elim (.ok cursor.rest) .error

def Cursor.advance (cursor : Cursor Raw) (count : Nat) : Cursor Raw :=
  { cursor with rest := cursor.rest.drop count }

theorem Cursor.length_advance_lt {cursor : Cursor Raw} {count : Nat} {tuptable : List (SpiRow Raw)}
    (h : cursor.fetch count = .ok tuptable) (hne : tuptable ≠ []) (hcount : 0 < count) :
    (cursor.advance count).rest.length < cursor.rest.length := by
  have hrest : cursor.rest ≠ [] := by
    intro hrest
    have hlt : ¬ count ≤ 0 := by omega
    cases herr : cursor.error <;> simp [Cursor.fetch, hrest, hlt, herr] at h
    exact hne h
  have hpos := List.length_pos_iff.mpr hrest
  simp only [Cursor.advance, List.length_drop]
  omega

/-- The settings `lance.max_write_buffer_mb`, `lance.write_chunk_rows` and
`lance.merge_use_index`. -/
structure Settings where
  maxWriteBufferMb : Int
  writeChunkRowsGuc : Int
  mergeUseIndex : Bool
  deriving DecidableEq, Repr

def usizeMax : Nat := 2 ^ 64 - 1

def Settings.maxWriteBufferBytes (settings : Settings) : Nat :=
  if settings.maxWriteBufferMb ≤ 0 then 0
  else min (settings.maxWriteBufferMb.toNat * (1024 * 1024)) usizeMax

def Settings.writeChunkRows (settings : Settings) : Nat :=
  if settings.writeChunkRowsGuc ≤ 0 then 0 else settings.writeChunkRowsGuc.toNat

/-- The `as usize` cast of an `i32` argument. -/
def i32AsUsize (n : Int) : Nat := (n % 2 ^ 64).toNat

inductive Failure
  | returned (message : String)
  | raised (message : String)
  | panicked (message : String)
  deriving DecidableEq, Repr

end PgLance
