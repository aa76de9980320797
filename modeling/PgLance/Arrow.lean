import Mathlib

/-! The part of Arrow that the extension touches: data types, arrays in their
physical layout and record batches, which carry the checks of `RecordBatch::try_new`. -/

namespace PgLance

inductive TimeUnit
  | second | millisecond | microsecond | nanosecond
  deriving DecidableEq, Repr

/-- The data types without children.  The last group is what the type mapping and
the value conversion only reach through their `_` arms. -/
inductive LeafType
  | boolean
  | int8 | int16 | int32 | int64
  | uint8 | uint16 | uint32 | uint64
  | float16 | float32 | float64
  | utf8 | largeUtf8
  | binary | largeBinary | fixedSizeBinary (size : Int)
  | date32 | date64
  | timestamp (unit : TimeUnit) (tz : Option String)
  | decimal128 (precision scale : Int) | decimal256 (precision scale : Int)
  | null | time32 (unit : TimeUnit) | time64 (unit : TimeUnit) | duration (unit : TimeUnit)
  | interval | binaryView | utf8View | listView | largeListView | union | runEndEncoded
  | decimal32 (precision scale : Int) | decimal64 (precision scale : Int)
  deriving DecidableEq, Repr

/-- Null, union and run-end-encoded arrays have no null buffer of their own. -/
def LeafType.hasNullBuffer : LeafType → Bool
  | .null | .union | .runEndEncoded => false
  | _ => true

inductive ListKind
  | list | largeList | fixedSizeList (size : Int)
  deriving DecidableEq, Repr

structure FieldOf (α : Type) where
  name : String
  dataType : α
  nullable : Bool
  deriving DecidableEq, Repr

inductive DataType
  | leaf (type : LeafType)
  | list (kind : ListKind) (elem : FieldOf DataType)
  | struct (fields : List (FieldOf DataType))
  | map (entries : FieldOf DataType) (sorted : Bool)
  | dictionary (key value : DataType)
  deriving Repr

abbrev Field := FieldOf DataType

@[elab_as_elim, induction_eliminator]
theorem DataType.induct {motive : DataType → Prop}
    (leaf : ∀ type, motive (.leaf type))
    (list : ∀ kind elem, motive elem.dataType → motive (.list kind elem))
    (struct : ∀ fields, (∀ f ∈ fields, motive f.dataType) → motive (.struct fields))
    (map : ∀ entries sorted, motive entries.dataType → motive (.map entries sorted))
    (dictionary : ∀ key value, motive key → motive value → motive (.dictionary key value)) :
    ∀ dt, motive dt :=
  @DataType.rec motive (fun f => motive f.dataType) (fun fs => ∀ f ∈ fs, motive f.dataType)
    leaf list struct map dictionary (fun _ _ _ h => h) (by simp)
    (fun _ _ hf hfs => by simpa using ⟨hf, hfs⟩)

mutual
def DataType.beq : DataType → DataType → Bool
  | .leaf s, .leaf t => s == t
  | .list k ⟨m, s, a⟩, .list l ⟨n, t, b⟩ => k == l && m == n && s.beq t && a == b
  | .struct fs, .struct gs => DataType.beqFields fs gs
  | .map ⟨m, s, a⟩ u, .map ⟨n, t, b⟩ v => m == n && s.beq t && a == b && u == v
  | .dictionary s u, .dictionary t v => s.beq t && u.beq v
  | _, _ => false
termination_by structural s => s

def DataType.beqFields : List (FieldOf DataType) → List (FieldOf DataType) → Bool
  | [], [] => true
  | ⟨m, s, a⟩ :: fs, ⟨n, t, b⟩ :: gs => m == n && s.beq t && a == b && DataType.beqFields fs gs
  | _, _ => false
termination_by structural fs => fs
end

theorem DataType.beqFields_iff {fs : List Field}
    (h : ∀ f ∈ fs, ∀ t : DataType, f.dataType.beq t = true ↔ f.dataType = t) (gs : List Field) :
    DataType.beqFields fs gs = true ↔ fs = gs := by
  induction fs generalizing gs with
  | nil => cases gs <;> simp [DataType.beqFields]
  | cons f fs ih =>
    cases gs with
    | nil => simp [DataType.beqFields]
    | cons g gs =>
      have hf := h f (by simp) g.dataType
      have hfs := ih (fun f hf => h f (by simp [hf])) gs
      obtain ⟨m, s, a⟩ := f
      obtain ⟨n, t, b⟩ := g
      simp only [DataType.beqFields, Bool.and_eq_true, beq_iff_eq, hfs, List.cons.injEq,
        FieldOf.mk.injEq]
      simp only at hf
      simp only [hf, and_assoc]

theorem DataType.beq_iff (s t : DataType) : s.beq t = true ↔ s = t := by
  induction s generalizing t with
  | leaf type => cases t <;> simp [DataType.beq]
  | list kind elem ih =>
    obtain ⟨m, s, a⟩ := elem
    cases t with
    | list l f =>
      obtain ⟨n, t, b⟩ := f
      simp [DataType.beq, ih, and_assoc]
    | _ => simp [DataType.beq]
  | struct fields ih =>
    cases t with
    | struct gs => simp [DataType.beq, DataType.beqFields_iff ih]
    | _ => simp [DataType.beq]
  | map entries sorted ih =>
    obtain ⟨m, s, a⟩ := entries
    cases t with
    | map f v =>
      obtain ⟨n, t, b⟩ := f
      simp [DataType.beq, ih, and_assoc]
    | _ => simp [DataType.beq]
  | dictionary key value ihk ihv => cases t <;> simp [DataType.beq, ihk, ihv]

instance : DecidableEq DataType := fun s t => decidable_of_iff _ (DataType.beq_iff s t)

inductive Scalar
  | bool (b : Bool)
  | int (i : Int)
  | float (bits : Nat)
  | utf8 (s : String)
  | binary (bytes : List UInt8)
  deriving DecidableEq, Repr

/-- The logical content of one array slot. -/
inductive Value
  | null
  | scalar (s : Scalar)
  | list (items : List Value)
  | struct (names : List String) (items : List Value)
  | map (entries : List Value)
  deriving Repr

@[elab_as_elim, induction_eliminator]
theorem Value.induct {motive : Value → Prop}
    (null : motive .null)
    (scalar : ∀ s, motive (.scalar s))
    (list : ∀ items, (∀ v ∈ items, motive v) → motive (.list items))
    (struct : ∀ names items, (∀ v ∈ items, motive v) → motive (.struct names items))
    (map : ∀ entries, (∀ v ∈ entries, motive v) → motive (.map entries)) :
    ∀ v, motive v :=
  @Value.rec motive (fun vs => ∀ v ∈ vs, motive v) null scalar list struct map (by simp)
    (fun _ _ hv hvs => by simpa using ⟨hv, hvs⟩)

mutual
def Value.beq : Value → Value → Bool
  | .null, .null => true
  | .scalar s, .scalar t => s == t
  | .list us, .list vs => Value.beqItems us vs
  | .struct ms us, .struct ns vs => ms == ns && Value.beqItems us vs
  | .map us, .map vs => Value.beqItems us vs
  | _, _ => false
termination_by structural u => u

def Value.beqItems : List Value → List Value → Bool
  | [], [] => true
  | u :: us, v :: vs => u.beq v && Value.beqItems us vs
  | _, _ => false
termination_by structural us => us
end

theorem Value.beqItems_iff {us : List Value}
    (h : ∀ u ∈ us, ∀ v, u.beq v = true ↔ u = v) (vs : List Value) :
    Value.beqItems us vs = true ↔ us = vs := by
  induction us generalizing vs with
  | nil => cases vs <;> simp [Value.beqItems]
  | cons u us ih =>
    cases vs with
    | nil => simp [Value.beqItems]
    | cons v vs =>
      have hu := h u (by simp) v
      have hus := ih (fun u hu => h u (by simp [hu])) vs
      simp only [Value.beqItems, Bool.and_eq_true, hu, hus, List.cons.injEq]

theorem Value.beq_iff (u v : Value) : u.beq v = true ↔ u = v := by
  induction u generalizing v with
  | null => cases v <;> simp [Value.beq]
  | scalar s => cases v <;> simp [Value.beq]
  | list items ih =>
    cases v with
    | list vs => simp [Value.beq, Value.beqItems_iff ih]
    | _ => simp [Value.beq]
  | struct names items ih =>
    cases v with
    | struct ns vs => simp [Value.beq, Value.beqItems_iff ih]
    | _ => simp [Value.beq]
  | map entries ih =>
    cases v with
    | map vs => simp [Value.beq, Value.beqItems_iff ih]
    | _ => simp [Value.beq]

instance : DecidableEq Value := fun u v => decidable_of_iff _ (Value.beq_iff u v)

/-- A row of a list or map array: null, or the start and length of its slice of the child. -/
abbrev Slot := Option (Nat × Nat)

inductive ArrowArray
  | primitive (type : LeafType) (cells : List (Option Scalar))
  | list (kind : ListKind) (elem : Field) (slots : List Slot) (values : ArrowArray)
  | struct (fields : List Field) (validity : List Bool) (columns : List ArrowArray)
  | map (entries : Field) (sorted : Bool) (slots : List Slot) (values : ArrowArray)
  | dictionary (key value : DataType) (keys : List (Option Int)) (values : ArrowArray)
  deriving Repr

@[elab_as_elim, induction_eliminator]
theorem ArrowArray.induct {motive : ArrowArray → Prop}
    (primitive : ∀ type cells, motive (.primitive type cells))
    (list : ∀ kind elem slots values, motive values → motive (.list kind elem slots values))
    (struct : ∀ fields validity columns, (∀ column ∈ columns, motive column) →
      motive (.struct fields validity columns))
    (map : ∀ entries sorted slots values, motive values →
      motive (.map entries sorted slots values))
    (dictionary : ∀ key value keys values, motive values →
      motive (.dictionary key value keys values)) :
    ∀ array, motive array :=
  @ArrowArray.rec motive (fun columns => ∀ column ∈ columns, motive column) primitive list struct
    map dictionary (by simp) (fun _ _ hc hcs => by simpa using ⟨hc, hcs⟩)

namespace ArrowArray

def dataType : ArrowArray → DataType
  | .primitive type _ => .leaf type
  | .list kind elem _ _ => .list kind elem
  | .struct fields _ _ => .struct fields
  | .map entries sorted _ _ => .map entries sorted
  | .dictionary key value _ _ => .dictionary key value

def len : ArrowArray → Nat
  | .primitive _ cells => cells.length
  | .list _ _ slots _ => slots.length
  | .struct _ validity _ => validity.length
  | .map _ _ slots _ => slots.length
  | .dictionary _ _ keys _ => keys.length

/-- `Array::is_null`: the array's own null buffer, which for a dictionary is that of its keys. -/
def isNull : ArrowArray → Nat → Bool
  | .primitive type cells, i => type.hasNullBuffer && cells[i]? == some none
  | .list _ _ slots _, i => slots[i]? == some none
  | .struct _ validity _, i => validity[i]? == some false
  | .map _ _ slots _, i => slots[i]? == some none
  | .dictionary _ _ keys _, i => keys[i]? == some none

def sliceOf (items : List Value) : Slot → Option (List Value)
  | none => none
  | some (start, n) => some ((items.drop start).take n)

def transpose (n : Nat) (columns : List (List Value)) : List (List Value) :=
  (List.range n).map fun i => columns.map fun column => column.getD i .null

mutual
def valuesOf : ArrowArray → List Value
  | .primitive _ cells => cells.map fun cell => cell.elim .null .scalar
  | .list _ _ slots values =>
    let items := valuesOf values
    slots.map fun slot => (sliceOf items slot).elim .null .list
  | .struct fields validity columns =>
    let rows := transpose validity.length (valuesOfColumns columns)
    List.zipWith (fun valid row => if valid then .struct (fields.map (·.name)) row else .null)
      validity rows
  | .map _ _ slots values =>
    let items := valuesOf values
    slots.map fun slot => (sliceOf items slot).elim .null .map
  | .dictionary _ _ keys values =>
    let items := valuesOf values
    keys.map fun key => key.elim .null fun k => items.getD k.toNat .null
termination_by structural a => a

def valuesOfColumns : List ArrowArray → List (List Value)
  | [] => []
  | a :: as => valuesOf a :: valuesOfColumns as
termination_by structural as => as
end

@[simp] theorem valuesOfColumns_eq (columns : List ArrowArray) :
    valuesOfColumns columns = columns.map valuesOf := by
  induction columns with
  | nil => rfl
  | cons a as ih => simp [valuesOfColumns, ih]

@[simp] theorem length_transpose (n : Nat) (columns : List (List Value)) :
    (transpose n columns).length = n := by simp [transpose]

@[simp] theorem length_valuesOf (a : ArrowArray) : a.valuesOf.length = a.len := by
  cases a <;> simp [valuesOf, len]

end ArrowArray

abbrev Schema := List Field

abbrev Row := List (String × Value)

/-- A record batch carries what `RecordBatch::try_new` checks for nullable fields: one
column for each field, of its type, all columns of one length. -/
structure RecordBatch where
  schema : Schema
  columns : List ArrowArray
  numRows : Nat
  types : columns.map ArrowArray.dataType = schema.map FieldOf.dataType
  lengths : ∀ column ∈ columns, column.len = numRows

namespace RecordBatch

def tryNew (schema : Schema) (columns : List ArrowArray) : Except String RecordBatch :=
  match columns with
  | [] =>
    .error "Invalid argument error: must either specify a row count or at least one column"
  | first :: _ =>
    if lengths : ∀ column ∈ columns, column.len = first.len then
      if types : columns.map ArrowArray.dataType = schema.map FieldOf.dataType then
        .ok ⟨schema, columns, first.len, types, lengths⟩
      else
        .error "Invalid argument error: column types must match schema types"
    else
      .error "Invalid argument error: all columns in a record batch must have the same length"

theorem tryNew_columns {schema : Schema} {columns : List ArrowArray} {batch : RecordBatch}
    (h : tryNew schema columns = .ok batch) : batch.columns = columns := by
  cases columns with
  | nil => cases h
  | cons first rest =>
    simp only [tryNew] at h
    split at h
    · split at h <;> cases h
      rfl
    · cases h

def rows (batch : RecordBatch) : List Row :=
  (ArrowArray.transpose batch.numRows (batch.columns.map ArrowArray.valuesOf)).map fun row =>
    (batch.schema.map FieldOf.name).zip row

@[simp] theorem length_rows (batch : RecordBatch) : batch.rows.length = batch.numRows := by
  simp [rows]

end RecordBatch

end PgLance
