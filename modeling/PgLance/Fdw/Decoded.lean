import PgLance.Fdw.ConvertLaws

/-! The values that arrays hold, whichever way they are encoded, and what the conversion makes of
them. -/

namespace PgLance

open Fallible

/-- Types that hold the same values are one. -/
def LeafType.logical : LeafType → LeafType
  | .largeUtf8 => .utf8
  | .largeBinary | .fixedSizeBinary _ => .binary
  | type => type

def LeafType.isInteger : LeafType → Bool
  | .int8 | .int16 | .int32 | .int64 | .uint8 | .uint16 | .uint32 | .uint64 => true
  | _ => false

/-- The types with an arm of their own in `arrow_value_to_json`. -/
def LeafType.hasJson : LeafType → Bool
  | .boolean | .float16 | .float32 | .float64 | .utf8 | .largeUtf8
  | .binary | .largeBinary | .fixedSizeBinary _ | .decimal128 _ _ | .decimal256 _ _ => true
  | type => type.isInteger

def LeafType.range : LeafType → Option (Int × Int)
  | .int8 => some (-2 ^ 7, 2 ^ 7 - 1)
  | .int16 => some (-2 ^ 15, 2 ^ 15 - 1)
  | .int32 | .date32 => some (-2 ^ 31, 2 ^ 31 - 1)
  | .int64 | .date64 | .timestamp _ _ => some (i64Min, i64Max)
  | .uint8 => some (0, 2 ^ 8 - 1)
  | .uint16 => some (0, 2 ^ 16 - 1)
  | .uint32 => some (0, 2 ^ 32 - 1)
  | .uint64 => some (0, 2 ^ 64 - 1)
  | .decimal128 precision _ | .decimal256 precision _ =>
    some (-10 ^ precision.toNat + 1, 10 ^ precision.toNat - 1)
  | _ => none

def LeafType.admits (type : LeafType) : Scalar → Bool
  | .bool _ => type = .boolean ∨ ¬ (type.hasJson ∨ type.range.isSome)
  | .int i => match type.range with
    | some (low, high) => low ≤ i ∧ i ≤ high
    | none => ¬ type.hasJson
  | .float bits => match type with
    | .float16 => bits < 2 ^ 16
    | .float32 => bits < 2 ^ 32
    | .float64 => bits < 2 ^ 64
    | type => ¬ (type.hasJson ∨ type.range.isSome)
  | .utf8 _ => type.logical = .utf8 ∨ ¬ (type.hasJson ∨ type.range.isSome)
  | .binary bytes => match type with
    | .binary | .largeBinary => true
    | .fixedSizeBinary size => bytes.length = size
    | type => ¬ (type.hasJson ∨ type.range.isSome)

/-- Arrays whose children have the types and lengths, and whose cells the values, that their types
and offsets ask for. -/
inductive ArrowArray.WellFormed : ArrowArray → Prop
  | primitive {type : LeafType} {cells : List (Option Scalar)} :
    (∀ s, some s ∈ cells → type.admits s = true) → WellFormed (.primitive type cells)
  | list {kind : ListKind} {elem : Field} {slots : List Slot} {values : ArrowArray} :
    values.dataType = elem.dataType →
    (∀ start n, some (start, n) ∈ slots → start + n ≤ values.len) → WellFormed values →
    WellFormed (.list kind elem slots values)
  | struct {fields : List Field} {validity : List Bool} {columns : List ArrowArray} :
    columns.map ArrowArray.dataType = fields.map FieldOf.dataType →
    (∀ column ∈ columns, column.len = validity.length) → (∀ column ∈ columns, WellFormed column) →
    WellFormed (.struct fields validity columns)
  | map {entries : Field} {sorted : Bool} {slots : List Slot} {values : ArrowArray} :
    values.dataType = entries.dataType →
    (∀ start n, some (start, n) ∈ slots → start + n ≤ values.len) → WellFormed values →
    WellFormed (.map entries sorted slots values)
  | dictionary {key value : DataType} {keys : List (Option Int)} {values : ArrowArray} :
    key.isDictionaryKey = true → values.dataType = value →
    (∀ k, some k ∈ keys → 0 ≤ k ∧ k < values.len) → WellFormed values →
    WellFormed (.dictionary key value keys values)

namespace ArrowArray.WellFormed

variable {values : ArrowArray} {slots : List Slot}

theorem cells_admit {type : LeafType} {cells : List (Option Scalar)}
    (h : WellFormed (.primitive type cells)) : ∀ s, some s ∈ cells → type.admits s = true := by
  cases h
  assumption

theorem list_slots {kind : ListKind} {elem : Field} (h : WellFormed (.list kind elem slots values)) :
    (∀ start n, some (start, n) ∈ slots → start + n ≤ values.len) ∧ WellFormed values := by
  cases h
  exact ⟨‹_›, ‹_›⟩

theorem struct_columns {fields : List Field} {validity : List Bool} {columns : List ArrowArray}
    (h : WellFormed (.struct fields validity columns)) :
    columns.map ArrowArray.dataType = fields.map FieldOf.dataType ∧
      (∀ column ∈ columns, column.len = validity.length) ∧
        ∀ column ∈ columns, WellFormed column := by
  cases h
  exact ⟨‹_›, ‹_›, ‹_›⟩

theorem dictionary_keys {key value : DataType} {keys : List (Option Int)}
    (h : WellFormed (.dictionary key value keys values)) :
    key.isDictionaryKey = true ∧ (∀ k, some k ∈ keys → 0 ≤ k ∧ k < values.len) ∧
      WellFormed values := by
  cases h
  exact ⟨‹_›, ‹_›, ‹_›⟩

theorem list_dataType {kind : ListKind} {elem : Field}
    (h : WellFormed (.list kind elem slots values)) : values.dataType = elem.dataType := by
  cases h
  assumption

theorem dictionary_dataType {key value : DataType} {keys : List (Option Int)}
    (h : WellFormed (.dictionary key value keys values)) : values.dataType = value := by
  cases h
  assumption

end ArrowArray.WellFormed

/-- A value with the types of its leaves, and of maps the text that stands for their type.  A leaf
without a value is one of a type without a null buffer. -/
inductive Decoded
  | null
  | leaf (type : LeafType) (cell : Option Scalar)
  | list (items : List Decoded)
  | struct (names : List String) (items : List Decoded)
  | map (text : String) (entries : List Decoded)
  deriving Repr

namespace Decoded

@[elab_as_elim, induction_eliminator]
theorem induct {motive : Decoded → Prop}
    (null : motive .null)
    (leaf : ∀ type cell, motive (.leaf type cell))
    (list : ∀ items, (∀ x ∈ items, motive x) → motive (.list items))
    (struct : ∀ names items, (∀ x ∈ items, motive x) → motive (.struct names items))
    (map : ∀ text entries, (∀ x ∈ entries, motive x) → motive (.map text entries)) :
    ∀ x, motive x :=
  @Decoded.rec motive (fun xs => ∀ x ∈ xs, motive x) null leaf list struct map (by simp)
    (fun _ _ hx hxs => by simpa using ⟨hx, hxs⟩)

mutual
/-- The value alone: without the texts of maps, and null where there is no value. -/
def logical : Decoded → Decoded
  | .null => .null
  | .leaf type (some s) => .leaf type (some s)
  | .leaf _ none => .null
  | .list items => .list (logicalItems items)
  | .struct names items => .struct names (logicalItems items)
  | .map _ entries => .map "" (logicalItems entries)
termination_by structural x => x

def logicalItems : List Decoded → List Decoded
  | [] => []
  | x :: xs => x.logical :: logicalItems xs
termination_by structural xs => xs
end

mutual
/-- The value with the text of its type in place of what JSON has no arm for. -/
def shown (env : ConvertEnv) : Decoded → Decoded
  | .null => .null
  | .leaf type cell =>
    if type.hasJson then .leaf type cell else .map (env.debugDataType (.leaf type)) []
  | .list items => .list (shownItems env items)
  | .struct names items => .struct names (shownItems env items)
  | .map text _ => .map text []
termination_by structural x => x

def shownItems (env : ConvertEnv) : List Decoded → List Decoded
  | [] => []
  | x :: xs => x.shown env :: shownItems env xs
termination_by structural xs => xs
end

@[simp] theorem logicalItems_eq (items : List Decoded) : logicalItems items = items.map logical := by
  induction items with
  | nil => rfl
  | cons x xs ih => simp [logicalItems, ih]

@[simp] theorem shownItems_eq (env : ConvertEnv) (items : List Decoded) :
    shownItems env items = items.map (shown env) := by
  induction items with
  | nil => rfl
  | cons x xs ih => simp [shownItems, ih]

end Decoded

namespace ArrowArray

variable (env : ConvertEnv)

mutual
def decoded : ArrowArray → Nat → Decoded
  | .primitive type cells, row =>
    if (ArrowArray.primitive type cells).isNull row then .null
    else .leaf type.logical cells[row]?.join
  | .list _ _ slots values, row =>
    match slots[row]? with
    | some (some (start, n)) => .list ((List.range n).map fun i => decoded values (start + i))
    | _ => .null
  | .struct fields validity columns, row =>
    if validity[row]? = some true then
      .struct (fields.map FieldOf.name) (decodedColumns columns row)
    else .null
  | .map entries sorted slots values, row =>
    match slots[row]? with
    | some (some (start, n)) =>
      .map (env.debugDataType (.map entries sorted))
        ((List.range n).map fun i => decoded values (start + i))
    | _ => .null
  | .dictionary _ _ keys values, row =>
    match keys[row]? with
    | some (some k) => decoded values k.toNat
    | _ => .null
termination_by structural array => array

def decodedColumns : List ArrowArray → Nat → List Decoded
  | [], _ => []
  | column :: columns, row => decoded column row :: decodedColumns columns row
termination_by structural columns => columns
end

@[simp] theorem decodedColumns_eq (columns : List ArrowArray) (row : Nat) :
    decodedColumns env columns row = columns.map fun column => column.decoded env row := by
  induction columns with
  | nil => rfl
  | cons column columns ih => simp [decodedColumns, ih]

end ArrowArray

namespace Decoded

variable (env : ConvertEnv)

mutual
def toJson : Decoded → Json
  | .null => .null
  | .leaf type cell => (leafToJson env type [cell] 0).toOption.getD .null
  | .list items => .array (itemsToJson items)
  | .struct names items =>
    .object ((names.zip (itemsToJson items)).foldl
      (fun entries (name, json) => jsonInsert name json entries) [])
  | .map text _ => .string ("<unsupported_type: " ++ text ++ ">")
termination_by structural x => x

def itemsToJson : List Decoded → List Json
  | [] => []
  | x :: xs => x.toJson :: itemsToJson xs
termination_by structural xs => xs
end

@[simp] theorem itemsToJson_eq (items : List Decoded) :
    itemsToJson env items = items.map (toJson env) := by
  induction items with
  | nil => rfl
  | cons x xs ih => simp [itemsToJson, ih]

mutual
def toDatum : Decoded → Oid → Except ConvertErrorKind (Option Datum)
  | .null, _ => .ok none
  | .leaf type cell, oid =>
    ((leafToDatum env type [cell] 0 oid).map some).mapError ConvertError.kind
  | .list items, oid =>
    let elemOid := env.catalog.getElementType oid
    if elemOid = invalidOid then
      if oid = jsonbOid then .ok (some (.jsonb (toJson env (.list items))))
      else .error .typeMismatch
    else do
      let datums ← itemsToDatum items elemOid
      return some (.array elemOid datums)
  | .struct names items, oid =>
    match env.catalog.lookupTypeCache oid with
    | none => .error .typeMismatch
    | some attrs => do
      let values ← attrs.mapM fun attr =>
        if attr.attisdropped then .ok none
        else fieldToDatum names items attr.attname attr.atttypid
      return some (.composite oid values)
  | .map text entries, oid =>
    if oid = jsonbOid then .ok (some (.jsonb (toJson env (.map text entries))))
    else .error .typeMismatch
termination_by structural x => x

def itemsToDatum : List Decoded → Oid → Except ConvertErrorKind (List (Option Datum))
  | [], _ => .ok []
  | x :: xs, oid => do return (← x.toDatum oid) :: (← itemsToDatum xs oid)
termination_by structural xs => xs

def fieldToDatum : List String → List Decoded → String → Oid →
    Except ConvertErrorKind (Option Datum)
  | name :: names, x :: xs, attname, oid =>
    if name = attname then x.toDatum oid else fieldToDatum names xs attname oid
  | _, _, _, _ => .error .typeMismatch
termination_by structural _ xs => xs
end

@[simp] theorem itemsToDatum_eq (items : List Decoded) (oid : Oid) :
    itemsToDatum env items oid = items.mapM fun x => x.toDatum env oid := by
  induction items with
  | nil => rfl
  | cons x xs ih => simp [itemsToDatum, ih]

end Decoded

section

variable {env : ConvertEnv}

theorem leafToJson_congr {type : LeafType} {cells cells' : List (Option Scalar)} {row row' : Nat}
    (h : cells[row]? = cells'[row']?) :
    leafToJson env type cells row = leafToJson env type cells' row' := by
  cases type <;>
    simp only [leafToJson, Cells.bool, Cells.int, Cells.float, Cells.utf8, Cells.binary, h]

theorem leafToDatum_congr {type : LeafType} {cells cells' : List (Option Scalar)} {row row' : Nat}
    (h : cells[row]? = cells'[row']?) (oid : Oid) :
    leafToDatum env type cells row oid = leafToDatum env type cells' row' oid := by
  have hnull : (ArrowArray.primitive type cells).isNull row =
      (ArrowArray.primitive type cells').isNull row' := by
    rw [ArrowArray.isNull, ArrowArray.isNull, h]
  have hjson : arrowValueToJson env (.primitive type cells) row =
      arrowValueToJson env (.primitive type cells') row' := by
    rw [arrowValueToJson, arrowValueToJson, hnull, leafToJson_congr h]
  cases type <;>
    simp only [leafToDatum, timestampToDatum, timestampToUnixMicros, hjson, Cells.bool, Cells.int,
      Cells.float, Cells.utf8, Cells.binary, h]

theorem leafToJson_logical {type : LeafType} {cell : Option Scalar}
    (hcell : cell = none → type.hasNullBuffer = false)
    (hadmits : ∀ s, cell = some s → type.admits s = true) :
    leafToJson env type [cell] 0 =
      .ok ((leafToJson env type.logical [cell] 0).toOption.getD .null) := by
  cases cell with
  | none =>
    have hbuffer := hcell rfl
    cases type <;> cases hbuffer <;> rfl
  | some s =>
    have hs := hadmits s rfl
    cases type <;> cases s <;> first | rfl | simp [LeafType.admits, LeafType.hasJson,
      LeafType.range, LeafType.logical, LeafType.isInteger] at hs

theorem leafToDatum_logical {type : LeafType} (cell : Option Scalar) (oid : Oid) :
    (leafToDatum env type [cell] 0 oid).mapError ConvertError.kind =
      (leafToDatum env type.logical [cell] 0 oid).mapError ConvertError.kind := by
  have hkind : ∀ (expected : Oid) (message message' : String) (rest rest' : Except ConvertError Datum),
      rest.mapError ConvertError.kind = rest'.mapError ConvertError.kind →
      (requireTargetOid oid expected message >>= fun _ => rest).mapError ConvertError.kind =
        (requireTargetOid oid expected message' >>= fun _ => rest').mapError ConvertError.kind := by
    intro expected message message' rest rest' hrest
    simp only [requireTargetOid]
    split
    · rfl
    · exact hrest
  cases type with
  | largeUtf8 | largeBinary | fixedSizeBinary =>
    refine hkind _ _ _ _ _ ?_
    obtain _ | s := cell
    · rfl
    · cases s <;> rfl
  | _ => simp only [LeafType.logical]

theorem dictionaryKeyToUsize_key {key : DataType} (hkey : key.isDictionaryKey = true)
    {keys : List (Option Int)} {row : Nat} {k : Int} (hrow : keys[row]? = some (some k))
    (hk : 0 ≤ k) : dictionaryKeyToUsize key keys row = .ok k.toNat := by
  unfold DataType.isDictionaryKey at hkey
  split at hkey
  all_goals first
    | cases hkey; done
    | simp [dictionaryKeyToUsize, hrow, not_lt.mpr hk]

theorem structColumnsToJson_ok {columns : List ArrowArray} {row : Nat} {values : List Json}
    (h : List.Forall₂ (fun column json => arrowValueToJson env column row = .ok json) columns values)
    {fields : List Field} (hlength : fields.length = columns.length)
    (entries : List (String × Json)) :
    structColumnsToJson env fields columns row entries =
      .ok (((fields.map FieldOf.name).zip values).foldl
        (fun entries (name, json) => jsonInsert name json entries) entries) := by
  induction h generalizing fields entries with
  | nil =>
    rw [List.length_nil, List.length_eq_zero_iff] at hlength
    subst hlength
    rfl
  | cons hcolumn _ ih =>
    obtain _ | ⟨f, fields⟩ := fields
    · cases hlength
    · simp only [List.length_cons, Nat.add_right_cancel_iff] at hlength
      simp [structColumnsToJson, hcolumn, ih hlength, Bind.bind, Except.bind]

theorem slot_cases {slots : List Slot} {row : Nat} (h : row < slots.length) :
    slots[row]? = some none ∨ ∃ start n, slots[row]? = some (some (start, n)) := by
  rw [List.getElem?_eq_getElem h]
  obtain _ | ⟨start, n⟩ := slots[row]
  · exact .inl rfl
  · exact .inr ⟨start, n, rfl⟩

/-- Every value of a well-formed array has its JSON. -/
theorem arrowValueToJson_decoded (env : ConvertEnv) {array : ArrowArray} (h : array.WellFormed)
    {row : Nat} (hrow : row < array.len) :
    arrowValueToJson env array row = .ok ((array.decoded env row).toJson env) := by
  induction array generalizing row with
  | primitive type cells =>
    have hadmits := h.cells_admit
    rw [arrowValueToJson, ArrowArray.decoded]
    split
    · rfl
    · rename_i hnull
      have hcell : cells[row]? = some cells[row]?.join := by
        rw [List.getElem?_eq_getElem hrow]
        rfl
      rw [leafToJson_congr (show cells[row]? = [cells[row]?.join][0]? from hcell), Decoded.toJson,
        leafToJson_logical]
      · intro hnone
        rw [hnone] at hcell
        simpa [ArrowArray.isNull, hcell] using hnull
      · intro s hs
        rw [hs] at hcell
        exact hadmits s (List.mem_of_getElem? hcell)
  | list kind elem slots values ih =>
    obtain ⟨hslots, hvalues⟩ := h.list_slots
    simp only [arrowValueToJson, ArrowArray.decoded, ArrowArray.isNull]
    obtain hslot | ⟨start, n, hslot⟩ := slot_cases hrow
    · simp [hslot, Decoded.toJson]
    · have hend := hslots start n (List.mem_of_getElem? hslot)
      have hitems : ((List.range n).mapM fun i => arrowValueToJson env values (start + i)) =
          .ok ((List.range n).map fun i => (values.decoded env (start + i)).toJson env) :=
        mapM_ok fun i hi => ih hvalues (by rw [List.mem_range] at hi; omega)
      simp [hslot, listSlot, hitems, Decoded.toJson, Bind.bind, Except.bind, pure, Except.pure,
        Function.comp_def]
  | struct fields validity columns ih =>
    obtain ⟨htypes, hlengths, hcolumns⟩ := h.struct_columns
    simp only [arrowValueToJson, ArrowArray.decoded, ArrowArray.isNull]
    have hvalid : validity[row]? = some validity[row] := List.getElem?_eq_getElem hrow
    cases hcase : validity[row] with
    | false => simp [hvalid, hcase, Decoded.toJson]
    | true =>
      have hvalues : List.Forall₂ (fun column json => arrowValueToJson env column row = .ok json)
          columns (columns.map fun column => (column.decoded env row).toJson env) := by
        rw [List.forall₂_map_right_iff, List.forall₂_same]
        intro column hc
        exact ih column hc (hcolumns column hc) (by rw [hlengths column hc]; exact hrow)
      have hlength : fields.length = columns.length := by
        simpa using (congrArg List.length htypes).symm
      simp [hvalid, hcase, structColumnsToJson_ok hvalues hlength, Decoded.toJson,
        Function.comp_def]
  | map entries sorted slots values ih =>
    simp only [arrowValueToJson, ArrowArray.decoded, ArrowArray.isNull]
    obtain hslot | ⟨start, n, hslot⟩ := slot_cases hrow
    · simp [hslot, Decoded.toJson]
    · simp [hslot, Decoded.toJson]
  | dictionary key value keys values ih =>
    obtain ⟨hkey, hkeys, hvalues⟩ := h.dictionary_keys
    simp only [arrowValueToJson, ArrowArray.decoded, ArrowArray.isNull]
    have hentry : keys[row]? = some keys[row] := List.getElem?_eq_getElem hrow
    cases hcase : keys[row] with
    | none => simp [hentry, hcase, Decoded.toJson]
    | some k =>
      rw [hcase] at hentry
      obtain ⟨hk, hlt⟩ := hkeys k (List.mem_of_getElem? hentry)
      have hlt : k.toNat < values.len := by omega
      simp [hentry, dictionaryKeyToUsize_key hkey hentry hk, not_le.mpr hlt, ih hvalues hlt,
        Bind.bind, Except.bind]

end

end PgLance
