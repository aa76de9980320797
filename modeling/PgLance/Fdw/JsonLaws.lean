import PgLance.Fdw.Decoded
import PgLance.Library.Lookup

/-! What the JSON of a value shows of it. -/

namespace PgLance

open Fallible Lookup

inductive Step
  | item (i : Nat)
  | field (name : String)
  deriving DecidableEq, Repr

namespace Json

def child : Json → Step → Option Json
  | .array items, .item i => items[i]?
  | .object entries, .field name => entries.lookup name
  | _, _ => none

def find : Json → List Step → Option Json
  | json, [] => some json
  | json, step :: path => (json.child step).bind fun child => child.find path

end Json

namespace Decoded

/-- Of the fields of one name the last, which is the one that `Map::insert` leaves. -/
def child : Decoded → Step → Option Decoded
  | .list items, .item i => items[i]?
  | .struct names items, .field name => (names.zip items).reverse.lookup name
  | _, _ => none

def find : Decoded → List Step → Option Decoded
  | x, [] => some x
  | x, step :: path => (x.child step).bind fun child => child.find path

inductive IntegerAt : Decoded → List Step → LeafType → Int → Prop
  | leaf {type : LeafType} {i : Int} : type.isInteger = true →
    IntegerAt (.leaf type (some (.int i))) [] type i
  | list {items : List Decoded} {k : Nat} {x : Decoded} {path : List Step} {type : LeafType}
    {i : Int} : items[k]? = some x → IntegerAt x path type i →
    IntegerAt (.list items) (.item k :: path) type i
  | struct {names : List String} {items : List Decoded} {name : String} {x : Decoded}
    {path : List Step} {type : LeafType} {i : Int} : (name, x) ∈ names.zip items →
    IntegerAt x path type i → IntegerAt (.struct names items) (.field name :: path) type i

end Decoded

theorem lookup_jsonInsert (name key : String) (value : Json) (entries : List (String × Json)) :
    (jsonInsert name value entries).lookup key =
      if key = name then some value else entries.lookup key := by
  induction entries with
  | nil => rw [jsonInsert, lookup_cons_eq]
  | cons entry entries ih =>
    obtain ⟨other, old⟩ := entry
    simp only [jsonInsert]
    split
    · rename_i h
      rw [h, lookup_cons_eq, lookup_cons_eq]
      split <;> rfl
    · split
      · rw [lookup_cons_eq]
      · rename_i hne _
        rw [lookup_cons_eq, ih, lookup_cons_eq]
        by_cases h : key = other
        · rw [if_pos h, if_pos h, if_neg (h ▸ Ne.symm hne)]
        · rw [if_neg h, if_neg h]

theorem lookup_foldl_jsonInsert (pairs entries : List (String × Json)) (key : String) :
    (pairs.foldl (fun entries (name, json) => jsonInsert name json entries) entries).lookup key =
      (pairs.reverse ++ entries).lookup key := by
  induction pairs generalizing entries with
  | nil => rfl
  | cons pair pairs ih =>
    obtain ⟨name, json⟩ := pair
    rw [List.foldl_cons, ih, List.reverse_cons, List.append_assoc, List.lookup_append,
      List.lookup_append, List.singleton_append, lookup_jsonInsert, lookup_cons_eq]

section

variable (env : ConvertEnv)

theorem leafToJson_child {type : LeafType} {cells : List (Option Scalar)} {row : Nat} {json : Json}
    (h : leafToJson env type cells row = .ok json) (step : Step) : json.child step = none := by
  cases type <;> simp only [leafToJson, bind_ok_iff, pure, Except.pure, Except.ok.injEq] at h
  case float16 | float32 | float64 =>
    obtain ⟨bits, -, rfl⟩ := h
    rw [jsonFloat]
    split <;> rfl
  all_goals
    obtain ⟨_, -, rfl⟩ := h
    rfl

theorem toJson_child (x : Decoded) (step : Step) :
    (x.toJson env).child step = (x.child step).map (Decoded.toJson env) := by
  cases x with
  | null | map => cases step <;> rfl
  | leaf type cell =>
    have hnone : (Decoded.leaf type cell).child step = none := by cases step <;> rfl
    rw [hnone, Decoded.toJson]
    cases hjson : leafToJson env type [cell] 0 with
    | error e => cases step <;> rfl
    | ok json => exact leafToJson_child env hjson step
  | list items =>
    cases step with
    | item i => simp [Decoded.toJson, Json.child, Decoded.child]
    | field name => rfl
  | struct names items =>
    cases step with
    | item i => rfl
    | field name =>
      simp only [Decoded.toJson, Json.child, Decoded.child, lookup_foldl_jsonInsert,
        List.append_nil, Decoded.itemsToJson_eq, List.zip_map_right, ← List.map_reverse,
        lookup_map_snd]

theorem toJson_find (x : Decoded) (path : List Step) :
    (x.toJson env).find path = (x.find path).map (Decoded.toJson env) := by
  induction path generalizing x with
  | nil => rfl
  | cons step path ih =>
    rw [Json.find, Decoded.find, toJson_child, Option.bind_map, Option.map_bind]
    exact Option.bind_congr fun child _ => ih child

theorem Cells.int_ok {cells : List (Option Scalar)} {row : Nat} {array : String} {w : Int}
    (h : Cells.int cells row array = .ok w) : cells[row]? = some (some (.int w)) := by
  rw [Cells.int] at h
  split at h
  · cases h
    assumption
  · cases h

theorem leafToJson_number {type : LeafType} {cells : List (Option Scalar)} {row : Nat} {i : Int}
    (h : leafToJson env type cells row = .ok (jsonNumber i)) :
    type.isInteger = true ∧ ∃ w, cells[row]? = some (some (.int w)) := by
  cases type <;> simp only [leafToJson, bind_ok_iff, pure, Except.pure, Except.ok.injEq] at h
  case int8 | int16 | int32 | int64 | uint8 | uint16 | uint32 | uint64 =>
    obtain ⟨w, hw, -⟩ := h
    exact ⟨rfl, w, Cells.int_ok hw⟩
  case float16 | float32 | float64 =>
    obtain ⟨bits, -, hbits⟩ := h
    rw [jsonFloat] at hbits
    split at hbits <;> cases hbits
  all_goals obtain ⟨_, -, ⟨⟩⟩ := h

theorem toJson_integer {type : LeafType} (h : type.isInteger = true) (w : Int) :
    Decoded.toJson env (.leaf type (some (.int w))) =
      jsonNumber (if type = .uint64 then i64Wrap w else w) := by
  cases type <;> first | rfl | cases h

theorem toJson_eq_number {x : Decoded} {i : Int} (h : x.toJson env = jsonNumber i) :
    ∃ type w, type.isInteger = true ∧ x = .leaf type (some (.int w)) ∧
      (if type = .uint64 then i64Wrap w else w) = i := by
  cases x with
  | leaf type cell =>
    rw [Decoded.toJson] at h
    cases hjson : leafToJson env type [cell] 0 with
    | error e => simp [hjson, Except.toOption, jsonNumber] at h
    | ok json =>
      rw [hjson] at h
      obtain ⟨hinteger, w, hw⟩ := leafToJson_number env (hjson.trans (congrArg Except.ok h))
      obtain rfl : cell = some (.int w) := by simpa using hw
      have hnumber := toJson_integer env hinteger w
      rw [Decoded.toJson, hjson] at hnumber
      exact ⟨type, w, hinteger, rfl, by simpa [jsonNumber] using hnumber.symm.trans h⟩
  | _ => cases h

end

namespace Decoded

theorem IntegerAt.isInteger {x : Decoded} {path : List Step} {type : LeafType} {i : Int}
    (h : IntegerAt x path type i) : type.isInteger = true := by
  induction h with
  | leaf h => exact h
  | list _ _ ih | struct _ _ ih => exact ih

theorem integerAt_of_find {x : Decoded} {path : List Step} {type : LeafType} {i : Int}
    (hinteger : type.isInteger = true) (h : x.find path = some (.leaf type (some (.int i)))) :
    IntegerAt x path type i := by
  induction path generalizing x with
  | nil =>
    cases h
    exact .leaf hinteger
  | cons step path ih =>
    rw [find, Option.bind_eq_some_iff] at h
    obtain ⟨child, hchild, hfind⟩ := h
    cases x with
    | null | leaf | map => cases step <;> cases hchild
    | list items =>
      cases step with
      | item k => exact .list hchild (ih hfind)
      | field name => cases hchild
    | struct names items =>
      cases step with
      | item k => cases hchild
      | field name => exact .struct (List.mem_reverse.mp (mem_of_lookup hchild)) (ih hfind)

def IntegersFit (x : Decoded) : Prop :=
  ∀ path type i, IntegerAt x path type i → i ≤ i64Max ∧
    ∃ shown, LeafType.isInteger shown = true ∧ x.find path = some (.leaf shown (some (.int i)))

end Decoded

theorem LeafType.logical_of_isInteger {type : LeafType} (h : type.logical.isInteger = true) :
    type.logical = type := by
  cases type <;> first | rfl | cases h

theorem LeafType.admits_integer {type : LeafType} {i : Int} (h : type.isInteger = true)
    (hadmits : type.admits (.int i) = true) :
    i64Min ≤ i ∧ (type ≠ .uint64 → i ≤ i64Max) := by
  simp only [LeafType.admits, i64Min, i64Max] at *
  cases type with
  | uint64 =>
    simp only [LeafType.range, decide_eq_true_eq] at hadmits
    exact ⟨by omega, fun hne => absurd rfl hne⟩
  | int8 | int16 | int32 | int64 | uint8 | uint16 | uint32 =>
    simp only [LeafType.range, i64Min, i64Max, decide_eq_true_eq] at hadmits
    exact ⟨by omega, fun _ => by omega⟩
  | _ => cases h

theorem i64Wrap_eq_iff {i : Int} : i64Wrap i = i ↔ i64Min ≤ i ∧ i ≤ i64Max := by
  simp only [i64Wrap, i64Min, i64Max, Int.bmod_def]
  split <;> omega

section

variable (env : ConvertEnv)

theorem decoded_integers_admitted {array : ArrowArray} (h : array.WellFormed) {row : Nat}
    {path : List Step} {type : LeafType} {i : Int}
    (hi : Decoded.IntegerAt (array.decoded env row) path type i) :
    type.admits (.int i) = true := by
  induction array generalizing row path with
  | primitive leaf cells =>
    rw [ArrowArray.decoded] at hi
    split at hi
    · cases hi
    · generalize hjoin : cells[row]?.join = cell at hi
      cases hi with
      | leaf hinteger =>
        rw [LeafType.logical_of_isInteger hinteger]
        exact h.cells_admit _ (List.mem_of_getElem? (Option.join_eq_some_iff.mp hjoin))
  | list kind elem slots values ih =>
    simp only [ArrowArray.decoded] at hi
    split at hi
    · cases hi with
      | list hitem hi =>
        obtain ⟨k, -, rfl⟩ := List.mem_map.mp (List.mem_of_getElem? hitem)
        exact ih h.list_slots.2 hi
    · cases hi
  | struct fields validity columns ih =>
    simp only [ArrowArray.decoded] at hi
    split at hi
    · cases hi with
      | struct hitem hi =>
        rw [ArrowArray.decodedColumns_eq] at hitem
        obtain ⟨column, hcolumn, rfl⟩ := List.mem_map.mp (List.of_mem_zip hitem).2
        exact ih column hcolumn (h.struct_columns.2.2 column hcolumn) hi
    · cases hi
  | map entries sorted slots values =>
    simp only [ArrowArray.decoded] at hi
    split at hi <;> cases hi
  | dictionary key value keys values ih =>
    simp only [ArrowArray.decoded] at hi
    split at hi
    · exact ih h.dictionary_keys.2.2 hi
    · cases hi

/-- The JSON of a value has each integer in it, or there is none since one is out of range. -/
def ShowsIntegers (array : ArrowArray) (row : Nat) : Prop :=
  (∃ e, arrowValueToJson env array row = .error e ∧ e.kind = .valueOutOfRange) ∨
    ∃ json, arrowValueToJson env array row = .ok json ∧ ∀ path type i,
      Decoded.IntegerAt (array.decoded env row) path type i → json.find path = some (jsonNumber i)

def Datum.integer : Datum → Option Int
  | .int2 i | .int4 i | .int8 i => some i
  | _ => none

def ReadsInteger (type : LeafType) (cells : List (Option Scalar)) (row : Nat) (oid : Oid)
    (i : Int) : Prop :=
  if i ≤ i64Max then
    ∃ datum, arrowValueToDatum env (.primitive type cells) row oid = .ok (some datum) ∧
      datum.integer = some i
  else ∃ e, arrowValueToDatum env (.primitive type cells) row oid = .error e ∧
    e.kind = .valueOutOfRange

theorem readsInteger {type : LeafType} {cells : List (Option Scalar)} {row : Nat} {oid : Oid}
    {i : Int} (hinteger : type.isInteger = true) (hadmits : type.admits (.int i) = true)
    (hcell : cells[row]? = some (some (.int i))) (hoid : validateLeafType type oid = .ok ()) :
    ReadsInteger env type cells row oid i := by
  have hread := Cells.int_of_cell hcell
  rw [ReadsInteger, arrowValueToDatum, ArrowArray.isNull_of_cell hcell]
  cases type with
  | int8 | int16 | int32 | int64 | uint8 | uint16 | uint32 =>
    rw [validateLeafType, requireTargetOid_ok_iff] at hoid
    simp only [LeafType.admits, LeafType.range, i64Min, i64Max, decide_eq_true_eq] at hadmits
    rw [if_pos (by simp only [i64Max]; omega)]
    simp [hoid, leafToDatum, hread, Datum.integer, Bind.bind, Except.bind, Except.map, pure,
      Except.pure]
  | uint64 =>
    rw [validateLeafType, requireTargetOid_ok_iff] at hoid
    by_cases hfits : i ≤ i64Max
    · rw [if_pos hfits]
      refine ⟨.int8 i, ?_, rfl⟩
      simp [hoid, leafToDatum, hread, not_lt.mpr hfits, Bind.bind, Except.bind, Except.map, pure,
        Except.pure]
    · rw [if_neg hfits]
      refine ⟨.valueOutOfRange "arrow uint64 value out of range for postgres int8", ?_, rfl⟩
      simp [hoid, leafToDatum, hread, not_le.mp hfits, Bind.bind, Except.bind, Except.map]
  | _ => cases hinteger

end

/-- JSON shows the integers of a value exactly if they fit, and no later field of the same name
hides a different one; a column of its own shows or rejects each of them. -/
theorem showsIntegers_iff_integersFit (env : ConvertEnv) {array : ArrowArray}
    (h : array.WellFormed) {row : Nat} (hrow : row < array.len) :
    (ShowsIntegers env array row ↔ (array.decoded env row).IntegersFit) ∧
    ∀ path type i, Decoded.IntegerAt (array.decoded env row) path type i →
      ∀ cells index oid, cells[index]? = some (some (Scalar.int i)) →
        validateLeafType type oid = .ok () → ReadsInteger env type cells index oid i := by
  have hadmits : ∀ path type i, Decoded.IntegerAt (array.decoded env row) path type i →
      type.admits (.int i) = true := fun _ _ _ => decoded_integers_admitted env h
  have hinteger : ∀ path type i, Decoded.IntegerAt (array.decoded env row) path type i →
      type.isInteger = true := fun _ _ _ => Decoded.IntegerAt.isInteger
  rw [ShowsIntegers, arrowValueToJson_decoded env h hrow]
  generalize array.decoded env row = x at hadmits hinteger
  refine ⟨⟨?_, ?_⟩, ?_⟩
  · rintro (⟨e, he, -⟩ | ⟨json, hjson, hshows⟩) path type i hi
    · cases he
    · cases hjson
      have hfind := hshows path type i hi
      rw [toJson_find] at hfind
      obtain ⟨y, hy, hnumber⟩ := Option.map_eq_some_iff.mp hfind
      obtain ⟨shown, w, hshown, rfl, hw⟩ := toJson_eq_number env hnumber
      have hat := Decoded.integerAt_of_find hshown hy
      -- The integer that is found is itself one of those that JSON shows.
      have hself := hshows path shown w hat
      rw [toJson_find, hy, Option.map_some, hnumber] at hself
      obtain rfl : i = w := by simpa [jsonNumber] using hself
      refine ⟨?_, shown, hshown, hy⟩
      split at hw
      · exact (i64Wrap_eq_iff.mp hw).2
      · exact (LeafType.admits_integer hshown (hadmits path shown i hat)).2 ‹_›
  · intro hfit
    refine .inr ⟨_, rfl, fun path type i hi => ?_⟩
    obtain ⟨hmax, shown, hshown, hfind⟩ := hfit path type i hi
    have hmin := (LeafType.admits_integer hshown
      (hadmits path shown i (Decoded.integerAt_of_find hshown hfind))).1
    rw [toJson_find, hfind, Option.map_some, toJson_integer env hshown,
      i64Wrap_eq_iff.mpr ⟨hmin, hmax⟩, ite_self]
  · intro path type i hi cells index oid hcell hoid
    exact readsInteger env (hinteger path type i hi) (hadmits path type i hi) hcell hoid

def greatestArray : ArrowArray :=
  .list .list ⟨"item", .leaf .uint64, true⟩ [some (0, 1)]
    (.primitive .uint64 [some (.int (2 ^ 64 - 1))])

theorem greatestArray_wellFormed : greatestArray.WellFormed := by
  refine .list rfl ?_ (.primitive ?_)
  · intro start n h
    simp only [List.mem_singleton, Option.some.injEq, Prod.mk.injEq] at h
    obtain ⟨rfl, rfl⟩ := h
    decide
  · intro s h
    simp only [List.mem_singleton, Option.some.injEq] at h
    subst h
    decide

def plainEnv : ConvertEnv := .sample ⟨fun _ => invalidOid, fun _ => none⟩

theorem showsIntegers_iff_integersFit_greatest :
    ShowsIntegers plainEnv greatestArray 0 ↔ (greatestArray.decoded plainEnv 0).IntegersFit :=
  (showsIntegers_iff_integersFit plainEnv greatestArray_wellFormed (by decide)).1

/-- JSON shows it as -1. -/
theorem showsIntegers_changes_sign :
    arrowValueToJson plainEnv greatestArray 0 = .ok (.array [jsonNumber (-1)]) ∧
    ¬ ShowsIntegers plainEnv greatestArray 0 := by
  have hjson : arrowValueToJson plainEnv greatestArray 0 = .ok (.array [jsonNumber (-1)]) := rfl
  refine ⟨hjson, ?_⟩
  rintro (⟨e, he, -⟩ | ⟨json, hok, hshows⟩)
  · rw [hjson] at he
    cases he
  · rw [hjson] at hok
    cases hok
    have hfind := hshows [.item 0] .uint64 (2 ^ 64 - 1) (.list rfl (.leaf rfl))
    cases hfind

end PgLance
