import PgLance.Fdw.Decoded
import PgLance.Library.Decimal
import PgLance.Library.RunningBest
import PgLance.Write.Aggregate

/-! The extremum of a column is the one of its values, and a decimal is written exactly. -/

namespace PgLance

open Decimal

/-! Decimals. -/

theorem toList_toString_int (value : Int) : (toString value).toList =
    (if value < 0 then ['-'] else []) ++ Nat.toDigits 10 value.natAbs := by
  rw [Int.toString_eq_repr, Int.repr_eq_if]
  by_cases h : 0 ≤ value
  · rw [if_pos h, if_neg (by omega), Nat.toList_repr, List.nil_append,
      show value.natAbs = value.toNat by omega]
  · have hminus : "-".toList = ['-'] := by decide
    rw [if_neg h, if_pos (by omega), String.toList_append, Nat.toList_repr, hminus,
      show value.natAbs = (-value).toNat by omega]

theorem sign_mul_natAbs (value : Int) :
    (if decide (value < 0) = true then -1 else 1 : ℚ) * (value.natAbs : ℚ) = value := by
  simp only [Nat.cast_natAbs, decide_eq_true_eq]
  split
  · rw [abs_of_neg ‹_›]
    push_cast
    ring
  · rw [abs_of_nonneg (by omega), one_mul]

theorem isDigit_toDigits (n : Nat) : ∀ c ∈ Nat.toDigits 10 n, c.isDigit = true :=
  fun _ hc => Nat.isDigit_of_mem_toDigits (by decide) (by decide) hc

theorem isDigit_zeros (n : Nat) : ∀ c ∈ List.replicate n '0', c.isDigit = true := by
  intro c hc
  rw [List.eq_of_mem_replicate hc]
  decide

theorem repeatZero_ok {n : Nat} (h : n ≤ 128) : repeatZero n = .ok (List.replicate n '0') := by
  rw [repeatZero, i64Max, if_pos (by omega)]

theorem padDigits_ok (n : Nat) {scale : Nat} (h : scale ≤ 127) :
    ∃ digits, padDigits (Nat.toDigits 10 n) scale = .ok digits ∧ scale < digits.length ∧
      (∀ c ∈ digits, c.isDigit = true) ∧ Literal.natValue digits = n := by
  rw [padDigits]
  split
  · rename_i hshort
    refine ⟨List.replicate (scale + 1 - (Nat.toDigits 10 n).length) '0' ++ Nat.toDigits 10 n,
      ?_, ?_, ?_, ?_⟩
    · rw [repeatZero_ok (by omega)]
      rfl
    · rw [List.length_append, List.length_replicate]
      omega
    · intro c hc
      obtain hzero | hdigit := List.mem_append.mp hc
      · exact isDigit_zeros _ c hzero
      · exact isDigit_toDigits n c hdigit
    · rw [Literal.natValue_append, Literal.natValue_zeros, Literal.natValue_toDigits, Nat.zero_mul,
        Nat.zero_add]
  · rename_i hlong
    exact ⟨_, rfl, by omega, isDigit_toDigits n, Literal.natValue_toDigits n⟩

def IsDecimalText (value scale : Int) (text : List Char) : Prop :=
  (∃ l : Literal, l.text = text ∧ l.fraction.length = scale.toNat) ∧
    ∀ q, Denotes text q ↔ q = value * (10 : ℚ) ^ (-scale)

theorem isDecimalText_of_literal {value scale : Int} {text : List Char} (l : Literal)
    (htext : l.text = text) (hlength : l.fraction.length = scale.toNat)
    (hvalue : l.value = value * (10 : ℚ) ^ (-scale)) : IsDecimalText value scale text := by
  refine ⟨⟨l, htext, hlength⟩, fun q => ?_⟩
  rw [← htext, denotes_text, hvalue]

theorem formatDecimal128_nonpos (value : Int) {scale : Int} (h : -128 < scale) (h' : scale ≤ 0) :
    ∃ text, formatDecimal128 value scale = .ok text ∧
      IsDecimalText value scale text.toList := by
  have hneg : asUsize (i8Neg scale) = scale.natAbs := by
    rw [asUsize, i8Neg, Int.bmod_eq_of_le (by omega) (by omega)]
    omega
  refine ⟨toString value ++ String.ofList (List.replicate scale.natAbs '0'), ?_, ?_⟩
  · rw [formatDecimal128, if_pos h', hneg, repeatZero_ok (by omega)]
    rfl
  · refine isDecimalText_of_literal
      ⟨decide (value < 0), Nat.toDigits 10 value.natAbs ++ List.replicate scale.natAbs '0', [],
        by simp [Nat.toDigits_ne_nil], ?_, nofun⟩ ?_ ?_ ?_
    · intro c hc
      obtain hdigit | hzero := List.mem_append.mp hc
      · exact isDigit_toDigits _ c hdigit
      · exact isDigit_zeros _ c hzero
    · rw [Literal.text, String.toList_append, toList_toString_int, String.toList_ofList]
      simp
    · rw [List.length_nil]
      omega
    · rw [Literal.value_of_append (List.append_nil _), Literal.natValue_append,
        Literal.natValue_zeros, Literal.natValue_toDigits, List.length_replicate]
      have hpow : (10 : ℚ) ^ (-scale) = 10 ^ scale.natAbs := by
        rw [show -scale = (scale.natAbs : Int) by omega, zpow_natCast]
      rw [hpow, ← sign_mul_natAbs value]
      push_cast
      simp only [List.length_nil, pow_zero, div_one, add_zero]
      ring

theorem formatDecimal128_pos (value : Int) {scale : Int} (h : 0 < scale) (h' : scale ≤ 127) :
    ∃ text, formatDecimal128 value scale = .ok text ∧
      IsDecimalText value scale text.toList := by
  have hscale : asUsize scale = scale.toNat := by
    rw [asUsize]
    omega
  have hmax : scale.toNat ≤ 127 := by omega
  obtain ⟨digits, hpad, hlength, hdigits, hvalue⟩ := padDigits_ok value.natAbs hmax
  have hfraction : (digits.drop (digits.length - scale.toNat)).length = scale.toNat := by
    rw [List.length_drop]
    omega
  have hne : digits.drop (digits.length - scale.toNat) ≠ [] := by
    rw [← List.length_pos_iff, hfraction]
    omega
  refine ⟨String.ofList ((if value < 0 then ['-'] else []) ++
    digits.take (digits.length - scale.toNat) ++
      '.' :: digits.drop (digits.length - scale.toNat)), ?_, ?_⟩
  · rw [formatDecimal128, if_neg (by omega), hscale]
    simp only [hpad]
    by_cases hnegative : value < 0
    · simp only [hnegative, if_true]
      rfl
    · simp only [hnegative, if_false]
      rfl
  · refine isDecimalText_of_literal
      ⟨decide (value < 0), digits.take (digits.length - scale.toNat),
        digits.drop (digits.length - scale.toNat), ?_, fun c hc => hdigits c (List.mem_of_mem_take hc),
        fun c hc => hdigits c (List.mem_of_mem_drop hc)⟩ ?_ hfraction ?_
    · rw [← List.length_pos_iff, List.length_take]
      omega
    · simp [Literal.text, hne]
    · have hpow : (10 : ℚ) ^ (-scale) = (10 ^ scale.toNat)⁻¹ := by
        rw [zpow_neg, ← zpow_natCast, show ((scale.toNat : Nat) : Int) = scale by omega]
      rw [Literal.value_of_append (List.take_append_drop _ _), hvalue, hfraction, hpow,
        ← sign_mul_natAbs value]
      ring

theorem formatDecimal128_least (value : Int) :
    formatDecimal128 value (-128) = .error (.panicked "capacity overflow") := by
  have hneg : asUsize (i8Neg (-128)) = 2 ^ 64 - 128 := by decide
  rw [formatDecimal128, if_pos (by decide), hneg, repeatZero, i64Max, if_neg (by decide)]
  rfl

/-- A decimal is written exactly at every scale but the least. -/
theorem formatDecimal128_exact_iff (value : Int) {scale : Int}
    (h : -128 ≤ scale ∧ scale ≤ 127) :
    (∃ text, formatDecimal128 value scale = .ok text ∧ IsDecimalText value scale text.toList) ↔
      scale ≠ -128 := by
  constructor
  · rintro ⟨text, htext, -⟩ rfl
    rw [formatDecimal128_least] at htext
    cases htext
  · intro hne
    by_cases hpos : 0 < scale
    · exact formatDecimal128_pos value hpos h.2
    · exact formatDecimal128_nonpos value (by omega) (by omega)

theorem formatDecimal128_exact_iff_cents :
    (∃ text, formatDecimal128 (-5) 2 = .ok text ∧ IsDecimalText (-5) 2 text.toList) ↔
      (2 : Int) ≠ -128 :=
  formatDecimal128_exact_iff (-5) (by decide)

theorem formatDecimal128_overflow : ¬ ∃ text, formatDecimal128 1 (-128) = .ok text ∧
    IsDecimalText 1 (-128) text.toList := by
  rintro ⟨text, htext, -⟩
  rw [formatDecimal128_least] at htext
  cases htext

example : formatDecimal128 (-5) 2 = .ok "-0.05" := by decide

/-! Extrema. -/

def LeafType.isOrdered : LeafType → Bool
  | .int8 | .int16 | .int32 | .int64 | .uint8 | .uint16 | .uint32 | .uint64
  | .date32 | .date64 | .timestamp _ _ | .decimal128 _ _ => true
  | _ => false

def ExtremumState.ordValue : ExtremumState → Option Int
  | .int8 value | .int16 value | .int32 value | .int64 value
  | .uint8 value | .uint16 value | .uint32 value | .uint64 value
  | .date32 value | .date64 value
  | .timestampSecond value _ | .timestampMillisecond value _
  | .timestampMicrosecond value _ | .timestampNanosecond value _
  | .decimal128 value _ => value
  | .float32 _ | .float64 _ => none

def Extremum.better : Extremum → Int → Int → Prop
  | .min => (· < ·)
  | .max => (· > ·)

instance (op : Extremum) : DecidableRel op.better := fun a b =>
  match op with
  | .min => inferInstanceAs (Decidable (a < b))
  | .max => inferInstanceAs (Decidable (a > b))

instance (op : Extremum) : IsStrictTotalOrder Int op.better := by
  cases op
  · exact inferInstanceAs (IsStrictTotalOrder Int (· < ·))
  · exact inferInstanceAs (IsStrictTotalOrder Int (· > ·))

/-- The least or the greatest of some values, and none where there is none. -/
def IsExtremum (op : Extremum) (values : List Int) : Option Int → Prop
  | none => values = []
  | some best => best ∈ values ∧
    ∀ v ∈ values, match op with
      | .min => best ≤ v
      | .max => v ≤ best

theorem isExtremum_iff {op : Extremum} {values : List Int} {best : Option Int} :
    IsExtremum op values best ↔ RunningBest.IsBest op.better values best := by
  cases best with
  | none => rfl
  | some best => cases op <;> simp [IsExtremum, RunningBest.IsBest, Extremum.better]

theorem IsExtremum.eq_none_iff {op : Extremum} {values : List Int} {best : Option Int}
    (h : IsExtremum op values best) : best = none ↔ values = [] := by
  cases best with
  | none => exact iff_of_true rfl h
  | some best =>
    refine iff_of_false (by simp) fun hnil => ?_
    rw [hnil] at h
    exact absurd h.1 List.not_mem_nil

theorem reduceOption_eq_nil_iff_forall {α : Type*} (cells : List (Option α)) :
    cells.reduceOption = [] ↔ ∀ cell ∈ cells, cell = none := by
  rw [List.reduceOption, List.filterMap_eq_nil_iff]
  rfl

theorem updateOrd_eq (current : Option Int) (array : List (Option Int)) (op : Extremum) :
    updateOrd current array op =
      array.reduceOption.foldl (RunningBest.keep op.better) current := by
  have hstep : ∀ (current : Option Int) (value : Int),
      (if shouldReplace current value op then some value else current) =
        RunningBest.keep op.better current value := by
    intro current value
    cases current with
    | none => rfl
    | some best =>
      have hreplace : shouldReplace (some best) value op = true ↔ op.better value best := by
        cases op <;> simp [shouldReplace, Extremum.better]
      simp only [RunningBest.keep, hreplace]
  induction array generalizing current with
  | nil => rfl
  | cons cell array ih =>
    cases cell with
    | none => exact ih current
    | some value =>
      rw [List.reduceOption_cons_of_some, List.foldl_cons, ← hstep, ← ih]
      rfl

theorem isExtremum_updateOrd (op : Extremum) (cells : List (Option Int)) :
    IsExtremum op cells.reduceOption (updateOrd none cells op) := by
  have hnone : RunningBest.IsBest op.better [] none := rfl
  rw [isExtremum_iff, updateOrd_eq]
  exact RunningBest.isBest_foldl hnone _

theorem updateOrd_append (current : Option Int) (xs ys : List (Option Int)) (op : Extremum) :
    updateOrd current (xs ++ ys) op = updateOrd (updateOrd current xs op) ys op :=
  List.foldl_append

def intCells (cells : List (Option Int)) : List (Option Scalar) := cells.map (Option.map .int)

theorem typedArray_intCells {is : LeafType → Bool} {type : LeafType} (h : is type = true)
    (label : String) (cells : List (Option Int)) :
    typedArray is Scalar.toInt? label (.primitive type (intCells cells)) = .ok cells := by
  have hcells : (intCells cells).mapM (fun c => c.elim (some none) fun s =>
      s.toInt?.map some) = some cells := by
    induction cells with
    | nil => rfl
    | cons cell cells ih =>
      rw [intCells, List.map_cons, List.mapM_cons, ← intCells, ih]
      cases cell <;> rfl
  rw [typedArray, if_pos h, hcells]

theorem ordState_spec {type : LeafType} (h : type.isOrdered = true)
    (displayDataType : DataType → String) :
    ∃ wrap : Option Int → ExtremumState,
      ExtremumState.new displayDataType (.leaf type) = .ok (wrap none) ∧
      (∀ current, (wrap current).ordValue = current) ∧
      (type.isInteger = true → ∀ env current, (wrap current).finish env =
        .ok (current.map toString)) ∧
      ∀ current cells op, (wrap current).update (.primitive type (intCells cells)) op =
        .ok (wrap (updateOrd current cells op)) := by
  have hint : ∀ (t : LeafType) (label : String) (cells : List (Option Int)),
      ExtremumState.intArray t label (.primitive t (intCells cells)) = .ok cells :=
    fun t label cells => typedArray_intCells (by simp) label cells
  have htimestamp : ∀ (unit : TimeUnit) (tz : Option String) (label : String)
      (cells : List (Option Int)), ExtremumState.timestampArray unit label
        (.primitive (.timestamp unit tz) (intCells cells)) = .ok cells :=
    fun unit tz label cells => typedArray_intCells (by simp [LeafType.isTimestamp]) label cells
  cases type with
  | int8 =>
    exact ⟨.int8, rfl, fun _ => rfl, fun _ _ _ => rfl, fun _ _ _ => by
      rw [ExtremumState.update, hint]; rfl⟩
  | int16 =>
    exact ⟨.int16, rfl, fun _ => rfl, fun _ _ _ => rfl, fun _ _ _ => by
      rw [ExtremumState.update, hint]; rfl⟩
  | int32 =>
    exact ⟨.int32, rfl, fun _ => rfl, fun _ _ _ => rfl, fun _ _ _ => by
      rw [ExtremumState.update, hint]; rfl⟩
  | int64 =>
    exact ⟨.int64, rfl, fun _ => rfl, fun _ _ _ => rfl, fun _ _ _ => by
      rw [ExtremumState.update, hint]; rfl⟩
  | uint8 =>
    exact ⟨.uint8, rfl, fun _ => rfl, fun _ _ _ => rfl, fun _ _ _ => by
      rw [ExtremumState.update, hint]; rfl⟩
  | uint16 =>
    exact ⟨.uint16, rfl, fun _ => rfl, fun _ _ _ => rfl, fun _ _ _ => by
      rw [ExtremumState.update, hint]; rfl⟩
  | uint32 =>
    exact ⟨.uint32, rfl, fun _ => rfl, fun _ _ _ => rfl, fun _ _ _ => by
      rw [ExtremumState.update, hint]; rfl⟩
  | uint64 =>
    exact ⟨.uint64, rfl, fun _ => rfl, fun _ _ _ => rfl, fun _ _ _ => by
      rw [ExtremumState.update, hint]; rfl⟩
  | date32 =>
    exact ⟨.date32, rfl, fun _ => rfl, nofun, fun _ _ _ => by
      rw [ExtremumState.update, hint]; rfl⟩
  | date64 =>
    exact ⟨.date64, rfl, fun _ => rfl, nofun, fun _ _ _ => by
      rw [ExtremumState.update, hint]; rfl⟩
  | timestamp unit tz =>
    cases unit with
    | second =>
      exact ⟨(.timestampSecond · tz.isSome), rfl, fun _ => rfl, nofun, fun _ _ _ => by
        rw [ExtremumState.update, htimestamp]; rfl⟩
    | millisecond =>
      exact ⟨(.timestampMillisecond · tz.isSome), rfl, fun _ => rfl, nofun, fun _ _ _ => by
        rw [ExtremumState.update, htimestamp]; rfl⟩
    | microsecond =>
      exact ⟨(.timestampMicrosecond · tz.isSome), rfl, fun _ => rfl, nofun, fun _ _ _ => by
        rw [ExtremumState.update, htimestamp]; rfl⟩
    | nanosecond =>
      exact ⟨(.timestampNanosecond · tz.isSome), rfl, fun _ => rfl, nofun, fun _ _ _ => by
        rw [ExtremumState.update, htimestamp]; rfl⟩
  | decimal128 precision scale =>
    refine ⟨(.decimal128 · scale), rfl, fun _ => rfl, nofun, fun current cells op => ?_⟩
    rw [ExtremumState.update, typedArray_intCells rfl]
    rfl
  | _ => cases h

structure ColumnBatch (type : LeafType) where
  batch : RecordBatch
  cells : List (Option Int)
  column : batch.columns.head? = some (.primitive type (intCells cells))

def ColumnBatch.ofCells (name : String) (type : LeafType) (cells : List (Option Int)) :
    ColumnBatch type where
  batch :=
    { schema := [⟨name, .leaf type, true⟩]
      columns := [.primitive type (intCells cells)]
      numRows := cells.length
      types := rfl
      lengths := by simp [ArrowArray.len, intCells] }
  cells := cells
  column := rfl

def cellsOf {type : LeafType} (batches : List (ColumnBatch type)) : List (Option Int) :=
  batches.flatMap ColumnBatch.cells

def streamOf {type : LeafType} (batches : List (ColumnBatch type)) : BatchStream :=
  batches.map fun b => .ok b.batch

theorem readBatches_cons {type : LeafType} (b : ColumnBatch type) (op : Extremum)
    (state : ExtremumState) (stream : BatchStream) :
    readBatches op state (.ok b.batch :: stream) = (do
      let state ← orFail (state.update (.primitive type (intCells b.cells)) op)
      readBatches op state stream) := by
  have hcolumn := b.column
  rw [readBatches]
  split
  · rename_i hnil
    rw [hnil] at hcolumn
    cases hcolumn
  · rename_i column columns hcons
    rw [hcons, List.head?_cons, Option.some.injEq] at hcolumn
    rw [hcolumn]

theorem readBatches_streamOf {type : LeafType} {op : Extremum}
    {wrap : Option Int → ExtremumState}
    (hupdate : ∀ current cells op, (wrap current).update (.primitive type (intCells cells)) op =
      .ok (wrap (updateOrd current cells op)))
    (batches : List (ColumnBatch type)) (current : Option Int) :
    readBatches op (wrap current) (streamOf batches) =
      .ok (wrap (updateOrd current (cellsOf batches) op)) := by
  induction batches generalizing current with
  | nil => rfl
  | cons b batches ih =>
    rw [streamOf, List.map_cons, readBatches_cons, hupdate, cellsOf, List.flatMap_cons,
      updateOrd_append]
    exact ih _

structure Scans (d : ScannedDataset) (columnName : String) (type : LeafType)
    (batches : List (ColumnBatch type)) : Prop where
  field : ∃ field, d.fields.find? (·.name == columnName) = some field ∧
    field.dataType = .leaf type
  project : d.project columnName = .ok ()
  stream : d.tryIntoStream columnName = .ok (streamOf batches)

theorem lanceExtremumImpl_of_scans {env : AggregateEnv} {d : ScannedDataset} {columnName : String}
    {type : LeafType} {batches : List (ColumnBatch type)} (h : Scans d columnName type batches)
    {op : Extremum} {start state : ExtremumState}
    (hstart : ExtremumState.new env.displayDataType (.leaf type) = .ok start)
    (hstate : readBatches op start (streamOf batches) = .ok state) {host : Host}
    (hruntime : host.runtimeNew = .ok ()) :
    lanceExtremumImpl env host (.ok d) columnName op = (state.finish env).map fun value =>
      (value, env.displayDataType (.leaf type), host.elapsedMs) := by
  obtain ⟨field, hfind, htype⟩ := h.field
  simp only [lanceExtremumImpl, hruntime, hfind, h.project, h.stream, htype, hstart, hstate,
    orFail, Except.mapError, bind, Except.bind]
  cases state.finish env <;> rfl

/-- The value held after a scan is the extremum of the column, however the rows stand and the
batches divide them. -/
theorem extremum_of_scan (env : AggregateEnv) (op : Extremum) {type : LeafType}
    (htype : type.isOrdered = true) (batches : List (ColumnBatch type)) :
    ∃ start state, ExtremumState.new env.displayDataType (.leaf type) = .ok start ∧
      readBatches op start (streamOf batches) = .ok state ∧
      IsExtremum op (cellsOf batches).reduceOption state.ordValue ∧
      (state.ordValue = none ↔ ∀ cell ∈ cellsOf batches, cell = none) ∧
      ∀ batches' : List (ColumnBatch type), (cellsOf batches').Perm (cellsOf batches) →
        readBatches op start (streamOf batches') = .ok state ∧
        ∀ host d columnName, host.runtimeNew = .ok () → Scans d columnName type batches' →
          lanceExtremumImpl env host (.ok d) columnName op = (state.finish env).map fun value =>
            (value, env.displayDataType (.leaf type), host.elapsedMs) := by
  obtain ⟨wrap, hnew, hvalue, -, hupdate⟩ := ordState_spec htype env.displayDataType
  have hbest : ∀ bs : List (ColumnBatch type), IsExtremum op (cellsOf bs).reduceOption
      (updateOrd none (cellsOf bs) op) := fun bs => isExtremum_updateOrd op (cellsOf bs)
  have hsame : ∀ bs : List (ColumnBatch type), (cellsOf bs).Perm (cellsOf batches) →
      readBatches op (wrap none) (streamOf bs) =
        .ok (wrap (updateOrd none (cellsOf batches) op)) := by
    intro bs hperm
    have hother := (isExtremum_iff.mp (hbest bs)).of_perm (hperm.filterMap id)
    rw [readBatches_streamOf hupdate, hother.unique (isExtremum_iff.mp (hbest batches))]
  refine ⟨wrap none, wrap (updateOrd none (cellsOf batches) op), hnew, hsame batches (.refl _),
    ?_, ?_, fun batches' hperm => ⟨hsame batches' hperm, ?_⟩⟩
  · rw [hvalue]
    exact hbest batches
  · rw [hvalue, ← reduceOption_eq_nil_iff_forall, ← (hbest batches).eq_none_iff]
  · intro host d columnName hruntime hscans
    exact lanceExtremumImpl_of_scans hscans hnew (hsame batches' hperm) hruntime

def AggregateEnv.sample : AggregateEnv where
  DateTime := Int
  naiveDateFromEpochDays _ := none
  fromTimestampMillis := some
  fromTimestampMicros := some
  dateNaive _ := ⟨1970, 1, 1⟩
  formatDate date := toString date.year
  formatNaiveUtc := toString
  toRfc3339Micros := toString
  displayF32 := toString
  displayF64 := toString
  displayDataType := reprStr

theorem extremum_of_scan_int32 : ∃ start state,
    ExtremumState.new AggregateEnv.sample.displayDataType (.leaf .int32) = .ok start ∧
      readBatches .min start (streamOf [.ofCells "c" .int32 [none, some 3], .ofCells "c" .int32 [],
        .ofCells "c" .int32 [some 1, none]]) = .ok state ∧
      IsExtremum .min [3, 1] state.ordValue := by
  obtain ⟨start, state, hnew, hread, hbest, -⟩ := extremum_of_scan AggregateEnv.sample .min
    (show LeafType.int32.isOrdered = true from rfl)
    [.ofCells "c" .int32 [none, some 3], .ofCells "c" .int32 [],
      .ofCells "c" .int32 [some 1, none]]
  exact ⟨start, state, hnew, hread, hbest⟩

end PgLance
