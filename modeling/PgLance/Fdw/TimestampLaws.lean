import PgLance.Fdw.ConvertLaws
import PgLance.Write.PgToArrow

/-! The instants that timestamps are read as and written as. -/

namespace PgLance

/-- The first microsecond of 4714-11-24 BC, from 2000-01-01. -/
def minTimestamp : Int := -211813488000000000

def endTimestamp : Int := 9223371331200000000

def IsTimestamp (micros : Int) : Prop := minTimestamp ≤ micros ∧ micros < endTimestamp

def AdmitsTimestamp (micros : Int) : Prop :=
  IsTimestamp micros ∨ micros = i64Min ∨ micros = i64Max

instance (micros : Int) : Decidable (IsTimestamp micros) := inferInstanceAs (Decidable (_ ∧ _))

instance (micros : Int) : Decidable (AdmitsTimestamp micros) := inferInstanceAs (Decidable (_ ∨ _))

structure ConvertEnv.Timestamps (env : ConvertEnv) : Prop where
  accepts : ∀ micros, AdmitsTimestamp micros → env.timestampTryFrom micros = .ok micros
  rejects : ∀ micros, ¬ AdmitsTimestamp micros → ∃ e, env.timestampTryFrom micros = .error e
  acceptsTz : ∀ micros, AdmitsTimestamp micros →
    env.timestampWithTimeZoneTryFrom micros = .ok micros
  rejectsTz : ∀ micros, ¬ AdmitsTimestamp micros →
    ∃ e, env.timestampWithTimeZoneTryFrom micros = .error e

def TimeUnit.nanos : TimeUnit → Int → Int
  | .second, v => v * 1000000000
  | .millisecond, v => v * 1000000
  | .microsecond, v => v * 1000
  | .nanosecond, v => v

def TimeUnit.micros : TimeUnit → Int → Int
  | .second, v => v * 1000000
  | .millisecond, v => v * 1000
  | .microsecond, v => v
  | .nanosecond, v => v.tdiv 1000

def timestampOidOf : Option String → Oid
  | none => timestampOid
  | some _ => timestamptzOid

def timestampDatumOf : Option String → Int → Datum
  | none, micros => .timestamp micros
  | some _, micros => .timestamptz micros

theorem timestampDatumOf_inj {tz : Option String} {p q : Int} :
    timestampDatumOf tz p = timestampDatumOf tz q ↔ p = q := by
  cases tz <;> simp [timestampDatumOf]

/-- A timestamp is read as one less than a microsecond away, or rejected as out of range. -/
def ReadsInstant (env : ConvertEnv) (unit : TimeUnit) (tz : Option String)
    (cells : List (Option Scalar)) (row : Nat) (nanos : Int) : Prop :=
  (∃ micros, IsTimestamp micros ∧
    arrowValueToDatum env (.primitive (.timestamp unit tz) cells) row (timestampOidOf tz) =
      .ok (some (timestampDatumOf tz micros)) ∧
    |(micros + unixToPostgresEpochMicros) * 1000 - nanos| < 1000) ∨
  ∃ e, arrowValueToDatum env (.primitive (.timestamp unit tz) cells) row (timestampOidOf tz) =
    .error e ∧ e.kind = .valueOutOfRange

/-- Microseconds that saturation, the wrap of the difference of the epochs or an infinity turn
into another timestamp. -/
def Misread (micros : Int) : Prop :=
  i64Max < micros ∨ micros < endTimestamp + unixToPostgresEpochMicros - 2 ^ 64 ∨
    micros = i64Min + unixToPostgresEpochMicros - 1 ∨ micros = i64Min + unixToPostgresEpochMicros

instance (micros : Int) : Decidable (Misread micros) := inferInstanceAs (Decidable (_ ∨ _ ∨ _ ∨ _))

theorem i64Wrap_of_range {i : Int} (hmin : i64Min ≤ i) (hmax : i ≤ i64Max) : i64Wrap i = i := by
  simp only [i64Min, i64Max] at hmin hmax
  rw [i64Wrap, Int.bmod_def]
  split <;> omega

theorem i64Wrap_below {i : Int} (hmin : i64Min - 2 ^ 63 ≤ i) (hmax : i < i64Min) :
    i64Wrap i = i + 2 ^ 64 := by
  simp only [i64Min] at hmin hmax
  rw [i64Wrap, Int.bmod_def]
  split <;> omega

theorem i64Wrap_above {i : Int} (hmin : i64Max < i) (hmax : i ≤ i64Max + 2 ^ 63) :
    i64Wrap i = i - 2 ^ 64 := by
  simp only [i64Max] at hmin hmax
  rw [i64Wrap, Int.bmod_def]
  split <;> omega

theorem tdiv_thousand (v : Int) : v.tdiv 1000 * 1000 - v < 1000 ∧ v - v.tdiv 1000 * 1000 < 1000 := by
  have hsum := Int.mul_tdiv_add_tmod v 1000
  have hlt := Int.tmod_lt_of_pos v (show (0 : Int) < 1000 by omega)
  have hgt := Int.lt_tmod_of_pos v (show (0 : Int) < 1000 by omega)
  omega

theorem TimeUnit.nanos_micros (unit : TimeUnit) {v : Int} (hmin : i64Min ≤ v)
    (hmax : v ≤ i64Max) :
    |unit.micros v * 1000 - unit.nanos v| < 1000 ∧
      (unit.micros v < i64Min ∨ i64Max < unit.micros v → unit.nanos v = unit.micros v * 1000) := by
  cases unit with
  | second | millisecond | microsecond =>
    simp only [TimeUnit.micros, TimeUnit.nanos, abs_lt]
    omega
  | nanosecond =>
    have hdiv := tdiv_thousand v
    simp only [i64Min, i64Max] at hmin hmax
    simp only [TimeUnit.micros, TimeUnit.nanos, abs_lt, i64Min, i64Max]
    omega

theorem near_iff_not_misread {micros nanos : Int} (hnear : |micros * 1000 - nanos| < 1000)
    (hexact : micros < i64Min ∨ i64Max < micros → nanos = micros * 1000) (p : Int)
    (hp : p = i64Wrap (max i64Min (min i64Max micros) - unixToPostgresEpochMicros)) :
    (AdmitsTimestamp p →
      IsTimestamp p ∧ |(p + unixToPostgresEpochMicros) * 1000 - nanos| < 1000) ↔
      ¬ Misread micros := by
  by_cases hwraps : micros < i64Min + unixToPostgresEpochMicros
  · rw [i64Wrap_below] at hp
    all_goals
      simp only [abs_lt, i64Min, i64Max, unixToPostgresEpochMicros, AdmitsTimestamp, IsTimestamp,
        Misread, minTimestamp, endTimestamp] at *
      omega
  · rw [i64Wrap_of_range] at hp
    all_goals
      simp only [abs_lt, i64Min, i64Max, unixToPostgresEpochMicros, AdmitsTimestamp, IsTimestamp,
        Misread, minTimestamp, endTimestamp] at *
      omega

section

variable {env : ConvertEnv} {cells : List (Option Scalar)} {row : Nat}

/-- The microseconds that the code works with are the exact ones, cut to the range of `i64`. -/
theorem timestampToUnixMicros_cell (unit : TimeUnit) {v : Int} (hmin : i64Min ≤ v)
    (hmax : v ≤ i64Max) (hcell : cells[row]? = some (some (.int v))) :
    timestampToUnixMicros unit cells row = .ok (max i64Min (min i64Max (unit.micros v))) := by
  have hread := Cells.int_of_cell hcell
  cases unit with
  | second | millisecond =>
    simp only [timestampToUnixMicros, hread, Bind.bind, Except.bind, pure, Except.pure,
      i64SaturatingMul, TimeUnit.micros]
  | microsecond =>
    rw [timestampToUnixMicros, hread, TimeUnit.micros, min_eq_right hmax, max_eq_right hmin]
  | nanosecond =>
    have hdiv := tdiv_thousand v
    have hlow : i64Min ≤ v.tdiv 1000 := by
      simp only [i64Min] at hmin ⊢
      omega
    have hhigh : v.tdiv 1000 ≤ i64Max := by
      simp only [i64Max] at hmax ⊢
      omega
    simp only [timestampToUnixMicros, hread, Bind.bind, Except.bind, pure, Except.pure,
      TimeUnit.micros, min_eq_right hhigh, max_eq_right hlow]

theorem arrowValueToDatum_timestamp (h : env.Timestamps) {unit : TimeUnit} (tz : Option String)
    {v micros : Int} (hcell : cells[row]? = some (some (.int v)))
    (hmicros : timestampToUnixMicros unit cells row = .ok micros) :
    if AdmitsTimestamp (i64Wrap (micros - unixToPostgresEpochMicros)) then
      arrowValueToDatum env (.primitive (.timestamp unit tz) cells) row (timestampOidOf tz) =
        .ok (some (timestampDatumOf tz (i64Wrap (micros - unixToPostgresEpochMicros))))
    else ∃ e, e.kind = .valueOutOfRange ∧
      arrowValueToDatum env (.primitive (.timestamp unit tz) cells) row (timestampOidOf tz) =
        .error e := by
  simp only [arrowValueToDatum, ArrowArray.isNull_of_cell hcell, Bool.false_eq_true, if_false, leafToDatum, timestampToDatum,
    hmicros]
  cases tz with
  | none =>
    split
    · rename_i hadmits
      simp [timestampOidOf, timestampDatumOf, validateLeafType, requireTargetOid,
        h.accepts _ hadmits, Bind.bind, Except.bind, pure, Except.pure, Except.map]
    · rename_i hadmits
      obtain ⟨e, he⟩ := h.rejects _ hadmits
      refine ⟨.valueOutOfRange "invalid timestamp", rfl, ?_⟩
      simp [timestampOidOf, validateLeafType, requireTargetOid, he, Bind.bind, Except.bind,
        Except.map]
  | some zone =>
    split
    · rename_i hadmits
      simp [timestampOidOf, timestampDatumOf, validateLeafType, requireTargetOid,
        h.acceptsTz _ hadmits, Bind.bind, Except.bind, pure, Except.pure, Except.map]
    · rename_i hadmits
      obtain ⟨e, he⟩ := h.rejectsTz _ hadmits
      refine ⟨.valueOutOfRange "invalid timestamptz", rfl, ?_⟩
      simp [timestampOidOf, validateLeafType, requireTargetOid, he, Bind.bind, Except.bind,
        Except.map]

/-- A timestamp is read as its instant or rejected exactly if it is not one of those. -/
theorem readsInstant_iff_not_misread {env : ConvertEnv} (h : env.Timestamps) (unit : TimeUnit)
    (tz : Option String) (cells : List (Option Scalar)) (row : Nat) {v : Int} (hmin : i64Min ≤ v)
    (hmax : v ≤ i64Max) (hcell : cells[row]? = some (some (.int v))) :
    ReadsInstant env unit tz cells row (unit.nanos v) ↔ ¬ Misread (unit.micros v) := by
  obtain ⟨hnear, hexact⟩ := unit.nanos_micros hmin hmax
  have hmicros := timestampToUnixMicros_cell unit hmin hmax hcell
  have hread := arrowValueToDatum_timestamp h tz hcell hmicros
  rw [← near_iff_not_misread hnear hexact _ rfl, ReadsInstant]
  split at hread
  · rename_i hadmits
    rw [hread]
    simp only [Except.ok.injEq, Option.some.injEq, timestampDatumOf_inj, reduceCtorEq, false_and,
      exists_false, or_false, hadmits, true_imp_iff]
    constructor
    · rintro ⟨micros, hmicros, rfl, hclose⟩
      exact ⟨hmicros, hclose⟩
    · rintro ⟨hmicros, hclose⟩
      exact ⟨_, hmicros, rfl, hclose⟩
  · rename_i hadmits
    obtain ⟨e, hkind, he⟩ := hread
    exact iff_of_true (.inr ⟨e, he, hkind⟩) fun h => absurd h hadmits

end

def timestampsEnv : ConvertEnv :=
  { ConvertEnv.sample ⟨fun _ => invalidOid, fun _ => none⟩ with
    timestampTryFrom := fun micros =>
      if AdmitsTimestamp micros then .ok micros else .error "timestamp out of range"
    timestampWithTimeZoneTryFrom := fun micros =>
      if AdmitsTimestamp micros then .ok micros else .error "timestamp out of range" }

theorem timestampsEnv_timestamps : timestampsEnv.Timestamps where
  accepts _ h := if_pos h
  rejects _ h := ⟨_, if_neg h⟩
  acceptsTz _ h := if_pos h
  rejectsTz _ h := ⟨_, if_neg h⟩

theorem readsInstant_iff_not_misread_far :
    ReadsInstant timestampsEnv .second none [some (.int (10 ^ 18))] 0 (10 ^ 18 * 1000000000) ↔
      ¬ Misread (10 ^ 18 * 1000000) :=
  readsInstant_iff_not_misread timestampsEnv_timestamps .second none [some (.int (10 ^ 18))] 0
    (by decide) (by decide) rfl

/-- Seconds far beyond the years of PostgreSQL become a timestamp of the year 294247. -/
theorem readsInstant_saturates :
    arrowValueToDatum timestampsEnv (.primitive (.timestamp .second none) [some (.int (10 ^ 18))])
        0 timestampOid =
      .ok (some (.timestamp (i64Max - unixToPostgresEpochMicros))) ∧
    ¬ ReadsInstant timestampsEnv .second none [some (.int (10 ^ 18))] 0
      (10 ^ 18 * 1000000000) := by
  have hcell : [some (Scalar.int (10 ^ 18))][0]? = some (some (.int (10 ^ 18))) := rfl
  have hread := arrowValueToDatum_timestamp timestampsEnv_timestamps none hcell
    (timestampToUnixMicros_cell .second (by decide) (by decide) hcell)
  rw [show i64Wrap (max i64Min (min i64Max (TimeUnit.second.micros (10 ^ 18))) -
    unixToPostgresEpochMicros) = i64Max - unixToPostgresEpochMicros by decide,
    if_pos (by decide)] at hread
  refine ⟨hread, ?_⟩
  rw [ReadsInstant, hread]
  simp only [Except.ok.injEq, Option.some.injEq, timestampDatumOf_inj, reduceCtorEq, false_and,
    exists_false, or_false, not_exists]
  rintro micros ⟨-, rfl, hclose⟩
  exact absurd hclose (by decide)

section

variable {Raw : Type}

def TimestampAt (pgrx : Pgrx Raw) (variant : BuilderVariant) (row : SpiRow Raw) (colIndex : Nat)
    (micros : Int) : Prop :=
  ∃ entry, row[colIndex]? = some entry ∧
    ((variant = .timestampMicro ∧ pgrx.value .timestamp entry = .ok (some micros)) ∨
      (variant = .timestampMicroUtc ∧
        pgrx.value .timestampWithTimeZone entry = .ok (some micros)))

def zoneOf : BuilderVariant → Option String
  | .timestampMicroUtc => some "UTC"
  | _ => none

def StoredAs (pgrx : Pgrx Raw) (builder : TypedBuilder) (row : SpiRow Raw) (colIndex : Nat)
    (pgOid : Oid) (micros : Int) : Prop :=
  appendDatum pgrx builder row colIndex pgOid = .ok (builder.append (some (.int micros)))

/-- A timestamp is stored in exact microseconds from 1970 or rejected, and read back as it was. -/
structure StoresExactly (env : ConvertEnv) (pgrx : Pgrx Raw) (builder : TypedBuilder)
    (row : SpiRow Raw) (colIndex : Nat) (pgOid : Oid) (micros : Int) : Prop where
  exact : (∃ e, appendDatum pgrx builder row colIndex pgOid = .error e) ∨
    StoredAs pgrx builder row colIndex pgOid (micros + unixToPostgresEpochMicros)
  back : ∀ written, appendDatum pgrx builder row colIndex pgOid = .ok written →
    arrowValueToDatum env written.finish builder.cells.length
        (timestampOidOf (zoneOf builder.variant)) =
      .ok (some (timestampDatumOf (zoneOf builder.variant) micros))

structure StoresInOrder (env : ConvertEnv) (pgrx : Pgrx Raw) (builder : TypedBuilder)
    (row row' : SpiRow Raw) (colIndex : Nat) (pgOid : Oid) (p q : Int) : Prop where
  left : StoresExactly env pgrx builder row colIndex pgOid p
  right : StoresExactly env pgrx builder row' colIndex pgOid q
  order : ∀ u v, StoredAs pgrx builder row colIndex pgOid u →
    StoredAs pgrx builder row' colIndex pgOid v → (u < v ↔ p < q)

section

variable {env : ConvertEnv} {pgrx : Pgrx Raw} {builder : TypedBuilder} {row : SpiRow Raw}
  {colIndex : Nat} {pgOid : Oid} {p : Int}

theorem TimestampAt.stored (hoid : pgOid ≠ int8Oid)
    (h : TimestampAt pgrx builder.variant row colIndex p) :
    StoredAs pgrx builder row colIndex pgOid (i64Wrap (p + unixToPostgresEpochMicros)) := by
  obtain ⟨entry, hentry, ⟨hvariant, hvalue⟩ | ⟨hvariant, hvalue⟩⟩ := h
  all_goals
    simp only [StoredAs, appendDatum, hvariant, datumCell, readCell, getDatumByOrdinal, hentry,
      Option.elim_some]
    rw [hvalue]
    rfl

theorem stored_unique {u v : Int} (hu : StoredAs pgrx builder row colIndex pgOid u)
    (hv : StoredAs pgrx builder row colIndex pgOid v) : u = v := by
  have h := hu.symm.trans hv
  simpa [TypedBuilder.append] using h

theorem i64Wrap_sub_add (hmin : i64Min ≤ p) (hmax : p ≤ i64Max) (d : Int) :
    i64Wrap (i64Wrap (p + d) - d) = p := by
  rw [i64Wrap, i64Wrap, Int.bmod_sub_bmod, Int.add_sub_cancel]
  exact i64Wrap_of_range hmin hmax

theorem TimestampAt.back (henv : env.Timestamps) (hadmits : AdmitsTimestamp p)
    (hoid : pgOid ≠ int8Oid) (h : TimestampAt pgrx builder.variant row colIndex p)
    (written : TypedBuilder) (hwritten : appendDatum pgrx builder row colIndex pgOid = .ok written) :
    arrowValueToDatum env written.finish builder.cells.length
        (timestampOidOf (zoneOf builder.variant)) =
      .ok (some (timestampDatumOf (zoneOf builder.variant) p)) := by
  have hrange : i64Min ≤ p ∧ p ≤ i64Max := by
    simp only [AdmitsTimestamp, IsTimestamp, minTimestamp, endTimestamp, i64Min, i64Max] at *
    omega
  have hstored := (h.stored hoid).symm.trans hwritten
  cases hstored
  have hcell : (builder.append (some (.int (i64Wrap (p + unixToPostgresEpochMicros))))).cells[
      builder.cells.length]? = some (some (.int (i64Wrap (p + unixToPostgresEpochMicros)))) := by
    simp [TypedBuilder.append]
  have hfinish : (builder.append (some (.int (i64Wrap (p + unixToPostgresEpochMicros))))).finish =
      .primitive (.timestamp .microsecond (zoneOf builder.variant))
        (builder.append (some (.int (i64Wrap (p + unixToPostgresEpochMicros))))).cells := by
    obtain ⟨_, _, ⟨hvariant, _⟩ | ⟨hvariant, _⟩⟩ := h
    all_goals simp [TypedBuilder.finish, TypedBuilder.append, hvariant, zoneOf]
  have hmicros : timestampToUnixMicros .microsecond
      (builder.append (some (.int (i64Wrap (p + unixToPostgresEpochMicros))))).cells
      builder.cells.length = .ok (i64Wrap (p + unixToPostgresEpochMicros)) := by
    rw [timestampToUnixMicros, Cells.int_of_cell hcell]
  have hread := arrowValueToDatum_timestamp henv (zoneOf builder.variant) hcell hmicros
  rw [i64Wrap_sub_add hrange.1 hrange.2, if_pos hadmits] at hread
  rw [hfinish, hread]

theorem TimestampAt.storesExactly_iff (henv : env.Timestamps) (hadmits : AdmitsTimestamp p)
    (hoid : pgOid ≠ int8Oid) (h : TimestampAt pgrx builder.variant row colIndex p) :
    StoresExactly env pgrx builder row colIndex pgOid p ↔
      p ≤ i64Max - unixToPostgresEpochMicros := by
  have hmin : i64Min ≤ p := by
    simp only [AdmitsTimestamp, IsTimestamp, minTimestamp, i64Min, i64Max] at *
    omega
  have hmax : p ≤ i64Max := by
    simp only [AdmitsTimestamp, IsTimestamp, endTimestamp, i64Min, i64Max] at *
    omega
  have hepochs : 0 ≤ unixToPostgresEpochMicros := by decide
  have hstored := h.stored hoid
  constructor
  · intro hexact
    obtain ⟨e, he⟩ | hsum := hexact.exact
    · cases he
    · have hwrap := stored_unique hstored hsum
      by_contra hover
      rw [i64Wrap_above (by omega) (by simp only [unixToPostgresEpochMicros]; omega)] at hwrap
      omega
  · intro hfits
    refine ⟨.inr ?_, fun written hwritten => h.back henv hadmits hoid written hwritten⟩
    rwa [i64Wrap_of_range (by omega) (by omega)] at hstored

end

/-- Timestamps are stored in exact microseconds and in order exactly if no sum with the difference
of the epochs passes the last of `i64`. -/
theorem storesInOrder_iff {env : ConvertEnv} (henv : env.Timestamps) (pgrx : Pgrx Raw)
    (builder : TypedBuilder) (colIndex : Nat) {pgOid : Oid} (hoid : pgOid ≠ int8Oid)
    {row row' : SpiRow Raw} {p q : Int} (hp : TimestampAt pgrx builder.variant row colIndex p)
    (hq : TimestampAt pgrx builder.variant row' colIndex q) (hadmitsp : AdmitsTimestamp p)
    (hadmitsq : AdmitsTimestamp q) :
    StoresInOrder env pgrx builder row row' colIndex pgOid p q ↔
      p ≤ i64Max - unixToPostgresEpochMicros ∧ q ≤ i64Max - unixToPostgresEpochMicros := by
  have hexactp := hp.storesExactly_iff henv hadmitsp hoid
  have hexactq := hq.storesExactly_iff henv hadmitsq hoid
  rw [← hexactp, ← hexactq]
  constructor
  · exact fun h => ⟨h.left, h.right⟩
  · rintro ⟨hleft, hright⟩
    refine ⟨hleft, hright, ?_⟩
    intro u v hu hv
    obtain ⟨e, he⟩ | hsum := hleft.exact
    · cases he
    obtain ⟨e, he⟩ | hsum' := hright.exact
    · cases he
    rw [stored_unique hu hsum, stored_unique hv hsum']
    omega

theorem storesInOrder_iff_infinity :
    StoresInOrder timestampsEnv Pgrx.sample ⟨.timestampMicro, 1, []⟩ [⟨timestampOid, some 0⟩]
        [⟨timestampOid, some i64Max⟩] 0 timestampOid 0 i64Max ↔
      0 ≤ i64Max - unixToPostgresEpochMicros ∧ i64Max ≤ i64Max - unixToPostgresEpochMicros :=
  storesInOrder_iff timestampsEnv_timestamps Pgrx.sample ⟨.timestampMicro, 1, []⟩ 0 (by decide)
    ⟨_, rfl, .inl ⟨rfl, rfl⟩⟩ ⟨_, rfl, .inl ⟨rfl, rfl⟩⟩ (by decide) (by decide)

/-- A finite timestamp of the year 294247 is stored as the first microsecond of `i64`. -/
theorem storesInOrder_wraps :
    StoredAs Pgrx.sample ⟨.timestampMicro, 1, []⟩
        [⟨timestampOid, some (i64Max - unixToPostgresEpochMicros + 1)⟩] 0 timestampOid i64Min ∧
    IsTimestamp (i64Max - unixToPostgresEpochMicros + 1) ∧
    ¬ StoresInOrder timestampsEnv Pgrx.sample ⟨.timestampMicro, 1, []⟩ [⟨timestampOid, some 0⟩]
      [⟨timestampOid, some (i64Max - unixToPostgresEpochMicros + 1)⟩] 0 timestampOid 0
      (i64Max - unixToPostgresEpochMicros + 1) := by
  have hat : TimestampAt Pgrx.sample (TypedBuilder.mk .timestampMicro 1 []).variant
      [⟨timestampOid, some (i64Max - unixToPostgresEpochMicros + 1)⟩] 0
      (i64Max - unixToPostgresEpochMicros + 1) := ⟨_, rfl, .inl ⟨rfl, rfl⟩⟩
  refine ⟨hat.stored (by decide), by decide, ?_⟩
  intro h
  have hfits := (hat.storesExactly_iff timestampsEnv_timestamps (by decide) (by decide)).mp h.right
  omega

end

end PgLance
