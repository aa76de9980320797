import PgLance.Fdw.ConvertLaws
import PgLance.Library.Calendar
import PgLance.Write.Datums

/-! The days that dates are read as. -/

namespace PgLance

def unixEpochDay : Int := 719163

def postgresEpochDay : Int := 730120

example : (⟨1970, 1, 1⟩ : Calendar.Civil).number = unixEpochDay ∧
    (⟨2000, 1, 1⟩ : Calendar.Civil).number = postgresEpochDay := by decide

def CalendarDate.civil (date : CalendarDate) : Calendar.Civil := ⟨date.year, date.month, date.day⟩

def CalendarDate.ofDay (day : Int) : CalendarDate :=
  let date := Calendar.civil day
  ⟨date.year, date.month, date.day⟩

def naiveDateMin : Int := (⟨-262143, 1, 1⟩ : Calendar.Civil).number

def naiveDateMax : Int := (⟨262142, 12, 31⟩ : Calendar.Civil).number

def naiveDate (day : Int) : Option CalendarDate :=
  if naiveDateMin ≤ day ∧ day ≤ naiveDateMax then some (.ofDay day) else none

/-- chrono counts years as astronomers do; `make_date` reads the year -n as n BC, and there is no
year 0. -/
structure ConvertEnv.Dates (env : ConvertEnv) : Prop where
  epochDays : ∀ days, env.naiveDateFromEpochDays days = naiveDate (days + unixEpochDay)
  millis : ∀ millis, env.naiveDateFromTimestampMillis millis =
    naiveDate (millis / 86400000 + unixEpochDay)
  dateNew : ∀ date : CalendarDate, 0 < date.year → date.year ≤ 5874897 → date.civil.Valid →
    env.dateNew date = .ok (date.civil.number - postgresEpochDay)
  yearZero : ∀ date : CalendarDate, date.year = 0 → ∃ e, env.dateNew date = .error e
  beforeChrist : ∀ date : CalendarDate, date.year < 0 → date.civil.Valid →
    (∃ e, env.dateNew date = .error e) ∨
      env.dateNew date = .ok
        ((⟨date.year + 1, date.month, date.day⟩ : Calendar.Civil).number - postgresEpochDay)

def ReadsDay (env : ConvertEnv) (array : ArrowArray) (row : Nat) (day : Int) : Prop :=
  arrowValueToDatum env array row dateOid = .ok (some (.date (day - postgresEpochDay))) ∨
    ∃ e, arrowValueToDatum env array row dateOid = .error e ∧ e.kind = .valueOutOfRange

/-- A day that chrono has and PostgreSQL counts from another year. -/
def BeforeChrist (day : Int) : Prop := naiveDateMin ≤ day ∧ day ≤ 0

instance (day : Int) : Decidable (BeforeChrist day) := inferInstanceAs (Decidable (_ ∧ _))

section

variable {env : ConvertEnv} {cells : List (Option Scalar)} {row : Nat}

theorem year_ofDay_le {day : Int} (h : day ≤ naiveDateMax) :
    (CalendarDate.ofDay day).year ≤ 5874897 := by
  by_contra hyear
  have hlow := (Calendar.yearOf_spec day).1
  have hmono := Calendar.daysBeforeYear_mono
    (show 262143 ≤ Calendar.yearOf day from le_trans (by decide) (le_of_not_ge hyear))
  have hmax : naiveDateMax = Calendar.daysBeforeYear 262143 := by decide
  omega

theorem calendarToDate_ofDay (h : env.Dates) {day : Int} (hmax : day ≤ naiveDateMax) :
    if 0 < day then calendarToDate env (.ofDay day) = .ok (.date (day - postgresEpochDay))
    else (∃ other, calendarToDate env (.ofDay day) = .ok (.date other) ∧
        other ≠ day - postgresEpochDay) ∨
      ∃ e, calendarToDate env (.ofDay day) = .error e ∧ e.kind = .internal := by
  have hnumber : (CalendarDate.ofDay day).civil.number = day := Calendar.number_civil day
  have hvalid : (CalendarDate.ofDay day).civil.Valid := Calendar.civil_valid day
  have hpos : 0 < (CalendarDate.ofDay day).year ↔ 0 < day := Calendar.yearOf_pos_iff day
  have hyear := year_ofDay_le hmax
  generalize CalendarDate.ofDay day = date at hnumber hvalid hpos hyear
  split
  · rename_i hday
    rw [calendarToDate, h.dateNew date (hpos.mpr hday) hyear hvalid, hnumber]
  · rename_i hday
    rw [← hpos] at hday
    by_cases hzero : date.year = 0
    · obtain ⟨e, he⟩ := h.yearZero date hzero
      exact .inr ⟨_, by rw [calendarToDate, he], rfl⟩
    · rcases h.beforeChrist date (by omega) hvalid with ⟨e, he⟩ | hok
      · exact .inr ⟨_, by rw [calendarToDate, he], rfl⟩
      · refine .inl ⟨_, by rw [calendarToDate, hok], ?_⟩
        have hnext : date.civil.number <
            (⟨date.year + 1, date.month, date.day⟩ : Calendar.Civil).number :=
          Calendar.number_next_year hvalid
        omega

theorem readsDay_iff (h : env.Dates) {type : LeafType} {day : Int} {message : String}
    (hread : arrowValueToDatum env (.primitive type cells) row dateOid =
      (match naiveDate day with
        | some date => calendarToDate env date
        | none => .error (.valueOutOfRange message)).map some) :
    ReadsDay env (.primitive type cells) row day ↔ ¬ BeforeChrist day := by
  rw [ReadsDay, hread, BeforeChrist, naiveDate]
  split
  · rename_i date hdate
    split at hdate
    · rename_i hrange
      cases hdate
      have hcase := calendarToDate_ofDay h hrange.2
      split at hcase
      · rename_i hday
        rw [hcase]
        refine iff_of_true (.inl rfl) (by omega)
      · rename_i hday
        refine iff_of_false ?_ (by omega)
        rcases hcase with ⟨other, hother, hne⟩ | ⟨e, he, hkind⟩
        · rw [hother]
          simp only [Except.map, Except.ok.injEq, Option.some.injEq, Datum.date.injEq, hne,
            false_or, reduceCtorEq, false_and, exists_false, not_false_eq_true]
        · rw [he]
          simp only [Except.map, reduceCtorEq, Except.error.injEq, exists_eq_left', hkind, or_self,
            not_false_eq_true]
    · cases hdate
  · rename_i hdate
    split at hdate
    · cases hdate
    · rename_i hrange
      refine iff_of_true (.inr ⟨_, rfl, rfl⟩) ?_
      have hzero : 0 ≤ naiveDateMax := by decide
      omega

theorem arrowValueToDatum_date32 (h : env.Dates) {days : Int}
    (hcell : cells[row]? = some (some (.int days))) :
    arrowValueToDatum env (.primitive .date32 cells) row dateOid =
      (match naiveDate (days + unixEpochDay) with
        | some date => calendarToDate env date
        | none => .error (.valueOutOfRange "arrow date32 overflow")).map some := by
  rw [arrowValueToDatum, ArrowArray.isNull_of_cell hcell, leafToDatum, requireTargetOid_self,
    Cells.int_of_cell hcell, ← h.epochDays]
  rfl

theorem arrowValueToDatum_date64 (h : env.Dates) {millis : Int}
    (hcell : cells[row]? = some (some (.int millis))) :
    arrowValueToDatum env (.primitive .date64 cells) row dateOid =
      (match naiveDate (millis / 86400000 + unixEpochDay) with
        | some date => calendarToDate env date
        | none => .error (.valueOutOfRange "arrow date64 overflow")).map some := by
  rw [arrowValueToDatum, ArrowArray.isNull_of_cell hcell, leafToDatum, requireTargetOid_self,
    Cells.int_of_cell hcell, ← h.millis]
  rfl

theorem datumCell_date32 {Raw : Type} {pgrx : Pgrx Raw} {spiRow : SpiRow Raw} {colIndex : Nat}
    {entry : SpiEntry Raw} {date : Int} (hentry : spiRow[colIndex]? = some entry)
    (hdate : pgrx.value .date entry = .ok (some date)) :
    datumCell pgrx .date32 spiRow colIndex dateOid = some (.int (pgrx.toUnixEpochDays date)) := by
  simp only [datumCell, readCell, getDatumByOrdinal, hentry, Option.elim_some]
  rw [hdate]

end

/-- Dates are read as their days, or rejected as out of range, exactly if they are not days of
years before year 1 that chrono has; a date that is written and read back is one of those. -/
theorem readsDay_iff_not_beforeChrist {env : ConvertEnv} (h : env.Dates)
    (cells : List (Option Scalar)) (row : Nat) :
    (∀ days, cells[row]? = some (some (.int days)) →
      (ReadsDay env (.primitive .date32 cells) row (days + unixEpochDay) ↔
        ¬ BeforeChrist (days + unixEpochDay))) ∧
    (∀ millis, cells[row]? = some (some (.int millis)) →
      (ReadsDay env (.primitive .date64 cells) row (millis / 86400000 + unixEpochDay) ↔
        ¬ BeforeChrist (millis / 86400000 + unixEpochDay))) ∧
    ∀ {Raw : Type} (pgrx : Pgrx Raw) (spiRow : SpiRow Raw) (colIndex : Nat) (entry : SpiEntry Raw)
      (date : Int),
      spiRow[colIndex]? = some entry → pgrx.value .date entry = .ok (some date) →
      pgrx.toUnixEpochDays date = date + (postgresEpochDay - unixEpochDay) →
      cells[row]? = some (datumCell pgrx .date32 spiRow colIndex dateOid) →
      (ReadsDay env (.primitive .date32 cells) row (date + postgresEpochDay) ↔
        ¬ BeforeChrist (date + postgresEpochDay)) := by
  have hdate32 : ∀ days, cells[row]? = some (some (.int days)) →
      (ReadsDay env (.primitive .date32 cells) row (days + unixEpochDay) ↔
        ¬ BeforeChrist (days + unixEpochDay)) :=
    fun days hcell => readsDay_iff h (arrowValueToDatum_date32 h hcell)
  refine ⟨hdate32, ?_, ?_⟩
  · exact fun millis hcell => readsDay_iff h (arrowValueToDatum_date64 h hcell)
  · intro Raw pgrx spiRow colIndex entry date hentry hdate hdays hcell
    rw [datumCell_date32 hentry hdate, hdays] at hcell
    have hread := hdate32 _ hcell
    rwa [show date + (postgresEpochDay - unixEpochDay) + unixEpochDay = date + postgresEpochDay by
      omega] at hread

def makeDate (date : CalendarDate) : Except String Int :=
  let civil : Calendar.Civil :=
    ⟨if date.year < 0 then date.year + 1 else date.year, date.month, date.day⟩
  if date.year = 0 ∨ ¬ civil.Valid then .error "date field value out of range"
  else if civil.number < (⟨-4713, 11, 24⟩ : Calendar.Civil).number ∨ 5874897 < date.year then
    .error "date out of range"
  else .ok (civil.number - postgresEpochDay)

def datesEnv : ConvertEnv :=
  { ConvertEnv.sample ⟨fun _ => invalidOid, fun _ => none⟩ with
    naiveDateFromEpochDays := fun days => naiveDate (days + unixEpochDay)
    naiveDateFromTimestampMillis := fun millis => naiveDate (millis / 86400000 + unixEpochDay)
    dateNew := makeDate }

theorem datesEnv_dates : datesEnv.Dates where
  epochDays _ := rfl
  millis _ := rfl
  dateNew date hpos hyear hvalid := by
    have hcivil : (⟨if date.year < 0 then date.year + 1 else date.year, date.month, date.day⟩ :
        Calendar.Civil) = date.civil := by
      rw [if_neg (by omega)]
      rfl
    have hnumber : (⟨-4713, 11, 24⟩ : Calendar.Civil).number ≤ date.civil.number := by
      have hmono := Calendar.daysBeforeYear_mono (show 1 ≤ date.civil.year from hpos)
      have hone : Calendar.daysBeforeYear 1 = 0 := rfl
      have hfirst : (⟨-4713, 11, 24⟩ : Calendar.Civil).number < 0 := by decide
      rw [Calendar.Civil.number.eq_def date.civil]
      omega
    simp only [datesEnv, makeDate, hcivil]
    rw [if_neg (by simp only [hvalid, not_true_eq_false, or_false]; omega), if_neg (by omega)]
  yearZero date hzero := by
    refine ⟨"date field value out of range", ?_⟩
    simp only [datesEnv, makeDate]
    rw [if_pos (.inl hzero)]
  beforeChrist date hyear _ := by
    simp only [datesEnv, makeDate]
    rw [if_pos hyear]
    split
    · exact .inl ⟨_, rfl⟩
    · split
      · exact .inl ⟨_, rfl⟩
      · exact .inr rfl

def idesOfMarch : Int := (⟨-43, 3, 15⟩ : Calendar.Civil).number - unixEpochDay

theorem readsDay_iff_not_beforeChrist_ides :
    ReadsDay datesEnv (.primitive .date32 [some (.int idesOfMarch)]) 0
        (idesOfMarch + unixEpochDay) ↔ ¬ BeforeChrist (idesOfMarch + unixEpochDay) :=
  (readsDay_iff_not_beforeChrist datesEnv_dates [some (.int idesOfMarch)] 0).1 idesOfMarch rfl

/-- They are read as those of 43 BC. -/
theorem idesOfMarch_moves :
    arrowValueToDatum datesEnv (.primitive .date32 [some (.int idesOfMarch)]) 0 dateOid =
      .ok (some (.date ((⟨-42, 3, 15⟩ : Calendar.Civil).number - postgresEpochDay))) ∧
    ¬ ReadsDay datesEnv (.primitive .date32 [some (.int idesOfMarch)]) 0
        (idesOfMarch + unixEpochDay) := by
  have hread : arrowValueToDatum datesEnv (.primitive .date32 [some (.int idesOfMarch)]) 0 dateOid =
      .ok (some (.date ((⟨-42, 3, 15⟩ : Calendar.Civil).number - postgresEpochDay))) := by
    rw [arrowValueToDatum_date32 datesEnv_dates rfl]
    have hdate : naiveDate (idesOfMarch + unixEpochDay) = some ⟨-43, 3, 15⟩ := by decide
    have hnew : makeDate ⟨-43, 3, 15⟩ =
        .ok ((⟨-42, 3, 15⟩ : Calendar.Civil).number - postgresEpochDay) := by decide
    simp only [hdate, calendarToDate, datesEnv, hnew]
    rfl
  refine ⟨hread, ?_⟩
  rw [ReadsDay, hread]
  have hne : (⟨-42, 3, 15⟩ : Calendar.Civil).number - postgresEpochDay ≠
      idesOfMarch + unixEpochDay - postgresEpochDay := by decide
  simpa using hne

end PgLance
