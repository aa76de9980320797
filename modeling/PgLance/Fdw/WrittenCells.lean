import PgLance.Fdw.DateLaws
import PgLance.Fdw.TimestampLaws

/-! Values that are written to Arrow cells and read back from them. -/

namespace PgLance

variable {Raw : Type}

def BuilderVariant.leafType : BuilderVariant → LeafType
  | .boolean => .boolean
  | .int16 => .int16
  | .int32 => .int32
  | .int64 => .int64
  | .float32 => .float32
  | .float64 => .float64
  | .utf8 => .utf8
  | .binary => .binary
  | .date32 => .date32
  | .timestampMicro => .timestamp .microsecond none
  | .timestampMicroUtc => .timestamp .microsecond (some "UTC")

theorem BuilderVariant.dataType_eq (variant : BuilderVariant) :
    variant.dataType = .leaf variant.leafType := by cases variant <;> rfl

/-- The value as a scan should show it: a number without a fixed size, a uuid and JSON are written
as their text. -/
def RustType.shown (pgrx : Pgrx Raw) : (type : RustType) → type.Val → Datum
  | .bool, v => .bool (show Bool from v)
  | .i16, v => .int2 (show Int from v)
  | .i32, v => .int4 (show Int from v)
  | .i64, v => .int8 (show Int from v)
  | .f32, v => .float4 (show Nat from v)
  | .f64, v => .float8 (show Nat from v)
  | .anyNumeric, v | .uuid, v | .string, v => .text (show String from v)
  | .jsonB, v | .json, v => .text (jsonText pgrx v)
  | .vecU8, v => .bytea (show List UInt8 from v)
  | .date, v => .date (show Int from v)
  | .timestamp, v => .timestamp (show Int from v)
  | .timestampWithTimeZone, v => .timestamptz (show Int from v)

def SpiEntry.shown (pgrx : Pgrx Raw) (type : RustType) (entry : SpiEntry Raw) : Option Datum :=
  match pgrx.value type entry with
  | .ok (some v) => some (type.shown pgrx v)
  | _ => none

def CommonEra (date : Int) : Prop :=
  0 < date + postgresEpochDay ∧ date + postgresEpochDay ≤ naiveDateMax

instance (date : Int) : Decidable (CommonEra date) := inferInstanceAs (Decidable (_ ∧ _))

/-- What pgrx reads as dates and timestamps are those of PostgreSQL.  Days are counted in an `i32`,
whose bounds stand for the infinities. -/
structure SpiEntry.Genuine (pgrx : Pgrx Raw) (entry : SpiEntry Raw) : Prop where
  date : ∀ date : Int, pgrx.value .date entry = .ok (some date) → -2 ^ 31 ≤ date ∧ date < 2 ^ 31 ∧
    pgrx.toUnixEpochDays date = (date + (postgresEpochDay - unixEpochDay)).bmod (2 ^ 32)
  timestamp : ∀ micros : Int, pgrx.value .timestamp entry = .ok (some micros) →
    AdmitsTimestamp micros
  timestamptz : ∀ micros : Int, pgrx.value .timestampWithTimeZone entry = .ok (some micros) →
    AdmitsTimestamp micros

section

variable {env : ConvertEnv} {pgrx : Pgrx Raw} {cells : List (Option Scalar)} {row : Nat}

theorem readCell_eq (type : RustType) (wrap : type.Val → Scalar) {spiRow : SpiRow Raw}
    {colIndex : Nat} {entry : SpiEntry Raw} (hentry : spiRow[colIndex]? = some entry) :
    readCell pgrx type wrap spiRow colIndex =
      match pgrx.value type entry with
      | .ok (some v) => some (wrap v)
      | _ => none := by
  simp only [readCell, getDatumByOrdinal, hentry, Option.elim_some]
  cases pgrx.value type entry with
  | error e => rfl
  | ok v => cases v <;> rfl

theorem arrowValueToDatum_null {type : LeafType} (hnull : type.hasNullBuffer = true)
    (hcell : cells[row]? = some none) (oid : Oid) :
    arrowValueToDatum env (.primitive type cells) row oid = .ok none := by
  simp [arrowValueToDatum, ArrowArray.isNull, hnull, hcell]

theorem arrowValueToDatum_cell {type : LeafType} {s : Scalar}
    (hcell : cells[row]? = some (some s)) (oid : Oid) :
    arrowValueToDatum env (.primitive type cells) row oid =
      (leafToDatum env type cells row oid).map some := by
  rw [arrowValueToDatum, ArrowArray.isNull_of_cell hcell]
  rfl

theorem arrowValueToDatum_readCell {leaf : LeafType} (hnull : leaf.hasNullBuffer = true)
    {type : RustType} {wrap : type.Val → Scalar} {spiRow : SpiRow Raw} {colIndex : Nat}
    {entry : SpiEntry Raw} (hentry : spiRow[colIndex]? = some entry)
    (hcell : cells[row]? = some (readCell pgrx type wrap spiRow colIndex)) {oid : Oid}
    (hvalue : ∀ v, pgrx.value type entry = .ok (some v) → cells[row]? = some (some (wrap v)) →
      leafToDatum env leaf cells row oid = .ok (type.shown pgrx v)) :
    arrowValueToDatum env (.primitive leaf cells) row oid = .ok (entry.shown pgrx type) := by
  rw [readCell_eq type wrap hentry] at hcell
  rw [SpiEntry.shown]
  split at hcell
  · next v hv =>
    rw [arrowValueToDatum_cell hcell, hvalue v hv hcell]
    rfl
  · exact arrowValueToDatum_null hnull hcell oid

theorem leafToDatum_timestamp (henv : env.Timestamps) {tz : Option String} {micros : Int}
    (hadmits : AdmitsTimestamp micros)
    (hcell : cells[row]? = some (some (.int (pgMicrosToUnix micros)))) :
    leafToDatum env (.timestamp .microsecond tz) cells row (timestampOidOf tz) =
      .ok (timestampDatumOf tz micros) := by
  have hrange : i64Min ≤ micros ∧ micros ≤ i64Max := by
    simp only [AdmitsTimestamp, IsTimestamp, minTimestamp, endTimestamp, i64Min, i64Max] at *
    omega
  have hmicros : timestampToUnixMicros .microsecond cells row = .ok (pgMicrosToUnix micros) :=
    Cells.int_of_cell hcell _
  have hread := arrowValueToDatum_timestamp henv tz hcell hmicros
  have hback : i64Wrap (pgMicrosToUnix micros - unixToPostgresEpochMicros) = micros :=
    i64Wrap_sub_add hrange.1 hrange.2 _
  rw [hback, if_pos hadmits, arrowValueToDatum_cell hcell] at hread
  cases hleaf : leafToDatum env (.timestamp .microsecond tz) cells row (timestampOidOf tz) with
  | error e => simp [hleaf, Except.map] at hread
  | ok datum =>
    rw [hleaf] at hread
    cases hread
    rfl

theorem arrowValueToDatum_date_iff (henv : env.Dates) {date : Int} (hmin : -2 ^ 31 ≤ date)
    (hmax : date < 2 ^ 31) (hcell : cells[row]? =
      some (some (.int ((date + (postgresEpochDay - unixEpochDay)).bmod (2 ^ 32))))) :
    arrowValueToDatum env (.primitive .date32 cells) row dateOid = .ok (some (.date date)) ↔
      CommonEra date := by
  have hfirst : naiveDateMin = -95746129 := by decide
  have hlast : naiveDateMax = 95745399 := by decide
  have hread := arrowValueToDatum_date32 henv hcell
  have hday : (date + (postgresEpochDay - unixEpochDay)).bmod (2 ^ 32) + unixEpochDay =
        date + postgresEpochDay ∨
      naiveDateMax < date + postgresEpochDay ∧
        (date + (postgresEpochDay - unixEpochDay)).bmod (2 ^ 32) + unixEpochDay < naiveDateMin := by
    rw [hfirst, hlast, Int.bmod_def, unixEpochDay, postgresEpochDay]
    split <;> omega
  rw [hread, naiveDate, CommonEra]
  by_cases hrange : naiveDateMin ≤ date + postgresEpochDay ∧ date + postgresEpochDay ≤ naiveDateMax
  · have hsame : (date + (postgresEpochDay - unixEpochDay)).bmod (2 ^ 32) + unixEpochDay =
        date + postgresEpochDay := by omega
    rw [hsame, if_pos hrange]
    have hcase := calendarToDate_ofDay henv hrange.2
    rw [Int.add_sub_cancel] at hcase
    split at hcase
    · next hpos => exact iff_of_true (by simp [hcase, Except.map]) ⟨hpos, hrange.2⟩
    · next hpos =>
      refine iff_of_false ?_ fun h => hpos h.1
      rcases hcase with ⟨other, hother, hne⟩ | ⟨e, he, -⟩
      · simp [hother, Except.map, hne]
      · simp [he, Except.map]
  · rw [if_neg (by omega)]
    exact iff_of_false (by simp [Except.map]) (by omega)

def SpiEntry.Reread (pgrx : Pgrx Raw) (entry : SpiEntry Raw) : Prop :=
  entry.typeOid = dateOid → ∀ date : Int, pgrx.value .date entry = .ok (some date) → CommonEra date

section

variable {spiRow : SpiRow Raw} {colIndex : Nat} {entry : SpiEntry Raw}

theorem arrowValueToDatum_dateCell_iff (hdates : env.Dates)
    (hentry : spiRow[colIndex]? = some entry) (hgenuine : entry.Genuine pgrx)
    (hcell : cells[row]? = some (readCell pgrx .date (fun date => .int (pgrx.toUnixEpochDays date))
      spiRow colIndex)) :
    arrowValueToDatum env (.primitive .date32 cells) row dateOid = .ok (entry.shown pgrx .date) ↔
      ∀ date : Int, pgrx.value .date entry = .ok (some date) → CommonEra date := by
  rw [readCell_eq _ _ hentry] at hcell
  rw [SpiEntry.shown]
  split at hcell
  · next date hread =>
    obtain ⟨hmin, hmax, hdays⟩ := hgenuine.date date hread
    rw [hdays] at hcell
    simp only [hread]
    refine (arrowValueToDatum_date_iff hdates hmin hmax hcell).trans ?_
    constructor
    · rintro hera _ heq
      cases heq
      exact hera
    · exact fun h => h date rfl
  · next hread =>
    refine iff_of_true (arrowValueToDatum_null rfl hcell dateOid) ?_
    intro date hdate
    exact absurd hdate (hread date)

/-- A cell of any type that can be written is read as what was written to it, but for dates of other
years. -/
theorem arrowValueToDatum_datumCell_iff (hdates : env.Dates) (htimestamps : env.Timestamps)
    {formatTypeBe : Oid → Option String} {oid : Oid} {type : WritableType}
    (htype : pgOidToArrowType formatTypeBe oid = .ok type)
    (hentry : spiRow[colIndex]? = some entry) (hoid : entry.typeOid = oid)
    (hgenuine : entry.Genuine pgrx)
    (hcell : cells[row]? = some (datumCell pgrx type.variant spiRow colIndex oid)) {target : Oid}
    (hvalid : validateLeafType type.variant.leafType target = .ok ()) :
    arrowValueToDatum env (.primitive type.variant.leafType cells) row target =
      .ok (entry.shown pgrx (datumType type.variant oid)) ↔ entry.Reread pgrx := by
  by_cases hdate : oid = dateOid
  · subst hdate
    cases htype
    have htarget : target = dateOid := requireTargetOid_ok_iff.mp hvalid
    subst htarget
    refine (arrowValueToDatum_dateCell_iff hdates hentry hgenuine hcell).trans ?_
    simp [SpiEntry.Reread, hoid]
  · refine iff_of_true ?_ fun h => absurd (hoid.symm.trans h) hdate
    unfold pgOidToArrowType at htype
    split at htype
    case h_12 => exact absurd rfl hdate
    case h_13 =>
      cases htype
      refine arrowValueToDatum_readCell rfl hentry hcell fun v hv hvcell => ?_
      have htarget : target = timestampOid := requireTargetOid_ok_iff.mp hvalid
      rw [htarget]
      exact leafToDatum_timestamp htimestamps (hgenuine.timestamp v hv) hvcell
    case h_14 =>
      cases htype
      refine arrowValueToDatum_readCell rfl hentry hcell fun v hv hvcell => ?_
      have htarget : target = timestamptzOid := requireTargetOid_ok_iff.mp hvalid
      rw [htarget]
      exact leafToDatum_timestamp htimestamps (hgenuine.timestamptz v hv) hvcell
    all_goals first
      | cases htype; done
      | cases htype
        refine arrowValueToDatum_readCell rfl hentry hcell fun v hv hvcell => ?_
        have htarget := requireTargetOid_ok_iff.mp hvalid
        simp [leafToDatum, Cells.bool, Cells.int, Cells.float, Cells.utf8, Cells.binary, hvcell,
          htarget]
        rfl

end

end

end PgLance
