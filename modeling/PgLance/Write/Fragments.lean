import PgLance.Fdw.Convert
import PgLance.Write.MergeLaws

/-! The fragments of a dataset, and their totals. -/

namespace PgLance

/-- What Lance knows of a fragment.  It counts the rows that are left where it knows both those
written and those deleted. -/
structure Fragment where
  id : Nat
  physicalRows : Option Nat
  numRows : Option Nat
  files : Nat
  deletionFile : Bool
  json : String
  counted : ∀ n, numRows = some n → ∃ rows, physicalRows = some rows ∧ n ≤ rows

structure FragmentRow where
  fragmentId : Int
  physicalRows : Option Int
  logicalRows : Option Int
  dataFiles : Int
  hasDeletions : Bool
  details : String
  deriving DecidableEq, Repr

structure FragmentStatsRow where
  fragments : Int
  physicalRows : Int
  logicalRows : Int
  deletedRows : Int
  avgRowsPerFragment : Float
  fragmentsWithDeletions : Int
  durationMs : Int

def Fragment.row (fragment : Fragment) : FragmentRow where
  fragmentId := asI64 fragment.id
  physicalRows := fragment.physicalRows.map asI64
  logicalRows := fragment.numRows.map asI64
  dataFiles := asI64 fragment.files
  hasDeletions := fragment.deletionFile
  details := fragment.json

def lanceListFragmentsImpl (host : Host) (dataset : Except String (List Fragment)) :
    Except String (List FragmentRow) := do
  host.runtimeNew.mapError ("failed to create tokio runtime: " ++ ·)
  let fragments ← dataset
  return fragments.map Fragment.row

structure FragmentTotals where
  fragmentCount : Int
  physicalRows : Int
  logicalRows : Int
  deletionFiles : Int

/-- The addition of a count where it is known, in an `i64`. -/
def addRows (total : Int) : Option Nat → Int
  | some rows => i64Wrap (total + asI64 rows)
  | none => total

def FragmentTotals.add (totals : FragmentTotals) (fragment : Fragment) : FragmentTotals where
  fragmentCount := i64Wrap (totals.fragmentCount + 1)
  physicalRows := addRows totals.physicalRows fragment.physicalRows
  logicalRows := addRows totals.logicalRows fragment.numRows
  deletionFiles :=
    if fragment.deletionFile then i64Wrap (totals.deletionFiles + 1) else totals.deletionFiles

def i64SaturatingSub (a b : Int) : Int := max i64Min (min i64Max (a - b))

def FragmentTotals.stats (totals : FragmentTotals) (elapsedMs : Int) : FragmentStatsRow where
  fragments := totals.fragmentCount
  physicalRows := totals.physicalRows
  logicalRows := totals.logicalRows
  deletedRows := i64SaturatingSub totals.physicalRows totals.logicalRows
  avgRowsPerFragment :=
    if totals.fragmentCount = 0 then 0.0
    else Float.ofInt totals.logicalRows / Float.ofInt totals.fragmentCount
  fragmentsWithDeletions := totals.deletionFiles
  durationMs := elapsedMs

def lanceFragmentStatsImpl (host : Host) (dataset : Except String (List Fragment)) :
    Except String FragmentStatsRow := do
  host.runtimeNew.mapError ("failed to create tokio runtime: " ++ ·)
  let fragments ← dataset
  return (fragments.foldl FragmentTotals.add ⟨0, 0, 0, 0⟩).stats host.elapsedMs

namespace Fragment

def physical (fragment : Fragment) : Nat := fragment.physicalRows.getD 0

def logical (fragment : Fragment) : Nat := fragment.numRows.getD 0

def uncounted (fragment : Fragment) : Nat :=
  if fragment.numRows = none then fragment.physical else 0

def deleted (fragment : Fragment) : Nat :=
  match fragment.physicalRows, fragment.numRows with
  | some rows, some left => rows - left
  | _, _ => 0

theorem physical_eq (fragment : Fragment) :
    fragment.physical = fragment.logical + fragment.deleted + fragment.uncounted := by
  obtain ⟨_, physicalRows, numRows, _, _, _, hcounted⟩ := fragment
  cases numRows with
  | none => cases physicalRows <;> simp [physical, logical, deleted, uncounted]
  | some left =>
    obtain ⟨rows, rfl, hle⟩ := hcounted left rfl
    simp only [physical, logical, deleted, uncounted, Option.getD_some, reduceCtorEq, if_false]
    omega

end Fragment

def totalOf (count : Fragment → Nat) (fragments : List Fragment) : Nat :=
  (fragments.map count).sum

@[simp] theorem totalOf_nil (count : Fragment → Nat) : totalOf count [] = 0 := rfl

@[simp] theorem totalOf_cons (count : Fragment → Nat) (fragment : Fragment)
    (fragments : List Fragment) :
    totalOf count (fragment :: fragments) = count fragment + totalOf count fragments := by
  simp [totalOf]

theorem totalOf_physical (fragments : List Fragment) :
    totalOf Fragment.physical fragments = totalOf Fragment.logical fragments +
      totalOf Fragment.deleted fragments + totalOf Fragment.uncounted fragments := by
  induction fragments with
  | nil => rfl
  | cons fragment fragments ih =>
    have hfragment := fragment.physical_eq
    simp only [totalOf_cons]
    omega

theorem totalOf_eq_zero_iff {count : Fragment → Nat} {fragments : List Fragment} :
    totalOf count fragments = 0 ↔ ∀ fragment ∈ fragments, count fragment = 0 := by
  simp [totalOf, List.sum_eq_zero_iff]

theorem i64Wrap_natCast {n : Nat} (h : n < cLongMax) : i64Wrap n = n := asI64_of_lt h

theorem addRows_eq {total : Nat} {rows : Option Nat} (h : total + rows.getD 0 < cLongMax) :
    addRows total rows = (total + rows.getD 0 : Nat) := by
  cases rows with
  | none => rfl
  | some rows =>
    have hrows : rows < cLongMax := by
      rw [Option.getD_some] at h
      omega
    rw [addRows, asI64_of_lt hrows, ← Nat.cast_add]
    exact i64Wrap_natCast h

def deletionCount (fragment : Fragment) : Nat := if fragment.deletionFile then 1 else 0

theorem foldl_add_eq (fragments : List Fragment) : ∀ count physical logical deletions : Nat,
    count + fragments.length < cLongMax →
    physical + totalOf Fragment.physical fragments < cLongMax →
    logical + totalOf Fragment.logical fragments < cLongMax →
    deletions + totalOf deletionCount fragments < cLongMax →
    fragments.foldl FragmentTotals.add ⟨count, physical, logical, deletions⟩ =
      ⟨(count + fragments.length : Nat), (physical + totalOf Fragment.physical fragments : Nat),
        (logical + totalOf Fragment.logical fragments : Nat),
        (deletions + totalOf deletionCount fragments : Nat)⟩ := by
  induction fragments with
  | nil => intro count physical logical deletions _ _ _ _; rfl
  | cons fragment fragments ih =>
    intro count physical logical deletions hcount hphysical hlogical hdeletions
    simp only [totalOf_cons, List.length_cons] at hcount hphysical hlogical hdeletions ⊢
    have hstep : FragmentTotals.add ⟨count, physical, logical, deletions⟩ fragment =
        ⟨(count + 1 : Nat), (physical + fragment.physical : Nat),
          (logical + fragment.logical : Nat), (deletions + deletionCount fragment : Nat)⟩ := by
      have hone : i64Wrap ((count : Int) + 1) = (count + 1 : Nat) := by
        rw [← Nat.cast_succ]
        exact i64Wrap_natCast (by omega)
      have hdeletion : (if fragment.deletionFile then i64Wrap ((deletions : Int) + 1)
          else (deletions : Int)) = (deletions + deletionCount fragment : Nat) := by
        unfold deletionCount at hdeletions ⊢
        split
        · rw [← Nat.cast_succ]
          exact i64Wrap_natCast (by simp_all; omega)
        · rfl
      have hp : physical + fragment.physicalRows.getD 0 < cLongMax := by
        rw [Fragment.physical] at hphysical
        omega
      have hl : logical + fragment.numRows.getD 0 < cLongMax := by
        rw [Fragment.logical] at hlogical
        omega
      rw [FragmentTotals.add, hone, hdeletion, addRows_eq hp, addRows_eq hl]
      rfl
    rw [List.foldl_cons, hstep, ih _ _ _ _ (by omega) (by omega) (by omega) (by omega)]
    simp only [Nat.add_assoc, Nat.add_comm 1]

def FragmentRow.deletedRows (row : FragmentRow) : Int :=
  match row.physicalRows, row.logicalRows with
  | some rows, some left => rows - left
  | _, _ => 0

theorem sum_rows {fragments : List Fragment} {shown : FragmentRow → Int}
    {count : Fragment → Nat} (h : ∀ fragment ∈ fragments, shown fragment.row = count fragment) :
    ((fragments.map Fragment.row).map shown).sum = (totalOf count fragments : Nat) := by
  induction fragments with
  | nil => rfl
  | cons fragment fragments ih =>
    rw [List.forall_mem_cons] at h
    rw [List.map_cons, List.map_cons, List.sum_cons, h.1, ih h.2, totalOf_cons, Nat.cast_add]

theorem le_totalOf {count : Fragment → Nat} {fragments : List Fragment} {fragment : Fragment}
    (h : fragment ∈ fragments) : count fragment ≤ totalOf count fragments := by
  induction fragments with
  | nil => cases h
  | cons other fragments ih =>
    rw [totalOf_cons]
    cases h with
    | head => omega
    | tail _ hmem =>
      have := ih hmem
      omega

theorem totalOf_deletionCount (fragments : List Fragment) : totalOf deletionCount fragments =
    ((fragments.map Fragment.row).filter FragmentRow.hasDeletions).length := by
  induction fragments with
  | nil => rfl
  | cons fragment fragments ih =>
    have hrow : fragment.row.hasDeletions = fragment.deletionFile := rfl
    rw [totalOf_cons, List.map_cons, List.filter_cons, hrow, deletionCount, ih]
    split
    · rw [List.length_cons, Nat.add_comm]
    · rw [Nat.zero_add]

section

variable {fragment : Fragment} (h : fragment.physical < cLongMax)

include h

theorem row_physicalRows : fragment.row.physicalRows = fragment.physicalRows.map (↑) := by
  cases hrows : fragment.physicalRows with
  | none => simp [Fragment.row, hrows]
  | some rows =>
    rw [Fragment.physical, hrows, Option.getD_some] at h
    simp [Fragment.row, hrows, asI64_of_lt h]

theorem row_logicalRows : fragment.row.logicalRows = fragment.numRows.map (↑) := by
  cases hleft : fragment.numRows with
  | none => simp [Fragment.row, hleft]
  | some left =>
    obtain ⟨rows, hrows, hle⟩ := fragment.counted left hleft
    rw [Fragment.physical, hrows, Option.getD_some] at h
    have hlt : left < cLongMax := by omega
    simp [Fragment.row, hleft, asI64_of_lt hlt]

theorem row_physicalRows_getD : fragment.row.physicalRows.getD 0 = fragment.physical := by
  rw [row_physicalRows h, Fragment.physical]
  cases fragment.physicalRows <;> rfl

theorem row_logicalRows_getD : fragment.row.logicalRows.getD 0 = fragment.logical := by
  rw [row_logicalRows h, Fragment.logical]
  cases fragment.numRows <;> rfl

theorem row_deletedRows : fragment.row.deletedRows = fragment.deleted := by
  rw [FragmentRow.deletedRows, row_physicalRows h, row_logicalRows h, Fragment.deleted]
  cases hleft : fragment.numRows with
  | none => cases fragment.physicalRows <;> rfl
  | some left =>
    obtain ⟨rows, hrows, hle⟩ := fragment.counted left hleft
    simp only [hrows, Option.map_some]
    omega

end

/-- The statistics are the totals of the listed fragments, and they show as deleted the rows that
the listed fragments have lost exactly if every fragment with rows says how many of them are left. -/
theorem lanceFragmentStatsImpl_totals {host : Host} (hruntime : host.runtimeNew = .ok ())
    {fragments : List Fragment} (hcount : fragments.length < cLongMax)
    (hphysical : totalOf Fragment.physical fragments < cLongMax) :
    ∃ rows stats, lanceListFragmentsImpl host (.ok fragments) = .ok rows ∧
      lanceFragmentStatsImpl host (.ok fragments) = .ok stats ∧
      stats.fragments = rows.length ∧
      stats.physicalRows = (rows.map fun row => row.physicalRows.getD 0).sum ∧
      stats.logicalRows = (rows.map fun row => row.logicalRows.getD 0).sum ∧
      stats.fragmentsWithDeletions = (rows.filter FragmentRow.hasDeletions).length ∧
      (stats.deletedRows = (rows.map FragmentRow.deletedRows).sum ↔
        ∀ row ∈ rows, row.logicalRows = none → row.physicalRows.getD 0 = 0) := by
  have htotal := totalOf_physical fragments
  have hfits : ∀ fragment ∈ fragments, fragment.physical < cLongMax :=
    fun fragment hmem => Nat.lt_of_le_of_lt (le_totalOf hmem) hphysical
  have hdeletions : totalOf deletionCount fragments ≤ fragments.length := by
    rw [totalOf_deletionCount, ← List.length_map Fragment.row]
    exact List.length_filter_le _ _
  have hfold := foldl_add_eq fragments 0 0 0 0 (by omega) (by omega) (by omega) (by omega)
  simp only [Nat.zero_add, Nat.cast_zero] at hfold
  have hdeleted : i64SaturatingSub (totalOf Fragment.physical fragments : Nat)
      (totalOf Fragment.logical fragments : Nat) =
        (totalOf Fragment.deleted fragments + totalOf Fragment.uncounted fragments : Nat) := by
    unfold cLongMax at hphysical
    rw [i64SaturatingSub, i64Min, i64Max]
    omega
  have huncounted : (∀ row ∈ fragments.map Fragment.row, row.logicalRows = none →
      row.physicalRows.getD 0 = 0) ↔ totalOf Fragment.uncounted fragments = 0 := by
    rw [totalOf_eq_zero_iff, List.forall_mem_map]
    refine forall₂_congr fun fragment hmem => ?_
    rw [row_physicalRows_getD (hfits fragment hmem), row_logicalRows (hfits fragment hmem),
      Option.map_eq_none_iff, Fragment.uncounted]
    split <;> simp [*]
  refine ⟨fragments.map Fragment.row,
    (fragments.foldl FragmentTotals.add ⟨0, 0, 0, 0⟩).stats host.elapsedMs, ?_, ?_, ?_⟩
  · rw [lanceListFragmentsImpl, hruntime]
    rfl
  · rw [lanceFragmentStatsImpl, hruntime]
    rfl
  · rw [hfold, FragmentTotals.stats, hdeleted, huncounted, List.length_map,
      ← totalOf_deletionCount,
      sum_rows fun fragment hmem => row_physicalRows_getD (hfits fragment hmem),
      sum_rows fun fragment hmem => row_logicalRows_getD (hfits fragment hmem),
      sum_rows fun fragment hmem => row_deletedRows (hfits fragment hmem)]
    refine ⟨rfl, rfl, rfl, rfl, ?_⟩
    change ((totalOf Fragment.deleted fragments + totalOf Fragment.uncounted fragments : Nat) : Int)
      = (totalOf Fragment.deleted fragments : Nat) ↔ _
    omega

theorem counted_of_le {rows left : Nat} (h : left ≤ rows) :
    ∀ n, some left = some n → ∃ r, some rows = some r ∧ n ≤ r := by
  intro n hn
  cases hn
  exact ⟨rows, rfl, h⟩

theorem counted_of_none (physicalRows : Option Nat) :
    ∀ n, (none : Option Nat) = some n → ∃ r, physicalRows = some r ∧ n ≤ r := by
  intro n hn
  cases hn

def Fragment.sample (id left gone : Nat) : Fragment :=
  ⟨id, some (left + gone), some left, 1, gone != 0, "", counted_of_le (Nat.le_add_right left gone)⟩

def Fragment.silent (id rows : Nat) : Fragment :=
  ⟨id, some rows, none, 1, true, "", counted_of_none _⟩

def sampleFragments : List Fragment := [.sample 0 7 3, .silent 1 5]

/-- Three rows are known to be gone, and eight are shown. -/
theorem lanceFragmentStatsImpl_totals_sample : ∃ stats,
    lanceFragmentStatsImpl .sample (.ok sampleFragments) = .ok stats ∧ stats.physicalRows = 15 ∧
      stats.logicalRows = 7 ∧ stats.deletedRows ≠ 3 := by
  have hruntime : Host.sample.runtimeNew = .ok () := rfl
  have hcount : sampleFragments.length < cLongMax := by decide
  have hphysical : totalOf Fragment.physical sampleFragments < cLongMax := by decide
  obtain ⟨rows, stats, hlist, hstats, -, hrows, hleft, -, hdeleted⟩ :=
    lanceFragmentStatsImpl_totals hruntime hcount hphysical
  cases hlist
  refine ⟨stats, hstats, hrows.trans (by decide), hleft.trans (by decide), fun hthree => ?_⟩
  have hsilent := hdeleted.mp (hthree.trans (by decide)) (Fragment.silent 1 5).row
    (by simp [sampleFragments]) rfl
  exact absurd hsilent (by decide)

end PgLance
