import PgLance.Library.Calendar
import PgLance.Write.Aggregate

/-! Removing the files of old versions of a dataset, and the plan of it, which builds its policy on
its own. -/

namespace PgLance

open Calendar

def secondsAt (date : Civil) : Int := (date.number - (Civil.mk 1970 1 1).number) * 86400

/-- `DateTime<Utc>`, whose years run from -262143 to 262142. -/
structure DateTime where
  secs : Int
  nanos : Nat
  nanos_lt : nanos < 1000000000
  secs_ge : secondsAt ⟨-262143, 1, 1⟩ ≤ secs
  secs_lt : secs < secondsAt ⟨262143, 1, 1⟩
  deriving DecidableEq

/-- `Duration::seconds`, which counts milliseconds in an `i64`. -/
def durationSeconds (seconds : Int) : Except Failure Int :=
  if -(i64Max / 1000) ≤ seconds ∧ seconds ≤ i64Max / 1000 then .ok seconds
  else .error (.panicked "TimeDelta::seconds out of bounds")

def DateTime.sub (t : DateTime) (seconds : Int) : Except Failure DateTime :=
  if hge : secondsAt ⟨-262143, 1, 1⟩ ≤ t.secs - seconds then
    if hlt : t.secs - seconds < secondsAt ⟨262143, 1, 1⟩ then
      .ok ⟨t.secs - seconds, t.nanos, t.nanos_lt, hge, hlt⟩
    else .error (.panicked "DateTime - TimeDelta overflowed")
  else .error (.panicked "DateTime - TimeDelta overflowed")

structure CleanupPolicy where
  beforeTimestamp : Option DateTime
  beforeVersion : Option Nat
  deleteUnverified : Bool
  errorIfTaggedOldVersions : Bool
  cleanReferencedBranches : Bool
  deleteRateLimit : Option Nat
  deriving DecidableEq

structure CleanupStats where
  bytesRemoved : Nat
  oldVersions : Nat
  dataFilesRemoved : Nat
  transactionFilesRemoved : Nat
  indexFilesRemoved : Nat
  deletionFilesRemoved : Nat
  deriving DecidableEq, Repr

structure CandidateFile where
  path : String
  kind : String
  unverified : Bool
  sizeBytes : Nat
  deriving DecidableEq, Repr

structure ReferencedBranch where
  name : String
  referencedVersion : Nat
  cleanupCandidate : Bool
  deriving DecidableEq, Repr

structure CleanupExplanation where
  readVersion : Nat
  stats : CleanupStats
  candidateFilesTruncated : Bool
  candidateFileLimit : Nat
  candidateFiles : List CandidateFile
  referencedBranches : List ReferencedBranch
  warnings : List String
  deriving DecidableEq, Repr

structure CleanupSdk where
  cleanupWithPolicy : CleanupPolicy → Except String CleanupStats
  explain : CleanupPolicy → Option Nat → Except String CleanupExplanation

structure CleanupArgs where
  olderThanSeconds : Option Int
  beforeVersion : Option Int
  deleteUnverified : Bool
  errorIfTaggedOldVersions : Bool
  cleanReferencedBranches : Bool
  deleteRateLimit : Option Int
  deriving DecidableEq, Repr

def u64Max : Int := 2 ^ 64 - 1

namespace Metadata

def optionalU64 (value : Option Int) (name : String) : Except String (Option Nat) :=
  match value with
  | some value =>
    if value < 0 then .error (name ++ " must be non-negative")
    else if value ≤ u64Max then .ok (some value.toNat)
    else .error (name ++ " is too large")
  | none => .ok none

def optionalUsize (value : Option Int) (name : String) : Except String (Option Nat) :=
  match value with
  | some value =>
    if value < 0 then .error (name ++ " must be non-negative")
    else if value ≤ u64Max then .ok (some value.toNat)
    else .error (name ++ " is too large")
  | none => .ok none

def cleanupPolicy (now : DateTime) (args : CleanupArgs) : Except Failure CleanupPolicy := do
  if args.olderThanSeconds.any (· < 0) then
    .error (.returned "older_than_seconds must be non-negative")
  else
    let beforeTimestamp ← args.olderThanSeconds.mapM fun seconds => do
      now.sub (← durationSeconds seconds)
    let beforeVersion ← orFail (optionalU64 args.beforeVersion "before_version")
    let deleteRateLimit ← orFail (optionalU64 args.deleteRateLimit "delete_rate_limit")
    return {
      beforeTimestamp
      beforeVersion
      deleteUnverified := args.deleteUnverified
      errorIfTaggedOldVersions := args.errorIfTaggedOldVersions
      cleanReferencedBranches := args.cleanReferencedBranches
      deleteRateLimit }

structure CleanupPlanRow where
  readVersion : Int
  bytesRemoved : Int
  oldVersions : Int
  dataFilesRemoved : Int
  transactionFilesRemoved : Int
  indexFilesRemoved : Int
  deletionFilesRemoved : Int
  candidateFilesTruncated : Bool
  candidateFileLimit : Int
  candidateFiles : Json
  referencedBranches : Json
  warnings : Json
  durationMs : Int

def jsonObject (entries : List (String × Json)) : Json :=
  .object (entries.foldl (fun object (name, value) => jsonInsert name value object) [])

def candidateFileJson (file : CandidateFile) : Json :=
  jsonObject [("path", .string file.path), ("kind", .string file.kind),
    ("unverified", .bool file.unverified), ("size_bytes", jsonNumber file.sizeBytes)]

def referencedBranchJson (branch : ReferencedBranch) : Json :=
  jsonObject [("name", .string branch.name),
    ("referenced_version", jsonNumber branch.referencedVersion),
    ("cleanup_candidate", .bool branch.cleanupCandidate)]

def explainPolicy (host : Host) (dataset : Except String CleanupSdk)
    (maxCandidateFiles : Option Int) (policy : CleanupPolicy) : Except Failure CleanupPlanRow := do
  let maxCandidateFiles ← orFail (optionalUsize maxCandidateFiles "max_candidate_files")
  orFail (host.runtimeNew.mapError ("failed to create tokio runtime: " ++ ·))
  let dataset ← orFail dataset
  let plan ← orFail ((dataset.explain policy maxCandidateFiles).mapError
    ("failed to build cleanup plan: " ++ ·))
  return {
    readVersion := i64Wrap plan.readVersion
    bytesRemoved := i64Wrap plan.stats.bytesRemoved
    oldVersions := i64Wrap plan.stats.oldVersions
    dataFilesRemoved := i64Wrap plan.stats.dataFilesRemoved
    transactionFilesRemoved := i64Wrap plan.stats.transactionFilesRemoved
    indexFilesRemoved := i64Wrap plan.stats.indexFilesRemoved
    deletionFilesRemoved := i64Wrap plan.stats.deletionFilesRemoved
    candidateFilesTruncated := plan.candidateFilesTruncated
    candidateFileLimit := i64Wrap plan.candidateFileLimit
    candidateFiles := .array (plan.candidateFiles.map candidateFileJson)
    referencedBranches := .array (plan.referencedBranches.map referencedBranchJson)
    warnings := .array (plan.warnings.map .string)
    durationMs := host.elapsedMs }

def lanceCleanupPlanImpl (host : Host) (dataset : Except String CleanupSdk) (now : DateTime)
    (args : CleanupArgs) (maxCandidateFiles : Option Int) : Except Failure CleanupPlanRow := do
  let policy ← cleanupPolicy now args
  explainPolicy host dataset maxCandidateFiles policy

end Metadata

namespace Vacuum

def optionalU64 (value : Option Int) (name : String) : Except String (Option Nat) :=
  match value with
  | some value =>
    if value < 0 then .error (name ++ " must be non-negative")
    else if value ≤ u64Max then .ok (some value.toNat)
    else .error (name ++ " is too large")
  | none => .ok none

structure VacuumStats where
  bytesRemoved : Int
  oldVersions : Int
  dataFilesRemoved : Int
  transactionFilesRemoved : Int
  indexFilesRemoved : Int
  deletionFilesRemoved : Int
  durationMs : Int

def runPolicy (host : Host) (dataset : Except String CleanupSdk) (policy : CleanupPolicy) :
    Except Failure VacuumStats := do
  orFail (host.runtimeNew.mapError ("failed to create tokio runtime: " ++ ·))
  let dataset ← orFail dataset
  let stats ← orFail ((dataset.cleanupWithPolicy policy).mapError ("lance vacuum failed: " ++ ·))
  return {
    bytesRemoved := i64Wrap stats.bytesRemoved
    oldVersions := i64Wrap stats.oldVersions
    dataFilesRemoved := i64Wrap stats.dataFilesRemoved
    transactionFilesRemoved := i64Wrap stats.transactionFilesRemoved
    indexFilesRemoved := i64Wrap stats.indexFilesRemoved
    deletionFilesRemoved := i64Wrap stats.deletionFilesRemoved
    durationMs := host.elapsedMs }

def lanceVacuumImpl (host : Host) (dataset : Except String CleanupSdk) (now : DateTime)
    (args : CleanupArgs) : Except Failure VacuumStats := do
  if args.olderThanSeconds.any (· < 0) then
    .error (.returned "older_than_seconds must be non-negative")
  else
    let beforeTimestamp ← args.olderThanSeconds.mapM fun seconds => do
      now.sub (← durationSeconds seconds)
    let beforeVersion ← orFail (optionalU64 args.beforeVersion "before_version")
    let deleteRateLimit ← orFail (optionalU64 args.deleteRateLimit "delete_rate_limit")
    runPolicy host dataset {
      beforeTimestamp
      beforeVersion
      deleteUnverified := args.deleteUnverified
      errorIfTaggedOldVersions := args.errorIfTaggedOldVersions
      cleanReferencedBranches := args.cleanReferencedBranches
      deleteRateLimit }

end Vacuum

/-! The two policies. -/

def AgeInRange (now : DateTime) (args : CleanupArgs) : Prop :=
  ∀ seconds ∈ args.olderThanSeconds, 0 ≤ seconds →
    seconds ≤ i64Max / 1000 ∧ secondsAt ⟨-262143, 1, 1⟩ ≤ now.secs - seconds

def CutoffAt (now : DateTime) (args : CleanupArgs) (policy : CleanupPolicy) : Prop :=
  match args.olderThanSeconds, policy.beforeTimestamp with
  | none, none => True
  | some seconds, some cutoff => cutoff.secs = now.secs - seconds ∧ cutoff.nanos = now.nanos
  | _, _ => False

/-- Both functions return one argument error, or both go on with one policy. -/
def SamePolicy (now : DateTime) (args : CleanupArgs) : Prop :=
  (∃ e, (∀ host dataset maxCandidateFiles,
      Metadata.lanceCleanupPlanImpl host dataset now args maxCandidateFiles =
        .error (.returned e)) ∧
    ∀ host dataset, Vacuum.lanceVacuumImpl host dataset now args = .error (.returned e)) ∨
  ∃ policy, CutoffAt now args policy ∧
    (∀ host dataset maxCandidateFiles,
      Metadata.lanceCleanupPlanImpl host dataset now args maxCandidateFiles =
        Metadata.explainPolicy host dataset maxCandidateFiles policy) ∧
    ∀ host dataset, Vacuum.lanceVacuumImpl host dataset now args =
      Vacuum.runPolicy host dataset policy

theorem lanceVacuumImpl_eq (host : Host) (dataset : Except String CleanupSdk) (now : DateTime)
    (args : CleanupArgs) : Vacuum.lanceVacuumImpl host dataset now args = (do
      let policy ← Metadata.cleanupPolicy now args
      Vacuum.runPolicy host dataset policy) := by
  have hcopy : Vacuum.optionalU64 = Metadata.optionalU64 := rfl
  rw [Vacuum.lanceVacuumImpl, Metadata.cleanupPolicy, hcopy]
  split
  · rfl
  · simp only [bind_assoc, pure_bind]

theorem cutoff_cases (now : DateTime) {seconds : Int} (h : 0 ≤ seconds) :
    (seconds ≤ i64Max / 1000 ∧ secondsAt ⟨-262143, 1, 1⟩ ≤ now.secs - seconds ∧
      ∃ cutoff, (do now.sub (← durationSeconds seconds)) = .ok cutoff ∧
        cutoff.secs = now.secs - seconds ∧ cutoff.nanos = now.nanos) ∨
    (¬ (seconds ≤ i64Max / 1000 ∧ secondsAt ⟨-262143, 1, 1⟩ ≤ now.secs - seconds) ∧
      ∃ message, (do now.sub (← durationSeconds seconds)) = .error (.panicked message)) := by
  have hlower : -(i64Max / 1000) ≤ seconds := le_trans (by decide) h
  by_cases hduration : seconds ≤ i64Max / 1000
  · rw [durationSeconds, if_pos ⟨hlower, hduration⟩]
    by_cases hcutoff : secondsAt ⟨-262143, 1, 1⟩ ≤ now.secs - seconds
    · have hlt : now.secs - seconds < secondsAt ⟨262143, 1, 1⟩ :=
        lt_of_le_of_lt (Int.sub_le_self _ h) now.secs_lt
      refine .inl ⟨hduration, hcutoff, ⟨now.secs - seconds, now.nanos, now.nanos_lt, hcutoff, hlt⟩,
        ?_, rfl, rfl⟩
      change now.sub seconds = _
      rw [DateTime.sub, dif_pos hcutoff, dif_pos hlt]
    · refine .inr ⟨fun hrange => hcutoff hrange.2, "DateTime - TimeDelta overflowed", ?_⟩
      change now.sub seconds = _
      rw [DateTime.sub, dif_neg hcutoff]
  · refine .inr ⟨fun hrange => hduration hrange.1, "TimeDelta::seconds out of bounds", ?_⟩
    rw [durationSeconds, if_neg fun hrange => hduration hrange.2]
    rfl

theorem cleanupPolicy_of_timestamp {now : DateTime} {args : CleanupArgs}
    {beforeTimestamp : Option DateTime} (hage : args.olderThanSeconds.any (· < 0) = false)
    (h : (args.olderThanSeconds.mapM fun seconds => do now.sub (← durationSeconds seconds)) =
      .ok beforeTimestamp) :
    (∃ e, Metadata.cleanupPolicy now args = .error (.returned e)) ∨
      ∃ policy, Metadata.cleanupPolicy now args = .ok policy ∧
        policy.beforeTimestamp = beforeTimestamp := by
  rw [Metadata.cleanupPolicy, if_neg (by simp [hage]), h]
  cases Metadata.optionalU64 args.beforeVersion "before_version" with
  | error e => exact .inl ⟨e, rfl⟩
  | ok beforeVersion =>
    cases Metadata.optionalU64 args.deleteRateLimit "delete_rate_limit" with
    | error e => exact .inl ⟨e, rfl⟩
    | ok deleteRateLimit => exact .inr ⟨_, rfl, rfl⟩

theorem cleanupPolicy_cases (now : DateTime) (args : CleanupArgs) :
    (AgeInRange now args ∧ ((∃ e, Metadata.cleanupPolicy now args = .error (.returned e)) ∨
      ∃ policy, Metadata.cleanupPolicy now args = .ok policy ∧ CutoffAt now args policy)) ∨
    (¬ AgeInRange now args ∧
      ∃ message, Metadata.cleanupPolicy now args = .error (.panicked message)) := by
  cases hage : args.olderThanSeconds with
  | none =>
    refine .inl ⟨fun seconds hseconds => by simp [hage] at hseconds, ?_⟩
    have hany : args.olderThanSeconds.any (· < 0) = false := by rw [hage]; rfl
    have htimestamp : (args.olderThanSeconds.mapM fun seconds => do
        now.sub (← durationSeconds seconds)) = .ok none := by
      rw [hage]
      rfl
    obtain herror | ⟨policy, hok, hbefore⟩ := cleanupPolicy_of_timestamp hany htimestamp
    · exact .inl herror
    · refine .inr ⟨policy, hok, ?_⟩
      simp only [CutoffAt, hage, hbefore]
  | some seconds =>
    have hrange : AgeInRange now args ↔ (0 ≤ seconds →
        seconds ≤ i64Max / 1000 ∧ secondsAt ⟨-262143, 1, 1⟩ ≤ now.secs - seconds) := by
      simp [AgeInRange, hage]
    by_cases hnegative : seconds < 0
    · refine .inl ⟨hrange.mpr fun h => absurd h (by omega),
        .inl ⟨"older_than_seconds must be non-negative", ?_⟩⟩
      rw [Metadata.cleanupPolicy, if_pos (by simp [hage, hnegative])]
    · have hany : args.olderThanSeconds.any (· < 0) = false := by simp [hage]; omega
      have hnonneg : 0 ≤ seconds := by omega
      obtain ⟨hduration, hge, cutoff, hsub, hcutoff⟩ | ⟨hout, message, hsub⟩ :=
        cutoff_cases now hnonneg
      · refine .inl ⟨hrange.mpr fun _ => ⟨hduration, hge⟩, ?_⟩
        have htimestamp : (args.olderThanSeconds.mapM fun seconds => do
            now.sub (← durationSeconds seconds)) = .ok (some cutoff) := by
          rw [hage, Option.mapM_some, hsub]
          rfl
        obtain herror | ⟨policy, hok, hbefore⟩ := cleanupPolicy_of_timestamp hany htimestamp
        · exact .inl herror
        · refine .inr ⟨policy, hok, ?_⟩
          simp only [CutoffAt, hage, hbefore]
          exact hcutoff
      · refine .inr ⟨fun h => hout (hrange.mp h hnonneg), message, ?_⟩
        rw [Metadata.cleanupPolicy, if_neg (by simp [hany]), hage, Option.mapM_some, hsub]
        rfl

theorem not_samePolicy_of_panic {now : DateTime} {args : CleanupArgs} {message : String}
    (h : Metadata.cleanupPolicy now args = .error (.panicked message)) : ¬ SamePolicy now args := by
  have hvacuum : ∀ host dataset, Vacuum.lanceVacuumImpl host dataset now args =
      .error (.panicked message) := by
    intro host dataset
    rw [lanceVacuumImpl_eq, h]
    rfl
  rintro (⟨e, -, herror⟩ | ⟨policy, -, -, hrun⟩)
  · have hclash := (herror Host.sample (.error "")).symm.trans (hvacuum _ _)
    cases hclash
  · have hclash := (hrun Host.sample (.error "")).symm.trans (hvacuum _ _)
    cases hclash

/-- The two functions agree, and neither panics, exactly when the age is in range. -/
theorem samePolicy_iff (now : DateTime) (args : CleanupArgs) :
    SamePolicy now args ↔ AgeInRange now args := by
  obtain ⟨hrange, hpolicy⟩ | ⟨hrange, message, hpolicy⟩ := cleanupPolicy_cases now args
  · refine iff_of_true ?_ hrange
    obtain ⟨e, herror⟩ | ⟨policy, hok, hcutoff⟩ := hpolicy
    · refine .inl ⟨e, fun host dataset maxCandidateFiles => ?_, fun host dataset => ?_⟩
      · rw [Metadata.lanceCleanupPlanImpl, herror]
        rfl
      · rw [lanceVacuumImpl_eq, herror]
        rfl
    · refine .inr ⟨policy, hcutoff, fun host dataset maxCandidateFiles => ?_,
        fun host dataset => ?_⟩
      · rw [Metadata.lanceCleanupPlanImpl, hok]
        rfl
      · rw [lanceVacuumImpl_eq, hok]
        rfl
  · exact iff_of_false (not_samePolicy_of_panic hpolicy) hrange

/-- The greatest age that fits the argument. -/
theorem samePolicy_greatest_age : ¬ SamePolicy
    ⟨1700000000, 0, by decide, by decide, by decide⟩
    ⟨some i64Max, none, false, false, false, none⟩ := by
  apply not_samePolicy_of_panic
  rw [Metadata.cleanupPolicy, if_neg (by decide)]
  rfl

end PgLance
