import PgLance.Write.AppendRuns

/-! The contract of `lance_append`: what it leaves when it returns, when it fails, and under
another chunking. -/

namespace PgLance

open Chunks Run

variable {Raw : Type}

structure ArgsAccepted (host : Host) (mode : String) (serverName : Option String) : Prop where
  mode : mode = "create" ∨ mode = "append" ∨ mode = "overwrite"
  runtime : host.runtimeNew = .ok ()
  options : ∃ storageOpts, storageOptionsVec host serverName = .ok storageOpts

section

variable {env : Env Raw} {host : Host} {lance : Lance} {uri : String} {source : ResultSet Raw}
  {mode : String} {serverName : Option String} {before after : Option Dataset}

theorem modeAccepts_mode (h : modeAccepts host lance uri mode serverName before = true) :
    mode = "create" ∨ mode = "append" ∨ mode = "overwrite" := by
  unfold modeAccepts at h
  split at h
  · exact .inl rfl
  · exact .inr (.inl rfl)
  · exact .inr (.inr rfl)
  · cases h

theorem committedChunks_of_not_argsAccepted {batchSize : Nat}
    (h : ¬ ArgsAccepted host mode serverName) :
    committedChunks env host lance uri source mode batchSize serverName before = [] := by
  unfold committedChunks
  split
  · rfl
  · rw [if_neg]
    intro hcall
    simp only [callAccepted, Bool.and_eq_true, isOk_iff] at hcall
    obtain ⟨⟨⟨_, hruntime⟩, hopts⟩, hacc⟩ := hcall
    exact h ⟨modeAccepts_mode hacc, hruntime, hopts⟩

theorem outcome_of_argsAccepted (env : Env Raw) (uri : String) (source : ResultSet Raw)
    (batchSize : Nat) (before : Option Dataset) (hl : lance.LawfulWrite)
    (hargs : ArgsAccepted host mode serverName) (storageOpts : StorageOptions) :
    Outcome env host lance uri source mode batchSize serverName before
      (committedChunks env host lance uri source mode batchSize serverName before)
      (runAll (processFetch env source.columns (max batchSize 1) none
        (appendChunk host lance uri mode serverName storageOpts))
        (source.fetches env.settings.writeChunkRows) ⟨0, none, true, before, 0⟩) := by
  unfold committedChunks
  cases hcols : deriveColumns env source.columns none with
  | error e => exact outcome_of_rejected hl hargs.mode (.inl ⟨e, hcols⟩)
  | ok cols =>
    have hok : host.runtimeNew.isOk = true := isOk_iff.mpr ⟨(), hargs.runtime⟩
    have hopts : (storageOptionsVec host serverName).isOk = true := isOk_iff.mpr hargs.options
    cases hacc : modeAccepts host lance uri mode serverName before with
    | false =>
      simp only [callAccepted, hacc, Bool.and_false, Bool.false_eq_true, if_false]
      exact outcome_of_rejected hl hargs.mode (.inr hacc)
    | true =>
      simp only [callAccepted, hok, hopts, hacc, Bool.and_true, if_true]
      exact outcome_of_accepted hl hcols hacc

def callResult (host : Host) (run : Except Failure Unit × ChunkLoopState AppendState) :
    Except Failure (Int × Int) :=
  match run.1 with
  | .ok () => .ok (asI64 run.2.totalRows, host.elapsedMs)
  | .error e => .error (raiseError "lance_append failed: " (spiConnect e))

theorem callResult_ok {run : Except Failure Unit × ChunkLoopState AppendState} {v : Int × Int}
    (h : callResult host run = .ok v) :
    run.1 = .ok () ∧ v = (asI64 run.2.totalRows, host.elapsedMs) := by
  unfold callResult at h
  split at h
  · next hrun => exact ⟨hrun, (Except.ok.inj h).symm⟩
  · cases h

theorem callResult_error {run : Except Failure Unit × ChunkLoopState AppendState} {e : Failure}
    (h : callResult host run = .error e) :
    ∃ e', run.1 = .error e' ∧ e = raiseError "lance_append failed: " (spiConnect e') := by
  unfold callResult at h
  split at h
  · cases h
  · next e' hrun => exact ⟨e', hrun, (Except.error.inj h).symm⟩

theorem lanceAppend_cases (env : Env Raw) (host : Host) (uri : String) (source : ResultSet Raw)
    (mode : String) (batchSize : Int) (serverName : Option String) (before : Option Dataset)
    (hl : lance.LawfulWrite) :
    (¬ ArgsAccepted host mode serverName ∧
      ∃ e, lanceAppend env host lance uri source mode batchSize serverName before =
        (.error e, before)) ∨
    (ArgsAccepted host mode serverName ∧ ∃ run,
      Outcome env host lance uri source mode (i32AsUsize batchSize) serverName before
        (committedChunks env host lance uri source mode (i32AsUsize batchSize) serverName before)
        run ∧
      lanceAppend env host lance uri source mode batchSize serverName before =
        (callResult host run, run.2.handler.store)) := by
  by_cases hmode : mode = "create" ∨ mode = "append" ∨ mode = "overwrite"
  · cases hruntime : host.runtimeNew with
    | error e =>
      refine .inl ⟨fun h => ?_, ?_⟩
      · cases hruntime.symm.trans h.runtime
      · rw [lanceAppend, lanceAppendImpl, if_pos hmode, hruntime]
        exact ⟨_, rfl⟩
    | ok _ =>
      cases hopts : storageOptionsVec host serverName with
      | error e =>
        refine .inl ⟨fun h => ?_, ?_⟩
        · cases h.options with
          | intro storageOpts h => cases hopts.symm.trans h
        · rw [lanceAppend, lanceAppendImpl, if_pos hmode, hruntime, hopts]
          exact ⟨_, rfl⟩
      | ok storageOpts =>
        have hargs : ArgsAccepted host mode serverName := ⟨hmode, hruntime, storageOpts, hopts⟩
        refine .inr ⟨hargs, _, outcome_of_argsAccepted env uri source (i32AsUsize batchSize)
          before hl hargs storageOpts, ?_⟩
        rw [lanceAppend, lanceAppendImpl_loop hmode hruntime hopts]
        generalize runAll _ _ _ = run
        rcases run with ⟨_ | _, st⟩ <;> rfl
  · refine .inl ⟨fun h => hmode h.mode, ?_⟩
    rw [lanceAppend, lanceAppendImpl, if_neg hmode]
    exact ⟨_, rfl⟩

theorem modeContract_rows {mode : String} {rows : List Row} {before a b : Option Dataset}
    (ha : ModeContract mode rows before a) (hb : ModeContract mode rows before b) :
    a.map Dataset.rows = b.map Dataset.rows := by
  unfold ModeContract at ha hb
  split at ha
  · rw [ha.2, hb.2]
  · obtain ⟨old, hold, ha⟩ := ha
    obtain ⟨old', hold', hb⟩ := hb
    rw [hold, Option.some.injEq] at hold'
    rw [ha, hb, hold']
  · rw [ha, hb]
  · cases ha

theorem modeContract_nil (hmode : mode = "create" ∨ mode = "append" ∨ mode = "overwrite") :
    ModeContract mode [] before before ↔
      (mode = "append" ∧ before ≠ none) ∨
        (mode = "overwrite" ∧ before.map Dataset.rows = some []) := by
  rcases hmode with rfl | rfl | rfl
  · cases before <;> simp [ModeContract]
  · cases before <;> simp [ModeContract]
  · simp [ModeContract]

theorem rows_mem_of_mem_committedFrom {cols : List SpiColumnInfo} {batchSize n : Nat}
    {fetches : List (Fetch Raw)} {tuptable : List (SpiRow Raw)}
    (h : tuptable ∈ committedFrom env cols lance batchSize n fetches) :
    .rows tuptable ∈ fetches := by
  induction fetches generalizing n with
  | nil => simp [committedFrom] at h
  | cons fetch fetches ih =>
    cases fetch with
    | failed f => simp [committedFrom] at h
    | rows t =>
      simp only [committedFrom] at h
      split at h
      · cases List.mem_cons.mp h with
        | inl h => rw [h]; exact List.mem_cons_self
        | inr h => exact List.mem_cons_of_mem _ (ih h)
      · cases h

theorem flatten_committedChunks_ne_nil {batchSize : Nat}
    (h : committedChunks env host lance uri source mode batchSize serverName before ≠ []) :
    (committedChunks env host lance uri source mode batchSize serverName before).flatten ≠ [] := by
  obtain ⟨chunk, hchunk⟩ := List.exists_mem_of_ne_nil _ h
  intro hflatten
  rw [List.flatten_eq_nil_iff] at hflatten
  have hnil := hflatten chunk hchunk
  unfold committedChunks at hchunk
  split at hchunk
  · cases hchunk
  · split at hchunk
    · obtain ⟨tuptable, hmem, rfl⟩ := List.mem_map.mp hchunk
      rw [List.map_eq_nil_iff] at hnil
      exact ne_nil_of_mem_fetches (rows_mem_of_mem_committedFrom hmem) hnil
    · cases hchunk

theorem modeContract_unchanged_iff {rows : List Row} (h : ModeContract mode rows before after)
    (hrows : rows ≠ []) :
    after.map Dataset.rows = before.map Dataset.rows ↔
      mode = "overwrite" ∧ before.map Dataset.rows = some rows := by
  unfold ModeContract at h
  split at h
  · rw [h.1, h.2]
    simp
  · obtain ⟨old, rfl, hafter⟩ := h
    rw [hafter]
    simpa using hrows
  · rw [h]
    simp [eq_comm]
  · cases h

theorem lanceAppend_stores {env : Env Raw} {uri : String} {source : ResultSet Raw}
    {batchSize : Int} {v : Int × Int} (hl : lance.LawfulWrite)
    (h : lanceAppend env host lance uri source mode batchSize serverName before = (.ok v, after)) :
    (mode = "create" ∨ mode = "append" ∨ mode = "overwrite") ∧
      (source.rows = [] → after = before) ∧
      (source.rows ≠ [] → ModeContract mode (sourceRows env source none) before after) := by
  cases lanceAppend_cases env host uri source mode batchSize serverName before hl with
  | inl hcase =>
    obtain ⟨-, e, he⟩ := hcase
    cases he.symm.trans h
  | inr hcase =>
    obtain ⟨hargs, run, houtcome, hrun⟩ := hcase
    rw [hrun, Prod.mk.injEq] at h
    rw [← h.2]
    exact ⟨hargs.mode, (houtcome.ok (callResult_ok h.1).1).2⟩

/-- A call that returns meets the contract of its mode exactly when its source has a row, or
nothing had to be written. -/
theorem lanceAppend_contract_iff (env : Env Raw) (host : Host) (lance : Lance) (uri : String)
    (source : ResultSet Raw) (mode : String) (batchSize : Int) (serverName : Option String)
    (before after : Option Dataset) (v : Int × Int) (hl : lance.LawfulWrite)
    (h : lanceAppend env host lance uri source mode batchSize serverName before = (.ok v, after)) :
    ModeContract mode (sourceRows env source none) before after ↔
      source.rows ≠ [] ∨ (mode = "append" ∧ before ≠ none) ∨
        (mode = "overwrite" ∧ before.map Dataset.rows = some []) := by
  obtain ⟨hmode, hempty, hrows⟩ := lanceAppend_stores hl h
  by_cases hsource : source.rows = []
  · have hnil : sourceRows env source none = [] := by
      unfold sourceRows writtenRows
      split <;> simp [hsource]
    rw [hempty hsource, hnil, modeContract_nil hmode]
    simp [hsource]
  · simp [hsource, hrows hsource]

theorem lanceAppend_contract_iff_sample :
    ModeContract "append"
      (sourceRows (Env.sample ⟨0, 2, true⟩) (.sample [1, 2, 3] none (by decide)) none)
      (some (.sample [0]))
      (lanceAppend (Env.sample ⟨0, 2, true⟩) Host.sample (Lance.sample fun _ => none) "/d"
        (.sample [1, 2, 3] none (by decide)) "append" 2 none (some (.sample [0]))).2 :=
  (lanceAppend_contract_iff (Env.sample ⟨0, 2, true⟩) Host.sample (Lance.sample fun _ => none) "/d"
    (.sample [1, 2, 3] none (by decide)) "append" 2 none (some (.sample [0])) _ (3, 0)
    (Lance.sample_lawfulWrite _) (Prod.ext (by decide +kernel) rfl)).mpr (.inl (by decide))

/-- An empty source leaves the rows that an overwrite should have replaced. -/
theorem lanceAppend_overwrite_empty :
    lanceAppend (Env.sample ⟨0, 2, true⟩) Host.sample (Lance.sample fun _ => none) "/d"
        (.sample [] none (by decide)) "overwrite" 1024 none (some (.sample [7])) =
      (.ok (0, 0), some (.sample [7])) ∧
    ¬ ModeContract "overwrite"
      (sourceRows (Env.sample ⟨0, 2, true⟩) (.sample [] none (by decide)) none)
      (some (.sample [7])) (some (.sample [7])) :=
  ⟨by decide +kernel,
    show ¬ (some (Dataset.sample [7])).map Dataset.rows = some (sourceRows _ _ none) by
      decide⟩

/-- A call that fails leaves the rows as they were exactly when no chunk was committed
before it failed, or it overwrote rows by the same rows. -/
theorem lanceAppend_unchanged_iff (env : Env Raw) (host : Host) (lance : Lance) (uri : String)
    (source : ResultSet Raw) (mode : String) (batchSize : Int) (serverName : Option String)
    (before after : Option Dataset) (e : Failure) (hl : lance.LawfulWrite)
    (h : lanceAppend env host lance uri source mode batchSize serverName before =
      (.error e, after)) :
    after.map Dataset.rows = before.map Dataset.rows ↔
      committedChunks env host lance uri source mode (i32AsUsize batchSize) serverName before = [] ∨
      (mode = "overwrite" ∧ before.map Dataset.rows = some
        (committedChunks env host lance uri source mode (i32AsUsize batchSize) serverName
          before).flatten) := by
  cases lanceAppend_cases env host uri source mode batchSize serverName before hl with
  | inl hcase =>
    obtain ⟨hargs, e', he⟩ := hcase
    cases he.symm.trans h
    simp [committedChunks_of_not_argsAccepted hargs]
  | inr hcase =>
    obtain ⟨hargs, run, houtcome, hrun⟩ := hcase
    rw [hrun, Prod.mk.injEq] at h
    obtain ⟨e', he', -⟩ := callResult_error h.1
    obtain ⟨hnone, hsome⟩ := houtcome.error e' he'
    rw [← h.2]
    by_cases hchunks : committedChunks env host lance uri source mode (i32AsUsize batchSize)
        serverName before = []
    · simp [hnone hchunks, hchunks]
    · rw [modeContract_unchanged_iff (hsome hchunks) (flatten_committedChunks_ne_nil hchunks)]
      simp [hchunks]

theorem lanceAppend_unchanged_iff_sample :
    (lanceAppend (Env.sample ⟨0, 2, true⟩) Host.sample (Lance.sample fun _ => none) "/d"
      (.sample [1] (some (.raised "division by zero")) (by decide)) "append" 2 none
      (some (.sample [0]))).2.map Dataset.rows = (some (Dataset.sample [0])).map Dataset.rows :=
  (lanceAppend_unchanged_iff (Env.sample ⟨0, 2, true⟩) Host.sample (Lance.sample fun _ => none) "/d"
    (.sample [1] (some (.raised "division by zero")) (by decide)) "append" 2 none
    (some (.sample [0])) _ (.raised "division by zero") (Lance.sample_lawfulWrite _)
    (Prod.ext (by decide +kernel) rfl)).mpr (.inl (by decide +kernel))

/-- The chunks before an error of the source query stay in the dataset. -/
theorem lanceAppend_failed_changed :
    lanceAppend (Env.sample ⟨0, 1, true⟩) Host.sample (Lance.sample fun _ => none) "/d"
        (.sample [1, 2] (some (.raised "division by zero")) (by decide)) "append" 2 none
        (some (.sample [0])) =
      (.error (.raised "division by zero"), some (.sample [0, 1, 2])) ∧
    (some (Dataset.sample [0, 1, 2])).map Dataset.rows ≠
      (some (Dataset.sample [0])).map Dataset.rows :=
  ⟨by decide +kernel, by decide +kernel⟩

def HitsGuard (env : Env Raw) (result : Except Failure (Int × Int)) : Prop :=
  ∃ n, result = .error (raiseError "lance_append failed: "
    (spiConnect (.returned (bufferGuardMessage env.settings.maxWriteBufferBytes n))))

theorem not_hitsGuard {result : Except Failure (Int × Int)} {v : Int × Int} (h : result = .ok v) :
    ¬ HitsGuard env result := by
  intro hguard
  cases hguard with
  | intro n hn => cases h.symm.trans hn

theorem committedChunks_of_rejected {batchSize : Nat}
    (h : Rejected env host lance uri source mode serverName before) :
    committedChunks env host lance uri source mode batchSize serverName before = [] := by
  cases h with
  | inl h =>
    cases h with
    | intro e he => simp [committedChunks, he]
  | inr h =>
    unfold committedChunks
    split
    · rfl
    · simp [callAccepted, h]

theorem lanceAppend_reliable (env : Env Raw) (uri : String) (batchSize : Int)
    (before : Option Dataset) (hl : lance.LawfulWrite) (hfaults : ∀ n, lance.commitFault n = none)
    (hsource : source.error = none)
    (hguard : ¬ HitsGuard env
      (lanceAppend env host lance uri source mode batchSize serverName before).1) :
    (ArgsAccepted host mode serverName →
        (source.rows ≠ [] → ¬ Rejected env host lance uri source mode serverName before) →
      ∃ after, lanceAppend env host lance uri source mode batchSize serverName before =
          (.ok (asI64 source.rows.length, host.elapsedMs), after) ∧
        (source.rows = [] → after = before) ∧
        (source.rows ≠ [] → ModeContract mode (sourceRows env source none) before after)) ∧
    (¬ (ArgsAccepted host mode serverName ∧
        (source.rows ≠ [] → ¬ Rejected env host lance uri source mode serverName before)) →
      ∃ e, lanceAppend env host lance uri source mode batchSize serverName before =
        (.error e, before)) := by
  cases lanceAppend_cases env host uri source mode batchSize serverName before hl with
  | inl hcase => exact ⟨fun hargs => absurd hargs hcase.1, fun _ => hcase.2⟩
  | inr hcase =>
    obtain ⟨hargs, run, houtcome, hrun⟩ := hcase
    rw [hrun] at hguard ⊢
    constructor
    · intro _ haccepted
      cases hresult : run.1 with
      | ok _ =>
        obtain ⟨htotal, hstore⟩ := houtcome.ok hresult
        exact ⟨run.2.handler.store, by simp [callResult, hresult, htotal], hstore⟩
      | error e =>
        exfalso
        cases houtcome.reliable e hresult hsource hfaults with
        | inl h =>
          obtain ⟨n, rfl⟩ := h
          exact hguard ⟨n, by simp [callResult, hresult]⟩
        | inr h => exact haccepted h.1 h.2
    · intro hnot
      have hrejected :
          source.rows ≠ [] ∧ Rejected env host lance uri source mode serverName before := by
        by_contra h
        exact hnot ⟨hargs, fun hrows hrej => h ⟨hrows, hrej⟩⟩
      obtain ⟨e, he⟩ := houtcome.rejected hrejected.1 hrejected.2
      have hstore := (houtcome.error e he).1 (committedChunks_of_rejected hrejected.2)
      refine ⟨raiseError "lance_append failed: " (spiConnect e), ?_⟩
      simp only [callResult, he, hstore]

/-- Neither the chunk size nor the batch size has a part in what a call does. -/
theorem lanceAppend_chunking (env : Env Raw) (host : Host) (lance : Lance) (uri : String)
    (source : ResultSet Raw) (mode : String) (serverName : Option String) (before : Option Dataset)
    (settings₁ settings₂ : Settings) (batchSize₁ batchSize₂ : Int) (hl : lance.LawfulWrite)
    (hfaults : ∀ n, lance.commitFault n = none) (hsource : source.error = none)
    {result₁ result₂ : Except Failure (Int × Int)} {after₁ after₂ : Option Dataset}
    (h₁ : lanceAppend { env with settings := settings₁ } host lance uri source mode batchSize₁
      serverName before = (result₁, after₁))
    (h₂ : lanceAppend { env with settings := settings₂ } host lance uri source mode batchSize₂
      serverName before = (result₂, after₂))
    (hguard₁ : ¬ HitsGuard { env with settings := settings₁ } result₁)
    (hguard₂ : ¬ HitsGuard { env with settings := settings₂ } result₂) :
    ((∃ e₁ e₂, result₁ = .error e₁ ∧ result₂ = .error e₂) ∨
      (∃ rowsWritten ms₁ ms₂,
        result₁ = .ok (rowsWritten, ms₁) ∧ result₂ = .ok (rowsWritten, ms₂))) ∧
    after₁.map Dataset.rows = after₂.map Dataset.rows := by
  have hrun₁ := lanceAppend_reliable { env with settings := settings₁ } uri batchSize₁ before hl
    hfaults hsource (by rwa [h₁])
  have hrun₂ := lanceAppend_reliable { env with settings := settings₂ } uri batchSize₂ before hl
    hfaults hsource (by rwa [h₂])
  by_cases hsucceeds : ArgsAccepted host mode serverName ∧
      (source.rows ≠ [] → ¬ Rejected env host lance uri source mode serverName before)
  · obtain ⟨a₁, hok₁, hnone₁, hsome₁⟩ := hrun₁.1 hsucceeds.1 hsucceeds.2
    obtain ⟨a₂, hok₂, hnone₂, hsome₂⟩ := hrun₂.1 hsucceeds.1 hsucceeds.2
    cases h₁.symm.trans hok₁
    cases h₂.symm.trans hok₂
    refine ⟨.inr ⟨_, _, _, rfl, rfl⟩, ?_⟩
    by_cases hrows : source.rows = []
    · rw [hnone₁ hrows, hnone₂ hrows]
    · exact modeContract_rows (hsome₁ hrows) (hsome₂ hrows)
  · obtain ⟨e₁, herror₁⟩ := hrun₁.2 hsucceeds
    obtain ⟨e₂, herror₂⟩ := hrun₂.2 hsucceeds
    cases h₁.symm.trans herror₁
    cases h₂.symm.trans herror₂
    exact ⟨.inl ⟨_, _, rfl, rfl⟩, rfl⟩

theorem lanceAppend_chunking_sample :
    (lanceAppend { Env.sample ⟨0, 0, true⟩ with settings := ⟨0, 1, true⟩ } Host.sample
        (Lance.sample fun _ => none) "/d" (.sample [1, 2, 3] none (by decide)) "create" 2 none
        none).2.map Dataset.rows =
      (lanceAppend { Env.sample ⟨0, 0, true⟩ with settings := ⟨0, 2, true⟩ } Host.sample
        (Lance.sample fun _ => none) "/d" (.sample [1, 2, 3] none (by decide)) "create" (-1) none
        none).2.map Dataset.rows :=
  have h₁ : (lanceAppend { Env.sample ⟨0, 0, true⟩ with settings := ⟨0, 1, true⟩ } Host.sample
      (Lance.sample fun _ => none) "/d" (.sample [1, 2, 3] none (by decide)) "create" 2 none
      none).1 = .ok (3, 0) := by decide +kernel
  have h₂ : (lanceAppend { Env.sample ⟨0, 0, true⟩ with settings := ⟨0, 2, true⟩ } Host.sample
      (Lance.sample fun _ => none) "/d" (.sample [1, 2, 3] none (by decide)) "create" (-1) none
      none).1 = .ok (3, 0) := by decide +kernel
  (lanceAppend_chunking (Env.sample ⟨0, 0, true⟩) Host.sample (Lance.sample fun _ => none) "/d"
    (.sample [1, 2, 3] none (by decide)) "create" none none ⟨0, 1, true⟩ ⟨0, 2, true⟩ 2 (-1)
    (Lance.sample_lawfulWrite _) (fun _ => rfl) rfl rfl rfl (not_hitsGuard h₁)
    (not_hitsGuard h₂)).2

end

end PgLance
