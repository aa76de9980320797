import PgLance.Write.Append
import PgLance.Write.Chunking

/-! What a run of `lance_append` leaves in the dataset: the mode's contract with the chunks
that were committed. -/

namespace PgLance

open Chunks Run

variable {Raw : Type}

/-- The dataset before and after `rows` were written in a mode. -/
def ModeContract (mode : String) (rows : List Row) (before after : Option Dataset) : Prop :=
  match mode with
  | "create" => before = none ∧ after.map Dataset.rows = some rows
  | "append" => ∃ old, before = some old ∧ after.map Dataset.rows = some (old.rows ++ rows)
  | "overwrite" => after.map Dataset.rows = some rows
  | _ => False

theorem ModeContract.append {mode : String} {rows more : List Row} {before : Option Dataset}
    {d d' : Dataset} (h : ModeContract mode rows before (some d)) (hd : d'.rows = d.rows ++ more) :
    ModeContract mode (rows ++ more) before (some d') := by
  unfold ModeContract at h ⊢
  split at h
  · simpa [hd, h.1] using h.2
  · cases h with
    | intro old h =>
      have hrows : d.rows = old.rows ++ rows := by simpa using h.2
      exact ⟨old, h.1, by simp [hd, hrows]⟩
  · simpa [hd] using h
  · exact h

def modeAccepts (host : Host) (lance : Lance) (uri mode : String) (serverName : Option String)
    (before : Option Dataset) : Bool :=
  match mode with
  | "create" => before.isNone
  | "append" => (openDataset host lance uri serverName before).isOk
  | "overwrite" => true
  | _ => false

section

variable {env : Env Raw} {cols : List SpiColumnInfo} {host : Host} {lance : Lance}
  {uri mode : String} {serverName : Option String} {storageOpts : StorageOptions}
  {before : Option Dataset}

inductive Written (env : Env Raw) (cols : List SpiColumnInfo) (mode : String)
    (before : Option Dataset) : List (List (SpiRow Raw)) → AppendState → Prop
  | none : Written env cols mode before [] ⟨true, before, 0⟩
  | some {pieces d} : pieces ≠ [] →
    ModeContract mode (pieces.flatten.map (convertRow env.pgrx cols)) before (some d) →
    Written env cols mode before pieces ⟨false, some d, pieces.length⟩

def Stored (env : Env Raw) (cols : List SpiColumnInfo) (mode : String) (before : Option Dataset)
    (pieces : List (List (SpiRow Raw))) (store : Option Dataset) : Prop :=
  (pieces = [] → store = before) ∧
    (pieces ≠ [] → ModeContract mode (pieces.flatten.map (convertRow env.pgrx cols)) before store)

theorem Written.stored {pieces : List (List (SpiRow Raw))} {st : AppendState}
    (h : Written env cols mode before pieces st) : Stored env cols mode before pieces st.store := by
  cases h with
  | none => exact ⟨fun _ => rfl, fun h => absurd rfl h⟩
  | some hne hd => exact ⟨fun h => absurd h hne, fun _ => hd⟩

theorem Written.writes {pieces : List (List (SpiRow Raw))} {st : AppendState}
    (h : Written env cols mode before pieces st) : st.writes = pieces.length := by
  cases h <;> rfl

theorem writeNth_of_fault {n : Nat} {e : String} (h : lance.commitFault n = some e)
    (params : WriteParams) (store : Option Dataset) (schema : Schema) (batches : List RecordBatch) :
    lance.writeNth n params store schema batches = (.error e, store) := by
  simp [Lance.writeNth, h]

theorem writeNth_ok {n : Nat} (h : lance.commitFault n = none) {params : WriteParams}
    {store : Option Dataset} {schema : Schema} {batches : List RecordBatch} {d : Dataset}
    (hwrite : lance.write params store schema batches = .ok d) :
    lance.writeNth n params store schema batches = (.ok (), some d) := by
  simp [Lance.writeNth, h, hwrite]

theorem appendChunk_error {schema : Schema} {batches : List RecordBatch} {st st' : AppendState}
    {e : Failure}
    (h : appendChunk host lance uri mode serverName storageOpts schema batches st =
      (.error e, st')) :
    st'.store = st.store := by
  unfold appendChunk at h
  split at h
  · cases h
  · dsimp only at h
    split at h
    · cases h; rfl
    · split at h
      · next hwrite =>
        cases h
        unfold Lance.writeNth at hwrite
        split at hwrite
        · cases hwrite; rfl
        · split at hwrite
          · cases hwrite; rfl
          · cases hwrite
      · cases h

theorem appendChunk_of_fault (host : Host) (uri mode : String) (serverName : Option String)
    (storageOpts : StorageOptions) (schema : Schema) {batches : List RecordBatch} {st : AppendState}
    {e : String} (hb : batches ≠ []) (h : lance.commitFault st.writes = some e) :
    ∃ e' st', appendChunk host lance uri mode serverName storageOpts schema batches st =
      (.error e', st') := by
  have hempty : batches.isEmpty = false := by simpa using hb
  unfold appendChunk
  simp only [hempty, Bool.false_eq_true, if_false, writeNth_of_fault h]
  split <;> exact ⟨_, _, rfl⟩

theorem appendChunk_first (storageOpts : StorageOptions) (hl : lance.LawfulWrite)
    (hacc : modeAccepts host lance uri mode serverName before = true)
    (hfault : lance.commitFault 0 = none) (schema : Schema) {batches : List RecordBatch}
    (hb : batches ≠ []) :
    ∃ d, appendChunk host lance uri mode serverName storageOpts schema batches ⟨true, before, 0⟩ =
        (.ok (), ⟨false, some d, 1⟩) ∧ ModeContract mode (batchRows batches) before (some d) := by
  have hempty : batches.isEmpty = false := by simpa using hb
  unfold modeAccepts at hacc
  split at hacc
  · cases before with
    | some d => simp at hacc
    | none =>
      obtain ⟨d, hwrite, hrows⟩ :=
        hl.create_none (storeParams storageOpts) schema batches
      refine ⟨d, ?_, rfl, by simp [hrows]⟩
      simp [appendChunk, hempty, writeNth_ok hfault hwrite]
  · cases hopen : openDataset host lance uri serverName before with
    | error e => simp [hopen, Except.isOk, Except.toBool] at hacc
    | ok old =>
      have hbefore := openDataset_ok hl.load hopen
      obtain ⟨d, hwrite, hrows⟩ :=
        hl.append (storeParams storageOpts) old schema batches
      rw [← hbefore] at hwrite
      refine ⟨d, ?_, old, hbefore, by simp [hrows]⟩
      simp [appendChunk, hempty, hopen, Except.map, writeNth_ok hfault hwrite]
  · obtain ⟨d, hwrite, hrows⟩ :=
      hl.overwrite (storeParams storageOpts) before schema batches
    refine ⟨d, ?_, by simp [ModeContract, hrows]⟩
    simp [appendChunk, hempty, writeNth_ok hfault hwrite]
  · cases hacc

theorem appendChunk_rejected (storageOpts : StorageOptions) (hl : lance.LawfulWrite)
    (hmode : mode = "create" ∨ mode = "append" ∨ mode = "overwrite")
    (hacc : modeAccepts host lance uri mode serverName before = false) (n : Nat)
    (schema : Schema) {batches : List RecordBatch} (hb : batches ≠ []) :
    ∃ e st', appendChunk host lance uri mode serverName storageOpts schema batches
      ⟨true, before, n⟩ = (.error e, st') := by
  have hempty : batches.isEmpty = false := by simpa using hb
  rcases hmode with rfl | rfl | rfl
  · cases before with
    | none => simp [modeAccepts] at hacc
    | some d =>
      obtain ⟨e, hwrite⟩ := hl.create_some
        (storeParams storageOpts) d schema batches
      cases hfault : lance.commitFault n with
      | some e' =>
        exact appendChunk_of_fault host uri "create" serverName storageOpts schema hb hfault
      | none => simp [appendChunk, hempty, Lance.writeNth, hfault, hwrite]
  · cases hopen : openDataset host lance uri serverName before with
    | ok old => simp [modeAccepts, hopen, Except.isOk, Except.toBool] at hacc
    | error e => simp [appendChunk, hempty, hopen, Except.map]
  · simp [modeAccepts] at hacc

theorem appendChunk_later (host : Host) (uri mode : String) (serverName : Option String)
    (storageOpts : StorageOptions) (hl : lance.LawfulWrite) {n : Nat}
    (hfault : lance.commitFault n = none) (old : Dataset) (schema : Schema)
    {batches : List RecordBatch} (hb : batches ≠ []) :
    ∃ d, appendChunk host lance uri mode serverName storageOpts schema batches
        ⟨false, some old, n⟩ = (.ok (), ⟨false, some d, n + 1⟩) ∧
      d.rows = old.rows ++ batchRows batches := by
  have hempty : batches.isEmpty = false := by simpa using hb
  obtain ⟨d, hwrite, hrows⟩ :=
    hl.append (storeParams storageOpts) old schema batches
  refine ⟨d, ?_, hrows⟩
  simp [appendChunk, hempty, writeNth_ok hfault hwrite]

theorem appendChunk_written (storageOpts : StorageOptions) (hl : lance.LawfulWrite)
    {pieces : List (List (SpiRow Raw))} {st : AppendState}
    (hst : Written env cols mode before pieces st)
    (hacc : modeAccepts host lance uri mode serverName before = true)
    (hfault : lance.commitFault pieces.length = none) {batchSize : Nat}
    {tuptable : List (SpiRow Raw)} {batches : List RecordBatch} (hne : tuptable ≠ [])
    (hcut : CutInto env cols batchSize tuptable batches) :
    ∃ st', appendChunk host lance uri mode serverName storageOpts (buildArrowSchema cols) batches st
        = (.ok (), st') ∧ Written env cols mode before (pieces ++ [tuptable]) st' := by
  have hrows : batchRows batches = tuptable.map (convertRow env.pgrx cols) := hcut.flatMap_rows
  cases hst with
  | none =>
    obtain ⟨d, hchunk, hd⟩ :=
      appendChunk_first storageOpts hl hacc hfault (buildArrowSchema cols)
        (hcut.ne_nil hne)
    refine ⟨_, hchunk, ?_⟩
    apply Written.some (by simp)
    simpa [hrows] using hd
  | some hpieces hd =>
    obtain ⟨d', hchunk, hd'⟩ :=
      appendChunk_later host uri mode serverName storageOpts hl hfault _ (buildArrowSchema cols)
        (hcut.ne_nil hne)
    rename_i d
    have hwritten : Written env cols mode before (pieces ++ [tuptable])
        ⟨false, some d', (pieces ++ [tuptable]).length⟩ := by
      apply Written.some (by simp)
      rw [hrows] at hd'
      simpa using hd.append hd'
    rw [List.length_append, List.length_singleton] at hwritten
    exact ⟨_, hchunk, hwritten⟩

/-- The chunks that a run commits: those before the first that fails. -/
def committedFrom (env : Env Raw) (cols : List SpiColumnInfo) (lance : Lance) (batchSize : Nat) :
    Nat → List (Fetch Raw) → List (List (SpiRow Raw))
  | n, .rows tuptable :: rest =>
    if ¬ GuardTrips env cols batchSize tuptable ∧ lance.commitFault n = none then
      tuptable :: committedFrom env cols lance batchSize (n + 1) rest
    else []
  | _, _ => []

structure CommitsAll (env : Env Raw) (cols : List SpiColumnInfo) (mode : String) (lance : Lance)
    (before : Option Dataset) (batchSize : Nat) (fetches : List (Fetch Raw))
    (pieces : List (List (SpiRow Raw))) (st : ChunkLoopState AppendState)
    (run : Except Failure Unit × ChunkLoopState AppendState) : Prop where
  stored : Stored env cols mode before
    (pieces ++ committedFrom env cols lance batchSize pieces.length fetches) run.2.handler.store
  ok : run.1 = .ok () →
    fetches = (committedFrom env cols lance batchSize pieces.length fetches).map .rows ∧
    run.2.totalRows = st.totalRows +
      (committedFrom env cols lance batchSize pieces.length fetches).flatten.length
  error : ∀ e, run.1 = .error e →
    (∃ n, e = .returned (bufferGuardMessage env.settings.maxWriteBufferBytes n)) ∨
    (∃ f, .failed f ∈ fetches) ∨ ∃ n e', lance.commitFault n = some e'

variable {columns : List SpiColumn} {typeOverrides : Option ArrowTypeOverrides}

theorem commitsAll_run (storageOpts : StorageOptions) (hl : lance.LawfulWrite)
    (hcols : deriveColumns env columns typeOverrides = .ok cols)
    (hacc : modeAccepts host lance uri mode serverName before = true) (batchSize : Nat)
    {fetches : List (Fetch Raw)} (hne : ∀ tuptable, .rows tuptable ∈ fetches → tuptable ≠ [])
    {pieces : List (List (SpiRow Raw))} {st : ChunkLoopState AppendState} (hst : st.Knows cols)
    (hw : Written env cols mode before pieces st.handler) :
    CommitsAll env cols mode lance before batchSize fetches pieces st
      (runAll (processFetch env columns batchSize typeOverrides
        (appendChunk host lance uri mode serverName storageOpts)) fetches st) := by
  induction fetches generalizing pieces st with
  | nil =>
    constructor
    · simpa [committedFrom] using hw.stored
    · simp [committedFrom]
    · intro e h
      cases h
  | cons fetch fetches ih =>
    cases fetch with
    | failed f =>
      have hfail : ∃ e, processFetch env columns batchSize typeOverrides
          (appendChunk host lance uri mode serverName storageOpts) (.failed f) st =
            (.error e, st) := by
        cases f <;> exact ⟨_, rfl⟩
      obtain ⟨e, hfail⟩ := hfail
      rw [runAll_cons_error hfail]
      constructor
      · simpa [committedFrom] using hw.stored
      · intro h
        cases h
      · intro e' _
        exact .inr (.inl ⟨f, by simp⟩)
    | rows tuptable =>
      have htuptable : tuptable ≠ [] := hne tuptable (by simp)
      by_cases hguard : GuardTrips env cols batchSize tuptable
      · obtain ⟨n, hn⟩ := processChunk_of_guardTrips hcols
          (appendChunk host lance uri mode serverName storageOpts) hst hguard
        rw [runAll_cons_error (by exact hn)]
        constructor
        · simpa [committedFrom, hguard] using hw.stored
        · intro h
          cases h
        · intro e h
          cases h
          exact .inl ⟨n, rfl⟩
      · obtain ⟨batches, hcut, hprocess⟩ := processChunk_of_not_guardTrips hcols
          (appendChunk host lance uri mode serverName storageOpts) hst hguard
        cases hfault : lance.commitFault pieces.length with
        | some e =>
          rw [← hw.writes] at hfault
          obtain ⟨e', st', hchunk⟩ := appendChunk_of_fault host uri mode serverName storageOpts
            (buildArrowSchema cols) (hcut.ne_nil htuptable) hfault
          rw [hchunk] at hprocess
          rw [runAll_cons_error (by exact hprocess)]
          have hstore := appendChunk_error hchunk
          rw [hw.writes] at hfault
          constructor
          · simpa [committedFrom, hfault, hstore] using hw.stored
          · intro h
            cases h
          · intro _ _
            exact .inr (.inr ⟨_, e, hfault⟩)
        | none =>
          obtain ⟨st', hchunk, hwritten⟩ :=
            appendChunk_written storageOpts hl hw hacc hfault htuptable hcut
          rw [hchunk] at hprocess
          rw [runAll_cons_ok (by exact hprocess)]
          have hknows : ChunkLoopState.Knows
              ⟨st.totalRows + tuptable.length, some (buildArrowSchema cols, cols), st'⟩ cols :=
            .inr rfl
          have hrest := ih (fun t ht => hne t (by simp [ht])) hknows hwritten
          have hcommitted : committedFrom env cols lance batchSize pieces.length
              (.rows tuptable :: fetches) = tuptable ::
                committedFrom env cols lance batchSize (pieces.length + 1) fetches := by
            simp [committedFrom, hguard, hfault]
          have hlen : (pieces ++ [tuptable]).length = pieces.length + 1 := by simp
          constructor
          · rw [hcommitted]
            simpa [hlen] using hrest.stored
          · intro h
            have hok := hrest.ok h
            rw [hlen] at hok
            rw [hcommitted]
            constructor
            · rw [List.map_cons, ← hok.1]
            · rw [hok.2, List.flatten_cons, List.length_append, Nat.add_assoc]
          · intro e h
            cases hrest.error e h with
            | inl h => exact .inl h
            | inr h =>
              cases h with
              | inl h =>
                cases h with
                | intro f hf => exact .inr (.inl ⟨f, by simp [hf]⟩)
              | inr h => exact .inr (.inr h)

end

section

variable (env : Env Raw) (host : Host) (lance : Lance) (uri : String) (source : ResultSet Raw)
  (mode : String) (batchSize : Nat) (serverName : Option String) (before : Option Dataset)

def writtenRows (columns : List SpiColumn) (typeOverrides : Option ArrowTypeOverrides)
    (rows : List (SpiRow Raw)) : List Row :=
  match deriveColumns env columns typeOverrides with
  | .ok cols => rows.map (convertRow env.pgrx cols)
  | .error _ => []

def sourceRows (typeOverrides : Option ArrowTypeOverrides) : List Row :=
  writtenRows env source.columns typeOverrides source.rows

def callAccepted : Bool :=
  host.runtimeNew.isOk && (storageOptionsVec host serverName).isOk &&
    modeAccepts host lance uri mode serverName before

def committedChunks : List (List Row) :=
  match deriveColumns env source.columns none with
  | .error _ => []
  | .ok cols =>
    if callAccepted host lance uri mode serverName before then
      (committedFrom env cols lance (max batchSize 1) 0
        (source.fetches env.settings.writeChunkRows)).map (List.map (convertRow env.pgrx cols))
    else []

end

section

variable {env : Env Raw} {host : Host} {lance : Lance} {uri : String} {source : ResultSet Raw}
  {mode : String} {batchSize : Nat} {serverName : Option String} {before after : Option Dataset}
  {storageOpts : StorageOptions}

theorem isOk_iff {ε α : Type} {x : Except ε α} : x.isOk = true ↔ ∃ a, x = .ok a := by
  cases x <;> simp [Except.isOk, Except.toBool]

theorem lanceAppendImpl_loop (hmode : mode = "create" ∨ mode = "append" ∨ mode = "overwrite")
    (hruntime : host.runtimeNew = .ok ())
    (hopts : storageOptionsVec host serverName = .ok storageOpts) :
    lanceAppendImpl env host lance uri source mode batchSize serverName before =
      let (result, st) := runAll (processFetch env source.columns (max batchSize 1) none
        (appendChunk host lance uri mode serverName storageOpts))
        (source.fetches env.settings.writeChunkRows) ⟨0, none, true, before, 0⟩
      (((result.mapError spiConnect).map fun _ => st.totalRows).map fun totalRows =>
        (asI64 totalRows, host.elapsedMs), st.handler.store) := by
  rw [lanceAppendImpl, if_pos hmode, hruntime, hopts]
  simp only [forEachSpiChunk, forEachSpiChunk_eq]

theorem knows_start (before : Option Dataset) (cols : List SpiColumnInfo) :
    (ChunkLoopState.mk 0 none (⟨true, before, 0⟩ : AppendState)).Knows cols := .inl rfl

def Rejected (env : Env Raw) (host : Host) (lance : Lance) (uri : String) (source : ResultSet Raw)
    (mode : String) (serverName : Option String) (before : Option Dataset) : Prop :=
  (∃ e, deriveColumns env source.columns none = .error e) ∨
    modeAccepts host lance uri mode serverName before = false

theorem run_rejected (batchSize : Nat) (storageOpts : StorageOptions) (fetches : List (Fetch Raw))
    (hl : lance.LawfulWrite) (hmode : mode = "create" ∨ mode = "append" ∨ mode = "overwrite")
    (hrej : Rejected env host lance uri source mode serverName before) {fetch : Fetch Raw}
    (hne : ∀ tuptable, fetch = .rows tuptable → tuptable ≠ []) :
    ∃ e st, runAll (processFetch env source.columns (max batchSize 1) none
        (appendChunk host lance uri mode serverName storageOpts)) (fetch :: fetches)
        ⟨0, none, true, before, 0⟩ = (.error e, st) ∧ st.handler.store = before := by
  have hfails : ∃ e st, processFetch env source.columns (max batchSize 1) none
      (appendChunk host lance uri mode serverName storageOpts) fetch ⟨0, none, true, before, 0⟩ =
        (.error e, st) ∧ st.handler.store = before := by
    cases fetch with
    | failed f => cases f <;> exact ⟨_, _, rfl, rfl⟩
    | rows tuptable =>
      cases hcols : deriveColumns env source.columns none with
      | error e =>
        have hchunk := processChunk_of_error hcols (max batchSize 1)
          (appendChunk host lance uri mode serverName storageOpts) tuptable
          (show (ChunkLoopState.mk 0 none ⟨true, before, 0⟩).schemaCols = none from rfl)
        exact ⟨_, _, hchunk, rfl⟩
      | ok cols =>
        have hacc : modeAccepts host lance uri mode serverName before = false := by
          cases hrej with
          | inl h =>
            cases h with
            | intro e he => cases hcols.symm.trans he
          | inr h => exact h
        by_cases hguard : GuardTrips env cols (max batchSize 1) tuptable
        · obtain ⟨n, hn⟩ := processChunk_of_guardTrips hcols
            (appendChunk host lance uri mode serverName storageOpts)
            (knows_start before cols) hguard
          exact ⟨_, _, hn, rfl⟩
        · obtain ⟨batches, hcut, hprocess⟩ := processChunk_of_not_guardTrips hcols
            (appendChunk host lance uri mode serverName storageOpts)
            (knows_start before cols) hguard
          obtain ⟨e, st', hchunk⟩ := appendChunk_rejected storageOpts hl hmode hacc 0
            (buildArrowSchema cols) (hcut.ne_nil (hne tuptable rfl))
          rw [hchunk] at hprocess
          exact ⟨e, _, hprocess, appendChunk_error hchunk⟩
  obtain ⟨e, st, hfail, hstore⟩ := hfails
  exact ⟨e, st, runAll_cons_error hfail, hstore⟩

structure Outcome (env : Env Raw) (host : Host) (lance : Lance) (uri : String)
    (source : ResultSet Raw) (mode : String) (batchSize : Nat) (serverName : Option String)
    (before : Option Dataset) (chunks : List (List Row))
    (run : Except Failure Unit × ChunkLoopState AppendState) : Prop where
  ok : run.1 = .ok () →
    run.2.totalRows = source.rows.length ∧ (source.rows = [] → run.2.handler.store = before) ∧
    (source.rows ≠ [] → ModeContract mode (sourceRows env source none) before run.2.handler.store)
  error : ∀ e, run.1 = .error e →
    (chunks = [] → run.2.handler.store = before) ∧
    (chunks ≠ [] → ModeContract mode chunks.flatten before run.2.handler.store)
  rejected : source.rows ≠ [] → Rejected env host lance uri source mode serverName before →
    ∃ e, run.1 = .error e
  reliable : ∀ e, run.1 = .error e → source.error = none → (∀ n, lance.commitFault n = none) →
    (∃ n, e = .returned (bufferGuardMessage env.settings.maxWriteBufferBytes n)) ∨
      (source.rows ≠ [] ∧ Rejected env host lance uri source mode serverName before)

theorem outcome_of_rejected (hl : lance.LawfulWrite)
    (hmode : mode = "create" ∨ mode = "append" ∨ mode = "overwrite")
    (hrej : Rejected env host lance uri source mode serverName before) :
    Outcome env host lance uri source mode batchSize serverName before []
      (runAll (processFetch env source.columns (max batchSize 1) none
        (appendChunk host lance uri mode serverName storageOpts))
        (source.fetches env.settings.writeChunkRows) ⟨0, none, true, before, 0⟩) := by
  cases hfetches : source.fetches env.settings.writeChunkRows with
  | nil =>
    have hrows : source.rows = [] := by
      by_contra h
      exact fetches_ne_nil h hfetches
    constructor
    · intro _
      exact ⟨by simp [hrows], fun _ => rfl, fun h => absurd hrows h⟩
    · intro e h
      cases h
    · intro h
      exact absurd hrows h
    · intro e h
      cases h
  | cons fetch fetches =>
    have hne : ∀ tuptable, fetch = .rows tuptable → tuptable ≠ [] := by
      intro tuptable h
      have hmem : .rows tuptable ∈ source.fetches env.settings.writeChunkRows := by
        rw [hfetches, h]
        exact List.mem_cons_self
      exact ne_nil_of_mem_fetches hmem
    obtain ⟨e, st, hrun, hstore⟩ := run_rejected batchSize storageOpts fetches hl hmode hrej hne
    rw [hrun]
    constructor
    · intro h
      cases h
    · intro _ _
      exact ⟨fun _ => hstore, fun h => absurd rfl h⟩
    · intro _ _
      exact ⟨e, rfl⟩
    · intro e' _ herror hfaults
      refine .inr ⟨?_, hrej⟩
      intro hrows
      simp [ResultSet.fetches, ResultSet.openCursor, Cursor.fetches, herror, hrows] at hfetches

theorem outcome_of_accepted (hl : lance.LawfulWrite) {cols : List SpiColumnInfo}
    (hcols : deriveColumns env source.columns none = .ok cols)
    (hacc : modeAccepts host lance uri mode serverName before = true) :
    Outcome env host lance uri source mode batchSize serverName before
      ((committedFrom env cols lance (max batchSize 1) 0
        (source.fetches env.settings.writeChunkRows)).map (List.map (convertRow env.pgrx cols)))
      (runAll (processFetch env source.columns (max batchSize 1) none
        (appendChunk host lance uri mode serverName storageOpts))
        (source.fetches env.settings.writeChunkRows) ⟨0, none, true, before, 0⟩) := by
  have hne : ∀ tuptable, .rows tuptable ∈ source.fetches env.settings.writeChunkRows →
      tuptable ≠ [] := fun _ h => ne_nil_of_mem_fetches h
  have hrun := commitsAll_run storageOpts hl hcols hacc (max batchSize 1) hne
    (knows_start before cols) .none
  have hsource : sourceRows env source none = source.rows.map (convertRow env.pgrx cols) := by
    simp [sourceRows, writtenRows, hcols]
  generalize hresult : runAll (processFetch env source.columns (max batchSize 1) none
    (appendChunk host lance uri mode serverName storageOpts))
    (source.fetches env.settings.writeChunkRows) ⟨0, none, true, before, 0⟩ = run at hrun
  have hstored := hrun.stored
  rw [List.nil_append, List.length_nil] at hstored
  constructor
  · intro h
    have hok := hrun.ok h
    rw [List.length_nil] at hok
    rw [show run = (.ok (), run.2) from Prod.ext h rfl] at hresult
    have hchunks := (fetches_of_runAll_ok hresult).2
    rw [hok.1] at hchunks
    have hall := List.map_injective_iff.mpr (fun _ _ h => by simpa using h) hchunks
    rw [hall] at hstored hok
    refine ⟨by simpa using hok.2, ?_, ?_⟩
    · intro hrows
      exact hstored.1 (chunks_eq_nil.mpr hrows)
    · intro hrows
      have hcontract := hstored.2 fun h => hrows (chunks_eq_nil.mp h)
      rwa [flatten_chunks, ← hsource] at hcontract
  · intro e _
    rw [List.map_eq_nil_iff, ← List.map_flatten, Ne, List.map_eq_nil_iff]
    exact ⟨hstored.1, hstored.2⟩
  · intro _ hrej
    cases hrej with
    | inl h =>
      cases h with
      | intro e he => cases hcols.symm.trans he
    | inr h => rw [hacc] at h; cases h
  · intro e h herror hfaults
    cases hrun.error e h with
    | inl h => exact .inl h
    | inr h =>
      cases h with
      | inl h =>
        cases h with
        | intro f hf =>
          simp [ResultSet.fetches, ResultSet.openCursor, Cursor.fetches, herror] at hf
      | inr h =>
        obtain ⟨n, e', hn⟩ := h
        rw [hfaults n] at hn
        cases hn

end

end PgLance
