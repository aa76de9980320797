import PgLance.Write.AppendLaws

/-! Runs of append calls on one dataset, of which some may fail: the dataset as a log. -/

namespace PgLance

open Chunks

variable {Raw : Type}

structure AppendCall (Raw : Type) where
  env : Env Raw
  host : Host
  lance : Lance
  uri : String
  source : ResultSet Raw
  mode : String
  batchSize : Int
  serverName : Option String

namespace AppendCall

variable (call : AppendCall Raw)

def run (store : Option Dataset) : Except Failure (Int × Int) × Option Dataset :=
  lanceAppend call.env call.host call.lance call.uri call.source call.mode call.batchSize
    call.serverName store

def written (rows : List (SpiRow Raw)) : List Row :=
  writtenRows call.env call.source.columns none rows

/-- A log that is there is not created again, and one that is not there is not appended to. -/
def Accepts {α : Type} (log : Option α) : Prop :=
  match call.mode with
  | "create" => log = none
  | "append" => log ≠ none
  | "overwrite" => True
  | _ => False

def commit (rows : List (SpiRow Raw)) (log : Option (List Row)) : Option (List Row) :=
  if rows.isEmpty then log
  else
    match call.mode with
    | "create" => some (log.getD (call.written rows))
    | "append" => log.map (· ++ call.written rows)
    | _ => some (call.written rows)

def commitRows (rows : List (SpiRow Raw)) (log : Option (List (SpiRow Raw))) :
    Option (List (SpiRow Raw)) :=
  if rows.isEmpty then log
  else
    match call.mode with
    | "create" => some (log.getD rows)
    | "append" => log.map (· ++ rows)
    | _ => some rows

end AppendCall

def commitAll (ps : List (AppendCall Raw × List (SpiRow Raw))) (log : Option (List Row)) :
    Option (List Row) :=
  ps.foldl (fun log p => p.1.commit p.2 log) log

def runAppends : List (AppendCall Raw) → Option Dataset →
    List (Except Failure (Int × Int)) × Option Dataset
  | [], store => ([], store)
  | call :: calls, store =>
    let (result, store) := call.run store
    let (results, store) := runAppends calls store
    (result :: results, store)

theorem committedFrom_prefix {env : Env Raw} {cols : List SpiColumnInfo} {lance : Lance}
    {batchSize n : Nat} {fetches : List (Fetch Raw)} :
    (committedFrom env cols lance batchSize n fetches).map .rows <+: fetches := by
  induction fetches generalizing n with
  | nil => simp [committedFrom]
  | cons fetch fetches ih =>
    cases fetch with
    | failed f => simp [committedFrom]
    | rows tuptable =>
      simp only [committedFrom]
      split
      · rw [List.map_cons, List.cons_prefix_cons]
        exact ⟨rfl, ih⟩
      · exact List.nil_prefix

namespace AppendCall

variable {call : AppendCall Raw}

theorem commit_of_contract {rows : List (SpiRow Raw)} {before after : Option Dataset}
    (h : ModeContract call.mode (call.written rows) before after) (hrows : rows ≠ []) :
    after.map Dataset.rows = call.commit rows (before.map Dataset.rows) := by
  rw [commit, if_neg (by simpa using hrows)]
  unfold ModeContract at h
  split at h
  · next hmode =>
    obtain ⟨rfl, hafter⟩ := h
    rw [hmode, hafter]
    rfl
  · next hmode =>
    obtain ⟨old, rfl, hafter⟩ := h
    rw [hmode, hafter]
    rfl
  · next hmode =>
    rw [hmode, h]
    rfl
  · cases h

theorem accepts_of_contract {rows : List Row} {before after : Option Dataset}
    (h : ModeContract call.mode rows before after) : call.Accepts (before.map Dataset.rows) := by
  unfold ModeContract at h
  split at h
  · next hmode =>
    rw [Accepts, hmode, h.1]
    rfl
  · next hmode =>
    obtain ⟨old, rfl, -⟩ := h
    rw [Accepts, hmode]
    exact Option.some_ne_none _
  · next hmode =>
    rw [Accepts, hmode]
    trivial
  · cases h

theorem commit_map {write : SpiRow Raw → Row} (hwritten : ∀ rows, call.written rows = rows.map write)
    (rows : List (SpiRow Raw)) (log : Option (List (SpiRow Raw))) :
    call.commit rows (log.map (List.map write)) = (call.commitRows rows log).map (List.map write) := by
  simp only [commit, commitRows, hwritten]
  split
  · rfl
  · split <;> cases log <;> simp

theorem mem_commitRows {rows : List (SpiRow Raw)} {log : Option (List (SpiRow Raw))}
    {after : List (SpiRow Raw)} (h : call.commitRows rows log = some after) {row : SpiRow Raw}
    (hrow : row ∈ after) : row ∈ rows ∨ ∃ before, log = some before ∧ row ∈ before := by
  unfold commitRows at h
  split at h
  · exact .inr ⟨after, h, hrow⟩
  · split at h
    · cases h
      cases log with
      | none => exact .inl hrow
      | some before => exact .inr ⟨before, rfl, hrow⟩
    · obtain ⟨before, rfl, rfl⟩ := Option.map_eq_some_iff.mp h
      exact (List.mem_append.mp hrow).symm.imp id fun hmem => ⟨before, rfl, hmem⟩
    · cases h
      exact .inl hrow

theorem written_nil : call.written [] = [] := by
  unfold written writtenRows
  split <;> rfl

theorem exists_committedChunks (env : Env Raw) (host : Host) (lance : Lance) (uri : String)
    (source : ResultSet Raw) (mode : String) (batchSize : Nat) (serverName : Option String)
    (before : Option Dataset) :
    ∃ rows, rows <+: source.rows ∧ writtenRows env source.columns none rows =
      (committedChunks env host lance uri source mode batchSize serverName before).flatten := by
  cases hcols : deriveColumns env source.columns none with
  | error e => exact ⟨[], List.nil_prefix, by simp [writtenRows, committedChunks, hcols]⟩
  | ok cols =>
    simp only [committedChunks, hcols]
    split
    · refine ⟨(committedFrom env cols lance (max batchSize 1) 0
        (source.fetches env.settings.writeChunkRows)).flatten,
        flatten_prefix_of_fetches committedFrom_prefix, ?_⟩
      simp only [writtenRows, hcols, List.map_flatten]
    · exact ⟨[], List.nil_prefix, by simp [writtenRows, hcols]⟩

/-- However a call ends, it has committed some first rows of its source, and all when it
returns. -/
theorem run_commit (hl : call.lance.LawfulWrite) {before after : Option Dataset}
    {result : Except Failure (Int × Int)} (h : call.run before = (result, after)) :
    ∃ rows, rows <+: call.source.rows ∧ (∀ v, result = .ok v → rows = call.source.rows) ∧
      (rows ≠ [] → call.Accepts (before.map Dataset.rows)) ∧
      after.map Dataset.rows = call.commit rows (before.map Dataset.rows) := by
  rw [run] at h
  cases result with
  | ok v =>
    obtain ⟨hmode, hempty, hrows⟩ := lanceAppend_stores hl h
    refine ⟨call.source.rows, List.prefix_refl _, fun _ _ => rfl,
      fun hsource => accepts_of_contract (hrows hsource), ?_⟩
    by_cases hsource : call.source.rows = []
    · rw [hempty hsource, hsource]
      rfl
    · exact commit_of_contract (hrows hsource) hsource
  | error e =>
    cases lanceAppend_cases call.env call.host call.uri call.source call.mode call.batchSize
        call.serverName before hl with
    | inl hcase =>
      obtain ⟨-, e', he⟩ := hcase
      cases he.symm.trans h
      exact ⟨[], List.nil_prefix, by simp, by simp, rfl⟩
    | inr hcase =>
      obtain ⟨-, run, houtcome, hrun⟩ := hcase
      rw [hrun, Prod.mk.injEq] at h
      obtain ⟨hresult, rfl⟩ := h
      obtain ⟨e', he', -⟩ := callResult_error hresult
      obtain ⟨hnone, hsome⟩ := houtcome.error e' he'
      by_cases hchunks : committedChunks call.env call.host call.lance call.uri call.source
          call.mode (i32AsUsize call.batchSize) call.serverName before = []
      · rw [hnone hchunks]
        exact ⟨[], List.nil_prefix, by simp, by simp, rfl⟩
      · obtain ⟨rows, hfirst, hwritten⟩ := exists_committedChunks call.env call.host call.lance
          call.uri call.source call.mode (i32AsUsize call.batchSize) call.serverName before
        have hcontract := hsome hchunks
        rw [← hwritten] at hcontract
        refine ⟨rows, hfirst, by simp, fun _ => accepts_of_contract hcontract,
          commit_of_contract hcontract ?_⟩
        rintro rfl
        refine flatten_committedChunks_ne_nil hchunks ?_
        rw [← hwritten]
        exact written_nil

end AppendCall

/-- What the calls of a run commit of their sources: some first rows, all when the call returns,
and none when the log is one that the call refuses. -/
structure Commits (calls : List (AppendCall Raw)) (results : List (Except Failure (Int × Int)))
    (committed : List (List (SpiRow Raw))) (log : Option (List Row)) : Prop where
  pieces : List.Forall₂ (fun p rows => rows <+: p.1.source.rows ∧
    ∀ v, p.2 = .ok v → rows = p.1.source.rows) (calls.zip results) committed
  accepted : ∀ pre p post, calls.zip committed = pre ++ p :: post → p.2 ≠ [] →
    p.1.Accepts (commitAll pre log)

theorem Commits.cons {call : AppendCall Raw} {calls : List (AppendCall Raw)}
    {result : Except Failure (Int × Int)} {results : List (Except Failure (Int × Int))}
    {rows : List (SpiRow Raw)} {committed : List (List (SpiRow Raw))} {log : Option (List Row)}
    (hfirst : rows <+: call.source.rows) (hall : ∀ v, result = .ok v → rows = call.source.rows)
    (haccepts : rows ≠ [] → call.Accepts log)
    (h : Commits calls results committed (call.commit rows log)) :
    Commits (call :: calls) (result :: results) (rows :: committed) log where
  pieces := .cons ⟨hfirst, hall⟩ h.pieces
  accepted pre p post hsplit hrows := by
    cases pre with
    | nil =>
      rw [List.zip_cons_cons, List.nil_append, List.cons.injEq] at hsplit
      obtain ⟨rfl, -⟩ := hsplit
      exact haccepts hrows
    | cons q pre =>
      rw [List.zip_cons_cons, List.cons_append, List.cons.injEq] at hsplit
      obtain ⟨rfl, hsplit⟩ := hsplit
      exact h.accepted pre p post hsplit hrows

theorem Commits.prefix_of_mem {calls : List (AppendCall Raw)}
    {results : List (Except Failure (Int × Int))} {committed : List (List (SpiRow Raw))}
    {log : Option (List Row)} (h : Commits calls results committed log)
    {p : AppendCall Raw × List (SpiRow Raw)} (hp : p ∈ calls.zip committed) :
    p.2 <+: p.1.source.rows := by
  obtain ⟨hpieces, -⟩ := h
  induction calls generalizing results committed with
  | nil => cases hp
  | cons call calls ih =>
    cases results with
    | nil =>
      cases hpieces
      cases hp
    | cons result results =>
      cases hpieces with
      | cons hfirst hpieces =>
        rw [List.zip_cons_cons, List.mem_cons] at hp
        rcases hp with rfl | hp
        · exact hfirst.1
        · exact ih hp hpieces

theorem runAppends_commits (calls : List (AppendCall Raw)) (before : Option Dataset)
    (hl : ∀ call ∈ calls, call.lance.LawfulWrite) :
    ∃ committed, Commits calls (runAppends calls before).1 committed (before.map Dataset.rows) ∧
      (runAppends calls before).2.map Dataset.rows =
        commitAll (calls.zip committed) (before.map Dataset.rows) := by
  induction calls generalizing before with
  | nil => exact ⟨[], ⟨.nil, by simp⟩, rfl⟩
  | cons call calls ih =>
    rw [List.forall_mem_cons] at hl
    cases hrun : call.run before with
    | mk result after =>
      obtain ⟨rows, hfirst, hall, haccepts, hcommit⟩ := AppendCall.run_commit hl.1 hrun
      obtain ⟨committed, hcommitted, hlog⟩ := ih after hl.2
      rw [hcommit] at hcommitted hlog
      refine ⟨rows :: committed, ?_, ?_⟩
      · simp only [runAppends, hrun]
        exact hcommitted.cons hfirst hall haccepts
      · simp only [runAppends, hrun, List.zip_cons_cons, commitAll, List.foldl_cons]
        exact hlog

/-- A dataset that appends were made to is a log: whatever fails, it holds the rows that were
committed, some first ones of each source and all of a call that returned, in the order of the
calls, from the last call on that wrote it anew.  A call that does not accept the log commits
nothing. -/
theorem runAppends_log (calls : List (AppendCall Raw)) (before : Option Dataset)
    (hl : ∀ call ∈ calls, call.lance.LawfulWrite) :
    ∃ committed, List.Forall₂ (fun p rows => rows <+: p.1.source.rows ∧
          ∀ v, p.2 = .ok v → rows = p.1.source.rows)
        (calls.zip (runAppends calls before).1) committed ∧
      (∀ pre p post, calls.zip committed = pre ++ p :: post → p.2 ≠ [] →
        p.1.Accepts (commitAll pre (before.map Dataset.rows))) ∧
      (runAppends calls before).2.map Dataset.rows =
        commitAll (calls.zip committed) (before.map Dataset.rows) := by
  obtain ⟨committed, hcommits, hlog⟩ := runAppends_commits calls before hl
  exact ⟨committed, hcommits.pieces, hcommits.accepted, hlog⟩

def sampleAppends : List (AppendCall Int) :=
  [⟨.sample ⟨0, 2, true⟩, .sample, .sample fun n => if n = 1 then some "fault" else none, "/d",
      .sample [1, 2, 3] none (by decide), "create", 2, none⟩,
    ⟨.sample ⟨0, 2, true⟩, .sample, .sample fun _ => none, "/d", .sample [4] none (by decide),
      "append", 2, none⟩]

theorem runAppends_log_sample :
    (runAppends sampleAppends none).2.map Dataset.rows = some (Dataset.sample [1, 2, 4]).rows ∧
    ∃ committed, List.Forall₂ (fun p rows => rows <+: p.1.source.rows ∧
          ∀ v, p.2 = .ok v → rows = p.1.source.rows)
        (sampleAppends.zip (runAppends sampleAppends none).1) committed ∧
      (∀ pre p post, sampleAppends.zip committed = pre ++ p :: post → p.2 ≠ [] →
        p.1.Accepts (commitAll pre none)) ∧
      (runAppends sampleAppends none).2.map Dataset.rows =
        commitAll (sampleAppends.zip committed) none := by
  refine ⟨by decide +kernel, runAppends_log sampleAppends none ?_⟩
  simp [sampleAppends, Lance.sample_lawfulWrite]

end PgLance
