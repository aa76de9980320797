import PgLance.Library.Fallible
import PgLance.Library.Run
import PgLance.Write.Batches

/-! The fetch loop as a run over the sequence of fetches that a source answers. -/

namespace PgLance

open Chunks Fallible Run

variable {Raw σ : Type}

inductive Fetch (Raw : Type)
  | rows (tuptable : List (SpiRow Raw))
  | failed (e : SourceError)

/-- The fetches of `n` rows up to the end of the cursor.  When the query fails, only
complete chunks precede the failing fetch. -/
def Cursor.fetches (cursor : Cursor Raw) (n : Nat) : List (Fetch Raw) :=
  match cursor.error with
  | none => (chunks n cursor.rest).map .rows
  | some e => ((chunks n cursor.rest).filter (n ≤ ·.length)).map .rows ++ [.failed e]

def ResultSet.fetches (source : ResultSet Raw) (chunkRows : Nat) : List (Fetch Raw) :=
  source.openCursor.fetches (fetchCountOf chunkRows)

theorem ne_nil_of_mem_fetches {source : ResultSet Raw} {chunkRows : Nat}
    {tuptable : List (SpiRow Raw)} (h : .rows tuptable ∈ source.fetches chunkRows) :
    tuptable ≠ [] := by
  have hmem : tuptable ∈ chunks (fetchCountOf chunkRows) source.rows := by
    unfold ResultSet.fetches Cursor.fetches at h
    split at h
    · simpa [ResultSet.openCursor] using h
    · simp only [List.mem_append, List.mem_map, List.mem_filter, ResultSet.openCursor,
        Fetch.rows.injEq, List.mem_singleton, reduceCtorEq, or_false] at h
      obtain ⟨_, h, rfl⟩ := h
      exact h.1
  exact ne_nil_of_mem_chunks hmem

theorem fetches_ne_nil {source : ResultSet Raw} {chunkRows : Nat} (h : source.rows ≠ []) :
    source.fetches chunkRows ≠ [] := by
  intro hnil
  unfold ResultSet.fetches Cursor.fetches at hnil
  split at hnil
  · rw [List.map_eq_nil_iff, chunks_eq_nil] at hnil
    exact h hnil
  · simp at hnil

theorem rows_prefix_of_prefix_append {pieces pieces' : List (List (SpiRow Raw))} {e : SourceError}
    (h : (pieces.map .rows) <+: (pieces'.map .rows ++ [Fetch.failed e])) : pieces <+: pieces' := by
  induction pieces generalizing pieces' with
  | nil => exact List.nil_prefix
  | cons piece pieces ih =>
    cases pieces' with
    | nil => simp at h
    | cons piece' pieces' =>
      simp only [List.map_cons, List.cons_append, List.cons_prefix_cons, Fetch.rows.injEq] at h
      rw [h.1]
      exact List.cons_prefix_cons.mpr ⟨rfl, ih h.2⟩

theorem flatten_prefix_of_fetches {source : ResultSet Raw} {chunkRows : Nat}
    {pieces : List (List (SpiRow Raw))} (h : (pieces.map .rows) <+: source.fetches chunkRows) :
    pieces.flatten <+: source.rows := by
  have hpieces : pieces <+: chunks (fetchCountOf chunkRows) source.rows := by
    unfold ResultSet.fetches Cursor.fetches at h
    split at h
    · exact (List.prefix_map_iff_of_injective (fun _ _ h => by simpa using h)).mp h
    · exact (rows_prefix_of_prefix_append h).trans
        (filter_full_isPrefix (fetchCountOf chunkRows) source.rows)
  simpa using flatten_prefix hpieces

theorem length_fetches_zero (source : ResultSet Raw) : (source.fetches 0).length ≤ 1 := by
  have hcount : source.rows.length < fetchCountOf 0 := source.countable
  have hchunks : chunks (fetchCountOf 0) source.rows = [] ∨
      chunks (fetchCountOf 0) source.rows = [source.rows] := by
    by_cases hrows : source.rows = []
    · exact .inl (chunks_eq_nil.mpr hrows)
    · exact .inr (chunks_of_length_le hrows hcount.le)
  unfold ResultSet.fetches Cursor.fetches
  split
  · cases hchunks with
    | inl h => simp [ResultSet.openCursor, h]
    | inr h => simp [ResultSet.openCursor, h]
  · cases hchunks with
    | inl h => simp [ResultSet.openCursor, h]
    | inr h => simp [ResultSet.openCursor, h, hcount]

theorem Cursor.fetches_cases (cursor : Cursor Raw) {n : Nat} (hn : 0 < n) :
    (∃ e, cursor.fetch n = .error e ∧ cursor.fetches n = [.failed e]) ∨
      (cursor.fetch n = .ok [] ∧ cursor.fetches n = []) ∨
      (∃ tuptable, tuptable ≠ [] ∧ cursor.fetch n = .ok tuptable ∧
        cursor.fetches n = .rows tuptable :: (cursor.advance n).fetches n) := by
  obtain ⟨rest, error⟩ := cursor
  by_cases hle : n ≤ rest.length
  · have hne : rest ≠ [] := List.length_pos_iff.mp (by omega)
    refine .inr (.inr ⟨rest.take n, by simp [hne]; omega, by simp [Cursor.fetch, hle], ?_⟩)
    cases error <;> simp [Cursor.fetches, Cursor.advance, chunks_eq hn hne, hle]
  · have hlt : rest.length < n := by omega
    by_cases hne : rest = []
    · cases error with
      | none => exact .inr (.inl ⟨by simp [Cursor.fetch, hne], by simp [Cursor.fetches, hne]⟩)
      | some e => exact .inl ⟨e, by simp [Cursor.fetch, hle], by simp [Cursor.fetches, hne]⟩
    · have hone : chunks n rest = [rest] := chunks_of_length_le hne hlt.le
      cases error with
      | none =>
        refine .inr (.inr ⟨rest, hne, by simp [Cursor.fetch, hle], ?_⟩)
        simp [Cursor.fetches, Cursor.advance, hone, List.drop_of_length_le hlt.le]
      | some e =>
        exact .inl ⟨e, by simp [Cursor.fetch, hle], by simp [Cursor.fetches, hone, hlt]⟩

section

variable (env : Env Raw) (columns : List SpiColumn) (batchSize : Nat)
  (typeOverrides : Option ArrowTypeOverrides) (handle : Handler σ)

def processFetch : Fetch Raw → ChunkLoopState σ → Except Failure Unit × ChunkLoopState σ
  | .rows tuptable, st => processChunk env columns batchSize typeOverrides handle tuptable st
  | .failed (.spi e), st =>
    (.error (.returned ("SPI cursor fetch failed: " ++ e)), st)
  | .failed (.raised e), st => (.error (.raised e), st)

theorem chunkLoop_eq (chunkRows : Nat) (cursor : Cursor Raw) (st : ChunkLoopState σ) :
    chunkLoop env columns batchSize chunkRows typeOverrides handle cursor st =
      runAll (processFetch env columns batchSize typeOverrides handle)
        (cursor.fetches (fetchCountOf chunkRows)) st := by
  have hn := fetchCountOf_pos chunkRows
  induction hlen : cursor.rest.length using Nat.strong_induction_on generalizing cursor st with
  | _ m ih =>
    rw [chunkLoop]
    cases cursor.fetches_cases hn with
    | inl h =>
      obtain ⟨e, hfetch, hfetches⟩ := h
      rw [hfetches]
      split
      · next h => rw [hfetch] at h; cases h; rfl
      · next h => rw [hfetch] at h; cases h; rfl
      · next h => rw [hfetch] at h; cases h
    | inr h =>
      cases h with
      | inl h =>
        rw [h.2]
        split
        · next h' => rw [h.1] at h'; cases h'
        · next h' => rw [h.1] at h'; cases h'
        · next h' => rw [h.1] at h'; cases h'; rfl
      | inr h =>
        obtain ⟨tuptable, hne, hfetch, hfetches⟩ := h
        have hlt := Cursor.length_advance_lt hfetch hne hn
        rw [hfetches]
        split
        · next h => rw [hfetch] at h; cases h
        · next h => rw [hfetch] at h; cases h
        · next h =>
          rw [hfetch] at h
          cases h
          rw [dif_neg hne]
          split
          · next hstep => exact (runAll_cons_error (by exact hstep)).symm
          · next st' hstep =>
            rw [runAll_cons_ok (by exact hstep)]
            exact ih _ (by omega) (cursor.advance _) st' rfl

theorem forEachSpiChunk_eq (source : ResultSet Raw) (chunkRows : Nat) (s : σ) :
    forEachSpiChunkWithTypeOverrides env source batchSize chunkRows typeOverrides handle s =
      let (result, st) := runAll
        (processFetch env source.columns (max batchSize 1) typeOverrides handle)
        (source.fetches chunkRows) ⟨0, none, s⟩
      ((result.mapError spiConnect).map fun _ => st.totalRows, st.handler) := by
  rw [forEachSpiChunkWithTypeOverrides, chunkLoop_eq]
  rfl

end

def SpiColumnInfo.source (col : SpiColumnInfo) : SpiColumn := ⟨col.name, col.pgOid⟩

theorem map_modify_of_eq {α β : Type} {f : α → α} {g : α → β} (hf : ∀ a, g (f a) = g a)
    (as : List α) (i : Nat) : (as.modify i f).map g = as.map g := by
  induction as generalizing i with
  | nil => simp
  | cons a as ih =>
    cases i with
    | zero => simp [hf]
    | succ i => simp [ih]

theorem map_source_applyArrowTypeOverrides {overrides : ArrowTypeOverrides}
    {cols cols' : List SpiColumnInfo} (h : applyArrowTypeOverrides cols overrides = .ok cols') :
    cols'.map SpiColumnInfo.source = cols.map SpiColumnInfo.source := by
  rw [applyArrowTypeOverrides] at h
  generalize overrides.toList = entries at h
  induction entries generalizing cols with
  | nil => cases h; rfl
  | cons entry entries ih =>
    simp only [List.foldlM_cons, Bind.bind, Except.bind] at h
    cases hfind : cols.findIdx? (·.name == entry.1) with
    | none => simp [hfind] at h
    | some i =>
      simp only [hfind] at h
      rw [ih h, map_modify_of_eq]
      intro col
      rfl

theorem extractSpiColumns_ok {formatTypeBe : Oid → Option String}
    {columns : List SpiColumn} {cols : List SpiColumnInfo}
    (h : extractSpiColumns formatTypeBe columns = .ok cols) :
    columns ≠ [] ∧ cols.map SpiColumnInfo.source = columns ∧
      ∀ col ∈ cols, pgOidToArrowType formatTypeBe col.pgOid = .ok col.arrowType := by
  cases hempty : columns.isEmpty with
  | true => simp [extractSpiColumns, hempty] at h
  | false =>
    refine ⟨fun hnil => by simp [hnil] at hempty, ?_⟩
    simp only [extractSpiColumns, hempty, Bool.false_eq_true, if_false] at h
    have hforall := mapM_ok_iff.mp h
    clear h hempty
    induction hforall with
    | nil => exact ⟨rfl, by simp⟩
    | cons hcol hrest ih =>
      rename_i column col columns cols
      obtain ⟨hsource, htypes⟩ := ih
      cases htype : pgOidToArrowType formatTypeBe column.typeOid with
      | error e => simp [htype, Bind.bind, Except.bind] at hcol
      | ok arrowType =>
        simp only [htype, Bind.bind, Except.bind, pure, Except.pure, Except.ok.injEq] at hcol
        rw [← hcol]
        exact ⟨by rw [List.map_cons, hsource]; rfl, by simpa [htype] using htypes⟩

theorem map_source_deriveColumns {env : Env Raw} {columns : List SpiColumn}
    {typeOverrides : Option ArrowTypeOverrides} {cols : List SpiColumnInfo}
    (h : deriveColumns env columns typeOverrides = .ok cols) :
    columns ≠ [] ∧ cols.map SpiColumnInfo.source = columns := by
  simp only [deriveColumns, Bind.bind, Except.bind] at h
  cases hextract : extractSpiColumns env.formatTypeBe columns with
  | error e => simp [hextract] at h
  | ok cols₀ =>
    obtain ⟨hne, hsource, -⟩ := extractSpiColumns_ok hextract
    simp only [hextract] at h
    cases typeOverrides with
    | none => cases h; exact ⟨hne, hsource⟩
    | some overrides => exact ⟨hne, (map_source_applyArrowTypeOverrides h).trans hsource⟩

theorem deriveColumns_ne_nil {env : Env Raw} {columns : List SpiColumn}
    {typeOverrides : Option ArrowTypeOverrides} {cols : List SpiColumnInfo}
    (h : deriveColumns env columns typeOverrides = .ok cols) : cols ≠ [] := by
  rintro rfl
  exact (map_source_deriveColumns h).1 (map_source_deriveColumns h).2.symm

section

variable {env : Env Raw} {columns : List SpiColumn} {typeOverrides : Option ArrowTypeOverrides}
  {cols : List SpiColumnInfo}

def ChunkLoopState.Knows (st : ChunkLoopState σ) (cols : List SpiColumnInfo) : Prop :=
  st.schemaCols = none ∨ st.schemaCols = some (buildArrowSchema cols, cols)

theorem processChunk_of_error {e : String}
    (hcols : deriveColumns env columns typeOverrides = .error e)
    (batchSize : Nat) (handle : Handler σ) (tuptable : List (SpiRow Raw)) {st : ChunkLoopState σ}
    (hst : st.schemaCols = none) :
    processChunk env columns batchSize typeOverrides handle tuptable st =
      (.error (.returned e), st) := by
  simp [processChunk, hst, hcols, Bind.bind, Except.bind]

theorem runAll_of_deriveColumns_error {e : String}
    (hcols : deriveColumns env columns typeOverrides = .error e) (batchSize : Nat)
    (handle : Handler σ) (tuptable : List (SpiRow Raw)) (rest : List (Fetch Raw)) (s : σ) :
    runAll (processFetch env columns batchSize typeOverrides handle) (.rows tuptable :: rest)
      ⟨0, none, s⟩ = (.error (.returned e), ⟨0, none, s⟩) := by
  apply runAll_cons_error
  rw [processFetch, processChunk_of_error hcols]
  rfl

theorem processChunk_of_guardTrips (hcols : deriveColumns env columns typeOverrides = .ok cols)
    {batchSize : Nat} (handle : Handler σ) {tuptable : List (SpiRow Raw)} {st : ChunkLoopState σ}
    (hst : st.Knows cols) (h : GuardTrips env cols batchSize tuptable) :
    ∃ n, processChunk env columns batchSize typeOverrides handle tuptable st =
      (.error (.returned (bufferGuardMessage env.settings.maxWriteBufferBytes n)),
        { st with schemaCols := some (buildArrowSchema cols, cols) }) := by
  obtain ⟨n, hn⟩ := convertSpiRows_of_guardTrips env cols (deriveColumns_ne_nil hcols) h
  refine ⟨n, ?_⟩
  cases hst with
  | inl hst => simp [processChunk, hst, hcols, hn, Bind.bind, Except.bind, pure, Except.pure]
  | inr hst => simp [processChunk, hst, hn]

structure CutInto (env : Env Raw) (cols : List SpiColumnInfo) (batchSize : Nat)
    (tuptable : List (SpiRow Raw)) (batches : List RecordBatch) : Prop where
  guard : ¬ GuardTrips env cols batchSize tuptable
  converted : convertSpiRows env tuptable cols (buildArrowSchema cols) batchSize =
    .ok (batches, tuptable.length)
  rows : batches.map RecordBatch.rows =
    (chunks batchSize tuptable).map (List.map (convertRow env.pgrx cols))

theorem CutInto.flatMap_rows {batchSize : Nat} {tuptable : List (SpiRow Raw)}
    {batches : List RecordBatch} (h : CutInto env cols batchSize tuptable batches) :
    batches.flatMap RecordBatch.rows = tuptable.map (convertRow env.pgrx cols) := by
  rw [List.flatMap_def, h.rows, ← List.map_flatten, flatten_chunks]

theorem CutInto.ne_nil {batchSize : Nat} {tuptable : List (SpiRow Raw)}
    {batches : List RecordBatch} (h : CutInto env cols batchSize tuptable batches)
    (hne : tuptable ≠ []) : batches ≠ [] := by
  intro hnil
  have hrows := h.rows
  rw [hnil, List.map_nil, eq_comm, List.map_eq_nil_iff, chunks_eq_nil] at hrows
  exact hne hrows

theorem processChunk_of_not_guardTrips
    (hcols : deriveColumns env columns typeOverrides = .ok cols)
    {batchSize : Nat} (handle : Handler σ) {tuptable : List (SpiRow Raw)} {st : ChunkLoopState σ}
    (hst : st.Knows cols) (h : ¬ GuardTrips env cols batchSize tuptable) :
    ∃ batches, CutInto env cols batchSize tuptable batches ∧
      processChunk env columns batchSize typeOverrides handle tuptable st =
        ((handle (buildArrowSchema cols) batches st.handler).1,
          ⟨st.totalRows + tuptable.length, some (buildArrowSchema cols, cols),
            (handle (buildArrowSchema cols) batches st.handler).2⟩) := by
  obtain ⟨batches, hbatches, hrows, _⟩ :=
    convertSpiRows_of_not_guardTrips env cols (deriveColumns_ne_nil hcols) h
  refine ⟨batches, ⟨h, hbatches, hrows⟩, ?_⟩
  cases hst with
  | inl hst => simp [processChunk, hst, hcols, hbatches, Bind.bind, Except.bind, pure, Except.pure]
  | inr hst => simp [processChunk, hst, hbatches]

theorem processFetch_ok (hcols : deriveColumns env columns typeOverrides = .ok cols)
    {batchSize : Nat} {handle : Handler σ} {fetch : Fetch Raw} {st st' : ChunkLoopState σ}
    (hst : st.Knows cols)
    (h : processFetch env columns batchSize typeOverrides handle fetch st = (.ok (), st')) :
    ∃ tuptable batches, fetch = .rows tuptable ∧
      CutInto env cols batchSize tuptable batches ∧
      handle (buildArrowSchema cols) batches st.handler = (.ok (), st'.handler) ∧
      st'.totalRows = st.totalRows + tuptable.length ∧ st'.Knows cols := by
  cases fetch with
  | failed e => cases e <;> cases h
  | rows tuptable =>
    rw [processFetch] at h
    by_cases hguard : GuardTrips env cols batchSize tuptable
    · obtain ⟨n, hn⟩ := processChunk_of_guardTrips hcols handle hst hguard
      rw [hn] at h
      cases h
    · obtain ⟨batches, hcut, hprocess⟩ := processChunk_of_not_guardTrips hcols handle hst hguard
      rw [hprocess, Prod.mk.injEq] at h
      refine ⟨tuptable, batches, rfl, hcut, ?_, ?_, ?_⟩
      · exact Prod.ext h.1 (by rw [← h.2])
      · rw [← h.2]
      · rw [← h.2]
        exact .inr rfl

theorem processFetch_error (hcols : deriveColumns env columns typeOverrides = .ok cols)
    {batchSize : Nat} {handle : Handler σ} {fetch : Fetch Raw} {st st' : ChunkLoopState σ}
    {e : Failure} (hst : st.Knows cols)
    (h : processFetch env columns batchSize typeOverrides handle fetch st = (.error e, st')) :
    (st'.handler = st.handler ∧ (∀ message, e ≠ .panicked message) ∧
      ∀ tuptable, fetch = .rows tuptable → GuardTrips env cols batchSize tuptable ∧
        ∃ n, e = .returned (bufferGuardMessage env.settings.maxWriteBufferBytes n)) ∨
    ∃ tuptable batches, fetch = .rows tuptable ∧
      CutInto env cols batchSize tuptable batches ∧
      handle (buildArrowSchema cols) batches st.handler = (.error e, st'.handler) := by
  cases fetch with
  | failed e =>
    cases e with
    | spi message =>
      cases h
      exact .inl ⟨rfl, by simp, by simp⟩
    | raised message =>
      cases h
      exact .inl ⟨rfl, by simp, by simp⟩
  | rows tuptable =>
    rw [processFetch] at h
    by_cases hguard : GuardTrips env cols batchSize tuptable
    · obtain ⟨n, hn⟩ := processChunk_of_guardTrips hcols handle hst hguard
      rw [hn] at h
      cases h
      refine .inl ⟨rfl, by simp, ?_⟩
      intro t ht
      cases ht
      exact ⟨hguard, n, rfl⟩
    · obtain ⟨batches, hcut, hprocess⟩ := processChunk_of_not_guardTrips hcols handle hst hguard
      rw [hprocess, Prod.mk.injEq] at h
      exact .inr ⟨tuptable, batches, rfl, hcut, Prod.ext h.1 (by rw [← h.2])⟩

end

section

variable {env : Env Raw} {source : ResultSet Raw} {batchSize chunkRows : Nat}
  {typeOverrides : Option ArrowTypeOverrides}

def recorded (handle : Handler σ) : Handler (σ × List (List RecordBatch)) :=
  fun schema batches st =>
    ((handle schema batches st.1).1, (handle schema batches st.1).2, st.2 ++ [batches])

theorem fetches_of_runAll_ok {handle : Handler σ} {st st' : ChunkLoopState σ}
    (h : runAll (processFetch env source.columns batchSize typeOverrides handle)
      (source.fetches chunkRows) st = (.ok (), st')) :
    source.error = none ∧
      source.fetches chunkRows = (chunks (fetchCountOf chunkRows) source.rows).map .rows := by
  cases herr : source.error with
  | none => exact ⟨rfl, by simp [ResultSet.fetches, ResultSet.openCursor, Cursor.fetches, herr]⟩
  | some e =>
    exfalso
    simp only [ResultSet.fetches, ResultSet.openCursor, Cursor.fetches, herr] at h
    generalize (chunks (fetchCountOf chunkRows) source.rows).filter _ = done at h
    cases hdone : runAll (processFetch env source.columns batchSize typeOverrides handle)
        (done.map .rows) st with
    | mk result st₁ =>
      cases result with
      | error e' =>
        rw [runAll_append_error hdone] at h
        cases h
      | ok _ =>
        rw [runAll_append_ok hdone] at h
        cases e <;> cases h

structure CallsMatch (env : Env Raw) (cols : List SpiColumnInfo) (batchSize : Nat)
    (pieces : List (List (SpiRow Raw))) (st : ChunkLoopState (σ × List (List RecordBatch))) :
    Prop where
  knows : st.Knows cols
  totalRows : st.totalRows = pieces.flatten.length
  calls : st.handler.2.map (List.map RecordBatch.rows) =
    pieces.map fun piece => (chunks batchSize piece).map (List.map (convertRow env.pgrx cols))

theorem callsMatch_run {cols : List SpiColumnInfo}
    (hcols : deriveColumns env source.columns typeOverrides = .ok cols) {handle : Handler σ}
    {pieces : List (List (SpiRow Raw))} {s : σ}
    {st : ChunkLoopState (σ × List (List RecordBatch))}
    (h : runAll (processFetch env source.columns batchSize typeOverrides (recorded handle))
      (pieces.map .rows) ⟨0, none, s, []⟩ = (.ok (), st)) :
    CallsMatch env cols batchSize pieces st := by
  rw [runAll_map] at h
  apply runAll_invariant _ _ h
  · exact ⟨.inl rfl, rfl, rfl⟩
  · intro done piece st st' _ hdone hstep
    simp only [processFetch] at hstep
    by_cases hguard : GuardTrips env cols batchSize piece
    · obtain ⟨n, hn⟩ := processChunk_of_guardTrips hcols (recorded handle) hdone.knows hguard
      rw [hn] at hstep
      cases hstep
    · obtain ⟨batches, hbatches, hprocess⟩ :=
        processChunk_of_not_guardTrips hcols (recorded handle) hdone.knows hguard
      rw [hprocess] at hstep
      rw [← (Prod.mk.inj hstep).2]
      constructor
      · exact .inr rfl
      · simp [hdone.totalRows]
      · simp [recorded, hdone.calls, hbatches.rows]

/-- The batches of every call, laid end to end, are the source rows; they are cut to size. -/
structure ExactChunking (env : Env Raw) (source : ResultSet Raw) (cols : List SpiColumnInfo)
    (batchSize chunkRows : Nat) (calls : List (List RecordBatch)) (total : Nat) : Prop where
  rows : calls.flatten.flatMap RecordBatch.rows = source.rows.map (convertRow env.pgrx cols)
  total_eq : total = source.rows.length
  batch_pos : ∀ call ∈ calls, ∀ batch ∈ call, 0 < batch.numRows
  batch_le : ∀ call ∈ calls, ∀ batch ∈ call, batch.numRows ≤ max batchSize 1
  batch_full : ∀ call ∈ calls, ∀ batch ∈ call.dropLast, batch.numRows = max batchSize 1
  chunk_le : 0 < chunkRows → ∀ call ∈ calls, (call.map RecordBatch.numRows).sum ≤ chunkRows

theorem fetchCountOf_le (h : 0 < chunkRows) : fetchCountOf chunkRows ≤ chunkRows := by
  rw [fetchCountOf, if_neg (by omega)]
  exact Nat.min_le_left _ _

theorem exactChunking_of_calls {cols : List SpiColumnInfo} {calls : List (List RecordBatch)}
    (h : calls.map (List.map RecordBatch.rows) =
      (chunks (fetchCountOf chunkRows) source.rows).map fun piece =>
        (chunks (max batchSize 1) piece).map (List.map (convertRow env.pgrx cols))) :
    ExactChunking env source cols batchSize chunkRows calls source.rows.length := by
  have hcall : ∀ call ∈ calls, ∃ piece ∈ chunks (fetchCountOf chunkRows) source.rows,
      call.map RecordBatch.numRows = (chunks (max batchSize 1) piece).map List.length := by
    intro call hcall
    have hmem := List.mem_map_of_mem (f := List.map RecordBatch.rows) hcall
    rw [h] at hmem
    obtain ⟨piece, hpiece, heq⟩ := List.mem_map.mp hmem
    refine ⟨piece, hpiece, ?_⟩
    have hlengths := congrArg (List.map List.length) heq
    simpa [List.map_map, Function.comp_def] using hlengths.symm
  have hbatch : ∀ call ∈ calls, ∀ batch ∈ call, ∃ piece : List (SpiRow Raw),
      ∃ c ∈ chunks (max batchSize 1) piece, c.length = batch.numRows := by
    intro call hmem batch hbatch
    obtain ⟨piece, _, hsizes⟩ := hcall call hmem
    have hsize := List.mem_map_of_mem (f := RecordBatch.numRows) hbatch
    rw [hsizes] at hsize
    exact ⟨piece, List.mem_map.mp hsize⟩
  constructor
  · have hflatten : calls.flatten.flatMap RecordBatch.rows =
        (calls.map (List.map RecordBatch.rows)).flatten.flatten := by
      rw [← List.map_flatten, List.flatMap_def]
    rw [hflatten, h, flatten_flatten_map_chunks, flatten_chunks]
  · rfl
  · intro call hmem batch hb
    obtain ⟨piece, c, hc, hlen⟩ := hbatch call hmem batch hb
    rw [← hlen]
    exact List.length_pos_iff.mpr (ne_nil_of_mem_chunks hc)
  · intro call hmem batch hb
    obtain ⟨piece, c, hc, hlen⟩ := hbatch call hmem batch hb
    rw [← hlen]
    simpa using length_le_of_mem_chunks hc
  · intro call hmem batch hb
    obtain ⟨piece, _, hsizes⟩ := hcall call hmem
    have hsize := List.mem_map_of_mem (f := RecordBatch.numRows) hb
    rw [List.map_dropLast, hsizes, ← List.map_dropLast] at hsize
    obtain ⟨c, hc, hlen⟩ := List.mem_map.mp hsize
    rw [← hlen]
    simpa using length_of_mem_dropLast_chunks hc
  · intro hpos call hmem
    obtain ⟨piece, hpiece, hsizes⟩ := hcall call hmem
    have hlen := length_le_of_mem_chunks hpiece
    have hle := fetchCountOf_le hpos
    have hfetch := fetchCountOf_pos chunkRows
    rw [hsizes, ← List.length_flatten, flatten_chunks]
    omega

def ChunkLoopState.Agrees (st : ChunkLoopState σ)
    (st' : ChunkLoopState (σ × List (List RecordBatch))) : Prop :=
  st.totalRows = st'.totalRows ∧ st.schemaCols = st'.schemaCols ∧ st.handler = st'.handler.1

theorem processFetch_recorded (env : Env Raw) (columns : List SpiColumn) (batchSize : Nat)
    (typeOverrides : Option ArrowTypeOverrides) (handle : Handler σ) (fetch : Fetch Raw)
    (st : ChunkLoopState σ) (st' : ChunkLoopState (σ × List (List RecordBatch)))
    (h : st.Agrees st') :
    (processFetch env columns batchSize typeOverrides handle fetch st).1 =
        (processFetch env columns batchSize typeOverrides (recorded handle) fetch st').1 ∧
      (processFetch env columns batchSize typeOverrides handle fetch st).2.Agrees
        (processFetch env columns batchSize typeOverrides (recorded handle) fetch st').2 := by
  obtain ⟨h₁, h₂, h₃⟩ := h
  cases fetch with
  | failed e => cases e <;> exact ⟨rfl, h₁, h₂, h₃⟩
  | rows tuptable =>
    simp only [processFetch, processChunk, h₁, h₂, h₃]
    split
    · exact ⟨rfl, h₁, h₂, h₃⟩
    · split
      · exact ⟨rfl, rfl, rfl, rfl⟩
      · exact ⟨rfl, rfl, rfl, rfl⟩

theorem forEachSpiChunk_recorded (handle : Handler σ) {s s' : σ} {result : Except Failure Nat}
    (h : forEachSpiChunkWithTypeOverrides env source batchSize chunkRows typeOverrides handle s =
      (result, s')) :
    ∃ calls, forEachSpiChunkWithTypeOverrides env source batchSize chunkRows typeOverrides
      (recorded handle) (s, []) = (result, s', calls) := by
  have init : (⟨0, none, s⟩ : ChunkLoopState σ).Agrees ⟨0, none, s, []⟩ := ⟨rfl, rfl, rfl⟩
  obtain ⟨hresult, htotal, -, hhandler⟩ := runAll_simulation ChunkLoopState.Agrees id
    (processFetch_recorded env source.columns (max batchSize 1) typeOverrides handle)
    (source.fetches chunkRows) init
  rw [List.map_id] at hresult htotal hhandler
  rw [forEachSpiChunk_eq] at h ⊢
  simp only [Prod.mk.injEq] at h ⊢
  rw [hresult, htotal, hhandler] at h
  exact ⟨_, h.1, Prod.ext h.2 rfl⟩

theorem exactChunking_of_ok {handle : Handler σ} {s s' : σ} {total : Nat}
    (h : forEachSpiChunkWithTypeOverrides env source batchSize chunkRows typeOverrides handle s =
      (.ok total, s')) :
    ∃ calls cols, forEachSpiChunkWithTypeOverrides env source batchSize chunkRows typeOverrides
        (recorded handle) (s, []) = (.ok total, s', calls) ∧
      (source.rows ≠ [] → deriveColumns env source.columns typeOverrides = .ok cols) ∧
      ExactChunking env source cols batchSize chunkRows calls total := by
  obtain ⟨calls, hcalls⟩ := forEachSpiChunk_recorded handle h
  have hrun := hcalls
  rw [forEachSpiChunk_eq] at hrun
  rcases hst : runAll (processFetch env source.columns (max batchSize 1) typeOverrides
    (recorded handle)) (source.fetches chunkRows) ⟨0, none, s, []⟩ with ⟨_ | _, st⟩
  · simp [hst, Except.map, Except.mapError] at hrun
  · simp only [hst, Except.map, Except.mapError, Prod.mk.injEq, Except.ok.injEq] at hrun
    obtain ⟨rfl, hhandler⟩ := hrun
    have hfetches := (fetches_of_runAll_ok hst).2
    rw [hfetches] at hst
    cases hcols : deriveColumns env source.columns typeOverrides with
    | ok cols =>
      have hmatch := callsMatch_run hcols hst
      refine ⟨calls, cols, hcalls, fun _ => rfl, ?_⟩
      rw [hmatch.totalRows, flatten_chunks]
      apply exactChunking_of_calls
      rw [← hmatch.calls, hhandler]
    | error e =>
      have hempty : source.rows = [] := by
        by_contra hne
        rw [chunks_eq (fetchCountOf_pos chunkRows) hne, List.map_cons,
          runAll_of_deriveColumns_error hcols] at hst
        cases hst
      simp only [hempty, chunks_nil, List.map_nil, runAll_nil, Prod.mk.injEq, true_and] at hst
      subst hst
      cases hhandler
      refine ⟨[], [], hcalls, fun hne => absurd hempty hne, ?_⟩
      constructor <;> simp [hempty]

end

/-- A run of the chunk loop that ends well calls the handler with exactly the source rows,
and a chunk is rejected exactly when its batches outgrow the buffer. -/
theorem forEachSpiChunk_exact (env : Env Raw) :
    (∀ (source : ResultSet Raw) (batchSize chunkRows : Nat)
        (typeOverrides : Option ArrowTypeOverrides) (handle : Handler σ) (s s' : σ) (total : Nat),
      forEachSpiChunkWithTypeOverrides env source batchSize chunkRows typeOverrides handle s =
        (.ok total, s') →
      ∃ calls cols, forEachSpiChunkWithTypeOverrides env source batchSize chunkRows typeOverrides
          (recorded handle) (s, []) = (.ok total, s', calls) ∧
        (source.rows ≠ [] → deriveColumns env source.columns typeOverrides = .ok cols) ∧
        ExactChunking env source cols batchSize chunkRows calls total) ∧
    (∀ (cols : List SpiColumnInfo) (tuptable : List (SpiRow Raw)) (batchSize : Nat), cols ≠ [] →
      ((∃ bufferedBytes, convertSpiRows env tuptable cols (buildArrowSchema cols) batchSize =
          .error (bufferGuardMessage env.settings.maxWriteBufferBytes bufferedBytes)) ↔
        GuardTrips env cols batchSize tuptable)) := by
  constructor
  · intro source batchSize chunkRows typeOverrides handle s s' total h
    exact exactChunking_of_ok h
  · intro cols tuptable batchSize hcols
    constructor
    · intro h
      by_contra hguard
      obtain ⟨n, hn⟩ := h
      obtain ⟨batches, hbatches, -⟩ := convertSpiRows_of_not_guardTrips env cols hcols hguard
      rw [hbatches] at hn
      cases hn
    · intro h
      exact convertSpiRows_of_guardTrips env cols hcols h

/-- Every array takes a megabyte, and the limit is one. -/
def Env.tight : Env Int :=
  { Env.sample ⟨1, 1, true⟩ with getArrayMemorySize := fun _ _ => 1024 * 1024 }

theorem forEachSpiChunk_exact_sample : ∃ calls cols,
    ExactChunking Env.tight (.sample [1, 2, 3] none (by decide)) cols 1 1 calls 3 ∧
    (∃ bufferedBytes, convertSpiRows Env.tight [[⟨int4Oid, some 1⟩], [⟨int4Oid, some 2⟩]] cols
        (buildArrowSchema cols) 1 =
      .error (bufferGuardMessage Env.tight.settings.maxWriteBufferBytes bufferedBytes)) ∧
    ¬ ∃ bufferedBytes, convertSpiRows Env.tight [[⟨int4Oid, some 1⟩]] cols (buildArrowSchema cols)
        1 = .error (bufferGuardMessage Env.tight.settings.maxWriteBufferBytes bufferedBytes) := by
  obtain ⟨hrun, hguard⟩ := forEachSpiChunk_exact (σ := Nat) Env.tight
  obtain ⟨calls, cols, -, hcols, hexact⟩ := hrun (.sample [1, 2, 3] none (by decide)) 1 1 none
    (fun _ batches n => (.ok (), n + batches.length)) 0 3 3 (by decide +kernel)
  have hderived := hcols (by simp [ResultSet.sample])
  cases hderived
  refine ⟨calls, _, hexact, (hguard _ _ 1 (by simp)).mpr (by decide), ?_⟩
  rw [hguard _ _ 1 (by simp)]
  decide

end PgLance
