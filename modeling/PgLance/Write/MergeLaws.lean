import PgLance.Write.MergeRuns

/-! The laws of `lance_merge_insert`: chunked merges against one merge of the whole source,
what a failed call leaves, and running a merge again. -/

namespace PgLance

open Chunks Run
open scoped List

variable {Raw : Type}

section

variable {env : Env Raw} {lance : Lance} {onColumns : List String}
  {whenMatched whenNotMatched : String} {cols : List SpiColumnInfo} {batchSize : Nat}

theorem MergesTo.rows {keysMatch : List Value → List Value → Bool} {m : WhenMatched}
    {n : WhenNotMatched} (hl : lance.LawfulMerge keysMatch)
    (hm : parseWhenMatched whenMatched = .ok m) (hn : parseWhenNotMatched whenNotMatched = .ok n)
    {pieces : List (List (SpiRow Raw))} {ds ds' : Dataset}
    (h : MergesTo env lance onColumns whenMatched whenNotMatched cols batchSize pieces ds ds')
    (hkeys : ((pieces.flatten.map (convertRow env.pgrx cols)).map (keyOf onColumns)).Nodup) :
    ds'.rows.Perm (mergeRows keysMatch onColumns m n ds.rows
      (pieces.flatten.map (convertRow env.pgrx cols))) := by
  induction h with
  | nil ds => simp [mergeRows]
  | snoc hmerges hcut hbuilder hexecute ih =>
    rename_i pieces ds ds' ds'' piece batches builder
    obtain ⟨hdataset, hon, hmatched, hnot⟩ := mergeBuilder_ok hbuilder
    rw [hm, Except.ok.injEq] at hmatched
    rw [hn, Except.ok.injEq] at hnot
    have hrows : batchRows batches = piece.map (convertRow env.pgrx cols) := hcut.flatMap_rows
    simp only [List.flatten_append, List.flatten_cons, List.flatten_nil, List.append_nil,
      List.map_append] at hkeys ⊢
    have hone := hl.execute builder (buildArrowSchema cols) batches ds''
      (by rw [hrows, hon]; exact hkeys.of_append_right) hexecute
    rw [hdataset, hon, hrows, ← hmatched, ← hnot] at hone
    rw [← List.map_append] at hkeys
    calc ds''.rows
      _ ~ mergeRows keysMatch onColumns m n ds'.rows (piece.map (convertRow env.pgrx cols)) := hone
      _ ~ mergeRows keysMatch onColumns m n (mergeRows keysMatch onColumns m n ds.rows
            (pieces.flatten.map (convertRow env.pgrx cols)))
            (piece.map (convertRow env.pgrx cols)) :=
        Upsert.merge_perm (ih (by rw [List.map_append] at hkeys; exact hkeys.of_append_left)) _ _ _
      _ = mergeRows keysMatch onColumns m n ds.rows
            (pieces.flatten.map (convertRow env.pgrx cols) ++
              piece.map (convertRow env.pgrx cols)) :=
        Upsert.merge_append hl.match_eq hkeys _ _ _

end

section

variable (env : Env Raw) (host : Host) (lance : Lance) (uri : String) (source : ResultSet Raw)
  (onColumns : List String) (whenMatched whenNotMatched : String) (batchSize : Nat)
  (serverName : Option String) (typeOverrides : Option ArrowTypeOverrides)
  (before : Option Dataset)

def mergeRun : Except Failure Unit × ChunkLoopState MergeState :=
  runAll (processFetch env source.columns (max batchSize 1) typeOverrides
    (mergeChunk host lance uri onColumns whenMatched whenNotMatched serverName
      env.settings.mergeUseIndex))
    (source.fetches env.settings.writeChunkRows) ⟨0, none, none, before, 0, 0⟩

def mergeResult (run : Except Failure Unit × ChunkLoopState MergeState) :
    Except Failure MergeReport :=
  match run.1 with
  | .ok () => .ok (mergeReport run.2.totalRows host.elapsedMs run.2.handler.chunkTxns
      env.settings.writeChunkRows)
  | .error e => .error (spiConnect e)

theorem forEachMergeChunk_eq (chunkRows : Nat) (handleChunk : Handler MergeState)
    (st : MergeState) :
    forEachMergeChunk env source batchSize chunkRows typeOverrides handleChunk st =
      let (result, st) := runAll
        (processFetch env source.columns (max batchSize 1) typeOverrides handleChunk)
        (source.fetches chunkRows) ⟨0, none, st⟩
      ((result.mapError spiConnect).map fun _ => st.totalRows, st.handler) := by
  cases typeOverrides <;> exact forEachSpiChunk_eq env batchSize _ handleChunk source chunkRows st

theorem lanceMergeInsertImplInner_cases :
    (∃ e, lanceMergeInsertImplInner env host lance uri source onColumns whenMatched whenNotMatched
      batchSize serverName typeOverrides before = (.error (.returned e), before)) ∨
    (onColumns ≠ [] ∧
      lanceMergeInsertImplInner env host lance uri source onColumns whenMatched whenNotMatched
        batchSize serverName typeOverrides before =
      (mergeResult env host (mergeRun env host lance uri source onColumns whenMatched
          whenNotMatched batchSize serverName typeOverrides before),
        (mergeRun env host lance uri source onColumns whenMatched whenNotMatched batchSize
          serverName typeOverrides before).2.handler.store)) := by
  cases onColumns with
  | nil => exact .inl ⟨_, rfl⟩
  | cons col onColumns =>
    cases hruntime : host.runtimeNew with
    | error e =>
      refine .inl ⟨"failed to create tokio runtime: " ++ e, ?_⟩
      simp only [lanceMergeInsertImplInner, hruntime, List.isEmpty_cons, Bool.false_eq_true,
        if_false]
    | ok _ =>
      refine .inr ⟨by simp, ?_⟩
      simp only [lanceMergeInsertImplInner, hruntime, List.isEmpty_cons, Bool.false_eq_true,
        if_false, forEachMergeChunk_eq]
      rw [← mergeRun]
      generalize mergeRun env host lance uri source (col :: onColumns) whenMatched whenNotMatched
        batchSize serverName typeOverrides before = run
      rcases run with ⟨_ | _, st⟩ <;> rfl

inductive AppliedTo : List (List (SpiRow Raw)) → Option Dataset → Option Dataset → Prop
  | none (store : Option Dataset) : AppliedTo [] store store
  | merged {pieces cols ds ds'} : deriveColumns env source.columns typeOverrides = .ok cols →
    MergesTo env lance onColumns whenMatched whenNotMatched cols (max batchSize 1) pieces ds ds' →
    AppliedTo pieces (some ds) (some ds')

structure ValidOptions : Prop where
  whenMatched : ∃ m, parseWhenMatched whenMatched = .ok m
  whenNotMatched : ∃ n, parseWhenNotMatched whenNotMatched = .ok n
  nonempty : onColumns ≠ []
  columns : ∀ col ∈ onColumns, col ∈ source.columns.map SpiColumn.name ∧
    ∃ ds, before = some ds ∧ col ∈ ds.fieldNames

end

section

variable {env : Env Raw} {host : Host} {lance : Lance} {uri : String} {source : ResultSet Raw}
  {onColumns : List String} {whenMatched whenNotMatched : String} {batchSize : Nat}
  {serverName : Option String} {typeOverrides : Option ArrowTypeOverrides}
  {before : Option Dataset} {cols : List SpiColumnInfo} {pieces : List (List (SpiRow Raw))}

theorem Merged.applied {st : MergeState} (hl : lance.LawfulLoad)
    (hcols : deriveColumns env source.columns typeOverrides = .ok cols)
    (h : Merged env host lance uri onColumns whenMatched whenNotMatched serverName cols
      (max batchSize 1) before pieces st) :
    AppliedTo env lance source onColumns whenMatched whenNotMatched batchSize typeOverrides pieces
      before st.store := by
  cases h with
  | none => exact .none before
  | some hpieces hopen hmerges =>
    rw [(openMergeTarget_ok hl hopen).1]
    exact .merged hcols hmerges

theorem Merged.chunkTxns {st : MergeState}
    (h : Merged env host lance uri onColumns whenMatched whenNotMatched serverName cols
      batchSize before pieces st) : st.chunkTxns = pieces.length := by
  cases h <;> rfl

theorem Merged.validOptions {st : MergeState} (hl : lance.LawfulLoad) (hne : onColumns ≠ [])
    (hcols : deriveColumns env source.columns typeOverrides = .ok cols)
    (h : Merged env host lance uri onColumns whenMatched whenNotMatched serverName cols
      batchSize before pieces st) (hpieces : pieces ≠ []) :
    ValidOptions source onColumns whenMatched whenNotMatched before := by
  cases h with
  | none => exact absurd rfl hpieces
  | some _ hopen hmerges =>
    obtain ⟨rfl, hcolumns⟩ := openMergeTarget_ok hl hopen
    have hnames : (buildArrowSchema cols).map FieldOf.name = source.columns.map SpiColumn.name := by
      rw [← (map_source_deriveColumns hcols).2, buildArrowSchema, List.map_map, List.map_map]
      rfl
    rw [hnames] at hcolumns
    cases hmerges with
    | nil => exact absurd rfl hpieces
    | snoc _ _ hbuilder _ =>
      obtain ⟨-, -, hmatched, hnot⟩ := mergeBuilder_ok hbuilder
      exact ⟨⟨_, hmatched⟩, ⟨_, hnot⟩, hne, fun col hcol =>
        ⟨(hcolumns col hcol).1, _, rfl, (hcolumns col hcol).2⟩⟩

theorem processFetch_of_error {σ : Type} {e : String}
    (hcols : deriveColumns env source.columns typeOverrides = .error e) (handle : Handler σ)
    (fetch : Fetch Raw) {st : ChunkLoopState σ} (hst : st.schemaCols = none) :
    ∃ e, processFetch env source.columns batchSize typeOverrides handle fetch st = (.error e, st) ∧
      ∀ message, e ≠ .panicked message := by
  cases fetch with
  | failed f => cases f <;> exact ⟨_, rfl, by simp⟩
  | rows tuptable =>
    exact ⟨_, processChunk_of_error hcols batchSize handle tuptable hst, by simp⟩

theorem mergeRun_ok (hl : lance.LawfulLoad)
    (h : (mergeRun env host lance uri source onColumns whenMatched whenNotMatched batchSize
      serverName typeOverrides before).1 = .ok ()) :
    AppliedTo env lance source onColumns whenMatched whenNotMatched batchSize typeOverrides
        (chunks (fetchCountOf env.settings.writeChunkRows) source.rows) before
        (mergeRun env host lance uri source onColumns whenMatched whenNotMatched batchSize
          serverName typeOverrides before).2.handler.store ∧
      (mergeRun env host lance uri source onColumns whenMatched whenNotMatched batchSize serverName
        typeOverrides before).2.totalRows = source.rows.length ∧
      (mergeRun env host lance uri source onColumns whenMatched whenNotMatched batchSize serverName
        typeOverrides before).2.handler.chunkTxns =
          (chunks (fetchCountOf env.settings.writeChunkRows) source.rows).length := by
  generalize hrun : mergeRun env host lance uri source onColumns whenMatched whenNotMatched
    batchSize serverName typeOverrides before = run at h ⊢
  obtain ⟨result, st⟩ := run
  cases h
  rw [mergeRun] at hrun
  have hfetches := (fetches_of_runAll_ok hrun).2
  cases hcols : deriveColumns env source.columns typeOverrides with
  | error e =>
    rw [hfetches] at hrun
    cases hchunks : chunks (fetchCountOf env.settings.writeChunkRows) source.rows with
    | nil =>
      rw [hchunks] at hrun
      cases hrun
      exact ⟨.none before, by simp [chunks_eq_nil.mp hchunks], rfl⟩
    | cons piece pieces =>
      rw [hchunks, List.map_cons, runAll_of_deriveColumns_error hcols] at hrun
      cases hrun
  | ok cols =>
    obtain ⟨pieces, hpieces, -, htotal, hmerged⟩ :=
      merged_run hcols (fun _ h => ne_nil_of_mem_fetches h) hrun
    rw [hfetches] at hpieces
    have hinj : pieces = chunks (fetchCountOf env.settings.writeChunkRows) source.rows :=
      List.map_injective_iff.mpr (fun _ _ h => by simpa using h) hpieces.symm
    rw [← hinj]
    refine ⟨hmerged.applied hl hcols, ?_, hmerged.chunkTxns⟩
    rw [htotal, hinj, flatten_chunks]

theorem mergeRun_error (hl : lance.LawfulLoad) (hne : onColumns ≠ []) {e : Failure}
    (h : (mergeRun env host lance uri source onColumns whenMatched whenNotMatched batchSize
      serverName typeOverrides before).1 = .error e) :
    (∀ message, e ≠ .panicked message) ∧
    ∃ pieces fetch rest,
      source.fetches env.settings.writeChunkRows = pieces.map .rows ++ fetch :: rest ∧
      AppliedTo env lance source onColumns whenMatched whenNotMatched batchSize typeOverrides pieces
        before (mergeRun env host lance uri source onColumns whenMatched whenNotMatched batchSize
          serverName typeOverrides before).2.handler.store ∧
      (pieces ≠ [] → ValidOptions source onColumns whenMatched whenNotMatched before) := by
  generalize hrun : mergeRun env host lance uri source onColumns whenMatched whenNotMatched
    batchSize serverName typeOverrides before = run at h ⊢
  obtain ⟨result, st⟩ := run
  cases h
  rw [mergeRun] at hrun
  obtain ⟨done, fetch, rest, st₁, hfetches, hdone, hfail⟩ := runAll_error hrun
  cases hcols : deriveColumns env source.columns typeOverrides with
  | error e' =>
    cases done with
    | nil =>
      cases hdone
      obtain ⟨e'', he'', hpanic⟩ := processFetch_of_error hcols
        (mergeChunk host lance uri onColumns whenMatched whenNotMatched serverName
          env.settings.mergeUseIndex) fetch
        (show (ChunkLoopState.mk 0 none _).schemaCols = none from rfl)
      cases he''.symm.trans hfail
      exact ⟨hpanic, [], fetch, rest, hfetches, .none before, fun h => absurd rfl h⟩
    | cons first done =>
      obtain ⟨e'', he'', -⟩ := processFetch_of_error hcols
        (mergeChunk host lance uri onColumns whenMatched whenNotMatched serverName
          env.settings.mergeUseIndex) first
        (show (ChunkLoopState.mk 0 none _).schemaCols = none from rfl)
      rw [runAll_cons_error he''] at hdone
      cases hdone
  | ok cols =>
    have hdoneNe : ∀ tuptable, .rows tuptable ∈ done → tuptable ≠ [] := by
      intro tuptable hmem
      have hmem' : .rows tuptable ∈ source.fetches env.settings.writeChunkRows := by
        rw [hfetches]
        exact List.mem_append_left _ hmem
      exact ne_nil_of_mem_fetches hmem'
    obtain ⟨pieces, rfl, hknows, -, hmerged⟩ := merged_run hcols hdoneNe hdone
    have hstore : st.handler.store = st₁.handler.store ∧ ∀ message, e ≠ .panicked message := by
      cases processFetch_error hcols hknows hfail with
      | inl h => exact ⟨by rw [h.1], h.2.1⟩
      | inr h =>
        obtain ⟨_, _, _, _, hchunk⟩ := h
        exact mergeChunk_error hchunk
    refine ⟨hstore.2, pieces, fetch, rest, hfetches, ?_, hmerged.validOptions hl hne hcols⟩
    rw [hstore.1]
    exact hmerged.applied hl hcols

theorem writtenRows_append (env : Env Raw) (columns : List SpiColumn)
    (typeOverrides : Option ArrowTypeOverrides) (rows more : List (SpiRow Raw)) :
    writtenRows env columns typeOverrides (rows ++ more) =
      writtenRows env columns typeOverrides rows ++ writtenRows env columns typeOverrides more := by
  unfold writtenRows
  split <;> simp

theorem AppliedTo.rows {keysMatch : List Value → List Value → Bool} {m : WhenMatched}
    {n : WhenNotMatched} (hl : lance.LawfulMerge keysMatch)
    (hm : parseWhenMatched whenMatched = .ok m) (hn : parseWhenNotMatched whenNotMatched = .ok n)
    {ds : Dataset} {after : Option Dataset}
    (h : AppliedTo env lance source onColumns whenMatched whenNotMatched batchSize typeOverrides
      pieces (some ds) after)
    (hkeys : ((writtenRows env source.columns typeOverrides pieces.flatten).map
      (keyOf onColumns)).Nodup) :
    ∃ ds', after = some ds' ∧ ds'.rows.Perm (mergeRows keysMatch onColumns m n ds.rows
      (writtenRows env source.columns typeOverrides pieces.flatten)) := by
  cases h with
  | none =>
    have hnil : writtenRows env source.columns typeOverrides ([] : List (List (SpiRow Raw))).flatten
        = [] := by
      unfold writtenRows
      split <;> rfl
    exact ⟨ds, rfl, by rw [hnil, mergeRows, Upsert.merge_nil]⟩
  | merged hcols hmerges =>
    simp only [writtenRows, hcols] at hkeys ⊢
    exact ⟨_, rfl, hmerges.rows hl hm hn hkeys⟩

structure Reports (env : Env Raw) (source : ResultSet Raw) (row : MergeRow) : Prop where
  rowsMerged : row.rowsMerged = asI64 source.rows.length
  chunkTxns : row.chunkTxns =
    asI64 (chunks (fetchCountOf env.settings.writeChunkRows) source.rows).length

theorem AppliedTo.unchanged_or_parsed {ds : Dataset} {after : Option Dataset}
    (h : AppliedTo env lance source onColumns whenMatched whenNotMatched batchSize typeOverrides
      pieces (some ds) after) :
    pieces = [] ∧ after = some ds ∨
      ∃ m n, parseWhenMatched whenMatched = .ok m ∧ parseWhenNotMatched whenNotMatched = .ok n := by
  cases h with
  | none => exact .inl ⟨rfl, rfl⟩
  | merged _ hmerges =>
    cases hmerges with
    | nil => exact .inl ⟨rfl, rfl⟩
    | snoc _ _ hbuilder _ =>
      obtain ⟨-, -, hmatched, hnot⟩ := mergeBuilder_ok hbuilder
      exact .inr ⟨_, _, hmatched, hnot⟩

/-- However a merge ends, some first rows of the source were merged, and all when it returns. -/
theorem lanceMergeInsertImplInner_rows {keysMatch : List Value → List Value → Bool}
    (hl : lance.LawfulMerge keysMatch)
    (hkeys : ((sourceRows env source typeOverrides).map (keyOf onColumns)).Nodup)
    {ds : Dataset} {result : Except Failure MergeReport} {after : Option Dataset}
    (h : lanceMergeInsertImplInner env host lance uri source onColumns whenMatched whenNotMatched
      batchSize serverName typeOverrides (some ds) = (result, after)) :
    ∃ rows ds', rows <+: source.rows ∧ after = some ds' ∧
      (rows = [] ∧ ds' = ds ∨ ∃ m n, parseWhenMatched whenMatched = .ok m ∧
        parseWhenNotMatched whenNotMatched = .ok n ∧
        ds'.rows.Perm (mergeRows keysMatch onColumns m n ds.rows
          (writtenRows env source.columns typeOverrides rows))) ∧
      ∀ report, result = .ok report → rows = source.rows ∧ Reports env source report.row := by
  have happlied : ∀ pieces after, pieces.flatten <+: source.rows →
      AppliedTo env lance source onColumns whenMatched whenNotMatched batchSize typeOverrides
        pieces (some ds) after →
      ∃ ds', after = some ds' ∧ (pieces.flatten = [] ∧ ds' = ds ∨
        ∃ m n, parseWhenMatched whenMatched = .ok m ∧ parseWhenNotMatched whenNotMatched = .ok n ∧
        ds'.rows.Perm (mergeRows keysMatch onColumns m n ds.rows
          (writtenRows env source.columns typeOverrides pieces.flatten))) := by
    intro pieces after hfirst happlied
    rcases happlied.unchanged_or_parsed with ⟨rfl, rfl⟩ | ⟨m, n, hm, hn⟩
    · exact ⟨ds, rfl, .inl ⟨rfl, rfl⟩⟩
    · obtain ⟨rest, hrest⟩ := hfirst
      rw [sourceRows, ← hrest, writtenRows_append, List.map_append] at hkeys
      obtain ⟨ds', hafter, hperm⟩ := happlied.rows hl hm hn hkeys.of_append_left
      exact ⟨ds', hafter, .inr ⟨m, n, hm, hn, hperm⟩⟩
  cases lanceMergeInsertImplInner_cases env host lance uri source onColumns whenMatched
      whenNotMatched batchSize serverName typeOverrides (some ds) with
  | inl hcase =>
    obtain ⟨e, he⟩ := hcase
    rw [he, Prod.mk.injEq] at h
    refine ⟨[], ds, List.nil_prefix, h.2.symm, .inl ⟨rfl, rfl⟩, ?_⟩
    intro report hreport
    rw [hreport] at h
    cases h.1
  | inr hcase =>
    obtain ⟨hne, hrun⟩ := hcase
    rw [hrun] at h
    cases hresult : (mergeRun env host lance uri source onColumns whenMatched whenNotMatched
        batchSize serverName typeOverrides (some ds)).1 with
    | ok _ =>
      obtain ⟨hok, htotal, hchunks⟩ := mergeRun_ok hl.load hresult
      obtain ⟨ds', hstore, hds'⟩ := happlied _ _ (by simp) hok
      rw [flatten_chunks] at hds'
      simp only [mergeResult, hresult, htotal, hchunks, hstore, Prod.mk.injEq] at h
      refine ⟨source.rows, ds', List.prefix_refl _, h.2.symm, hds', ?_⟩
      intro report hreport
      rw [hreport, Except.ok.injEq] at h
      rw [← h.1]
      exact ⟨rfl, by simp, by simp⟩
    | error e =>
      obtain ⟨-, pieces, fetch, rest, hfetches, herror, -⟩ := mergeRun_error hl.load hne hresult
      have hfirst : pieces.flatten <+: source.rows :=
        flatten_prefix_of_fetches (by rw [hfetches]; exact List.prefix_append _ _)
      obtain ⟨ds', hstore, hds'⟩ := happlied _ _ hfirst herror
      simp only [mergeResult, hresult, hstore, Prod.mk.injEq] at h
      refine ⟨pieces.flatten, ds', hfirst, h.2.symm, hds', ?_⟩
      intro report hreport
      rw [hreport] at h
      cases h.1

theorem lanceMergeInsert_rows {keysMatch : List Value → List Value → Bool} {m : WhenMatched}
    {n : WhenNotMatched} (hl : lance.LawfulMerge keysMatch)
    (hm : parseWhenMatched whenMatched = .ok m) (hn : parseWhenNotMatched whenNotMatched = .ok n)
    (hkeys : ((sourceRows env source none).map (keyOf onColumns)).Nodup) {batchSize : Int}
    {ds : Dataset} {result : Except Failure MergeRow} {after : Option Dataset}
    (h : lanceMergeInsert env host lance uri source onColumns whenMatched whenNotMatched batchSize
      serverName (some ds) = (result, after)) :
    ∃ rows ds', rows <+: source.rows ∧ after = some ds' ∧
      ds'.rows.Perm (mergeRows keysMatch onColumns m n ds.rows
        (writtenRows env source.columns none rows)) ∧
      ∀ row, result = .ok row → rows = source.rows ∧ Reports env source row := by
  simp only [lanceMergeInsert, lanceMergeInsertImpl] at h
  cases hcall : lanceMergeInsertImplInner env host lance uri source onColumns whenMatched
    whenNotMatched (i32AsUsize batchSize) serverName none (some ds) with
  | mk result' after' =>
  rw [hcall, Prod.mk.injEq] at h
  obtain ⟨hresult, rfl⟩ := h
  obtain ⟨rows, ds', hfirst, hstore, hrows, hreports⟩ := lanceMergeInsertImplInner_rows hl hkeys hcall
  refine ⟨rows, ds', hfirst, hstore, ?_, ?_⟩
  · rcases hrows with ⟨rfl, rfl⟩ | ⟨m', n', hm', hn', hperm⟩
    · have hnil : writtenRows env source.columns none ([] : List (SpiRow Raw)) = [] := by
        unfold writtenRows
        split <;> rfl
      rw [hnil, mergeRows, Upsert.merge_nil]
    · cases hm.symm.trans hm'
      cases hn.symm.trans hn'
      exact hperm
  · intro row hrow
    rw [hrow] at hresult
    cases result' with
    | error e => cases hresult
    | ok report =>
      cases hresult
      exact hreports report rfl

end

theorem asI64_of_lt {n : Nat} (h : n < cLongMax) : asI64 n = n := by
  unfold asI64 cLongMax at *
  rw [Int.bmod_eq_of_le] <;> omega

def chunkTxnsOf (rows chunkRows : Nat) : Nat :=
  if chunkRows = 0 then (if rows = 0 then 0 else 1) else (rows + chunkRows - 1) / chunkRows

theorem chunks_min {α : Type} {n limit : Nat} {xs : List α} (h : xs.length < limit) :
    chunks (min n limit) xs = chunks n xs := by
  by_cases hle : n ≤ limit
  · rw [Nat.min_eq_left hle]
  · by_cases hxs : xs = []
    · simp [hxs]
    · rw [Nat.min_eq_right (by omega), chunks_of_length_le hxs h.le,
        chunks_of_length_le hxs (by omega)]

theorem length_chunks_fetchCountOf (source : ResultSet Raw) (chunkRows : Nat) :
    (chunks (fetchCountOf chunkRows) source.rows).length =
      chunkTxnsOf source.rows.length chunkRows := by
  have hcount := source.countable
  by_cases hzero : chunkRows = 0
  · by_cases hrows : source.rows = []
    · simp [hrows, chunkTxnsOf, hzero]
    · have hlen : source.rows.length ≠ 0 := by simpa using hrows
      have hle : source.rows.length ≤ fetchCountOf chunkRows := by
        rw [fetchCountOf, if_pos hzero]
        exact hcount.le
      rw [chunks_of_length_le hrows hle]
      simp [chunkTxnsOf, hzero, hrows]
  · rw [fetchCountOf, if_neg hzero, chunks_min hcount, length_chunks (by omega),
      chunkTxnsOf, if_neg hzero]

theorem chunkTxnsOf_le (rows chunkRows : Nat) : chunkTxnsOf rows chunkRows ≤ rows := by
  unfold chunkTxnsOf
  split
  · split <;> omega
  · cases rows with
    | zero => simp [Nat.div_eq_of_lt (show chunkRows - 1 < chunkRows by omega)]
    | succ rows =>
      rw [show rows + 1 + chunkRows - 1 = rows + chunkRows by omega,
        Nat.add_div_right _ (by omega)]
      exact Nat.succ_le_succ (Nat.div_le_self _ _)

/-- A merge in chunks leaves the rows of one merge of the whole source. -/
theorem lanceMergeInsert_single_pass (env : Env Raw) (host : Host) (lance : Lance) (uri : String)
    (source : ResultSet Raw) (onColumns : List String) (whenMatched whenNotMatched : String)
    (batchSize : Int) (serverName : Option String) (keysMatch : List Value → List Value → Bool)
    (m : WhenMatched) (n : WhenNotMatched) (ds : Dataset) (row : MergeRow) (after : Option Dataset)
    (hl : lance.LawfulMerge keysMatch) (hm : parseWhenMatched whenMatched = .ok m)
    (hn : parseWhenNotMatched whenNotMatched = .ok n)
    (hkeys : ((sourceRows env source none).map (keyOf onColumns)).Nodup)
    (h : lanceMergeInsert env host lance uri source onColumns whenMatched whenNotMatched batchSize
      serverName (some ds) = (.ok row, after)) :
    (∃ ds', after = some ds' ∧ ds'.rows.Perm
      (mergeRows keysMatch onColumns m n ds.rows (sourceRows env source none))) ∧
    row.rowsMerged = source.rows.length ∧
    row.chunkTxns = chunkTxnsOf source.rows.length env.settings.writeChunkRows := by
  obtain ⟨rows, ds', -, hafter, hds', hreports⟩ := lanceMergeInsert_rows hl hm hn hkeys h
  obtain ⟨rfl, hmerged, htxns⟩ := hreports row rfl
  refine ⟨⟨ds', hafter, hds'⟩, ?_, ?_⟩
  · rw [hmerged, asI64_of_lt source.countable]
  · rw [htxns, length_chunks_fetchCountOf, asI64_of_lt]
    exact lt_of_le_of_lt (chunkTxnsOf_le _ _) source.countable

theorem lanceMergeInsert_single_pass_sample :
    ∃ ds', (lanceMergeInsert (Env.sample ⟨0, 1, true⟩) Host.sample (Lance.sample fun _ => none) "/d"
        (.sample [1, 2, 3] none (by decide)) ["id"] "update" "insert" 2 none
        (some (.sample [3, 4]))).2 = some ds' ∧
      ds'.rows.Perm (mergeRows sampleKeysMatch ["id"] .updateAll .insertAll
        (Dataset.sample [3, 4]).rows
        (sourceRows (Env.sample ⟨0, 1, true⟩) (.sample [1, 2, 3] none (by decide)) none)) :=
  (lanceMergeInsert_single_pass (Env.sample ⟨0, 1, true⟩) Host.sample (Lance.sample fun _ => none)
    "/d" (.sample [1, 2, 3] none (by decide)) ["id"] "update" "insert" 2 none sampleKeysMatch
    .updateAll .insertAll (.sample [3, 4]) ⟨3, none, none, 0, 3, 1⟩ _ (Lance.sample_lawfulMerge _)
    rfl rfl (by decide +kernel) (Prod.ext (by decide +kernel) rfl)).1

/-- A merge that fails leaves the merges of its first chunks, without the chunk it failed at. -/
theorem lanceMergeInsert_failed (env : Env Raw) (host : Host) (lance : Lance) (uri : String)
    (source : ResultSet Raw) (onColumns : List String) (whenMatched whenNotMatched : String)
    (batchSize : Nat) (serverName : Option String) (typeOverrides : Option ArrowTypeOverrides)
    (before after : Option Dataset) (e : Failure) (hl : lance.LawfulLoad)
    (h : lanceMergeInsertImplInner env host lance uri source onColumns whenMatched whenNotMatched
      batchSize serverName typeOverrides before = (.error e, after)) :
    (∀ message, e ≠ .panicked message) ∧
    ∃ k pieces, pieces.map .rows = (source.fetches env.settings.writeChunkRows).take k ∧
      pieces.length = k ∧
      (k < (source.fetches env.settings.writeChunkRows).length ∨
        k = 0 ∧ source.fetches env.settings.writeChunkRows = []) ∧
      AppliedTo env lance source onColumns whenMatched whenNotMatched batchSize typeOverrides pieces
        before after ∧
      (env.settings.writeChunkRows = 0 → k = 0) ∧
      (¬ ValidOptions source onColumns whenMatched whenNotMatched before → k = 0) := by
  cases lanceMergeInsertImplInner_cases env host lance uri source onColumns whenMatched
      whenNotMatched batchSize serverName typeOverrides before with
  | inl hcase =>
    obtain ⟨e', he⟩ := hcase
    cases he.symm.trans h
    refine ⟨by simp, 0, [], rfl, rfl, ?_, .none before, fun _ => rfl, fun _ => rfl⟩
    cases source.fetches env.settings.writeChunkRows with
    | nil => exact .inr ⟨rfl, rfl⟩
    | cons _ _ => exact .inl (by simp)
  | inr hcase =>
    obtain ⟨hne, hrun⟩ := hcase
    rw [hrun, Prod.mk.injEq] at h
    cases hresult : (mergeRun env host lance uri source onColumns whenMatched whenNotMatched
        batchSize serverName typeOverrides before).1 with
    | ok _ => simp [mergeResult, hresult] at h
    | error e' =>
      obtain ⟨hpanic, pieces, fetch, rest, hfetches, happlied, hvalid⟩ :=
        mergeRun_error hl hne hresult
      have he : e = spiConnect e' := by
        have hcall := h.1
        simp only [mergeResult, hresult, Except.error.injEq] at hcall
        exact hcall.symm
      rw [h.2] at happlied
      refine ⟨?_, pieces.length, pieces, ?_, rfl, ?_, happlied, ?_, ?_⟩
      · intro message hmessage
        rw [he] at hmessage
        cases e' with
        | panicked m => exact hpanic m rfl
        | returned m => cases hmessage
        | raised m => cases hmessage
      · rw [hfetches, List.take_left' (by simp)]
      · rw [hfetches]
        exact .inl (by simp)
      · intro hzero
        have hle := length_fetches_zero source
        rw [hzero] at hfetches
        rw [hfetches] at hle
        simp only [List.length_append, List.length_map, List.length_cons] at hle
        omega
      · intro hinvalid
        by_contra hpieces
        exact hinvalid (hvalid fun hnil => hpieces (by rw [hnil]; rfl))

theorem lanceMergeInsert_failed_sample :
    ∃ k pieces, pieces.length = k ∧
      AppliedTo (Env.sample ⟨0, 1, true⟩)
        (Lance.sample fun n => if n = 1 then some "fault" else none)
        (.sample [1, 2, 3] none (by decide)) ["id"] "update" "insert" 2 none pieces
        (some (.sample [3, 4])) (some (.sample [3, 4, 1])) :=
  have h := lanceMergeInsert_failed (Env.sample ⟨0, 1, true⟩) Host.sample
    (Lance.sample fun n => if n = 1 then some "fault" else none) "/d"
    (.sample [1, 2, 3] none (by decide)) ["id"] "update" "insert" 2 none none
      (some (.sample [3, 4]))
    (some (.sample [3, 4, 1]))
    (.returned "SPI connect failed: lance merge_insert failed: fault") (Lance.sample_lawfulLoad _)
    (by decide +kernel)
  h.2.imp fun _ h => h.imp fun _ h => ⟨h.2.1, h.2.2.2.1⟩

/-- A merge without key columns fails on an empty source as well, which has no chunk at all. -/
theorem lanceMergeInsert_failed_without_chunks :
    (lanceMergeInsertImplInner (Env.sample ⟨0, 1, true⟩) Host.sample
      (Lance.sample fun _ => none) "/d" (.sample [] none (by decide)) [] "update" "insert" 2 none
      none (some (.sample [3, 4]))).1 =
        .error (.returned "on_columns must not be empty") ∧
    ¬ ∃ k, k < ((ResultSet.sample [] none (by decide)).fetches 1).length :=
  ⟨rfl, fun ⟨k, hk⟩ => Nat.not_lt_zero k hk⟩

theorem mergeRows_prefix {keysMatch : List Value → List Value → Bool} {lance : Lance}
    (hl : lance.LawfulMerge keysMatch) {onColumns : List String} {n : WhenNotMatched}
    {target first all : List Row} (hfirst : first <+: all)
    (hkeys : (all.map (keyOf onColumns)).Nodup)
    (hnulls : ∀ row ∈ all, .null ∉ keyOf onColumns row) :
    mergeRows keysMatch onColumns .updateAll n
      (mergeRows keysMatch onColumns .updateAll n target first)
        all = mergeRows keysMatch onColumns .updateAll n target all := by
  obtain ⟨rest, rfl⟩ := hfirst
  apply Upsert.merge_prefix hl.match_eq _ hkeys
  intro row hrow
  exact hl.match_self (hnulls row hrow)

/-- Running an update merge again, after a run that ended anyhow, leaves the rows that an
uninterrupted run leaves; after a run that returned, it leaves the rows as they are. -/
theorem lanceMergeInsert_converges (env : Env Raw) (host : Host) (lance : Lance) (uri : String)
    (source source₁ : ResultSet Raw) (onColumns : List String) (whenNotMatched : String)
    (serverName : Option String) (keysMatch : List Value → List Value → Bool) (n : WhenNotMatched)
    (ds : Dataset) (settings₁ settings₂ settings₃ : Settings)
    (batchSize₁ batchSize₂ batchSize₃ : Int)
    (faults₁ faults₂ faults₃ : Nat → Option String) (result₁ : Except Failure MergeRow)
    (row₂ row₃ : MergeRow) (middle after uninterrupted : Option Dataset)
    (hl : lance.LawfulMerge keysMatch) (hn : parseWhenNotMatched whenNotMatched = .ok n)
    (hkeys : ((sourceRows env source none).map (keyOf onColumns)).Nodup)
    (hnulls : ∀ row ∈ sourceRows env source none, .null ∉ keyOf onColumns row)
    (hcolumns : source₁.columns = source.columns) (hrows : source₁.rows <+: source.rows)
    (h₁ : lanceMergeInsert { env with settings := settings₁ } host
      { lance with commitFault := faults₁ } uri source₁ onColumns "update" whenNotMatched batchSize₁
      serverName (some ds) = (result₁, middle))
    (h₂ : lanceMergeInsert { env with settings := settings₂ } host
      { lance with commitFault := faults₂ } uri source onColumns "update" whenNotMatched batchSize₂
      serverName middle = (.ok row₂, after))
    (h₃ : lanceMergeInsert { env with settings := settings₃ } host
      { lance with commitFault := faults₃ } uri source onColumns "update" whenNotMatched batchSize₃
      serverName (some ds) = (.ok row₃, uninterrupted)) :
    (∃ d d', after = some d ∧ uninterrupted = some d' ∧ d.rows.Perm d'.rows) ∧
    ((∃ row₁, result₁ = .ok row₁) → source₁.rows = source.rows →
      ∃ d d₁, after = some d ∧ middle = some d₁ ∧ d.rows.Perm d₁.rows) := by
  have hlaws : ∀ faults, Lance.LawfulMerge { lance with commitFault := faults } keysMatch :=
    fun _ => ⟨hl.load, hl.match_eq, hl.match_self, hl.execute⟩
  have hwritten : ∀ rows, rows <+: source.rows →
      writtenRows env source.columns none rows <+: sourceRows env source none := by
    intro rows hfirst
    obtain ⟨rest, hrest⟩ := hfirst
    rw [sourceRows, ← hrest, writtenRows_append]
    exact List.prefix_append _ _
  have hkeys₁ : ((sourceRows { env with settings := settings₁ } source₁ none).map
      (keyOf onColumns)).Nodup := by
    obtain ⟨rest, hrest⟩ := hwritten source₁.rows hrows
    rw [← hrest, List.map_append] at hkeys
    rw [sourceRows, hcolumns]
    exact hkeys.of_append_left
  obtain ⟨rows₁, d₁, hfirst₁, rfl, hd₁, hok₁⟩ :=
    lanceMergeInsert_rows (hlaws faults₁) rfl hn hkeys₁ h₁
  have hkeysAll : ∀ settings, ((sourceRows { env with settings := settings } source none).map
      (keyOf onColumns)).Nodup := fun _ => hkeys
  obtain ⟨_, d, -, rfl, hd, hok₂⟩ :=
    lanceMergeInsert_rows (hlaws faults₂) rfl hn (hkeysAll settings₂) h₂
  obtain ⟨_, d', -, rfl, hd', hok₃⟩ :=
    lanceMergeInsert_rows (hlaws faults₃) rfl hn (hkeysAll settings₃) h₃
  obtain ⟨rfl, -⟩ := hok₂ row₂ rfl
  obtain ⟨rfl, -⟩ := hok₃ row₃ rfl
  have hd₁' : d₁.rows.Perm (mergeRows keysMatch onColumns .updateAll n ds.rows
      (writtenRows env source.columns none rows₁)) := by
    rw [← hcolumns]
    exact hd₁
  have hafter : d.rows.Perm (mergeRows keysMatch onColumns .updateAll n ds.rows
      (sourceRows env source none)) := by
    rw [← mergeRows_prefix hl (hwritten rows₁ (hfirst₁.trans hrows)) hkeys hnulls]
    exact hd.trans (Upsert.merge_perm hd₁' _ _ _)
  refine ⟨⟨d, d', rfl, rfl, hafter.trans hd'.symm⟩, ?_⟩
  intro hreturned hall
  obtain ⟨row₁, hrow₁⟩ := hreturned
  obtain ⟨rfl, -⟩ := hok₁ row₁ hrow₁
  rw [hall] at hd₁'
  exact ⟨d, d₁, rfl, rfl, hafter.trans hd₁'.symm⟩

theorem lanceMergeInsert_converges_sample :
    ∃ d d', (lanceMergeInsert { Env.sample ⟨0, 0, true⟩ with settings := ⟨0, 2, true⟩ } Host.sample
        { Lance.sample fun _ => none with commitFault := fun _ => none } "/d"
        (.sample [1, 2, 3] none (by decide)) ["id"] "update" "insert" 2 none
        (some (.sample [3, 4, 1]))).2 = some d ∧
      (lanceMergeInsert { Env.sample ⟨0, 0, true⟩ with settings := ⟨0, 0, true⟩ } Host.sample
        { Lance.sample fun _ => none with commitFault := fun _ => none } "/d"
        (.sample [1, 2, 3] none (by decide)) ["id"] "update" "insert" 2 none
        (some (.sample [3, 4]))).2 = some d' ∧ d.rows.Perm d'.rows :=
  (lanceMergeInsert_converges (Env.sample ⟨0, 0, true⟩) Host.sample
    (Lance.sample fun _ => none) "/d"
    (.sample [1, 2, 3] none (by decide)) (.sample [1, 2] (some (.raised "interrupted")) (by decide))
    ["id"] "insert" none sampleKeysMatch .insertAll (.sample [3, 4]) ⟨0, 1, true⟩ ⟨0, 2, true⟩
    ⟨0, 0, true⟩ 2 2 2 (fun n => if n = 1 then some "fault" else none) (fun _ => none)
    (fun _ => none)
    (.error (.raised ("lance_merge_insert failed: SPI connect failed: " ++
      "lance merge_insert failed: fault"))) ⟨3, none, none, 0, 2, 2⟩ ⟨3, none, none, 0, 1, 0⟩
    (some (.sample [3, 4, 1])) _ _ (Lance.sample_lawfulMerge _) rfl (by decide)
    (by decide +kernel) rfl ⟨[[⟨int4Oid, some 3⟩]], rfl⟩ (by decide +kernel)
    (Prod.ext (by decide +kernel) rfl) (Prod.ext (by decide +kernel) rfl)).1

end PgLance
