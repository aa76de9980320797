import PgLance.Write.AppendRuns
import PgLance.Write.MergeInsert

/-! What a run of `lance_merge_insert` has done after each chunk. -/

namespace PgLance

open Chunks Run

variable {Raw : Type}

theorem mergeBuilder_ok {lance : Lance} {current : Dataset} {onColumns : List String}
    {mergeUseIndex : Bool} {whenMatched whenNotMatched : String} {builder : MergeInsertBuilder}
    (h : mergeBuilder lance current onColumns mergeUseIndex whenMatched whenNotMatched =
      .ok builder) :
    builder.dataset = current ∧ builder.on = onColumns ∧
      parseWhenMatched whenMatched = .ok builder.whenMatched ∧
      parseWhenNotMatched whenNotMatched = .ok builder.whenNotMatched := by
  unfold mergeBuilder at h
  cases hnew : lance.mergeTryNew current onColumns with
  | error e => simp [hnew, Except.mapError, Bind.bind, Except.bind] at h
  | ok _ =>
    cases hmatched : parseWhenMatched whenMatched with
    | error e => simp [hnew, hmatched, Except.mapError, Bind.bind, Except.bind] at h
    | ok matched =>
      cases hnot : parseWhenNotMatched whenNotMatched with
      | error e => simp [hnew, hmatched, hnot, Except.mapError, Bind.bind, Except.bind] at h
      | ok notMatched =>
        simp only [hnew, hmatched, hnot, Except.mapError, Bind.bind, Except.bind] at h
        split at h
        · cases h
        · cases h
          cases mergeUseIndex <;> exact ⟨rfl, rfl, rfl, rfl⟩

theorem checkOnColumns_ok {place : String} {names onColumns : List String}
    (h : checkOnColumns place names onColumns = .ok ()) : ∀ col ∈ onColumns, col ∈ names := by
  induction onColumns with
  | nil => simp
  | cons col cols ih =>
    simp only [checkOnColumns] at h
    split at h
    · next hcol =>
      intro c hc
      cases List.mem_cons.mp hc with
      | inl hc => rw [hc]; exact List.contains_iff_mem.mp hcol
      | inr hc => exact ih h c hc
    · cases h

theorem openMergeTarget_ok {host : Host} {lance : Lance} (hl : lance.LawfulLoad) {uri : String}
    {onColumns : List String} {serverName : Option String} {schema : Schema}
    {store : Option Dataset} {ds : Dataset}
    (h : openMergeTarget host lance uri onColumns serverName schema store = .ok ds) :
    store = some ds ∧ ∀ col ∈ onColumns, col ∈ schema.map FieldOf.name ∧ col ∈ ds.fieldNames := by
  simp only [openMergeTarget, Bind.bind, Except.bind] at h
  split at h
  · cases h
  · next d hopen =>
    split at h
    · cases h
    · next hsource =>
      split at h
      · cases h
      · next htarget =>
        cases h
        refine ⟨openDataset_ok hl hopen, ?_⟩
        intro col hcol
        exact ⟨checkOnColumns_ok hsource col hcol, checkOnColumns_ok htarget col hcol⟩

section

variable {host : Host} {lance : Lance} {uri : String} {onColumns : List String}
  {whenMatched whenNotMatched : String} {serverName : Option String} {mergeUseIndex : Bool}
  {schema : Schema} {batches : List RecordBatch} {st st' : MergeState}

theorem mergeExecuteNth_ok {n : Nat} {builder : MergeInsertBuilder} {store store' : Option Dataset}
    {ds : Dataset} (h : lance.mergeExecuteNth n builder store schema batches = (.ok ds, store')) :
    lance.mergeExecute builder schema batches = .ok ds ∧ store' = some ds := by
  unfold Lance.mergeExecuteNth at h
  split at h
  · cases h
  · split at h
    · cases h
    · next hexecute => cases h; exact ⟨hexecute, rfl⟩

theorem mergeExecuteNth_error {n : Nat} {builder : MergeInsertBuilder}
    {store store' : Option Dataset} {e : String}
    (h : lance.mergeExecuteNth n builder store schema batches = (.error e, store')) :
    store' = store := by
  unfold Lance.mergeExecuteNth at h
  split at h
  · cases h; rfl
  · split at h
    · cases h; rfl
    · cases h

theorem mergeInto_ok {current : Dataset}
    (h : mergeInto lance onColumns whenMatched whenNotMatched mergeUseIndex current schema
      batches st = (.ok (), st')) :
    ∃ builder ds,
      mergeBuilder lance current onColumns mergeUseIndex whenMatched whenNotMatched = .ok builder ∧
      lance.mergeExecute builder schema batches = .ok ds ∧
      st' = ⟨some ds, some ds, st.chunkTxns + 1, st.merges + 1⟩ := by
  unfold mergeInto at h
  split at h
  · cases h
  · next builder hbuilder =>
    split at h
    · cases h
    · next ds store hexecute =>
      obtain ⟨hds, rfl⟩ := mergeExecuteNth_ok hexecute
      cases h
      exact ⟨builder, ds, hbuilder, hds, rfl⟩

theorem mergeInto_error {current : Dataset} {e : Failure}
    (h : mergeInto lance onColumns whenMatched whenNotMatched mergeUseIndex current schema
      batches st = (.error e, st')) :
    st'.store = st.store ∧ ∀ message, e ≠ .panicked message := by
  unfold mergeInto at h
  split at h
  · cases h; exact ⟨rfl, by simp⟩
  · split at h
    · next hexecute =>
      cases h
      exact ⟨mergeExecuteNth_error hexecute, by simp⟩
    · cases h

theorem mergeChunk_ok (hb : batches ≠ [])
    (h : mergeChunk host lance uri onColumns whenMatched whenNotMatched serverName mergeUseIndex
      schema batches st = (.ok (), st')) :
    ∃ current builder ds,
      (st.dataset = some current ∨ st.dataset = none ∧
        openMergeTarget host lance uri onColumns serverName schema st.store = .ok current) ∧
      mergeBuilder lance current onColumns mergeUseIndex whenMatched whenNotMatched = .ok builder ∧
      lance.mergeExecute builder schema batches = .ok ds ∧
      st' = ⟨some ds, some ds, st.chunkTxns + 1, st.merges + 1⟩ := by
  have hempty : batches.isEmpty = false := by simpa using hb
  simp only [mergeChunk, hempty, Bool.false_eq_true, if_false] at h
  cases hdataset : st.dataset with
  | some current =>
    simp only [hdataset] at h
    obtain ⟨builder, ds, hbuilder, hds, hst⟩ := mergeInto_ok h
    exact ⟨current, builder, ds, .inl rfl, hbuilder, hds, hst⟩
  | none =>
    cases hopen : openMergeTarget host lance uri onColumns serverName schema st.store with
    | error e => simp [hdataset, hopen, Except.map] at h
    | ok current =>
      simp only [hdataset, hopen, Except.map] at h
      obtain ⟨builder, ds, hbuilder, hds, hst⟩ := mergeInto_ok h
      exact ⟨current, builder, ds, .inr ⟨rfl, rfl⟩, hbuilder, hds, hst⟩

theorem mergeChunk_error {e : Failure}
    (h : mergeChunk host lance uri onColumns whenMatched whenNotMatched serverName mergeUseIndex
      schema batches st = (.error e, st')) :
    st'.store = st.store ∧ ∀ message, e ≠ .panicked message := by
  unfold mergeChunk at h
  split at h
  · cases h
  · cases hdataset : st.dataset with
    | some current =>
      simp only [hdataset] at h
      have hinto := mergeInto_error h
      exact hinto
    | none =>
      cases hopen : openMergeTarget host lance uri onColumns serverName schema st.store with
      | error e =>
        simp only [hdataset, hopen, Except.map, Prod.mk.injEq, Except.error.injEq] at h
        rw [← h.1, ← h.2]
        exact ⟨rfl, by simp⟩
      | ok current =>
        simp only [hdataset, hopen, Except.map] at h
        have hinto := mergeInto_error h
        exact hinto

end

section

variable (env : Env Raw) (host : Host) (lance : Lance) (uri : String) (onColumns : List String)
  (whenMatched whenNotMatched : String) (serverName : Option String) (cols : List SpiColumnInfo)
  (batchSize : Nat)

inductive MergesTo : List (List (SpiRow Raw)) → Dataset → Dataset → Prop
  | nil (ds : Dataset) : MergesTo [] ds ds
  | snoc {pieces ds ds' ds'' piece batches builder} : MergesTo pieces ds ds' →
    CutInto env cols batchSize piece batches →
    mergeBuilder lance ds' onColumns env.settings.mergeUseIndex whenMatched whenNotMatched =
      .ok builder →
    lance.mergeExecute builder (buildArrowSchema cols) batches = .ok ds'' →
    MergesTo (pieces ++ [piece]) ds ds''

inductive Merged (before : Option Dataset) : List (List (SpiRow Raw)) → MergeState → Prop
  | none : Merged before [] ⟨none, before, 0, 0⟩
  | some {pieces ds ds'} : pieces ≠ [] →
    openMergeTarget host lance uri onColumns serverName (buildArrowSchema cols) before = .ok ds →
    MergesTo env lance onColumns whenMatched whenNotMatched cols batchSize pieces ds ds' →
    Merged before pieces ⟨some ds', some ds', pieces.length, pieces.length⟩

end

section

variable {env : Env Raw} {host : Host} {lance : Lance} {uri : String} {onColumns : List String}
  {whenMatched whenNotMatched : String} {serverName : Option String} {cols : List SpiColumnInfo}
  {batchSize : Nat} {before : Option Dataset} {columns : List SpiColumn}
  {typeOverrides : Option ArrowTypeOverrides}

theorem merged_snoc {pieces : List (List (SpiRow Raw))} {piece : List (SpiRow Raw)}
    {batches : List RecordBatch} {st st' : MergeState}
    (hst : Merged env host lance uri onColumns whenMatched whenNotMatched serverName cols batchSize
      before pieces st)
    (hne : piece ≠ []) (hcut : CutInto env cols batchSize piece batches)
    (h : mergeChunk host lance uri onColumns whenMatched whenNotMatched serverName
      env.settings.mergeUseIndex (buildArrowSchema cols) batches st = (.ok (), st')) :
    Merged env host lance uri onColumns whenMatched whenNotMatched serverName cols batchSize before
      (pieces ++ [piece]) st' := by
  obtain ⟨current, builder, ds, hcurrent, hbuilder, hexecute, rfl⟩ :=
    mergeChunk_ok (hcut.ne_nil hne) h
  cases hst with
  | none =>
    cases hcurrent with
    | inl hcurrent => cases hcurrent
    | inr hopen =>
      apply Merged.some (by simp) hopen.2
      exact MergesTo.snoc (MergesTo.nil current) hcut hbuilder hexecute
  | some hpieces hopen hmerges =>
    cases hcurrent with
    | inr hcurrent => cases hcurrent.1
    | inl hcurrent =>
      cases hcurrent
      have hlen : (pieces ++ [piece]).length = pieces.length + 1 := by simp
      rw [← hlen]
      exact Merged.some (by simp) hopen (MergesTo.snoc hmerges hcut hbuilder hexecute)

theorem merged_run (hcols : deriveColumns env columns typeOverrides = .ok cols)
    {fetches : List (Fetch Raw)} (hne : ∀ tuptable, .rows tuptable ∈ fetches → tuptable ≠ [])
    {st : ChunkLoopState MergeState}
    (h : runAll (processFetch env columns batchSize typeOverrides
      (mergeChunk host lance uri onColumns whenMatched whenNotMatched serverName
        env.settings.mergeUseIndex)) fetches ⟨0, none, none, before, 0, 0⟩ = (.ok (), st)) :
    ∃ pieces, fetches = pieces.map .rows ∧ st.Knows cols ∧ st.totalRows = pieces.flatten.length ∧
      Merged env host lance uri onColumns whenMatched whenNotMatched serverName cols batchSize
        before pieces st.handler := by
  apply runAll_invariant _ _ h
  · exact ⟨[], rfl, .inl rfl, rfl, Merged.none⟩
  · intro done fetch st st' hfetch hdone hstep
    obtain ⟨pieces, rfl, hknows, htotal, hmerged⟩ := hdone
    obtain ⟨piece, batches, rfl, hcut, hchunk, htotal', hknows'⟩ :=
      processFetch_ok hcols hknows hstep
    refine ⟨pieces ++ [piece], by simp, hknows', by simp [htotal', htotal], ?_⟩
    exact merged_snoc hmerged (hne piece hfetch) hcut hchunk

end

end PgLance
