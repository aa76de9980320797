import PgLance.Library.Chunks
import PgLance.Write.PgToArrow

/-! What `convert_spi_rows` returns: one batch for each run of `batch_size` rows, or the
error of the buffer guard. -/

namespace PgLance

open Chunks

variable {Raw : Type}

def cellValue (cell : Option Scalar) : Value := cell.elim .null .scalar

def convertRow (pgrx : Pgrx Raw) (cols : List SpiColumnInfo) (row : SpiRow Raw) : Row :=
  cols.zipIdx.map fun (col, i) =>
    (col.name, cellValue (datumCell pgrx col.arrowType.variant row i col.pgOid))

/-- The builders of `cols`, counted from `k`, after `rows` were appended to them. -/
def filledBuilders (pgrx : Pgrx Raw) (cols : List SpiColumnInfo) (k capacity : Nat)
    (rows : List (SpiRow Raw)) : List TypedBuilder :=
  (cols.zipIdx k).map fun (col, i) =>
    ⟨col.arrowType.variant, capacity,
      rows.map fun row => datumCell pgrx col.arrowType.variant row i col.pgOid⟩

@[simp] theorem TypedBuilder.new_dataType (type : WritableType) (capacity : Nat) :
    TypedBuilder.new type.dataType capacity = .ok ⟨type.variant, capacity, []⟩ := by
  obtain ⟨dt, variant, rfl⟩ := type
  cases variant <;> rfl

@[simp] theorem TypedBuilder.dataType_finish (builder : TypedBuilder) :
    builder.finish.dataType = builder.variant.dataType := by
  cases builder with
  | mk variant capacity cells => cases variant <;> rfl

@[simp] theorem TypedBuilder.len_finish (builder : TypedBuilder) :
    builder.finish.len = builder.cells.length := by
  cases builder with
  | mk variant capacity cells => cases variant <;> rfl

@[simp] theorem TypedBuilder.valuesOf_finish (builder : TypedBuilder) :
    builder.finish.valuesOf = builder.cells.map cellValue := by
  cases builder with
  | mk variant capacity cells => cases variant <;> rfl

theorem newBuilders_eq (pgrx : Pgrx Raw) (cols : List SpiColumnInfo) (k capacity : Nat) :
    newBuilders cols capacity = .ok (filledBuilders pgrx cols k capacity []) := by
  induction cols generalizing k with
  | nil => rfl
  | cons col cols ih =>
    have htail : cols.mapM (fun c => TypedBuilder.new c.arrowType.dataType capacity) =
        .ok (filledBuilders pgrx cols (k + 1) capacity []) := ih (k + 1)
    rw [newBuilders, List.mapM_cons, TypedBuilder.new_dataType, htail]
    rfl

theorem appendRow_filledBuilders (pgrx : Pgrx Raw) (cols : List SpiColumnInfo)
    (k capacity : Nat) (rows : List (SpiRow Raw)) (row : SpiRow Raw) :
    appendRow pgrx row k cols (filledBuilders pgrx cols k capacity rows) =
      .ok (filledBuilders pgrx cols k capacity (rows ++ [row])) := by
  induction cols generalizing k with
  | nil => rfl
  | cons col cols ih =>
    have htail := ih (k + 1)
    simp only [filledBuilders] at htail
    simp only [filledBuilders, List.zipIdx_cons, List.map_cons, appendRow, appendDatum,
      TypedBuilder.append, htail]
    simp [Bind.bind, Except.bind, pure, Except.pure]

section

variable (env : Env Raw) (cols : List SpiColumnInfo)

def batchBytes (capacity : Nat) (rows : List (SpiRow Raw)) : Nat :=
  ((filledBuilders env.pgrx cols 0 capacity rows).map fun b =>
    env.getArrayMemorySize b.capacity b.finish).sum

theorem map_dataType_filledBuilders (capacity : Nat) (rows : List (SpiRow Raw)) :
    ((filledBuilders env.pgrx cols 0 capacity rows).map TypedBuilder.finish).map
      ArrowArray.dataType = (buildArrowSchema cols).map FieldOf.dataType := by
  have hcol : ∀ col : SpiColumnInfo, col.arrowType.variant.dataType = col.arrowType.dataType :=
    fun col => col.arrowType.dataType_eq
  simp only [filledBuilders, buildArrowSchema, List.map_map, Function.comp_def,
    TypedBuilder.dataType_finish, hcol]
  conv_rhs => rw [← List.zipIdx_map_fst 0 cols, List.map_map]
  rfl

theorem len_filledBuilders (capacity : Nat) (rows : List (SpiRow Raw)) :
    ∀ column ∈ (filledBuilders env.pgrx cols 0 capacity rows).map TypedBuilder.finish,
      column.len = rows.length := by
  intro column hcolumn
  simp only [filledBuilders, List.map_map, List.mem_map, Function.comp_apply] at hcolumn
  cases hcolumn with
  | intro col h =>
    rw [← h.2, TypedBuilder.len_finish, List.length_map]

theorem rows_filledBuilders (capacity : Nat) (rows : List (SpiRow Raw)) :
    (ArrowArray.transpose rows.length
      (((filledBuilders env.pgrx cols 0 capacity rows).map TypedBuilder.finish).map
        ArrowArray.valuesOf)).map
      (fun row => ((buildArrowSchema cols).map FieldOf.name).zip row) =
      rows.map (convertRow env.pgrx cols) := by
  apply List.ext_getElem
  · simp
  · intro i hi hi'
    have hlt : i < rows.length := by simpa using hi'
    simp only [ArrowArray.transpose, List.getElem_map, List.getElem_range, List.map_map,
      filledBuilders, buildArrowSchema, convertRow]
    apply List.ext_getElem
    · simp
    · intro j hj hj'
      simp [hlt]

theorem finishBatch_filledBuilders (hcols : cols ≠ []) (capacity : Nat)
    (rows : List (SpiRow Raw)) :
    ∃ batch, finishBatch env (buildArrowSchema cols) (filledBuilders env.pgrx cols 0 capacity rows)
        = .ok (batch, batchBytes env cols capacity rows) ∧
      batch.rows = rows.map (convertRow env.pgrx cols) ∧ batch.schema = buildArrowSchema cols := by
  have htypes := map_dataType_filledBuilders env cols capacity rows
  have hlens := len_filledBuilders env cols capacity rows
  have hrows := rows_filledBuilders env cols capacity rows
  unfold finishBatch batchBytes
  cases hcolumns : (filledBuilders env.pgrx cols 0 capacity rows).map TypedBuilder.finish with
  | nil =>
    cases cols with
    | nil => exact absurd rfl hcols
    | cons col cols => simp [filledBuilders] at hcolumns
  | cons first rest =>
    rw [hcolumns] at htypes hlens hrows
    have hfirst : first.len = rows.length := hlens first (by simp)
    rw [← hfirst] at hlens hrows
    refine ⟨⟨buildArrowSchema cols, first :: rest, first.len, htypes, hlens⟩, ?_, ?_, rfl⟩
    · simp only [RecordBatch.tryNew, dif_pos hlens, dif_pos htypes]
    · exact hrows

def flushAll (batchSize : Nat) :
    Nat → List (List (SpiRow Raw)) → List RecordBatch → Nat → Except String (List RecordBatch)
  | _, [], batches, _ => .ok batches
  | capacity, chunk :: rest, batches, bufferedBytes => do
    let (batch, bytes) ← finishBatch env (buildArrowSchema cols)
      (filledBuilders env.pgrx cols 0 capacity chunk)
    let bufferedBytes := bufferedBytes + bytes
    let maxBufferBytes := env.settings.maxWriteBufferBytes
    if maxBufferBytes > 0 ∧ bufferedBytes > maxBufferBytes then
      .error (bufferGuardMessage maxBufferBytes bufferedBytes)
    else flushAll batchSize batchSize rest (batches ++ [batch]) bufferedBytes

/-- The row loop with its tail flushes the rows seen since the last flush (`run`) and the
rows to come in chunks. -/
theorem convertLoop_bind_convertTail (hcols : cols ≠ []) (batchSize capacity : Nat)
    (run rows : List (SpiRow Raw)) (batches : List RecordBatch) (bufferedBytes totalRows : Nat) :
    (convertLoop env cols (buildArrowSchema cols) batchSize rows
        ⟨filledBuilders env.pgrx cols 0 capacity run, run.length, batches, bufferedBytes,
          totalRows⟩ >>= convertTail env (buildArrowSchema cols)) =
      (flushAll env cols batchSize capacity (chunksFrom batchSize run rows) batches
        bufferedBytes).map fun batches => (batches, totalRows + rows.length) := by
  induction rows generalizing run capacity batches bufferedBytes totalRows with
  | nil =>
    cases run with
    | nil => rfl
    | cons r run =>
      cases finishBatch_filledBuilders env cols hcols capacity (r :: run) with
      | intro batch h =>
        simp only [convertLoop, convertTail, chunksFrom, h.1, Bind.bind, Except.bind]
        simp only [List.length_cons, Nat.zero_lt_succ, if_true, List.isEmpty_cons,
          Bool.false_eq_true, if_false, flushAll, h.1, Bind.bind, Except.bind]
        split <;> rfl
  | cons row rows ih =>
    cases finishBatch_filledBuilders env cols hcols capacity (run ++ [row]) with
    | intro batch h =>
      simp only [convertLoop, appendRow_filledBuilders, chunksFrom, Bind.bind, Except.bind]
      by_cases hfull : batchSize ≤ run.length + 1
      · simp only [ge_iff_le, hfull, if_true, h.1, flushAll, Bind.bind, Except.bind]
        by_cases hguard : env.settings.maxWriteBufferBytes > 0 ∧
            bufferedBytes + batchBytes env cols capacity (run ++ [row]) >
              env.settings.maxWriteBufferBytes
        · simp only [if_pos hguard]
          rfl
        · simp only [if_neg hguard, newBuilders_eq env.pgrx cols 0]
          have hnext := ih batchSize [] (batches ++ [batch])
            (bufferedBytes + batchBytes env cols capacity (run ++ [row])) (totalRows + 1)
          simp only [List.length_nil, Bind.bind, Except.bind] at hnext
          rw [hnext, List.length_cons, Nat.add_assoc, Nat.add_comm 1]
      · simp only [ge_iff_le, hfull, if_false]
        have hnext := ih capacity (run ++ [row]) batches bufferedBytes (totalRows + 1)
        simp only [List.length_append, List.length_singleton, Bind.bind, Except.bind] at hnext
        rw [hnext, List.length_cons, Nat.add_assoc, Nat.add_comm 1]

def firstCapacity (batchSize : Nat) (rows : List (SpiRow Raw)) : Nat :=
  max (min batchSize rows.length) 1

theorem convertSpiRows_eq (hcols : cols ≠ []) (batchSize : Nat) (rows : List (SpiRow Raw)) :
    convertSpiRows env rows cols (buildArrowSchema cols) batchSize =
      (flushAll env cols batchSize (firstCapacity batchSize rows) (chunks batchSize rows) []
        0).map fun batches => (batches, rows.length) := by
  have h := convertLoop_bind_convertTail env cols hcols batchSize (firstCapacity batchSize rows)
    [] rows [] 0 0
  rw [Nat.zero_add] at h
  rw [chunks, ← h, convertSpiRows, newBuilders_eq env.pgrx cols 0]
  rfl

def batchSizes (batchSize : Nat) : Nat → List (List (SpiRow Raw)) → List Nat
  | _, [] => []
  | capacity, chunk :: rest =>
    batchBytes env cols capacity chunk :: batchSizes batchSize batchSize rest

def Exceeds (limit bufferedBytes : Nat) (sizes : List Nat) : Prop :=
  limit ≠ 0 ∧ ∃ k ≤ sizes.length, limit < bufferedBytes + (sizes.take k).sum

instance (limit bufferedBytes : Nat) (sizes : List Nat) :
    Decidable (Exceeds limit bufferedBytes sizes) :=
  inferInstanceAs (Decidable (limit ≠ 0 ∧
    ∃ k ≤ sizes.length, limit < bufferedBytes + (sizes.take k).sum))

theorem exceeds_cons {limit bufferedBytes size : Nat} {sizes : List Nat} :
    Exceeds limit bufferedBytes (size :: sizes) ↔
      (limit ≠ 0 ∧ limit < bufferedBytes) ∨ Exceeds limit (bufferedBytes + size) sizes := by
  constructor
  · intro h
    cases h with
    | intro hlimit h =>
      obtain ⟨k, hk, hsum⟩ := h
      cases k with
      | zero => exact .inl ⟨hlimit, by simpa using hsum⟩
      | succ k =>
        refine .inr ⟨hlimit, k, by simpa using hk, ?_⟩
        simpa [Nat.add_assoc] using hsum
  · intro h
    cases h with
    | inl h => exact ⟨h.1, 0, by simp, by simpa using h.2⟩
    | inr h =>
      obtain ⟨hlimit, k, hk, hsum⟩ := h
      refine ⟨hlimit, k + 1, by simpa using hk, ?_⟩
      simpa [Nat.add_assoc] using hsum

theorem exceeds_of_lt {limit bufferedBytes : Nat} {sizes : List Nat} (hlimit : limit ≠ 0)
    (h : limit < bufferedBytes) : Exceeds limit bufferedBytes sizes :=
  ⟨hlimit, 0, by simp, by simpa using h⟩

theorem flushAll_spec (hcols : cols ≠ []) (batchSize capacity : Nat)
    (pieces : List (List (SpiRow Raw))) (batches : List RecordBatch) (bufferedBytes : Nat)
    (hbuffered : ¬ (env.settings.maxWriteBufferBytes ≠ 0 ∧
      env.settings.maxWriteBufferBytes < bufferedBytes)) :
    (Exceeds env.settings.maxWriteBufferBytes bufferedBytes
        (batchSizes env cols batchSize capacity pieces) →
      ∃ n, flushAll env cols batchSize capacity pieces batches bufferedBytes =
        .error (bufferGuardMessage env.settings.maxWriteBufferBytes n)) ∧
    (¬ Exceeds env.settings.maxWriteBufferBytes bufferedBytes
        (batchSizes env cols batchSize capacity pieces) →
      ∃ new, flushAll env cols batchSize capacity pieces batches bufferedBytes =
          .ok (batches ++ new) ∧
        new.map RecordBatch.rows = pieces.map (List.map (convertRow env.pgrx cols)) ∧
        ∀ batch ∈ new, batch.schema = buildArrowSchema cols) := by
  induction pieces generalizing capacity batches bufferedBytes with
  | nil =>
    constructor
    · intro h
      obtain ⟨hlimit, k, hk, hsum⟩ := h
      exact absurd ⟨hlimit, by simpa [batchSizes] using hsum⟩ hbuffered
    · intro _
      exact ⟨[], by simp [flushAll], rfl, by simp⟩
  | cons piece pieces ih =>
    obtain ⟨batch, hfinish, hrows, hschema⟩ :=
      finishBatch_filledBuilders env cols hcols capacity piece
    simp only [batchSizes, exceeds_cons, flushAll, hfinish, Bind.bind, Except.bind]
    by_cases hguard : env.settings.maxWriteBufferBytes > 0 ∧
        bufferedBytes + batchBytes env cols capacity piece > env.settings.maxWriteBufferBytes
    · have hover : Exceeds env.settings.maxWriteBufferBytes
          (bufferedBytes + batchBytes env cols capacity piece)
          (batchSizes env cols batchSize batchSize pieces) :=
        exceeds_of_lt (by omega) hguard.2
      rw [if_pos hguard]
      exact ⟨fun _ => ⟨_, rfl⟩, fun h => absurd (.inr hover) h⟩
    · have hnext := ih batchSize (batches ++ [batch])
        (bufferedBytes + batchBytes env cols capacity piece) (by omega)
      rw [if_neg hguard]
      constructor
      · intro h
        exact hnext.1 (h.resolve_left hbuffered)
      · intro h
        obtain ⟨new, hnew, hnewRows, hnewSchema⟩ := hnext.2 fun hr => h (.inr hr)
        refine ⟨batch :: new, by simpa using hnew, by simp [hrows, hnewRows], ?_⟩
        intro b hb
        cases List.mem_cons.mp hb with
        | inl hb => rw [hb, hschema]
        | inr hb => exact hnewSchema b hb

def GuardTrips (batchSize : Nat) (rows : List (SpiRow Raw)) : Prop :=
  Exceeds env.settings.maxWriteBufferBytes 0
    (batchSizes env cols batchSize (firstCapacity batchSize rows) (chunks batchSize rows))

instance (batchSize : Nat) (rows : List (SpiRow Raw)) :
    Decidable (GuardTrips env cols batchSize rows) :=
  inferInstanceAs (Decidable (Exceeds _ _ _))

theorem convertSpiRows_of_guardTrips (hcols : cols ≠ []) {batchSize : Nat}
    {rows : List (SpiRow Raw)} (h : GuardTrips env cols batchSize rows) :
    ∃ n, convertSpiRows env rows cols (buildArrowSchema cols) batchSize =
      .error (bufferGuardMessage env.settings.maxWriteBufferBytes n) := by
  obtain ⟨n, hn⟩ := (flushAll_spec env cols hcols batchSize (firstCapacity batchSize rows)
    (chunks batchSize rows) [] 0 (by omega)).1 h
  exact ⟨n, by rw [convertSpiRows_eq env cols hcols, hn]; rfl⟩

theorem convertSpiRows_of_not_guardTrips (hcols : cols ≠ []) {batchSize : Nat}
    {rows : List (SpiRow Raw)} (h : ¬ GuardTrips env cols batchSize rows) :
    ∃ batches, convertSpiRows env rows cols (buildArrowSchema cols) batchSize =
        .ok (batches, rows.length) ∧
      batches.map RecordBatch.rows =
        (chunks batchSize rows).map (List.map (convertRow env.pgrx cols)) ∧
      ∀ batch ∈ batches, batch.schema = buildArrowSchema cols := by
  obtain ⟨new, hnew, hrows⟩ := (flushAll_spec env cols hcols batchSize
    (firstCapacity batchSize rows) (chunks batchSize rows) [] 0 (by omega)).2 h
  exact ⟨new, by rw [convertSpiRows_eq env cols hcols, hnew]; rfl, hrows⟩

end

end PgLance
