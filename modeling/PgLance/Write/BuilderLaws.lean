import PgLance.Write.Chunking

/-! The builders of a chunk take in one cell for each row and column, so every batch that is cut
from them fits the schema. -/

namespace PgLance

open Fallible

variable {Raw : Type}

namespace TypedBuilder

def appendValue (b : TypedBuilder) (v : Scalar) : TypedBuilder := b.append (some v)

def appendNull (b : TypedBuilder) : TypedBuilder := b.append none

def appendRead {α : Type} (b : TypedBuilder) (read : Except String (Option α))
    (wrap : α → Scalar) : TypedBuilder :=
  match read with
  | .ok (some v) => b.appendValue (wrap v)
  | .ok none => b.appendNull
  | .error _ => b.appendNull

end TypedBuilder

/-- `append_datum` arm by arm, as it is written. -/
def appendDatumByArm (pgrx : Pgrx Raw) (b : TypedBuilder) (heapTuple : SpiRow Raw)
    (colIndex : Nat) (pgOid : Oid) : Except String TypedBuilder :=
  match b.variant with
  | .boolean =>
    match getDatumByOrdinal heapTuple (colIndex + 1) with
    | .ok val => .ok (b.appendRead (pgrx.value .bool val) .bool)
    | .error _ => .ok b.appendNull
  | .int16 =>
    match getDatumByOrdinal heapTuple (colIndex + 1) with
    | .ok val => .ok (b.appendRead (pgrx.value .i16 val) .int)
    | .error _ => .ok b.appendNull
  | .int32 =>
    match getDatumByOrdinal heapTuple (colIndex + 1) with
    | .ok val => .ok (b.appendRead (pgrx.value .i32 val) .int)
    | .error _ => .ok b.appendNull
  | .int64 =>
    match getDatumByOrdinal heapTuple (colIndex + 1) with
    | .ok val => .ok (b.appendRead (pgrx.value .i64 val) .int)
    | .error _ => .ok b.appendNull
  | .float32 =>
    match getDatumByOrdinal heapTuple (colIndex + 1) with
    | .ok val => .ok (b.appendRead (pgrx.value .f32 val) .float)
    | .error _ => .ok b.appendNull
  | .float64 =>
    match getDatumByOrdinal heapTuple (colIndex + 1) with
    | .ok val => .ok (b.appendRead (pgrx.value .f64 val) .float)
    | .error _ => .ok b.appendNull
  | .utf8 =>
    match pgOid with
    | numericOid =>
      match getDatumByOrdinal heapTuple (colIndex + 1) with
      | .ok val => .ok (b.appendRead (pgrx.value .anyNumeric val) .utf8)
      | .error _ => .ok b.appendNull
    | jsonbOid =>
      match getDatumByOrdinal heapTuple (colIndex + 1) with
      | .ok val => .ok (b.appendRead (pgrx.value .jsonB val) fun v => .utf8 (jsonText pgrx v))
      | .error _ => .ok b.appendNull
    | jsonOid =>
      match getDatumByOrdinal heapTuple (colIndex + 1) with
      | .ok val => .ok (b.appendRead (pgrx.value .json val) fun v => .utf8 (jsonText pgrx v))
      | .error _ => .ok b.appendNull
    | uuidOid =>
      match getDatumByOrdinal heapTuple (colIndex + 1) with
      | .ok val => .ok (b.appendRead (pgrx.value .uuid val) .utf8)
      | .error _ => .ok b.appendNull
    | _ =>
      match getDatumByOrdinal heapTuple (colIndex + 1) with
      | .ok val => .ok (b.appendRead (pgrx.value .string val) .utf8)
      | .error _ => .ok b.appendNull
  | .binary =>
    match getDatumByOrdinal heapTuple (colIndex + 1) with
    | .ok val => .ok (b.appendRead (pgrx.value .vecU8 val) .binary)
    | .error _ => .ok b.appendNull
  | .date32 =>
    match getDatumByOrdinal heapTuple (colIndex + 1) with
    | .ok val =>
      match pgOid with
      | int4Oid => .ok (b.appendRead (pgrx.value .i32 val) .int)
      | _ => .ok (b.appendRead (pgrx.value .date val) fun date => .int (pgrx.toUnixEpochDays date))
    | .error _ => .ok b.appendNull
  | .timestampMicro =>
    match getDatumByOrdinal heapTuple (colIndex + 1) with
    | .ok val =>
      match pgOid with
      | int8Oid => .ok (b.appendRead (pgrx.value .i64 val) .int)
      | _ => .ok (b.appendRead (pgrx.value .timestamp val) fun ts => .int (pgMicrosToUnix ts))
    | .error _ => .ok b.appendNull
  | .timestampMicroUtc =>
    match getDatumByOrdinal heapTuple (colIndex + 1) with
    | .ok val =>
      match pgOid with
      | int8Oid => .ok (b.appendRead (pgrx.value .i64 val) .int)
      | _ => .ok (b.appendRead (pgrx.value .timestampWithTimeZone val) fun ts => .int (pgMicrosToUnix ts))
    | .error _ => .ok b.appendNull

theorem appendRead_eq (pgrx : Pgrx Raw) (b : TypedBuilder) (type : RustType)
    (wrap : type.Val → Scalar) {heapTuple : SpiRow Raw} {colIndex : Nat} {val : SpiEntry Raw}
    (h : getDatumByOrdinal heapTuple (colIndex + 1) = .ok val) :
    b.appendRead (pgrx.value type val) wrap =
      b.append (readCell pgrx type wrap heapTuple colIndex) := by
  simp only [readCell, h, TypedBuilder.appendRead]
  cases pgrx.value type val with
  | error e => rfl
  | ok v => cases v <;> rfl

theorem arm_eq (pgrx : Pgrx Raw) (b : TypedBuilder) (type : RustType) (wrap : type.Val → Scalar)
    (heapTuple : SpiRow Raw) (colIndex : Nat) :
    (match getDatumByOrdinal heapTuple (colIndex + 1) with
    | .ok val => .ok (b.appendRead (pgrx.value type val) wrap)
    | .error _ => .ok b.appendNull) =
      Except.ok (ε := String) (b.append (readCell pgrx type wrap heapTuple colIndex)) := by
  cases hdatum : getDatumByOrdinal heapTuple (colIndex + 1) with
  | error e =>
    simp only [readCell, hdatum]
    rfl
  | ok val => exact congrArg Except.ok (appendRead_eq pgrx b type wrap hdatum)

/-- Every path of every arm appends the one cell that `datumCell` is. -/
theorem appendDatumByArm_eq (pgrx : Pgrx Raw) (b : TypedBuilder) (heapTuple : SpiRow Raw)
    (colIndex : Nat) (pgOid : Oid) :
    appendDatumByArm pgrx b heapTuple colIndex pgOid =
      appendDatum pgrx b heapTuple colIndex pgOid := by
  have harm : ∀ (type : RustType) (wrap : type.Val → Scalar),
      (match getDatumByOrdinal heapTuple (colIndex + 1) with
      | .ok val => .ok (b.appendRead (pgrx.value type val) wrap)
      | .error _ => .ok b.appendNull) =
        Except.ok (ε := String) (b.append (readCell pgrx type wrap heapTuple colIndex)) :=
    fun type wrap => arm_eq pgrx b type wrap heapTuple colIndex
  unfold appendDatumByArm appendDatum datumCell
  cases b.variant with
  | boolean => exact harm .bool .bool
  | int16 => exact harm .i16 .int
  | int32 => exact harm .i32 .int
  | int64 => exact harm .i64 .int
  | float32 => exact harm .f32 .float
  | float64 => exact harm .f64 .float
  | utf8 =>
    by_cases hnumeric : pgOid = numericOid
    · subst hnumeric
      exact harm .anyNumeric .utf8
    by_cases hjsonb : pgOid = jsonbOid
    · subst hjsonb
      exact harm .jsonB _
    by_cases hjson : pgOid = jsonOid
    · subst hjson
      exact harm .json _
    by_cases huuid : pgOid = uuidOid
    · subst huuid
      exact harm .uuid .utf8
    simp only
    exact harm .string .utf8
  | binary => exact harm .vecU8 .binary
  | date32 =>
    by_cases hint4 : pgOid = int4Oid
    · subst hint4
      exact harm .i32 .int
    simp only
    exact harm .date _
  | timestampMicro =>
    by_cases hint8 : pgOid = int8Oid
    · subst hint8
      exact harm .i64 .int
    simp only
    exact harm .timestamp _
  | timestampMicroUtc =>
    by_cases hint8 : pgOid = int8Oid
    · subst hint8
      exact harm .i64 .int
    simp only
    exact harm .timestampWithTimeZone _

/-! Rows and flushes in any order. -/

inductive BatchEvent (Raw : Type)
  | row (row : SpiRow Raw)
  | flush

/-- The arrays of each flush, where the builders are made anew after it. -/
def runEvents (pgrx : Pgrx Raw) (cols : List SpiColumnInfo) (capacity : Nat) :
    List (BatchEvent Raw) → List TypedBuilder → Except String (List (List ArrowArray))
  | [], _ => .ok []
  | .row row :: events, builders => do
    let builders ← appendRow pgrx row 0 cols builders
    runEvents pgrx cols capacity events builders
  | .flush :: events, builders => do
    let arrays := builders.map TypedBuilder.finish
    let builders ← newBuilders cols capacity
    return arrays :: (← runEvents pgrx cols capacity events builders)

/-- The rows and flushes of `convert_spi_rows`, after `rowsInBatch` rows since the last flush. -/
def batchEvents (batchSize : Nat) (rowsInBatch : Nat) : List (SpiRow Raw) → List (BatchEvent Raw)
  | [] => if rowsInBatch > 0 then [.flush] else []
  | row :: rows =>
    if rowsInBatch + 1 ≥ batchSize then .row row :: .flush :: batchEvents batchSize 0 rows
    else .row row :: batchEvents batchSize (rowsInBatch + 1) rows

def flushLengths (n : Nat) : List (BatchEvent Raw) → List Nat
  | [] => []
  | .row _ :: events => flushLengths (n + 1) events
  | .flush :: events => n :: flushLengths 0 events

structure WellFormedArrays (schema : Schema) (n : Nat) (arrays : List ArrowArray) : Prop where
  lengths : ∀ array ∈ arrays, array.len = n
  types : arrays.map ArrowArray.dataType = schema.map FieldOf.dataType
  batch : ∃ batch, RecordBatch.tryNew schema arrays = .ok batch ∧ batch.numRows = n

theorem wellFormedArrays_filledBuilders (env : Env Raw) {cols : List SpiColumnInfo}
    (hcols : cols ≠ []) (capacity : Nat) (rows : List (SpiRow Raw)) :
    WellFormedArrays (buildArrowSchema cols) rows.length
      ((filledBuilders env.pgrx cols 0 capacity rows).map TypedBuilder.finish) := by
  have hlengths := len_filledBuilders env cols capacity rows
  have htypes := map_dataType_filledBuilders env cols capacity rows
  refine ⟨hlengths, htypes, ?_⟩
  cases harrays : (filledBuilders env.pgrx cols 0 capacity rows).map TypedBuilder.finish with
  | nil =>
    rw [harrays, List.map_nil, eq_comm, List.map_eq_nil_iff, buildArrowSchema,
      List.map_eq_nil_iff] at htypes
    exact absurd htypes hcols
  | cons first rest =>
    rw [harrays] at hlengths htypes
    have hfirst : first.len = rows.length := hlengths first List.mem_cons_self
    rw [← hfirst] at hlengths
    refine ⟨⟨buildArrowSchema cols, first :: rest, first.len, htypes, hlengths⟩, ?_, hfirst⟩
    simp only [RecordBatch.tryNew, dif_pos hlengths, dif_pos htypes]

theorem runEvents_filledBuilders (env : Env Raw) {cols : List SpiColumnInfo} (hcols : cols ≠ [])
    (capacity : Nat) (events : List (BatchEvent Raw)) (rows : List (SpiRow Raw)) :
    ∃ flushed, runEvents env.pgrx cols capacity events
        (filledBuilders env.pgrx cols 0 capacity rows) = .ok flushed ∧
      List.Forall₂ (WellFormedArrays (buildArrowSchema cols)) (flushLengths rows.length events)
        flushed := by
  induction events generalizing rows with
  | nil => exact ⟨[], rfl, .nil⟩
  | cons event events ih =>
    cases event with
    | row row =>
      obtain ⟨flushed, hrun, hflushed⟩ := ih (rows ++ [row])
      rw [List.length_append, List.length_singleton] at hflushed
      refine ⟨flushed, ?_, hflushed⟩
      rw [runEvents, appendRow_filledBuilders]
      exact hrun
    | flush =>
      obtain ⟨flushed, hrun, hflushed⟩ := ih []
      refine ⟨_, ?_, .cons (wellFormedArrays_filledBuilders env hcols capacity rows) hflushed⟩
      rw [runEvents, newBuilders_eq env.pgrx cols 0]
      simp only [Bind.bind, Except.bind, hrun]
      rfl

theorem finishBatch_columns {env : Env Raw} {schema : Schema} {builders : List TypedBuilder}
    {batch : RecordBatch} {bytes : Nat} (h : finishBatch env schema builders = .ok (batch, bytes)) :
    batch.columns = builders.map TypedBuilder.finish := by
  rw [finishBatch] at h
  split at h
  · cases h
  · next hbatch =>
    cases h
    exact RecordBatch.tryNew_columns hbatch

theorem runEvents_batchEvents {env : Env Raw} {cols : List SpiColumnInfo} {schema : Schema}
    {batchSize : Nat} {rows : List (SpiRow Raw)} {st st' : ConvertState}
    {batches : List RecordBatch} {totalRows : Nat}
    (hloop : convertLoop env cols schema batchSize rows st = .ok st')
    (htail : convertTail env schema st' = .ok (batches, totalRows)) :
    ∃ flushed, runEvents env.pgrx cols batchSize (batchEvents batchSize st.rowsInBatch rows)
        st.builders = .ok flushed ∧
      batches.map RecordBatch.columns = st.batches.map RecordBatch.columns ++ flushed := by
  induction rows generalizing st with
  | nil =>
    cases hloop
    rw [convertTail] at htail
    rw [batchEvents]
    split at htail <;> rename_i hrows
    · obtain ⟨⟨batch, bytes⟩, hfinish, htail⟩ := bind_ok_iff.mp htail
      simp only at htail
      split at htail
      · cases htail
      · cases htail
        refine ⟨[st'.builders.map TypedBuilder.finish], ?_, ?_⟩
        · rw [if_pos hrows, runEvents, newBuilders_eq env.pgrx cols 0]
          rfl
        · rw [List.map_append, List.map_singleton, finishBatch_columns hfinish]
    · cases htail
      rw [if_neg hrows]
      exact ⟨[], rfl, (List.append_nil _).symm⟩
  | cons row rows ih =>
    rw [convertLoop] at hloop
    obtain ⟨builders, happend, hloop⟩ := bind_ok_iff.mp hloop
    rw [batchEvents]
    simp only at hloop
    split at hloop <;> rename_i hfull
    · obtain ⟨⟨batch, bytes⟩, hfinish, hloop⟩ := bind_ok_iff.mp hloop
      simp only at hloop
      split at hloop
      · cases hloop
      · obtain ⟨fresh, hfresh, hloop⟩ := bind_ok_iff.mp hloop
        obtain ⟨flushed, hrun, hcolumns⟩ := ih hloop
        refine ⟨builders.map TypedBuilder.finish :: flushed, ?_, ?_⟩
        · rw [if_pos hfull, runEvents, happend]
          simp only [Bind.bind, Except.bind, runEvents, hfresh, hrun]
          rfl
        · rw [hcolumns, List.map_append, List.map_singleton, finishBatch_columns hfinish,
            List.append_assoc, List.singleton_append]
    · obtain ⟨flushed, hrun, hcolumns⟩ := ih hloop
      refine ⟨flushed, ?_, hcolumns⟩
      rw [if_neg hfull, runEvents, happend]
      exact hrun

theorem convertSpiRows_runEvents {env : Env Raw} {cols : List SpiColumnInfo} {schema : Schema}
    {batchSize : Nat} {tuptable : List (SpiRow Raw)} {batches : List RecordBatch} {totalRows : Nat}
    (h : convertSpiRows env tuptable cols schema batchSize = .ok (batches, totalRows)) :
    ∃ builders, newBuilders cols (max (min batchSize tuptable.length) 1) = .ok builders ∧
      runEvents env.pgrx cols batchSize (batchEvents batchSize 0 tuptable) builders =
        .ok (batches.map RecordBatch.columns) := by
  obtain ⟨builders, hbuilders, h⟩ := bind_ok_iff.mp h
  obtain ⟨st, hloop, htail⟩ := bind_ok_iff.mp h
  obtain ⟨flushed, hrun, hcolumns⟩ := runEvents_batchEvents hloop htail
  rw [List.map_nil, List.nil_append] at hcolumns
  exact ⟨builders, hbuilders, hcolumns ▸ hrun⟩

/-- Builders are made for every derived column, take in one cell on every path, and finish to
arrays that fit the schema, whatever the rows and flushes, such as those of a conversion; so only
the buffer guard stops one. -/
theorem batches_wellFormed (env : Env Raw) {columns : List SpiColumn}
    {typeOverrides : Option ArrowTypeOverrides} {cols : List SpiColumnInfo}
    (h : deriveColumns env columns typeOverrides = .ok cols) :
    (∀ col ∈ cols, ∀ capacity, ∃ builder,
      TypedBuilder.new col.arrowType.dataType capacity = .ok builder ∧ builder.cells = []) ∧
    (∀ builder heapTuple colIndex pgOid,
      appendDatumByArm env.pgrx builder heapTuple colIndex pgOid =
        appendDatum env.pgrx builder heapTuple colIndex pgOid ∧
      ∃ cell, appendDatum env.pgrx builder heapTuple colIndex pgOid =
        .ok (builder.append cell)) ∧
    (∀ capacity events, ∃ builders flushed, newBuilders cols capacity = .ok builders ∧
      runEvents env.pgrx cols capacity events builders = .ok flushed ∧
      List.Forall₂ (WellFormedArrays (buildArrowSchema cols)) (flushLengths 0 events) flushed) ∧
    (∀ tuptable batchSize batches totalRows,
      convertSpiRows env tuptable cols (buildArrowSchema cols) batchSize =
        .ok (batches, totalRows) →
      ∃ builders, newBuilders cols (max (min batchSize tuptable.length) 1) = .ok builders ∧
        runEvents env.pgrx cols batchSize (batchEvents batchSize 0 tuptable) builders =
          .ok (batches.map RecordBatch.columns)) ∧
    ∀ tuptable batchSize e, convertSpiRows env tuptable cols (buildArrowSchema cols) batchSize =
      .error e → ∃ n, e = bufferGuardMessage env.settings.maxWriteBufferBytes n := by
  have hcols := deriveColumns_ne_nil h
  refine ⟨fun col _ capacity => ⟨_, TypedBuilder.new_dataType col.arrowType capacity, rfl⟩,
    fun builder heapTuple colIndex pgOid =>
      ⟨appendDatumByArm_eq env.pgrx builder heapTuple colIndex pgOid, _, rfl⟩,
    fun capacity events => ?_, fun _ _ _ _ hok => convertSpiRows_runEvents hok,
    fun tuptable batchSize e herror => ?_⟩
  · obtain ⟨flushed, hrun, hflushed⟩ := runEvents_filledBuilders env hcols capacity events []
    exact ⟨_, flushed, newBuilders_eq env.pgrx cols 0 capacity, hrun, hflushed⟩
  · by_cases hguard : GuardTrips env cols batchSize tuptable
    · obtain ⟨n, hn⟩ := convertSpiRows_of_guardTrips env cols hcols hguard
      rw [hn] at herror
      exact ⟨n, (Except.error.inj herror).symm⟩
    · obtain ⟨batches, hok, -⟩ := convertSpiRows_of_not_guardTrips env cols hcols hguard
      rw [hok] at herror
      cases herror

theorem batches_wellFormed_id : ∃ cols builders flushed,
    deriveColumns (Env.sample ⟨0, 0, false⟩) [⟨"id", int4Oid⟩] none = .ok cols ∧
    newBuilders cols 4 = .ok builders ∧
    runEvents Pgrx.sample cols 4 [.row [⟨int4Oid, some 7⟩], .flush, .flush] builders =
      .ok flushed ∧
    List.Forall₂ (WellFormedArrays (buildArrowSchema cols))
      (flushLengths 0 [.row [⟨int4Oid, some 7⟩], .flush, .flush]) flushed := by
  obtain ⟨cols, hcols⟩ : ∃ cols,
      deriveColumns (Env.sample ⟨0, 0, false⟩) [⟨"id", int4Oid⟩] none = .ok cols := ⟨_, rfl⟩
  obtain ⟨builders, flushed, hbuilders⟩ := (batches_wellFormed _ hcols).2.2.1 4
    [.row [⟨int4Oid, some 7⟩], .flush, .flush]
  exact ⟨cols, builders, flushed, hcols, hbuilders⟩

end PgLance
