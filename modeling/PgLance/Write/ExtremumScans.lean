import PgLance.Fdw.ScanRuns
import PgLance.Fdw.WrittenCells
import PgLance.Write.AggregateLaws

/-! The extremum of a column and the one that a query on the foreign table finds. -/

namespace PgLance

open Reader

def Datum.int? : Datum → Option Int
  | .int2 i | .int4 i | .int8 i => some i
  | _ => none

def columnInts (tuples : List Tuple) (i : Nat) : List Int :=
  tuples.filterMap fun tuple => tuple[i]?.join.bind Datum.int?

structure HoldsInts (columnName : String) (type : LeafType) (batch : RecordBatch)
    (cells : List (Option Int)) : Prop where
  column : ∀ field col, (field, col) ∈ batch.schema.zip batch.columns → field.name = columnName →
    col = .primitive type (intCells cells)
  length : cells.length = batch.numRows

def HoldsCell (columnName : String) (type : LeafType) (batch : RecordBatch) (row : Nat)
    (cell : Option Int) : Prop :=
  ∃ cells, HoldsInts columnName type batch cells ∧ cells[row]? = some cell

/-- A scan of one column and one of all columns find the same cells in it. -/
def SameColumn {type : LeafType} (columnName : String) (batches : List (ColumnBatch type))
    (scanned : List RecordBatch) : Prop :=
  ∃ cells, List.Forall₂ (HoldsInts columnName type) scanned cells ∧
    (cellsOf batches).Perm cells.flatten

theorem LeafType.isOrdered_of_isInteger {type : LeafType} (h : type.isInteger = true) :
    type.isOrdered = true := by
  cases type <;> first | rfl | cases h

/-! What a scan shows of the cells. -/

section

variable {env : ConvertEnv} {type : LeafType} {cells : List (Option Int)} {row : Nat} {oid : Oid}

theorem leafToDatum_int (h : type.isInteger = true) {v : Datum}
    (hread : leafToDatum env type (intCells cells) row oid = .ok v) {i : Int}
    (hcell : (intCells cells)[row]? = some (some (.int i))) : v.int? = some i := by
  cases type with
  | int8 | int16 | int32 | int64 | uint8 | uint16 | uint32 =>
    simp only [leafToDatum, Cells.int_of_cell hcell, Bind.bind, Except.bind] at hread
    split at hread <;> cases hread
    rfl
  | uint64 =>
    simp only [leafToDatum, Cells.int_of_cell hcell, Bind.bind, Except.bind] at hread
    split at hread
    · cases hread
    · split at hread <;> cases hread
      rfl
  | _ => cases h

theorem arrowValueToDatum_int (h : type.isInteger = true) {v : Option Datum}
    (hread : arrowValueToDatum env (.primitive type (intCells cells)) row oid = .ok v)
    {cell : Option Int} (hcell : cells[row]? = some cell) : v.bind Datum.int? = cell := by
  have hscalar : (intCells cells)[row]? = some (cell.map .int) := by
    rw [intCells, List.getElem?_map, hcell, Option.map_some]
  have hnull : type.hasNullBuffer = true := by cases type <;> first | rfl | cases h
  cases cell with
  | none =>
    rw [arrowValueToDatum_null hnull hscalar] at hread
    cases hread
    rfl
  | some i =>
    rw [arrowValueToDatum_cell hscalar] at hread
    cases hleaf : leafToDatum env type (intCells cells) row oid with
    | error e => simp [hleaf, Except.map] at hread
    | ok datum =>
      rw [hleaf] at hread
      cases hread
      exact leafToDatum_int h hleaf hscalar

end

section

variable {env : ScanEnv} {tupdesc : List Attribute} {type : LeafType} {columnName : String}

theorem TupleOf.int (h : type.isInteger = true) {batch : RecordBatch} {row : Nat} {tuple : Tuple}
    (htuple : TupleOf env tupdesc batch row (.ok tuple)) {i : Nat} {attr : Attribute}
    (hattr : tupdesc[i]? = some attr) (hdropped : attr.attisdropped = false)
    (hname : attr.attname = columnName) {cells : List (Option Int)}
    (hcells : HoldsInts columnName type batch cells) {cell : Option Int}
    (hcell : cells[row]? = some cell) : tuple[i]?.join.bind Datum.int? = cell := by
  obtain ⟨v, hv, hvalue⟩ := Fallible.getElem?_of_forall₂ htuple hattr
  rw [hv, Option.join_some]
  cases hvalue with
  | dropped hd => simp [hdropped] at hd
  | column _ hmem hfield hread =>
    cases hcells.column _ _ hmem (hfield.trans hname)
    exact arrowValueToDatum_int h hread hcell

theorem HoldsInts.positions {batch : RecordBatch} {cells : List (Option Int)}
    (h : HoldsInts columnName type batch cells) :
    List.Forall₂ (fun p cell => HoldsCell columnName type p.1 p.2 cell) batch.positions cells := by
  rw [List.forall₂_iff_get]
  refine ⟨by simp [RecordBatch.positions, h.length], fun i hi hi' => ?_⟩
  simp only [RecordBatch.positions, List.get_eq_getElem, List.getElem_map, List.getElem_range]
  exact ⟨cells, h, List.getElem?_eq_getElem hi'⟩

theorem holdsInts_positions {scanned : List RecordBatch} {cells : List (List (Option Int))}
    (h : List.Forall₂ (HoldsInts columnName type) scanned cells) :
    List.Forall₂ (fun p cell => HoldsCell columnName type p.1 p.2 cell)
      (PgLance.positions scanned) cells.flatten := by
  induction h with
  | nil => exact .nil
  | cons hbatch _ ih => exact List.rel_append hbatch.positions ih

theorem emitted_ne_end (state : LanceScanState) (p : RecordBatch × Nat) :
    emitted env tupdesc state (some p) ≠ emitted env tupdesc state none := by
  obtain ⟨batch, row⟩ := p
  cases htuple : formTuple env tupdesc state batch row <;> simp [emitted, htuple, Except.map]

theorem forall₂_of_scanned {datasetFields : Schema} {first : List RecordBatch}
    {stream : BatchStream} {state : LanceScanState}
    (hbegun : Begun env datasetFields tupdesc stream state) (hstream : state.stream = first.map .ok)
    (hschema : ∀ batch ∈ first, batch.schema = datasetFields) {tuples : List Tuple}
    (hscan : (scanRun env tupdesc (List.replicate (tuples.length + 1) .next) (some state)).1 =
      tuples.map (fun tuple => .ok (some tuple)) ++ [.ok none]) :
    List.Forall₂ (fun p tuple => TupleOf env tupdesc p.1 p.2 (.ok tuple))
      (PgLance.positions first) tuples := by
  rw [scanRun_outputs env tupdesc _ first hbegun.currentBatch hstream, lastRestart_next,
    sinceRestart_next, Nat.zero_add] at hscan
  have hnone : emitted env tupdesc state none ∉
      tuples.map fun tuple => (.ok (some tuple) : Except Report (Option Tuple)) := by
    simp [emitted]
  have hmap := map_eq_of_outputs (emitted_ne_end state) hnone (by rwa [List.length_map])
  rw [← List.forall₂_eq_eq_eq, List.forall₂_map_left_iff, List.forall₂_map_right_iff] at hmap
  rw [List.forall₂_iff_zip] at hmap ⊢
  refine ⟨hmap.1, ?_⟩
  rintro ⟨batch, row⟩ tuple hmem
  have hform := hmap.2 hmem
  have htuple := tupleOf_formTuple hbegun (hschema batch
    (batch_mem_of_mem_positions (List.of_mem_zip hmem).1)) row
  cases hresult : formTuple env tupdesc state batch row with
  | error e => simp [emitted, hresult, Except.map] at hform
  | ok formed =>
    simp only [emitted, hresult, Except.map, Except.ok.injEq, Option.some.injEq] at hform
    rw [hresult, hform] at htuple
    exact htuple

theorem columnInts_of_scanned (h : type.isInteger = true) {i : Nat} {attr : Attribute}
    (hattr : tupdesc[i]? = some attr) (hdropped : attr.attisdropped = false)
    (hname : attr.attname = columnName) {ps : List (RecordBatch × Nat)} {tuples : List Tuple}
    {cells : List (Option Int)}
    (htuples : List.Forall₂ (fun p tuple => TupleOf env tupdesc p.1 p.2 (.ok tuple)) ps tuples)
    (hcells : List.Forall₂ (fun p cell => HoldsCell columnName type p.1 p.2 cell) ps cells) :
    columnInts tuples i = cells.reduceOption := by
  induction htuples generalizing cells with
  | nil =>
    cases hcells
    rfl
  | cons htuple _ ih =>
    cases hcells with
    | cons hcell hcells =>
      obtain ⟨batchCells, hholds, hget⟩ := hcell
      have hint := htuple.int h hattr hdropped hname hholds hget
      have hrest := ih hcells
      simp only [columnInts, List.reduceOption, List.filterMap_cons, hint, id_eq] at hrest ⊢
      rw [hrest]

end

/-- `lance_min` and `lance_max` of a column of integers are what a query on the foreign table would
find there, with or without NULLs and however both scans divide the rows, whenever the scan of the
table runs to its end. -/
theorem lanceMinImpl_lanceMaxImpl_select (env : ScanEnv) (agg : AggregateEnv) {host : Host}
    (hruntime : host.runtimeNew = .ok ()) {d : ScannedDataset} {columnName : String}
    {type : LeafType} (htype : type.isInteger = true)
    {batches : List (ColumnBatch type)} (hscans : Scans d columnName type batches)
    {scanned : List RecordBatch} (hschema : ∀ batch ∈ scanned, batch.schema = d.fields)
    (hsame : SameColumn columnName batches scanned) {tupdesc : List Attribute}
    {state : LanceScanState}
    (hbegin : beginForeignScan env d.fields tupdesc false (.ok (scanned.map .ok)) =
      .ok (some state)) {i : Nat} {attr : Attribute} (hattr : tupdesc[i]? = some attr)
    (hdropped : attr.attisdropped = false) (hname : attr.attname = columnName)
    {tuples : List Tuple}
    (hscan : (scanRun env tupdesc (List.replicate (tuples.length + 1) .next) (some state)).1 =
      tuples.map (fun tuple => .ok (some tuple)) ++ [.ok none]) :
    ∃ least greatest, IsExtremum .min (columnInts tuples i) least ∧
      IsExtremum .max (columnInts tuples i) greatest ∧
      lanceMinImpl agg host (.ok d) columnName =
        .ok (least.map toString, agg.displayDataType (.leaf type), host.elapsedMs) ∧
      lanceMaxImpl agg host (.ok d) columnName =
        .ok (greatest.map toString, agg.displayDataType (.leaf type), host.elapsedMs) := by
  obtain ⟨cells, hcells, hperm⟩ := hsame
  have hbegun := beginForeignScan_ok hbegin
  have htuples := forall₂_of_scanned hbegun hbegun.stream hschema hscan
  have hints : columnInts tuples i = cells.flatten.reduceOption :=
    columnInts_of_scanned htype hattr hdropped hname htuples (holdsInts_positions hcells)
  obtain ⟨wrap, hnew, -, hfinish, hupdate⟩ :=
    ordState_spec (LeafType.isOrdered_of_isInteger htype) agg.displayDataType
  have hbest : ∀ op, IsExtremum op (columnInts tuples i) (updateOrd none (cellsOf batches) op) := by
    intro op
    rw [hints, isExtremum_iff]
    exact (isExtremum_iff.mp (isExtremum_updateOrd op _)).of_perm (hperm.filterMap id)
  have hresult : ∀ op, lanceExtremumImpl agg host (.ok d) columnName op =
      .ok ((updateOrd none (cellsOf batches) op).map toString,
        agg.displayDataType (.leaf type), host.elapsedMs) := by
    intro op
    rw [lanceExtremumImpl_of_scans hscans hnew (readBatches_streamOf hupdate batches none) hruntime,
      hfinish htype]
    rfl
  exact ⟨_, _, hbest .min, hbest .max, hresult .min, hresult .max⟩

/-- The column of two rows, which the scan of it finds the other way round. -/
def sampleColumn : ScannedDataset where
  fields := (RecordBatch.sample []).schema
  project _ := .ok ()
  tryIntoStream _ := .ok (streamOf [.ofCells "id" .int32 [some 1, some 3]])

theorem sampleColumn_scans :
    Scans sampleColumn "id" .int32 [.ofCells "id" .int32 [some 1, some 3]] where
  field := ⟨⟨"id", .leaf .int32, true⟩, rfl, rfl⟩
  project := rfl
  stream := rfl

theorem sample_holdsInts (rows : List (Int × String)) :
    HoldsInts "id" .int32 (.sample rows) (rows.map fun row => some row.1) where
  column := by
    intro field col hmem hname
    simp only [RecordBatch.sample, List.zip_cons_cons, List.zip_nil_right, List.mem_cons,
      List.not_mem_nil, or_false, Prod.mk.injEq] at hmem
    rcases hmem with ⟨-, rfl⟩ | ⟨rfl, -⟩
    · simp [intCells]
    · exact absurd hname (by decide)
  length := by simp [RecordBatch.sample]

def sampleTuples : List Tuple :=
  [[some (.text "c"), none, some (.int4 3)], [some (.text "a"), none, some (.int4 1)]]

theorem lanceMinImpl_lanceMaxImpl_select_sample : ∃ least greatest,
    IsExtremum .min [3, 1] least ∧ IsExtremum .max [3, 1] greatest ∧
      lanceMinImpl .sample .sample (.ok sampleColumn) "id" =
        .ok (least.map toString, AggregateEnv.sample.displayDataType (.leaf .int32), 0) ∧
      lanceMaxImpl .sample .sample (.ok sampleColumn) "id" =
        .ok (greatest.map toString, AggregateEnv.sample.displayDataType (.leaf .int32), 0) := by
  have hsame : SameColumn "id" [ColumnBatch.ofCells "id" .int32 [some 1, some 3]]
      [.sample [(3, "c")], .sample [(1, "a")]] := by
    refine ⟨[[some 3], [some 1]], .cons (sample_holdsInts [(3, "c")])
      (.cons (sample_holdsInts [(1, "a")]) .nil), ?_⟩
    exact List.Perm.swap _ _ _
  have hbegin : beginForeignScan .sample sampleColumn.fields sampleTupdesc false
      (.ok ([.sample [(3, "c")], .sample [(1, "a")]].map .ok)) =
        .ok (some (.sample [.sample [(3, "c")], .sample [(1, "a")]])) := rfl
  have hscan : (scanRun .sample sampleTupdesc (List.replicate (sampleTuples.length + 1) .next)
      (some (.sample [.sample [(3, "c")], .sample [(1, "a")]]))).1 =
        sampleTuples.map (fun tuple => .ok (some tuple)) ++ [.ok none] := rfl
  have hruntime : Host.sample.runtimeNew = .ok () := rfl
  have hattr : sampleTupdesc[2]? = some ⟨"id", int4Oid, false⟩ := rfl
  exact lanceMinImpl_lanceMaxImpl_select .sample .sample hruntime rfl sampleColumn_scans
    (by simp [sampleColumn, RecordBatch.sample]) hsame hbegin hattr rfl rfl hscan

end PgLance
