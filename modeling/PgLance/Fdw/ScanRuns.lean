import PgLance.Fdw.Scan
import PgLance.Library.Fallible
import PgLance.Library.Reader

/-! A foreign scan reads its stream: whatever the sizes of the batches, it returns their rows
one by one, and begins anew after a rescan. -/

namespace PgLance

open Fallible Reader

def RecordBatch.positions (batch : RecordBatch) : List (RecordBatch × Nat) :=
  (List.range batch.numRows).map fun row => (batch, row)

def positions (batches : List RecordBatch) : List (RecordBatch × Nat) :=
  batches.flatMap RecordBatch.positions

@[simp] theorem positions_nil : positions [] = [] := rfl

@[simp] theorem positions_cons (batch : RecordBatch) (batches : List RecordBatch) :
    positions (batch :: batches) = batch.positions ++ positions batches := rfl

theorem rows_positions (batches : List RecordBatch) :
    (positions batches).map (fun (batch, row) => batch.rows.getD row []) =
      batches.flatMap RecordBatch.rows := by
  induction batches with
  | nil => rfl
  | cons batch batches ih =>
    have hbatch :
        batch.positions.map (fun (batch, row) => batch.rows.getD row []) = batch.rows := by
      apply List.ext_getElem
      · simp [RecordBatch.positions]
      · intro i h₁ h₂
        simp [RecordBatch.positions, List.getElem?_eq_getElem h₂]
    simp only [positions_cons, List.map_append, hbatch, ih, List.flatMap_cons]

theorem batch_mem_of_mem_positions {batches : List RecordBatch} {batch : RecordBatch} {row : Nat}
    (h : (batch, row) ∈ positions batches) : batch ∈ batches := by
  simp only [positions, RecordBatch.positions, List.mem_flatMap, List.mem_map] at h
  obtain ⟨b, hb, _, _, heq⟩ := h
  cases heq
  exact hb

namespace LanceScanState

def columns (state : LanceScanState) : List Oid × List (Option String) × List (Option Nat) :=
  (state.atttypids, state.attnames, state.attToBatchCol)

def currentRest (state : LanceScanState) : List (RecordBatch × Nat) :=
  match state.currentBatch with
  | none => []
  | some batch => batch.positions.drop state.currentRow

end LanceScanState

section

variable {env : ScanEnv} {tupdesc : List Attribute}

def Left (start : LanceScanState) (rest : List (RecordBatch × Nat)) (node : Option LanceScanState) :
    Prop :=
  ∃ state batches, node = some state ∧ state.columns = start.columns ∧
    state.stream = batches.map .ok ∧ rest = state.currentRest ++ positions batches

def emitted (env : ScanEnv) (tupdesc : List Attribute) (start : LanceScanState) :
    Option (RecordBatch × Nat) → Except Report (Option Tuple)
  | none => .ok none
  | some (batch, row) => (formTuple env tupdesc start batch row).map .some

theorem formTuple_congr {state start : LanceScanState} (h : state.columns = start.columns)
    (batch : RecordBatch) (row : Nat) :
    formTuple env tupdesc state batch row = formTuple env tupdesc start batch row := by
  simp only [LanceScanState.columns, Prod.mk.injEq] at h
  obtain ⟨htypids, hnames, hcols⟩ := h
  simp only [formTuple, formAttribute, htypids, hnames, hcols]

theorem emitRow_reads {start state : LanceScanState} {batch : RecordBatch}
    {batches : List RecordBatch} (hcolumns : state.columns = start.columns)
    (hbatch : state.currentBatch = some batch) (hstream : state.stream = batches.map .ok)
    (hrow : state.currentRow < batch.numRows) :
    (emitRow env tupdesc batch state).1 =
        emitted env tupdesc start (state.currentRest ++ positions batches).head? ∧
      Left start (state.currentRest ++ positions batches).tail
        (some (emitRow env tupdesc batch state).2) := by
  have hrest : state.currentRest =
      (batch, state.currentRow) :: batch.positions.drop (state.currentRow + 1) := by
    have hlen : state.currentRow < batch.positions.length := by
      simpa [RecordBatch.positions] using hrow
    simp only [LanceScanState.currentRest, hbatch]
    rw [List.drop_eq_getElem_cons hlen]
    simp [RecordBatch.positions]
  rw [hrest]
  refine ⟨?_, _, batches, rfl, hcolumns, hstream, ?_⟩
  · have hcongr : formTuple env tupdesc state batch state.currentRow = _ :=
      formTuple_congr hcolumns batch state.currentRow
    simp only [List.cons_append, List.head?_cons, emitted, ← hcongr]
    rfl
  · simp [emitRow, LanceScanState.currentRest, hbatch]

theorem scanLoop_reads {start : LanceScanState} (batches : List RecordBatch)
    {state : LanceScanState} (hcolumns : state.columns = start.columns)
    (hrest : state.currentRest = []) :
    (scanLoop env tupdesc (batches.map .ok) state).1 =
        emitted env tupdesc start (positions batches).head? ∧
      Left start (positions batches).tail
        (some (scanLoop env tupdesc (batches.map .ok) state).2) := by
  induction batches generalizing state with
  | nil => exact ⟨rfl, _, [], rfl, hcolumns, rfl, (List.append_nil _).trans hrest |>.symm⟩
  | cons batch batches ih =>
    by_cases hrows : batch.numRows = 0
    · have hpositions : batch.positions = [] := by simp [RecordBatch.positions, hrows]
      simp only [List.map_cons, scanLoop, hrows, ge_iff_le, Nat.le_refl, if_true, positions_cons,
        hpositions, List.nil_append]
      exact ih hcolumns rfl
    · have hpos : 0 < batch.numRows := Nat.pos_of_ne_zero hrows
      simp only [List.map_cons, scanLoop, ge_iff_le, Nat.not_le.mpr hpos, if_false, positions_cons]
      let state' := { state with
        stream := batches.map .ok, currentBatch := some batch, currentRow := 0 }
      have hrow : state'.currentRow < batch.numRows := hpos
      exact emitRow_reads hcolumns rfl rfl hrow

theorem iterateForeignScan_reads (env : ScanEnv) (tupdesc : List Attribute)
    (start : LanceScanState) :
    Reads (iterateForeignScan env tupdesc) (emitted env tupdesc start) (Left start) := by
  have hstep : ∀ {rest node}, Left start rest node →
      (iterateForeignScan env tupdesc node).1 = emitted env tupdesc start rest.head? ∧
        Left start rest.tail (iterateForeignScan env tupdesc node).2 := by
    rintro _ _ ⟨state, batches, rfl, hcolumns, hstream, rfl⟩
    cases hbatch : state.currentBatch with
    | none =>
      have hrest : state.currentRest = [] := by simp [LanceScanState.currentRest, hbatch]
      simp only [iterateForeignScan, hbatch, hstream, hrest, List.nil_append]
      exact scanLoop_reads batches hcolumns hrest
    | some batch =>
      by_cases hrow : state.currentRow ≥ batch.numRows
      · have hrest : state.currentRest = [] := by
          simpa [LanceScanState.currentRest, hbatch, RecordBatch.positions] using hrow
        simp only [iterateForeignScan, hbatch, hrow, if_true, hstream, hrest, List.nil_append]
        exact scanLoop_reads batches hcolumns hrest
      · simp only [iterateForeignScan, hbatch, hrow, if_false]
        exact emitRow_reads hcolumns hbatch hstream (Nat.not_le.mp hrow)
  exact ⟨fun h => (hstep h).1, fun h => (hstep h).2⟩

theorem rescanForeignScan_left (env : ScanEnv) {start : LanceScanState} (batches : List RecordBatch)
    {rest : List (RecordBatch × Nat)} {node : Option LanceScanState} (h : Left start rest node) :
    Left start (positions batches) (rescanForeignScan env (.ok (batches.map .ok)) node).2 := by
  obtain ⟨state, _, rfl, hcolumns, -, -⟩ := h
  exact ⟨_, batches, rfl, hcolumns, rfl, rfl⟩

end

abbrev ScanCall := Call (List RecordBatch)

/-- What the calls of `iterate_foreign_scan` since the last rescan returned. -/
def scanRun (env : ScanEnv) (tupdesc : List Attribute) (calls : List ScanCall)
    (node : Option LanceScanState) : List (Except Report (Option Tuple)) × Option LanceScanState :=
  run (iterateForeignScan env tupdesc)
    (fun batches node => (rescanForeignScan env (.ok (batches.map .ok)) node).2) calls [] node

theorem scanRun_outputs (env : ScanEnv) (tupdesc : List Attribute) (calls : List ScanCall)
    (first : List RecordBatch) {state : LanceScanState} (hbatch : state.currentBatch = none)
    (hstream : state.stream = first.map .ok) :
    (scanRun env tupdesc calls (some state)).1 =
      outputs (emitted env tupdesc state) (positions (lastRestart calls first))
        (sinceRestart calls 0) := by
  apply run_outputs (iterateForeignScan_reads env tupdesc state) positions
  · intro batches rest node h
    exact rescanForeignScan_left env batches h
  · exact ⟨state, first, rfl, rfl, hstream, by simp [LanceScanState.currentRest, hbatch]⟩

inductive AttributeValue (env : ScanEnv) (batch : RecordBatch) (row : Nat) (attr : Attribute) :
    Option Datum → Prop
  | dropped : attr.attisdropped = true → AttributeValue env batch row attr none
  | column {field col v} : attr.attisdropped = false →
    (field, col) ∈ batch.schema.zip batch.columns → field.name = attr.attname →
    arrowValueToDatum env.convert col row attr.atttypid = .ok v →
    AttributeValue env batch row attr v

/-- The tuple of a row has the datum of each attribute, and only a conversion that fails keeps
it from being formed. -/
def TupleOf (env : ScanEnv) (tupdesc : List Attribute) (batch : RecordBatch) (row : Nat) :
    Except Report Tuple → Prop
  | .ok tuple => List.Forall₂ (AttributeValue env batch row) tupdesc tuple
  | .error _ => ∃ attr ∈ tupdesc, ∃ field col e, attr.attisdropped = false ∧
      (field, col) ∈ batch.schema.zip batch.columns ∧ field.name = attr.attname ∧
      arrowValueToDatum env.convert col row attr.atttypid = .error e

theorem nameToIdx_some {datasetFields : Schema} {name : String} {idx : Nat}
    (h : (nameToIdx datasetFields)[name]? = some idx) :
    ∃ field, datasetFields[idx]? = some field ∧ field.name = name := by
  have hfold : ∀ (fs : List (Field × Nat)) (names : Std.TreeMap String Nat),
      (∀ p ∈ fs, datasetFields[p.2]? = some p.1) →
      (∀ idx, names[name]? = some idx →
        ∃ field, datasetFields[idx]? = some field ∧ field.name = name) →
      ∀ idx, (fs.foldl (fun names p => names.insert p.1.name p.2) names)[name]? = some idx →
        ∃ field, datasetFields[idx]? = some field ∧ field.name = name := by
    intro fs
    induction fs with
    | nil => exact fun names _ hnames => hnames
    | cons p fs ih =>
      intro names hfs hnames
      apply ih _ (fun q hq => hfs q (by simp [hq]))
      intro idx hidx
      rw [Std.TreeMap.getElem?_insert] at hidx
      split at hidx
      · next heq =>
        cases hidx
        exact ⟨p.1, hfs p (by simp), Std.compare_eq_iff_eq.mp heq⟩
      · exact hnames idx hidx
  apply hfold datasetFields.zipIdx ∅ _ (by simp) idx h
  intro p hp
  exact List.mem_zipIdx_iff_getElem?.mp hp

theorem nameToIdx_of_mem {datasetFields : Schema} {field : Field} (h : field ∈ datasetFields) :
    ∃ idx, (nameToIdx datasetFields)[field.name]? = some idx := by
  have hfold : ∀ (fs : List (Field × Nat)) (names : Std.TreeMap String Nat),
      field.name ∈ names ∨ field ∈ fs.map Prod.fst →
      field.name ∈ fs.foldl (fun names p => names.insert p.1.name p.2) names := by
    intro fs
    induction fs with
    | nil => simp
    | cons p fs ih =>
      intro names hnames
      apply ih
      simp only [List.map_cons, List.mem_cons, Std.TreeMap.mem_insert, Std.compare_eq_iff_eq]
        at hnames ⊢
      rcases hnames with hnames | rfl | hfs
      · exact .inl (.inr hnames)
      · exact .inl (.inl rfl)
      · exact .inr hfs
  have hmem : field.name ∈ nameToIdx datasetFields :=
    hfold datasetFields.zipIdx ∅ (.inr (by simpa using h))
  exact ⟨_, Std.TreeMap.getElem?_eq_some_getElem hmem⟩

section

variable {env : ScanEnv} {datasetFields : Schema} {tupdesc : List Attribute}

theorem attributeToBatchCol_ok {attr : Attribute} {col : Option Nat}
    (h : attributeToBatchCol env datasetFields attr = .ok col) (hattr : attr.attisdropped = false) :
    ∃ idx field, col = some idx ∧ datasetFields[idx]? = some field ∧ field.name = attr.attname := by
  simp only [attributeToBatchCol, attname, hattr, Bool.false_eq_true, if_false] at h
  split at h
  · cases h
  · next idx hidx =>
    obtain ⟨field, hfield, hname⟩ := nameToIdx_some hidx
    simp only [hfield] at h
    split at h
    · cases h
    · cases h
      exact ⟨idx, field, rfl, hfield, hname⟩

structure Begun (env : ScanEnv) (datasetFields : Schema) (tupdesc : List Attribute)
    (stream : BatchStream) (state : LanceScanState) : Prop where
  stream : state.stream = stream
  currentBatch : state.currentBatch = none
  atttypids : state.atttypids = tupdesc.map Attribute.atttypid
  attToBatchCol :
    List.Forall₂ (fun attr col => attributeToBatchCol env datasetFields attr = .ok col)
      tupdesc state.attToBatchCol

theorem beginForeignScan_ok {stream : BatchStream} {state : LanceScanState}
    (h : beginForeignScan env datasetFields tupdesc false (.ok stream) = .ok (some state)) :
    Begun env datasetFields tupdesc stream state := by
  simp only [beginForeignScan, Bool.false_eq_true, if_false, createStream, Except.mapError,
    Bind.bind, Except.bind, pure, Except.pure] at h
  split at h
  · cases h
  · next cols hcols =>
    cases h
    exact ⟨rfl, rfl, rfl, mapM_ok_iff.mp hcols⟩

theorem formAttribute_cases {stream : BatchStream} {state : LanceScanState}
    (hbegun : Begun env datasetFields tupdesc stream state) {batch : RecordBatch}
    (hschema : batch.schema = datasetFields) (row : Nat) {attr : Attribute} {i : Nat}
    (hattr : tupdesc[i]? = some attr) :
    (∃ v, formAttribute env state batch row attr i = .ok v ∧ AttributeValue env batch row attr v) ∨
    ((∃ report, formAttribute env state batch row attr i = .error report) ∧
      ∃ field col e, attr.attisdropped = false ∧
        (field, col) ∈ batch.schema.zip batch.columns ∧ field.name = attr.attname ∧
        arrowValueToDatum env.convert col row attr.atttypid = .error e) := by
  cases hdropped : attr.attisdropped with
  | true => exact .inl ⟨none, by simp [formAttribute, hdropped], .dropped hdropped⟩
  | false =>
    obtain ⟨batchCol, hbatchCol, hok⟩ := getElem?_of_forall₂ hbegun.attToBatchCol hattr
    obtain ⟨idx, field, rfl, hfield, hname⟩ := attributeToBatchCol_ok hok hdropped
    have hlength : batch.columns.length = datasetFields.length := by
      have htypes := congrArg List.length batch.types
      simpa [hschema] using htypes
    have hidx : idx < batch.columns.length := by
      rw [hlength]
      exact (List.getElem?_eq_some_iff.mp hfield).1
    have hcol : batch.columns[idx]? = some batch.columns[idx] := List.getElem?_eq_getElem hidx
    have hoid : state.atttypids[i]? = some attr.atttypid := by simp [hbegun.atttypids, hattr]
    have hzip : (field, batch.columns[idx]) ∈ batch.schema.zip batch.columns := by
      apply List.mem_of_getElem? (i := idx)
      simp [List.getElem?_zip_eq_some, hschema, hfield, hcol]
    cases hconvert : arrowValueToDatum env.convert batch.columns[idx] row attr.atttypid with
    | ok v =>
      refine .inl ⟨v, ?_, .column hdropped hzip hname hconvert⟩
      simp [formAttribute, hdropped, hbatchCol, hcol, hoid, hconvert, Except.mapError]
    | error e =>
      refine .inr ⟨?_, field, _, e, rfl, hzip, hname, hconvert⟩
      simp [formAttribute, hdropped, hbatchCol, hcol, hoid, hconvert, Except.mapError]

theorem tupleOf_formTuple {stream : BatchStream} {state : LanceScanState}
    (hbegun : Begun env datasetFields tupdesc stream state) {batch : RecordBatch}
    (hschema : batch.schema = datasetFields) (row : Nat) :
    TupleOf env tupdesc batch row (formTuple env tupdesc state batch row) := by
  cases htuple : formTuple env tupdesc state batch row with
  | ok tuple =>
    have hforall := mapM_ok_iff.mp htuple
    have hfst : tupdesc = tupdesc.zipIdx.map Prod.fst := (List.zipIdx_map_fst 0 tupdesc).symm
    rw [TupleOf, hfst, List.forall₂_map_left_iff]
    rw [List.forall₂_iff_zip] at hforall ⊢
    refine ⟨hforall.1, ?_⟩
    intro p v hmem
    have hattr := List.mem_zipIdx_iff_getElem?.mp (List.of_mem_zip hmem).1
    have hv := hforall.2 hmem
    cases formAttribute_cases hbegun hschema row hattr with
    | inl h =>
      obtain ⟨v', hv', hvalue⟩ := h
      cases hv'.symm.trans hv
      exact hvalue
    | inr h =>
      obtain ⟨⟨report, hreport⟩, -⟩ := h
      cases hreport.symm.trans hv
  | error report =>
    obtain ⟨p, hp, hreport⟩ := mapM_error htuple
    have hattr := List.mem_zipIdx_iff_getElem?.mp hp
    cases formAttribute_cases hbegun hschema row hattr with
    | inl h =>
      obtain ⟨v, hv, -⟩ := h
      cases hv.symm.trans hreport
    | inr h =>
      exact ⟨p.1, List.mem_of_getElem? hattr, h.2⟩

end

/-- In any interleaving, the calls since the last rescan return the tuples of the rows of all
batches, in order and each once, and from then on empty slots. -/
theorem iterateForeignScan_exact (env : ScanEnv) (datasetFields : Schema) (tupdesc : List Attribute)
    (first : List RecordBatch) (state : LanceScanState) (calls : List ScanCall)
    (hbegin : beginForeignScan env datasetFields tupdesc false (.ok (first.map .ok)) =
      .ok (some state))
    (hschema : ∀ batches, batches = first ∨ .restart batches ∈ calls →
      ∀ batch ∈ batches, batch.schema = datasetFields)
    (hrows : ∀ batches, .restart batches ∈ calls →
      batches.flatMap RecordBatch.rows = first.flatMap RecordBatch.rows) :
    (positions (lastRestart calls first)).map (fun (batch, row) => batch.rows.getD row []) =
        first.flatMap RecordBatch.rows ∧
      (scanRun env tupdesc calls (some state)).1.length = sinceRestart calls 0 ∧
      ∀ (i : Nat) outcome, (scanRun env tupdesc calls (some state)).1[i]? = some outcome →
        match (positions (lastRestart calls first))[i]? with
        | none => outcome = .ok none
        | some (batch, row) =>
          ∃ tuple, outcome = tuple.map some ∧ TupleOf env tupdesc batch row tuple := by
  have hbegun := beginForeignScan_ok hbegin
  have hlast := lastRestart_mem calls first
  have houtputs := scanRun_outputs env tupdesc calls first hbegun.currentBatch hbegun.stream
  rw [houtputs, rows_positions]
  refine ⟨?_, length_outputs _ _, ?_⟩
  · cases hlast with
    | inl h => rw [h]
    | inr h => exact hrows _ h
  · intro i outcome houtcome
    have hout := getElem?_outputs houtcome
    cases hposition : (positions (lastRestart calls first))[i]? with
    | none => simpa [hposition, emitted] using hout
    | some p =>
      obtain ⟨batch, row⟩ := p
      rw [hposition] at hout
      refine ⟨_, hout, tupleOf_formTuple hbegun ?_ row⟩
      exact hschema _ hlast batch (batch_mem_of_mem_positions (List.mem_of_getElem? hposition))

def ScanEnv.sample : ScanEnv where
  convert := .sample ⟨fun _ => invalidOid, fun _ => none⟩
  formatTypeBe _ := none
  displayDataType dt := reprStr dt
  datasetLabel := "uri=/d"

def RecordBatch.sample (rows : List (Int × String)) : RecordBatch where
  schema := [⟨"id", .leaf .int32, true⟩, ⟨"name", .leaf .utf8, true⟩]
  columns := [.primitive .int32 (rows.map fun row => some (.int row.1)),
    .primitive .utf8 (rows.map fun row => some (.utf8 row.2))]
  numRows := rows.length
  types := rfl
  lengths := by simp [ArrowArray.len]

def sampleTupdesc : List Attribute :=
  [⟨"name", textOid, false⟩, ⟨"........pg.dropped.2........", invalidOid, true⟩,
    ⟨"id", int4Oid, false⟩]

def LanceScanState.sample (batches : List RecordBatch) : LanceScanState where
  stream := batches.map .ok
  currentBatch := none
  currentRow := 0
  atttypids := [textOid, invalidOid, int4Oid]
  attnames := [some "name", none, some "id"]
  attToBatchCol := [some 1, none, some 0]

/-- A rescan after the first row, which gets other batches, one of them empty. -/
def sampleCalls : List ScanCall :=
  [.next, .restart [.sample [(1, "a"), (2, "b")], .sample [], .sample [(3, "c")]],
    .next, .next, .next, .next, .next]

theorem iterateForeignScan_exact_sample :
    (scanRun .sample sampleTupdesc sampleCalls
        (some (.sample [.sample [(1, "a")], .sample [(2, "b"), (3, "c")]]))).1 =
      [.ok (some [some (.text "a"), none, some (.int4 1)]),
        .ok (some [some (.text "b"), none, some (.int4 2)]),
        .ok (some [some (.text "c"), none, some (.int4 3)]), .ok none, .ok none] ∧
    List.Forall₂ (AttributeValue .sample (.sample [(3, "c")]) 0) sampleTupdesc
      [some (.text "c"), none, some (.int4 3)] := by
  refine ⟨rfl, ?_⟩
  have h := iterateForeignScan_exact .sample (RecordBatch.sample []).schema sampleTupdesc
    [.sample [(1, "a")], .sample [(2, "b"), (3, "c")]]
    (.sample [.sample [(1, "a")], .sample [(2, "b"), (3, "c")]]) sampleCalls rfl
    (by simp [sampleCalls, RecordBatch.sample])
    (by intro batches h; simp [sampleCalls] at h; subst h; rfl)
  obtain ⟨tuple, htuple, hvalues⟩ :=
    h.2.2 2 (.ok (some [some (.text "c"), none, some (.int4 3)])) rfl
  cases tuple with
  | error report => cases htuple
  | ok tuple => cases htuple; exact hvalues

end PgLance
