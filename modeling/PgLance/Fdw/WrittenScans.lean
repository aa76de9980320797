import PgLance.Fdw.CreatedScans
import PgLance.Fdw.WrittenCells
import PgLance.Write.AppendCalls

/-! Scans of datasets that were written by append calls. -/

namespace PgLance

open Fallible Reader

variable {Raw : Type}

def shownAttribute (pgrx : Pgrx Raw) (cols : List SpiColumnInfo) (row : SpiRow Raw)
    (attr : Attribute) : Option Datum :=
  if attr.attisdropped then none
  else ((cols.zip row).find? fun p => p.1.name == attr.attname).bind fun (col, entry) =>
    entry.shown pgrx (datumType col.arrowType.variant col.pgOid)

def shownTuple (pgrx : Pgrx Raw) (cols : List SpiColumnInfo) (tupdesc : List Attribute)
    (row : SpiRow Raw) : Tuple :=
  tupdesc.map (shownAttribute pgrx cols row)

def RereadRow (pgrx : Pgrx Raw) (cols : List SpiColumnInfo) (tupdesc : List Attribute)
    (row : SpiRow Raw) : Prop :=
  ∀ attr ∈ tupdesc, attr.attisdropped = false → ∀ col entry, (col, entry) ∈ cols.zip row →
    col.name = attr.attname → entry.Reread pgrx

structure SourceRow (pgrx : Pgrx Raw) (cols : List SpiColumnInfo) (row : SpiRow Raw) : Prop where
  typed : row.map SpiEntry.typeOid = cols.map SpiColumnInfo.pgOid
  genuine : ∀ entry ∈ row, entry.Genuine pgrx

structure ReadsRows (cols : List SpiColumnInfo) (rows : List Row) (batches : List RecordBatch) :
    Prop where
  schema : ∀ batch ∈ batches, batch.schema = buildArrowSchema cols
  rows : batches.flatMap RecordBatch.rows = rows

section

variable {pgrx : Pgrx Raw} {cols : List SpiColumnInfo}

theorem SourceRow.entry {row : SpiRow Raw} (h : SourceRow pgrx cols row) {i : Nat}
    {col : SpiColumnInfo} (hcol : cols[i]? = some col) :
    ∃ entry, row[i]? = some entry ∧ entry.typeOid = col.pgOid := by
  have htyped := congrArg (fun oids : List Oid => oids[i]?) h.typed
  simp only [List.getElem?_map, hcol, Option.map_some, Option.map_eq_some_iff] at htyped
  exact htyped

theorem SourceRow.eq_of_name {row : SpiRow Raw} (h : SourceRow pgrx cols row)
    (hdistinct : (cols.map SpiColumnInfo.name).Nodup) {p q : SpiColumnInfo × SpiEntry Raw}
    (hp : p ∈ cols.zip row) (hq : q ∈ cols.zip row) (hname : p.1.name = q.1.name) : p = q := by
  have hlength : cols.length ≤ row.length := by
    have htyped := congrArg List.length h.typed
    simp only [List.length_map] at htyped
    omega
  have hnodup : ((cols.zip row).map fun p => p.1.name).Nodup := by
    rwa [← List.map_fst_zip hlength, List.map_map] at hdistinct
  exact List.inj_on_of_nodup_map hnodup hp hq hname

theorem shownAttribute_column {row : SpiRow Raw} (h : SourceRow pgrx cols row)
    (hdistinct : (cols.map SpiColumnInfo.name).Nodup) {attr : Attribute}
    (hattr : attr.attisdropped = false) {col : SpiColumnInfo} {entry : SpiEntry Raw}
    (hmem : (col, entry) ∈ cols.zip row) (hname : col.name = attr.attname) :
    shownAttribute pgrx cols row attr =
      entry.shown pgrx (datumType col.arrowType.variant col.pgOid) := by
  cases hfind : (cols.zip row).find? fun p => p.1.name == attr.attname with
  | none =>
    have hne := List.find?_eq_none.mp hfind _ hmem
    simp [hname] at hne
  | some p =>
    have hname' : p.1.name = attr.attname := by simpa using List.find?_some hfind
    cases h.eq_of_name hdistinct (List.mem_of_find?_eq_some hfind) hmem (hname'.trans hname.symm)
    simp [shownAttribute, hattr, hfind]

theorem cellValue_inj {cell cell' : Option Scalar} (h : cellValue cell = cellValue cell') :
    cell = cell' := by
  cases cell <;> cases cell' <;> simp_all [cellValue]

theorem cell_of_row {batch : RecordBatch} (hschema : batch.schema = buildArrowSchema cols)
    {row : Nat} {spiRow : SpiRow Raw} (hrow : row < batch.numRows)
    (hwritten : batch.rows.getD row [] = convertRow pgrx cols spiRow) {i : Nat}
    {col : SpiColumnInfo} (hcol : cols[i]? = some col) {array : ArrowArray}
    (harray : batch.columns[i]? = some array) :
    ∃ cells, array = .primitive col.arrowType.variant.leafType cells ∧
      cells[row]? = some (datumCell pgrx col.arrowType.variant spiRow i col.pgOid) := by
  have htype : array.dataType = .leaf col.arrowType.variant.leafType := by
    have htypes := congrArg (fun types : List DataType => types[i]?) batch.types
    simpa [hschema, buildArrowSchema, hcol, harray, col.arrowType.dataType_eq.symm,
      BuilderVariant.dataType_eq] using htypes
  cases array with
  | primitive type cells =>
    cases htype
    refine ⟨cells, rfl, ?_⟩
    have hlength : cells.length = batch.numRows :=
      batch.lengths _ (List.mem_of_getElem? harray)
    have hvalue := congrArg (fun written : Row => written[i]?) hwritten
    simp only [getElem?_convertRow pgrx spiRow hcol] at hvalue
    have hcell : cells[row]? = some cells[row] := List.getElem?_eq_getElem (hlength ▸ hrow)
    simp only [RecordBatch.rows, ArrowArray.transpose, List.map_map, List.getD_eq_getElem?_getD,
      List.getElem?_map, List.getElem?_range hrow, Option.map_some, Option.getD_some,
      Function.comp_apply, List.getElem?_zip_eq_some, harray, ArrowArray.valuesOf, hcell] at hvalue
    rw [hcell, cellValue_inj (Option.some.inj hvalue.2)]
  | _ => cases htype

end

section

variable {env : ScanEnv} {datasetFields : Schema} {tupdesc : List Attribute}

theorem attributeToBatchCol_valid {attr : Attribute} {idx : Nat} {field : Field}
    (h : attributeToBatchCol env datasetFields attr = .ok (some idx))
    (hfield : datasetFields[idx]? = some field) :
    validateArrowTypeForPgOid env.convert.catalog field.dataType attr.atttypid = .ok () := by
  unfold attributeToBatchCol at h
  split at h
  · cases h
  · split at h
    · cases h
    · split at h
      · cases h
      · next g hg =>
        split at h
        · cases h
        · next hvalid =>
          cases h
          cases hg.symm.trans hfield
          exact hvalid

theorem formAttribute_column {stream : BatchStream} {state : LanceScanState}
    (hbegun : Begun env datasetFields tupdesc stream state) {batch : RecordBatch}
    (hschema : batch.schema = datasetFields) (row : Nat) {attr : Attribute} {i : Nat}
    (hattr : tupdesc[i]? = some attr) (hdropped : attr.attisdropped = false) :
    ∃ (idx : Nat) (field : Field) (array : ArrowArray),
      datasetFields[idx]? = some field ∧ field.name = attr.attname ∧
      validateArrowTypeForPgOid env.convert.catalog field.dataType attr.atttypid = .ok () ∧
      batch.columns[idx]? = some array ∧
      ∀ v, formAttribute env state batch row attr i = .ok v ↔
        arrowValueToDatum env.convert array row attr.atttypid = .ok v := by
  obtain ⟨batchCol, hbatchCol, hok⟩ := getElem?_of_forall₂ hbegun.attToBatchCol hattr
  obtain ⟨idx, field, rfl, hfield, hname⟩ := attributeToBatchCol_ok hok hdropped
  have hlength : batch.columns.length = datasetFields.length := by
    have htypes := congrArg List.length batch.types
    simpa [hschema] using htypes
  have hidx : idx < batch.columns.length := by
    rw [hlength]
    exact (List.getElem?_eq_some_iff.mp hfield).1
  have hcol : batch.columns[idx]? = some batch.columns[idx] := List.getElem?_eq_getElem hidx
  have hoid : state.atttypids[i]? = some attr.atttypid := by simp [hbegun.atttypids, hattr]
  refine ⟨idx, field, _, hfield, hname, attributeToBatchCol_valid hok hfield, hcol, fun v => ?_⟩
  cases hconvert : arrowValueToDatum env.convert batch.columns[idx] row attr.atttypid with
  | ok v => simp [formAttribute, hdropped, hbatchCol, hcol, hoid, hconvert, Except.mapError]
  | error e => simp [formAttribute, hdropped, hbatchCol, hcol, hoid, hconvert, Except.mapError]

variable {pgrx : Pgrx Raw} {cols : List SpiColumnInfo} {stream : BatchStream}
  {state : LanceScanState} {batch : RecordBatch} {row : Nat} {spiRow : SpiRow Raw}

theorem formAttribute_written_iff (hdates : env.convert.Dates)
    (htimestamps : env.convert.Timestamps) (hdistinct : (cols.map SpiColumnInfo.name).Nodup)
    (hcols : ∀ col ∈ cols, ∃ formatTypeBe, pgOidToArrowType formatTypeBe col.pgOid =
      .ok col.arrowType)
    (hsource : SourceRow pgrx cols spiRow)
    (hbegun : Begun env (buildArrowSchema cols) tupdesc stream state)
    (hschema : batch.schema = buildArrowSchema cols) (hrow : row < batch.numRows)
    (hwritten : batch.rows.getD row [] = convertRow pgrx cols spiRow) {attr : Attribute} {i : Nat}
    (hattr : tupdesc[i]? = some attr) :
    formAttribute env state batch row attr i = .ok (shownAttribute pgrx cols spiRow attr) ↔
      (attr.attisdropped = false → ∀ col entry, (col, entry) ∈ cols.zip spiRow →
        col.name = attr.attname → entry.Reread pgrx) := by
  cases hdropped : attr.attisdropped with
  | true => simp [formAttribute, shownAttribute, hdropped]
  | false =>
    obtain ⟨idx, field, array, hfield, hname, hvalid, harray, hread⟩ :=
      formAttribute_column hbegun hschema row hattr hdropped
    simp only [buildArrowSchema, List.getElem?_map, Option.map_eq_some_iff] at hfield
    obtain ⟨col, hcol, rfl⟩ := hfield
    obtain ⟨cells, rfl, hcell⟩ := cell_of_row hschema hrow hwritten hcol harray
    obtain ⟨entry, hentry, hoid⟩ := hsource.entry hcol
    have hmem : (col, entry) ∈ cols.zip spiRow :=
      List.mem_of_getElem? (List.getElem?_zip_eq_some.mpr ⟨hcol, hentry⟩)
    rw [← col.arrowType.dataType_eq, BuilderVariant.dataType_eq, validateArrowTypeForPgOid] at hvalid
    obtain ⟨formatTypeBe, htype⟩ := hcols col (List.mem_of_getElem? hcol)
    rw [hread, shownAttribute_column hsource hdistinct hdropped hmem hname,
      arrowValueToDatum_datumCell_iff hdates htimestamps htype hentry hoid
        (hsource.genuine entry (List.mem_of_getElem? hentry)) hcell hvalid]
    constructor
    · intro hreread _ col' entry' hmem' hname'
      cases hsource.eq_of_name hdistinct hmem' hmem (hname'.trans hname.symm)
      exact hreread
    · exact fun h => h rfl col entry hmem hname

theorem formTuple_written_iff (hdates : env.convert.Dates)
    (htimestamps : env.convert.Timestamps) (hdistinct : (cols.map SpiColumnInfo.name).Nodup)
    (hcols : ∀ col ∈ cols, ∃ formatTypeBe, pgOidToArrowType formatTypeBe col.pgOid =
      .ok col.arrowType)
    (hsource : SourceRow pgrx cols spiRow)
    (hbegun : Begun env (buildArrowSchema cols) tupdesc stream state)
    (hschema : batch.schema = buildArrowSchema cols) (hrow : row < batch.numRows)
    (hwritten : batch.rows.getD row [] = convertRow pgrx cols spiRow) :
    formTuple env tupdesc state batch row = .ok (shownTuple pgrx cols tupdesc spiRow) ↔
      RereadRow pgrx cols tupdesc spiRow := by
  have hattribute := fun (attr : Attribute) (i : Nat) (hattr : tupdesc[i]? = some attr) =>
    formAttribute_written_iff hdates htimestamps hdistinct hcols hsource hbegun hschema hrow
      hwritten hattr
  have hfst : tupdesc = tupdesc.zipIdx.map Prod.fst := (List.zipIdx_map_fst 0 tupdesc).symm
  have hshown : shownTuple pgrx cols tupdesc spiRow =
      tupdesc.zipIdx.map fun p => shownAttribute pgrx cols spiRow p.1 := by
    conv_lhs => rw [shownTuple, hfst, List.map_map]
    rfl
  rw [formTuple, hshown, mapM_ok_iff, List.forall₂_map_right_iff, List.forall₂_same]
  constructor
  · intro h attr hattr
    obtain ⟨i, hi⟩ := List.mem_iff_getElem?.mp hattr
    exact (hattribute attr i hi).mp (h (attr, i) (List.mem_zipIdx_iff_getElem?.mpr hi))
  · rintro h ⟨attr, i⟩ hmem
    have hi := List.mem_zipIdx_iff_getElem?.mp hmem
    exact (hattribute attr i hi).mpr (h attr (List.mem_of_getElem? hi))

theorem ReadsRows.positions {rows : List (SpiRow Raw)} {batches : List RecordBatch}
    (h : ReadsRows cols (rows.map (convertRow pgrx cols)) batches) :
    List.Forall₂ (fun p spiRow => (p.1.schema = buildArrowSchema cols ∧ p.2 < p.1.numRows) ∧
      p.1.rows.getD p.2 [] = convertRow pgrx cols spiRow) (positions batches) rows := by
  have hrows := (rows_positions batches).trans h.rows
  rw [← List.forall₂_eq_eq_eq, List.forall₂_map_left_iff, List.forall₂_map_right_iff] at hrows
  refine (List.forall₂_and_left _ _).mpr ⟨?_, hrows⟩
  rintro ⟨batch, row⟩ hmem
  refine ⟨h.schema batch (batch_mem_of_mem_positions hmem), ?_⟩
  simp only [PgLance.positions, RecordBatch.positions, List.mem_flatMap, List.mem_map,
    List.mem_range, Prod.mk.injEq] at hmem
  obtain ⟨_, -, _, hrow, rfl, rfl⟩ := hmem
  exact hrow

theorem scanRun_written_iff (hdates : env.convert.Dates)
    (htimestamps : env.convert.Timestamps) (hdistinct : (cols.map SpiColumnInfo.name).Nodup)
    (hcols : ∀ col ∈ cols, ∃ formatTypeBe, pgOidToArrowType formatTypeBe col.pgOid =
      .ok col.arrowType)
    {rows : List (SpiRow Raw)} (hsource : ∀ row ∈ rows, SourceRow pgrx cols row)
    {first : List RecordBatch} (hreads : ReadsRows cols (rows.map (convertRow pgrx cols)) first)
    (hbegin : beginForeignScan env (buildArrowSchema cols) tupdesc false (.ok (first.map .ok)) =
      .ok (some state)) :
    (∀ calls : List ScanCall, (∀ batches, .restart batches ∈ calls →
        ReadsRows cols (rows.map (convertRow pgrx cols)) batches) →
      (scanRun env tupdesc calls (some state)).1 =
        outputs (fun row => .ok (row.map (shownTuple pgrx cols tupdesc))) rows
          (sinceRestart calls 0)) ↔
      ∀ row ∈ rows, RereadRow pgrx cols tupdesc row := by
  have hbegun := beginForeignScan_ok hbegin
  have hrun := fun calls => scanRun_outputs env tupdesc calls first hbegun.currentBatch hbegun.stream
  have houtputs : ∀ batches, ReadsRows cols (rows.map (convertRow pgrx cols)) batches →
      ((∀ n, outputs (emitted env tupdesc state) (positions batches) n =
        outputs (fun row => .ok (row.map (shownTuple pgrx cols tupdesc))) rows n) ↔
        ∀ row ∈ rows, RereadRow pgrx cols tupdesc row) := by
    intro batches hbatches
    have hpositions := hbatches.positions
    rw [outputs_eq_iff hpositions.length_eq rfl, forall_mem_iff_forall₂ hpositions]
    rintro ⟨batch, row⟩ - spiRow hspi ⟨⟨hschema, hrow⟩, hwritten⟩
    rw [← formTuple_written_iff hdates htimestamps hdistinct hcols (hsource spiRow hspi) hbegun
      hschema hrow hwritten]
    cases htuple : formTuple env tupdesc state batch row <;> simp [emitted, htuple, Except.map]
  constructor
  · intro h
    refine (houtputs first hreads).mp fun n => ?_
    have hn := h (List.replicate n .next) (by simp [List.mem_replicate])
    rw [hrun] at hn
    simpa using hn
  · intro h calls hrestarts
    rw [hrun]
    refine (houtputs _ ?_).mpr h _
    cases lastRestart_mem calls first with
    | inl hfirst => rwa [hfirst]
    | inr hlast => exact hrestarts _ hlast

end

theorem Creation.begins {c : Creation} {σ : LocalCatalog} {rel : Relation} {env : ScanEnv}
    {oidOf : PgType → Oid} {cols : List SpiColumnInfo} (hfields : c.fields = buildArrowSchema cols)
    (hdistinct : (cols.map SpiColumnInfo.name).Nodup)
    (hshort : ∀ col ∈ cols, col.name.utf8ByteSize ≤ 63) (hmade : c.Made rel)
    (hrel : σ.relations[c.place]? = some rel) (hrepresents : σ.Represents env.convert.catalog oidOf)
    (stream : BatchStream) :
    ∃ state, beginForeignScan env (buildArrowSchema cols)
      (rel.columns.map (Column.attribute oidOf)) false (.ok stream) = .ok (some state) := by
  have hleaf : ∀ f ∈ buildArrowSchema cols, ∃ type, f.dataType = .leaf type := by
    intro f hf
    obtain ⟨col, -, rfl⟩ := List.mem_map.mp hf
    exact ⟨_, col.arrowType.dataType_eq.symm.trans (BuilderVariant.dataType_eq _)⟩
  have hnamed : c.WellNamed := by
    rw [← hfields] at hleaf
    refine ⟨?_, ?_, ?_⟩
    · simpa [hfields, buildArrowSchema, Function.comp_def] using hdistinct
    · simpa [hfields, buildArrowSchema] using hshort
    · intro f hf
      obtain ⟨type, htype⟩ := hleaf f hf
      rw [htype]
      exact .leaf type
  have hdeclared : c.Declared σ := by
    intro ty hty
    rw [Creation.structs, hfields, compositesOfColumns, List.mem_flatMap] at hty
    obtain ⟨f, hf, hty⟩ := hty
    obtain ⟨type, htype⟩ := hleaf f hf
    rw [htype] at hty
    cases hty
  have hscannable : ∀ f ∈ c.fields, f.dataType.scannable = true := by
    rw [hfields]
    intro f hf
    obtain ⟨type, htype⟩ := hleaf f hf
    rw [htype]
    rfl
  obtain ⟨node, hnode⟩ := (Creation.begin_iff hnamed hdeclared hmade hrel hrepresents stream).mpr
    hscannable
  rw [hfields] at hnode
  cases node with
  | some state => exact ⟨state, hnode⟩
  | none =>
    simp only [beginForeignScan, Bool.false_eq_true, if_false, createStream, Except.mapError,
      Bind.bind, Except.bind, pure, Except.pure] at hnode
    split at hnode <;> cases hnode

section

variable {pgrx : Pgrx Raw} {cols : List SpiColumnInfo}

/-- The log of the source rows that a run of appends has committed. -/
def logOf (calls : List (AppendCall Raw)) (committed : List (List (SpiRow Raw)))
    (log : Option (List (SpiRow Raw))) : Option (List (SpiRow Raw)) :=
  (calls.zip committed).foldl (fun log p => p.1.commitRows p.2 log) log

theorem mem_logOf {calls : List (AppendCall Raw)} {committed : List (List (SpiRow Raw))}
    {log : Option (List (SpiRow Raw))} {after : List (SpiRow Raw)}
    (h : logOf calls committed log = some after) {row : SpiRow Raw} (hrow : row ∈ after) :
    (∃ p ∈ calls.zip committed, row ∈ p.2) ∨ ∃ before, log = some before ∧ row ∈ before := by
  unfold logOf at h
  generalize calls.zip committed = ps at h ⊢
  induction ps generalizing log with
  | nil => exact .inr ⟨after, h, hrow⟩
  | cons p ps ih =>
    rcases ih h with ⟨q, hq, hmem⟩ | ⟨before, hbefore, hmem⟩
    · exact .inl ⟨q, List.mem_cons_of_mem _ hq, hmem⟩
    · exact (AppendCall.mem_commitRows hbefore hmem).imp (fun hp => ⟨p, by simp, hp⟩) id

theorem commitAll_map {ps : List (AppendCall Raw × List (SpiRow Raw))} {write : SpiRow Raw → Row}
    (hwritten : ∀ p ∈ ps, ∀ rows, p.1.written rows = rows.map write)
    (log : Option (List (SpiRow Raw))) :
    commitAll ps (log.map (List.map write)) =
      (ps.foldl (fun log p => p.1.commitRows p.2 log) log).map (List.map write) := by
  induction ps generalizing log with
  | nil => rfl
  | cons p ps ih =>
    rw [List.forall_mem_cons] at hwritten
    rw [commitAll, List.foldl_cons, List.foldl_cons, AppendCall.commit_map hwritten.1]
    exact ih hwritten.2 _

theorem runAppends_logOf (calls : List (AppendCall Raw))
    (hl : ∀ call ∈ calls, call.lance.LawfulWrite)
    (hcols : ∀ call ∈ calls, call.env.pgrx = pgrx ∧
      deriveColumns call.env call.source.columns none = .ok cols) :
    ∃ committed, Commits calls (runAppends calls none).1 committed none ∧
      (runAppends calls none).2.map Dataset.rows =
        (logOf calls committed none).map (List.map (convertRow pgrx cols)) := by
  obtain ⟨committed, hcommits, hlog⟩ := runAppends_commits calls none hl
  refine ⟨committed, hcommits, hlog.trans (commitAll_map ?_ none)⟩
  intro p hp rows
  obtain ⟨hpgrx, hderived⟩ := hcols p.1 (List.of_mem_zip hp).1
  rw [AppendCall.written, writtenRows, hderived, hpgrx]

theorem sourceRow_of_mem {call : AppendCall Raw}
    (hcols : deriveColumns call.env call.source.columns none = .ok cols) {row : SpiRow Raw}
    (hrow : row ∈ call.source.rows) (hgenuine : ∀ entry ∈ row, entry.Genuine pgrx) :
    SourceRow pgrx cols row := by
  refine ⟨?_, hgenuine⟩
  rw [call.source.typed row hrow, ← (map_source_deriveColumns hcols).2, List.map_map]
  rfl

theorem pgOidToArrowType_of_deriveColumns {env : Env Raw} {columns : List SpiColumn}
    (h : deriveColumns env columns none = .ok cols) :
    ∀ col ∈ cols, pgOidToArrowType env.formatTypeBe col.pgOid = .ok col.arrowType := by
  simp only [deriveColumns, Bind.bind, Except.bind, pure, Except.pure] at h
  split at h
  · cases h
  · next hextract =>
    cases h
    exact (extractSpiColumns_ok hextract).2.2

end

/-- From appends to scans: however a run of append calls went, a table on the dataset shows the rows
that were committed, in order and each once, in every interleaving of its scan and whatever the
batches, exactly if the dates in its columns are from the years 1 to 262142.  A table that was made
for the dataset can always be scanned. -/
theorem runAppends_scans (pgrx : Pgrx Raw) (cols : List SpiColumnInfo)
    (calls : List (AppendCall Raw)) (hl : ∀ call ∈ calls, call.lance.LawfulWrite)
    (hcols : ∀ call ∈ calls, call.env.pgrx = pgrx ∧
      deriveColumns call.env call.source.columns none = .ok cols)
    (hgenuine : ∀ call ∈ calls, ∀ row ∈ call.source.rows, ∀ entry ∈ row, entry.Genuine pgrx)
    (hdistinct : (cols.map SpiColumnInfo.name).Nodup) :
    ∃ committed, Commits calls (runAppends calls none).1 committed none ∧
      (runAppends calls none).2.map Dataset.rows =
        (logOf calls committed none).map (List.map (convertRow pgrx cols)) ∧
      ∀ dataset rows, (runAppends calls none).2 = some dataset →
        logOf calls committed none = some rows → ∀ (env : ScanEnv),
        (env.convert.Dates → env.convert.Timestamps → ∀ tupdesc first state,
          ReadsRows cols dataset.rows first →
          beginForeignScan env (buildArrowSchema cols) tupdesc false (.ok (first.map .ok)) =
            .ok (some state) →
          ((∀ scanCalls : List ScanCall,
            (∀ batches, .restart batches ∈ scanCalls → ReadsRows cols dataset.rows batches) →
            (scanRun env tupdesc scanCalls (some state)).1 =
              outputs (fun row => .ok (row.map (shownTuple pgrx cols tupdesc))) rows
                (sinceRestart scanCalls 0)) ↔
            ∀ row ∈ rows, RereadRow pgrx cols tupdesc row)) ∧
        ∀ (c : Creation) (σ : LocalCatalog) rel oidOf stream, c.fields = buildArrowSchema cols →
          (∀ col ∈ cols, col.name.utf8ByteSize ≤ 63) → c.Made rel →
          σ.relations[c.place]? = some rel → σ.Represents env.convert.catalog oidOf →
          ∃ state, beginForeignScan env (buildArrowSchema cols)
            (rel.columns.map (Column.attribute oidOf)) false (.ok stream) = .ok (some state) := by
  obtain ⟨committed, hcommitted, hlog⟩ := runAppends_logOf calls hl hcols
  refine ⟨committed, hcommitted, hlog, ?_⟩
  intro dataset rows hdataset hrows env
  refine ⟨?_, fun c σ rel oidOf stream hfields hshort hmade hrel hrepresents =>
    Creation.begins hfields hdistinct hshort hmade hrel hrepresents stream⟩
  intro hdates htimestamps tupdesc first state hreads hbegin
  have hdatasetRows : dataset.rows = rows.map (convertRow pgrx cols) := by
    simpa [hdataset, hrows] using hlog
  rw [hdatasetRows] at hreads ⊢
  have hsource : ∀ row ∈ rows, SourceRow pgrx cols row := by
    intro row hrow
    rcases mem_logOf hrows hrow with ⟨⟨call, committedRows⟩, hmem, hrow⟩ | ⟨before, hbefore, -⟩
    · have hcall := (List.of_mem_zip hmem).1
      have hsourceRow := (hcommitted.prefix_of_mem hmem).subset hrow
      exact sourceRow_of_mem (hcols call hcall).2 hsourceRow (hgenuine call hcall row hsourceRow)
    · cases hbefore
  have htypes : ∀ col ∈ cols, ∃ formatTypeBe, pgOidToArrowType formatTypeBe col.pgOid =
      .ok col.arrowType := by
    cases calls with
    | nil => cases hrows
    | cons call calls =>
      intro col hcol
      exact ⟨_, pgOidToArrowType_of_deriveColumns (hcols call (by simp)).2 col hcol⟩
  exact scanRun_written_iff hdates htimestamps hdistinct htypes hsource hreads hbegin

def ResultSet.dated (rows : List (Int × Int)) (h : rows.length < cLongMax) : ResultSet Int where
  columns := [⟨"id", int4Oid⟩, ⟨"day", dateOid⟩]
  rows := rows.map fun (id, day) => [⟨int4Oid, some id⟩, ⟨dateOid, some day⟩]
  error := none
  typed row hrow := by
    obtain ⟨_, _, rfl⟩ := List.mem_map.mp hrow
    rfl
  countable := by simpa using h

def SpiColumnInfo.of (name : String) (pgOid : Oid) (variant : BuilderVariant) : SpiColumnInfo :=
  ⟨name, pgOid, variant.dataType, variant, rfl⟩

def datedCols : List SpiColumnInfo := [.of "id" int4Oid .int32, .of "day" dateOid .date32]

def datedAppends : List (AppendCall Int) :=
  [⟨.sample ⟨0, 1, true⟩, .sample, .sample fun _ => none, "/d", .dated [(1, 0)] (by decide),
      "create", 2, none⟩,
    ⟨.sample ⟨0, 1, true⟩, .sample, .sample fun _ => none, "/d", .dated [(2, -730119)] (by decide),
      "append", 2, none⟩]

def datedEnv : ScanEnv :=
  { ScanEnv.sample with
    convert := { datesEnv with
      timestampTryFrom := timestampsEnv.timestampTryFrom
      timestampWithTimeZoneTryFrom := timestampsEnv.timestampWithTimeZoneTryFrom } }

/-- 2000-01-01 and 0001-01-01. -/
def RecordBatch.dated : RecordBatch where
  schema := buildArrowSchema datedCols
  columns := [.primitive .int32 [some (.int 1), some (.int 2)],
    .primitive .date32 [some (.int 10957), some (.int (-719162))]]
  numRows := 2
  types := rfl
  lengths := by simp [ArrowArray.len]

def datedTupdesc : List Attribute := [⟨"day", dateOid, false⟩, ⟨"id", int4Oid, false⟩]

theorem datedEnv_dates : datedEnv.convert.Dates where
  epochDays := datesEnv_dates.epochDays
  millis := datesEnv_dates.millis
  dateNew := datesEnv_dates.dateNew
  yearZero := datesEnv_dates.yearZero
  beforeChrist := datesEnv_dates.beforeChrist

theorem datedEnv_timestamps : datedEnv.convert.Timestamps where
  accepts := timestampsEnv_timestamps.accepts
  rejects := timestampsEnv_timestamps.rejects
  acceptsTz := timestampsEnv_timestamps.acceptsTz
  rejectsTz := timestampsEnv_timestamps.rejectsTz

theorem dated_begins : ∃ state, beginForeignScan datedEnv (buildArrowSchema datedCols) datedTupdesc
    false (.ok [.ok .dated]) = .ok (some state) :=
  ⟨⟨[.ok .dated], none, 0, [dateOid, int4Oid], [some "day", some "id"], [some 1, some 0]⟩, rfl⟩

theorem genuine_int4 (i : Int) : (⟨int4Oid, some i⟩ : SpiEntry Int).Genuine Pgrx.sample := by
  have herror : ∀ type v, type.typeOid ≠ int4Oid → type ≠ .string →
      Pgrx.sample.value type ⟨int4Oid, some i⟩ ≠ .ok (some v) := by
    intro type v hoid hstring
    simp [Pgrx.sample, Pgrx.value, hoid, hstring]
  exact ⟨fun v h => absurd h (herror .date v (by decide) (by decide)),
    fun v h => absurd h (herror .timestamp v (by decide) (by decide)),
    fun v h => absurd h (herror .timestampWithTimeZone v (by decide) (by decide))⟩

theorem genuine_date {day : Int} (hmin : -2 ^ 31 ≤ day) (hmax : day + 10957 < 2 ^ 31) :
    (⟨dateOid, some day⟩ : SpiEntry Int).Genuine Pgrx.sample := by
  have herror : ∀ type v, type.typeOid ≠ dateOid → type ≠ .string →
      Pgrx.sample.value type ⟨dateOid, some day⟩ ≠ .ok (some v) := by
    intro type v hoid hstring
    simp [Pgrx.sample, Pgrx.value, hoid, hstring]
  refine ⟨?_, fun v h => absurd h (herror .timestamp v (by decide) (by decide)),
    fun v h => absurd h (herror .timestampWithTimeZone v (by decide) (by decide))⟩
  intro v h
  have hday : (Except.ok (some day) : Except String (Option Int)) = .ok (some v) := h
  cases hday
  refine ⟨hmin, by omega, ?_⟩
  have hdays : (day + (postgresEpochDay - unixEpochDay)).bmod (2 ^ 32) = day + 10957 := by
    rw [postgresEpochDay, unixEpochDay, Int.bmod_def]
    split <;> omega
  rw [hdays]
  rfl

def datedRows : List (SpiRow Int) :=
  [[⟨int4Oid, some 1⟩, ⟨dateOid, some 0⟩], [⟨int4Oid, some 2⟩, ⟨dateOid, some (-730119)⟩]]

theorem dated_reread : ∀ row ∈ datedRows, RereadRow Pgrx.sample datedCols datedTupdesc row := by
  have hreread : ∀ day : Int, CommonEra day →
      (⟨dateOid, some day⟩ : SpiEntry Int).Reread Pgrx.sample := by
    intro day hera _ v h
    have hday : (Except.ok (some day) : Except String (Option Int)) = .ok (some v) := h
    cases hday
    exact hera
  intro row hrow attr _ _ col entry hmem _
  have hentry := (List.of_mem_zip hmem).2
  simp only [datedRows, List.mem_cons, List.not_mem_nil, or_false] at hrow
  rcases hrow with rfl | rfl
  all_goals
    simp only [List.mem_cons, List.not_mem_nil, or_false] at hentry
    rcases hentry with rfl | rfl
    · exact fun hoid => absurd hoid (by decide)
    · exact hreread _ (by decide)

theorem runAppends_scans_dated : ∃ state, beginForeignScan datedEnv (buildArrowSchema datedCols)
      datedTupdesc false (.ok [.ok .dated]) = .ok (some state) ∧
    (scanRun datedEnv datedTupdesc [.next, .next, .next] (some state)).1 =
      [.ok (some [some (.date 0), some (.int4 1)]),
        .ok (some [some (.date (-730119)), some (.int4 2)]), .ok none] := by
  obtain ⟨state, hbegin⟩ := dated_begins
  refine ⟨state, hbegin, ?_⟩
  have hlawful : ∀ call ∈ datedAppends, call.lance.LawfulWrite := by
    simp [datedAppends, Lance.sample_lawfulWrite]
  have hcols : ∀ call ∈ datedAppends, call.env.pgrx = Pgrx.sample ∧
      deriveColumns call.env call.source.columns none = .ok datedCols := by
    simp only [datedAppends, List.forall_mem_cons]
    exact ⟨⟨rfl, rfl⟩, ⟨rfl, rfl⟩, by simp⟩
  have hgenuine : ∀ call ∈ datedAppends, ∀ row ∈ call.source.rows, ∀ entry ∈ row,
      entry.Genuine Pgrx.sample := by
    simp only [datedAppends, ResultSet.dated, List.forall_mem_cons, List.map_cons, List.map_nil]
    simp [genuine_int4, genuine_date]
  obtain ⟨committed, hcommitted, hlog, hscans⟩ :=
    runAppends_scans Pgrx.sample datedCols datedAppends hlawful hcols hgenuine (by decide)
  have hresults : (runAppends datedAppends none).1 = [.ok (1, 0), .ok (1, 0)] := by decide +kernel
  have hrows : logOf datedAppends committed none = some datedRows := by
    have hpieces := hcommitted.pieces
    rw [hresults] at hpieces
    cases hpieces with
    | cons hfirst hrest =>
      cases hrest with
      | cons hsecond hnil =>
        cases hnil
        cases hfirst.2 _ rfl
        cases hsecond.2 _ rfl
        rfl
  rw [hrows, Option.map_some, Option.map_eq_some_iff] at hlog
  obtain ⟨dataset, hdataset, hwritten⟩ := hlog
  have hreads : ReadsRows datedCols dataset.rows [.dated] := by
    refine ⟨by simp [RecordBatch.dated], ?_⟩
    rw [hwritten]
    decide
  have hscan := ((hscans dataset datedRows hdataset hrows datedEnv).1 datedEnv_dates
    datedEnv_timestamps datedTupdesc [.dated] state hreads hbegin).mpr dated_reread
      [.next, .next, .next] (by simp)
  rw [hscan]
  rfl

end PgLance
