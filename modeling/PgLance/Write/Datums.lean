import PgLance.Write.AppendLaws
import PgLance.Write.MergeLaws

/-! What becomes of a source datum: the cell that `append_datum` makes of it. -/

namespace PgLance

open Chunks

variable {Raw : Type}

def datumType (variant : BuilderVariant) (pgOid : Oid) : RustType :=
  match variant with
  | .boolean => .bool
  | .int16 => .i16
  | .int32 => .i32
  | .int64 => .i64
  | .float32 => .f32
  | .float64 => .f64
  | .utf8 =>
    match pgOid with
    | numericOid => .anyNumeric
    | jsonbOid => .jsonB
    | jsonOid => .json
    | uuidOid => .uuid
    | _ => .string
  | .binary => .vecU8
  | .date32 =>
    match pgOid with
    | int4Oid => .i32
    | _ => .date
  | .timestampMicro =>
    match pgOid with
    | int8Oid => .i64
    | _ => .timestamp
  | .timestampMicroUtc =>
    match pgOid with
    | int8Oid => .i64
    | _ => .timestampWithTimeZone

theorem readCell_ne_none_iff {pgrx : Pgrx Raw} (hp : pgrx.Lawful) (type : RustType)
    (wrap : type.Val → Scalar) {row : SpiRow Raw} {colIndex : Nat} {entry : SpiEntry Raw}
    (hentry : row[colIndex]? = some entry) (hdatum : entry.datum ≠ none) :
    readCell pgrx type wrap row colIndex ≠ none ↔
      pgrx.isCompatibleWith type entry.typeOid = true := by
  cases hraw : entry.datum with
  | none => exact absurd hraw hdatum
  | some raw =>
    cases hcompatible : pgrx.isCompatibleWith type entry.typeOid with
    | false =>
      obtain ⟨e, he⟩ := hp.incompatible type entry.typeOid raw hcompatible
      simp [readCell, getDatumByOrdinal, hentry, Pgrx.value, hraw, he]
    | true =>
      obtain ⟨v, hv⟩ := hp.compatible type entry.typeOid raw hcompatible
      simp [readCell, getDatumByOrdinal, hentry, Pgrx.value, hraw, hv]

theorem datumCell_ne_none_iff {pgrx : Pgrx Raw} (hp : pgrx.Lawful) (variant : BuilderVariant)
    {row : SpiRow Raw} {colIndex : Nat} {entry : SpiEntry Raw}
    (hentry : row[colIndex]? = some entry) (hdatum : entry.datum ≠ none) (pgOid : Oid) :
    datumCell pgrx variant row colIndex pgOid ≠ none ↔
      pgrx.isCompatibleWith (datumType variant pgOid) entry.typeOid = true := by
  have hread := fun type wrap => readCell_ne_none_iff hp type wrap hentry hdatum
  fun_cases datumType variant pgOid <;> simp only [datumCell, *] <;> exact hread _ _

def KeepsValues (env : Env Raw) (source : ResultSet Raw)
    (typeOverrides : Option ArrowTypeOverrides) : Prop :=
  ∀ row written, (row, written) ∈ source.rows.zip (sourceRows env source typeOverrides) →
    ∀ (i : Nat) (entry : SpiEntry Raw), row[i]? = some entry → entry.datum ≠ none →
      ∃ name v, written[i]? = some (name, v) ∧ v ≠ .null

def Readable (env : Env Raw) (source : ResultSet Raw)
    (typeOverrides : Option ArrowTypeOverrides) : Prop :=
  ∀ cols, deriveColumns env source.columns typeOverrides = .ok cols →
    ∀ (i : Nat) (col : SpiColumnInfo), cols[i]? = some col →
      (∃ row ∈ source.rows, ∃ entry, row[i]? = some entry ∧ entry.datum ≠ none) →
      env.pgrx.isCompatibleWith (datumType col.arrowType.variant col.pgOid) col.pgOid = true

section

variable {env : Env Raw} {source : ResultSet Raw} {typeOverrides : Option ArrowTypeOverrides}
  {cols : List SpiColumnInfo}

theorem typeOid_of_entry (hcols : deriveColumns env source.columns typeOverrides = .ok cols)
    {row : SpiRow Raw} (hrow : row ∈ source.rows) {i : Nat} {entry : SpiEntry Raw}
    (hentry : row[i]? = some entry) :
    ∃ col, cols[i]? = some col ∧ entry.typeOid = col.pgOid := by
  have htyped := source.typed row hrow
  rw [← (map_source_deriveColumns hcols).2, List.map_map] at htyped
  have hi := congrArg (fun oids : List Oid => oids[i]?) htyped
  simp only [List.getElem?_map, hentry, Option.map_some] at hi
  cases hcol : cols[i]? with
  | none => simp [hcol] at hi
  | some col => exact ⟨col, rfl, by simpa [hcol, SpiColumnInfo.source] using hi⟩

theorem getElem?_convertRow (pgrx : Pgrx Raw) (row : SpiRow Raw) {i : Nat} {col : SpiColumnInfo}
    (hcol : cols[i]? = some col) :
    (convertRow pgrx cols row)[i]? =
      some (col.name, cellValue (datumCell pgrx col.arrowType.variant row i col.pgOid)) := by
  simp [convertRow, hcol]

theorem cellValue_ne_null {cell : Option Scalar} : cellValue cell ≠ .null ↔ cell ≠ none := by
  cases cell <;> simp [cellValue]

theorem mem_zip_sourceRows (hcols : deriveColumns env source.columns typeOverrides = .ok cols)
    {row : SpiRow Raw} {written : Row} :
    (row, written) ∈ source.rows.zip (sourceRows env source typeOverrides) ↔
      row ∈ source.rows ∧ written = convertRow env.pgrx cols row := by
  have hzip : source.rows.zip (source.rows.map (convertRow env.pgrx cols)) =
      source.rows.map fun row => (row, convertRow env.pgrx cols row) := by
    simpa using List.zip_map' (f := id) (g := convertRow env.pgrx cols) (l := source.rows)
  simp only [sourceRows, writtenRows, hcols, hzip, List.mem_map]
  constructor
  · rintro ⟨r, hr, h⟩
    cases h
    exact ⟨hr, rfl⟩
  · rintro ⟨hrow, rfl⟩
    exact ⟨row, hrow, rfl⟩

theorem keepsValues_iff (hp : env.pgrx.Lawful) :
    KeepsValues env source typeOverrides ↔ Readable env source typeOverrides := by
  constructor
  · intro h cols hcols i col hcol hexists
    obtain ⟨row, hrow, entry, hentry, hdatum⟩ := hexists
    obtain ⟨name, v, hwritten, hv⟩ :=
      h row _ ((mem_zip_sourceRows hcols).mpr ⟨hrow, rfl⟩) i entry hentry hdatum
    rw [getElem?_convertRow env.pgrx row hcol] at hwritten
    cases hwritten
    obtain ⟨col', hcol', hoid⟩ := typeOid_of_entry hcols hrow hentry
    cases hcol.symm.trans hcol'
    rw [← hoid, ← datumCell_ne_none_iff hp _ hentry hdatum, hoid]
    exact cellValue_ne_null.mp hv
  · intro h row written hmem i entry hentry hdatum
    cases hcols : deriveColumns env source.columns typeOverrides with
    | error e => simp [sourceRows, writtenRows, hcols] at hmem
    | ok cols =>
      obtain ⟨hrow, rfl⟩ := (mem_zip_sourceRows hcols).mp hmem
      obtain ⟨col, hcol, hoid⟩ := typeOid_of_entry hcols hrow hentry
      refine ⟨_, _, getElem?_convertRow env.pgrx row hcol, ?_⟩
      rw [cellValue_ne_null, datumCell_ne_none_iff hp _ hentry hdatum, hoid]
      exact h cols hcols i col hcol ⟨row, hrow, entry, hentry, hdatum⟩

theorem isCompatibleWith_pgOidToArrowType (hp : env.pgrx.Lawful) {oid : Oid} {type : WritableType}
    (h : pgOidToArrowType env.formatTypeBe oid = .ok type) :
    env.pgrx.isCompatibleWith (datumType type.variant oid) oid = true := by
  unfold pgOidToArrowType at h
  split at h
  all_goals first
    | (cases h; first | exact hp.own _ | exact hp.varchar)
    | cases h

theorem readable_extractSpiColumns (hp : env.pgrx.Lawful) : Readable env source none := by
  intro cols hcols i col hcol _
  simp only [deriveColumns, Bind.bind, Except.bind, pure, Except.pure] at hcols
  split at hcols
  · cases hcols
  · next columns hextract =>
    cases hcols
    exact isCompatibleWith_pgOidToArrowType hp
      ((extractSpiColumns_ok hextract).2.2 col (List.mem_of_getElem? hcol))

end

/-- A write without overrides keeps every datum.  A merge with overrides that returns keeps
them exactly when the builders of its columns read the types of the source. -/
theorem lanceMergeInsertWithSchema_keepsValues_iff (env : Env Raw) (host : Host) (lance : Lance)
    (uri : String) (source : ResultSet Raw) (batchSize : Int) (serverName : Option String)
    (before after : Option Dataset) (hp : env.pgrx.Lawful) (hl : lance.LawfulWrite) :
    (∀ mode v, lanceAppend env host lance uri source mode batchSize serverName before =
        (.ok v, after) →
      (source.rows ≠ [] → ModeContract mode (sourceRows env source none) before after) ∧
        KeepsValues env source none) ∧
    (∀ onColumns columnTypes whenMatched whenNotMatched row,
      lanceMergeInsertWithSchema env host lance uri source onColumns columnTypes whenMatched
        whenNotMatched batchSize serverName before = (.ok row, after) →
      ∃ typeOverrides pieces, parseArrowTypeOverrides columnTypes = .ok typeOverrides ∧
        pieces.flatten = source.rows ∧
        AppliedTo env lance source onColumns whenMatched whenNotMatched (i32AsUsize batchSize)
          (some typeOverrides) pieces before after ∧
        (KeepsValues env source (some typeOverrides) ↔
          Readable env source (some typeOverrides))) := by
  constructor
  · intro mode v h
    refine ⟨?_, (keepsValues_iff hp).mpr (readable_extractSpiColumns hp)⟩
    intro hsource
    exact (lanceAppend_stores hl h).2.2 hsource
  · intro onColumns columnTypes whenMatched whenNotMatched row h
    unfold lanceMergeInsertWithSchema at h
    cases hoverrides : parseArrowTypeOverrides columnTypes with
    | error e => simp [hoverrides] at h
    | ok typeOverrides =>
      simp only [hoverrides, lanceMergeInsertWithSchemaImpl] at h
      refine ⟨typeOverrides, chunks (fetchCountOf env.settings.writeChunkRows) source.rows, rfl,
        flatten_chunks _ _, ?_, keepsValues_iff hp⟩
      cases lanceMergeInsertImplInner_cases env host lance uri source onColumns whenMatched
          whenNotMatched (i32AsUsize batchSize) serverName (some typeOverrides) before with
      | inl hcase =>
        obtain ⟨e, he⟩ := hcase
        rw [he] at h
        cases h
      | inr hcase =>
        rw [hcase.2] at h
        cases hresult : (mergeRun env host lance uri source onColumns whenMatched whenNotMatched
            (i32AsUsize batchSize) serverName (some typeOverrides) before).1 with
        | error e => simp [mergeResult, hresult, Except.mapError, Except.map] at h
        | ok _ =>
          rw [Prod.mk.injEq] at h
          rw [← h.2]
          exact (mergeRun_ok hl.load hresult).1

def ResultSet.labelled (rows : List (Int × Int)) (h : rows.length < cLongMax) : ResultSet Int where
  columns := [⟨"id", int4Oid⟩, ⟨"label", int4Oid⟩]
  rows := rows.map fun (id, label) => [⟨int4Oid, some id⟩, ⟨int4Oid, some label⟩]
  error := none
  typed row hrow := by
    obtain ⟨_, _, rfl⟩ := List.mem_map.mp hrow
    rfl
  countable := by simpa using h

theorem lanceMergeInsertWithSchema_keepsValues_iff_sample :
    KeepsValues (Env.sample ⟨0, 1, true⟩) (.sample [1, 2] none (by decide)) none ∧
    ∃ typeOverrides, parseArrowTypeOverrides (.object [("label", .string "date32")]) =
        .ok typeOverrides ∧
      (KeepsValues (Env.sample ⟨0, 1, true⟩) (.labelled [(1, 42)] (by decide))
        (some typeOverrides) ↔
        Readable (Env.sample ⟨0, 1, true⟩) (.labelled [(1, 42)] (by decide))
          (some typeOverrides)) :=
  have happend := (lanceMergeInsertWithSchema_keepsValues_iff (Env.sample ⟨0, 1, true⟩) Host.sample
    (Lance.sample fun _ => none) "/d" (.sample [1, 2] none (by decide)) 2 none
    (some (.sample [0])) _ Pgrx.sample_lawful (Lance.sample_lawfulWrite _)).1 "append" (2, 0)
    (Prod.ext (by decide +kernel) rfl)
  have hmerge := (lanceMergeInsertWithSchema_keepsValues_iff (Env.sample ⟨0, 1, true⟩) Host.sample
    (Lance.sample fun _ => none) "/d" (.labelled [(1, 42)] (by decide)) 2 none
    (some ⟨["id", "label"], []⟩) _ Pgrx.sample_lawful (Lance.sample_lawfulWrite _)).2 ["id"]
    (.object [("label", .string "date32")]) "update" "insert" ⟨1, none, none, 0, 1, 1⟩
    (Prod.ext (by decide +kernel) rfl)
  ⟨happend.2, hmerge.imp fun _ h => h.elim fun _ h => ⟨h.1, h.2.2.2⟩⟩

/-- An `int4` column written as text: every datum of it is lost, and the call returns. -/
theorem lanceMergeInsertWithSchema_loses_datum :
    lanceMergeInsertWithSchema (Env.sample ⟨0, 1, true⟩) Host.sample
        (Lance.sample fun _ => none) "/d" (.labelled [(1, 42)] (by decide)) ["id"]
        (.object [("label", .string "text")]) "update"
        "insert" 1024 none (some ⟨["id", "label"], []⟩) =
      (.ok ⟨1, none, none, 0, 1, 1⟩,
        some ⟨["id", "label"], [[("id", .scalar (.int 1)), ("label", .null)]]⟩) ∧
    ∃ typeOverrides, parseArrowTypeOverrides (.object [("label", .string "text")]) =
        .ok typeOverrides ∧
      ¬ KeepsValues (Env.sample ⟨0, 1, true⟩) (.labelled [(1, 42)] (by decide))
        (some typeOverrides) := by
  have hlower : "text".toLower = "text" := by decide +kernel
  refine ⟨by decide +kernel, (∅ : ArrowTypeOverrides).insert "label" ⟨.leaf .utf8, .utf8, rfl⟩,
    by simp [parseArrowTypeOverrides, parseArrowTypeName, hlower, Bind.bind, Except.bind, pure,
      Except.pure], ?_⟩
  intro h
  have hrows : sourceRows (Env.sample ⟨0, 1, true⟩) (.labelled [(1, 42)] (by decide))
      (some ((∅ : ArrowTypeOverrides).insert "label" ⟨.leaf .utf8, .utf8, rfl⟩)) =
        [[("id", .scalar (.int 1)), ("label", .null)]] := by decide
  obtain ⟨name, v, hwritten, hv⟩ := h [⟨int4Oid, some 1⟩, ⟨int4Oid, some 42⟩]
    [("id", .scalar (.int 1)), ("label", .null)] (by rw [hrows]; simp [ResultSet.labelled]) 1
    ⟨int4Oid, some 42⟩ rfl (by decide)
  cases hwritten
  exact hv rfl

end PgLance
