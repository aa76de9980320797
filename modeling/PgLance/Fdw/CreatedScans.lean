import PgLance.Fdw.DriftScan
import PgLance.Fdw.OptionRuns

/-! Scans of the tables that imports, attaches and syncs made. -/

namespace PgLance

section

variable {schema table : String} {σ : LocalCatalog}

theorem readType_brackets {ty : String} {t : PgType} (h : readType schema (ty ++ "[]") = some t) :
    t.array = true ∧ ∃ t', readType schema ty = some t' ∧ t'.name = t.name := by
  have hname : (readType schema ty).map PgType.name = some t.name := by
    rw [← readType_array, h, Option.map_some]
  obtain ⟨t', ht', heq⟩ := Option.map_eq_some_iff.mp hname
  refine ⟨?_, t', ht', heq⟩
  have hsplit := Text.splitArrays_append_brackets ty.toList
  simp only [readType, String.toList_append, show "[]".toList = ['[', ']'] from rfl, hsplit] at h
  split at h
  · cases h
    simp
  · obtain ⟨type, -, rfl⟩ := Option.map_eq_some_iff.mp h
    simp

theorem ofName_cases : ∀ name ∈ baseTypes.map Prod.fst,
    (BaseType.ofName name = some .jsonb ↔ name = "jsonb") ∧
      BaseType.ofName name ≠ some .int2vector ∧ BaseType.ofName name ≠ some .oidvector := by
  decide

theorem readType_baseTypes {name : String} (hname : name ∈ baseTypes.map Prod.fst) {ty : PgType}
    (h : readType schema name = some ty) :
    ty.array = false ∧ (ty.name = .base .jsonb ↔ name = "jsonb") ∧
      ty.name ≠ .base .int2vector ∧ ty.name ≠ .base .oidvector := by
  rw [readType_base schema hname] at h
  obtain ⟨type, htype, rfl⟩ := Option.map_eq_some_iff.mp h
  have hcases := ofName_cases name hname
  simp only [htype, Option.some.injEq, ne_eq] at hcases
  simpa using hcases

theorem readType_declaredType (dt : DataType) (path : String) {ty : PgType}
    (h : readType schema (declaredType table dt path) = some ty) :
    ty.array = dt.isList ∧ (ty.name = .base .jsonb ↔ dt.element.isJsonb = true) ∧
      ty.name ≠ .base .int2vector ∧ ty.name ≠ .base .oidvector := by
  induction dt generalizing path ty with
  | leaf type =>
    simpa [DataType.isList, DataType.element, DataType.isJsonb] using
      readType_baseTypes (pgTypeForLeaf_mem type) h
  | list kind elem ih =>
    obtain ⟨harray, elemTy, helem, hname⟩ := readType_brackets h
    obtain ⟨-, hnames⟩ := ih _ helem
    rw [hname] at hnames
    exact ⟨harray, hnames⟩
  | struct fields ih =>
    rw [declaredType, readType_composite] at h
    cases h
    simp [DataType.isList, DataType.element, DataType.isJsonb]
  | map entries sorted ih =>
    simpa [DataType.isList, DataType.element, DataType.isJsonb] using
      readType_baseTypes (show "jsonb" ∈ baseTypes.map Prod.fst by decide) h
  | dictionary key value ihk ihv => exact ihv _ h

theorem takes_list_iff {dt : DataType} (hlist : dt.isList = true) {name : TypeName}
    (hnames : name ≠ .base .int2vector ∧ name ≠ .base .oidvector) :
    σ.Takes dt ⟨name, false⟩ ↔ name = .base .jsonb := by
  induction dt with
  | list kind elem ih =>
    constructor
    · intro htakes
      cases htakes with
      | listJsonb => rfl
      | list helem =>
        rw [PgType.elementType] at helem
        simp [hnames] at helem
    · rintro rfl
      exact .listJsonb kind elem
  | dictionary key value ihk ihv =>
    rw [← ihv hlist]
    constructor
    · intro htakes
      cases htakes with
      | dictionary htakes => exact htakes
    · exact .dictionary
  | leaf | struct | map => cases hlist

theorem readColumns_declared {fields : List Field} (hshort : ∀ f ∈ fields, f.name.utf8ByteSize ≤ 63)
    {text : Field → String} {columns : List Column}
    (h : (fields.map fun f => (f.name, text f)).mapM (readColumn schema) = some columns) :
    List.Forall₂ (fun f column => column.name = f.name ∧ column.dropped = false ∧
      readType schema (text f) = some column.type) fields columns := by
  induction fields generalizing columns with
  | nil =>
    cases h
    exact .nil
  | cons f fields ih =>
    rw [List.forall_mem_cons] at hshort
    rw [List.map_cons, List.mapM_cons] at h
    obtain ⟨column, hcolumn, h⟩ := Option.bind_eq_some_iff.mp h
    obtain ⟨rest, hrest, h⟩ := Option.bind_eq_some_iff.mp h
    cases h
    refine .cons ?_ (ih hshort.2 hrest)
    obtain ⟨type, htype, rfl⟩ := Option.map_eq_some_iff.mp hcolumn
    exact ⟨truncateIdentifier_of_le hshort.1, rfl, htype⟩

theorem find_of_mem {fields : List Field} (hdistinct : (fields.map FieldOf.name).Nodup) {f : Field}
    (hf : f ∈ fields) : fields.find? (fun g => g.name = f.name) = some f := by
  cases hfind : fields.find? (fun g => g.name = f.name) with
  | none =>
    have hne := List.find?_eq_none.mp hfind f hf
    simp at hne
  | some g =>
    have hname : g.name = f.name := by simpa using List.find?_some hfind
    rw [List.inj_on_of_nodup_map hdistinct (List.mem_of_find?_eq_some hfind) hf hname]

/-- Where its structs are declared, a declared type takes the values of the Arrow type that it was
declared for exactly when that type is scannable. -/
theorem takes_declaredType_iff {dt : DataType} (hnamed : dt.WellNamed) {path : String}
    (hstructs : ∀ ty ∈ compositesOf table dt path, ty.There schema σ) {ty : PgType}
    (hread : readType schema (declaredType table dt path) = some ty) :
    σ.Takes dt ty ↔ dt.scannable = true := by
  induction dt generalizing path ty with
  | leaf type =>
    rw [declaredType, readType_base schema (pgTypeForLeaf_mem type)] at hread
    obtain ⟨base, hbase, rfl⟩ := Option.map_eq_some_iff.mp hread
    exact iff_of_true (.leaf hbase) rfl
  | list kind elem ih =>
    obtain ⟨elemName, elem, nullable⟩ := elem
    obtain ⟨name, array⟩ := ty
    obtain ⟨harray, ⟨elemTypeName, elemArray⟩, helem, hname⟩ := readType_brackets hread
    obtain ⟨hlist, hjsonb, hnames⟩ := readType_declaredType _ _ helem
    simp only at harray hname hlist
    subst harray hname
    have htakes : σ.Takes (.list kind ⟨elemName, elem, nullable⟩) ⟨elemTypeName, true⟩ ↔
        σ.Takes elem ⟨elemTypeName, false⟩ := by
      constructor
      · intro htakes
        cases htakes with
        | list helem htakes =>
          cases helem
          exact htakes
      · intro htakes
        exact .list (by rw [PgType.elementType, if_pos rfl]) htakes
    cases hnamed with
    | list hnamed =>
      rw [htakes, DataType.scannable]
      split
      · rename_i hisList
        rw [takes_list_iff hisList hnames, hjsonb]
      · rename_i hisList
        rw [Bool.not_eq_true] at hisList
        rw [hlist.trans hisList] at helem
        exact ih hnamed hstructs helem
  | struct fields ih =>
    rw [declaredType, readType_composite] at hread
    cases hread
    obtain ⟨rel, hrel, hkind, hcolumns⟩ := hstructs _ List.mem_cons_self
    rw [stored_compositeTypeName] at hrel
    have hrow : σ.rowType ⟨truncateIdentifier schema, compositeTypeName table path⟩ =
        some rel.columns := by
      simp only [LocalCatalog.rowType, hrel, hkind, RelationKind.hasRowType, if_true]
    cases hnamed with
    | struct hdistinct hshort hfields =>
      have hcolumn := readColumns_declared hshort hcolumns
      have hfield : ∀ f ∈ fields, ∀ column : Column,
          readType schema (declaredType table f.dataType (path ++ "_" ++ f.name)) =
            some column.type → (σ.Takes f.dataType column.type ↔ f.dataType.scannable = true) := by
        intro f hf column htype
        refine ih f hf (hfields f hf) (fun ty hty => hstructs ty ?_) htype
        exact List.mem_cons_of_mem _ (compositesOf_mem_compositesOfFields hf hty)
      rw [DataType.scannable, DataType.scannableFields_iff]
      constructor
      · intro htakes
        cases htakes with
        | struct hrow' hnames hall =>
          rw [hrow] at hrow'
          cases hrow'
          intro f hf
          obtain ⟨column, hmem, hname, hdropped, htype⟩ := Fallible.exists_of_forall₂ hcolumn hf
          refine (hfield f hf column htype).mp (hall column hmem hdropped f ?_)
          rw [hname]
          exact find_of_mem hdistinct hf
      · intro hall
        refine .struct hrow ?_ ?_
        · intro column hmem hdropped
          obtain ⟨f, hf, hname, -⟩ := Fallible.exists_of_forall₂ hcolumn.flip hmem
          rw [hname]
          exact List.mem_map_of_mem hf
        · intro column hmem hdropped g hg
          obtain ⟨f, hf, hname, -, htype⟩ := Fallible.exists_of_forall₂ hcolumn.flip hmem
          rw [hname, find_of_mem hdistinct hf] at hg
          cases hg
          exact (hfield g hf column htype).mpr (hall g hf)
  | map entries sorted ih =>
    rw [declaredType, readType_base schema (by decide)] at hread
    cases hread
    exact iff_of_true (.map entries sorted) rfl
  | dictionary key value ihk ihv =>
    cases hnamed with
    | dictionary hnamed =>
      rw [DataType.scannable, ← ihv hnamed hstructs hread]
      constructor
      · intro htakes
        cases htakes with
        | dictionary htakes => exact htakes
      · exact .dictionary

end

/-- The columns of a table have distinct names that fit, and so have the fields of its structs. -/
structure Creation.WellNamed (c : Creation) : Prop where
  distinct : (c.fields.map FieldOf.name).Nodup
  short : ∀ f ∈ c.fields, f.name.utf8ByteSize ≤ 63
  types : ∀ f ∈ c.fields, f.dataType.WellNamed

theorem Creation.begin_iff {c : Creation} {σ : LocalCatalog} {rel : Relation} {env : ScanEnv}
    {oidOf : PgType → Oid} (hnamed : c.WellNamed) (hdeclared : c.Declared σ) (hmade : c.Made rel)
    (hrel : σ.relations[c.place]? = some rel) (hrepresents : σ.Represents env.convert.catalog oidOf)
    (stream : BatchStream) :
    (∃ node, beginForeignScan env c.fields (rel.columns.map (Column.attribute oidOf)) false
        (.ok stream) = .ok node) ↔ ∀ f ∈ c.fields, f.dataType.scannable = true := by
  have hcolumn := readColumns_declared hnamed.short hmade
  have hfield : ∀ f ∈ c.fields, ∀ column : Column, column ∈ rel.columns →
      (column.name = f.name ∧ column.dropped = false ∧
        readType c.schema (declaredType c.table f.dataType f.name) = some column.type) →
      ((∃ col, attributeToBatchCol env c.fields (column.attribute oidOf) = .ok col) ↔
        f.dataType.scannable = true) := by
    rintro f hf column hmem ⟨hname, hdropped, htype⟩
    have htypes := hrepresents.columns c.place rel hrel column hmem hdropped
    rw [Column.attribute, hname, hdropped, attributeToBatchCol_iff env hnamed.distinct hf,
      hrepresents.validate_iff f.dataType htypes]
    refine takes_declaredType_iff (hnamed.types f hf) (fun ty hty => hdeclared ty ?_) htype
    exact List.mem_flatMap.mpr ⟨f, hf, hty⟩
  rw [beginForeignScan_accepts_iff, List.forall_mem_map]
  constructor
  · intro hall f hf
    obtain ⟨column, hmem, hread⟩ := Fallible.exists_of_forall₂ hcolumn hf
    exact (hfield f hf column hmem hread).mp (hall column hmem)
  · intro hall column hmem
    obtain ⟨f, hf, hread⟩ := Fallible.exists_of_forall₂ hcolumn.flip hmem
    exact (hfield f hf column hmem hread).mpr (hall f hf)

theorem FdwEnv.beginScan_iff {fdw : FdwEnv} {σ : LocalCatalog} {name : QualName}
    {source : LanceDatasetSource} {batchSize : Nat} {dataset : ScanDataset} {stream : BatchStream}
    (tupdesc : List Attribute)
    (hoptions : LanceFdwOptions.fromForeignTable fdw.env.tableIdFromJson σ name =
      .ok ⟨source, batchSize⟩)
    (hruntime : fdw.env.runtimeNew = .ok ()) (hopen : fdw.openSource σ source = .ok dataset)
    (hstream : dataset.stream batchSize = .ok stream) :
    (∃ node, fdw.beginScan σ name tupdesc false = .ok node) ↔
      ∃ node, beginForeignScan (fdw.scanEnv source) dataset.fields tupdesc false (.ok stream) =
        .ok node := by
  have hbegin : fdw.beginScan σ name tupdesc false =
      (beginForeignScan (fdw.scanEnv source) dataset.fields tupdesc false
        (.ok stream)).mapError .report := by
    simp only [FdwEnv.beginScan, Bool.false_eq_true, if_false, hoptions, hruntime, hopen, hstream,
      Except.mapError, Bind.bind, Except.bind]
  rw [hbegin]
  cases beginForeignScan (fdw.scanEnv source) dataset.fields tupdesc false (.ok stream) <;>
    simp [Except.mapError]

/-- From the calls to the scans: in every state of every run, a foreign table that was made reads
the source that a call asked for, and while the dataset there has the fields it had then, a scan of
the table begins exactly when its types are scannable, if the creation was clean and the names
fit. -/
theorem runCalls_scans (fdw : FdwEnv) (calls : List CatalogCall) (σ : LocalCatalog)
    (hround : ∀ call ∈ calls, call.WritesIds fdw.env.tableIdFromJson) :
    let s := runCalls calls ⟨σ, [], []⟩
    ∀ (name : QualName) rel server options, s.catalog.relations[name]? = some rel →
      rel.kind = .foreignTable server options → σ.relations[name]? = some rel ∨
      ∃ before call after request source batchSize serverOptions, ∃ c ∈ s.created,
        calls = before ++ call :: after ∧
        call.Asks (runCalls before ⟨σ, [], []⟩).catalog request source batchSize ∧
        c.place = name ∧ c.fields = request.fields ∧
        s.catalog.servers.lookup request.server = some serverOptions ∧
        LanceFdwOptions.fromForeignTable fdw.env.tableIdFromJson s.catalog name =
          .ok ⟨source, madeBatchSize serverOptions batchSize⟩ ∧
        (c.Clean → c.WellNamed → ∀ oidOf,
          s.catalog.Represents fdw.convert.catalog oidOf → fdw.env.runtimeNew = .ok () →
          ∀ dataset stream, fdw.openSource s.catalog source = .ok dataset →
            dataset.fields = request.fields →
            dataset.stream (madeBatchSize serverOptions batchSize) = .ok stream →
            ((∃ node, fdw.beginScan s.catalog name (rel.columns.map (Column.attribute oidOf))
              false = .ok node) ↔ ∀ f ∈ request.fields, f.dataType.scannable = true)) := by
  intro s name rel server options hrel hkind
  have haccounted := accounted_runCalls calls σ
  rcases haccounted.tables name rel server options hrel hkind with
    hold | ⟨request, ⟨before, call, after, rfl, hmakes⟩, c, hc, hholds⟩
  · exact .inl hold
  · obtain ⟨serverOptions, hserver⟩ := Option.isSome_iff_exists.mp hholds.server
    obtain ⟨-, source, batchSize, hasks, hoptions⟩ :=
      CatalogCall.asks_of_makes (hround call (by simp)) hmakes hrel hholds hserver
    refine .inr ⟨before, call, after, request, source, batchSize, serverOptions, c, hc, rfl, hasks,
      hholds.place, hholds.fields, hserver, hoptions, ?_⟩
    intro hclean hnamed oidOf hrepresents hruntime dataset stream hopen hfields hstream
    rw [FdwEnv.beginScan_iff _ hoptions hruntime hopen hstream, hfields, ← hholds.fields]
    have hdeclared := haccounted.declared c hc hclean
    have hplaced : s.catalog.relations[c.place]? = some rel := by rw [hholds.place, hrel]
    exact Creation.begin_iff hnamed hdeclared hholds.made hplaced hrepresents stream

def posRun : List CatalogCall :=
  [.attach (.sample posRemote [["t"]]) "srv" [] "lance" none 1000 false]

def posFdw : FdwEnv where
  env := .sample posRemote [["t"]]
  convert := .sample (posLookups .int8)
  formatTypeBe _ := none
  displayDataType dt := reprStr dt
  serverOid _ := ⟨16384⟩
  relationOid _ := ⟨16385⟩
  openUri _ := .error "dataset not found"
  loadTable _ _ := .ok ⟨posFields, fun _ => .ok []⟩

theorem posRun_outcome :
    ((runCalls posRun ⟨.sample, [], []⟩).catalog.relations.toList,
      (runCalls posRun ⟨.sample, [], []⟩).created.map fun c =>
        (c.schema, c.table, c.before.relations.isEmpty, c.before.types)) =
      ((posCatalog .int8).relations.toList, [("lance", "t", true, [])]) := by
  decide +kernel

theorem posRun_get (name : QualName) :
    (runCalls posRun ⟨.sample, [], []⟩).catalog.relations[name]? =
      (posCatalog .int8).relations[name]? := by
  apply Option.ext
  intro rel
  rw [← Std.TreeMap.mem_toList_iff_getElem?_eq_some, (Prod.mk.inj posRun_outcome).1,
    Std.TreeMap.mem_toList_iff_getElem?_eq_some]

theorem posRun_represents :
    (runCalls posRun ⟨.sample, [], []⟩).catalog.Represents (posLookups .int8) posOidOf := by
  have hpos := posCatalog_represents .int8
  have htypes : (runCalls posRun ⟨.sample, [], []⟩).catalog.types = (posCatalog .int8).types :=
    (Keeps.of_reaches (runCalls_reaches posRun ⟨.sample, [], []⟩)).types
  have hrow : ∀ name, (runCalls posRun ⟨.sample, [], []⟩).catalog.rowType name =
      (posCatalog .int8).rowType name := by
    intro name
    simp only [LocalCatalog.rowType, posRun_get]
  have hhas : ∀ ty, (runCalls posRun ⟨.sample, [], []⟩).catalog.hasType ty =
      (posCatalog .int8).hasType ty := by
    intro ty
    simp only [LocalCatalog.hasType, LocalCatalog.hasTypeName, hrow, htypes]
  have hcolumns : ∀ ty, (runCalls posRun ⟨.sample, [], []⟩).catalog.columnsOf ty =
      (posCatalog .int8).columnsOf ty := by
    intro ty
    simp only [LocalCatalog.columnsOf, hrow]
  constructor
  · simpa only [hhas] using hpos.base
  · simpa only [hhas] using hpos.valid
  · simpa only [hhas] using hpos.elementType
  · simpa only [hhas, hcolumns] using hpos.rowType
  · simpa only [hhas, posRun_get] using hpos.columns

theorem posFields_structs : compositesOfColumns "t" posFields =
    [⟨"lance_t_pos", [("x", "int8")]⟩] := by
  decide +kernel

theorem runCalls_scans_positions : ∃ node, posFdw.beginScan
    (runCalls posRun ⟨.sample, [], []⟩).catalog ⟨"lance", "t"⟩
      (posTable.columns.map (Column.attribute posOidOf)) false = .ok node := by
  have hrel : (runCalls posRun ⟨.sample, [], []⟩).catalog.relations[
      (⟨"lance", "t"⟩ : QualName)]? = some posTable := by
    rw [posRun_get, posCatalog_relations, if_pos rfl]
  have hlists : listTableIds posRemote [] 1000 = .ok [["t"]] := by decide
  have hround : ∀ call ∈ posRun, call.WritesIds posFdw.env.tableIdFromJson := by
    intro call hcall
    rw [List.mem_singleton.mp hcall]
    intro tableIds hlisted
    cases hlists.symm.trans hlisted
    decide
  rcases runCalls_scans posFdw posRun .sample hround _ _ _ _ hrel rfl with
    hold | ⟨before, call, after, request, source, batchSize, serverOptions, c, hc, hcalls, hasks,
      hplace, hfields, hserver, -, hscans⟩
  · have hnone : LocalCatalog.sample.relations[(⟨"lance", "t"⟩ : QualName)]? = none := by decide
    rw [hnone] at hold
    cases hold
  have hcall : call ∈ posRun := by
    rw [hcalls]
    simp
  rw [List.mem_singleton.mp hcall] at hasks
  obtain ⟨-, hname, tableIds, id, hid, hlisted, -, hload, rfl, rfl⟩ := hasks
  have hrequest : request.fields = posFields := by
    exact (Except.ok.inj hload).symm
  have hcreated : (c.schema, c.table, c.before.relations.isEmpty, c.before.types) =
      ("lance", "t", true, []) := by
    have hmem := List.mem_map_of_mem (f := fun c : Creation =>
      (c.schema, c.table, c.before.relations.isEmpty, c.before.types)) hc
    rw [(Prod.mk.inj posRun_outcome).2] at hmem
    exact List.mem_singleton.mp hmem
  simp only [Prod.mk.injEq] at hcreated
  obtain ⟨hschema, htable, hrelations, htypes⟩ := hcreated
  have hstructs : c.structs = [⟨"lance_t_pos", [("x", "int8")]⟩] := by
    rw [Creation.structs, htable, hfields, hrequest, posFields_structs]
  have hclean : c.Clean := by
    constructor
    · intro ty hty ty' hty' _
      rw [hstructs] at hty hty'
      rw [List.mem_singleton.mp hty, List.mem_singleton.mp hty']
    · intro ty hty
      exact .inl ⟨Std.TreeMap.getElem?_of_isEmpty hrelations, by simp [htypes]⟩
  have hnamed : c.WellNamed := by
    rw [← hfields] at hrequest
    constructor
    · rw [hrequest]
      decide
    · rw [hrequest]
      decide
    · rw [hrequest]
      intro f hf
      rw [List.mem_singleton.mp hf]
      refine .struct (by decide) (by decide) ?_
      intro g hg
      rw [List.mem_singleton.mp hg]
      exact .leaf _
  have hservers : (runCalls posRun ⟨.sample, [], []⟩).catalog.servers = LocalCatalog.sample.servers :=
    (Keeps.of_reaches (runCalls_reaches posRun ⟨.sample, [], []⟩)).servers
  have hopen : posFdw.openSource (runCalls posRun ⟨.sample, [], []⟩).catalog
      (.namespaced "srv" id) = .ok ⟨posFields, fun _ => .ok []⟩ := by
    rw [FdwEnv.openSource, hservers]
    rfl
  refine (hscans hclean hnamed posOidOf posRun_represents rfl _ [] hopen hrequest.symm rfl).mpr ?_
  rw [hrequest]
  decide +kernel

end PgLance
