import PgLance.Fdw.SyncRuns

/-! Drift of tables that were made for the fields that they are compared with. -/

namespace PgLance

def DataType.listDepth : DataType → Nat
  | .list _ ⟨_, elem, _⟩ => elem.listDepth + 1
  | .dictionary _ value => value.listDepth
  | _ => 0
termination_by structural dt => dt

namespace TypeRef

def dims : TypeRef → Nat
  | .base _ | .composite _ _ => 0
  | .array elem => elem.dims + 1

theorem dims_ofArrow (table : String) (dt : DataType) (path : String) :
    (ofArrow table dt path).dims = dt.listDepth := by
  induction dt generalizing path with
  | list kind elem ih => simp only [ofArrow, dims, DataType.listDepth, ih]
  | dictionary key value ihk ihv => simp only [ofArrow, DataType.listDepth, ihv]
  | _ => rfl

end TypeRef

theorem base_printed : ∀ name ∈ baseTypes.map Prod.fst, (typeParts name).1 = 0 ∧
    (BaseType.ofName name).any (fun type =>
      typeParts (type.words.1 ++ type.words.2) = typeParts name) = true := by
  decide

theorem readType_base (schema : String) {name : String} (h : name ∈ baseTypes.map Prod.fst) :
    readType schema name = (BaseType.ofName name).map fun type => ⟨.base type, false⟩ := by
  obtain ⟨hsplit, hlance⟩ := base_split name h
  rw [readType, hsplit]
  simp only [hlance, Bool.false_eq_true, if_false, String.ofList_toList, bne_self_eq_false]

theorem utf8ByteSize_compositeTypeName (table path : String) :
    (compositeTypeName table path).utf8ByteSize ≤ 60 := by
  have hsize := utf8ByteSize_of_nameChars (compositeTypeName_chars table path)
  rw [String.ofList_toList] at hsize
  rw [hsize]
  simp only [compositeTypeName] at hsize ⊢
  split
  · rw [String.toList_ofList]
    exact List.length_take_le 60 _
  · rename_i hle
    rw [if_neg hle] at hsize
    omega

theorem stored_compositeTypeName (schema table path : String) :
    QualName.stored schema (compositeTypeName table path) =
      ⟨truncateIdentifier schema, compositeTypeName table path⟩ := by
  have hle := utf8ByteSize_compositeTypeName table path
  have hfits : truncateIdentifier (compositeTypeName table path) = compositeTypeName table path :=
    truncateIdentifier_of_le (by omega)
  rw [QualName.stored, hfits]

theorem typeParts_quoteIdentifier (pg : Postgres) (name : String) :
    typeParts (pg.quoteIdentifier name) = typeParts name := by
  rw [Postgres.quoteIdentifier]
  split
  · exact typeParts_quoteIdent name
  · rfl

theorem typeParts_formatTypeName_named (pg : Postgres) (typmod : Option (List Nat))
    (name : QualName) :
    typeParts (pg.formatTypeName typmod (.named name)) = typeParts name.name := by
  rw [Postgres.formatTypeName]
  split
  · rw [String.empty_append, typeParts_quoteIdentifier]
  · rw [typeParts_qualified, typeParts_quoteIdentifier]

theorem readType_text (pg : Postgres) (schema : String) (ty : TypeRef) :
    (typeParts ty.text).1 = ty.dims ∧ ∃ name, readType schema ty.text = some ⟨name, ty.dims != 0⟩ ∧
      typeParts (pg.formatTypeName none name) = (0, (typeParts ty.text).2) := by
  induction ty with
  | base type =>
    have hmem := pgTypeForLeaf_mem type
    rw [TypeRef.text]
    generalize pgTypeForLeaf type = text at hmem
    obtain ⟨hdims, hprinted⟩ := base_printed text hmem
    obtain ⟨base, hbase, hparts⟩ := (Option.any_eq_true _ _).mp hprinted
    refine ⟨hdims, .base base, ?_, ?_⟩
    · rw [readType_base schema hmem, hbase, Option.map_some, TypeRef.dims, bne_self_eq_false]
    · rw [Postgres.formatTypeName, String.append_empty, of_decide_eq_true hparts, ← hdims]
  | composite table path =>
    have hparts := typeParts_of_nameChars (compositeTypeName_chars table path)
    rw [TypeRef.text]
    refine ⟨congrArg Prod.fst hparts, .named ⟨truncateIdentifier schema,
      compositeTypeName table path⟩, ?_, ?_⟩
    · rw [readType, splitArrays_compositeTypeName]
      simp only [isLanceType_compositeTypeName, if_true, String.ofList_toList,
        stored_compositeTypeName, TypeRef.dims, bne_self_eq_false]
    · rw [typeParts_formatTypeName_named, hparts]
  | array elem ih =>
    obtain ⟨hdims, name, hread, hname⟩ := ih
    rw [TypeRef.text, typeParts_array]
    simp only [hdims, TypeRef.dims]
    refine ⟨trivial, name, ?_, hname⟩
    have hsplit := Text.splitArrays_append_brackets elem.text.toList
    simp only [readType, String.toList_append, show "[]".toList = ['[', ']'] from rfl, hsplit]
      at hread ⊢
    split at hread
    · rename_i hlance
      rw [if_pos hlance]
      simp only [Option.some.injEq, PgType.mk.injEq] at hread
      simp [hread.1]
    · rename_i hlance
      rw [if_neg hlance]
      obtain ⟨type, htype, heq⟩ := Option.map_eq_some_iff.mp hread
      simp only [PgType.mk.injEq] at heq
      simp [htype, heq.1]

theorem readColumn_canonical_iff (pg : Postgres) {table schema : String} {f : Field}
    {column : Column} (hsize : f.name.utf8ByteSize ≤ 63)
    (h : readColumn schema (f.name, declaredType table f.dataType f.name) = some column) :
    column.name = f.name ∧ column.dropped = false ∧
      (canonicalTypeString (declaredType table f.dataType f.name) =
          canonicalTypeString (pg.formatType column.type column.typmod) ↔
        f.dataType.listDepth ≤ 1) := by
  obtain ⟨hdims, name, hread, hname⟩ :=
    readType_text pg schema (TypeRef.ofArrow table f.dataType f.name)
  rw [TypeRef.text_ofArrow, TypeRef.dims_ofArrow] at hdims hread
  rw [TypeRef.text_ofArrow] at hname
  obtain ⟨type, htype, rfl⟩ := Option.map_eq_some_iff.mp h
  rw [hread] at htype
  cases htype
  refine ⟨truncateIdentifier_of_le hsize, rfl, ?_⟩
  rw [canonicalTypeString_inj, Postgres.formatType, Prod.ext_iff, hdims]
  simp only
  split
  · rename_i harray
    have hne : f.dataType.listDepth ≠ 0 := by simpa using harray
    rw [typeParts_array, hname]
    simp only [and_true]
    omega
  · rename_i harray
    have hzero : f.dataType.listDepth = 0 := by simpa using harray
    rw [hname, hzero]
    simp

/-- A relation with the columns that are declared for fields has no drift from them, unless it has
lists of lists. -/
theorem schemaDrift_declared_iff (pg : Postgres) {place : QualName} {fields : Schema}
    {rel : Relation} (hsizes : ∀ f ∈ fields, f.name.utf8ByteSize ≤ 63)
    (h : (buildSchemaMapping place.name fields).columnTypes.mapM (readColumn place.schema) =
      some rel.columns) :
    schemaDrift pg place fields (some rel) = none ↔ ∀ f ∈ fields, f.dataType.listDepth ≤ 1 := by
  rw [schemaDrift_eq_none, localColumns]
  rw [columnTypes_buildSchemaMapping] at h ⊢
  generalize rel.columns = columns at h ⊢
  clear rel
  induction fields generalizing columns with
  | nil =>
    cases h
    simp [normalizeColumns]
  | cons f fields ih =>
    rw [List.forall_mem_cons] at hsizes ⊢
    rw [List.map_cons, List.mapM_cons] at h
    obtain ⟨column, hcolumn, h⟩ := Option.bind_eq_some_iff.mp h
    obtain ⟨rest, hrest, h⟩ := Option.bind_eq_some_iff.mp h
    cases h
    obtain ⟨hname, hdropped, htype⟩ := readColumn_canonical_iff pg hsizes.1 hcolumn
    rw [← ih hsizes.2 rest hrest, ← htype]
    simp [normalizeColumns, hname, hdropped]

theorem attachOne_created {ctx : AttachContext} {tableId : TableId} {place : QualName}
    {s s' : Session} {row : NamespaceRow} (h : attachOne ctx tableId place s = .ok (.ok row, s'))
    (hrow : row.action = .createTable ∧ row.status = .ok) :
    s.catalog.relations[place]? = none ∧ ∃ fields,
      ctx.env.remote.load .attach tableId = .ok fields ∧
        Attached ctx tableId place fields s s' := by
  have hattach := attachOne_cases h
  generalize hresult : Except.ok row = result at hattach
  cases hattach with
  | existing hfound =>
    have hkey := existingResult_key hresult.symm
    simp only [NamespaceRow.key, hrow.1, Prod.mk.injEq, reduceCtorEq, and_false] at hkey
  | dryRun =>
    cases hresult
    cases hrow.2
  | failed => cases hresult
  | attached hnone _ hload hattached => exact ⟨hnone, _, hload, hattached⟩

theorem Attached.no_drift_iff {ctx : AttachContext} {tableId : TableId} {place : QualName}
    {fields : Schema} {s s' : Session} {rel : Relation} {server : String}
    {options : List (String × Option String)} (h : Attached ctx tableId place fields s s')
    (hnone : s.catalog.relations[place]? = none)
    (hload : ctx.env.remote.load .driftCheck tableId = .ok fields)
    (hsizes : ∀ f ∈ fields, f.name.utf8ByteSize ≤ 63)
    (hrel : s'.catalog.relations[place]? = some rel)
    (hkind : rel.kind = .foreignTable server options) :
    detectSchemaDrift ctx.env tableId place s'.catalog = .ok none ↔
      ∀ f ∈ fields, f.dataType.listDepth ≤ 1 := by
  have hfits : place.Fits :=
    s'.catalog.fits place (Std.TreeMap.mem_iff_isSome_getElem?.mpr (by simp [hrel]))
  obtain ⟨rel', hrel', hmade⟩ := h.made_kind hfits hnone
  rw [hrel] at hrel'
  cases hrel'
  rw [detectSchemaDrift, hload, hrel]
  simp only [Except.map, Except.ok.injEq]
  rcases hmade with hcomposite | ⟨-, hcolumns⟩
  · rw [hkind] at hcomposite
    cases hcomposite
  · exact schemaDrift_declared_iff ctx.env.pg hsizes hcolumns

/-- A table that was just attached has no drift, where the fields are still the same, exactly if
no column's type has lists of lists. -/
theorem attachOne_no_drift_iff {ctx : AttachContext} {tableId : TableId} {place : QualName}
    {fields : Schema} {s s' : Session} {row : NamespaceRow} {rel : Relation} {server : String}
    {options : List (String × Option String)}
    (hload : ∀ site, ctx.env.remote.load site tableId = .ok fields)
    (hsizes : ∀ f ∈ fields, f.name.utf8ByteSize ≤ 63)
    (h : attachOne ctx tableId place s = .ok (.ok row, s'))
    (hrow : row.action = .createTable ∧ row.status = .ok)
    (hrel : s'.catalog.relations[place]? = some rel)
    (hkind : rel.kind = .foreignTable server options) :
    detectSchemaDrift ctx.env tableId place s'.catalog = .ok none ↔
      ∀ f ∈ fields, f.dataType.listDepth ≤ 1 := by
  obtain ⟨hnone, fields', hattach, hattached⟩ := attachOne_created h hrow
  rw [hload] at hattach
  cases hattach
  exact hattached.no_drift_iff hnone (hload .driftCheck) hsizes hrel hkind

def matrixRemote : Remote :=
  .ofTree (fun ns => if ns = [] then ["t"] else []) (fun _ => []) [] Remote.nil_listed fun _ _ =>
    .ok [⟨"m", matrixType, true⟩]

def matrixAttach : AttachContext := ⟨.sample matrixRemote [["t"]], "srv", none, false⟩

def matrixTable : Relation where
  kind := .foreignTable "srv" [("ns.table_id", some "[\"t\"]")]
  columns := [⟨"m", ⟨.base .int4, true⟩, none, false⟩]
  distinct := by simp

theorem matrixAttach_ok : ∃ s', attachOne matrixAttach ["t"] ⟨"lance", "t"⟩ ⟨.sample, [], []⟩ =
    .ok (.ok ⟨["t"], ⟨"lance", "t"⟩, .createTable, .ok, "attached"⟩, s') ∧
      s'.catalog.relations[(⟨"lance", "t"⟩ : QualName)]? = some matrixTable := by
  have hrun : (attachOne matrixAttach ["t"] ⟨"lance", "t"⟩ ⟨.sample, [], []⟩).map
      (fun p => (p.1, p.2.catalog.relations[(⟨"lance", "t"⟩ : QualName)]?)) =
        .ok (.ok ⟨["t"], ⟨"lance", "t"⟩, .createTable, .ok, "attached"⟩, some matrixTable) := by
    decide
  obtain ⟨⟨result, s'⟩, hrun, hp⟩ := Fallible.map_ok_iff.mp hrun
  obtain ⟨hresult, hrel⟩ := Prod.mk.inj hp
  simp only at hresult hrel
  exact ⟨s', by rw [hrun, hresult], hrel⟩

theorem attachOne_no_drift_iff_sample :
    ∃ s', attachOne matrixAttach ["t"] ⟨"lance", "t"⟩ ⟨.sample, [], []⟩ =
        .ok (.ok ⟨["t"], ⟨"lance", "t"⟩, .createTable, .ok, "attached"⟩, s') ∧
      (detectSchemaDrift matrixAttach.env ["t"] ⟨"lance", "t"⟩ s'.catalog = .ok none ↔
        ∀ f ∈ [(⟨"m", matrixType, true⟩ : Field)], f.dataType.listDepth ≤ 1) := by
  obtain ⟨s', hrun, hrel⟩ := matrixAttach_ok
  exact ⟨s', hrun, attachOne_no_drift_iff (fun _ => rfl) (by decide) hrun ⟨rfl, rfl⟩ hrel
    rfl⟩

theorem attachOne_drifts :
    ∃ s', attachOne matrixAttach ["t"] ⟨"lance", "t"⟩ ⟨.sample, [], []⟩ =
        .ok (.ok ⟨["t"], ⟨"lance", "t"⟩, .createTable, .ok, "attached"⟩, s') ∧
      detectSchemaDrift matrixAttach.env ["t"] ⟨"lance", "t"⟩ s'.catalog ≠ .ok none := by
  obtain ⟨s', hrun, hrel⟩ := matrixAttach_ok
  refine ⟨s', hrun, ?_⟩
  rw [detectSchemaDrift, hrel]
  decide

end PgLance
