import PgLance.Fdw.LocalTables
import PgLance.Fdw.SyncRuns

/-! Whole runs of a sync: what a dry run says of the real one, and which tables are lost. -/

namespace PgLance

theorem Carries.there {env : NamespaceEnv} {serverName : String} {root : TableId}
    {σ : LocalCatalog} {id : TableId} {t : LocalNamespaceTable}
    (h : Carries env serverName root σ id t) : ∃ rel, σ.relations[t.place]? = some rel := by
  obtain ⟨json, hmem, -⟩ := h
  obtain ⟨rel, options, hrel, -⟩ := mem_namespaceTables.mp hmem
  exact ⟨rel, hrel⟩

section

variable {ctx : SyncContext} {localById : LocalById} {tableId : TableId} {place : QualName}
  {s₀ s s' : Session}

def SyncContext.dry (ctx : SyncContext) : SyncContext := { ctx with dryRun := true }

def SyncContext.real (ctx : SyncContext) : SyncContext := { ctx with dryRun := false }

theorem attachOne_dry (ctx : AttachContext) (hdry : ctx.dryRun = true) (tableId : TableId)
    (place : QualName) (s : Session) : ∃ result, attachOne ctx tableId place s = .ok (result, s) := by
  cases hrel : s.catalog.relations[place]? with
  | some rel => exact ⟨_, attachOne_existing hrel⟩
  | none =>
    rw [attachOne, lookupExistingRelation_free hrel]
    exact ⟨_, by simp only [if_pos hdry]; rfl⟩

theorem syncEntry_dry (ctx : SyncContext) (localById : LocalById) (tableId : TableId)
    (place : QualName) (s : Session) :
    ∃ result, syncEntry ctx.dry localById tableId place s = .ok result ∧
      ∀ row s', result = .ok (row, s') → s' = s := by
  rw [syncEntry]
  cases localById[tableId]? with
  | none =>
    obtain ⟨result, hattach⟩ := attachOne_dry
      ⟨ctx.dry.env, ctx.dry.serverName, none, ctx.dry.dryRun⟩ rfl tableId place s
    refine ⟨.ok (createRow tableId place result, s), by rw [hattach]; rfl, ?_⟩
    intro row s' h
    cases h
    rfl
  | some t =>
    simp only
    split
    · exact ⟨_, rfl, by simp⟩
    · cases detectSchemaDrift ctx.dry.env tableId place s.catalog with
      | error e => exact ⟨_, rfl, by simp⟩
      | ok drift =>
        cases drift with
        | none => exact ⟨_, rfl, by simp⟩
        | some detail =>
          simp only
          split
          · exact ⟨_, rfl, by simp⟩
          · exact ⟨_, rfl, by simp⟩

theorem AttachOne.recreateRow_key {ctx : AttachContext} {result : Except String NamespaceRow}
    (h : AttachOne ctx tableId place s result s') (detail : String) :
    (recreateRow tableId place detail result).key = (tableId, place, .recreateTable) := by
  cases h with
  | @existing rel =>
    cases hrow : existingResult ctx tableId place rel with
    | error e => rfl
    | ok row =>
      have hkey := existingResult_key hrow
      simp only [NamespaceRow.key, Prod.mk.injEq] at hkey
      simp only [recreateRow, NamespaceRow.key, hkey.1, hkey.2.1]
  | dryRun | failed | attached => rfl

/-- What is done about an entry, from the catalogue before. -/
def planEntry (ctx : SyncContext) (localById : LocalById) (tableId : TableId) (place : QualName)
    (σ : LocalCatalog) : Except String Action :=
  match localById[tableId]? with
  | none =>
    match σ.relations[place]? with
    | none => .ok .createTable
    | some rel =>
      match existingResult ⟨ctx.env, ctx.serverName, none, ctx.dryRun⟩ tableId place rel with
      | .ok _ => .ok .skipExisting
      | .error _ => .ok .createTable
  | some localTable =>
    if localTable.place ≠ place then .ok .drift
    else
      match detectSchemaDrift ctx.env tableId place σ with
      | .error e => .error e
      | .ok none => .ok .inSync
      | .ok (some _) => if ctx.recreateChanged then .ok .recreateTable else .ok .drift

def planKey (ctx : SyncContext) (localById : LocalById) (σ : LocalCatalog)
    (entry : TableId × QualName) : Except String (TableId × QualName × Action) :=
  (planEntry ctx localById entry.1 entry.2 σ).map fun action => (entry.1, entry.2, action)

theorem Pending.before {σ σ' : LocalCatalog} (h : Pending place σ σ') {rel : Relation}
    (hrel : σ'.relations[place]? = some rel) : σ.relations[place]? = some rel ∨
      (σ.relations[place]? = none ∧ rel.kind = .compositeType) := by
  cases hold : σ.relations[place]? with
  | some rel' => exact .inl (by rw [← hrel, h.keeps rel' hold])
  | none => exact .inr ⟨rfl, h.made rel hold hrel⟩

theorem Pending.none {σ σ' : LocalCatalog} (h : Pending place σ σ')
    (hnone : σ'.relations[place]? = none) : σ.relations[place]? = .none := by
  cases hrel : σ.relations[place]? with
  | some rel =>
    rw [h.keeps rel hrel] at hnone
    cases hnone
  | none => rfl

theorem SyncEntry.planned {σ : LocalCatalog} {result : Except String (NamespaceRow × Session)}
    (h : SyncEntry ctx localById tableId place s result)
    (hlocal : ∀ t, localById[tableId]? = some t → ∃ rel, σ.relations[t.place]? = some rel)
    (hpending : Pending place σ s.catalog) :
    result.map (fun p => p.1.key) = planKey ctx localById σ (tableId, place) := by
  have hsame : ∀ t, localById[tableId]? = some t → t.place = place →
      s.catalog.relations[place]? = σ.relations[place]? := by
    intro t ht hplace
    obtain ⟨rel, hrel⟩ := hlocal t ht
    rw [hplace] at hrel
    rw [hrel, hpending.keeps rel hrel]
  cases h with
  | create hnone hattach =>
    cases hattach with
    | @existing rel hrel =>
      cases hpending.before hrel with
      | inl hrel =>
        simp only [planKey, planEntry, hnone, hrel]
        cases hrow : existingResult ⟨ctx.env, ctx.serverName, none, ctx.dryRun⟩ tableId place rel with
        | error e => rfl
        | ok row => exact congrArg Except.ok (existingResult_key hrow)
      | inr hmade =>
        have hresult : ∃ e, existingResult ⟨ctx.env, ctx.serverName, none, ctx.dryRun⟩ tableId place
            rel = .error e := existingResult_composite hmade.2
        obtain ⟨e, hresult⟩ := hresult
        simp only [planKey, planEntry, hnone, hmade.1, hresult]
        rfl
    | dryRun hrel | failed hrel | attached hrel =>
      simp only [planKey, planEntry, hnone, hpending.none hrel]
      rfl
  | misplaced ht hplace => simp only [planKey, planEntry, ht, if_pos hplace]; rfl
  | failed ht hplace hload =>
    simp only [planKey, planEntry, ht, detectSchemaDrift, hload, Except.map, ne_eq, not_true_eq_false,
      hplace, if_false]
  | inSync ht hplace hload hdrift =>
    rw [hsame _ ht hplace] at hdrift
    simp only [planKey, planEntry, ht, detectSchemaDrift, hload, Except.map, hdrift, ne_eq,
      not_true_eq_false, hplace, if_false]
    rfl
  | drifted ht hplace hload hdrift hrecreate =>
    rw [hsame _ ht hplace] at hdrift
    simp only [planKey, planEntry, ht, detectSchemaDrift, hload, Except.map, hdrift, hrecreate, ne_eq,
      not_true_eq_false, hplace, if_false]
    rfl
  | dryRun ht hplace hload hdrift hrecreate =>
    rw [hsame _ ht hplace] at hdrift
    simp only [planKey, planEntry, ht, detectSchemaDrift, hload, Except.map, hdrift, hrecreate, ne_eq,
      not_true_eq_false, hplace, if_false, if_true]
    rfl
  | recreated ht hplace hload hdrift hrecreate _ _ hattach =>
    rw [hsame _ ht hplace] at hdrift
    simp only [planKey, planEntry, ht, detectSchemaDrift, hload, Except.map, hdrift, hrecreate, ne_eq,
      not_true_eq_false, hplace, if_false, if_true, hattach.recreateRow_key]

theorem syncEntries_dry (ctx : SyncContext) (localById : LocalById)
    (entries : List (TableId × QualName)) (s : Session) :
    ∃ result, syncEntries ctx.dry localById entries s = .ok result ∧
      ∀ rows s', result = .ok (rows, s') → s' = s := by
  induction entries with
  | nil => exact ⟨_, rfl, by simp⟩
  | cons entry entries ih =>
    obtain ⟨tableId, place⟩ := entry
    obtain ⟨result, hentry, hsession⟩ := syncEntry_dry ctx localById tableId place s
    rw [syncEntries, hentry]
    cases result with
    | error e => exact ⟨_, rfl, by simp⟩
    | ok p =>
      obtain ⟨row, s₁⟩ := p
      cases hsession row s₁ rfl
      obtain ⟨rest, hrest, hsession⟩ := ih
      simp only [bind, Except.bind, hrest]
      cases rest with
      | error e => exact ⟨_, rfl, by simp⟩
      | ok p =>
        obtain ⟨rows, s₂⟩ := p
        cases hsession rows s₂ rfl
        exact ⟨_, rfl, by simp⟩

def planEntries (ctx : SyncContext) (localById : LocalById) (σ : LocalCatalog)
    (entries : List (TableId × QualName)) : Except String (List (TableId × QualName × Action)) :=
  entries.mapM (planKey ctx localById σ)

/-- A run over entries of distinct places goes as planned. -/
theorem syncEntries_planned {σ : LocalCatalog} {entries : List (TableId × QualName)}
    (hlocal : ∀ (id : TableId) (t : LocalNamespaceTable), localById[id]? = some t →
      ∃ rel, σ.relations[t.place]? = some rel)
    (hfits : ∀ entry ∈ entries, entry.2.Fits) (hplaces : (entries.map Prod.snd).Nodup)
    (hpending : ∀ entry ∈ entries, Pending entry.2 σ s.catalog)
    {result : Except String (List NamespaceRow × Session)}
    (h : syncEntries ctx localById entries s = .ok result) :
    result.map (fun p => p.1.map NamespaceRow.key) = planEntries ctx localById σ entries := by
  induction entries generalizing s result with
  | nil =>
    cases h
    rfl
  | cons entry entries ih =>
    obtain ⟨tableId, place⟩ := entry
    rw [List.forall_mem_cons] at hfits hpending
    rw [List.map_cons, List.nodup_cons] at hplaces
    have hrest : ∀ {row s₁}, SyncEntry ctx localById tableId place s (.ok (row, s₁)) →
        ∀ entry ∈ entries, Pending entry.2 σ s₁.catalog := by
      intro row s₁ hentry other hother
      apply (hpending.2 other hother).of_touches (hentry.touches hfits.1)
      intro hmem
      exact hplaces.1 (List.mem_singleton.mp hmem ▸ List.mem_map_of_mem hother)
    cases result with
    | error e =>
      rcases syncEntries_cons_error h with hentry | ⟨row, s₁, hentry, hlater⟩
      · rw [planEntries, Fallible.mapM_cons_error
          (hentry.planned (fun t => hlocal tableId t) hpending.1).symm]
        rfl
      · have hplan := ih hfits.2 hplaces.2 (hrest hentry) hlater
        rw [planEntries, Fallible.mapM_cons_ok
          (hentry.planned (fun t => hlocal tableId t) hpending.1).symm, ← planEntries, ← hplan]
        rfl
    | ok p =>
      obtain ⟨rows, s'⟩ := p
      obtain ⟨row, s₁, rows', hentry, hlater, rfl⟩ := syncEntries_cons_ok h
      have hplan := ih hfits.2 hplaces.2 (hrest hentry) hlater
      rw [planEntries, Fallible.mapM_cons_ok
        (hentry.planned (fun t => hlocal tableId t) hpending.1).symm, ← planEntries, ← hplan]
      rfl

theorem dropEntries_dry (ctx : SyncContext) (entries : List (TableId × LocalNamespaceTable))
    (s : Session) : ∃ rows, dropEntries ctx.dry entries s = .ok (rows, s) := by
  induction entries with
  | nil => exact ⟨_, rfl⟩
  | cons entry entries ih =>
    obtain ⟨tableId, t⟩ := entry
    obtain ⟨rows, hrest⟩ := ih
    have hentry : ∃ row, dropEntry ctx.dry tableId t.place s = .ok (row, s) := by
      rw [dropEntry]
      split
      · exact ⟨_, rfl⟩
      · exact ⟨_, rfl⟩
    obtain ⟨row, hentry⟩ := hentry
    exact ⟨row :: rows, by rw [dropEntries, hentry]; simp only [bind, Except.bind, hrest]; rfl⟩

theorem syncNamespace_mapped {root : TableId} {schemaPrefix : String} {tableIds : List TableId}
    {mapping : Mapping} {result : Except String (List NamespaceRow × Session)}
    (hmap : mapNamespace ctx.env ctx.serverName root schemaPrefix defaultLimitPerListCall
      s.catalog = .ok (tableIds, mapping))
    (h : syncNamespace ctx root schemaPrefix s = .ok result) :
    let tables := introspectLocalNamespaceTables ctx.env ctx.serverName root s.catalog
    (∃ e, result = .error e ∧ syncEntries ctx tables.1 mapping.entries s = .ok (.error e)) ∨
      ∃ rows s₁ dropRows s₂, syncEntries ctx tables.1 mapping.entries s = .ok (.ok (rows, s₁)) ∧
        dropEntries ctx (localOnlyTables tables.1 tableIds) s₁ = .ok (dropRows, s₂) ∧
        result = .ok ((mapping.conflicts.map fun tableId =>
          rowError tableId schemaPrefix mappingConflict) ++ tables.2 ++ rows ++ dropRows, s₂) := by
  rw [syncNamespace, hmap] at h
  simp only at h ⊢
  obtain ⟨entries, hentries, h⟩ := Fallible.bind_ok_iff.mp h
  cases entries with
  | error e =>
    cases h
    exact .inl ⟨e, rfl, hentries⟩
  | ok p =>
    obtain ⟨rows, s₁⟩ := p
    obtain ⟨⟨dropRows, s₂⟩, hdrops, h⟩ := Fallible.bind_ok_iff.mp h
    cases h
    exact .inr ⟨rows, s₁, dropRows, s₂, hentries, hdrops, rfl⟩

theorem mapNamespace_mapped {env : NamespaceEnv} {serverName schemaPrefix : String}
    {root : TableId} {limit : Int} {σ : LocalCatalog} {tableIds : List TableId} {mapping : Mapping}
    (h : mapNamespace env serverName root schemaPrefix limit σ = .ok (tableIds, mapping)) :
    listTableIds env.remote root limit = .ok tableIds ∧
      buildMapping schemaPrefix tableIds = .ok mapping := by
  obtain ⟨-, -, h⟩ := Fallible.bind_ok_iff.mp h
  obtain ⟨-, -, h⟩ := Fallible.bind_ok_iff.mp h
  obtain ⟨ids, hids, h⟩ := Fallible.bind_ok_iff.mp h
  obtain ⟨mapping', hmapping, h⟩ := Fallible.bind_ok_iff.mp h
  cases h
  exact ⟨hids, hmapping⟩

theorem mapNamespace_ok {env : NamespaceEnv} {serverName schemaPrefix : String} {root : TableId}
    {limit : Int} {σ : LocalCatalog} {tableIds : List TableId} {mapping : Mapping}
    (h : mapNamespace env serverName root schemaPrefix limit σ = .ok (tableIds, mapping)) :
    listTableIds env.remote root limit = .ok tableIds ∧ mapping.Covers schemaPrefix tableIds := by
  obtain ⟨hids, hmapping⟩ := mapNamespace_mapped h
  exact ⟨hids, buildMapping_covers hmapping⟩

theorem Mapping.Covers.fits {mapping : Mapping} {schemaPrefix : String} {ids : List TableId}
    (h : mapping.Covers schemaPrefix ids) : ∀ entry ∈ mapping.entries, entry.2.Fits :=
  fun entry hentry => localPlace_fits (h.place entry.1 entry.2 hentry).1

def planSync (ctx : SyncContext) (root : TableId) (schemaPrefix : String) (σ : LocalCatalog)
    (tableIds : List TableId) (mapping : Mapping) :
    Except String (List (TableId × QualName × Action)) :=
  let tables := introspectLocalNamespaceTables ctx.env ctx.serverName root σ
  (planEntries ctx tables.1 σ mapping.entries).map fun keys =>
    ((mapping.conflicts.map fun tableId => rowError tableId schemaPrefix mappingConflict) ++
        tables.2).map NamespaceRow.key ++ keys ++
      (localOnlyTables tables.1 tableIds).map fun entry =>
        (entry.1, entry.2.place, if ctx.dropMissing then .dropTable else .drift)

theorem syncNamespace_planned {root : TableId} {schemaPrefix : String} {tableIds : List TableId}
    {mapping : Mapping} {result : Except String (List NamespaceRow × Session)}
    (hmap : mapNamespace ctx.env ctx.serverName root schemaPrefix defaultLimitPerListCall
      s.catalog = .ok (tableIds, mapping))
    (h : syncNamespace ctx root schemaPrefix s = .ok result) :
    result.map (fun p => p.1.map NamespaceRow.key) =
      planSync ctx root schemaPrefix s.catalog tableIds mapping := by
  obtain ⟨-, hcovers⟩ := mapNamespace_ok hmap
  have hlocal : ∀ (id : TableId) (t : LocalNamespaceTable),
      (introspectLocalNamespaceTables ctx.env ctx.serverName root s.catalog).1[id]? = some t →
      ∃ rel, s.catalog.relations[t.place]? = some rel :=
    fun id t ht => (localById_eq_some.mp ht).1.there
  have hpending : ∀ entry ∈ mapping.entries, Pending entry.2 s.catalog s.catalog :=
    fun _ _ => .refl _ _
  rw [planSync]
  rcases syncNamespace_mapped hmap h with ⟨e, rfl, hentries⟩ |
    ⟨rows, s₁, dropRows, s₂, hentries, hdrops, rfl⟩
  · rw [← syncEntries_planned hlocal hcovers.fits hcovers.places hpending hentries]
    rfl
  · rw [← syncEntries_planned hlocal hcovers.fits hcovers.places hpending hentries,
      (dropEntries_ok hdrops).rows]
    simp [Except.map, dropRow_key, Function.comp_def]

theorem syncNamespace_dry (ctx : SyncContext) (root : TableId) (schemaPrefix : String)
    (s : Session) : ∃ result, syncNamespace ctx.dry root schemaPrefix s = .ok result ∧
      ∀ rows s', result = .ok (rows, s') → s' = s := by
  rw [syncNamespace]
  cases mapNamespace ctx.dry.env ctx.dry.serverName root schemaPrefix defaultLimitPerListCall
      s.catalog with
  | error e => exact ⟨.error e, rfl, by simp⟩
  | ok p =>
    obtain ⟨tableIds, mapping⟩ := p
    obtain ⟨tables, htables⟩ : ∃ tables, introspectLocalNamespaceTables ctx.dry.env
        ctx.dry.serverName root s.catalog = tables := ⟨_, rfl⟩
    obtain ⟨result, hentries, hsession⟩ := syncEntries_dry ctx tables.1 mapping.entries s
    simp only [htables, hentries, bind, Except.bind]
    cases result with
    | error e => exact ⟨.error e, rfl, by simp⟩
    | ok p =>
      obtain ⟨rows, s₁⟩ := p
      cases hsession rows s₁ rfl
      obtain ⟨dropRows, hdrops⟩ := dropEntries_dry ctx (localOnlyTables tables.1 tableIds) s
      simp only [hdrops]
      exact ⟨_, rfl, by simp⟩

end

/-- A dry run executes nothing, and a real run from the same state, unless it is aborted, has the
same sequence of table ids, places and actions, or returns the same error. -/
theorem syncNamespace_dryRun (ctx : SyncContext) (root : TableId) (schemaPrefix : String)
    (s : Session) :
    ∃ result, syncNamespace { ctx with dryRun := true } root schemaPrefix s = .ok result ∧
      (∀ rows s', result = .ok (rows, s') → s' = s) ∧
      ∀ result', syncNamespace { ctx with dryRun := false } root schemaPrefix s = .ok result' →
        result'.map (fun p => p.1.map NamespaceRow.key) =
          result.map (fun p => p.1.map NamespaceRow.key) := by
  obtain ⟨result, hdry, hsession⟩ := syncNamespace_dry ctx root schemaPrefix s
  refine ⟨result, hdry, hsession, ?_⟩
  intro result' hreal
  cases hmap : mapNamespace ctx.env ctx.serverName root schemaPrefix defaultLimitPerListCall
    s.catalog with
  | error e =>
    rw [syncNamespace] at hdry hreal
    simp only [SyncContext.dry, hmap] at hdry hreal
    cases hdry
    cases hreal
    rfl
  | ok p =>
    obtain ⟨tableIds, mapping⟩ := p
    have hplan : planSync ctx.real root schemaPrefix s.catalog tableIds mapping =
        planSync ctx.dry root schemaPrefix s.catalog tableIds mapping := rfl
    have hdryKeys : result.map (fun p => p.1.map NamespaceRow.key) =
        planSync ctx.dry root schemaPrefix s.catalog tableIds mapping :=
      syncNamespace_planned hmap hdry
    have hrealKeys : result'.map (fun p => p.1.map NamespaceRow.key) =
        planSync ctx.real root schemaPrefix s.catalog tableIds mapping :=
      syncNamespace_planned hmap hreal
    rw [hdryKeys, hrealKeys, hplan]

/-- The parts of a sync that returns rows. -/
structure SyncRun (ctx : SyncContext) (root : TableId) (schemaPrefix : String) (s : Session)
    (rows : List NamespaceRow) (s' : Session) where
  tableIds : List TableId
  mapping : Mapping
  mapped : mapNamespace ctx.env ctx.serverName root schemaPrefix defaultLimitPerListCall s.catalog =
    .ok (tableIds, mapping)
  entryRows : List NamespaceRow
  synced : Session
  dropRows : List NamespaceRow
  entries : syncEntries ctx
    (introspectLocalNamespaceTables ctx.env ctx.serverName root s.catalog).1 mapping.entries s =
      .ok (.ok (entryRows, synced))
  drops : Dropped ctx (localOnlyTables
    (introspectLocalNamespaceTables ctx.env ctx.serverName root s.catalog).1 tableIds) synced
      dropRows s'
  rows_eq : rows = (mapping.conflicts.map fun tableId =>
    rowError tableId schemaPrefix mappingConflict) ++
      (introspectLocalNamespaceTables ctx.env ctx.serverName root s.catalog).2 ++ entryRows ++
      dropRows

section

variable {ctx : SyncContext} {root : TableId} {schemaPrefix : String} {s s' : Session}
  {rows : List NamespaceRow}

theorem syncNamespace_ok (h : syncNamespace ctx root schemaPrefix s = .ok (.ok (rows, s'))) :
    Nonempty (SyncRun ctx root schemaPrefix s rows s') := by
  cases hmap : mapNamespace ctx.env ctx.serverName root schemaPrefix defaultLimitPerListCall
    s.catalog with
  | error e =>
    rw [syncNamespace, hmap] at h
    cases h
  | ok p =>
    obtain ⟨tableIds, mapping⟩ := p
    rcases syncNamespace_mapped hmap h with ⟨e, heq, -⟩ |
      ⟨entryRows, synced, dropRows, s₂, hentries, hdrops, heq⟩
    · cases heq
    · cases heq
      exact ⟨⟨tableIds, mapping, hmap, entryRows, synced, dropRows, hentries, dropEntries_ok hdrops,
        rfl⟩⟩

namespace SyncRun

variable (run : SyncRun ctx root schemaPrefix s rows s')

theorem covers : run.mapping.Covers schemaPrefix run.tableIds := (mapNamespace_ok run.mapped).2

theorem listed : listTableIds ctx.env.remote root defaultLimitPerListCall = .ok run.tableIds :=
  (mapNamespace_ok run.mapped).1

theorem visits :
    (∀ entry ∈ run.mapping.entries, ∃ row ∈ run.entryRows, Visit ctx
      (introspectLocalNamespaceTables ctx.env ctx.serverName root s.catalog).1 s run.synced entry
        row) ∧
      ∀ row ∈ run.entryRows, ∃ entry ∈ run.mapping.entries, Visit ctx
        (introspectLocalNamespaceTables ctx.env ctx.serverName root s.catalog).1 s run.synced entry
          row :=
  syncEntries_visits run.covers.fits run.covers.places run.entries

theorem mem_localOnly {id : TableId} {t : LocalNamespaceTable} :
    (id, t) ∈ localOnlyTables
        (introspectLocalNamespaceTables ctx.env ctx.serverName root s.catalog).1 run.tableIds ↔
      (introspectLocalNamespaceTables ctx.env ctx.serverName root s.catalog).1[id]? = some t ∧
        id ∉ run.tableIds := by
  rw [localOnlyTables, List.mem_insertionSort, List.mem_filter,
    Std.TreeMap.mem_toList_iff_getElem?_eq_some]
  simp

theorem localOnly_fits : ∀ entry ∈ localOnlyTables
    (introspectLocalNamespaceTables ctx.env ctx.serverName root s.catalog).1 run.tableIds,
      entry.2.place.Fits := by
  rintro ⟨id, t⟩ hentry
  obtain ⟨rel, hrel⟩ := (localById_eq_some.mp (run.mem_localOnly.mp hentry).1).1.there
  exact s.catalog.fits t.place (Std.TreeMap.mem_iff_isSome_getElem?.mpr (by simp [hrel]))

theorem keeps_of_final {name : QualName} {rel : Relation}
    (h : s'.catalog.relations[name]? = some rel) :
    run.synced.catalog.relations[name]? = some rel := by
  cases hreal : ctx.dropMissing && !ctx.dryRun with
  | false => rwa [run.drops.kept hreal] at h
  | true =>
    rw [run.drops.relations hreal run.localOnly_fits] at h
    split at h
    · cases h
    · exact h

end SyncRun

theorem introspectStep_actions {env : NamespaceEnv} {acc : LocalById × List NamespaceRow}
    {entry : LocalNamespaceTable × Option String} (h : ∀ row ∈ acc.2, row.action = .error) :
    ∀ row ∈ (introspectStep env root acc entry).2, row.action = .error := by
  intro row hrow
  rw [introspectStep_spec, List.mem_append] at hrow
  cases hrow with
  | inl hrow => exact h row hrow
  | inr hrow =>
    split at hrow
    · rw [List.mem_singleton.mp hrow]
    · split at hrow
      · rw [List.mem_singleton.mp hrow]
      · cases hrow

theorem introspect_actions (env : NamespaceEnv) (serverName : String) (root : TableId)
    (σ : LocalCatalog) : ∀ row ∈ (introspectLocalNamespaceTables env serverName root σ).2,
      row.action = .error := by
  rw [introspectLocalNamespaceTables]
  induction namespaceTables σ serverName using List.reverseRecOn with
  | nil => simp
  | append_singleton tables entry ih =>
    rw [List.foldl_append, List.foldl_cons, List.foldl_nil]
    exact introspectStep_actions ih

theorem SyncRun.mem_entryRows (run : SyncRun ctx root schemaPrefix s rows s') {row : NamespaceRow}
    (hrow : row ∈ rows) (haction : row.action = .createTable ∨ row.action = .recreateTable) :
    row ∈ run.entryRows := by
  rw [run.rows_eq] at hrow
  simp only [List.mem_append] at hrow
  rcases hrow with ((hrow | hrow) | hrow) | hrow
  · obtain ⟨id, -, rfl⟩ := List.mem_map.mp hrow
    simp [rowError] at haction
  · simp [introspect_actions _ _ _ _ row hrow] at haction
  · exact hrow
  · rw [run.drops.rows] at hrow
    obtain ⟨entry, -, rfl⟩ := List.mem_map.mp hrow
    have hkey := congrArg (fun key => key.2.2) (dropRow_key ctx entry.1 entry.2.place)
    change (dropRow ctx entry.1 entry.2.place).action = _ at hkey
    rw [hkey] at haction
    split at haction <;> simp at haction

end

def Drifted (ctx : SyncContext) (root : TableId) (schemaPrefix : String) (σ : LocalCatalog)
    (id : TableId) (place : QualName) : Prop :=
  ∃ tableIds mapping t detail,
    mapNamespace ctx.env ctx.serverName root schemaPrefix defaultLimitPerListCall σ =
      .ok (tableIds, mapping) ∧
    (id, place) ∈ mapping.entries ∧
    (introspectLocalNamespaceTables ctx.env ctx.serverName root σ).1[id]? = some t ∧
    t.place = place ∧ detectSchemaDrift ctx.env id place σ = .ok (some detail)

section

variable {ctx : SyncContext} {localById : LocalById} {tableId : TableId} {place : QualName}
  {s s' : Session} {row : NamespaceRow}

/-- A failed recreate leaves nothing at the place. -/
theorem SyncEntry.recreate_failed (hfits : place.Fits)
    (h : SyncEntry ctx localById tableId place s (.ok (row, s')))
    (haction : row.action = .recreateTable) (hstatus : row.status = .failed) :
    row.place = place ∧ s'.catalog.relations[place]? = none ∧ ctx.recreateChanged = true ∧
      ctx.dryRun = false ∧ ∃ t fields detail e, localById[tableId]? = some t ∧ t.place = place ∧
        ctx.env.remote.load .driftCheck tableId = .ok fields ∧
        schemaDrift ctx.env.pg place fields s.catalog.relations[place]? = some detail ∧
        ctx.env.remote.load .attach tableId = .error e := by
  cases h with
  | create hnone hattach =>
    cases hattach with
    | @existing rel =>
      cases hrow : existingResult ⟨ctx.env, ctx.serverName, none, ctx.dryRun⟩ tableId place rel with
      | error e =>
        rw [hrow] at haction
        cases haction
      | ok row =>
        have hkey := existingResult_key hrow
        simp only [NamespaceRow.key, Prod.mk.injEq] at hkey
        rw [hrow, createRow, hkey.2.2] at haction
        cases haction
    | dryRun | failed | attached => cases haction
  | misplaced | inSync | drifted => cases haction
  | dryRun => cases hstatus
  | recreated ht hplace hload hdrift hrecreate hdry hdrop hattach =>
    have hgone : ∀ s₁ : Session, s₁.catalog = s.catalog.erase place →
        s₁.catalog.relations[place]? = none := by
      intro s₁ hcatalog
      rw [hcatalog, LocalCatalog.erase, Std.TreeMap.getElem?_erase_self]
    have hnone := hgone _ (drop_touches hfits hdrop).1
    cases hattach with
    | existing hrel =>
      rw [hnone] at hrel
      cases hrel
    | dryRun _ hdry' => cases hdry'
    | failed _ _ hattach =>
      exact ⟨rfl, hnone, hrecreate, hdry, _, _, _, _, ht, hplace, hload, hdrift, hattach⟩
    | attached => cases hstatus

theorem SyncEntry.recreate_fails (hfits : place.Fits)
    (h : SyncEntry ctx localById tableId place s (.ok (row, s')))
    {t : LocalNamespaceTable} {fields : Schema} {detail e : String}
    (ht : localById[tableId]? = some t) (hplace : t.place = place)
    (hload : ctx.env.remote.load .driftCheck tableId = .ok fields)
    (hdrift : schemaDrift ctx.env.pg place fields s.catalog.relations[place]? = some detail)
    (hattach : ctx.env.remote.load .attach tableId = .error e)
    (hrecreate : ctx.recreateChanged = true) (hdry : ctx.dryRun = false) :
    row.action = .recreateTable ∧ row.status = .failed := by
  cases h with
  | create hnone => rw [ht] at hnone; cases hnone
  | misplaced ht' hplace' => rw [ht] at ht'; cases ht'; exact absurd hplace hplace'
  | inSync _ _ hload' hdrift' =>
    rw [hload] at hload'
    cases hload'
    rw [hdrift] at hdrift'
    cases hdrift'
  | drifted _ _ _ _ hrecreate' => rw [hrecreate] at hrecreate'; cases hrecreate'
  | dryRun _ _ _ _ _ hdry' => rw [hdry] at hdry'; cases hdry'
  | recreated _ _ _ _ _ _ hdrop hattached =>
    cases hattached with
    | existing hrel =>
      have hgone := (drop_touches hfits hdrop).1
      rw [hgone, LocalCatalog.erase, Std.TreeMap.getElem?_erase_self] at hrel
      cases hrel
    | dryRun _ hdry' => cases hdry'
    | failed => exact ⟨rfl, rfl⟩
    | attached _ _ hattach' => rw [hattach] at hattach'; cases hattach'

end

/-- A sync that returns has kept the tables whose recreation failed exactly if there was none, and
a recreation fails where a drifted table does not load a second time. -/
theorem syncNamespace_recreate_keeps_iff {ctx : SyncContext} {root : TableId}
    {schemaPrefix : String} {s s' : Session} {rows : List NamespaceRow}
    (h : syncNamespace ctx root schemaPrefix s = .ok (.ok (rows, s'))) :
    (∀ row ∈ rows, row.action = .recreateTable → row.status = .failed →
      ∃ rel, s.catalog.relations[row.place]? = some rel ∧
        s'.catalog.relations[row.place]? = some rel) ↔
    (ctx.recreateChanged = true → ctx.dryRun = false → ∀ id place,
      Drifted ctx root schemaPrefix s.catalog id place →
        ∃ fields, ctx.env.remote.load .attach id = .ok fields) := by
  obtain ⟨run⟩ := syncNamespace_ok h
  have hfits := run.covers.fits
  obtain ⟨hentries, hrows⟩ := run.visits
  constructor
  · rintro hkeeps hrecreate hdry id place ⟨tableIds, mapping, t, detail, hmap, hentry, ht, hplace, hdrift⟩
    rw [run.mapped] at hmap
    cases hmap
    obtain ⟨fields, hload, hdrift⟩ := Fallible.map_ok_iff.mp hdrift
    cases hattach : ctx.env.remote.load .attach id with
    | ok fields => exact ⟨fields, rfl⟩
    | error e =>
      obtain ⟨row, hrow, s₁, s₂, hbefore, hvisit, hafter⟩ := hentries (id, place) hentry
      have hsame : s₁.catalog.relations[place]? = s.catalog.relations[place]? := by
        obtain ⟨rel, hrel⟩ := (localById_eq_some.mp ht).1.there
        rw [hplace] at hrel
        rw [hrel, hbefore.keeps rel hrel]
      obtain ⟨haction, hstatus⟩ := hvisit.recreate_fails (hfits _ hentry) ht hplace hload
        (hsame ▸ hdrift) hattach hrecreate hdry
      obtain ⟨hrowPlace, hnone, -⟩ := hvisit.recreate_failed (hfits _ hentry) haction hstatus
      have hmem : row ∈ rows := by
        rw [run.rows_eq]
        simp [hrow]
      obtain ⟨rel, hold, hnew⟩ := hkeeps row hmem haction hstatus
      rw [hrowPlace] at hold hnew
      have hkind := hafter.made rel hnone (run.keeps_of_final hnew)
      obtain ⟨json, htable, -⟩ := (localById_eq_some.mp ht).1
      obtain ⟨rel', options, hrel', hkind', -⟩ := mem_namespaceTables.mp htable
      rw [hplace, hold] at hrel'
      cases hrel'
      rw [hkind] at hkind'
      cases hkind'
  · intro hloads row hrow haction hstatus
    obtain ⟨⟨id, place⟩, hentry, s₁, s₂, hbefore, hvisit, -⟩ :=
      hrows row (run.mem_entryRows hrow (.inr haction))
    obtain ⟨-, -, hrecreate, hdry, t, fields, detail, e, ht, hplace, hload, hdrift, hattach⟩ :=
      hvisit.recreate_failed (hfits _ hentry) haction hstatus
    have hsame : s₁.catalog.relations[place]? = s.catalog.relations[place]? := by
      obtain ⟨rel, hrel⟩ := (localById_eq_some.mp ht).1.there
      rw [hplace] at hrel
      rw [hrel, hbefore.keeps rel hrel]
    have hdrifted : Drifted ctx root schemaPrefix s.catalog id place := by
      refine ⟨_, _, t, detail, run.mapped, hentry, ht, hplace, ?_⟩
      rw [detectSchemaDrift, hload, ← hsame]
      exact congrArg Except.ok hdrift
    obtain ⟨fields', hload'⟩ := hloads hrecreate hdry id place hdrifted
    simp only at hattach
    rw [hattach] at hload'
    cases hload'

/-- A namespace of one table, which loads once. -/
def flakyRemote : Remote :=
  .ofTree (fun ns => if ns = [] then ["t"] else []) (fun _ => []) [] Remote.nil_listed fun site _ =>
    match site with
    | .driftCheck => .ok [⟨"id", .leaf .int32, true⟩]
    | .attach => .error "connection reset"

def flakySync : SyncContext := ⟨.sample flakyRemote [["t"]], "srv", false, true, false⟩

def driftedSession : Session :=
  ⟨LocalCatalog.sample.insert "lance" "t" (.sample ["t"] "id" .text), [], []⟩

theorem flakySync_ok : ∃ s', syncNamespace flakySync [] "lance" driftedSession =
    .ok (.ok ([⟨["t"], ⟨"lance", "t"⟩, .recreateTable, .failed,
      "failed to recreate foreign table: connection reset"⟩], s')) ∧
      s'.catalog.relations[(⟨"lance", "t"⟩ : QualName)]? = none := by
  have hrun : (Fallible.returned (syncNamespace flakySync [] "lance" driftedSession)).any
      (fun p => p.1 = [⟨["t"], ⟨"lance", "t"⟩, .recreateTable, .failed,
        "failed to recreate foreign table: connection reset"⟩] &&
        p.2.catalog.relations[(⟨"lance", "t"⟩ : QualName)]?.isNone) = true := by decide
  obtain ⟨⟨rows, s'⟩, hreturned, hp⟩ := (Option.any_eq_true _ _).mp hrun
  rw [Bool.and_eq_true, decide_eq_true_iff, Option.isNone_iff_eq_none] at hp
  obtain ⟨hrows, hnone⟩ := hp
  simp only at hrows hnone
  exact ⟨s', by rw [Fallible.returned_eq_some.mp hreturned, hrows], hnone⟩

theorem syncNamespace_recreate_keeps_iff_sample :
    ∃ rows s', syncNamespace flakySync [] "lance" driftedSession = .ok (.ok (rows, s')) ∧
      ((∀ row ∈ rows, row.action = .recreateTable → row.status = .failed →
        ∃ rel, driftedSession.catalog.relations[row.place]? = some rel ∧
          s'.catalog.relations[row.place]? = some rel) ↔
      (flakySync.recreateChanged = true → flakySync.dryRun = false → ∀ id place,
        Drifted flakySync [] "lance" driftedSession.catalog id place →
          ∃ fields, flakySync.env.remote.load .attach id = .ok fields)) := by
  obtain ⟨s', hrun, -⟩ := flakySync_ok
  exact ⟨_, s', hrun, syncNamespace_recreate_keeps_iff hrun⟩

theorem syncNamespace_recreate_loses_table :
    ∃ rows s', syncNamespace flakySync [] "lance" driftedSession = .ok (.ok (rows, s')) ∧
      ¬ ∀ row ∈ rows, row.action = .recreateTable → row.status = .failed →
        ∃ rel, driftedSession.catalog.relations[row.place]? = some rel ∧
          s'.catalog.relations[row.place]? = some rel := by
  obtain ⟨s', hrun, hnone⟩ := flakySync_ok
  refine ⟨_, s', hrun, ?_⟩
  intro h
  obtain ⟨rel, -, hrel⟩ := h _ (List.mem_singleton_self _) rfl rfl
  rw [hnone] at hrel
  cases hrel

end PgLance
