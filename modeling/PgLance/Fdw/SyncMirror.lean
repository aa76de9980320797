import PgLance.Fdw.AttachLaws

/-! When the tables of a server are those of a namespace, and what a sync says then. -/

namespace PgLance

/-- The tables of a server under a root are the listed ones, each where its name is mapped to. -/
def Mirrors (env : NamespaceEnv) (serverName : String) (root : TableId) (schemaPrefix : String)
    (tableIds : List TableId) (σ : LocalCatalog) : Prop :=
  ∀ id place, (∃ t, Carries env serverName root σ id t ∧ t.place = place) ↔
    id ∈ tableIds ∧ localPlace schemaPrefix id = .ok place

def ReadableIds (env : NamespaceEnv) (serverName : String) (σ : LocalCatalog) : Prop :=
  ∀ entry ∈ namespaceTables σ serverName, ∃ id, parseTableId env entry.2 = .ok id

/-- The row says that something was done, or that nothing was to be done. -/
def NamespaceRow.Settles (row : NamespaceRow) : Prop := row.status = .ok ∧ row.action ≠ .drift

section

variable {env : NamespaceEnv} {serverName : String} {root id : TableId} {σ : LocalCatalog}

theorem carries_of_options {place : QualName} {rel : Relation}
    {options : List (String × Option String)} (hrel : σ.relations[place]? = some rel)
    (hkind : rel.kind = .foreignTable serverName options)
    (hlookup : options.lookup optNsTableId = some (some (env.tableIdToJson id)))
    (hround : env.tableIdFromJson (env.tableIdToJson id) = .ok id) (hid : id ≠ [])
    (hroot : root <+: id) : ∃ t, Carries env serverName root σ id t ∧ t.place = place := by
  refine ⟨⟨place, (options.lookup optBatchSize).join.bind i64Parse⟩, ⟨_, mem_namespaceTables.mpr
    ⟨rel, options, hrel, hkind, hlookup, rfl⟩, carriedId_eq_some.mpr ⟨?_, ?_⟩⟩, rfl⟩
  · simp only [parseTableId, hround, List.isEmpty_iff, hid, if_false]
  · rw [hasPrefix, List.isPrefixOf_iff_prefix]
    exact hroot

theorem Carries.readable {t t' : LocalNamespaceTable} {json : Option String}
    (h : Carries env serverName root σ id t') (hplace : t'.place = t.place)
    (hmem : (t, json) ∈ namespaceTables σ serverName) : parseTableId env json = .ok id := by
  obtain ⟨json', hmem', hid⟩ := h
  obtain ⟨rel, options, hrel, hkind, hjson, -⟩ := mem_namespaceTables.mp hmem
  obtain ⟨rel', options', hrel', hkind', hjson', -⟩ := mem_namespaceTables.mp hmem'
  rw [hplace, hrel] at hrel'
  cases hrel'
  rw [hkind] at hkind'
  cases hkind'
  rw [hjson] at hjson'
  cases hjson'
  exact (carriedId_eq_some.mp hid).1

end

structure Placed (env : NamespaceEnv) (serverName : String) (root : TableId) (σ : LocalCatalog)
    (id : TableId) (place : QualName) : Prop where
  carried : ∃ t, Carries env serverName root σ id t ∧ t.place = place
  noDrift : FreshInSync env serverName [id] → ∀ fields,
    env.remote.load .driftCheck id = .ok fields →
      schemaDrift env.pg place fields σ.relations[place]? = none

section

variable {env : NamespaceEnv} {serverName : String} {root id : TableId} {σ σ' : LocalCatalog}
  {place : QualName}

theorem Placed.congr (h : Placed env serverName root σ id place)
    (hsame : σ.relations[place]? = σ'.relations[place]?) :
    Placed env serverName root σ' id place := by
  obtain ⟨⟨t, ht, rfl⟩, hdrift⟩ := h
  exact ⟨⟨t, ht.congr hsame, rfl⟩, hsame ▸ hdrift⟩

theorem Placed.pending (h : Placed env serverName root σ id place) (hpending : Pending place σ σ') :
    Placed env serverName root σ' id place := by
  obtain ⟨t, ht, rfl⟩ := h.carried
  obtain ⟨rel, hrel⟩ := ht.there
  exact h.congr (hrel.trans (hpending.keeps rel hrel).symm)

theorem Attached.placed {batchSize : Option Int} {fields : Schema} {s s' : Session}
    (h : Attached ⟨env, serverName, batchSize, false⟩ id place fields s s') (hfits : place.Fits)
    (hnone : s.catalog.relations[place]? = none)
    (hown : ∀ path, compositeTypeName place.name path ≠ place.name)
    (hround : env.tableIdFromJson (env.tableIdToJson id) = .ok id) (hid : id ≠ [])
    (hroot : root <+: id) : Placed env serverName root s'.catalog id place := by
  obtain ⟨rel, hrel, hkind | ⟨hkind, -⟩⟩ := h.made_kind hfits hnone
  · obtain ⟨path, hpath⟩ := h.composite_path hnone hrel hkind
    exact absurd hpath (hown path)
  · refine ⟨carries_of_options hrel hkind (lookup_attachOptions _ id) hround hid hroot, ?_⟩
    intro hfresh fields hload
    have hdrift := hfresh id (List.mem_singleton_self id) batchSize place s s' rel _ _ h.attaches
      hrel hkind
    rw [detectSchemaDrift, hload] at hdrift
    exact Except.ok.inj hdrift

end

structure SettledEntry (ctx : SyncContext) (root : TableId) (σ σ' : LocalCatalog) (id : TableId)
    (place : QualName) : Prop where
  there : ∀ t, (introspectLocalNamespaceTables ctx.env ctx.serverName root σ).1[id]? = some t →
    t.place = place
  free : (introspectLocalNamespaceTables ctx.env ctx.serverName root σ).1[id]? = none →
    σ.relations[place]? = none
  placed : Placed ctx.env ctx.serverName root σ' id place

theorem Visit.settledEntry {ctx : SyncContext} {root id : TableId} {place : QualName}
    {s s' : Session} {row : NamespaceRow} (h : Visit ctx
      (introspectLocalNamespaceTables ctx.env ctx.serverName root s.catalog).1 s s' (id, place) row)
    (hrow : row.Settles) (hfits : place.Fits)
    (hown : ∀ path, compositeTypeName place.name path ≠ place.name)
    (hround : ctx.env.tableIdFromJson (ctx.env.tableIdToJson id) = .ok id) (hid : id ≠ [])
    (hroot : root <+: id) : SettledEntry ctx root s.catalog s'.catalog id place := by
  obtain ⟨s₁, s₂, hbefore, hentry, hafter⟩ := h
  obtain ⟨hok, haction⟩ := hrow
  simp only at hbefore hentry hafter
  have hlocal : ∀ t,
      (introspectLocalNamespaceTables ctx.env ctx.serverName root s.catalog).1[id]? = some t →
      t.place = place → Placed ctx.env ctx.serverName root s₂.catalog id place →
        SettledEntry ctx root s.catalog s'.catalog id place := by
    intro t ht hplace hplaced
    refine ⟨?_, ?_, hplaced.pending hafter⟩
    · intro t' ht'
      rw [ht] at ht'
      cases ht'
      exact hplace
    · intro hnone
      rw [hnone] at ht
      cases ht
  cases hentry with
  | create hnone hattach =>
    cases hattach with
    | @existing rel =>
      cases hresult : existingResult ⟨ctx.env, ctx.serverName, none, ctx.dryRun⟩ id place rel with
      | error e =>
        rw [hresult] at hok
        cases hok
      | ok row =>
        rw [hresult, createRow, existingResult_ok hresult] at hok
        cases hok
    | dryRun | failed => cases hok
    | attached hfree hdry _ hattached =>
      simp only at hdry
      rw [hdry] at hattached
      refine ⟨?_, fun _ => hbefore.none hfree,
        (hattached.placed hfits hfree hown hround hid hroot).pending hafter⟩
      intro t' ht'
      rw [hnone] at ht'
      cases ht'
  | misplaced | drifted => exact absurd rfl haction
  | inSync ht hplace hload hdrift =>
    refine hlocal _ ht hplace ⟨⟨_, ?_, hplace⟩, ?_⟩
    · obtain ⟨rel, hrel⟩ := (localById_eq_some.mp ht).1.there
      rw [← hplace] at hbefore
      exact (localById_eq_some.mp ht).1.congr (hrel.trans (hbefore.keeps rel hrel).symm)
    · intro _ fields hload'
      rw [hload] at hload'
      cases hload'
      exact hdrift
  | dryRun => cases hok
  | recreated ht hplace _ _ _ _ hdrop hattach =>
    have hgone := (drop_touches hfits hdrop).1
    cases hattach with
    | existing hfound =>
      rw [hgone, LocalCatalog.erase, Std.TreeMap.getElem?_erase_self] at hfound
      cases hfound
    | dryRun _ hdry => cases hdry
    | failed => cases hok
    | attached hfree _ _ hattached =>
      exact hlocal _ ht hplace (hattached.placed hfits hfree hown hround hid hroot)

section

variable {schemaPrefix : String} {tableIds : List TableId} {mapping : Mapping}

theorem Mapping.Covers.exists_entry (hcovers : mapping.Covers schemaPrefix tableIds)
    (h : mapping.conflicts = []) {id : TableId} (hid : id ∈ tableIds) :
    ∃ place, (id, place) ∈ mapping.entries ∧ localPlace schemaPrefix id = .ok place := by
  have hmem := hcovers.perm.mem_iff.mpr hid
  rw [h, List.nil_append] at hmem
  obtain ⟨⟨id, place⟩, hentry, rfl⟩ := List.mem_map.mp hmem
  exact ⟨place, hentry, (hcovers.place id place hentry).1⟩

theorem Mapping.Covers.nodup (hcovers : mapping.Covers schemaPrefix tableIds)
    (h : mapping.conflicts = []) : tableIds.Nodup := by
  have hperm := hcovers.perm
  rw [h, List.nil_append] at hperm
  exact hperm.nodup_iff.mp hcovers.tableIds

theorem Mapping.Covers.mirrors {env : NamespaceEnv} {serverName : String} {root : TableId}
    {σ : LocalCatalog} (hcovers : mapping.Covers schemaPrefix tableIds)
    (h : mapping.conflicts = [])
    (hplaced : ∀ id place, (id, place) ∈ mapping.entries → Placed env serverName root σ id place)
    (hothers : ∀ id t, Carries env serverName root σ id t →
      t.place ∈ mapping.entries.map Prod.snd) :
    Mirrors env serverName root schemaPrefix tableIds σ := by
  intro id place
  constructor
  · rintro ⟨t, ht, rfl⟩
    obtain ⟨⟨id', place'⟩, hentry, hplace⟩ := List.mem_map.mp (hothers id t ht)
    obtain ⟨t', ht', hplace'⟩ := (hplaced id' place' hentry).carried
    obtain ⟨rfl, rfl⟩ := ht.unique ht' (hplace.symm.trans hplace'.symm)
    rw [hplace']
    exact (hcovers.place id place' hentry).symm
  · rintro ⟨hid, hplace⟩
    obtain ⟨place', hentry, hplace'⟩ := hcovers.exists_entry h hid
    cases hplace.symm.trans hplace'
    exact (hplaced id place hentry).carried

end

namespace SyncRun

variable {ctx : SyncContext} {root : TableId} {schemaPrefix : String} {s s' : Session}
  {rows : List NamespaceRow} (run : SyncRun ctx root schemaPrefix s rows s')

include run in
theorem mem_rows_of_error {row : NamespaceRow}
    (h : row ∈ (introspectLocalNamespaceTables ctx.env ctx.serverName root s.catalog).2) :
    row ∈ rows := by
  rw [run.rows_eq]
  simp only [List.mem_append]
  exact .inl (.inl (.inr h))

theorem mem_rows_of_entry {row : NamespaceRow} (h : row ∈ run.entryRows) : row ∈ rows := by
  rw [run.rows_eq]
  simp only [List.mem_append]
  exact .inl (.inr h)

theorem mem_rows_of_drop {row : NamespaceRow} (h : row ∈ run.dropRows) : row ∈ rows := by
  rw [run.rows_eq]
  simp only [List.mem_append]
  exact .inr h

theorem conflicts_nil (h : ∀ row ∈ rows, row.Settles) : run.mapping.conflicts = [] := by
  rw [List.eq_nil_iff_forall_not_mem]
  intro id hid
  have hrow : rowError id schemaPrefix mappingConflict ∈ rows := by
    rw [run.rows_eq]
    simp only [List.mem_append, List.mem_map]
    exact .inl (.inl (.inl ⟨id, hid, rfl⟩))
  cases (h _ hrow).1

include run in
theorem distinctIds (h : ∀ row ∈ rows, row.Settles) :
    DistinctIds ctx.env ctx.serverName root s.catalog := by
  intro id t t' ht ht'
  by_contra hne
  obtain ⟨last, -, hmem⟩ := duplicate_error ht ht' hne
  cases (h _ (run.mem_rows_of_error hmem)).1

include run in
theorem readable (h : ∀ row ∈ rows, row.Settles) :
    ReadableIds ctx.env ctx.serverName s.catalog := by
  rintro ⟨t, json⟩ hmem
  have herrors := introspect_errors_of_distinctIds (run.distinctIds h)
  cases hparse : parseTableId ctx.env json with
  | ok id => exact ⟨id, rfl⟩
  | error detail =>
    have hinvalid : ⟨[], t.place, .error, .failed, detail⟩ ∈
        (introspectLocalNamespaceTables ctx.env ctx.serverName root s.catalog).2 := by
      rw [herrors, List.mem_filterMap]
      exact ⟨_, hmem, by rw [invalidRow, hparse]⟩
    cases (h _ (run.mem_rows_of_error hinvalid)).1

theorem settledEntry (hround : IdsRoundTrip ctx.env run.tableIds)
    (h : ∀ row ∈ rows, row.Settles) {id : TableId} {place : QualName}
    (hentry : (id, place) ∈ run.mapping.entries) :
    SettledEntry ctx root s.catalog run.synced.catalog id place := by
  obtain ⟨row, hrow, hvisit⟩ := run.visits.1 (id, place) hentry
  obtain ⟨hplace, hlisted⟩ := run.covers.place id place hentry
  have hlength := length_lt_of_mem_listTableIds run.listed hlisted
  exact hvisit.settledEntry (h row (run.mem_rows_of_entry hrow)) (run.covers.fits _ hentry)
    (localPlace_own hplace) (hround id hlisted) (List.ne_nil_of_length_pos (by omega))
    (prefix_of_mem_listTableIds run.listed hlisted)

theorem unlisted_dropped (h : ∀ row ∈ rows, row.Settles) {id : TableId} {t : LocalNamespaceTable}
    (ht : Carries ctx.env ctx.serverName root s.catalog id t) (hid : id ∉ run.tableIds) :
    s'.catalog.relations[t.place]? = none := by
  have hlocal : (introspectLocalNamespaceTables ctx.env ctx.serverName root s.catalog).1[id]? =
      some t := by
    cases hlocal : (introspectLocalNamespaceTables ctx.env ctx.serverName root
        s.catalog).1[id]? with
    | none => exact absurd ht (localById_eq_none.mp hlocal t)
    | some t' =>
      rw [run.distinctIds h id t t' ht (localById_eq_some.mp hlocal).1]
  have hentry := run.mem_localOnly.mpr ⟨hlocal, hid⟩
  have hrow := h (dropRow ctx id t.place) (run.mem_rows_of_drop (by
    rw [run.drops.rows]
    exact List.mem_map_of_mem hentry))
  have hreal : (ctx.dropMissing && !ctx.dryRun) = true := by
    rw [dropRow] at hrow
    cases hmissing : ctx.dropMissing <;> cases hdry : ctx.dryRun <;>
      simp [hmissing, hdry, NamespaceRow.Settles] at hrow ⊢
  rw [run.drops.relations hreal run.localOnly_fits, if_pos (List.mem_map_of_mem hentry)]

theorem listed_kept (hround : IdsRoundTrip ctx.env run.tableIds)
    (h : ∀ row ∈ rows, row.Settles) {id : TableId} {place : QualName}
    (hentry : (id, place) ∈ run.mapping.entries) :
    s'.catalog.relations[place]? = run.synced.catalog.relations[place]? := by
  have hsettled := run.settledEntry hround h hentry
  cases hreal : ctx.dropMissing && !ctx.dryRun with
  | false => exact congrArg (fun s => s.catalog.relations[place]?) (run.drops.kept hreal)
  | true =>
    rw [run.drops.relations hreal run.localOnly_fits, if_neg]
    rw [run.mem_dropped]
    rintro ⟨id', t', ht', hunlisted, rfl⟩
    have hcarries' := (localById_eq_some.mp ht').1
    obtain ⟨rel, hrel⟩ := hcarries'.there
    cases hlocal : (introspectLocalNamespaceTables ctx.env ctx.serverName root
        s.catalog).1[id]? with
    | none =>
      rw [hsettled.free hlocal] at hrel
      cases hrel
    | some t =>
      have hcarries := (localById_eq_some.mp hlocal).1
      obtain ⟨rfl, -⟩ := hcarries.unique hcarries' (hsettled.there t hlocal)
      exact hunlisted (run.covers.place id _ hentry).2

theorem placed (hround : IdsRoundTrip ctx.env run.tableIds) (h : ∀ row ∈ rows, row.Settles)
    {id : TableId} {place : QualName} (hentry : (id, place) ∈ run.mapping.entries) :
    Placed ctx.env ctx.serverName root s'.catalog id place :=
  (run.settledEntry hround h hentry).placed.congr (run.listed_kept hround h hentry).symm

/-- After a sync whose rows all settle their tables, the listed tables are there, and no others. -/
theorem mirrors (hround : IdsRoundTrip ctx.env run.tableIds) (h : ∀ row ∈ rows, row.Settles) :
    Mirrors ctx.env ctx.serverName root schemaPrefix run.tableIds s'.catalog := by
  have hconflicts := run.conflicts_nil h
  refine run.covers.mirrors hconflicts (fun id place => run.placed hround h) ?_
  intro id t ht
  by_contra hname
  -- what is at no place of the mapping was there before
  obtain ⟨rel, hrel⟩ := ht.there
  have hold : Carries ctx.env ctx.serverName root s.catalog id t := by
    have hsynced := run.keeps_of_final hrel
    rcases (syncEntries_touches run.covers.fits run.entries).made _ rel hname hsynced with
      hold | hcomposite
    · exact ht.congr (hrel.trans hold.symm)
    · exact absurd hcomposite (ht.not_composite hrel)
  have hid : id ∈ run.tableIds := by
    by_contra hid
    rw [run.unlisted_dropped h hold hid] at hrel
    cases hrel
  obtain ⟨place', hentry, -⟩ := run.covers.exists_entry hconflicts hid
  have hsettled := run.settledEntry hround h hentry
  cases hlocal : (introspectLocalNamespaceTables ctx.env ctx.serverName root s.catalog).1[id]? with
  | none => exact absurd hold (localById_eq_none.mp hlocal t)
  | some t' =>
    have heq := run.distinctIds h id t t' hold (localById_eq_some.mp hlocal).1
    exact hname (List.mem_map.mpr ⟨_, hentry, by rw [heq, hsettled.there t' hlocal]⟩)

end SyncRun

/-- The local tables are the listed ones, and there is nothing to be said of them. -/
structure UpToDate (ctx : SyncContext) (root : TableId) (schemaPrefix : String)
    (tableIds : List TableId) (σ : LocalCatalog) : Prop where
  nodup : tableIds.Nodup
  mirrors : Mirrors ctx.env ctx.serverName root schemaPrefix tableIds σ
  noDrift : ∀ id ∈ tableIds, ∀ place, localPlace schemaPrefix id = .ok place →
    detectSchemaDrift ctx.env id place σ = .ok none
  readable : ReadableIds ctx.env ctx.serverName σ

theorem mapNamespace_mapping {env : NamespaceEnv} {serverName schemaPrefix : String}
    {root : TableId} {limit : Int} {σ : LocalCatalog} {tableIds : List TableId} {mapping : Mapping}
    (h : mapNamespace env serverName root schemaPrefix limit σ = .ok (tableIds, mapping)) :
    buildMapping schemaPrefix tableIds = .ok mapping := by
  obtain ⟨-, -, h⟩ := Fallible.bind_ok_iff.mp h
  obtain ⟨-, -, h⟩ := Fallible.bind_ok_iff.mp h
  obtain ⟨ids, -, h⟩ := Fallible.bind_ok_iff.mp h
  obtain ⟨mapping', hmapping, h⟩ := Fallible.bind_ok_iff.mp h
  cases h
  exact hmapping

def inSyncRow (entry : TableId × QualName) : NamespaceRow :=
  ⟨entry.1, entry.2, .inSync, .ok, "up to date"⟩

theorem SyncEntry.of_inSync {ctx : SyncContext} {localById : LocalById} {id : TableId}
    {place : QualName} {s s' : Session} {row : NamespaceRow}
    (h : SyncEntry ctx localById id place s (.ok (row, s'))) (hrow : row.action = .inSync) :
    ∃ t fields, localById[id]? = some t ∧ t.place = place ∧
      ctx.env.remote.load .driftCheck id = .ok fields ∧
        schemaDrift ctx.env.pg place fields s.catalog.relations[place]? = none := by
  cases h with
  | create _ hattach =>
    cases hattach with
    | @existing rel =>
      cases hresult : existingResult ⟨ctx.env, ctx.serverName, none, ctx.dryRun⟩ id place rel with
      | error e =>
        rw [hresult] at hrow
        cases hrow
      | ok row =>
        have hkey := congrArg (fun key => key.2.2) (existingResult_key hresult)
        rw [hresult] at hrow
        cases hkey.symm.trans hrow
    | dryRun | failed | attached => cases hrow
  | misplaced | drifted | dryRun => cases hrow
  | inSync ht hplace hload hdrift => exact ⟨_, _, ht, hplace, hload, hdrift⟩
  | @recreated _ _ _ _ result =>
    cases result <;> cases hrow

theorem syncEntries_inSync {ctx : SyncContext} {localById : LocalById} {s : Session}
    {entries : List (TableId × QualName)}
    (hlocal : ∀ entry ∈ entries, ∃ t, localById[entry.1]? = some t ∧ t.place = entry.2)
    (hdrift : ∀ entry ∈ entries, detectSchemaDrift ctx.env entry.1 entry.2 s.catalog = .ok none) :
    syncEntries ctx localById entries s = .ok (.ok (entries.map inSyncRow, s)) := by
  induction entries with
  | nil => rfl
  | cons entry entries ih =>
    obtain ⟨tableId, place⟩ := entry
    rw [List.forall_mem_cons] at hlocal hdrift
    obtain ⟨⟨t, ht, rfl⟩, hlocal⟩ := hlocal
    have hentry : syncEntry ctx localById tableId t.place s =
        .ok (.ok (inSyncRow (tableId, t.place), s)) := by
      simp only [syncEntry, ht, ne_eq, not_true_eq_false, if_false, hdrift.1]
      rfl
    rw [syncEntries, hentry]
    simp only [bind, Except.bind, ih hlocal hdrift.2]
    rfl

section

variable {ctx : SyncContext} {root : TableId} {schemaPrefix : String} {s : Session}
  {tableIds : List TableId} {mapping : Mapping}

theorem Mirrors.distinctIds {env : NamespaceEnv} {serverName : String} {σ : LocalCatalog}
    (h : Mirrors env serverName root schemaPrefix tableIds σ) :
    DistinctIds env serverName root σ := by
  intro id t t' ht ht'
  have hplace := ((h id t.place).mp ⟨t, ht, rfl⟩).2
  have hplace' := ((h id t'.place).mp ⟨t', ht', rfl⟩).2
  exact (ht.unique ht' (Except.ok.inj (hplace.symm.trans hplace'))).2

theorem Mirrors.conflicts_nil {env : NamespaceEnv} {serverName : String} {σ : LocalCatalog}
    (h : Mirrors env serverName root schemaPrefix tableIds σ) (hnodup : tableIds.Nodup)
    (hmapping : buildMapping schemaPrefix tableIds = .ok mapping) : mapping.conflicts = [] := by
  rw [List.eq_nil_iff_forall_not_mem]
  intro id hconflict
  have hcovers := buildMapping_covers hmapping
  have hid : id ∈ tableIds := hcovers.perm.mem_iff.mp (List.mem_append_left _ hconflict)
  obtain ⟨i, hi⟩ := List.mem_iff_getElem?.mp hid
  obtain ⟨j, other, hne, hj, hsame⟩ := (mem_conflicts_iff hmapping hi).mp hconflict
  cases hplace : localPlace schemaPrefix id with
  | error e =>
    -- a listed id that has no place makes the mapping fail
    obtain ⟨placed, hplaced, -⟩ := Fallible.bind_ok_iff.mp hmapping
    obtain ⟨rfl, hplaces⟩ := placed_ok hplaced
    obtain ⟨entry, hentry, rfl⟩ := List.mem_map.mp hid
    rw [hplaces entry hentry] at hplace
    cases hplace
  | ok place =>
    obtain ⟨t, ht, htplace⟩ := (h id place).mpr ⟨hid, hplace⟩
    obtain ⟨t', ht', htplace'⟩ :=
      (h other place).mpr ⟨List.mem_of_getElem? hj, hsame.trans hplace⟩
    obtain ⟨rfl, -⟩ := ht.unique ht' (htplace.trans htplace'.symm)
    exact hne ((List.getElem?_inj (List.getElem?_eq_some_iff.mp hj).1 hnodup).mp (hj.trans hi.symm))

theorem UpToDate.sync (hmap : mapNamespace ctx.env ctx.serverName root schemaPrefix
      defaultLimitPerListCall s.catalog = .ok (tableIds, mapping))
    (h : UpToDate ctx root schemaPrefix tableIds s.catalog) :
    syncNamespace ctx root schemaPrefix s = .ok (.ok (mapping.entries.map inSyncRow, s)) := by
  have hcovers := (mapNamespace_ok hmap).2
  have hconflicts := h.mirrors.conflicts_nil h.nodup (mapNamespace_mapping hmap)
  have herrors : (introspectLocalNamespaceTables ctx.env ctx.serverName root s.catalog).2 = [] := by
    rw [introspect_errors_of_distinctIds h.mirrors.distinctIds, List.filterMap_eq_nil_iff]
    intro entry hentry
    obtain ⟨id, hid⟩ := h.readable entry hentry
    rw [invalidRow, hid]
  have hcarried : ∀ id t,
      (introspectLocalNamespaceTables ctx.env ctx.serverName root s.catalog).1[id]? = some t →
        id ∈ tableIds := fun id t ht =>
    ((h.mirrors id t.place).mp ⟨t, (localById_eq_some.mp ht).1, rfl⟩).1
  have hdrops : localOnlyTables
      (introspectLocalNamespaceTables ctx.env ctx.serverName root s.catalog).1 tableIds = [] := by
    rw [List.eq_nil_iff_forall_not_mem]
    rintro ⟨id, t⟩ hmem
    rw [localOnlyTables, List.mem_insertionSort, List.mem_filter,
      Std.TreeMap.mem_toList_iff_getElem?_eq_some] at hmem
    have hid := hcarried id t hmem.1
    simp [hid] at hmem
  have hlocal : ∀ entry ∈ mapping.entries, ∃ t, (introspectLocalNamespaceTables ctx.env
      ctx.serverName root s.catalog).1[entry.1]? = some t ∧ t.place = entry.2 := by
    rintro ⟨id, place⟩ hentry
    obtain ⟨hplace, hid⟩ := hcovers.place id place hentry
    obtain ⟨t, ht, rfl⟩ := (h.mirrors id place).mpr ⟨hid, hplace⟩
    cases hlocal : (introspectLocalNamespaceTables ctx.env ctx.serverName root
        s.catalog).1[id]? with
    | none => exact absurd ht (localById_eq_none.mp hlocal t)
    | some t' =>
      have heq := h.mirrors.distinctIds id t' t (localById_eq_some.mp hlocal).1 ht
      exact ⟨t', rfl, by rw [heq]⟩
  have hdrift : ∀ entry ∈ mapping.entries,
      detectSchemaDrift ctx.env entry.1 entry.2 s.catalog = .ok none := by
    rintro ⟨id, place⟩ hentry
    obtain ⟨hplace, hid⟩ := hcovers.place id place hentry
    exact h.noDrift id hid place hplace
  have hentries := syncEntries_inSync hlocal hdrift
  rw [syncNamespace, hmap]
  simp only [bind, Except.bind, hentries, hdrops, dropEntries, hconflicts, herrors, List.map_nil,
    List.nil_append, List.append_nil]
  rfl

theorem SyncRun.upToDate {s' : Session} {rows : List NamespaceRow}
    (run : SyncRun ctx root schemaPrefix s rows s')
    (h : ∀ row ∈ rows, row.status = .ok ∧ row.action = .inSync) :
    UpToDate ctx root schemaPrefix run.tableIds s.catalog := by
  have hsettles : ∀ row ∈ rows, row.Settles := by
    intro row hrow
    refine ⟨(h row hrow).1, ?_⟩
    rw [(h row hrow).2]
    simp
  have hconflicts := run.conflicts_nil hsettles
  have hdistinct := run.distinctIds hsettles
  have hlocalOnly : localOnlyTables (introspectLocalNamespaceTables ctx.env ctx.serverName root
      s.catalog).1 run.tableIds = [] := by
    rw [List.eq_nil_iff_forall_not_mem]
    intro entry hentry
    have hrow := (h _ (run.mem_rows_of_drop (by
      rw [run.drops.rows]
      exact List.mem_map_of_mem hentry))).2
    have hkey := congrArg (fun key => key.2.2) (dropRow_key ctx entry.1 entry.2.place)
    simp only [NamespaceRow.key, hrow] at hkey
    split at hkey <;> cases hkey
  have hentry : ∀ id place, (id, place) ∈ run.mapping.entries →
      ∃ t fields, (introspectLocalNamespaceTables ctx.env ctx.serverName root s.catalog).1[id]? =
        some t ∧ t.place = place ∧ ctx.env.remote.load .driftCheck id = .ok fields ∧
          schemaDrift ctx.env.pg place fields s.catalog.relations[place]? = none := by
    intro id place hentry
    obtain ⟨row, hrow, s₁, s₂, hbefore, hvisit, -⟩ := run.visits.1 (id, place) hentry
    obtain ⟨t, fields, ht, rfl, hload, hdrift⟩ :=
      hvisit.of_inSync (h row (run.mem_rows_of_entry hrow)).2
    obtain ⟨rel, hrel⟩ := (localById_eq_some.mp ht).1.there
    simp only at hbefore
    rw [hbefore.keeps rel hrel, ← hrel] at hdrift
    exact ⟨t, fields, ht, rfl, hload, hdrift⟩
  refine ⟨run.covers.nodup hconflicts, ?_, ?_, run.readable hsettles⟩
  · intro id place
    constructor
    · rintro ⟨t, ht, rfl⟩
      cases hlocal : (introspectLocalNamespaceTables ctx.env ctx.serverName root
          s.catalog).1[id]? with
      | none => exact absurd ht (localById_eq_none.mp hlocal t)
      | some t' =>
        obtain rfl := hdistinct id t t' ht (localById_eq_some.mp hlocal).1
        have hid : id ∈ run.tableIds := by
          by_contra hid
          have hmem := run.mem_localOnly.mpr ⟨hlocal, hid⟩
          rw [hlocalOnly] at hmem
          cases hmem
        obtain ⟨place, hplaced, hplace⟩ := run.covers.exists_entry hconflicts hid
        obtain ⟨t', -, ht', htplace, -⟩ := hentry id place hplaced
        rw [hlocal] at ht'
        cases ht'
        exact ⟨hid, htplace ▸ hplace⟩
    · rintro ⟨hid, hplace⟩
      obtain ⟨place', hplaced, hplace'⟩ := run.covers.exists_entry hconflicts hid
      cases hplace.symm.trans hplace'
      obtain ⟨t, -, ht, htplace, -⟩ := hentry id place hplaced
      exact ⟨t, (localById_eq_some.mp ht).1, htplace⟩
  · intro id hid place hplace
    obtain ⟨place', hplaced, hplace'⟩ := run.covers.exists_entry hconflicts hid
    cases hplace.symm.trans hplace'
    obtain ⟨-, fields, -, -, hload, hdrift⟩ := hentry id place hplaced
    rw [detectSchemaDrift, hload, Except.map, hdrift]

end

/-- The datasets load, do not change, and have short names and no nested lists. -/
def Remote.Shallow (remote : Remote) (tableIds : List TableId) : Prop :=
  ∀ id ∈ tableIds, ∃ fields, (∀ site, remote.load site id = .ok fields) ∧
    ∀ f ∈ fields, f.name.utf8ByteSize ≤ 63 ∧ f.dataType.listDepth ≤ 1

theorem Placed.inSync {env : NamespaceEnv} {serverName : String} {root id : TableId}
    {σ : LocalCatalog} {place : QualName} {tableIds : List TableId}
    (h : Placed env serverName root σ id place) (hshallow : env.remote.Shallow tableIds)
    (hid : id ∈ tableIds) : detectSchemaDrift env id place σ = .ok none := by
  obtain ⟨fields, hload, hfields⟩ := hshallow id hid
  have hfresh : FreshInSync env serverName [id] := by
    apply freshInSync_of_shallow
    intro id' hid'
    rw [List.mem_singleton.mp hid']
    exact ⟨fields, hload, hfields⟩
  rw [detectSchemaDrift, hload, Except.map, h.noDrift hfresh fields (hload .driftCheck)]

theorem ReadableIds.of_made {env : NamespaceEnv} {serverName : String} {root : TableId}
    {σ σ' : LocalCatalog} {entries : List (TableId × QualName)} (h : ReadableIds env serverName σ)
    (hmade : ∀ name rel, name ∉ entries.map Prod.snd → σ'.relations[name]? = some rel →
      σ.relations[name]? = some rel ∨ rel.kind = .compositeType)
    (hplaced : ∀ id place, (id, place) ∈ entries → Placed env serverName root σ' id place) :
    ReadableIds env serverName σ' := by
  rintro ⟨t, json⟩ hmem
  by_cases hname : t.place ∈ entries.map Prod.snd
  · obtain ⟨⟨id, place⟩, hentry, hplace⟩ := List.mem_map.mp hname
    obtain ⟨t', ht', htplace⟩ := (hplaced id place hentry).carried
    exact ⟨id, ht'.readable (htplace.trans hplace) hmem⟩
  · obtain ⟨rel, options, hrel, hkind, hjson, hbatch⟩ := mem_namespaceTables.mp hmem
    rcases hmade _ rel hname hrel with hold | hcomposite
    · exact h (t, json) (mem_namespaceTables.mpr ⟨rel, options, hold, hkind, hjson, hbatch⟩)
    · rw [hkind] at hcomposite
      cases hcomposite

/-- A sync says of every table that it is in sync exactly if the local tables are the listed ones
at their places, without drift, the listed ids are distinct and the options can be read; whatever
the flags, it then changes nothing. -/
theorem syncNamespace_inSync_iff {ctx : SyncContext} {root : TableId} {schemaPrefix : String}
    {s : Session} {tableIds : List TableId} {mapping : Mapping}
    (hmap : mapNamespace ctx.env ctx.serverName root schemaPrefix defaultLimitPerListCall
      s.catalog = .ok (tableIds, mapping)) :
    ((∃ rows s', syncNamespace ctx root schemaPrefix s = .ok (.ok (rows, s')) ∧
        ∀ row ∈ rows, row.status = .ok ∧ row.action = .inSync) ↔
      UpToDate ctx root schemaPrefix tableIds s.catalog) ∧
    (UpToDate ctx root schemaPrefix tableIds s.catalog →
      syncNamespace ctx root schemaPrefix s = .ok (.ok (mapping.entries.map inSyncRow, s))) := by
  have hsync := UpToDate.sync hmap
  refine ⟨⟨?_, ?_⟩, hsync⟩
  · rintro ⟨rows, s', hrun, hrows⟩
    obtain ⟨run⟩ := syncNamespace_ok hrun
    obtain ⟨rfl, rfl⟩ := Prod.mk.inj (Except.ok.inj (run.mapped.symm.trans hmap))
    exact run.upToDate hrows
  · intro h
    refine ⟨_, s, hsync h, ?_⟩
    intro row hrow
    obtain ⟨entry, -, rfl⟩ := List.mem_map.mp hrow
    exact ⟨rfl, rfl⟩

theorem renamedSync_round : IdsRoundTrip renamedSync.env [["t"]] := by
  intro id hid
  rw [List.mem_singleton.mp hid]
  decide

theorem renamedSync_maps_at (σ : LocalCatalog) (h : σ.servers = LocalCatalog.sample.servers) :
    ∃ mapping, mapNamespace renamedSync.env "srv" [] "lance" defaultLimitPerListCall σ =
      .ok ([["t"]], mapping) := by
  obtain ⟨mapping, hmap⟩ := renamedSync_maps
  exact ⟨mapping, (mapNamespace_congr h).trans hmap⟩

def currentSession : Session :=
  ⟨LocalCatalog.sample.insert "lance" "t" (.sample ["t"] "id" .int4), [], []⟩

theorem syncNamespace_inSync_current : ∃ mapping,
    mapNamespace renamedSync.env "srv" [] "lance" defaultLimitPerListCall currentSession.catalog =
      .ok ([["t"]], mapping) ∧ UpToDate renamedSync [] "lance" [["t"]] currentSession.catalog := by
  obtain ⟨mapping, hmap⟩ := renamedSync_maps_at currentSession.catalog rfl
  have hrun : (Fallible.returned (syncNamespace renamedSync [] "lance" currentSession)).any
      (fun p => p.1.all fun row => row.status = .ok ∧ row.action = .inSync) = true := by
    decide
  obtain ⟨⟨rows, s'⟩, hsync, hrows⟩ := (Option.any_eq_true _ _).mp hrun
  refine ⟨mapping, hmap, (syncNamespace_inSync_iff hmap).1.mp ⟨rows, s',
    Fallible.returned_eq_some.mp hsync, ?_⟩⟩
  simpa using hrows

/-- A report in which every row says that something was done or nothing was to be done is a
certificate: the tables of the server under the root are then the listed ones, at their places, and
up to date where new tables are. -/
theorem syncNamespace_mirrors {ctx : SyncContext} {root : TableId} {schemaPrefix : String}
    {s s' : Session} {rows : List NamespaceRow} {tableIds : List TableId} {mapping : Mapping}
    (hmap : mapNamespace ctx.env ctx.serverName root schemaPrefix defaultLimitPerListCall
      s.catalog = .ok (tableIds, mapping))
    (hround : IdsRoundTrip ctx.env tableIds)
    (h : syncNamespace ctx root schemaPrefix s = .ok (.ok (rows, s')))
    (hrows : ∀ row ∈ rows, row.status = .ok ∧ row.action ≠ .drift) :
    Mirrors ctx.env ctx.serverName root schemaPrefix tableIds s'.catalog ∧
      (ctx.env.remote.Shallow tableIds →
        UpToDate ctx root schemaPrefix tableIds s'.catalog) := by
  obtain ⟨run⟩ := syncNamespace_ok h
  obtain ⟨rfl, rfl⟩ := Prod.mk.inj (Except.ok.inj (run.mapped.symm.trans hmap))
  have hmirrors := run.mirrors hround hrows
  refine ⟨hmirrors, fun hshallow => ⟨run.covers.nodup (run.conflicts_nil hrows), hmirrors, ?_, ?_⟩⟩
  · intro id hid place hplace
    obtain ⟨place', hentry, hplace'⟩ := run.covers.exists_entry (run.conflicts_nil hrows) hid
    cases hplace.symm.trans hplace'
    exact (run.placed hround hrows hentry).inSync hshallow hid
  · refine (run.readable hrows).of_made ?_ fun id place => run.placed hround hrows
    intro name rel hname hrel
    exact (syncEntries_touches run.covers.fits run.entries).made name rel hname
      (run.keeps_of_final hrel)

/-- A table that is no longer listed is where none is to be made. -/
def staleSession : Session :=
  ⟨LocalCatalog.sample.insert "lance" "u" (.sample ["old", "t"] "id" .int4), [], []⟩

theorem syncNamespace_mirrors_stale : ∃ rows s',
    syncNamespace renamedSync [] "lance" staleSession = .ok (.ok (rows, s')) ∧
      rows.map NamespaceRow.action = [.createTable, .dropTable] ∧
      Mirrors renamedSync.env "srv" [] "lance" [["t"]] s'.catalog := by
  have hrun : (Fallible.returned (syncNamespace renamedSync [] "lance" staleSession)).any
      (fun p => p.1.map NamespaceRow.action = [.createTable, .dropTable] ∧
        p.1.all fun row => row.status = .ok ∧ row.action ≠ .drift) = true := by
    decide
  obtain ⟨⟨rows, s'⟩, hsync, hrows⟩ := (Option.any_eq_true _ _).mp hrun
  obtain ⟨hactions, hrows⟩ := of_decide_eq_true hrows
  obtain ⟨mapping, hmap⟩ := renamedSync_maps_at staleSession.catalog rfl
  have hsync := Fallible.returned_eq_some.mp hsync
  refine ⟨rows, s', hsync, hactions, (syncNamespace_mirrors hmap renamedSync_round hsync ?_).1⟩
  simpa using hrows

section

variable {env : NamespaceEnv} {serverName : String} {root : TableId} {batchSize : Option Int}
  {σ : LocalCatalog} {s s' : Session}

theorem existingResult_carries {ctx : AttachContext} {id : TableId} {place : QualName}
    {rel : Relation} {row : NamespaceRow} (h : existingResult ctx id place rel = .ok row) :
    ∃ options json, rel.kind = .foreignTable ctx.serverName options ∧
      options.lookup optNsTableId = some (some json) ∧ ctx.env.tableIdFromJson json = .ok id := by
  obtain ⟨found, hfound, h⟩ := Fallible.bind_ok_iff.mp h
  cases hkind : rel.kind with
  | foreignTable server options =>
    rw [existingRelation, hkind] at hfound
    obtain ⟨server', hserver, rfl⟩ := Fallible.map_ok_iff.mp hfound
    rw [NamespaceEnv.getString] at hserver
    split at hserver
    · cases hserver
      simp only [existingRow] at h
      split at h
      · cases h
      · rename_i hserver
        rw [ne_eq, not_not] at hserver
        subst hserver
        cases hjson : (options.lookup optNsTableId).join with
        | none =>
          rw [hjson] at h
          cases h
        | some json =>
          rw [hjson] at h
          cases hparse : ctx.env.tableIdFromJson json with
          | error e =>
            simp only [tableIdMatches, hparse] at h
            cases h
          | ok actual =>
            by_cases heq : actual = id
            · exact ⟨options, json, rfl, Option.join_eq_some_iff.mp hjson, heq ▸ hparse⟩
            · simp only [tableIdMatches, hparse, beq_eq_false_iff_ne.mpr heq] at h
              cases h
    · cases hserver
  | _ =>
    rw [existingRelation, hkind] at hfound
    cases hfound
    cases h

theorem AttachOne.placed {id : TableId} {place : QualName} {result : Except String NamespaceRow}
    (h : AttachOne ⟨env, serverName, batchSize, false⟩ id place s result s')
    (hrow : (attachRow id place result).status ≠ .failed) (hfits : place.Fits)
    (hpending : Pending place σ s.catalog) (hbare : ∀ t, ¬ Carries env serverName root σ id t)
    (hown : ∀ path, compositeTypeName place.name path ≠ place.name)
    (hround : env.tableIdFromJson (env.tableIdToJson id) = .ok id) (hid : id ≠ [])
    (hroot : root <+: id) : Placed env serverName root s'.catalog id place := by
  cases h with
  | @existing rel hrel =>
    -- a table of the id would have been there from the start
    exfalso
    cases hresult : existingResult ⟨env, serverName, batchSize, false⟩ id place rel with
    | error e =>
      rw [hresult] at hrow
      exact hrow rfl
    | ok row =>
      obtain ⟨options, json, hkind, hjson, hparse⟩ := existingResult_carries hresult
      simp only at hparse
      have hold : σ.relations[place]? = some rel := by
        cases hpending.before hrel with
        | inl hold => exact hold
        | inr hmade =>
          rw [hkind] at hmade
          cases hmade.2
      refine hbare ⟨place, (options.lookup optBatchSize).join.bind i64Parse⟩
        ⟨some json, mem_namespaceTables.mpr ⟨rel, options, hold, hkind, hjson, rfl⟩,
          carriedId_eq_some.mpr ⟨?_, ?_⟩⟩
      · simp only [parseTableId, hparse, List.isEmpty_iff, hid, if_false]
      · rw [hasPrefix, List.isPrefixOf_iff_prefix]
        exact hroot
  | dryRun _ hdry => cases hdry
  | failed => exact absurd rfl hrow
  | attached hfree _ _ hattached => exact hattached.placed hfits hfree hown hround hid hroot

theorem attachEntries_placed {entries : List (TableId × QualName)} {rows : List NamespaceRow}
    (h : attachEntries ⟨env, serverName, batchSize, false⟩ entries s = .ok (rows, s'))
    (hrows : ∀ row ∈ rows, row.status ≠ .failed) (hfits : ∀ entry ∈ entries, entry.2.Fits)
    (hplaces : (entries.map Prod.snd).Nodup)
    (hpending : ∀ entry ∈ entries, Pending entry.2 σ s.catalog)
    (hbare : ∀ id t, ¬ Carries env serverName root σ id t)
    (hown : ∀ entry ∈ entries, ∀ path, compositeTypeName entry.2.name path ≠ entry.2.name)
    (hround : ∀ entry ∈ entries, env.tableIdFromJson (env.tableIdToJson entry.1) = .ok entry.1)
    (hids : ∀ entry ∈ entries, entry.1 ≠ [] ∧ root <+: entry.1) :
    ∀ entry ∈ entries, Placed env serverName root s'.catalog entry.1 entry.2 := by
  induction entries generalizing s rows with
  | nil => simp
  | cons entry entries ih =>
    obtain ⟨id, place⟩ := entry
    obtain ⟨result, s₁, rows', hattach, hrest, rfl⟩ := attachEntries_cons h
    rw [List.map_cons, List.nodup_cons] at hplaces
    rw [List.forall_mem_cons] at hrows hfits hpending hown hround hids ⊢
    have htouches := (attachOne_cases hattach).touches hfits.1
    constructor
    · have hplaced := (attachOne_cases hattach).placed hrows.1 hfits.1 hpending.1 (hbare id) hown.1
        hround.1 hids.1.1 hids.1.2
      exact hplaced.pending
        ((Pending.refl _ _).of_touches (attachEntries_touches hfits.2 hrest) hplaces.1)
    · refine ih hrest hrows.2 hfits.2 hplaces.2 ?_ hown.2 hround.2 hids.2
      intro entry hentry
      refine (hpending.2 entry hentry).of_touches htouches ?_
      intro hmem
      rw [List.mem_singleton] at hmem
      exact hplaces.1 (hmem ▸ List.mem_map_of_mem hentry)

end

/-- Where a server has no tables under a root, an attach with no failed row makes the listed ones,
and a sync of the same listing then has nothing to do. -/
theorem attachNamespace_sync {env : NamespaceEnv} {serverName schemaPrefix : String}
    {root : TableId} {batchSize : Option Int} {limit : Int} {s s' : Session}
    {rows : List NamespaceRow} {tableIds : List TableId} {mapping : Mapping}
    (hmap : mapNamespace env serverName root schemaPrefix limit s.catalog = .ok (tableIds, mapping))
    (hround : IdsRoundTrip env tableIds)
    (hbare : ∀ id t, ¬ Carries env serverName root s.catalog id t)
    (h : attachNamespace env serverName root schemaPrefix batchSize limit false s =
      .ok (.ok rows, s'))
    (hrows : ∀ row ∈ rows, row.status ≠ .failed) :
    Mirrors env serverName root schemaPrefix tableIds s'.catalog ∧
      (env.remote.Shallow tableIds → ReadableIds env serverName s.catalog →
        ∀ dropMissing recreateChanged dryRun tableIds' mapping',
          mapNamespace env serverName root schemaPrefix defaultLimitPerListCall s'.catalog =
            .ok (tableIds', mapping') → tableIds'.Perm tableIds →
          syncNamespace ⟨env, serverName, dropMissing, recreateChanged, dryRun⟩ root schemaPrefix
            s' = .ok (.ok (mapping'.entries.map inSyncRow, s'))) := by
  obtain ⟨tableIds₁, mapping₁, entryRows, hmap₁, hentries, rfl⟩ := attachNamespace_mapped h
  rw [hmap] at hmap₁
  obtain ⟨rfl, rfl⟩ := Prod.mk.inj (Except.ok.inj hmap₁)
  obtain ⟨hlisted, hcovers⟩ := mapNamespace_ok hmap
  rw [List.forall_mem_append] at hrows
  have hconflicts : mapping.conflicts = [] := by
    rw [List.eq_nil_iff_forall_not_mem]
    intro id hid
    exact hrows.1 _ (List.mem_map_of_mem hid) rfl
  have hplaced := attachEntries_placed hentries hrows.2 hcovers.fits hcovers.places
    (fun entry _ => .refl entry.2 s.catalog) hbare
    (fun entry hentry => localPlace_own (hcovers.place _ _ hentry).1)
    (fun entry hentry => hround _ (hcovers.place _ _ hentry).2)
    (fun entry hentry => by
      have hid := (hcovers.place _ _ hentry).2
      have hlength := length_lt_of_mem_listTableIds hlisted hid
      exact ⟨List.ne_nil_of_length_pos (by omega), prefix_of_mem_listTableIds hlisted hid⟩)
  have htouches := attachEntries_touches hcovers.fits hentries
  have hmirrors : Mirrors env serverName root schemaPrefix tableIds s'.catalog := by
    refine hcovers.mirrors hconflicts (fun id place hentry => hplaced (id, place) hentry) ?_
    intro id t ht
    by_contra hname
    obtain ⟨rel, hrel⟩ := ht.there
    rcases htouches.made _ rel hname hrel with hold | hcomposite
    · exact hbare id t (ht.congr (hrel.trans hold.symm))
    · exact ht.not_composite hrel hcomposite
  refine ⟨hmirrors, ?_⟩
  intro hshallow hreadable dropMissing recreateChanged dryRun tableIds' mapping' hmap' hperm
  refine UpToDate.sync hmap' ⟨hperm.nodup_iff.mpr (hcovers.nodup hconflicts), ?_, ?_, ?_⟩
  · intro id place
    rw [hperm.mem_iff]
    exact hmirrors id place
  · intro id hid place hplace
    rw [hperm.mem_iff] at hid
    obtain ⟨place', hentry, hplace'⟩ := hcovers.exists_entry hconflicts hid
    cases hplace.symm.trans hplace'
    exact (hplaced _ hentry).inSync hshallow hid
  · exact hreadable.of_made htouches.made fun id place hentry => hplaced (id, place) hentry

theorem attachNamespace_sync_sample : ∃ rows s',
    attachNamespace renamedSync.env "srv" [] "lance" none defaultLimitPerListCall false
      ⟨.sample, [], []⟩ = .ok (.ok rows, s') ∧
    Mirrors renamedSync.env "srv" [] "lance" [["t"]] s'.catalog := by
  have hrun : ((attachNamespace renamedSync.env "srv" [] "lance" none defaultLimitPerListCall false
      ⟨.sample, [], []⟩).toOption.bind fun p => p.1.toOption).any
        (fun rows => rows.all fun row => row.status ≠ .failed) = true := by
    decide
  obtain ⟨mapping, hmap⟩ := renamedSync_maps_at LocalCatalog.sample rfl
  have hbare : ∀ id t, ¬ Carries renamedSync.env "srv" [] LocalCatalog.sample id t := by
    rintro id t ⟨json, hmem, -⟩
    rw [show namespaceTables LocalCatalog.sample "srv" = [] by decide] at hmem
    cases hmem
  cases hattach : attachNamespace renamedSync.env "srv" [] "lance" none defaultLimitPerListCall
      false ⟨.sample, [], []⟩ with
  | error e =>
    rw [hattach] at hrun
    cases hrun
  | ok p =>
    obtain ⟨result, s'⟩ := p
    cases result with
    | error e =>
      rw [hattach] at hrun
      cases hrun
    | ok rows =>
      rw [hattach] at hrun
      refine ⟨rows, s', rfl,
        (attachNamespace_sync hmap renamedSync_round hbare hattach ?_).1⟩
      have hrows : (rows.all fun row => row.status ≠ .failed) = true := hrun
      simpa using hrows

end PgLance
