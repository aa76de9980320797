import PgLance.Fdw.Follows

/-! Syncs in which some of the datasets do not load. -/

namespace PgLance

def Remote.withLoad (remote : Remote) (load : LoadSite → TableId → Except String Schema) : Remote :=
  { remote with load }

def NamespaceEnv.withLoad (env : NamespaceEnv)
    (load : LoadSite → TableId → Except String Schema) : NamespaceEnv :=
  { env with remote := env.remote.withLoad load }

def AttachContext.withLoad (ctx : AttachContext)
    (load : LoadSite → TableId → Except String Schema) : AttachContext :=
  { ctx with env := ctx.env.withLoad load }

def SyncContext.withLoad (ctx : SyncContext)
    (load : LoadSite → TableId → Except String Schema) : SyncContext :=
  { ctx with env := ctx.env.withLoad load }

def Recreates (ctx : SyncContext) (localById : LocalById) (σ : LocalCatalog) (id : TableId)
    (place : QualName) : Prop :=
  ctx.recreateChanged = true ∧ (∃ t, localById[id]? = some t ∧ t.place = place) ∧
    ∃ detail, detectSchemaDrift ctx.env id place σ = .ok (some detail)

def ToMake (ctx : SyncContext) (localById : LocalById) (σ : LocalCatalog) (id : TableId)
    (place : QualName) : Prop :=
  ctx.dryRun = false ∧ ((localById[id]? = none ∧ σ.relations[place]? = none) ∨
    Recreates ctx localById σ id place)

section

variable {free : QualName → Prop} {ahead : QualName → List Column → Prop}
  {settled : QualName → Prop} {load : LoadSite → TableId → Except String Schema}
  {tableId : TableId} {place : QualName} {s s' t t' : Session}

theorem AttachOne.follows {ctx : AttachContext} {result result' : Except String NamespaceRow}
    (h : Follows free ahead settled s.catalog t.catalog)
    (hrel : s.catalog.relations[place]? = t.catalog.relations[place]?)
    (hload : load .attach tableId = ctx.env.remote.load .attach tableId)
    (hsuits : s.catalog.relations[place]? = none → ctx.dryRun = false → ∀ fields,
      load .attach tableId = .ok fields → ∀ command ∈ attachCommands ctx tableId place fields,
        command.Suits free ahead)
    (hs : AttachOne ctx tableId place s result s')
    (ht : AttachOne (ctx.withLoad load) tableId place t result' t') :
    result' = result ∧ Follows free ahead (fun name => settled name ∨
      (∃ row, result = .ok row ∧ row.status = .ok) ∧ ∃ fields, load .attach tableId = .ok fields ∧
        name ∈ usedNames place fields) s'.catalog t'.catalog := by
  have hload' : (ctx.withLoad load).env.remote.load .attach tableId =
    ctx.env.remote.load .attach tableId := hload
  cases hs with
  | @existing rel hfound =>
    cases ht with
    | existing hfound' =>
      rw [← hrel, hfound] at hfound'
      cases hfound'
      refine ⟨rfl, h.settled_mono ?_⟩
      rintro name (hsettled | ⟨⟨row, hrow, hstatus⟩, -⟩)
      · exact hsettled
      · rw [existingResult_ok hrow] at hstatus
        cases hstatus
    | dryRun hnone | failed hnone | attached hnone =>
      rw [hrel, hnone] at hfound
      cases hfound
  | dryRun hnone hdry =>
    cases ht with
    | existing hfound =>
      rw [← hrel, hnone] at hfound
      cases hfound
    | dryRun =>
      refine ⟨rfl, h.settled_mono ?_⟩
      rintro name (hsettled | ⟨⟨row, hrow, hstatus⟩, -⟩)
      · exact hsettled
      · cases hrow
        cases hstatus
    | failed _ hdry' | attached _ hdry' => cases hdry.symm.trans hdry'
  | failed hnone hdry hfails =>
    cases ht with
    | existing hfound =>
      rw [← hrel, hnone] at hfound
      cases hfound
    | dryRun _ hdry' => cases hdry.symm.trans hdry'
    | failed _ _ hfails' =>
      rw [hload', hfails] at hfails'
      cases hfails'
      refine ⟨rfl, h.settled_mono ?_⟩
      rintro name (hsettled | ⟨⟨row, hrow, -⟩, -⟩)
      · exact hsettled
      · cases hrow
    | attached _ _ hloads =>
      rw [hload', hfails] at hloads
      cases hloads
  | attached hnone hdry hloads hattached =>
    cases ht with
    | existing hfound =>
      rw [← hrel, hnone] at hfound
      cases hfound
    | dryRun _ hdry' => cases hdry.symm.trans hdry'
    | failed _ _ hfails =>
      rw [hload', hloads] at hfails
      cases hfails
    | attached _ _ hloads' hattached' =>
      rw [hload', hloads] at hloads'
      cases hloads'
      obtain ⟨s₁, hs, hscatalog, -⟩ := hattached.executes
      obtain ⟨t₁, ht, htcatalog, -⟩ := hattached'.executes
      rw [hscatalog, htcatalog]
      refine ⟨rfl, (h.executeAll (hsuits hnone hdry _ (hload.trans hloads)) hs ht).settled_mono ?_⟩
      rintro name (hsettled | ⟨-, fields, hfields, hname⟩)
      · exact .inl hsettled
      · rw [hload, hloads] at hfields
        cases hfields
        exact .inr (attachCommands_use ctx tableId hname)

def NamespaceRow.Makes (row : NamespaceRow) : Prop :=
  row.status = .ok ∧ (row.action = .createTable ∨ row.action = .recreateTable)

theorem LocalCatalog.erase_self (σ : LocalCatalog) (place : QualName) :
    (σ.erase place).relations[place]? = none := by
  simp [erase]

theorem Adds.taken {commands : List Command} {σ σ' : LocalCatalog} {name : QualName}
    (h : Adds commands σ σ') (htaken : σ.Taken name) : σ'.Taken name := by
  rcases htaken with ⟨rel, hrel⟩ | htypes
  · exact .inl ⟨rel, h.keeps hrel⟩
  · exact .inr (h.types ▸ htypes)

theorem AttachOne.keeps_taken {ctx : AttachContext} {result : Except String NamespaceRow}
    {name : QualName} (h : AttachOne ctx tableId place s result s') (htaken : s.catalog.Taken name) :
    s'.catalog.Taken name := by
  cases h with
  | existing | dryRun | failed => exact htaken
  | attached _ _ _ hattached => exact hattached.adds.taken htaken

theorem SyncEntry.keeps_taken {ctx : SyncContext} {localById : LocalById} {row : NamespaceRow}
    {name : QualName} (hfits : place.Fits)
    (hok : ∃ fields, ctx.env.remote.load .attach tableId = .ok fields)
    (h : SyncEntry ctx localById tableId place s (.ok (row, s'))) (htaken : s.catalog.Taken name) :
    s'.catalog.Taken name := by
  cases h with
  | create _ hattach => exact hattach.keeps_taken htaken
  | misplaced | inSync | drifted | dryRun => exact htaken
  | recreated _ _ _ _ _ _ hdrop hattach =>
    have hgone := (drop_touches hfits hdrop).1
    by_cases hne : place = name
    · subst hne
      cases hattach with
      | existing hfound =>
        rw [hgone, LocalCatalog.erase_self] at hfound
        cases hfound
      | dryRun _ hdry => cases hdry
      | failed _ _ hfails =>
        obtain ⟨fields, hfields⟩ := hok
        rw [hfields] at hfails
        cases hfails
      | attached _ _ _ hattached =>
        have hthere := hattached.there
        rw [hfits] at hthere
        exact .inl hthere
    · refine hattach.keeps_taken ?_
      rw [hgone]
      refine htaken.congr rfl ?_
      simp [LocalCatalog.erase, Std.TreeMap.getElem?_erase, hne]

def Located (localById : LocalById) (σ : LocalCatalog) : Prop :=
  ∀ (id : TableId) (u : LocalNamespaceTable), localById[id]? = some u →
    ∃ rel, σ.relations[u.place]? = some rel

theorem Recreates.start {ctx : SyncContext} {localById : LocalById} {σ₀ σ : LocalCatalog}
    (h : Recreates ctx localById σ tableId place) (hpending : Pending place σ₀ σ)
    (hlocal : Located localById σ₀) :
    Recreates ctx localById σ₀ tableId place := by
  obtain ⟨hrecreate, ⟨u, hu, rfl⟩, detail, hdetect⟩ := h
  obtain ⟨rel, hrel⟩ := hlocal tableId u hu
  refine ⟨hrecreate, ⟨u, hu, rfl⟩, detail, ?_⟩
  rw [detectSchemaDrift, hpending.keeps rel hrel] at hdetect
  rw [detectSchemaDrift, hrel, hdetect]

theorem ToMake.start {ctx : SyncContext} {localById : LocalById} {σ₀ σ : LocalCatalog}
    (h : ToMake ctx localById σ tableId place) (hpending : Pending place σ₀ σ)
    (hlocal : Located localById σ₀) :
    ToMake ctx localById σ₀ tableId place := by
  refine ⟨h.1, ?_⟩
  rcases h.2 with ⟨hnone, hfree⟩ | hrecreates
  · exact .inl ⟨hnone, hpending.none hfree⟩
  · exact .inr (hrecreates.start hpending hlocal)

end

def Remote.loads (remote : Remote) (id : TableId) : Bool := (remote.load .attach id).isOk

/-- All datasets load, and those that loaded before are the same. -/
structure Remote.LoadedAs (remote : Remote) (load : LoadSite → TableId → Except String Schema) :
    Prop where
  total : ∀ site id, ∃ fields, load site id = .ok fields
  same : ∀ site id fields, remote.load site id = .ok fields → load site id = .ok fields

theorem Remote.LoadedAs.eq {remote : Remote} {load : LoadSite → TableId → Except String Schema}
    (h : remote.LoadedAs load) {site : LoadSite} {id : TableId}
    (hloads : ∃ fields, remote.load site id = .ok fields) :
    load site id = remote.load site id := by
  obtain ⟨fields, hfields⟩ := hloads
  rw [h.same site id fields hfields, hfields]

/-- A dataset gets a name that is free another definition than a second one would give it, or
takes it for its table. -/
def Clash (σ : LocalCatalog) (place : QualName) (fields : Schema) (place' : QualName)
    (fields' : Schema) : Prop :=
  ∃ name columns columns', (name, columns) ∈ definitions place fields ∧
    (name, columns') ∈ definitions place' fields' ∧
    (columns = none ∨ columns' ≠ columns ∧ ¬ σ.Taken name)

/-- The tables that would be made, if they loaded, take no name from tables that are made after
them. -/
def NoClash (ctx : SyncContext) (localById : LocalById) (σ : LocalCatalog)
    (load : LoadSite → TableId → Except String Schema) (entries : List (TableId × QualName)) :
    Prop :=
  entries.Pairwise fun other entry =>
    ctx.env.remote.loads other.1 = false → ToMake ctx localById σ other.1 other.2 →
    ctx.env.remote.loads entry.1 = true → ToMake ctx localById σ entry.1 entry.2 →
    ∀ fields fields', load .attach other.1 = .ok fields → load .attach entry.1 = .ok fields' →
      ¬ Clash σ other.2 fields entry.2 fields'

section

variable {ctx : SyncContext} {localById : LocalById} {σ₀ : LocalCatalog}
  {load : LoadSite → TableId → Except String Schema} {entries : List (TableId × QualName)}
  {id : TableId} {place : QualName} {s s' t t' : Session} {rows rows' : List NamespaceRow}

structure Comparable (ctx : SyncContext) (localById : LocalById) (σ₀ : LocalCatalog)
    (load : LoadSite → TableId → Except String Schema) (entries : List (TableId × QualName)) :
    Prop where
  fits : ∀ entry ∈ entries, entry.2.Fits
  places : (entries.map Prod.snd).Nodup
  checks : ∀ entry ∈ entries, ∀ u, localById[entry.1]? = some u → u.place = entry.2 →
    ∃ fields, ctx.env.remote.load .driftCheck entry.1 = .ok fields
  noClash : NoClash ctx localById σ₀ load entries

theorem Comparable.tail {entry : TableId × QualName}
    (h : Comparable ctx localById σ₀ load (entry :: entries)) :
    Comparable ctx localById σ₀ load entries where
  fits := (List.forall_mem_cons.mp h.fits).2
  places := (List.nodup_cons.mp h.places).2
  checks := (List.forall_mem_cons.mp h.checks).2
  noClash := (List.pairwise_cons.mp h.noClash).2

/-- Two runs, the second with all datasets, before the entries that are left. -/
structure Twins (ctx : SyncContext) (localById : LocalById) (σ₀ : LocalCatalog)
    (load : LoadSite → TableId → Except String Schema) (entries : List (TableId × QualName))
    (free : QualName → Prop) (ahead : QualName → List Column → Prop) (settled : QualName → Prop)
    (σ τ : LocalCatalog) : Prop where
  follows : Follows free ahead settled σ τ
  pending : ∀ entry ∈ entries, Pending entry.2 σ₀ σ ∧ Pending entry.2 σ₀ τ
  kept : ∀ name, σ₀.Taken name → τ.Taken name
  real : ∀ name columns, ahead name columns → ctx.dryRun = false
  places : ∀ entry ∈ entries, free entry.2
  suits : ∀ entry ∈ entries, ctx.env.remote.loads entry.1 = true →
    ToMake ctx localById σ₀ entry.1 entry.2 → ∀ fields, load .attach entry.1 = .ok fields →
      (∀ name ∈ usedNames entry.2 fields, free name) ∧
        ∀ name columns, ahead name columns → ∀ defined,
          (name, defined) ∈ definitions entry.2 fields → defined = some columns

namespace Twins

variable {free free' : QualName → Prop} {ahead ahead' : QualName → List Column → Prop}
  {settled : QualName → Prop} {row row' : NamespaceRow}

theorem advance (h : Twins ctx localById σ₀ load ((id, place) :: entries) free ahead settled
      s.catalog t.catalog) (hloaded : ctx.env.remote.LoadedAs load)
    (hcomparable : Comparable ctx localById σ₀ load ((id, place) :: entries))
    (hs : SyncEntry ctx localById id place s (.ok (row, s')))
    (ht : SyncEntry (ctx.withLoad load) localById id place t (.ok (row', t'))) :
    (∀ entry ∈ entries, Pending entry.2 σ₀ s'.catalog ∧ Pending entry.2 σ₀ t'.catalog) ∧
      ∀ name, σ₀.Taken name → t'.catalog.Taken name := by
  have hfits := hcomparable.fits (id, place) List.mem_cons_self
  constructor
  · intro entry hmem
    have hne : entry.2 ∉ [place] := by
      rw [List.mem_singleton]
      exact fun heq => (List.nodup_cons.mp hcomparable.places).1
        (List.mem_map.mpr ⟨entry, hmem, heq⟩)
    obtain ⟨hs₀, ht₀⟩ := h.pending entry (List.mem_cons_of_mem _ hmem)
    exact ⟨hs₀.of_touches (hs.touches hfits) hne, ht₀.of_touches (ht.touches hfits) hne⟩
  · exact fun name htaken =>
      ht.keeps_taken hfits (hloaded.total .attach id) (h.kept name htaken)

end Twins

end

def NamespaceRow.table (row : NamespaceRow) : TableId × QualName := (row.tableId, row.place)

theorem parseTableId_ne_nil {env : NamespaceEnv} {json : Option String} {id : TableId}
    (h : parseTableId env json = .ok id) : id ≠ [] := by
  cases json with
  | none => cases h
  | some json =>
    simp only [parseTableId] at h
    split at h
    · cases h
    · split at h
      · cases h
      · rename_i hempty
        cases h
        simpa using hempty

theorem Carries.ne_nil {env : NamespaceEnv} {serverName : String} {root : TableId}
    {σ : LocalCatalog} {id : TableId} {t : LocalNamespaceTable}
    (h : Carries env serverName root σ id t) : id ≠ [] := by
  obtain ⟨json, -, hid⟩ := h
  exact parseTableId_ne_nil (carriedId_eq_some.mp hid).1

namespace SyncRun

variable {ctx : SyncContext} {root : TableId} {schemaPrefix : String} {s s' : Session}
  {rows : List NamespaceRow} (run : SyncRun ctx root schemaPrefix s rows s')

end SyncRun

section

variable {ctx : SyncContext} {root : TableId} {schemaPrefix : String} {s s' : Session}
  {rows : List NamespaceRow} {tableIds : List TableId} {mapping : Mapping}
  {load : LoadSite → TableId → Except String Schema}

theorem syncNamespace_run (hmap : mapNamespace ctx.env ctx.serverName root schemaPrefix
      defaultLimitPerListCall s.catalog = .ok (tableIds, mapping))
    (h : syncNamespace ctx root schemaPrefix s = .ok (.ok (rows, s'))) :
    ∃ run : SyncRun ctx root schemaPrefix s rows s', run.tableIds = tableIds ∧
      run.mapping = mapping := by
  obtain ⟨run⟩ := syncNamespace_ok h
  have hsame := run.mapped.symm.trans hmap
  simp only [Except.ok.injEq, Prod.mk.injEq] at hsame
  exact ⟨run, hsame.1, hsame.2⟩

end

def sampleLoad (_ : LoadSite) (_ : TableId) : Except String Schema :=
  .ok [⟨"id", .leaf .int32, true⟩]

end PgLance
