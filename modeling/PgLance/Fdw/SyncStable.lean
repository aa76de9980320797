import PgLance.Fdw.DriftLaws
import PgLance.Fdw.SyncFailures

/-! A sync after a sync of the same namespace. -/

namespace PgLance

namespace Carries

variable {env : NamespaceEnv} {serverName : String} {root id id' : TableId} {σ τ : LocalCatalog}
  {t t' : LocalNamespaceTable}

theorem congr (h : Carries env serverName root σ id t)
    (hsame : σ.relations[t.place]? = τ.relations[t.place]?) : Carries env serverName root τ id t := by
  obtain ⟨json, hmem, hid⟩ := h
  obtain ⟨rel, options, hrel, hkind, hjson, hbatch⟩ := mem_namespaceTables.mp hmem
  exact ⟨json, mem_namespaceTables.mpr ⟨rel, options, hsame ▸ hrel, hkind, hjson, hbatch⟩, hid⟩

theorem unique (h : Carries env serverName root σ id t) (h' : Carries env serverName root σ id' t')
    (hplace : t.place = t'.place) : id = id' ∧ t = t' := by
  obtain ⟨json, hmem, hid⟩ := h
  obtain ⟨json', hmem', hid'⟩ := h'
  obtain ⟨rel, options, hrel, hkind, hjson, hbatch⟩ := mem_namespaceTables.mp hmem
  obtain ⟨rel', options', hrel', hkind', hjson', hbatch'⟩ := mem_namespaceTables.mp hmem'
  rw [hplace, hrel'] at hrel
  cases hrel
  rw [hkind'] at hkind
  cases hkind
  rw [hjson'] at hjson
  cases hjson
  have hsame := (carriedId_eq_some.mp hid).1.symm.trans (carriedId_eq_some.mp hid').1
  refine ⟨Except.ok.inj hsame, ?_⟩
  cases t
  cases t'
  simp only at hplace hbatch hbatch'
  rw [hplace, hbatch, hbatch']

theorem not_composite (h : Carries env serverName root σ id t) {rel : Relation}
    (hrel : σ.relations[t.place]? = some rel) : rel.kind ≠ .compositeType := by
  obtain ⟨json, hmem, -⟩ := h
  obtain ⟨rel', options, hrel', hkind, -⟩ := mem_namespaceTables.mp hmem
  rw [hrel] at hrel'
  cases hrel'
  rw [hkind]
  simp

end Carries

def Remote.Steady (remote : Remote) (tableIds : List TableId) : Prop :=
  ∀ id ∈ tableIds, ∃ fields, ∀ site, remote.load site id = .ok fields

def FreshInSync (env : NamespaceEnv) (serverName : String) (tableIds : List TableId) : Prop :=
  ∀ id ∈ tableIds, ∀ batchSize place s s' rel server options,
    attachOne ⟨env, serverName, batchSize, false⟩ id place s =
      .ok (.ok ⟨id, place, .createTable, .ok, "attached"⟩, s') →
    s'.catalog.relations[place]? = some rel → rel.kind = .foreignTable server options →
      detectSchemaDrift env id place s'.catalog = .ok none

/-- What is at the place of a table that was attached: the table without drift, or a composite type
that has taken its name. -/
def Made (ctx : SyncContext) (id : TableId) (place : QualName) (rel : Relation) : Prop :=
  rel.kind = .compositeType ∨
    (∃ options, rel.kind = .foreignTable ctx.serverName options ∧
      options.lookup optNsTableId = some (some (ctx.env.tableIdToJson id))) ∧
    ∀ fields, ctx.env.remote.load .driftCheck id = .ok fields →
      schemaDrift ctx.env.pg place fields (some rel) = none

theorem lookup_attachOptions (ctx : AttachContext) (tableId : TableId) :
    ((attachOptions ctx tableId).map fun option =>
      (truncateIdentifier option.1, some option.2)).lookup optNsTableId =
        some (some (ctx.env.tableIdToJson tableId)) := by
  have htruncate : truncateIdentifier optNsTableId = optNsTableId := by decide
  rw [attachOptions, List.map_cons, htruncate, List.lookup_cons_self]

theorem Attached.made {ctx : SyncContext} {tableIds : List TableId} {batchSize : Option Int}
    {tableId : TableId} {place : QualName} {fields : Schema} {s s' : Session}
    (h : Attached ⟨ctx.env, ctx.serverName, batchSize, false⟩ tableId place fields s s')
    (hfits : place.Fits) (hnone : s.catalog.relations[place]? = none)
    (hfresh : FreshInSync ctx.env ctx.serverName tableIds) (hlisted : tableId ∈ tableIds) :
    ∃ rel, s'.catalog.relations[place]? = some rel ∧ Made ctx tableId place rel := by
  obtain ⟨rel, hrel, hkind⟩ := h.made_kind hfits hnone
  refine ⟨rel, hrel, ?_⟩
  rcases hkind with hkind | ⟨hkind, -⟩
  · exact .inl hkind
  · refine .inr ⟨⟨_, hkind, lookup_attachOptions _ _⟩, ?_⟩
    intro fields hload
    have hdrift := hfresh tableId hlisted batchSize place s s' rel _ _ h.attaches hrel hkind
    rw [detectSchemaDrift, hload, hrel] at hdrift
    exact Except.ok.inj hdrift

/-- What a sync leaves at the place of a table. -/
inductive Settled (ctx : SyncContext) (localById : LocalById) (σ τ : LocalCatalog) (id : TableId)
    (place : QualName) : Prop
  | taken {rel} : localById[id]? = none → σ.relations[place]? = some rel →
    τ.relations[place]? = some rel → Settled ctx localById σ τ id place
  | created {rel} : localById[id]? = none → σ.relations[place]? = none →
    τ.relations[place]? = some rel → Made ctx id place rel → Settled ctx localById σ τ id place
  | elsewhere {t} : localById[id]? = some t → t.place ≠ place → Pending place σ τ →
    Settled ctx localById σ τ id place
  | inSync {t rel} : localById[id]? = some t → t.place = place → σ.relations[place]? = some rel →
    τ.relations[place]? = some rel → (∀ fields, ctx.env.remote.load .driftCheck id = .ok fields →
      schemaDrift ctx.env.pg place fields (some rel) = none) → Settled ctx localById σ τ id place
  | recreated {t rel} : localById[id]? = some t → t.place = place →
    τ.relations[place]? = some rel → Made ctx id place rel → Settled ctx localById σ τ id place

structure SyncContext.Full (ctx : SyncContext) : Prop where
  dropMissing : ctx.dropMissing = true
  recreateChanged : ctx.recreateChanged = true
  dryRun : ctx.dryRun = false

theorem Visit.settled {ctx : SyncContext} {localById : LocalById} {tableIds : List TableId}
    {s s' : Session} {id : TableId} {place : QualName} {row : NamespaceRow} (hfull : ctx.Full)
    (hsteady : ctx.env.remote.Steady tableIds)
    (hfresh : FreshInSync ctx.env ctx.serverName tableIds) (hlisted : id ∈ tableIds)
    (hfits : place.Fits)
    (hlocal : ∀ t, localById[id]? = some t → ∃ rel, s.catalog.relations[t.place]? = some rel)
    (h : Visit ctx localById s s' (id, place) row) :
    Settled ctx localById s.catalog s'.catalog id place := by
  obtain ⟨s₁, s₂, hbefore, hentry, hafter⟩ := h
  obtain ⟨fields, hload⟩ := hsteady id hlisted
  have hrecreate := hfull.recreateChanged
  have hdry := hfull.dryRun
  simp only at hbefore hentry hafter
  cases hentry with
  | create hnone hattach =>
    rw [hdry] at hattach
    cases hattach with
    | @existing rel hrel =>
      have hfinal := hafter.keeps rel hrel
      cases hold : s.catalog.relations[place]? with
      | some rel' =>
        have hsame := hbefore.keeps rel' hold
        rw [hrel] at hsame
        cases hsame
        exact .taken hnone hold hfinal
      | none => exact .created hnone hold hfinal (.inl (hbefore.made rel hold hrel))
    | dryRun _ hdry' => cases hdry'
    | failed _ _ hfails =>
      simp only at hfails
      rw [hload] at hfails
      cases hfails
    | attached hrel _ _ hattached =>
      obtain ⟨rel, hrel', hmade⟩ := hattached.made hfits hrel hfresh hlisted
      have hold := hbefore.none hrel
      exact .created hnone hold (hafter.keeps rel hrel') hmade
  | misplaced ht hne => exact .elsewhere ht hne (hbefore.trans hafter)
  | inSync ht hplace _ hdrift =>
    obtain ⟨rel, hold⟩ := hlocal _ ht
    rw [hplace] at hold
    have hmiddle := hbefore.keeps rel hold
    rename_i fields' hload'
    refine .inSync ht hplace hold (hafter.keeps rel hmiddle) ?_
    intro fields'' hload''
    rw [hload'] at hload''
    cases hload''
    rwa [hmiddle] at hdrift
  | drifted _ _ _ _ hrecreate' => rw [hrecreate] at hrecreate'; cases hrecreate'
  | dryRun _ _ _ _ _ hdry' => rw [hdry] at hdry'; cases hdry'
  | recreated ht hplace _ _ _ _ hdrop hattach =>
    have hgone := (drop_touches hfits hdrop).1
    have hnone : ∀ σ : LocalCatalog, (σ.erase place).relations[place]? = none := by
      intro σ
      rw [LocalCatalog.erase, Std.TreeMap.getElem?_erase_self]
    cases hattach with
    | existing hfound =>
      rw [hgone, hnone] at hfound
      cases hfound
    | dryRun _ hdry' => cases hdry'
    | failed _ _ hfails =>
      simp only at hfails
      rw [hload] at hfails
      cases hfails
    | attached hrel _ _ hattached =>
      obtain ⟨rel, hrel', hmade⟩ := hattached.made hfits hrel hfresh hlisted
      exact .recreated ht hplace (hafter.keeps rel hrel') hmade

namespace SyncRun

variable {ctx : SyncContext} {root : TableId} {schemaPrefix : String} {s s' : Session}
  {rows : List NamespaceRow} (run : SyncRun ctx root schemaPrefix s rows s')

theorem settled (hfull : ctx.Full) (hsteady : ctx.env.remote.Steady run.tableIds)
    (hfresh : FreshInSync ctx.env ctx.serverName run.tableIds) {id : TableId} {place : QualName}
    (hentry : (id, place) ∈ run.mapping.entries) :
    Settled ctx (introspectLocalNamespaceTables ctx.env ctx.serverName root s.catalog).1 s.catalog
      run.synced.catalog id place := by
  obtain ⟨row, -, hvisit⟩ := run.visits.1 (id, place) hentry
  apply hvisit.settled hfull hsteady hfresh (run.covers.place id place hentry).2
    (run.covers.fits _ hentry)
  intro t ht
  exact (localById_eq_some.mp ht).1.there

theorem keeps (hfull : ctx.Full) (hsteady : ctx.env.remote.Steady run.tableIds)
    (hfresh : FreshInSync ctx.env ctx.serverName run.tableIds) {name : QualName} {rel : Relation}
    (hrel : s.catalog.relations[name]? = some rel)
    (hfree : ∀ id t, (id, name) ∈ run.mapping.entries →
      (introspectLocalNamespaceTables ctx.env ctx.serverName root s.catalog).1[id]? = some t →
        t.place ≠ name) :
    run.synced.catalog.relations[name]? = some rel := by
  by_cases hname : name ∈ run.mapping.entries.map Prod.snd
  · obtain ⟨⟨id, place⟩, hentry, rfl⟩ := List.mem_map.mp hname
    cases run.settled hfull hsteady hfresh hentry with
    | taken _ hold hnew =>
      rw [hrel] at hold
      cases hold
      exact hnew
    | created _ hnone =>
      rw [hrel] at hnone
      cases hnone
    | elsewhere _ _ hpending => exact hpending.keeps rel hrel
    | inSync ht hplace | recreated ht hplace => exact absurd hplace (hfree id _ hentry ht)
  · exact (syncEntries_touches run.covers.fits run.entries).keeps name rel hname hrel

theorem origin (hfull : ctx.Full) (hsteady : ctx.env.remote.Steady run.tableIds)
    (hfresh : FreshInSync ctx.env ctx.serverName run.tableIds) {name : QualName} {rel : Relation}
    (hrel : run.synced.catalog.relations[name]? = some rel) :
    s.catalog.relations[name]? = some rel ∨ rel.kind = .compositeType ∨
      ∃ id, (id, name) ∈ run.mapping.entries ∧ (∀ t,
        (introspectLocalNamespaceTables ctx.env ctx.serverName root s.catalog).1[id]? = some t →
          t.place = name) ∧ Made ctx id name rel := by
  by_cases hname : name ∈ run.mapping.entries.map Prod.snd
  · obtain ⟨⟨id, place⟩, hentry, rfl⟩ := List.mem_map.mp hname
    cases run.settled hfull hsteady hfresh hentry with
    | taken _ hold hnew | inSync _ _ hold hnew =>
      rw [hrel] at hnew
      cases hnew
      exact .inl hold
    | created hnone _ hnew hmade =>
      rw [hrel] at hnew
      cases hnew
      refine .inr (.inr ⟨id, hentry, ?_, hmade⟩)
      intro t ht
      rw [hnone] at ht
      cases ht
    | recreated ht hplace hnew hmade =>
      rw [hrel] at hnew
      cases hnew
      refine .inr (.inr ⟨id, hentry, ?_, hmade⟩)
      intro t ht'
      rw [ht] at ht'
      cases ht'
      exact hplace
    | elsewhere _ _ hpending =>
      cases hold : s.catalog.relations[place]? with
      | none => exact .inr (.inl (hpending.made rel hold hrel))
      | some rel' =>
        have hnew := hpending.keeps rel' hold
        rw [hrel] at hnew
        cases hnew
        exact .inl rfl
  · rcases (syncEntries_touches run.covers.fits run.entries).made name rel hname hrel with
      hold | hkind
    · exact .inl hold
    · exact .inr (.inl hkind)

theorem final (hfull : ctx.Full) (name : QualName) :
    s'.catalog.relations[name]? =
      if name ∈ (localOnlyTables (introspectLocalNamespaceTables ctx.env ctx.serverName root
        s.catalog).1 run.tableIds).map fun entry => entry.2.place then none
      else run.synced.catalog.relations[name]? := by
  apply run.drops.relations _ run.localOnly_fits
  rw [hfull.dropMissing, hfull.dryRun]
  rfl

theorem mem_dropped {name : QualName} :
    (name ∈ (localOnlyTables (introspectLocalNamespaceTables ctx.env ctx.serverName root
        s.catalog).1 run.tableIds).map fun entry => entry.2.place) ↔
      ∃ id t, (introspectLocalNamespaceTables ctx.env ctx.serverName root s.catalog).1[id]? =
        some t ∧ id ∉ run.tableIds ∧ t.place = name := by
  rw [List.mem_map]
  constructor
  · rintro ⟨⟨id, t⟩, hentry, rfl⟩
    obtain ⟨hlocal, hid⟩ := run.mem_localOnly.mp hentry
    exact ⟨id, t, hlocal, hid, rfl⟩
  · rintro ⟨id, t, hlocal, hid, rfl⟩
    exact ⟨(id, t), run.mem_localOnly.mpr ⟨hlocal, hid⟩, rfl⟩

end SyncRun

def IdsRoundTrip (env : NamespaceEnv) (tableIds : List TableId) : Prop :=
  ∀ id ∈ tableIds, env.tableIdFromJson (env.tableIdToJson id) = .ok id

theorem Made.carries {ctx : SyncContext} {root id id' : TableId} {rel : Relation}
    {σ : LocalCatalog} {t : LocalNamespaceTable} (h : Made ctx id t.place rel)
    (hround : ctx.env.tableIdFromJson (ctx.env.tableIdToJson id) = .ok id)
    (hrel : σ.relations[t.place]? = some rel)
    (hcarries : Carries ctx.env ctx.serverName root σ id' t) : id' = id := by
  rcases h with hkind | ⟨⟨options, hkind, hlookup⟩, -⟩
  · exact absurd hkind (hcarries.not_composite hrel)
  · obtain ⟨json, hmem, hid⟩ := hcarries
    obtain ⟨rel', options', hrel', hkind', hjson, -⟩ := mem_namespaceTables.mp hmem
    rw [hrel] at hrel'
    cases hrel'
    rw [hkind] at hkind'
    cases hkind'
    rw [hlookup] at hjson
    cases hjson
    have hparse := (carriedId_eq_some.mp hid).1
    simp only [parseTableId, hround] at hparse
    split at hparse
    · cases hparse
    · exact (Except.ok.inj hparse).symm

/-- No listed table without a local one is to be where a table is that is not listed. -/
def FreePlaces (ctx : SyncContext) (root : TableId) (σ : LocalCatalog) (tableIds : List TableId)
    (mapping : Mapping) : Prop :=
  ∀ id place, (id, place) ∈ mapping.entries →
    (∀ t, ¬ Carries ctx.env ctx.serverName root σ id t) →
      ∀ id' t, Carries ctx.env ctx.serverName root σ id' t → t.place = place → id' ∈ tableIds

/-- No two local tables have the same id, if it is not listed. -/
def DistinctStale (ctx : SyncContext) (root : TableId) (σ : LocalCatalog)
    (tableIds : List TableId) : Prop :=
  ∀ id t t', id ∉ tableIds → Carries ctx.env ctx.serverName root σ id t →
    Carries ctx.env ctx.serverName root σ id t' → t = t'

theorem syncEntry_still {ctx : SyncContext} {localById : LocalById} {id : TableId}
    {place : QualName} {s : Session} {fields : Schema}
    (hload : ctx.env.remote.load .driftCheck id = .ok fields)
    (hnone : localById[id]? = none → ∃ rel, s.catalog.relations[place]? = some rel)
    (hdrift : ∀ t, localById[id]? = some t → t.place = place →
      schemaDrift ctx.env.pg place fields s.catalog.relations[place]? = none) :
    ∃ row, syncEntry ctx localById id place s = .ok (.ok (row, s)) := by
  rw [syncEntry]
  cases hlocal : localById[id]? with
  | none =>
    obtain ⟨rel, hrel⟩ := hnone hlocal
    rw [attachOne_existing hrel]
    exact ⟨_, rfl⟩
  | some t =>
    simp only
    split
    · exact ⟨_, rfl⟩
    · rename_i hplace
      rw [ne_eq, not_not] at hplace
      rw [detectSchemaDrift, hload]
      simp only [Except.map, hdrift t hlocal hplace]
      exact ⟨_, rfl⟩

namespace SyncRun

variable {ctx : SyncContext} {root : TableId} {schemaPrefix : String} {s s' : Session}
  {rows : List NamespaceRow} (run : SyncRun ctx root schemaPrefix s rows s')

theorem final_place (hfull : ctx.Full)
    (hfree : FreePlaces ctx root s.catalog run.tableIds run.mapping) {id : TableId}
    {place : QualName} (hentry : (id, place) ∈ run.mapping.entries)
    (hlocal : ∀ t, (introspectLocalNamespaceTables ctx.env ctx.serverName root
      s.catalog).1[id]? = some t → t.place = place) :
    s'.catalog.relations[place]? = run.synced.catalog.relations[place]? := by
  rw [run.final hfull, if_neg]
  rw [run.mem_dropped]
  rintro ⟨id', t', hlocal', hstale, hplace⟩
  have hcarries := (localById_eq_some.mp hlocal').1
  cases hown : (introspectLocalNamespaceTables ctx.env ctx.serverName root s.catalog).1[id]? with
  | none => exact hstale (hfree id place hentry (localById_eq_none.mp hown) id' t' hcarries hplace)
  | some t =>
    have hsame := hplace.trans (hlocal t hown).symm
    obtain ⟨rfl, -⟩ := hcarries.unique (localById_eq_some.mp hown).1 hsame
    exact hstale (run.covers.place id' place hentry).2

theorem carries_after (hfull : ctx.Full) (hsteady : ctx.env.remote.Steady run.tableIds)
    (hfresh : FreshInSync ctx.env ctx.serverName run.tableIds)
    (hround : IdsRoundTrip ctx.env run.tableIds) {id : TableId} {t : LocalNamespaceTable}
    (h : Carries ctx.env ctx.serverName root s'.catalog id t) :
    Carries ctx.env ctx.serverName root s.catalog id t ∨ (id, t.place) ∈ run.mapping.entries ∧
      ∀ t', (introspectLocalNamespaceTables ctx.env ctx.serverName root s.catalog).1[id]? =
        some t' → t'.place = t.place := by
  obtain ⟨rel, hrel⟩ := h.there
  rcases run.origin hfull hsteady hfresh (run.keeps_of_final hrel) with
    hold | hkind | ⟨id', hentry, hlocal, hmade⟩
  · exact .inl (h.congr (hrel.trans hold.symm))
  · exact absurd hkind (h.not_composite hrel)
  · have hid := hmade.carries (hround id' (run.covers.place id' _ hentry).2) hrel h
    subst hid
    exact .inr ⟨hentry, hlocal⟩

theorem carries_kept (hfull : ctx.Full) (hsteady : ctx.env.remote.Steady run.tableIds)
    (hfresh : FreshInSync ctx.env ctx.serverName run.tableIds) {id : TableId}
    {t : LocalNamespaceTable} (h : Carries ctx.env ctx.serverName root s.catalog id t)
    (hkept : (introspectLocalNamespaceTables ctx.env ctx.serverName root s.catalog).1[id]? = some t →
      (id, t.place) ∉ run.mapping.entries ∧ id ∈ run.tableIds) :
    Carries ctx.env ctx.serverName root s'.catalog id t := by
  obtain ⟨rel, hrel⟩ := h.there
  have hsynced : run.synced.catalog.relations[t.place]? = some rel := by
    apply run.keeps hfull hsteady hfresh hrel
    intro id' t' hentry hlocal hplace
    obtain ⟨rfl, rfl⟩ := h.unique (localById_eq_some.mp hlocal).1 hplace.symm
    exact (hkept hlocal).1 hentry
  apply h.congr
  rw [run.final hfull, if_neg, hrel, hsynced]
  rw [run.mem_dropped]
  rintro ⟨id', t', hlocal, hstale, hplace⟩
  obtain ⟨rfl, rfl⟩ := h.unique (localById_eq_some.mp hlocal).1 hplace.symm
  exact hstale (hkept hlocal).2

theorem still_elsewhere (hfull : ctx.Full) (hsteady : ctx.env.remote.Steady run.tableIds)
    (hfresh : FreshInSync ctx.env ctx.serverName run.tableIds)
    (hround : IdsRoundTrip ctx.env run.tableIds) {id : TableId} {place : QualName}
    {t : LocalNamespaceTable} (hentry : (id, place) ∈ run.mapping.entries)
    (ht : (introspectLocalNamespaceTables ctx.env ctx.serverName root s.catalog).1[id]? = some t)
    (hne : t.place ≠ place) :
    ∃ row, syncEntry ctx
      (introspectLocalNamespaceTables ctx.env ctx.serverName root s'.catalog).1 id place s' =
        .ok (.ok (row, s')) := by
  obtain ⟨fields, hload⟩ := hsteady id (run.covers.place id place hentry).2
  obtain ⟨hold, hmax⟩ := localById_eq_some.mp ht
  have hkept : Carries ctx.env ctx.serverName root s'.catalog id t := by
    apply run.carries_kept hfull hsteady hfresh hold
    refine fun _ => ⟨?_, (run.covers.place id place hentry).2⟩
    intro hentry'
    have hsame := List.inj_on_of_nodup_map run.covers.tableIds hentry' hentry rfl
    exact hne (Prod.mk.inj hsame).2
  refine syncEntry_still (hload .driftCheck) ?_ ?_
  · intro hnone
    exact absurd hkept (localById_eq_none.mp hnone t)
  · rintro t' ht' rfl
    obtain ⟨hcarries, hmax'⟩ := localById_eq_some.mp ht'
    rcases run.carries_after hfull hsteady hfresh hround hcarries with hold' | ⟨-, hplace⟩
    · have hle := hmax t' hold'
      have hge := hmax' t hkept
      have heq : compare t.place t'.place = .eq := by
        cases hcompare : compare t.place t'.place with
        | lt => exact absurd (Std.OrientedCmp.gt_of_lt hcompare) hle
        | eq => rfl
        | gt => exact absurd hcompare hge
      exact absurd (Std.LawfulEqOrd.eq_of_compare heq) hne
    · exact absurd (hplace t ht) hne

/-- A second sync does nothing about the tables of the listing. -/
theorem still (hfull : ctx.Full) (hsteady : ctx.env.remote.Steady run.tableIds)
    (hfresh : FreshInSync ctx.env ctx.serverName run.tableIds)
    (hround : IdsRoundTrip ctx.env run.tableIds)
    (hfree : FreePlaces ctx root s.catalog run.tableIds run.mapping) {id : TableId}
    {place : QualName} (hentry : (id, place) ∈ run.mapping.entries) :
    ∃ row, syncEntry ctx
      (introspectLocalNamespaceTables ctx.env ctx.serverName root s'.catalog).1 id place s' =
        .ok (.ok (row, s')) := by
  obtain ⟨fields, hload⟩ := hsteady id (run.covers.place id place hentry).2
  have hplaced : ∀ {rel}, (∀ t, (introspectLocalNamespaceTables ctx.env ctx.serverName root
      s.catalog).1[id]? = some t → t.place = place) →
      run.synced.catalog.relations[place]? = some rel →
        s'.catalog.relations[place]? = some rel :=
    fun hlocal hrel => (run.final_place hfull hfree hentry hlocal).trans hrel
  have hmadeStill : ∀ {rel}, s'.catalog.relations[place]? = some rel → Made ctx id place rel →
      ∃ row, syncEntry ctx (introspectLocalNamespaceTables ctx.env ctx.serverName root
        s'.catalog).1 id place s' = .ok (.ok (row, s')) := by
    intro rel hrel hmade
    refine syncEntry_still (hload .driftCheck) (fun _ => ⟨rel, hrel⟩) ?_
    rintro t ht rfl
    rw [hrel]
    rcases hmade with hkind | ⟨-, hdrift⟩
    · exact absurd hkind ((localById_eq_some.mp ht).1.not_composite hrel)
    · exact hdrift fields (hload .driftCheck)
  cases run.settled hfull hsteady hfresh hentry with
  | taken hnone hold hnew =>
    have hrel := hplaced (by simp [hnone]) hnew
    refine syncEntry_still (hload .driftCheck) (fun _ => ⟨_, hrel⟩) ?_
    rintro t ht rfl
    have hcarries := (localById_eq_some.mp ht).1.congr (hrel.trans hold.symm)
    exact absurd hcarries (localById_eq_none.mp hnone t)
  | created hnone _ hnew hmade => exact hmadeStill (hplaced (by simp [hnone]) hnew) hmade
  | elsewhere ht hne _ => exact run.still_elsewhere hfull hsteady hfresh hround hentry ht hne
  | inSync ht hplace _ hnew hdrift =>
    have hrel := hplaced (fun t' ht' => by rw [ht] at ht'; cases ht'; exact hplace) hnew
    refine syncEntry_still (hload .driftCheck) (fun _ => ⟨_, hrel⟩) ?_
    intro t' _ _
    rw [hrel]
    exact hdrift fields (hload .driftCheck)
  | recreated ht hplace hnew hmade =>
    exact hmadeStill
      (hplaced (fun t' ht' => by rw [ht] at ht'; cases ht'; exact hplace) hnew) hmade

theorem localOnly_nil (hfull : ctx.Full) (hsteady : ctx.env.remote.Steady run.tableIds)
    (hfresh : FreshInSync ctx.env ctx.serverName run.tableIds)
    (hround : IdsRoundTrip ctx.env run.tableIds)
    (hstale : DistinctStale ctx root s.catalog run.tableIds) :
    localOnlyTables (introspectLocalNamespaceTables ctx.env ctx.serverName root s'.catalog).1
      run.tableIds = [] := by
  rw [List.eq_nil_iff_forall_not_mem]
  rintro ⟨id, t⟩ hmem
  rw [localOnlyTables, List.mem_insertionSort, List.mem_filter,
    Std.TreeMap.mem_toList_iff_getElem?_eq_some] at hmem
  obtain ⟨hlocal, hunlisted⟩ := hmem
  have hunlisted : id ∉ run.tableIds := by simpa using hunlisted
  have hcarries := (localById_eq_some.mp hlocal).1
  rcases run.carries_after hfull hsteady hfresh hround hcarries with hold | ⟨hentry, -⟩
  · have hlocalOld : (introspectLocalNamespaceTables ctx.env ctx.serverName root
        s.catalog).1[id]? = some t := by
      refine localById_eq_some.mpr ⟨hold, ?_⟩
      intro t' ht'
      rw [hstale id t' t hunlisted ht' hold]
      simp
    obtain ⟨rel, hrel⟩ := hcarries.there
    rw [run.final hfull, if_pos (run.mem_dropped.mpr ⟨id, t, hlocalOld, hunlisted, rfl⟩)] at hrel
    cases hrel
  · exact hunlisted (run.covers.place id _ hentry).2

include run in
theorem servers : s'.catalog.servers = s.catalog.servers :=
  run.drops.servers.trans (syncEntries_touches run.covers.fits run.entries).servers

end SyncRun

theorem mapNamespace_congr {env : NamespaceEnv} {serverName schemaPrefix : String} {root : TableId}
    {limit : Int} {σ τ : LocalCatalog} (h : σ.servers = τ.servers) :
    mapNamespace env serverName root schemaPrefix limit σ =
      mapNamespace env serverName root schemaPrefix limit τ := by
  rw [mapNamespace, mapNamespace, connectServer, connectServer, h]

theorem syncEntries_still {ctx : SyncContext} {localById : LocalById} {s : Session}
    {entries : List (TableId × QualName)} (h : ∀ entry ∈ entries, ∃ row,
      syncEntry ctx localById entry.1 entry.2 s = .ok (.ok (row, s))) :
    ∃ rows, syncEntries ctx localById entries s = .ok (.ok (rows, s)) := by
  induction entries with
  | nil => exact ⟨[], rfl⟩
  | cons entry entries ih =>
    rw [List.forall_mem_cons] at h
    obtain ⟨row, hrow⟩ := h.1
    obtain ⟨rows, hrows⟩ := ih h.2
    refine ⟨row :: rows, ?_⟩
    rw [syncEntries, hrow]
    simp only [bind, Except.bind, hrows]
    rfl

section

variable {ctx : SyncContext} {root : TableId} {schemaPrefix : String} {s s' s'' : Session}
  {rows rows' : List NamespaceRow} (run : SyncRun ctx root schemaPrefix s rows s')
  (run' : SyncRun ctx root schemaPrefix s' rows' s'')

/-- A second sync does nothing. -/
theorem SyncRun.again (hfull : ctx.Full) (hsteady : ctx.env.remote.Steady run.tableIds)
    (hfresh : FreshInSync ctx.env ctx.serverName run.tableIds)
    (hround : IdsRoundTrip ctx.env run.tableIds)
    (hfree : FreePlaces ctx root s.catalog run.tableIds run.mapping)
    (hstale : DistinctStale ctx root s.catalog run.tableIds) :
    ∃ rows', syncNamespace ctx root schemaPrefix s' = .ok (.ok (rows', s')) := by
  have hentries : ∀ entry ∈ run.mapping.entries, ∃ row, syncEntry ctx
      (introspectLocalNamespaceTables ctx.env ctx.serverName root s'.catalog).1 entry.1 entry.2 s' =
        .ok (.ok (row, s')) :=
    fun entry hentry => run.still hfull hsteady hfresh hround hfree hentry
  obtain ⟨entryRows, hrows⟩ := syncEntries_still hentries
  have hdrops := run.localOnly_nil hfull hsteady hfresh hround hstale
  rw [syncNamespace, mapNamespace_congr run.servers, run.mapped]
  simp only [bind, Except.bind, hrows, hdrops, dropEntries]
  exact ⟨_, rfl⟩

theorem SyncRun.nothing_stale (hfull : ctx.Full)
    (hsame : s''.catalog.relations = s'.catalog.relations) {id : TableId}
    (hunlisted : id ∉ run'.tableIds) (t : LocalNamespaceTable) :
    ¬ Carries ctx.env ctx.serverName root s'.catalog id t := by
  intro hcarries
  cases hlocal : (introspectLocalNamespaceTables ctx.env ctx.serverName root s'.catalog).1[id]? with
  | none => exact localById_eq_none.mp hlocal t hcarries
  | some last =>
    obtain ⟨rel, hrel⟩ := (localById_eq_some.mp hlocal).1.there
    have hdropped := run'.final hfull last.place
    rw [if_pos (run'.mem_dropped.mpr ⟨id, last, hlocal, hunlisted, rfl⟩), hsame, hrel] at hdropped
    cases hdropped

theorem SyncRun.nothing_missing (hfull : ctx.Full)
    (hsteady : ctx.env.remote.Steady run'.tableIds)
    (hfresh : FreshInSync ctx.env ctx.serverName run'.tableIds)
    (hsame : s''.catalog.relations = s'.catalog.relations) {id : TableId} {place : QualName}
    (hentry : (id, place) ∈ run'.mapping.entries)
    (hnone : ∀ t, ¬ Carries ctx.env ctx.serverName root s'.catalog id t) :
    s'.catalog.relations[place]? ≠ none := by
  intro hfree
  cases run'.settled hfull hsteady hfresh hentry with
  | taken _ hold =>
    rw [hfree] at hold
    cases hold
  | created _ _ hnew =>
    have hfinal := run'.final hfull place
    rw [if_neg, hnew, hsame, hfree] at hfinal
    · cases hfinal
    · rw [run'.mem_dropped]
      rintro ⟨id', t, hlocal, -, rfl⟩
      obtain ⟨rel, hrel⟩ := (localById_eq_some.mp hlocal).1.there
      rw [hfree] at hrel
      cases hrel
  | elsewhere ht | inSync ht | recreated ht =>
    exact hnone _ (localById_eq_some.mp ht).1

end

/-- After a full sync of a namespace that does not change, a second one changes nothing exactly if
no two local tables had the same id that is not listed, and none of those was where a table was to
be made. -/
theorem syncNamespace_fixed_iff {ctx : SyncContext} {root : TableId} {schemaPrefix : String}
    {s s' : Session} {rows : List NamespaceRow} {tableIds : List TableId} {mapping : Mapping}
    (hfull : ctx.Full)
    (hmap : mapNamespace ctx.env ctx.serverName root schemaPrefix defaultLimitPerListCall
      s.catalog = .ok (tableIds, mapping))
    (hsteady : ctx.env.remote.Steady tableIds)
    (hfresh : FreshInSync ctx.env ctx.serverName tableIds)
    (hround : IdsRoundTrip ctx.env tableIds)
    (h : syncNamespace ctx root schemaPrefix s = .ok (.ok (rows, s'))) :
    (∃ rows' s'', syncNamespace ctx root schemaPrefix s' = .ok (.ok (rows', s'')) ∧
      s''.statements = s'.statements ∧ s''.catalog = s'.catalog) ↔
    FreePlaces ctx root s.catalog tableIds mapping ∧
      DistinctStale ctx root s.catalog tableIds := by
  obtain ⟨run, rfl, rfl⟩ := syncNamespace_run hmap h
  constructor
  · rintro ⟨rows', s'', h', -, hcatalog⟩
    have hmap' : mapNamespace ctx.env ctx.serverName root schemaPrefix defaultLimitPerListCall
        s'.catalog = .ok (run.tableIds, run.mapping) :=
      (mapNamespace_congr run.servers).trans hmap
    obtain ⟨run', htableIds, hmapping⟩ := syncNamespace_run hmap' h'
    have hsame : s''.catalog.relations = s'.catalog.relations := by rw [hcatalog]
    have hstale : DistinctStale ctx root s.catalog run.tableIds := by
      intro id t t' hunlisted ht ht'
      by_contra hne
      obtain ⟨last, hlast, -⟩ := duplicate_error ht ht' hne
      have hother : ∀ other, Carries ctx.env ctx.serverName root s.catalog id other →
          other = last := by
        intro other hcarries
        by_contra hdiffers
        have hkept : Carries ctx.env ctx.serverName root s'.catalog id other := by
          apply run.carries_kept hfull hsteady hfresh hcarries
          intro hlocal
          rw [hlast] at hlocal
          cases hlocal
          exact absurd rfl hdiffers
        exact run'.nothing_stale hfull hsame (htableIds ▸ hunlisted) other hkept
      exact hne ((hother t ht).trans (hother t' ht').symm)
    refine ⟨?_, hstale⟩
    intro id place hentry hnone id' t hcarries hplace
    by_contra hunlisted
    have hlocal : (introspectLocalNamespaceTables ctx.env ctx.serverName root
        s.catalog).1[id']? = some t := by
      refine localById_eq_some.mpr ⟨hcarries, ?_⟩
      intro t' ht'
      rw [hstale id' t' t hunlisted ht' hcarries]
      simp
    have hfree : s'.catalog.relations[place]? = none := by
      rw [run.final hfull, if_pos (run.mem_dropped.mpr ⟨id', t, hlocal, hunlisted, hplace⟩)]
    refine run'.nothing_missing hfull (htableIds ▸ hsteady) (htableIds ▸ hfresh) hsame
      (hmapping ▸ hentry) ?_ hfree
    intro t' ht'
    rcases run.carries_after hfull hsteady hfresh hround ht' with hold | ⟨hentry', -⟩
    · exact hnone t' hold
    · have hsamePlace := List.inj_on_of_nodup_map run.covers.tableIds hentry' hentry rfl
      obtain ⟨rel, hrel⟩ := ht'.there
      rw [(Prod.mk.inj hsamePlace).2, hfree] at hrel
      cases hrel
  · rintro ⟨hfree, hstale⟩
    obtain ⟨rows', hagain⟩ := run.again hfull hsteady hfresh hround hfree hstale
    exact ⟨rows', s', hagain, rfl, rfl⟩

theorem freshInSync_of_shallow {env : NamespaceEnv} {serverName : String}
    {tableIds : List TableId} (h : ∀ id ∈ tableIds, ∃ fields,
      (∀ site, env.remote.load site id = .ok fields) ∧
        ∀ f ∈ fields, f.name.utf8ByteSize ≤ 63 ∧ f.dataType.listDepth ≤ 1) :
    FreshInSync env serverName tableIds := by
  intro id hid batchSize place s s' rel server options hattach hrel hkind
  obtain ⟨fields, hload, hfields⟩ := h id hid
  obtain ⟨hnone, fields', hload', hattached⟩ := attachOne_created hattach ⟨rfl, rfl⟩
  rw [hload] at hload'
  cases hload'
  exact (hattached.no_drift_iff hnone (hload .driftCheck) (fun f hf => (hfields f hf).1) hrel
    hkind).mpr fun f hf => (hfields f hf).2

def renamedRemote : Remote :=
  .ofTree (fun ns => if ns = [] then ["t"] else []) (fun _ => []) [] Remote.nil_listed sampleLoad

def renamedSync : SyncContext := ⟨.sample renamedRemote [["t"], ["old", "t"]], "srv", true, true, false⟩

/-- The place of the table is still that of one that is no longer listed. -/
def renamedSession : Session :=
  ⟨LocalCatalog.sample.insert "lance" "t" (.sample ["old", "t"] "id" .int4), [], []⟩

theorem renamedSync_full : renamedSync.Full := ⟨rfl, rfl, rfl⟩

theorem renamedSync_runs : ∃ rows s' rows' s'',
    syncNamespace renamedSync [] "lance" renamedSession = .ok (.ok (rows, s')) ∧
      syncNamespace renamedSync [] "lance" s' = .ok (.ok (rows', s'')) ∧
      s''.statements ≠ s'.statements := by
  have hrun : (Fallible.returned (syncNamespace renamedSync [] "lance" renamedSession)).any
      (fun p => (Fallible.returned (syncNamespace renamedSync [] "lance" p.2)).any fun q =>
        q.2.statements ≠ p.2.statements) = true := by
    decide
  obtain ⟨⟨rows, s'⟩, hfirst, hsecond⟩ := (Option.any_eq_true _ _).mp hrun
  obtain ⟨⟨rows', s''⟩, hsecond, hne⟩ := (Option.any_eq_true _ _).mp hsecond
  exact ⟨rows, s', rows', s'', Fallible.returned_eq_some.mp hfirst,
    Fallible.returned_eq_some.mp hsecond, of_decide_eq_true hne⟩

theorem renamedSync_maps : ∃ mapping, mapNamespace renamedSync.env renamedSync.serverName []
    "lance" defaultLimitPerListCall renamedSession.catalog = .ok ([["t"]], mapping) := by
  have hmap : (mapNamespace renamedSync.env renamedSync.serverName [] "lance"
      defaultLimitPerListCall renamedSession.catalog).map (fun p => p.1) = .ok [["t"]] := by
    decide
  obtain ⟨⟨tableIds, mapping⟩, hmap, heq⟩ := Fallible.map_ok_iff.mp hmap
  simp only at heq
  exact ⟨mapping, by rw [hmap, heq]⟩

theorem syncNamespace_fixed_iff_sample : ∃ mapping rows s',
    mapNamespace renamedSync.env renamedSync.serverName [] "lance" defaultLimitPerListCall
      renamedSession.catalog = .ok ([["t"]], mapping) ∧
    syncNamespace renamedSync [] "lance" renamedSession = .ok (.ok (rows, s')) ∧
    ((∃ rows' s'', syncNamespace renamedSync [] "lance" s' = .ok (.ok (rows', s'')) ∧
        s''.statements = s'.statements ∧ s''.catalog = s'.catalog) ↔
      FreePlaces renamedSync [] renamedSession.catalog [["t"]] mapping ∧
        DistinctStale renamedSync [] renamedSession.catalog [["t"]]) := by
  obtain ⟨rows, s', -, -, hrun, -, -⟩ := renamedSync_runs
  obtain ⟨mapping, hmap⟩ := renamedSync_maps
  have hsteady : renamedSync.env.remote.Steady [["t"]] := fun _ _ => ⟨_, fun _ => rfl⟩
  have hfresh : FreshInSync renamedSync.env renamedSync.serverName [["t"]] :=
    freshInSync_of_shallow fun _ _ => ⟨_, fun _ => rfl, by decide⟩
  have hround : IdsRoundTrip renamedSync.env [["t"]] := by
    intro id hid
    rw [List.mem_singleton.mp hid]
    decide
  exact ⟨mapping, rows, s', hmap, hrun,
    syncNamespace_fixed_iff renamedSync_full hmap hsteady hfresh hround hrun⟩

theorem syncNamespace_not_fixed : ∃ rows s',
    syncNamespace renamedSync [] "lance" renamedSession = .ok (.ok (rows, s')) ∧
      ¬ ∃ rows' s'', syncNamespace renamedSync [] "lance" s' = .ok (.ok (rows', s'')) ∧
        s''.statements = s'.statements ∧ s''.catalog = s'.catalog := by
  obtain ⟨rows, s', rows', s'', hfirst, hsecond, hne⟩ := renamedSync_runs
  refine ⟨rows, s', hfirst, ?_⟩
  rintro ⟨rows₂, s₂, hagain, hstatements, -⟩
  rw [hsecond] at hagain
  cases hagain
  exact hne hstatements

end PgLance
