import PgLance.Fdw.SyncLaws

/-! Runs of imports, attaches and syncs, and what they leave alone. -/

namespace PgLance

structure TableRequest where
  server : String
  place : QualName
  options : List (String × String)
  fields : Schema

def Session.make (pg : Postgres) (request : TableRequest) (s : Session) : Except String Session :=
  s.createTable pg request.server request.place.schema request.place.name request.options
    request.fields

/-- What the functions do to a session: `makes` says which tables they make, and `drops` which
they drop. -/
inductive Session.Step (makes : TableRequest → Prop) (drops : QualName → Prop) (s s' : Session) :
    Prop
  | schema {pg : Postgres} {schema : String} :
    s.execute pg (.createSchema schema) = .ok s' → Step makes drops s s'
  | drop {pg : Postgres} {place : QualName} : drops place →
    s.execute pg (.dropForeignTable place.schema place.name) = .ok s' → Step makes drops s s'
  | table {pg : Postgres} {request : TableRequest} : makes request →
    s.make pg request = .ok s' → Step makes drops s s'

abbrev Session.Reaches (makes : TableRequest → Prop) (drops : QualName → Prop) :
    Session → Session → Prop :=
  Relation.ReflTransGen (Session.Step makes drops)

section

variable {makes makes' : TableRequest → Prop} {drops drops' : QualName → Prop} {s s' : Session}

theorem Session.Reaches.mono (h : s.Reaches makes drops s')
    (hmakes : ∀ request, makes request → makes' request)
    (hdrops : ∀ place, drops place → drops' place) : s.Reaches makes' drops' s' := by
  refine Relation.ReflTransGen.mono ?_ _ _ h
  intro s₁ s₂ hstep
  cases hstep with
  | schema hrun => exact .schema hrun
  | drop hdrop hrun => exact .drop (hdrops _ hdrop) hrun
  | table hmake hrun => exact .table (hmakes _ hmake) hrun

theorem importLanceTable_reaches {env : NamespaceEnv} {serverName localSchema tableName uri : String}
    {batchSize : Option Int} {result : Except String Unit}
    (h : importLanceTable env serverName localSchema tableName uri batchSize s = .ok (result, s'))
    (hmakes : ∀ fields, env.openDataset uri = .ok fields → makes ⟨serverName,
      ⟨localSchema, tableName⟩, ("uri", uri) :: batchSizeOption batchSize, fields⟩) :
    s.Reaches makes drops s' := by
  rw [importLanceTable] at h
  split at h
  · cases h
    exact .refl
  · split at h
    · cases h
      exact .refl
    · rename_i fields hfields
      obtain ⟨s₁, hcreate, heq⟩ := Fallible.map_ok_iff.mp h
      cases heq
      exact .single (.table (hmakes fields hfields) hcreate)

theorem attachOne_reaches {ctx : AttachContext} {tableId : TableId} {place : QualName}
    {result : Except String NamespaceRow} (h : attachOne ctx tableId place s = .ok (result, s'))
    (hmakes : ctx.dryRun = false → ∀ fields, ctx.env.remote.load .attach tableId = .ok fields →
      makes ⟨ctx.serverName, place, attachOptions ctx tableId, fields⟩) :
    s.Reaches makes drops s' := by
  cases hrel : s.catalog.relations[place]? with
  | some rel =>
    rw [attachOne_existing hrel] at h
    cases h
    exact .refl
  | none =>
    rw [attachOne, lookupExistingRelation_free hrel] at h
    simp only at h
    split at h
    · cases h
      exact .refl
    · rename_i hdry
      split at h
      · cases h
        exact .refl
      · rename_i fields hload
        obtain ⟨s₁, hschema, h⟩ := Fallible.bind_ok_iff.mp h
        obtain ⟨s₂, htable, h⟩ := Fallible.bind_ok_iff.mp h
        cases h
        have hmake := hmakes (by simpa using hdry) fields hload
        exact (Relation.ReflTransGen.single (.schema hschema)).tail (.table hmake htable)

theorem AttachOne.reaches {ctx : AttachContext} {tableId : TableId} {place : QualName}
    {result : Except String NamespaceRow} (h : AttachOne ctx tableId place s result s')
    (hmakes : ctx.dryRun = false → ∀ fields, ctx.env.remote.load .attach tableId = .ok fields →
      makes ⟨ctx.serverName, place, attachOptions ctx tableId, fields⟩) :
    s.Reaches makes drops s' := by
  cases h with
  | existing | dryRun | failed => exact .refl
  | attached _ _ _ hattached => exact attachOne_reaches hattached.attaches hmakes

theorem attachEntries_reaches {ctx : AttachContext} {entries : List (TableId × QualName)}
    {rows : List NamespaceRow} (h : attachEntries ctx entries s = .ok (rows, s'))
    (hmakes : ctx.dryRun = false → ∀ entry ∈ entries, ∀ fields,
      ctx.env.remote.load .attach entry.1 = .ok fields →
        makes ⟨ctx.serverName, entry.2, attachOptions ctx entry.1, fields⟩) :
    s.Reaches makes drops s' := by
  induction entries generalizing s rows with
  | nil =>
    cases h
    exact .refl
  | cons entry entries ih =>
    obtain ⟨⟨result, s₁⟩, hfirst, h⟩ := Fallible.bind_ok_iff.mp h
    obtain ⟨⟨rows', s₂⟩, hrest, h⟩ := Fallible.bind_ok_iff.mp h
    cases h
    refine (attachOne_reaches hfirst ?_).trans (ih hrest ?_)
    · intro hdry
      exact hmakes hdry entry List.mem_cons_self
    · intro hdry other hother
      exact hmakes hdry other (List.mem_cons_of_mem _ hother)

def SyncContext.attachContext (ctx : SyncContext) (localById : LocalById) (tableId : TableId) :
    AttachContext :=
  ⟨ctx.env, ctx.serverName, localById[tableId]?.bind LocalNamespaceTable.batchSize, false⟩

theorem SyncEntry.reaches {ctx : SyncContext} {localById : LocalById} {tableId : TableId}
    {place : QualName} {row : NamespaceRow}
    (h : SyncEntry ctx localById tableId place s (.ok (row, s')))
    (hmakes : ctx.dryRun = false → ∀ fields, ctx.env.remote.load .attach tableId = .ok fields →
      makes ⟨ctx.serverName, place, attachOptions (ctx.attachContext localById tableId) tableId,
        fields⟩)
    (hdrops : ctx.dryRun = false → ctx.recreateChanged = true →
      ∀ t, localById[tableId]? = some t → t.place = place → drops place) :
    s.Reaches makes drops s' := by
  cases h with
  | create hnone hattach =>
    apply hattach.reaches
    intro hdry
    simpa [SyncContext.attachContext, hnone, attachOptions] using hmakes hdry
  | misplaced | inSync | drifted | dryRun => exact .refl
  | recreated hlocal hplace _ _ hrecreate hdry hdrop hattach =>
    have hdropped := hdrops hdry hrecreate _ hlocal hplace
    refine .head (.drop hdropped hdrop) (hattach.reaches fun _ => ?_)
    simpa [SyncContext.attachContext, hlocal, attachOptions] using hmakes hdry

theorem syncEntries_reaches {ctx : SyncContext} {localById : LocalById}
    {entries : List (TableId × QualName)} {rows : List NamespaceRow}
    (h : syncEntries ctx localById entries s = .ok (.ok (rows, s')))
    (hmakes : ctx.dryRun = false → ∀ entry ∈ entries, ∀ fields,
      ctx.env.remote.load .attach entry.1 = .ok fields → makes ⟨ctx.serverName, entry.2,
        attachOptions (ctx.attachContext localById entry.1) entry.1, fields⟩)
    (hdrops : ctx.dryRun = false → ctx.recreateChanged = true → ∀ entry ∈ entries,
      ∀ t, localById[entry.1]? = some t → t.place = entry.2 → drops entry.2) :
    s.Reaches makes drops s' := by
  induction entries generalizing s rows with
  | nil =>
    cases h
    exact .refl
  | cons entry entries ih =>
    obtain ⟨row, s₁, rows', hentry, hrest, -⟩ := syncEntries_cons_ok h
    have hfirst := hentry.reaches (fun hdry => hmakes hdry entry List.mem_cons_self)
      fun hdry hrecreate => hdrops hdry hrecreate entry List.mem_cons_self
    refine hfirst.trans (ih hrest ?_ ?_)
    · intro hdry other hother
      exact hmakes hdry other (List.mem_cons_of_mem _ hother)
    · intro hdry hrecreate other hother
      exact hdrops hdry hrecreate other (List.mem_cons_of_mem _ hother)

theorem localOnlyTables_local {localById : LocalById} {remoteTableIds : List TableId}
    {entry : TableId × LocalNamespaceTable}
    (h : entry ∈ localOnlyTables localById remoteTableIds) :
    localById[entry.1]? = some entry.2 := by
  rw [localOnlyTables, List.mem_insertionSort, List.mem_filter] at h
  exact Std.TreeMap.mem_toList_iff_getElem?_eq_some.mp h.1

theorem dropEntries_reaches {ctx : SyncContext} {entries : List (TableId × LocalNamespaceTable)}
    {rows : List NamespaceRow} (h : dropEntries ctx entries s = .ok (rows, s'))
    (hdrops : ctx.dryRun = false → ctx.dropMissing = true → ∀ entry ∈ entries,
      drops entry.2.place) : s.Reaches makes drops s' := by
  induction entries generalizing s rows with
  | nil =>
    cases h
    exact .refl
  | cons entry entries ih =>
    obtain ⟨⟨row, s₁⟩, hentry, h⟩ := Fallible.bind_ok_iff.mp h
    obtain ⟨⟨rows', s₂⟩, hrest, h⟩ := Fallible.bind_ok_iff.mp h
    cases h
    have hrest := ih hrest fun hdry hmissing other hother =>
      hdrops hdry hmissing other (List.mem_cons_of_mem _ hother)
    obtain ⟨-, heffect⟩ := dropEntry_ok hentry
    split at heffect
    · rename_i hflags
      rw [Bool.and_eq_true, Bool.not_eq_true'] at hflags
      exact .head (.drop (hdrops hflags.2 hflags.1 entry List.mem_cons_self) heffect) hrest
    · rw [heffect] at hrest
      exact hrest

end

inductive CatalogCall
  | importTable (env : NamespaceEnv) (serverName localSchema tableName uri : String)
    (batchSize : Option Int)
  | attach (env : NamespaceEnv) (serverName : String) (rootNamespaceId : TableId)
    (schemaPrefix : String) (batchSize : Option Int) (limitPerListCall : Int) (dryRun : Bool)
  | sync (ctx : SyncContext) (rootNamespaceId : TableId) (schemaPrefix : String)

namespace CatalogCall

def run (s : Session) : CatalogCall → Session
  | importTable env serverName localSchema tableName uri batchSize =>
    match importLanceTable env serverName localSchema tableName uri batchSize s with
    | .ok (.ok (), s') => s'
    | _ => s
  | attach env serverName rootNamespaceId schemaPrefix batchSize limitPerListCall dryRun =>
    match attachNamespace env serverName rootNamespaceId schemaPrefix batchSize limitPerListCall
      dryRun s with
    | .ok (.ok _, s') => s'
    | _ => s
  | sync ctx rootNamespaceId schemaPrefix =>
    match syncNamespace ctx rootNamespaceId schemaPrefix s with
    | .ok (.ok (_, s')) => s'
    | _ => s

def Makes (σ : LocalCatalog) : CatalogCall → TableRequest → Prop
  | importTable env serverName localSchema tableName uri batchSize, request =>
    env.openDataset uri = .ok request.fields ∧ request.server = serverName ∧
      request.place = ⟨localSchema, tableName⟩ ∧
      request.options = ("uri", uri) :: batchSizeOption batchSize
  | attach env serverName rootNamespaceId schemaPrefix batchSize limitPerListCall dryRun,
      request =>
    dryRun = false ∧ request.server = serverName ∧ ∃ tableIds mapping id,
      mapNamespace env serverName rootNamespaceId schemaPrefix limitPerListCall σ =
        .ok (tableIds, mapping) ∧ (id, request.place) ∈ mapping.entries ∧
      env.remote.load .attach id = .ok request.fields ∧
      request.options = attachOptions ⟨env, serverName, batchSize, dryRun⟩ id
  | sync ctx rootNamespaceId schemaPrefix, request =>
    ctx.dryRun = false ∧ request.server = ctx.serverName ∧ ∃ tableIds mapping id,
      mapNamespace ctx.env ctx.serverName rootNamespaceId schemaPrefix defaultLimitPerListCall σ =
        .ok (tableIds, mapping) ∧ (id, request.place) ∈ mapping.entries ∧
      ctx.env.remote.load .attach id = .ok request.fields ∧
      request.options = attachOptions (ctx.attachContext
        (introspectLocalNamespaceTables ctx.env ctx.serverName rootNamespaceId σ).1 id) id

/-- The places that a call may drop tables at: a sync drops what carries an id below its root. -/
def Drops (σ : LocalCatalog) : CatalogCall → QualName → Prop
  | sync ctx rootNamespaceId _, place =>
    ctx.dryRun = false ∧ (ctx.recreateChanged = true ∨ ctx.dropMissing = true) ∧
      ∃ id t, t.place = place ∧ Carries ctx.env ctx.serverName rootNamespaceId σ id t
  | _, _ => False

theorem reaches (call : CatalogCall) (s : Session) :
    s.Reaches (call.Makes s.catalog) (call.Drops s.catalog) (call.run s) := by
  cases call with
  | importTable env serverName localSchema tableName uri batchSize =>
    rw [run]
    split
    · rename_i s' hrun
      exact importLanceTable_reaches hrun fun fields hfields => ⟨hfields, rfl, rfl, rfl⟩
    · exact .refl
  | attach env serverName rootNamespaceId schemaPrefix batchSize limitPerListCall dryRun =>
    rw [run]
    split
    · rename_i rows s' hrun
      rw [attachNamespace] at hrun
      split at hrun
      · cases hrun
      · rename_i tableIds mapping hmap
        obtain ⟨⟨rows', s₁⟩, hentries, hrun⟩ := Fallible.bind_ok_iff.mp hrun
        cases hrun
        apply attachEntries_reaches hentries
        rintro hdry ⟨id, place⟩ hentry fields hload
        exact ⟨hdry, rfl, tableIds, mapping, id, hmap, hentry, hload, rfl⟩
    · exact .refl
  | sync ctx rootNamespaceId schemaPrefix =>
    rw [run]
    split
    · rename_i rows s' hrun
      rw [syncNamespace] at hrun
      split at hrun
      · cases hrun
      · rename_i tableIds mapping hmap
        obtain ⟨result, hentries, hrun⟩ := Fallible.bind_ok_iff.mp hrun
        cases result with
        | error e => cases hrun
        | ok p =>
          obtain ⟨⟨dropRows, s₁⟩, hdrops, hrun⟩ := Fallible.bind_ok_iff.mp hrun
          cases hrun
          refine (syncEntries_reaches hentries ?_ ?_).trans (dropEntries_reaches hdrops ?_)
          · rintro hdry ⟨id, place⟩ hentry fields hload
            exact ⟨hdry, rfl, tableIds, mapping, id, hmap, hentry, hload, rfl⟩
          · rintro hdry hrecreate ⟨id, place⟩ hentry t ht hplace
            exact ⟨hdry, .inl hrecreate, id, t, hplace, (localById_eq_some.mp ht).1⟩
          · rintro hdry hmissing ⟨id, t⟩ hentry
            have ht := localOnlyTables_local hentry
            exact ⟨hdry, .inr hmissing, id, t, rfl, (localById_eq_some.mp ht).1⟩
    · exact .refl

end CatalogCall

def runCalls (calls : List CatalogCall) (s : Session) : Session := calls.foldl CatalogCall.run s

def MadeIn (calls : List CatalogCall) (s : Session) (request : TableRequest) : Prop :=
  ∃ before call after, calls = before ++ call :: after ∧
    call.Makes (runCalls before s).catalog request

theorem runCalls_reaches (calls : List CatalogCall) (s : Session) :
    s.Reaches (MadeIn calls s) (fun _ => True) (runCalls calls s) := by
  induction calls generalizing s with
  | nil => exact .refl
  | cons call calls ih =>
    refine Relation.ReflTransGen.trans ((call.reaches s).mono ?_ fun _ _ => trivial)
      ((ih (call.run s)).mono ?_ fun _ h => h)
    · intro request hmakes
      exact ⟨[], call, calls, rfl, hmakes⟩
    · rintro request ⟨before, other, after, rfl, hmakes⟩
      exact ⟨call :: before, other, after, rfl, hmakes⟩

theorem Postgres.exec_schemas {pg : Postgres} {command : Command} {σ σ' : LocalCatalog}
    (h : pg.exec command σ = .ok σ') {schema : String} (hschema : schema ∈ σ.schemas) :
    schema ∈ σ'.schemas := by
  have hexec := (exec_ok h).2
  cases command with
  | createSchema name =>
    simp only at hexec
    split at hexec <;> subst hexec
    · exact hschema
    · exact Std.TreeSet.mem_insert.mpr (.inr hschema)
  | createCompositeType name ty =>
    rcases execCreateCompositeType_ok hexec with ⟨-, rfl⟩ | ⟨-, -, rel, -, -, rfl⟩
    · exact hschema
    · exact hschema
  | createForeignTable server name table options columns =>
    rcases execCreateForeignTable_ok hexec with ⟨-, rfl⟩ | ⟨-, rel, -, -, rfl⟩
    · exact hschema
    · exact hschema
  | dropForeignTable name table =>
    obtain ⟨-, rfl⟩ := execDropForeignTable_ok hexec
    exact hschema

/-- What is kept from `σ` to `σ'` when tables are dropped at some places only. -/
structure Keeps (drops : QualName → Prop) (σ σ' : LocalCatalog) : Prop where
  servers : σ'.servers = σ.servers
  types : σ'.types = σ.types
  schemas : ∀ schema ∈ σ.schemas, schema ∈ σ'.schemas
  relations : ∀ (name : QualName) rel, σ.relations[name]? = some rel →
    (∀ place, drops place → QualName.stored place.schema place.name ≠ name) →
      σ'.relations[name]? = some rel
  made : ∀ (name : QualName) rel, σ'.relations[name]? = some rel →
    σ.relations[name]? = some rel ∨ rel.kind = .compositeType ∨
      ∃ server options, rel.kind = .foreignTable server options

namespace Keeps

variable {drops : QualName → Prop} {σ σ₁ σ₂ : LocalCatalog}

theorem refl (drops : QualName → Prop) (σ : LocalCatalog) : Keeps drops σ σ :=
  ⟨rfl, rfl, fun _ h => h, fun _ _ h _ => h, fun _ _ h => .inl h⟩

theorem trans (h₁ : Keeps drops σ σ₁) (h₂ : Keeps drops σ₁ σ₂) : Keeps drops σ σ₂ where
  servers := h₂.servers.trans h₁.servers
  types := h₂.types.trans h₁.types
  schemas schema hschema := h₂.schemas schema (h₁.schemas schema hschema)
  relations name rel hrel hdrops := h₂.relations name rel (h₁.relations name rel hrel hdrops) hdrops
  made name rel hrel := by
    rcases h₂.made name rel hrel with hold | hnew
    · exact h₁.made name rel hold
    · exact .inr hnew

theorem of_exec {pg : Postgres} {command : Command} (h : pg.exec command σ = .ok σ₁)
    (hdrops : ∀ name, command.Drops name → ∃ place, drops place ∧
      name = .stored place.schema place.name) : Keeps drops σ σ₁ := by
  have hchanges := Postgres.exec_changes h
  refine ⟨hchanges.servers, hchanges.types, fun _ => Postgres.exec_schemas h, ?_, ?_⟩
  · intro name rel hrel hkept
    rcases hchanges.relations name with heq | ⟨hnone, -⟩ | ⟨hdrop, -⟩
    · rw [heq, hrel]
    · rw [hrel] at hnone
      cases hnone
    · obtain ⟨place, hplace, rfl⟩ := hdrops name hdrop
      exact absurd rfl (hkept place hplace)
  · intro name rel hrel
    rcases hchanges.relations name with heq | ⟨-, rel', hrel', hcreates⟩ | ⟨-, hnone, -⟩
    · exact .inl (heq ▸ hrel)
    · rw [hrel'] at hrel
      cases hrel
      cases command with
      | createSchema | dropForeignTable => exact hcreates.elim
      | createCompositeType => exact .inr (.inl hcreates.2.1)
      | createForeignTable => exact .inr (.inr ⟨_, _, hcreates.2.1⟩)
    · rw [hnone] at hrel
      cases hrel

theorem of_executeAll {pg : Postgres} {commands : List Command} {s s' : Session}
    (h : s.executeAll pg commands = .ok s')
    (hdrops : ∀ command ∈ commands, ∀ name, ¬ command.Drops name) :
    Keeps drops s.catalog s'.catalog := by
  induction commands generalizing s with
  | nil =>
    cases h
    exact .refl _ _
  | cons command commands ih =>
    rw [List.forall_mem_cons] at hdrops
    obtain ⟨s₁, hfirst, hrest⟩ := Fallible.bind_ok_iff.mp h
    have hkeeps : Keeps drops s.catalog s₁.catalog :=
      of_exec (Session.execute_ok hfirst).1 fun name hdrop => absurd hdrop (hdrops.1 name)
    exact hkeeps.trans (ih hrest hdrops.2)

theorem of_step {makes : TableRequest → Prop} {s s' : Session}
    (h : s.Step makes drops s') : Keeps drops s.catalog s'.catalog := by
  cases h with
  | schema hrun =>
    refine of_exec (Session.execute_ok hrun).1 ?_
    intro name hdrop
    cases hdrop
  | drop hdrop hrun =>
    refine of_exec (Session.execute_ok hrun).1 ?_
    rintro name rfl
    exact ⟨_, hdrop, rfl⟩
  | table hmake hrun =>
    obtain ⟨⟨s₁, hall, hcatalog, -⟩, -⟩ := Session.createTable_ok hrun
    rw [hcatalog]
    refine of_executeAll hall ?_
    intro command hcommand name hdrop
    cases List.mem_append.mp hcommand with
    | inl htype =>
      obtain ⟨ty, -, rfl⟩ := List.mem_map.mp htype
      cases hdrop
    | inr htable =>
      rw [List.mem_singleton.mp htable] at hdrop
      cases hdrop

theorem of_reaches {makes : TableRequest → Prop} {s s' : Session}
    (h : s.Reaches makes drops s') : Keeps drops s.catalog s'.catalog := by
  induction h with
  | refl => exact .refl _ _
  | tail _ hstep ih => exact ih.trans (of_step hstep)

end Keeps

/-- Whether a call may drop a relation: it is a sync that is no dry run and drops tables, and the
relation is a foreign table of its server with an id below its root. -/
def CatalogCall.MayDrop (rel : Relation) : CatalogCall → Prop
  | .sync ctx rootNamespaceId _ =>
    ctx.dryRun = false ∧ (ctx.recreateChanged = true ∨ ctx.dropMissing = true) ∧
      ∃ options json id, rel.kind = .foreignTable ctx.serverName options ∧
        options.lookup optNsTableId = some json ∧ parseTableId ctx.env json = .ok id ∧
        hasPrefix id rootNamespaceId = true
  | _ => False

theorem CatalogCall.mayDrop_of_drops {call : CatalogCall} {σ : LocalCatalog} {place : QualName}
    {rel : Relation} (h : call.Drops σ place)
    (hrel : σ.relations[QualName.stored place.schema place.name]? = some rel) :
    call.MayDrop rel := by
  cases call with
  | importTable | attach => exact h.elim
  | sync ctx rootNamespaceId schemaPrefix =>
    obtain ⟨hdry, hflags, id, t, rfl, json, htable, hid⟩ := h
    obtain ⟨rel', options, hrel', hkind, hjson, -⟩ := mem_namespaceTables.mp htable
    have hfits : t.place.Fits :=
      σ.fits t.place (Std.TreeMap.mem_iff_isSome_getElem?.mpr (by simp [hrel']))
    rw [show QualName.stored t.place.schema t.place.name = t.place from hfits, hrel'] at hrel
    cases hrel
    obtain ⟨hparse, hin⟩ := carriedId_eq_some.mp hid
    exact ⟨hdry, hflags, options, json, id, hkind, hjson, hparse, hin⟩

/-- No run takes away what it may not drop, and none adds anything but composite types and foreign
tables: a relation is still there, as it was, after calls that may not drop it. -/
theorem runCalls_keeps (calls : List CatalogCall) (s : Session) :
    let s' := runCalls calls s
    s'.catalog.servers = s.catalog.servers ∧ s'.catalog.types = s.catalog.types ∧
    (∀ schema ∈ s.catalog.schemas, schema ∈ s'.catalog.schemas) ∧
    (∀ (name : QualName) rel, s.catalog.relations[name]? = some rel →
      (∀ call ∈ calls, ¬ call.MayDrop rel) → s'.catalog.relations[name]? = some rel) ∧
    ∀ (name : QualName) rel, s'.catalog.relations[name]? = some rel →
      s.catalog.relations[name]? = some rel ∨ rel.kind = .compositeType ∨
        ∃ server options, rel.kind = .foreignTable server options := by
  induction calls generalizing s with
  | nil => exact ⟨rfl, rfl, fun _ h => h, fun _ _ h _ => h, fun _ _ h => .inl h⟩
  | cons call calls ih =>
    obtain ⟨hservers, htypes, hschemas, hrelations, hmade⟩ := ih (call.run s)
    have hkeeps := Keeps.of_reaches (call.reaches s)
    refine ⟨hservers.trans hkeeps.servers, htypes.trans hkeeps.types, ?_, ?_, ?_⟩
    · intro schema hschema
      exact hschemas schema (hkeeps.schemas schema hschema)
    · intro name rel hrel hdrops
      rw [List.forall_mem_cons] at hdrops
      refine hrelations name rel (hkeeps.relations name rel hrel ?_) hdrops.2
      rintro place hdrop rfl
      exact hdrops.1 (CatalogCall.mayDrop_of_drops hdrop hrel)
    · intro name rel hrel
      rcases hmade name rel hrel with hold | hnew
      · exact hkeeps.made name rel hold
      · exact .inr hnew

end PgLance
