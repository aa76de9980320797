import PgLance.Fdw.Sync

/-! What the steps of an attach or a sync do to the catalogue. -/

namespace PgLance

def NamespaceRow.key (row : NamespaceRow) : TableId × QualName × Action :=
  (row.tableId, row.place, row.action)

/-- From `σ` to `σ'`, statements made relations where there were none. -/
structure Adds (commands : List Command) (σ σ' : LocalCatalog) : Prop where
  servers : σ'.servers = σ.servers
  types : σ'.types = σ.types
  relations : ∀ name, σ'.relations[name]? = σ.relations[name]? ∨
    (σ.relations[name]? = none ∧ ∃ rel, σ'.relations[name]? = some rel ∧
      ∃ command ∈ commands, command.Creates name rel)

namespace Adds

variable {commands more : List Command} {σ σ₁ σ₂ : LocalCatalog}

theorem refl (commands : List Command) (σ : LocalCatalog) : Adds commands σ σ :=
  ⟨rfl, rfl, fun _ => .inl rfl⟩

theorem keeps (h : Adds commands σ σ₁) {name : QualName} {rel : Relation}
    (hrel : σ.relations[name]? = some rel) : σ₁.relations[name]? = some rel := by
  rcases h.relations name with heq | ⟨hnone, -⟩
  · rw [heq, hrel]
  · rw [hnone] at hrel
    cases hrel

theorem trans (h₁ : Adds commands σ σ₁) (h₂ : Adds more σ₁ σ₂) :
    Adds (commands ++ more) σ σ₂ where
  servers := h₂.servers.trans h₁.servers
  types := h₂.types.trans h₁.types
  relations name := by
    rcases h₁.relations name with heq | ⟨hnone, rel, hrel, command, hmem, hcreates⟩
    · rcases h₂.relations name with heq' | ⟨hnone', rel, hrel, command, hmem, hcreates⟩
      · exact .inl (heq'.trans heq)
      · exact .inr ⟨heq.symm.trans hnone', rel, hrel, command, List.mem_append_right _ hmem,
          hcreates⟩
    · exact .inr ⟨hnone, rel, h₂.keeps hrel, command, List.mem_append_left _ hmem, hcreates⟩

theorem made (h : Adds commands σ σ₁) {name : QualName} {rel : Relation}
    (hrel : σ₁.relations[name]? = some rel) : σ.relations[name]? = some rel ∨
      (σ.relations[name]? = none ∧ ∃ command ∈ commands, command.Creates name rel) := by
  rcases h.relations name with heq | ⟨hnone, rel', hrel', hmade⟩
  · exact .inl (heq ▸ hrel)
  · rw [hrel] at hrel'
    cases hrel'
    exact .inr ⟨hnone, hmade⟩

end Adds

theorem Changes.adds {command : Command} {σ σ' : LocalCatalog} (h : Changes command σ σ')
    (hdrops : ∀ name, ¬ command.Drops name) : Adds [command] σ σ' where
  servers := h.servers
  types := h.types
  relations name := by
    rcases h.relations name with heq | ⟨hnone, rel, hrel, hcreates⟩ | ⟨hdrop, -⟩
    · exact .inl heq
    · exact .inr ⟨hnone, rel, hrel, command, List.mem_singleton_self _, hcreates⟩
    · exact absurd hdrop (hdrops name)

namespace Session

variable {pg : Postgres} {s s' : Session}

theorem execute_ok {command : Command} (h : s.execute pg command = .ok s') :
    pg.exec command s.catalog = .ok s'.catalog ∧ s'.statements = s.statements ++ [command] ∧
      s'.created = s.created := by
  obtain ⟨σ, hexec, rfl⟩ := Fallible.map_ok_iff.mp h
  exact ⟨hexec, rfl, rfl⟩

theorem executeAll_append_ok {commands more : List Command} {s₁ : Session}
    (h₁ : s.executeAll pg commands = .ok s₁) (h₂ : s₁.executeAll pg more = .ok s') :
    s.executeAll pg (commands ++ more) = .ok s' := by
  induction commands generalizing s with
  | nil =>
    cases h₁
    exact h₂
  | cons command commands ih =>
    obtain ⟨s₂, hfirst, h₁⟩ := Fallible.bind_ok_iff.mp h₁
    exact Fallible.bind_ok_iff.mpr ⟨s₂, hfirst, ih h₁⟩

theorem executeAll_singleton {command : Command} (h : s.execute pg command = .ok s') :
    s.executeAll pg [command] = .ok s' :=
  Fallible.bind_ok_iff.mpr ⟨s', h, rfl⟩

theorem executeAll_ok {commands : List Command} (h : s.executeAll pg commands = .ok s')
    (hdrops : ∀ command ∈ commands, ∀ name, ¬ command.Drops name) :
    Adds commands s.catalog s'.catalog ∧ s'.statements = s.statements ++ commands ∧
      s'.created = s.created := by
  induction commands generalizing s with
  | nil =>
    cases h
    exact ⟨.refl _ _, by simp, rfl⟩
  | cons command commands ih =>
    rw [List.forall_mem_cons] at hdrops
    obtain ⟨s₁, h₁, h₂⟩ := Fallible.bind_ok_iff.mp h
    obtain ⟨hexec, hstatements, hcreated⟩ := execute_ok h₁
    obtain ⟨hadds, hstatements', hcreated'⟩ := ih h₂ hdrops.2
    have hfirst := (Postgres.exec_changes hexec).adds hdrops.1
    exact ⟨hfirst.trans hadds, by rw [hstatements', hstatements, List.append_assoc,
      List.singleton_append], hcreated'.trans hcreated⟩

end Session

def createCommands (server schema table : String) (options : List (String × String))
    (fields : Schema) : List Command :=
  (orderCompositeTypes (buildSchemaMapping table fields).compositeTypes).map
      (.createCompositeType schema) ++
    [.createForeignTable server schema table options (buildSchemaMapping table fields).columnTypes]

theorem createForeignTable_there {pg : Postgres} {server schema table : String}
    {options columns : List (String × String)} {σ σ' : LocalCatalog}
    (h : pg.exec (.createForeignTable server schema table options columns) σ = .ok σ') :
    ∃ rel, σ'.relations[QualName.stored schema table]? = some rel := by
  rcases Postgres.execCreateForeignTable_ok (Postgres.exec_ok h).2 with
    ⟨hcontains, rfl⟩ | ⟨-, rel, -, -, rfl⟩
  · rw [Std.TreeMap.contains_eq_isSome_getElem?] at hcontains
    exact Option.isSome_iff_exists.mp hcontains
  · exact ⟨rel, by simp [LocalCatalog.insert]⟩

theorem Session.createTable_ok {pg : Postgres} {s s' : Session} {server schema table : String}
    {options : List (String × String)} {fields : Schema}
    (h : s.createTable pg server schema table options fields = .ok s') :
    (∃ s₁, s.executeAll pg (createCommands server schema table options fields) = .ok s₁ ∧
      s'.catalog = s₁.catalog ∧ s'.statements = s₁.statements) ∧
      ∃ rel, s'.catalog.relations[QualName.stored schema table]? = some rel := by
  obtain ⟨s₁, h₁, h⟩ := Fallible.bind_ok_iff.mp h
  obtain ⟨s₂, h₂, h⟩ := Fallible.bind_ok_iff.mp h
  have hresult : s'.catalog = s₂.catalog ∧ s'.statements = s₂.statements := by
    split at h <;> cases h <;> exact ⟨rfl, rfl⟩
  refine ⟨⟨s₂, executeAll_append_ok h₁ (executeAll_singleton h₂), hresult⟩, ?_⟩
  rw [hresult.1]
  exact createForeignTable_there (execute_ok h₂).1

def attachCommands (ctx : AttachContext) (tableId : TableId) (place : QualName) (fields : Schema) :
    List Command :=
  .createSchema place.schema :: createCommands ctx.serverName place.schema place.name
    (attachOptions ctx tableId) fields

structure Attached (ctx : AttachContext) (tableId : TableId) (place : QualName) (fields : Schema)
    (s s' : Session) : Prop where
  attaches : attachOne ctx tableId place s =
    .ok (.ok ⟨tableId, place, .createTable, .ok, "attached"⟩, s')
  executes : ∃ s₁, s.executeAll ctx.env.pg (attachCommands ctx tableId place fields) = .ok s₁ ∧
    s'.catalog = s₁.catalog ∧ s'.statements = s₁.statements
  there : ∃ rel, s'.catalog.relations[QualName.stored place.schema place.name]? = some rel

theorem attachCommands_drops (ctx : AttachContext) (tableId : TableId) (place : QualName)
    (fields : Schema) : ∀ command ∈ attachCommands ctx tableId place fields, ∀ name,
      ¬ command.Drops name := by
  simp only [attachCommands, createCommands, List.forall_mem_cons, List.forall_mem_append,
    List.forall_mem_map, List.not_mem_nil, Command.Drops]
  simp

namespace Attached

variable {ctx : AttachContext} {tableId : TableId} {place : QualName} {fields : Schema}
  {s s' : Session}

theorem adds (h : Attached ctx tableId place fields s s') :
    Adds (attachCommands ctx tableId place fields) s.catalog s'.catalog := by
  obtain ⟨s₁, hexecutes, hcatalog, -⟩ := h.executes
  rw [hcatalog]
  exact (Session.executeAll_ok hexecutes (attachCommands_drops ctx tableId place fields)).1

theorem statements (h : Attached ctx tableId place fields s s') :
    s'.statements = s.statements ++ attachCommands ctx tableId place fields := by
  obtain ⟨s₁, hexecutes, -, hstatements⟩ := h.executes
  rw [hstatements]
  exact (Session.executeAll_ok hexecutes (attachCommands_drops ctx tableId place fields)).2.1

/-- At the place is the table, or a composite type that has taken its name. -/
theorem made_kind (h : Attached ctx tableId place fields s s') (hfits : place.Fits)
    (hnone : s.catalog.relations[place]? = none) :
    ∃ rel, s'.catalog.relations[place]? = some rel ∧ (rel.kind = .compositeType ∨
      rel.kind = .foreignTable ctx.serverName ((attachOptions ctx tableId).map fun option =>
        (truncateIdentifier option.1, some option.2)) ∧
      (buildSchemaMapping place.name fields).columnTypes.mapM (readColumn place.schema) =
        some rel.columns) := by
  obtain ⟨rel, hrel⟩ := h.there
  rw [hfits] at hrel
  refine ⟨rel, hrel, ?_⟩
  rcases h.adds.made hrel with hold | ⟨-, command, hcommand, hcreates⟩
  · rw [hnone] at hold
    cases hold
  · rw [attachCommands, createCommands, List.mem_cons, List.mem_append, List.mem_singleton]
      at hcommand
    rcases hcommand with rfl | hcommand | rfl
    · cases hcreates
    · obtain ⟨ty, -, rfl⟩ := List.mem_map.mp hcommand
      exact .inl hcreates.2.1
    · exact .inr hcreates.2

end Attached

section

variable {ctx : AttachContext} {tableId : TableId} {place : QualName} {s s' : Session}
  {result : Except String NamespaceRow}

inductive AttachOne (ctx : AttachContext) (tableId : TableId) (place : QualName) (s : Session) :
    Except String NamespaceRow → Session → Prop
  | existing {rel} : s.catalog.relations[place]? = some rel →
    AttachOne ctx tableId place s (existingResult ctx tableId place rel) s
  | dryRun : s.catalog.relations[place]? = none → ctx.dryRun = true →
    AttachOne ctx tableId place s (.ok ⟨tableId, place, .createTable, .skipped, "dry_run"⟩) s
  | failed {e} : s.catalog.relations[place]? = none → ctx.dryRun = false →
    ctx.env.remote.load .attach tableId = .error e → AttachOne ctx tableId place s (.error e) s
  | attached {fields s'} : s.catalog.relations[place]? = none → ctx.dryRun = false →
    ctx.env.remote.load .attach tableId = .ok fields → Attached ctx tableId place fields s s' →
    AttachOne ctx tableId place s (.ok ⟨tableId, place, .createTable, .ok, "attached"⟩) s'

theorem attachOne_existing {rel : Relation} (h : s.catalog.relations[place]? = some rel) :
    attachOne ctx tableId place s = .ok (existingResult ctx tableId place rel, s) := by
  have hlookup : lookupExistingRelation ctx.env s.catalog place =
      (existingRelation ctx.env rel).map some := by rw [lookupExistingRelation, h]
  rw [attachOne, hlookup, existingResult]
  cases existingRelation ctx.env rel <;> rfl

theorem lookupExistingRelation_free (h : s.catalog.relations[place]? = none) :
    lookupExistingRelation ctx.env s.catalog place = .ok none := by
  rw [lookupExistingRelation, h]

theorem existingResult_ok {rel : Relation} {row : NamespaceRow}
    (h : existingResult ctx tableId place rel = .ok row) :
    row = ⟨tableId, place, .skipExisting, .skipped, "already attached"⟩ := by
  obtain ⟨found, -, h⟩ := Fallible.bind_ok_iff.mp h
  cases found with
  | foreignTable server nsTableId =>
    simp only [existingRow] at h
    split at h
    · cases h
    · split at h <;> cases h
      rfl
  | other relkind => cases h

theorem existingResult_key {rel : Relation} {row : NamespaceRow}
    (h : existingResult ctx tableId place rel = .ok row) :
    row.key = (tableId, place, .skipExisting) := by
  rw [existingResult_ok h]
  rfl

theorem existingResult_composite {rel : Relation} (h : rel.kind = .compositeType) :
    ∃ e, existingResult ctx tableId place rel = .error e := by
  rw [existingResult, existingRelation, h]
  exact ⟨_, rfl⟩

theorem attachOne_cases (h : attachOne ctx tableId place s = .ok (result, s')) :
    AttachOne ctx tableId place s result s' := by
  have hattach := h
  cases hrel : s.catalog.relations[place]? with
  | some rel =>
    rw [attachOne_existing hrel] at h
    cases h
    exact .existing hrel
  | none =>
    rw [attachOne, lookupExistingRelation_free hrel] at h
    simp only at h
    split at h
    · rename_i hdry
      cases h
      exact .dryRun hrel hdry
    · rename_i hdry
      rw [Bool.not_eq_true] at hdry
      split at h
      · rename_i e hload
        cases h
        exact .failed hrel hdry hload
      · rename_i fields hload
        obtain ⟨s₁, h₁, h⟩ := Fallible.bind_ok_iff.mp h
        obtain ⟨s₂, h₂, h⟩ := Fallible.bind_ok_iff.mp h
        cases h
        obtain ⟨⟨s₃, hexecutes, hresult⟩, hthere⟩ := Session.createTable_ok h₂
        have hall := Session.executeAll_append_ok (Session.executeAll_singleton h₁) hexecutes
        exact .attached hrel hdry hload ⟨hattach, ⟨s₃, hall, hresult⟩, hthere⟩

end

inductive SyncEntry (ctx : SyncContext) (localById : LocalById) (tableId : TableId)
    (place : QualName) (s : Session) : Except String (NamespaceRow × Session) → Prop
  | create {result s'} : localById[tableId]? = none →
    AttachOne ⟨ctx.env, ctx.serverName, none, ctx.dryRun⟩ tableId place s result s' →
    SyncEntry ctx localById tableId place s (.ok (createRow tableId place result, s'))
  | misplaced {t} : localById[tableId]? = some t → t.place ≠ place →
    SyncEntry ctx localById tableId place s
      (.ok (⟨tableId, place, .drift, .ok, misplacedDetail t.place place⟩, s))
  | failed {t e} : localById[tableId]? = some t → t.place = place →
    ctx.env.remote.load .driftCheck tableId = .error e →
    SyncEntry ctx localById tableId place s (.error e)
  | inSync {t fields} : localById[tableId]? = some t → t.place = place →
    ctx.env.remote.load .driftCheck tableId = .ok fields →
    schemaDrift ctx.env.pg place fields s.catalog.relations[place]? = none →
    SyncEntry ctx localById tableId place s (.ok (⟨tableId, place, .inSync, .ok, "up to date"⟩, s))
  | drifted {t fields detail} : localById[tableId]? = some t → t.place = place →
    ctx.env.remote.load .driftCheck tableId = .ok fields →
    schemaDrift ctx.env.pg place fields s.catalog.relations[place]? = some detail →
    ctx.recreateChanged = false →
    SyncEntry ctx localById tableId place s (.ok (⟨tableId, place, .drift, .ok, detail⟩, s))
  | dryRun {t fields detail} : localById[tableId]? = some t → t.place = place →
    ctx.env.remote.load .driftCheck tableId = .ok fields →
    schemaDrift ctx.env.pg place fields s.catalog.relations[place]? = some detail →
    ctx.recreateChanged = true → ctx.dryRun = true →
    SyncEntry ctx localById tableId place s
      (.ok (⟨tableId, place, .recreateTable, .skipped, "dry_run: " ++ detail⟩, s))
  | recreated {t fields detail s₁ result s'} : localById[tableId]? = some t → t.place = place →
    ctx.env.remote.load .driftCheck tableId = .ok fields →
    schemaDrift ctx.env.pg place fields s.catalog.relations[place]? = some detail →
    ctx.recreateChanged = true → ctx.dryRun = false →
    s.execute ctx.env.pg (.dropForeignTable place.schema place.name) = .ok s₁ →
    AttachOne ⟨ctx.env, ctx.serverName, t.batchSize, false⟩ tableId place s₁ result s' →
    SyncEntry ctx localById tableId place s (.ok (recreateRow tableId place detail result, s'))

section

variable {ctx : SyncContext} {localById : LocalById} {tableId : TableId} {place : QualName}
  {s s' : Session}

theorem syncEntry_cases {result : Except String (NamespaceRow × Session)}
    (h : syncEntry ctx localById tableId place s = .ok result) :
    SyncEntry ctx localById tableId place s result := by
  rw [syncEntry] at h
  cases hlocal : localById[tableId]? with
  | none =>
    rw [hlocal] at h
    obtain ⟨⟨attached, s'⟩, hattach, rfl⟩ := Fallible.map_ok_iff.mp h
    exact .create hlocal (attachOne_cases hattach)
  | some t =>
    rw [hlocal] at h
    simp only at h
    split at h
    · rename_i hplace
      cases h
      exact .misplaced hlocal hplace
    · rename_i hplace
      rw [ne_eq, not_not] at hplace
      rw [detectSchemaDrift] at h
      cases hload : ctx.env.remote.load .driftCheck tableId with
      | error e =>
        rw [hload] at h
        cases h
        exact .failed hlocal hplace hload
      | ok fields =>
        rw [hload] at h
        simp only [Except.map] at h
        cases hdrift : schemaDrift ctx.env.pg place fields s.catalog.relations[place]? with
        | none =>
          rw [hdrift] at h
          cases h
          exact .inSync hlocal hplace hload hdrift
        | some detail =>
          rw [hdrift] at h
          simp only at h
          split at h
          · rename_i hrecreate
            cases h
            exact .drifted hlocal hplace hload hdrift (by simpa using hrecreate)
          · rename_i hrecreate
            have hrecreate : ctx.recreateChanged = true := by simpa using hrecreate
            split at h
            · rename_i hdry
              cases h
              exact .dryRun hlocal hplace hload hdrift hrecreate hdry
            · rename_i hdry
              have hdry : ctx.dryRun = false := by simpa using hdry
              obtain ⟨⟨row, s'⟩, hrun, rfl⟩ := Fallible.map_ok_iff.mp h
              obtain ⟨s₁, hdrop, hrun⟩ := Fallible.bind_ok_iff.mp hrun
              obtain ⟨⟨result, s₂⟩, hattach, hrun⟩ := Fallible.bind_ok_iff.mp hrun
              cases hrun
              exact .recreated hlocal hplace hload hdrift hrecreate hdry hdrop
                (attachOne_cases hattach)

theorem syncEntries_cons {entries : List (TableId × QualName)} {rows : List NamespaceRow}
    (h : syncEntries ctx localById ((tableId, place) :: entries) s = .ok (.ok (rows, s'))) :
    ∃ row s₁ rows', syncEntry ctx localById tableId place s = .ok (.ok (row, s₁)) ∧
      syncEntries ctx localById entries s₁ = .ok (.ok (rows', s')) ∧ rows = row :: rows' := by
  obtain ⟨result, hentry, h⟩ := Fallible.bind_ok_iff.mp h
  cases result with
  | error e => cases h
  | ok p =>
    obtain ⟨row, s₁⟩ := p
    obtain ⟨result, hrest, h⟩ := Fallible.bind_ok_iff.mp h
    cases result with
    | error e => cases h
    | ok p =>
      obtain ⟨rows', s₂⟩ := p
      cases h
      exact ⟨row, s₁, rows', hentry, hrest, rfl⟩

theorem syncEntries_cons_ok {entries : List (TableId × QualName)} {rows : List NamespaceRow}
    (h : syncEntries ctx localById ((tableId, place) :: entries) s = .ok (.ok (rows, s'))) :
    ∃ row s₁ rows', SyncEntry ctx localById tableId place s (.ok (row, s₁)) ∧
      syncEntries ctx localById entries s₁ = .ok (.ok (rows', s')) ∧ rows = row :: rows' := by
  obtain ⟨row, s₁, rows', hentry, hrest, hrows⟩ := syncEntries_cons h
  exact ⟨row, s₁, rows', syncEntry_cases hentry, hrest, hrows⟩

theorem syncEntries_cons_error {entries : List (TableId × QualName)} {e : String}
    (h : syncEntries ctx localById ((tableId, place) :: entries) s = .ok (.error e)) :
    SyncEntry ctx localById tableId place s (.error e) ∨
      ∃ row s₁, SyncEntry ctx localById tableId place s (.ok (row, s₁)) ∧
        syncEntries ctx localById entries s₁ = .ok (.error e) := by
  obtain ⟨result, hentry, h⟩ := Fallible.bind_ok_iff.mp h
  cases result with
  | error e' =>
    cases h
    exact .inl (syncEntry_cases hentry)
  | ok p =>
    obtain ⟨row, s₁⟩ := p
    obtain ⟨result, hrest, h⟩ := Fallible.bind_ok_iff.mp h
    cases result with
    | error e' =>
      cases h
      exact .inr ⟨row, s₁, syncEntry_cases hentry, hrest⟩
    | ok p => cases h

end

/-- What the steps for a set of places leave of the catalogue: relations of other places, and new
ones there only as composite types. -/
structure Touches (places : List QualName) (σ σ' : LocalCatalog) : Prop where
  servers : σ'.servers = σ.servers
  types : σ'.types = σ.types
  keeps : ∀ name rel, name ∉ places → σ.relations[name]? = some rel →
    σ'.relations[name]? = some rel
  made : ∀ name rel, name ∉ places → σ'.relations[name]? = some rel →
    σ.relations[name]? = some rel ∨ rel.kind = .compositeType

namespace Touches

variable {places more : List QualName} {σ σ₁ σ₂ : LocalCatalog}

theorem refl (places : List QualName) (σ : LocalCatalog) : Touches places σ σ :=
  ⟨rfl, rfl, fun _ _ _ h => h, fun _ _ _ h => .inl h⟩

theorem trans (h₁ : Touches places σ σ₁) (h₂ : Touches more σ₁ σ₂) :
    Touches (places ++ more) σ σ₂ where
  servers := h₂.servers.trans h₁.servers
  types := h₂.types.trans h₁.types
  keeps name rel hname hrel := by
    rw [List.mem_append, not_or] at hname
    exact h₂.keeps name rel hname.2 (h₁.keeps name rel hname.1 hrel)
  made name rel hname hrel := by
    rw [List.mem_append, not_or] at hname
    cases h₂.made name rel hname.2 hrel with
    | inl hrel => exact h₁.made name rel hname.1 hrel
    | inr hkind => exact .inr hkind

end Touches

theorem Adds.touches {server schema table : String} {options : List (String × String)}
    {fields : Schema} {σ σ' : LocalCatalog} {pre : List Command}
    (hpre : ∀ command ∈ pre, ∀ name rel, ¬ command.Creates name rel)
    (h : Adds (pre ++ createCommands server schema table options fields) σ σ') :
    Touches [QualName.stored schema table] σ σ' where
  servers := h.servers
  types := h.types
  keeps name rel _ hrel := h.keeps hrel
  made name rel hname hrel := by
    rw [List.mem_singleton] at hname
    rcases h.made hrel with hold | ⟨-, command, hmem, hcreates⟩
    · exact .inl hold
    · refine .inr ?_
      rw [createCommands, List.mem_append, List.mem_append] at hmem
      rcases hmem with hmem | hmem | hmem
      · exact absurd hcreates (hpre command hmem name rel)
      · obtain ⟨ty, -, rfl⟩ := List.mem_map.mp hmem
        exact hcreates.2.1
      · rw [List.mem_singleton.mp hmem] at hcreates
        exact absurd hcreates.1 hname

theorem AttachOne.touches {ctx : AttachContext} {tableId : TableId} {place : QualName}
    {s s' : Session} {result : Except String NamespaceRow} (hfits : place.Fits)
    (h : AttachOne ctx tableId place s result s') : Touches [place] s.catalog s'.catalog := by
  cases h with
  | existing | dryRun | failed => exact .refl _ _
  | attached _ _ _ hattached =>
    have hschema : ∀ command ∈ [Command.createSchema place.schema], ∀ name rel,
        ¬ command.Creates name rel := by simp [Command.Creates]
    have htouches := Adds.touches hschema hattached.adds
    rwa [hfits] at htouches

theorem drop_touches {pg : Postgres} {place : QualName} {s s' : Session} (hfits : place.Fits)
    (h : s.execute pg (.dropForeignTable place.schema place.name) = .ok s') :
    s'.catalog = s.catalog.erase place ∧
      ∃ rel server options, s.catalog.relations[place]? = some rel ∧
        rel.kind = .foreignTable server options := by
  obtain ⟨hexec, -, -⟩ := Session.execute_ok h
  have hdrop := Postgres.execDropForeignTable_ok (Postgres.exec_ok hexec).2
  rw [hfits] at hdrop
  exact ⟨hdrop.2, hdrop.1⟩

theorem Touches.erase (σ : LocalCatalog) (place : QualName) :
    Touches [place] σ (σ.erase place) where
  servers := rfl
  types := rfl
  keeps name rel hname hrel := by
    rw [LocalCatalog.erase, Std.TreeMap.getElem?_erase, if_neg, hrel]
    intro heq
    exact hname (List.mem_singleton.mpr (Std.LawfulEqOrd.eq_of_compare heq).symm)
  made name rel _ hrel := by
    rw [LocalCatalog.erase, Std.TreeMap.getElem?_erase] at hrel
    split at hrel
    · cases hrel
    · exact .inl hrel

theorem SyncEntry.touches {ctx : SyncContext} {localById : LocalById} {tableId : TableId}
    {place : QualName} {s s' : Session} {row : NamespaceRow} (hfits : place.Fits)
    (h : SyncEntry ctx localById tableId place s (.ok (row, s'))) :
    Touches [place] s.catalog s'.catalog := by
  cases h with
  | create _ hattach => exact hattach.touches hfits
  | misplaced | inSync | drifted | dryRun => exact .refl _ _
  | recreated _ _ _ _ _ _ hdrop hattach =>
    have herase := Touches.erase s.catalog place
    rw [← (drop_touches hfits hdrop).1] at herase
    have hboth := herase.trans (hattach.touches hfits)
    exact ⟨hboth.servers, hboth.types, fun name rel hname => hboth.keeps name rel (by simpa using hname),
      fun name rel hname => hboth.made name rel (by simpa using hname)⟩

theorem syncEntries_touches {ctx : SyncContext} {localById : LocalById}
    {entries : List (TableId × QualName)} {s s' : Session} {rows : List NamespaceRow}
    (hfits : ∀ entry ∈ entries, entry.2.Fits)
    (h : syncEntries ctx localById entries s = .ok (.ok (rows, s'))) :
    Touches (entries.map Prod.snd) s.catalog s'.catalog := by
  induction entries generalizing s rows with
  | nil =>
    cases h
    exact .refl _ _
  | cons entry entries ih =>
    obtain ⟨tableId, place⟩ := entry
    rw [List.forall_mem_cons] at hfits
    obtain ⟨row, s₁, rows', hentry, hrest, rfl⟩ := syncEntries_cons_ok h
    exact (hentry.touches hfits.1).trans (ih hfits.2 hrest)

/-- What is at a place that a run does not deal with stays, and what is new there is a composite
type. -/
structure Pending (place : QualName) (σ σ' : LocalCatalog) : Prop where
  keeps : ∀ rel, σ.relations[place]? = some rel → σ'.relations[place]? = some rel
  made : ∀ rel, σ.relations[place]? = none → σ'.relations[place]? = some rel →
    rel.kind = .compositeType

theorem Pending.refl (place : QualName) (σ : LocalCatalog) : Pending place σ σ where
  keeps _ hrel := hrel
  made rel hnone hrel := by
    rw [hnone] at hrel
    cases hrel

theorem Pending.of_touches {place : QualName} {places : List QualName} {σ σ₁ σ₂ : LocalCatalog}
    (h : Pending place σ σ₁) (htouches : Touches places σ₁ σ₂) (hplace : place ∉ places) :
    Pending place σ σ₂ where
  keeps rel hrel := htouches.keeps place rel hplace (h.keeps rel hrel)
  made rel hnone hrel := by
    cases htouches.made place rel hplace hrel with
    | inl hrel => exact h.made rel hnone hrel
    | inr hkind => exact hkind

theorem Pending.trans {place : QualName} {σ σ₁ σ₂ : LocalCatalog} (h₁ : Pending place σ σ₁)
    (h₂ : Pending place σ₁ σ₂) : Pending place σ σ₂ where
  keeps rel hrel := h₂.keeps rel (h₁.keeps rel hrel)
  made rel hnone hrel := by
    cases hmiddle : σ₁.relations[place]? with
    | none => exact h₂.made rel hmiddle hrel
    | some rel' =>
      rw [h₂.keeps rel' hmiddle] at hrel
      cases hrel
      exact h₁.made _ hnone hmiddle

def Visit (ctx : SyncContext) (localById : LocalById) (s s' : Session) (entry : TableId × QualName)
    (row : NamespaceRow) : Prop :=
  ∃ s₁ s₂, Pending entry.2 s.catalog s₁.catalog ∧
    SyncEntry ctx localById entry.1 entry.2 s₁ (.ok (row, s₂)) ∧
    Pending entry.2 s₂.catalog s'.catalog

section

variable {ctx : SyncContext} {localById : LocalById} {entries : List (TableId × QualName)}
  {s s' : Session} {rows : List NamespaceRow}

/-- A run visits each entry, and its rows are those of the visits. -/
theorem syncEntries_visits (hfits : ∀ entry ∈ entries, entry.2.Fits)
    (hplaces : (entries.map Prod.snd).Nodup)
    (h : syncEntries ctx localById entries s = .ok (.ok (rows, s'))) :
    (∀ entry ∈ entries, ∃ row ∈ rows, Visit ctx localById s s' entry row) ∧
      ∀ row ∈ rows, ∃ entry ∈ entries, Visit ctx localById s s' entry row := by
  induction entries generalizing s rows with
  | nil =>
    cases h
    simp
  | cons entry entries ih =>
    obtain ⟨tableId, place⟩ := entry
    rw [List.forall_mem_cons] at hfits
    rw [List.map_cons, List.nodup_cons] at hplaces
    obtain ⟨row, s₁, rows', hentry, hrest, rfl⟩ := syncEntries_cons_ok h
    have hfirst : Visit ctx localById s s' (tableId, place) row :=
      ⟨s, s₁, .refl _ _, hentry,
        (Pending.refl _ _).of_touches (syncEntries_touches hfits.2 hrest) hplaces.1⟩
    have hlater : ∀ other ∈ entries, ∀ row, Visit ctx localById s₁ s' other row →
        Visit ctx localById s s' other row := by
      rintro other hother row ⟨s₂, s₃, hbefore, hentry', hafter⟩
      refine ⟨s₂, s₃, .trans ?_ hbefore, hentry', hafter⟩
      apply (Pending.refl _ _).of_touches (hentry.touches hfits.1)
      intro hmem
      exact hplaces.1 (List.mem_singleton.mp hmem ▸ List.mem_map_of_mem hother)
    obtain ⟨hentries, hrows⟩ := ih hfits.2 hplaces.2 hrest
    constructor
    · intro other hother
      cases List.mem_cons.mp hother with
      | inl heq => exact ⟨row, List.mem_cons_self, heq ▸ hfirst⟩
      | inr hother =>
        obtain ⟨row', hrow', hvisit⟩ := hentries other hother
        exact ⟨row', List.mem_cons_of_mem _ hrow', hlater other hother row' hvisit⟩
    · intro row' hrow'
      cases List.mem_cons.mp hrow' with
      | inl heq => exact ⟨(tableId, place), List.mem_cons_self, heq ▸ hfirst⟩
      | inr hrow' =>
        obtain ⟨other, hother, hvisit⟩ := hrows row' hrow'
        exact ⟨other, List.mem_cons_of_mem _ hother, hlater other hother row' hvisit⟩

end

def dropRow (ctx : SyncContext) (tableId : TableId) (place : QualName) : NamespaceRow :=
  if !ctx.dropMissing then
    ⟨tableId, place, .drift, .ok, "local foreign table not found in remote namespace listing"⟩
  else if ctx.dryRun then ⟨tableId, place, .dropTable, .skipped, "dry_run"⟩
  else ⟨tableId, place, .dropTable, .ok, "dropped"⟩

theorem dropRow_key (ctx : SyncContext) (tableId : TableId) (place : QualName) :
    (dropRow ctx tableId place).key =
      (tableId, place, if ctx.dropMissing then .dropTable else .drift) := by
  rw [dropRow]
  cases ctx.dropMissing <;> cases ctx.dryRun <;> rfl

structure Dropped (ctx : SyncContext) (entries : List (TableId × LocalNamespaceTable))
    (s : Session) (rows : List NamespaceRow) (s' : Session) : Prop where
  rows : rows = entries.map fun entry => dropRow ctx entry.1 entry.2.place
  servers : s'.catalog.servers = s.catalog.servers
  kept : (ctx.dropMissing && !ctx.dryRun) = false → s' = s
  statements : (ctx.dropMissing && !ctx.dryRun) = true → s'.statements = s.statements ++
    entries.map fun entry => .dropForeignTable entry.2.place.schema entry.2.place.name
  relations : (ctx.dropMissing && !ctx.dryRun) = true → (∀ entry ∈ entries, entry.2.place.Fits) →
    ∀ name, s'.catalog.relations[name]? =
      if name ∈ entries.map (fun entry => entry.2.place) then none
      else s.catalog.relations[name]?

section

variable {ctx : SyncContext} {tableId : TableId} {place : QualName} {s s' : Session}
  {row : NamespaceRow}

theorem dropEntry_ok (h : dropEntry ctx tableId place s = .ok (row, s')) :
    row = dropRow ctx tableId place ∧
      if ctx.dropMissing && !ctx.dryRun then
        s.execute ctx.env.pg (.dropForeignTable place.schema place.name) = .ok s'
      else s' = s := by
  rw [dropEntry] at h
  rw [dropRow]
  cases hmissing : ctx.dropMissing <;> cases hdry : ctx.dryRun <;>
    simp only [hmissing, hdry, Bool.not_true, Bool.not_false, Bool.false_eq_true, if_true, if_false,
      Bool.and_true, Bool.and_false] at h ⊢
  · cases h
    exact ⟨rfl, rfl⟩
  · cases h
    exact ⟨rfl, rfl⟩
  · obtain ⟨s₁, hexecute, hp⟩ := Fallible.map_ok_iff.mp h
    cases hp
    exact ⟨rfl, hexecute⟩
  · cases h
    exact ⟨rfl, rfl⟩

theorem dropEntries_ok {entries : List (TableId × LocalNamespaceTable)} {rows : List NamespaceRow}
    (h : dropEntries ctx entries s = .ok (rows, s')) : Dropped ctx entries s rows s' := by
  induction entries generalizing s rows with
  | nil =>
    cases h
    exact ⟨rfl, rfl, fun _ => rfl, fun _ => by simp, fun _ _ name => by simp⟩
  | cons entry entries ih =>
    obtain ⟨tableId, t⟩ := entry
    obtain ⟨⟨row, s₁⟩, hentry, h⟩ := Fallible.bind_ok_iff.mp h
    obtain ⟨⟨rows', s₂⟩, hrest, h⟩ := Fallible.bind_ok_iff.mp h
    cases h
    obtain ⟨rfl, heffect⟩ := dropEntry_ok hentry
    have hlater := ih hrest
    refine ⟨by rw [hlater.rows]; rfl, ?_, ?_, ?_, ?_⟩
    · rw [hlater.servers]
      split at heffect
      · exact (Postgres.exec_changes (Session.execute_ok heffect).1).servers
      · rw [heffect]
    · intro hreal
      rw [if_neg (by simp [hreal])] at heffect
      exact (hlater.kept hreal).trans heffect
    · intro hreal
      rw [if_pos hreal] at heffect
      rw [hlater.statements hreal, (Session.execute_ok heffect).2.1, List.append_assoc]
      rfl
    · intro hreal hfits name
      rw [if_pos hreal] at heffect
      rw [List.forall_mem_cons] at hfits
      rw [hlater.relations hreal hfits.2, (drop_touches hfits.1 heffect).1, LocalCatalog.erase,
        Std.TreeMap.getElem?_erase]
      by_cases heq : t.place = name
      · simp [heq]
      · have hne : name ≠ t.place := fun h => heq h.symm
        simp only [List.map_cons, List.mem_cons, hne, false_or,
          Std.LawfulEqOrd.compare_eq_iff_eq, heq, if_false]

end

end PgLance
