import PgLance.Fdw.SyncLaws

/-! Which tables a sync drops because the listing does not have them. -/

namespace PgLance

section

variable {ctx : SyncContext} {root : TableId} {schemaPrefix : String} {s s' : Session}
  {rows : List NamespaceRow}

theorem recreateRow_action (tableId : TableId) (place : QualName) (detail : String)
    (result : Except String NamespaceRow) :
    (recreateRow tableId place detail result).action = .recreateTable := by
  cases result <;> rfl

theorem SyncEntry.action_ne {localById : LocalById} {tableId : TableId} {place : QualName}
    {row : NamespaceRow} (h : SyncEntry ctx localById tableId place s (.ok (row, s'))) :
    row.action ≠ .dropTable := by
  cases h with
  | create hnone hattach =>
    cases hattach with
    | @existing rel =>
      cases hrow : existingResult ⟨ctx.env, ctx.serverName, none, ctx.dryRun⟩ tableId place rel with
      | error e => simp [createRow]
      | ok row =>
        have hkey := existingResult_key hrow
        simp only [NamespaceRow.key, Prod.mk.injEq] at hkey
        simp [createRow, hkey.2.2]
    | dryRun | failed | attached => simp [createRow]
  | misplaced | inSync | drifted | dryRun => simp
  | recreated =>
    rw [recreateRow_action]
    simp

theorem SyncRun.mem_dropRows (run : SyncRun ctx root schemaPrefix s rows s') {row : NamespaceRow}
    (hrow : row ∈ rows) (haction : row.action = .dropTable) : row ∈ run.dropRows := by
  rw [run.rows_eq] at hrow
  simp only [List.mem_append] at hrow
  rcases hrow with ((hrow | hrow) | hrow) | hrow
  · obtain ⟨id, -, rfl⟩ := List.mem_map.mp hrow
    cases haction
  · rw [introspect_actions _ _ _ _ row hrow] at haction
    cases haction
  · obtain ⟨entry, -, s₁, s₂, -, hentry, -⟩ := run.visits.2 row hrow
    exact absurd haction hentry.action_ne
  · exact hrow

theorem dropRow_dropped {tableId : TableId} {place : QualName}
    (haction : (dropRow ctx tableId place).action = .dropTable)
    (hstatus : (dropRow ctx tableId place).status = .ok) :
    ctx.dropMissing = true ∧ ctx.dryRun = false := by
  rw [dropRow] at haction hstatus
  cases hmissing : ctx.dropMissing <;> cases hdry : ctx.dryRun <;>
    simp [hmissing, hdry] at haction hstatus ⊢

theorem Carries.prefix {env : NamespaceEnv} {serverName : String} {σ : LocalCatalog} {id : TableId}
    {t : LocalNamespaceTable} (h : Carries env serverName root σ id t) : root <+: id := by
  obtain ⟨json, -, hid⟩ := h
  exact List.isPrefixOf_iff_prefix.mp (carriedId_eq_some.mp hid).2

end

def Missing (env : NamespaceEnv) (serverName : String) (σ : LocalCatalog) (id : TableId)
    (place : QualName) : Prop :=
  (∃ rel options json, σ.relations[place]? = some rel ∧
      rel.kind = .foreignTable serverName options ∧ options.lookup optNsTableId = some json ∧
      parseTableId env json = .ok id) ∧
    ¬ env.remote.Present id

/-- A sync that returns has dropped only tables that are missing from the whole remote namespace
exactly if it was not asked to drop any, or its root is not the id of a remote table that a local
table has. -/
theorem syncNamespace_drops_missing_iff {ctx : SyncContext} {root : TableId} {schemaPrefix : String}
    {s s' : Session} {rows : List NamespaceRow} (hlawful : ctx.env.remote.Lawful)
    (h : syncNamespace ctx root schemaPrefix s = .ok (.ok (rows, s'))) :
    (∀ row ∈ rows, row.action = .dropTable → row.status = .ok →
      Missing ctx.env ctx.serverName s.catalog row.tableId row.place) ↔
    (ctx.dropMissing = true → ctx.dryRun = false → ctx.env.remote.Present root →
      ∀ t, ¬ Carries ctx.env ctx.serverName root s.catalog root t) := by
  obtain ⟨run⟩ := syncNamespace_ok h
  constructor
  · intro hdrops hmissing hdry hpresent t hcarries
    have hunlisted : root ∉ run.tableIds := fun hmem =>
      absurd (length_lt_of_mem_listTableIds run.listed hmem) (lt_irrefl _)
    cases hlocal : (introspectLocalNamespaceTables ctx.env ctx.serverName root s.catalog).1[root]? with
    | none => exact localById_eq_none.mp hlocal t hcarries
    | some t' =>
      have hrow : dropRow ctx root t'.place ∈ rows := by
        rw [run.rows_eq, run.drops.rows]
        exact List.mem_append_right _
          (List.mem_map.mpr ⟨(root, t'), run.mem_localOnly.mpr ⟨hlocal, hunlisted⟩, rfl⟩)
      have hdropped : dropRow ctx root t'.place = ⟨root, t'.place, .dropTable, .ok, "dropped"⟩ := by
        simp [dropRow, hmissing, hdry]
      rw [hdropped] at hrow
      exact (hdrops _ hrow rfl rfl).2 hpresent
  · intro hroot row hrow haction hstatus
    have hdropRow := run.mem_dropRows hrow haction
    rw [run.drops.rows] at hdropRow
    obtain ⟨⟨id, t⟩, hentry, rfl⟩ := List.mem_map.mp hdropRow
    obtain ⟨hmissing, hdry⟩ := dropRow_dropped haction hstatus
    obtain ⟨hlocal, hunlisted⟩ := run.mem_localOnly.mp hentry
    have hcarries := (localById_eq_some.mp hlocal).1
    have hkey := dropRow_key ctx id t.place
    simp only [NamespaceRow.key, Prod.mk.injEq] at hkey
    simp only [hkey.1, hkey.2.1]
    constructor
    · obtain ⟨json, htable, hid⟩ := hcarries
      obtain ⟨rel, options, hrel, hkind, hjson, -⟩ := mem_namespaceTables.mp htable
      exact ⟨rel, options, json, hrel, hkind, hjson, (carriedId_eq_some.mp hid).1⟩
    · intro hpresent
      by_cases heq : id = root
      · subst heq
        exact hroot hmissing hdry hpresent t hcarries
      · exact hunlisted (mem_listTableIds_of_present hlawful run.listed hpresent hcarries.prefix heq)

def twinRemote : Remote :=
  .ofTree (fun ns => if ns = [] then ["a"] else []) (fun ns => if ns = [] then ["a"] else [])
    [["a"]] (by simp) fun _ _ => .ok [⟨"id", .leaf .int32, true⟩]

theorem twinRemote_lawful : twinRemote.Lawful := Remote.ofTree_lawful ..

def twinSync : SyncContext := ⟨.sample twinRemote [["a"]], "srv", true, true, false⟩

def twinSession : Session :=
  ⟨LocalCatalog.sample.insert "lance" "a" (.sample ["a"] "id" .int4), [], []⟩

theorem twinSync_ok : ∃ s', syncNamespace twinSync ["a"] "lance" twinSession =
    .ok (.ok ([⟨["a"], ⟨"lance", "a"⟩, .dropTable, .ok, "dropped"⟩], s')) := by
  have hrun : (Fallible.returned (syncNamespace twinSync ["a"] "lance" twinSession)).any
      (fun p => p.1 = [⟨["a"], ⟨"lance", "a"⟩, .dropTable, .ok, "dropped"⟩]) = true := by
    decide
  obtain ⟨⟨rows, s'⟩, hreturned, hp⟩ := (Option.any_eq_true _ _).mp hrun
  have hrows : rows = _ := of_decide_eq_true hp
  exact ⟨s', by rw [Fallible.returned_eq_some.mp hreturned, hrows]⟩

theorem syncNamespace_drops_missing_iff_sample :
    ∃ rows s', syncNamespace twinSync ["a"] "lance" twinSession = .ok (.ok (rows, s')) ∧
      ((∀ row ∈ rows, row.action = .dropTable → row.status = .ok →
        Missing twinSync.env twinSync.serverName twinSession.catalog row.tableId row.place) ↔
      (twinSync.dropMissing = true → twinSync.dryRun = false → twinSync.env.remote.Present ["a"] →
        ∀ t, ¬ Carries twinSync.env twinSync.serverName ["a"] twinSession.catalog ["a"] t)) := by
  obtain ⟨s', hrun⟩ := twinSync_ok
  exact ⟨_, s', hrun, syncNamespace_drops_missing_iff twinRemote_lawful hrun⟩

theorem syncNamespace_drops_present :
    ∃ rows s', syncNamespace twinSync ["a"] "lance" twinSession = .ok (.ok (rows, s')) ∧
      ¬ ∀ row ∈ rows, row.action = .dropTable → row.status = .ok →
        Missing twinSync.env twinSync.serverName twinSession.catalog row.tableId row.place := by
  obtain ⟨s', hrun⟩ := twinSync_ok
  refine ⟨_, s', hrun, ?_⟩
  intro h
  have hpresent : twinRemote.Present ["a"] := ⟨[], "a", .refl, by decide, rfl⟩
  exact (h _ (List.mem_singleton_self _) rfl rfl).2 hpresent

end PgLance
