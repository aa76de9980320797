import PgLance.Fdw.MappingLaws
import PgLance.Fdw.NamespaceLaws
import PgLance.Fdw.NamingLaws
import PgLance.Fdw.SyncStable

/-! What attaching a namespace reports, and attaching it again. -/

namespace PgLance

theorem Attached.composite_path {ctx : AttachContext} {tableId : TableId} {place : QualName}
    {fields : Schema} {s s' : Session} {rel : Relation}
    (h : Attached ctx tableId place fields s s') (hnone : s.catalog.relations[place]? = none)
    (hrel : s'.catalog.relations[place]? = some rel) (hkind : rel.kind = .compositeType) :
    ∃ path, compositeTypeName place.name path = place.name := by
  rcases h.adds.made hrel with hold | ⟨-, command, hcommand, hcreates⟩
  · rw [hnone] at hold
    cases hold
  · rw [attachCommands, createCommands, List.mem_cons, List.mem_append, List.mem_singleton]
      at hcommand
    rcases hcommand with rfl | hcommand | rfl
    · cases hcreates
    · obtain ⟨ty, hty, rfl⟩ := List.mem_map.mp hcommand
      have hmem := (orderCompositeTypes_perm place.name fields).mem_iff.mp hty
      obtain ⟨path, hpath⟩ := compositeTypes_path hmem
      have hname := hcreates.1
      rw [hpath, stored_compositeTypeName] at hname
      exact ⟨path, (congrArg QualName.name hname).symm⟩
    · rw [hcreates.2.1] at hkind
      cases hkind

section

variable {ctx : AttachContext} {tableId : TableId} {place : QualName}
  {entries : List (TableId × QualName)} {s s' : Session} {rows : List NamespaceRow}

theorem attachEntries_cons
    (h : attachEntries ctx ((tableId, place) :: entries) s = .ok (rows, s')) :
    ∃ result s₁ rows', attachOne ctx tableId place s = .ok (result, s₁) ∧
      attachEntries ctx entries s₁ = .ok (rows', s') ∧
      rows = attachRow tableId place result :: rows' := by
  obtain ⟨⟨result, s₁⟩, hattach, h⟩ := Fallible.bind_ok_iff.mp h
  obtain ⟨⟨rows', s₂⟩, hrest, h⟩ := Fallible.bind_ok_iff.mp h
  cases h
  exact ⟨result, s₁, rows', hattach, hrest, rfl⟩

theorem AttachOne.row_key {result : Except String NamespaceRow}
    (h : AttachOne ctx tableId place s result s') :
    ((attachRow tableId place result).tableId, (attachRow tableId place result).place) =
      (tableId, place) := by
  cases h with
  | @existing rel =>
    cases hrow : existingResult ctx tableId place rel with
    | error e => rfl
    | ok row =>
      have hkey := existingResult_key hrow
      simp only [NamespaceRow.key, Prod.mk.injEq] at hkey
      rw [attachRow, hkey.1, hkey.2.1]
  | _ => rfl

theorem attachEntries_rows (h : attachEntries ctx entries s = .ok (rows, s')) :
    rows.map (fun row => (row.tableId, row.place)) = entries := by
  induction entries generalizing s rows with
  | nil =>
    cases h
    rfl
  | cons entry entries ih =>
    obtain ⟨tableId, place⟩ := entry
    obtain ⟨result, s₁, rows', hattach, hrest, rfl⟩ := attachEntries_cons h
    rw [List.map_cons, ih hrest, (attachOne_cases hattach).row_key]

theorem attachEntries_touches (hfits : ∀ entry ∈ entries, entry.2.Fits)
    (h : attachEntries ctx entries s = .ok (rows, s')) :
    Touches (entries.map Prod.snd) s.catalog s'.catalog := by
  induction entries generalizing s rows with
  | nil =>
    cases h
    exact .refl _ _
  | cons entry entries ih =>
    obtain ⟨tableId, place⟩ := entry
    rw [List.forall_mem_cons] at hfits
    obtain ⟨result, s₁, rows', hattach, hrest, rfl⟩ := attachEntries_cons h
    exact ((attachOne_cases hattach).touches hfits.1).trans (ih hfits.2 hrest)

end

theorem attachNamespace_mapped {env : NamespaceEnv} {serverName schemaPrefix : String}
    {root : TableId} {batchSize : Option Int} {limit : Int} {dryRun : Bool} {s s' : Session}
    {rows : List NamespaceRow}
    (h : attachNamespace env serverName root schemaPrefix batchSize limit dryRun s =
      .ok (.ok rows, s')) :
    ∃ tableIds mapping entryRows,
      mapNamespace env serverName root schemaPrefix limit s.catalog = .ok (tableIds, mapping) ∧
      attachEntries ⟨env, serverName, batchSize, dryRun⟩ mapping.entries s = .ok (entryRows, s') ∧
      rows = (mapping.conflicts.map fun tableId =>
        rowError tableId schemaPrefix mappingConflict) ++ entryRows := by
  rw [attachNamespace] at h
  split at h
  · cases h
  · rename_i tableIds mapping hmap
    obtain ⟨⟨entryRows, s₁⟩, hentries, h⟩ := Fallible.bind_ok_iff.mp h
    cases h
    exact ⟨tableIds, mapping, entryRows, hmap, hentries, rfl⟩

/-- The tables are mapped to places of their own or in conflict, as others share their place or
not; an attach reports each once, and none but those in conflict twice at one place. -/
theorem buildMapping_partitions (schemaPrefix : String) {ids : List TableId}
    (hids : ∀ id ∈ ids, id ≠ []) :
    ∃ mapping, buildMapping schemaPrefix ids = .ok mapping ∧
      (mapping.conflicts ++ mapping.entries.map Prod.fst).Perm ids ∧
      (mapping.entries.map Prod.snd).Nodup ∧
      (∀ id place, (id, place) ∈ mapping.entries →
        schemaAndTableForTableId schemaPrefix id = .ok (place.schema, place.name)) ∧
      (∀ i id, ids[i]? = some id →
        (id ∈ mapping.conflicts ↔ Clashes schemaPrefix ids i id) ∧
          (id ∈ mapping.entries.map Prod.fst ↔ ¬ Clashes schemaPrefix ids i id)) ∧
      ∀ env serverName root batchSize limit dryRun s rows s',
        listTableIds env.remote root limit = .ok ids →
        attachNamespace env serverName root schemaPrefix batchSize limit dryRun s =
          .ok (.ok rows, s') →
        (rows.map NamespaceRow.tableId).Perm ids ∧
          ((rows.filter fun row => row.status ≠ .failed).map NamespaceRow.place).Nodup := by
  have htotal : ∃ mapping, buildMapping schemaPrefix ids = .ok mapping := buildMapping_total hids
  obtain ⟨mapping, hmapping⟩ := htotal
  have hcovers := buildMapping_covers hmapping
  refine ⟨mapping, hmapping, hcovers.perm, hcovers.places, ?_, ?_, ?_⟩
  · intro id place hentry
    obtain ⟨⟨schema, table⟩, hplace, rfl⟩ :=
      Fallible.map_ok_iff.mp (hcovers.place id place hentry).1
    exact hplace
  · exact fun i id hid => ⟨mem_conflicts_iff hmapping hid, mem_entries_iff hmapping hid⟩
  · intro env serverName root batchSize limit dryRun s rows s' hlist hattach
    obtain ⟨tableIds, mapping', entryRows, hmap, hentries, rfl⟩ := attachNamespace_mapped hattach
    have hsame : mapping' = mapping := by
      obtain ⟨hids', hmapping₁⟩ := mapNamespace_mapped hmap
      rw [hlist] at hids'
      cases hids'
      rw [hmapping] at hmapping₁
      cases hmapping₁
      rfl
    subst hsame
    have hrows := attachEntries_rows hentries
    have hids : entryRows.map NamespaceRow.tableId = mapping'.entries.map Prod.fst := by
      rw [← hrows, List.map_map]
      rfl
    have hplaces : entryRows.map NamespaceRow.place = mapping'.entries.map Prod.snd := by
      rw [← hrows, List.map_map]
      rfl
    constructor
    · rw [List.map_append, hids, List.map_map]
      refine .trans ?_ hcovers.perm
      simp [rowError, Function.comp_def]
    · have hconflicts : (mapping'.conflicts.map fun tableId =>
          rowError tableId schemaPrefix mappingConflict).filter
            (fun row => row.status ≠ .failed) = [] := by
        simp [List.filter_eq_nil_iff, rowError]
      rw [List.filter_append, hconflicts, List.nil_append]
      have hnodup : (entryRows.map NamespaceRow.place).Nodup := hplaces ▸ hcovers.places
      exact hnodup.sublist (List.filter_sublist.map NamespaceRow.place)

/-- Of three tables two differ in case only. -/
theorem buildMapping_partitions_case :
    ∃ mapping, buildMapping "lance" [["a"], ["A"], ["b"]] = .ok mapping ∧
      ["a"] ∈ mapping.conflicts ∧ ["b"] ∈ mapping.entries.map Prod.fst := by
  obtain ⟨mapping, hmapping, -, -, -, hclashes, -⟩ :=
    buildMapping_partitions "lance" (show ∀ id ∈ [["a"], ["A"], ["b"]], id ≠ [] by decide)
  refine ⟨mapping, hmapping, (hclashes 0 ["a"] rfl).1.mpr ?_, (hclashes 2 ["b"] rfl).2.mpr ?_⟩
  · exact ⟨1, ["A"], by decide, rfl, by decide⟩
  · rintro ⟨j, other, hj, hget, heq⟩
    match j, hget with
    | 0, hget =>
      cases hget
      exact absurd heq (by decide)
    | 1, hget =>
      cases hget
      exact absurd heq (by decide)
    | 2, _ => exact hj rfl

section

variable {ctx : AttachContext} {tableId : TableId} {place : QualName}
  {entries : List (TableId × QualName)} {s s' : Session} {rows : List NamespaceRow}

/-- What the row of a second attach is to say. -/
def Repeats (first second : NamespaceRow) : Prop :=
  second.tableId = first.tableId ∧
    (first.status ≠ .failed → second.action = .skipExisting ∧ second.status = .skipped) ∧
    (first.status = .failed → second.status = .failed)

theorem repeats_iff {first second : NamespaceRow} (hid : second.tableId = first.tableId)
    (hsecond : second.status = .failed) : Repeats first second ↔ first.status = .failed := by
  constructor
  · rintro ⟨-, hrepeats, -⟩
    by_contra hfirst
    have hskipped := (hrepeats hfirst).2
    rw [hsecond] at hskipped
    cases hskipped
  · exact fun hfirst => ⟨hid, fun hne => absurd hfirst hne, fun _ => hsecond⟩

theorem forall₂_repeats_iff {rows' : List NamespaceRow}
    (hids : rows'.map NamespaceRow.tableId = rows.map NamespaceRow.tableId)
    (hfailed : ∀ row ∈ rows', row.status = .failed) :
    List.Forall₂ Repeats rows rows' ↔ ∀ row ∈ rows, row.status = .failed := by
  induction rows generalizing rows' with
  | nil =>
    rw [List.map_nil, List.map_eq_nil_iff] at hids
    simp [hids]
  | cons row rows ih =>
    cases rows' with
    | nil => cases hids
    | cons row' rows' =>
      rw [List.map_cons, List.map_cons, List.cons.injEq] at hids
      rw [List.forall_mem_cons] at hfailed ⊢
      rw [List.forall₂_cons, repeats_iff hids.1 hfailed.1, ih hids.2 hfailed.2]

/-- A relation at the place of a table is an error: what is there is of another kind, or the name of
its server is not read. -/
theorem existingResult_fails (hname : ctx.env.isCompatibleWith nameOid = false) (rel : Relation) :
    ∃ e, existingResult ctx tableId place rel = .error e := by
  rw [existingResult, existingRelation]
  cases rel.kind with
  | foreignTable server options =>
    simp only [NamespaceEnv.getString, hname, Bool.false_eq_true, if_false]
    exact ⟨_, rfl⟩
  | _ => exact ⟨_, rfl⟩

theorem AttachOne.fails_again {τ : Session} {result : Except String NamespaceRow}
    (h : AttachOne ctx tableId place s result s') (hdry : ctx.dryRun = false)
    (hname : ctx.env.isCompatibleWith nameOid = false) (hfits : place.Fits)
    (hpending : Pending place s'.catalog τ.catalog) :
    ∃ e, attachOne ctx tableId place τ = .ok (.error e, τ) := by
  have htaken : ∀ rel, τ.catalog.relations[place]? = some rel →
      ∃ e, attachOne ctx tableId place τ = .ok (.error e, τ) := by
    intro rel hrel
    have hfails : ∃ e, existingResult ctx tableId place rel = .error e :=
      existingResult_fails hname rel
    obtain ⟨e, he⟩ := hfails
    exact ⟨e, by rw [attachOne_existing hrel, he]⟩
  cases h with
  | @existing rel hrel => exact htaken rel (hpending.keeps rel hrel)
  | dryRun _ hdry' =>
    rw [hdry] at hdry'
    cases hdry'
  | @failed e hnone _ hload =>
    cases hrel : τ.catalog.relations[place]? with
    | some rel => exact htaken rel hrel
    | none =>
      refine ⟨e, ?_⟩
      rw [attachOne, lookupExistingRelation_free hrel]
      simp only [hdry, Bool.false_eq_true, if_false, hload]
  | attached hnone _ _ hattached =>
    obtain ⟨rel, hrel, -⟩ := hattached.made_kind hfits hnone
    exact htaken rel (hpending.keeps rel hrel)

theorem attachEntries_fail_again {τ : Session} (hdry : ctx.dryRun = false)
    (hname : ctx.env.isCompatibleWith nameOid = false) (hfits : ∀ entry ∈ entries, entry.2.Fits)
    (hplaces : (entries.map Prod.snd).Nodup) (h : attachEntries ctx entries s = .ok (rows, s'))
    (hpending : ∀ entry ∈ entries, Pending entry.2 s'.catalog τ.catalog) :
    ∃ rows', attachEntries ctx entries τ = .ok (rows', τ) ∧
      ∀ row ∈ rows', row.status = .failed := by
  induction entries generalizing s rows with
  | nil => exact ⟨[], rfl, by simp⟩
  | cons entry entries ih =>
    obtain ⟨tableId, place⟩ := entry
    rw [List.forall_mem_cons] at hfits hpending
    rw [List.map_cons, List.nodup_cons] at hplaces
    obtain ⟨result, s₁, rows₁, hattach, hrest, rfl⟩ := attachEntries_cons h
    have hafter := (Pending.refl place s₁.catalog).of_touches
      (attachEntries_touches hfits.2 hrest) hplaces.1
    obtain ⟨e, hagain⟩ := (attachOne_cases hattach).fails_again hdry hname hfits.1
      (hafter.trans hpending.1)
    obtain ⟨rows', hrows', hfailed⟩ := ih hfits.2 hplaces.2 hrest hpending.2
    refine ⟨attachRow tableId place (.error e) :: rows', ?_, ?_⟩
    · rw [attachEntries, hagain]
      simp only [bind, Except.bind, hrows']
      rfl
    · exact List.forall_mem_cons.mpr ⟨rfl, hfailed⟩

/-- All fail where every place is taken or its dataset does not load: up to the first that is
attached, nothing changes. -/
theorem attachEntries_all_failed_iff (hdry : ctx.dryRun = false)
    (hname : ctx.env.isCompatibleWith nameOid = false)
    (h : attachEntries ctx entries s = .ok (rows, s')) :
    (∀ row ∈ rows, row.status = .failed) ↔ ∀ entry ∈ entries,
      (∃ rel, s.catalog.relations[entry.2]? = some rel) ∨
        ∃ e, ctx.env.remote.load .attach entry.1 = .error e := by
  induction entries generalizing s rows with
  | nil =>
    cases h
    simp
  | cons entry entries ih =>
    obtain ⟨tableId, place⟩ := entry
    obtain ⟨result, s₁, rows₁, hattach, hrest, rfl⟩ := attachEntries_cons h
    rw [List.forall_mem_cons, List.forall_mem_cons]
    cases attachOne_cases hattach with
    | @existing rel hrel =>
      have hfails : ∃ e, existingResult ctx tableId place rel = .error e :=
        existingResult_fails hname rel
      obtain ⟨e, he⟩ := hfails
      have hstatus : (attachRow tableId place (existingResult ctx tableId place rel)).status =
          .failed := by rw [he]; rfl
      simp only [hstatus, ih hrest, hrel, Option.some.injEq, exists_eq', true_or, true_and]
    | dryRun _ hdry' =>
      rw [hdry] at hdry'
      cases hdry'
    | failed _ _ hload =>
      simp only [attachRow, ih hrest, hload, Except.error.injEq, exists_eq', or_true, true_and]
    | attached hnone _ hload =>
      simp [attachRow, hnone, hload]

end

theorem localPlace_own {schemaPrefix : String} {id : TableId} {place : QualName}
    (h : localPlace schemaPrefix id = .ok place) (path : String) :
    compositeTypeName place.name path ≠ place.name := by
  obtain ⟨⟨schema, table⟩, hplace, rfl⟩ := Fallible.map_ok_iff.mp h
  simp only [schemaAndTableForTableId] at hplace
  split at hplace
  · cases hplace
  · cases hplace
    exact compositeTypeName_ne_sanitizeIdent _ path

theorem rowErrors_failed (tableIds : List TableId) (schemaPrefix detail : String) :
    ∀ row ∈ tableIds.map fun tableId => rowError tableId schemaPrefix detail,
      row.status = .failed := by
  intro row hrow
  obtain ⟨id, -, rfl⟩ := List.mem_map.mp hrow
  rfl

/-- Every table that is not in conflict has its place taken or does not load. -/
def NothingToAttach (env : NamespaceEnv) (schemaPrefix : String) (tableIds : List TableId)
    (σ : LocalCatalog) : Prop :=
  ∀ i id place, tableIds[i]? = some id → ¬ Clashes schemaPrefix tableIds i id →
    localPlace schemaPrefix id = .ok place →
    (∃ rel, σ.relations[place]? = some rel) ∨ ∃ e, env.remote.load .attach id = .error e

theorem nothingToAttach_iff {env : NamespaceEnv} {schemaPrefix : String} {tableIds : List TableId}
    {mapping : Mapping} {σ : LocalCatalog} (h : buildMapping schemaPrefix tableIds = .ok mapping) :
    NothingToAttach env schemaPrefix tableIds σ ↔ ∀ entry ∈ mapping.entries,
      (∃ rel, σ.relations[entry.2]? = some rel) ∨
        ∃ e, env.remote.load .attach entry.1 = .error e := by
  have hcovers := buildMapping_covers h
  constructor
  · rintro hnothing ⟨id, place⟩ hentry
    obtain ⟨hplace, hid⟩ := hcovers.place id place hentry
    obtain ⟨i, hi⟩ := List.mem_iff_getElem?.mp hid
    exact hnothing i id place hi
      ((mem_entries_iff h hi).mp (List.mem_map_of_mem (f := Prod.fst) hentry)) hplace
  · intro hentries i id place hi hclash hplace
    obtain ⟨⟨id', place'⟩, hentry, rfl⟩ := List.mem_map.mp ((mem_entries_iff h hi).mpr hclash)
    have hplace' := (hcovers.place _ place' hentry).1
    rw [hplace] at hplace'
    cases hplace'
    exact hentries _ hentry

section

variable {env : NamespaceEnv} {serverName schemaPrefix : String} {root : TableId}
  {batchSize : Option Int} {limit : Int} {s s' : Session} {rows : List NamespaceRow}

theorem attachNamespace_fails_again (hname : env.isCompatibleWith nameOid = false)
    (h : attachNamespace env serverName root schemaPrefix batchSize limit false s =
      .ok (.ok rows, s')) :
    ∃ rows', attachNamespace env serverName root schemaPrefix batchSize limit false s' =
        .ok (.ok rows', s') ∧
      rows'.map NamespaceRow.tableId = rows.map NamespaceRow.tableId ∧
      ∀ row ∈ rows', row.status = .failed := by
  obtain ⟨tableIds, mapping, entryRows, hmap, hentries, rfl⟩ := attachNamespace_mapped h
  have hcovers := (mapNamespace_ok hmap).2
  have hservers := (attachEntries_touches hcovers.fits hentries).servers
  have hmapAgain : mapNamespace env serverName root schemaPrefix limit s'.catalog =
      .ok (tableIds, mapping) := (mapNamespace_congr hservers).trans hmap
  obtain ⟨rows', hrows', hfailed⟩ := attachEntries_fail_again rfl hname hcovers.fits hcovers.places
    hentries (fun _ _ => .refl _ _)
  refine ⟨_, ?_, ?_, List.forall_mem_append.mpr
    ⟨rowErrors_failed mapping.conflicts schemaPrefix mappingConflict, hfailed⟩⟩
  · rw [attachNamespace, hmapAgain]
    simp only [bind, Except.bind, hrows']
    rfl
  · have hkeys := congrArg (List.map Prod.fst)
      ((attachEntries_rows hrows').trans (attachEntries_rows hentries).symm)
    rw [List.map_map, List.map_map] at hkeys
    rw [List.map_append, List.map_append]
    exact congrArg _ hkeys

theorem attachNamespace_failed_iff (hname : env.isCompatibleWith nameOid = false)
    (h : attachNamespace env serverName root schemaPrefix batchSize limit false s =
      .ok (.ok rows, s')) :
    ∃ tableIds, listTableIds env.remote root limit = .ok tableIds ∧
      ((∀ row ∈ rows, row.status = .failed) ↔
        NothingToAttach env schemaPrefix tableIds s.catalog) := by
  obtain ⟨tableIds, mapping, entryRows, hmap, hentries, rfl⟩ := attachNamespace_mapped h
  obtain ⟨hlisted, hmapping⟩ := mapNamespace_mapped hmap
  refine ⟨tableIds, hlisted, ?_⟩
  rw [List.forall_mem_append, attachEntries_all_failed_iff rfl hname hentries,
    nothingToAttach_iff hmapping]
  exact and_iff_right (rowErrors_failed _ _ _)

/-- Attaching a namespace again changes nothing, and says what it should exactly if the first call had
nothing to attach. -/
theorem attachNamespace_again_iff (hname : env.isCompatibleWith nameOid = false)
    (h : attachNamespace env serverName root schemaPrefix batchSize limit false s =
      .ok (.ok rows, s')) :
    ∃ tableIds rows', listTableIds env.remote root limit = .ok tableIds ∧
      attachNamespace env serverName root schemaPrefix batchSize limit false s' =
        .ok (.ok rows', s') ∧
      (List.Forall₂ Repeats rows rows' ↔
        NothingToAttach env schemaPrefix tableIds s.catalog) := by
  obtain ⟨rows', hagain, hids, hfailed⟩ := attachNamespace_fails_again hname h
  obtain ⟨tableIds, hlisted, hnothing⟩ := attachNamespace_failed_iff hname h
  refine ⟨tableIds, rows', hlisted, hagain, ?_⟩
  rw [forall₂_repeats_iff hids hfailed, hnothing]

end

def clashingRemote : Remote :=
  .ofTree (fun ns => if ns = [] then ["a", "A", "t"] else []) (fun _ => []) [] Remote.nil_listed sampleLoad

def clashingEnv : NamespaceEnv := .sample clashingRemote [["a"], ["A"], ["t"]]

theorem clashingEnv_lists :
    listTableIds clashingEnv.remote [] 1 = .ok [["a"], ["A"], ["t"]] := by decide

theorem attachNamespace_again_taken : ∃ rows s' rows',
    attachNamespace clashingEnv "srv" [] "lance" none 1 false
        ⟨LocalCatalog.sample.insert "lance" "t" (.sample ["t"] "id" .int4), [], []⟩ =
        .ok (.ok rows, s') ∧
      attachNamespace clashingEnv "srv" [] "lance" none 1 false s' = .ok (.ok rows', s') ∧
      List.Forall₂ Repeats rows rows' := by
  have hrun : ((attachNamespace clashingEnv "srv" [] "lance" none 1 false
      ⟨LocalCatalog.sample.insert "lance" "t" (.sample ["t"] "id" .int4), [], []⟩).map
        fun p => p.1.map fun rows => rows.map NamespaceRow.status) =
          .ok (.ok [.failed, .failed, .failed]) := by decide
  obtain ⟨⟨result, s'⟩, hrun, hresult⟩ := Fallible.map_ok_iff.mp hrun
  obtain ⟨rows, rfl, -⟩ := Fallible.map_ok_iff.mp hresult
  obtain ⟨tableIds, rows', hlists, hagain, hrepeats⟩ := attachNamespace_again_iff rfl hrun
  rw [clashingEnv_lists] at hlists
  cases hlists
  refine ⟨rows, s', rows', hrun, hagain, hrepeats.mpr ?_⟩
  intro i id place hid hclash hplace
  match i, hid with
  | 0, hid =>
    cases hid
    exact absurd ⟨1, ["A"], by decide, rfl, by decide⟩ hclash
  | 1, hid =>
    cases hid
    exact absurd ⟨0, ["a"], by decide, rfl, by decide⟩ hclash
  | 2, hid =>
    cases hid
    cases hplace
    exact .inl ⟨.sample ["t"] "id" .int4, by decide⟩

theorem attachNamespace_again_fails : ∃ rows s' rows',
    attachNamespace clashingEnv "srv" [] "lance" none 1 false ⟨.sample, [], []⟩ =
        .ok (.ok rows, s') ∧
      rows.map NamespaceRow.status = [.failed, .failed, .ok] ∧
      attachNamespace clashingEnv "srv" [] "lance" none 1 false s' = .ok (.ok rows', s') ∧
      (∀ row ∈ rows', row.status = .failed) ∧ ¬ List.Forall₂ Repeats rows rows' := by
  have hrun : (attachNamespace clashingEnv "srv" [] "lance" none 1 false ⟨.sample, [], []⟩).map
      (fun p => p.1.map fun rows => rows.map NamespaceRow.status) =
        .ok (.ok [.failed, .failed, .ok]) := by decide
  obtain ⟨⟨result, s'⟩, hrun, hresult⟩ := Fallible.map_ok_iff.mp hrun
  obtain ⟨rows, rfl, hstatus⟩ := Fallible.map_ok_iff.mp hresult
  obtain ⟨rows', hagain, hids, hfailed⟩ := attachNamespace_fails_again rfl hrun
  refine ⟨rows, s', rows', hrun, hstatus, hagain, hfailed, ?_⟩
  rw [forall₂_repeats_iff hids hfailed]
  intro hrows
  have hok : .ok ∈ rows.map NamespaceRow.status := by simp [hstatus]
  obtain ⟨row, hrow, hrowOk⟩ := List.mem_map.mp hok
  rw [hrows row hrow] at hrowOk
  cases hrowOk

end PgLance
