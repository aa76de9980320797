import PgLance.Fdw.CatalogRuns
import PgLance.Fdw.Composites

/-! Composite types over runs of imports, attaches and syncs. -/

namespace PgLance

def storedOptions (options : List (String × String)) : List (String × Option String) :=
  options.map fun option => (truncateIdentifier option.1, some option.2)

structure TableRequest.Holds (request : TableRequest) (c : Creation) (name : QualName)
    (rel : Relation) (σ : LocalCatalog) : Prop where
  schema : c.schema = request.place.schema
  table : c.table = request.place.name
  fields : c.fields = request.fields
  place : c.place = name
  made : c.Made rel
  kind : rel.kind = .foreignTable request.server (storedOptions request.options)
  server : (σ.servers.lookup request.server).isSome = true

theorem TableRequest.Holds.congr {request : TableRequest} {c : Creation} {name : QualName}
    {rel : Relation} {σ σ' : LocalCatalog} (h : request.Holds c name rel σ)
    (hservers : σ'.servers = σ.servers) : request.Holds c name rel σ' :=
  { h with server := hservers ▸ h.server }

/-- The foreign tables that were not there at the start were asked for and made, and what a clean
creation declared, and no other did, is still there. -/
structure Accounted (makes : TableRequest → Prop) (σ : LocalCatalog) (s : Session) : Prop where
  tables : ∀ (name : QualName) rel server options, s.catalog.relations[name]? = some rel →
    rel.kind = .foreignTable server options → σ.relations[name]? = some rel ∨
      ∃ request, makes request ∧ ∃ c ∈ s.created, request.Holds c name rel s.catalog
  declared : ∀ c ∈ s.created, c.Clean → c.Declared s.catalog
  atOnce : ∀ c ∈ s.created, c.Declared c.after ↔ c.Clean

namespace Accounted

variable {makes : TableRequest → Prop} {drops : QualName → Prop} {σ : LocalCatalog}
  {s s' : Session}

theorem execute {pg : Postgres} {command : Command} (h : Accounted makes σ s)
    (hcreates : ∀ name rel, ¬ command.Creates name rel) (hrun : s.execute pg command = .ok s') :
    Accounted makes σ s' := by
  obtain ⟨hexec, -, hcreated⟩ := Session.execute_ok hrun
  have hchanges := Postgres.exec_changes hexec
  constructor
  · intro name rel server options hrel hkind
    rw [hcreated]
    rcases hchanges.relations name with heq | ⟨-, rel', -, hmade⟩ | ⟨-, hnone, -⟩
    · rcases h.tables name rel server options (heq ▸ hrel) hkind with
        hstart | ⟨request, hmakes, c, hc, hholds⟩
      · exact .inl hstart
      · exact .inr ⟨request, hmakes, c, hc, hholds.congr hchanges.servers⟩
    · exact absurd hmade (hcreates name rel')
    · rw [hnone] at hrel
      cases hrel
  · rw [hcreated]
    intro c hc hclean ty hty
    obtain ⟨rel, hrel, hkind, hcolumns⟩ := h.declared c hc hclean ty hty
    refine ⟨rel, ?_, hkind, hcolumns⟩
    rcases hchanges.relations (.stored c.schema ty.typeName) with
      heq | ⟨hnone, -⟩ | ⟨-, -, rel', server, options, hrel', hkind'⟩
    · rw [heq, hrel]
    · rw [hrel] at hnone
      cases hnone
    · rw [hrel] at hrel'
      cases hrel'
      rw [hkind] at hkind'
      cases hkind'
  · rw [hcreated]
    exact h.atOnce

theorem createTypes {pg : Postgres} {schema : String} {tys : List CompositeTypeDef}
    (h : Accounted makes σ s) (hrun : s.executeAll pg (createTypes schema tys) = .ok s') :
    Accounted makes σ s' := by
  obtain ⟨hadds, hcreated⟩ := createTypes_adds hrun
  constructor
  · intro name rel server options hrel hkind
    rw [hcreated]
    rcases hadds.made hrel with hold | ⟨-, command, hcommand, hcreates⟩
    · rcases h.tables name rel server options hold hkind with
        hstart | ⟨request, hmakes, c, hc, hholds⟩
      · exact .inl hstart
      · exact .inr ⟨request, hmakes, c, hc, hholds.congr hadds.servers⟩
    · obtain ⟨ty, -, rfl⟩ := List.mem_map.mp hcommand
      rw [hcreates.2.1] at hkind
      cases hkind
  · rw [hcreated]
    intro c hc hclean ty hty
    exact (h.declared c hc hclean ty hty).keeps hadds
  · rw [hcreated]
    exact h.atOnce

theorem newTable {pg : Postgres} {request : TableRequest} {s₁ : Session} (h : Accounted makes σ s)
    (hmakes : makes request) (hnew : NewTable pg request.server request.options
      ⟨request.place.schema, request.place.name, request.fields, s.catalog, s'.catalog⟩ s₁ s s') :
    Accounted makes σ s' := by
  have htypes := h.createTypes hnew.types
  have hcreated := (createTypes_adds hnew.types).2
  constructor
  · intro name rel server options hrel hkind
    rw [hnew.created]
    rcases hnew.adds.made hrel with hold | ⟨-, command, hcommand, hcreates⟩
    · rcases htypes.tables name rel server options hold hkind with
        hstart | ⟨other, hother, d, hd, hholds⟩
      · exact .inl hstart
      · rw [hcreated] at hd
        exact .inr ⟨other, hother, d, List.mem_append_left _ hd, hholds.congr hnew.adds.servers⟩
    · rw [List.mem_singleton.mp hcommand] at hcreates
      obtain ⟨rel', hrel', hmade⟩ := hnew.there
      rw [hcreates.1, ← Creation.place, hrel'] at hrel
      cases hrel
      refine .inr ⟨request, hmakes, _, List.mem_append_right _ List.mem_cons_self, ?_⟩
      exact {
        schema := rfl
        table := rfl
        fields := rfl
        place := hcreates.1.symm
        made := hmade
        kind := hcreates.2.1
        server := hnew.adds.servers ▸ hnew.known }
  · intro d hd hclean
    rw [hnew.created] at hd
    cases List.mem_append.mp hd with
    | inl hd =>
      intro ty hty
      exact (htypes.declared d (hcreated ▸ hd) hclean ty hty).keeps hnew.adds
    | inr hd =>
      rw [List.mem_singleton.mp hd] at hclean ⊢
      exact hnew.declared hclean
  · intro d hd
    rw [hnew.created] at hd
    cases List.mem_append.mp hd with
    | inl hd => exact htypes.atOnce d (hcreated ▸ hd)
    | inr hd =>
      rw [List.mem_singleton.mp hd]
      exact hnew.declared_iff

theorem step (h : Accounted makes σ s) (hstep : s.Step makes drops s') : Accounted makes σ s' := by
  cases hstep with
  | schema hrun => exact h.execute (by simp [Command.Creates]) hrun
  | drop _ hrun => exact h.execute (by simp [Command.Creates]) hrun
  | table hmakes hrun =>
    rcases Session.createTable_cases hrun with ⟨hcreated, tys, s₁, htypes, hcatalog⟩ | ⟨s₁, hnew⟩
    · have hafter := h.createTypes htypes
      obtain ⟨-, hcreated₁⟩ := createTypes_adds htypes
      constructor
      · rw [hcatalog, hcreated, ← hcreated₁]
        exact hafter.tables
      · rw [hcatalog, hcreated, ← hcreated₁]
        exact hafter.declared
      · rw [hcreated, ← hcreated₁]
        exact hafter.atOnce
    · exact h.newTable hmakes hnew

theorem reaches (h : Accounted makes σ s) (hreaches : s.Reaches makes drops s') :
    Accounted makes σ s' := by
  induction hreaches with
  | refl => exact h
  | tail _ hstep ih => exact ih.step hstep

theorem made (h : Accounted makes σ s) (name : QualName) (rel : Relation) (server : String)
    (options : List (String × Option String)) (hrel : s.catalog.relations[name]? = some rel)
    (hkind : rel.kind = .foreignTable server options) :
    σ.relations[name]? = some rel ∨ ∃ c ∈ s.created, c.place = name ∧ c.Made rel := by
  rcases h.tables name rel server options hrel hkind with hstart | ⟨request, -, c, hc, hholds⟩
  · exact .inl hstart
  · exact .inr ⟨c, hc, hholds.place, hholds.made⟩

end Accounted

theorem accounted_runCalls (calls : List CatalogCall) (σ : LocalCatalog) :
    Accounted (MadeIn calls ⟨σ, [], []⟩) σ (runCalls calls ⟨σ, [], []⟩) := by
  have hstart : Accounted (MadeIn calls ⟨σ, [], []⟩) σ ⟨σ, [], []⟩ :=
    ⟨fun _ _ _ _ hrel _ => .inl hrel, by simp, by simp⟩
  exact hstart.reaches (runCalls_reaches calls _)

/-- In every run, the tables that were made have the columns derived from their fields, and the
types of their structs are their own from a clean creation on, so that two structs have one type
only with the same attributes. At a creation that is not clean, they are not. -/
theorem declared_of_clean (calls : List CatalogCall) (σ : LocalCatalog) :
    let s := runCalls calls ⟨σ, [], []⟩
    (∀ (name : QualName) rel server options, s.catalog.relations[name]? = some rel →
      rel.kind = .foreignTable server options →
      σ.relations[name]? = some rel ∨ ∃ c ∈ s.created, c.place = name ∧ c.Made rel) ∧
    (∀ c ∈ s.created, c.Clean → c.Declared s.catalog) ∧
    (∀ c ∈ s.created, ∀ c' ∈ s.created, c.Clean → c'.Clean →
      ∀ ty ∈ c.structs, ∀ ty' ∈ c'.structs,
        QualName.stored c.schema ty.typeName = .stored c'.schema ty'.typeName →
        ty.fields.map (readColumn c.schema) = ty'.fields.map (readColumn c'.schema)) ∧
    ∀ {pg : Postgres} {server : String} {options : List (String × String)} {c : Creation}
      {s₁ s₂ : Session}, s₁.createTable pg server c.schema c.table options c.fields = .ok s₂ →
      s₂.created = s₁.created ++ [c] → (c.Declared s₂.catalog ↔ c.Clean) := by
  have haccounted := accounted_runCalls calls σ
  refine ⟨haccounted.made, haccounted.declared, ?_, ?_⟩
  · intro c hc c' hc' hclean hclean' ty hty ty' hty'
    exact (haccounted.declared c hc hclean ty hty).same (haccounted.declared c' hc' hclean' ty' hty')
  · intro pg server options c s₁ s₂ hrun hcreated
    rcases Session.createTable_cases hrun with ⟨hsame, -⟩ | ⟨s₃, hnew⟩
    · rw [hsame] at hcreated
      simp at hcreated
    · have heq := hnew.created.symm.trans hcreated
      rw [List.append_cancel_left_eq, List.cons.injEq] at heq
      rw [← heq.1]
      exact hnew.declared_iff

/-- The structs of the tables that were made have composite types of their own attributes, at once
and in the end, and those that share one have the same attributes. -/
structure OwnTypes (s : Session) : Prop where
  declared : ∀ c ∈ s.created, c.Declared c.after ∧ c.Declared s.catalog
  shared : ∀ c ∈ s.created, ∀ c' ∈ s.created, ∀ ty ∈ c.structs, ∀ ty' ∈ c'.structs,
    QualName.stored c.schema ty.typeName = .stored c'.schema ty'.typeName →
      ty.fields.map (readColumn c.schema) = ty'.fields.map (readColumn c'.schema)

/-- The tables that a run has made have the columns derived from their fields, and types of their
own exactly if every creation was clean. -/
theorem runCalls_ownTypes_iff (calls : List CatalogCall) (σ : LocalCatalog) :
    let s := runCalls calls ⟨σ, [], []⟩
    (∀ (name : QualName) rel server options, s.catalog.relations[name]? = some rel →
      rel.kind = .foreignTable server options →
      σ.relations[name]? = some rel ∨ ∃ c ∈ s.created, c.place = name ∧ c.Made rel) ∧
    (OwnTypes s ↔ ∀ c ∈ s.created, c.Clean) := by
  intro s
  have haccounted := accounted_runCalls calls σ
  refine ⟨haccounted.made, fun hown c hc => (haccounted.atOnce c hc).mp (hown.declared c hc).1, ?_⟩
  intro hclean
  have hdeclared : ∀ c ∈ s.created, c.Declared s.catalog := fun c hc =>
    haccounted.declared c hc (hclean c hc)
  exact ⟨fun c hc => ⟨(haccounted.atOnce c hc).mpr (hclean c hc), hdeclared c hc⟩,
    fun c hc c' hc' ty hty ty' hty' => (hdeclared c hc ty hty).same (hdeclared c' hc' ty' hty')⟩

def importOf (table column field : String) : CatalogCall :=
  let remote := Remote.ofTree (fun _ => []) (fun _ => []) [] Remote.nil_listed fun _ _ => .ok []
  let fields := [⟨column, .struct [⟨field, .leaf .int32, true⟩], true⟩]
  .importTable { NamespaceEnv.sample remote [] with openDataset := fun _ => .ok fields } "srv"
    "lance" table "/d" none

/-- Both structs have the type `lance_a_b_c`. -/
def sharingRun : List CatalogCall := [importOf "a" "b_c" "x", importOf "a_b" "c" "y"]

theorem sharingRun_shares : (runCalls sharingRun ⟨.sample, [], []⟩).created.any (fun c =>
    (runCalls sharingRun ⟨.sample, [], []⟩).created.any fun c' =>
      c.structs.any fun ty => c'.structs.any fun ty' =>
        QualName.stored c.schema ty.typeName = .stored c'.schema ty'.typeName ∧
          ty.fields.map (readColumn c.schema) ≠ ty'.fields.map (readColumn c'.schema)) = true := by
  decide +kernel

theorem runCalls_ownTypes_shared : ¬ OwnTypes (runCalls sharingRun ⟨.sample, [], []⟩) := by
  intro hown
  obtain ⟨c, hc, hshares⟩ := List.any_eq_true.mp sharingRun_shares
  obtain ⟨c', hc', hshares⟩ := List.any_eq_true.mp hshares
  obtain ⟨ty, hty, hshares⟩ := List.any_eq_true.mp hshares
  obtain ⟨ty', hty', hshares⟩ := List.any_eq_true.mp hshares
  obtain ⟨hname, hne⟩ := of_decide_eq_true hshares
  exact hne (hown.shared c hc c' hc' ty hty ty' hty' hname)

end PgLance
