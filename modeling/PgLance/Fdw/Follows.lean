import PgLance.Fdw.SyncDrops

/-! Two catalogues of which the second has composite types that the first is yet to get. -/

namespace PgLance

/-- The name of a relation or of a type that a user made. -/
def LocalCatalog.Taken (σ : LocalCatalog) (name : QualName) : Prop :=
  (∃ rel, σ.relations[name]? = some rel) ∨ σ.types.contains name = true

def Command.target : Command → Option QualName
  | createSchema _ => none
  | createCompositeType schema ty => some (.stored schema ty.typeName)
  | createForeignTable _ schema table _ _ => some (.stored schema table)
  | dropForeignTable schema table => some (.stored schema table)

def Command.compositeColumns : Command → Option (List Column)
  | createCompositeType schema ty => ty.fields.mapM (readColumn schema)
  | _ => none

theorem Relation.eq_of {rel rel' : Relation} (hkind : rel.kind = rel'.kind)
    (hcolumns : rel.columns = rel'.columns) : rel = rel' := by
  cases rel
  cases rel'
  simp only at hkind hcolumns
  subst hkind hcolumns
  rfl

section

variable {pg : Postgres} {σ σ' : LocalCatalog} {name : QualName} {command : Command}

theorem LocalCatalog.taken_of_hasTypeName (h : σ.hasTypeName name = true) : σ.Taken name := by
  rw [hasTypeName, Bool.or_eq_true] at h
  cases h with
  | inl hrow =>
    cases hrel : σ.relations[name]? with
    | some rel => exact .inl ⟨rel, hrel⟩
    | none => simp [rowType, hrel] at hrow
  | inr htypes => exact .inr htypes

theorem LocalCatalog.Taken.congr (h : σ.Taken name) (htypes : σ'.types = σ.types)
    (hrel : σ'.relations[name]? = σ.relations[name]?) : σ'.Taken name := by
  rw [Taken, htypes, hrel]
  exact h

end

theorem LocalCatalog.insert_self (σ : LocalCatalog) (schema name : String) (rel : Relation) :
    (σ.insert schema name rel).relations[QualName.stored schema name]? = some rel := by
  simp [insert]

theorem LocalCatalog.insert_other (σ : LocalCatalog) {schema name : String} (rel : Relation)
    {other : QualName} (hne : QualName.stored schema name ≠ other) :
    (σ.insert schema name rel).relations[other]? = σ.relations[other]? := by
  simp [insert, Std.TreeMap.getElem?_insert, hne]

/-- `τ` has the same as `σ` at the names in `free`, or else a composite type with columns that are
`ahead`; and both have the same at the names that are `settled`, which are taken. -/
structure Follows (free : QualName → Prop) (ahead : QualName → List Column → Prop)
    (settled : QualName → Prop) (σ τ : LocalCatalog) : Prop where
  types : σ.types = τ.types
  relations : ∀ name, free name → σ.relations[name]? = τ.relations[name]? ∨
    ¬ σ.Taken name ∧ ∃ rel, τ.relations[name]? = some rel ∧ rel.kind = .compositeType ∧
      ahead name rel.columns
  settled : ∀ name, settled name →
    σ.relations[name]? = τ.relations[name]? ∧ σ.Taken name

/-- What a statement makes is free, and it makes what is ahead there. -/
def Command.Suits (command : Command) (free : QualName → Prop)
    (ahead : QualName → List Column → Prop) : Prop :=
  ∀ name, command.target = some name → ¬ command.Drops name ∧ free name ∧
    ∀ columns, ahead name columns → command.compositeColumns = some columns

namespace Follows

variable {free : QualName → Prop} {ahead : QualName → List Column → Prop}
  {settled : QualName → Prop} {σ σ' τ τ' : LocalCatalog} {pg : Postgres}

theorem refl (free : QualName → Prop) (ahead : QualName → List Column → Prop) (σ : LocalCatalog) :
    Follows free ahead (fun _ => False) σ σ := ⟨rfl, fun _ _ => .inl rfl, fun _ h => h.elim⟩

theorem set (h : Follows free ahead settled σ τ) {name : QualName} {rel : Relation}
    (hσtypes : σ'.types = σ.types) (hτtypes : τ'.types = τ.types)
    (hσ : ∀ other, name ≠ other → σ'.relations[other]? = σ.relations[other]?)
    (hτ : ∀ other, name ≠ other → τ'.relations[other]? = τ.relations[other]?)
    (hσrel : σ'.relations[name]? = some rel) (hτrel : τ'.relations[name]? = some rel) :
    Follows free ahead (fun other => settled other ∨ name = other) σ' τ' := by
  refine ⟨by rw [hσtypes, hτtypes, h.types], ?_, ?_⟩
  · intro other hfree
    by_cases hne : name = other
    · subst hne
      exact .inl (by rw [hσrel, hτrel])
    · rw [hσ other hne, hτ other hne]
      refine (h.relations other hfree).imp_right ?_
      rintro ⟨hnot, hrest⟩
      exact ⟨fun htaken => hnot (htaken.congr hσtypes.symm (hσ other hne).symm), hrest⟩
  · intro other hsettled
    by_cases hne : name = other
    · subst hne
      exact ⟨by rw [hσrel, hτrel], .inl ⟨rel, hσrel⟩⟩
    · obtain ⟨hsame, htaken⟩ := h.settled other (hsettled.resolve_right hne)
      rw [hσ other hne, hτ other hne]
      exact ⟨hsame, htaken.congr hσtypes (hσ other hne)⟩

theorem settle (h : Follows free ahead settled σ τ) {name : QualName}
    (hsame : σ.relations[name]? = τ.relations[name]?) (htaken : σ.Taken name) :
    Follows free ahead (fun other => settled other ∨ name = other) σ τ where
  types := h.types
  relations := h.relations
  settled other hsettled := by
    cases hsettled with
    | inl hsettled => exact h.settled other hsettled
    | inr heq => exact heq ▸ ⟨hsame, htaken⟩

theorem hasTypeName (h : Follows free ahead settled σ τ) {name : QualName}
    (hsame : σ.relations[name]? = τ.relations[name]?) :
    σ.hasTypeName name = τ.hasTypeName name := by
  simp only [LocalCatalog.hasTypeName, LocalCatalog.rowType, hsame, h.types]

/-- A statement that suits leaves the same in both. -/
theorem exec (h : Follows free ahead settled σ τ) {command : Command}
    (hsuits : command.Suits free ahead) (hσ : pg.exec command σ = .ok σ')
    (hτ : pg.exec command τ = .ok τ') :
    Follows free ahead (fun name => settled name ∨ command.target = some name) σ' τ' := by
  have hσ := (Postgres.exec_ok hσ).2
  have hτ := (Postgres.exec_ok hτ).2
  cases command with
  | createSchema schema =>
    have hsame : ∀ {σ σ' : LocalCatalog}, σ' = (if σ.schemas.contains (truncateIdentifier schema)
        then σ else { σ with schemas := σ.schemas.insert (truncateIdentifier schema) }) →
        σ'.types = σ.types ∧ σ'.relations = σ.relations := by
      rintro σ σ' rfl
      split <;> exact ⟨rfl, rfl⟩
    obtain ⟨hσtypes, hσ⟩ := hsame hσ
    obtain ⟨hτtypes, hτ⟩ := hsame hτ
    refine ⟨by rw [hσtypes, hτtypes, h.types], ?_, ?_⟩
    · intro name hfree
      rw [LocalCatalog.Taken, hσ, hτ, hσtypes]
      exact h.relations name hfree
    · intro name hsettled
      rw [LocalCatalog.Taken, hσ, hτ, hσtypes]
      exact h.settled name (hsettled.resolve_right fun htarget => by cases htarget)
  | createCompositeType schema ty =>
    obtain ⟨-, hfree, hahead⟩ := hsuits _ rfl
    simp only [Command.target, Option.some.injEq]
    rcases h.relations _ hfree with hsame | ⟨hnot, rel', hrel', hkind', hcolumns'⟩
    · rcases Postgres.execCreateCompositeType_ok hσ with
        ⟨hthere, rfl⟩ | ⟨hnew, -, rel, hkind, hcolumns, rfl⟩
      · rcases Postgres.execCreateCompositeType_ok hτ with ⟨-, rfl⟩ | ⟨hnew, -⟩
        · exact h.settle hsame (LocalCatalog.taken_of_hasTypeName hthere)
        · rw [← h.hasTypeName hsame, hthere] at hnew
          cases hnew
      · rcases Postgres.execCreateCompositeType_ok hτ with
          ⟨hthere, -⟩ | ⟨-, -, rel', hkind', hcolumns', rfl⟩
        · rw [← h.hasTypeName hsame, hnew] at hthere
          cases hthere
        · rw [hcolumns, Option.some.injEq] at hcolumns'
          rw [Relation.eq_of (hkind.trans hkind'.symm) hcolumns']
          exact h.set rfl rfl (fun _ => σ.insert_other _) (fun _ => τ.insert_other _)
            (σ.insert_self _ _ _) (τ.insert_self _ _ _)
    · -- the first gets what the second has ahead
      rcases Postgres.execCreateCompositeType_ok hσ with
        ⟨hthere, -⟩ | ⟨-, -, rel, hkind, hcolumns, rfl⟩
      · exact absurd (LocalCatalog.taken_of_hasTypeName hthere) hnot
      · rcases Postgres.execCreateCompositeType_ok hτ with ⟨-, rfl⟩ | ⟨-, hnone, -⟩
        · have hdefined := hahead _ hcolumns'
          simp only [Command.compositeColumns, hcolumns, Option.some.injEq] at hdefined
          have heq : rel = rel' := Relation.eq_of (hkind.trans hkind'.symm) hdefined
          exact h.set rfl rfl (fun _ => σ.insert_other _) (fun _ _ => rfl)
            (σ.insert_self _ _ _) (heq ▸ hrel')
        · rw [hrel'] at hnone
          cases hnone
  | createForeignTable server schema table options columns =>
    obtain ⟨-, hfree, hahead⟩ := hsuits _ rfl
    simp only [Command.target, Option.some.injEq]
    have hsame := (h.relations _ hfree).resolve_right fun hrest => by
      obtain ⟨-, rel, -, -, hcolumns⟩ := hrest
      cases hahead _ hcolumns
    rcases Postgres.execCreateForeignTable_ok hσ with
      ⟨hthere, rfl⟩ | ⟨hnone, rel, hkind, hcolumns, rfl⟩
    · rw [Std.TreeMap.contains_eq_isSome_getElem?] at hthere
      obtain ⟨rel, hrel⟩ := Option.isSome_iff_exists.mp hthere
      rcases Postgres.execCreateForeignTable_ok hτ with ⟨-, rfl⟩ | ⟨hnone, -⟩
      · exact h.settle hsame (.inl ⟨rel, hrel⟩)
      · rw [← hsame, hrel] at hnone
        cases hnone
    · rcases Postgres.execCreateForeignTable_ok hτ with
        ⟨hthere, -⟩ | ⟨-, rel', hkind', hcolumns', rfl⟩
      · rw [Std.TreeMap.contains_eq_isSome_getElem?, ← hsame, hnone] at hthere
        cases hthere
      · rw [hcolumns, Option.some.injEq] at hcolumns'
        rw [Relation.eq_of (hkind.trans hkind'.symm) hcolumns']
        exact h.set rfl rfl (fun _ => σ.insert_other _) (fun _ => τ.insert_other _)
          (σ.insert_self _ _ _) (τ.insert_self _ _ _)
  | dropForeignTable schema table => exact absurd rfl (hsuits _ rfl).1

theorem mono {free' : QualName → Prop} {ahead' : QualName → List Column → Prop}
    {settled' : QualName → Prop} (h : Follows free ahead settled σ τ)
    (hfree : ∀ name, free' name → free name)
    (hahead : ∀ name columns, free' name → ahead name columns → ahead' name columns)
    (hsettled : ∀ name, settled' name → settled name) : Follows free' ahead' settled' σ τ where
  types := h.types
  relations name hname := by
    refine (h.relations name (hfree name hname)).imp_right ?_
    rintro ⟨hnot, rel, hrel, hkind, hcolumns⟩
    exact ⟨hnot, rel, hrel, hkind, hahead name _ hname hcolumns⟩
  settled name hname := h.settled name (hsettled name hname)

theorem settled_mono {settled' : QualName → Prop} (h : Follows free ahead settled σ τ)
    (hsettled : ∀ name, settled' name → settled name) : Follows free ahead settled' σ τ :=
  h.mono (fun _ hname => hname) (fun _ _ _ hcolumns => hcolumns) hsettled

theorem erase (h : Follows free ahead settled σ τ) (place : QualName) :
    Follows free ahead (fun name => settled name ∧ place ≠ name) (σ.erase place)
      (τ.erase place) := by
  have hother : ∀ name, place ≠ name → ∀ σ : LocalCatalog,
      (σ.erase place).relations[name]? = σ.relations[name]? := by
    intro name hne σ
    simp [LocalCatalog.erase, Std.TreeMap.getElem?_erase, hne]
  refine ⟨h.types, ?_, ?_⟩
  · intro name hfree
    by_cases hne : place = name
    · subst hne
      exact .inl (by simp [LocalCatalog.erase])
    · rw [hother name hne, hother name hne]
      refine (h.relations name hfree).imp_right ?_
      rintro ⟨hnot, hrest⟩
      exact ⟨fun htaken => hnot (htaken.congr rfl (hother name hne σ).symm), hrest⟩
  · rintro name ⟨hsettled, hne⟩
    obtain ⟨hsame, htaken⟩ := h.settled name hsettled
    rw [hother name hne, hother name hne]
    exact ⟨hsame, htaken.congr rfl (hother name hne σ)⟩

variable {s s' t t' : Session} {commands : List Command}

theorem executeAll (h : Follows free ahead settled s.catalog t.catalog)
    (hsuits : ∀ command ∈ commands, command.Suits free ahead)
    (hs : s.executeAll pg commands = .ok s') (ht : t.executeAll pg commands = .ok t') :
    Follows free ahead
      (fun name => settled name ∨ ∃ command ∈ commands, command.target = some name)
      s'.catalog t'.catalog := by
  induction commands generalizing s t settled with
  | nil =>
    cases hs
    cases ht
    exact h.settled_mono (by simp)
  | cons command commands ih =>
    rw [List.forall_mem_cons] at hsuits
    obtain ⟨s₁, hs₁, hs⟩ := Fallible.bind_ok_iff.mp hs
    obtain ⟨t₁, ht₁, ht⟩ := Fallible.bind_ok_iff.mp ht
    have hfirst := h.exec hsuits.1 (Session.execute_ok hs₁).1 (Session.execute_ok ht₁).1
    refine (ih hfirst hsuits.2 hs ht).settled_mono ?_
    rintro name (hsettled | ⟨other, hother, htarget⟩)
    · exact .inl (.inl hsettled)
    · cases List.mem_cons.mp hother with
      | inl heq => exact .inl (.inr (heq ▸ htarget))
      | inr hother => exact .inr ⟨other, hother, htarget⟩

end Follows

/-- What is made for a dataset at a place: composite types with their columns, and the table. -/
def definitions (place : QualName) (fields : Schema) : List (QualName × Option (List Column)) :=
  (.stored place.schema place.name, none) ::
    (orderCompositeTypes (buildSchemaMapping place.name fields).compositeTypes).map fun ty =>
      (.stored place.schema ty.typeName, ty.fields.mapM (readColumn place.schema))

def usedNames (place : QualName) (fields : Schema) : List QualName :=
  (definitions place fields).map Prod.fst

section

variable {ctx : AttachContext} {tableId : TableId} {place name : QualName} {fields : Schema}

theorem attachCommands_use (ctx : AttachContext) (tableId : TableId)
    (h : name ∈ usedNames place fields) :
    ∃ command ∈ attachCommands ctx tableId place fields, command.target = some name := by
  obtain ⟨⟨_, columns⟩, hdefined, rfl⟩ := List.mem_map.mp h
  rw [definitions, List.mem_cons] at hdefined
  rcases hdefined with hdefined | hdefined
  · cases hdefined
    exact ⟨_, List.mem_cons_of_mem _ (List.mem_append_right _ (List.mem_singleton_self _)), rfl⟩
  · obtain ⟨ty, hty, hdefined⟩ := List.mem_map.mp hdefined
    cases hdefined
    exact ⟨_, List.mem_cons_of_mem _ (List.mem_append_left _ (List.mem_map_of_mem hty)), rfl⟩

end

end PgLance
