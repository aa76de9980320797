import PgLance.Arrow
import PgLance.Library.Upsert

/-! The calls of the Lance SDK that the write functions make.  A commit either fails or
yields the new dataset, so it is atomic. -/

namespace PgLance

structure Dataset where
  fieldNames : List String
  rows : List Row
  deriving DecidableEq

abbrev StorageOptions := List (String × String)

inductive WriteMode
  | create | append | overwrite
  deriving DecidableEq, Repr

structure WriteParams where
  mode : WriteMode
  storageOptions : Option StorageOptions
  deriving DecidableEq

inductive WhenMatched
  | updateAll | doNothing
  deriving DecidableEq, Repr

inductive WhenNotMatched
  | insertAll | doNothing
  deriving DecidableEq, Repr

structure MergeInsertBuilder where
  dataset : Dataset
  on : List String
  useIndex : Bool
  whenMatched : WhenMatched
  whenNotMatched : WhenNotMatched
  deriving DecidableEq

def MergeInsertBuilder.new (dataset : Dataset) (on : List String) : MergeInsertBuilder :=
  ⟨dataset, on, true, .doNothing, .insertAll⟩

/-- The Lance SDK at one URI. -/
structure Lance where
  load : StorageOptions → Option Dataset → Except String Dataset
  write : WriteParams → Option Dataset → Schema → List RecordBatch → Except String Dataset
  mergeTryNew : Dataset → List String → Except String Unit
  mergeTryBuild : MergeInsertBuilder → Except String Unit
  mergeExecute : MergeInsertBuilder → Schema → List RecordBatch → Except String Dataset
  /-- What goes wrong with the commits of one call, by their number. -/
  commitFault : Nat → Option String

def batchRows (batches : List RecordBatch) : List Row := batches.flatMap RecordBatch.rows

namespace Lance

variable (lance : Lance)

def writeNth (n : Nat) (params : WriteParams) (store : Option Dataset) (schema : Schema)
    (batches : List RecordBatch) : Except String Unit × Option Dataset :=
  match lance.commitFault n with
  | some e => (.error e, store)
  | none =>
    match lance.write params store schema batches with
    | .error e => (.error e, store)
    | .ok dataset => (.ok (), some dataset)

def mergeExecuteNth (n : Nat) (builder : MergeInsertBuilder) (store : Option Dataset)
    (schema : Schema) (batches : List RecordBatch) : Except String Dataset × Option Dataset :=
  match lance.commitFault n with
  | some e => (.error e, store)
  | none =>
    match lance.mergeExecute builder schema batches with
    | .error e => (.error e, store)
    | .ok dataset => (.ok dataset, some dataset)

def LawfulLoad : Prop :=
  ∀ options store dataset, lance.load options store = .ok dataset → store = some dataset

structure LawfulWrite : Prop where
  load : lance.LawfulLoad
  create_some : ∀ options dataset schema batches,
    ∃ e, lance.write ⟨.create, options⟩ (some dataset) schema batches = .error e
  create_none : ∀ options schema batches, ∃ dataset,
    lance.write ⟨.create, options⟩ none schema batches = .ok dataset ∧
      dataset.rows = batchRows batches
  overwrite : ∀ options store schema batches, ∃ dataset,
    lance.write ⟨.overwrite, options⟩ store schema batches = .ok dataset ∧
      dataset.rows = batchRows batches
  append : ∀ options old schema batches, ∃ dataset,
    lance.write ⟨.append, options⟩ (some old) schema batches = .ok dataset ∧
      dataset.rows = old.rows ++ batchRows batches

end Lance

def keyOf (on : List String) (row : Row) : List Value :=
  on.map fun column => (row.lookup column).getD .null

/-- The rows that one merge leaves, up to their order. -/
def mergeRows (keysMatch : List Value → List Value → Bool) (on : List String)
    (whenMatched : WhenMatched) (whenNotMatched : WhenNotMatched) (target source : List Row) :
    List Row :=
  Upsert.merge (keyOf on) keysMatch (whenMatched == .updateAll) (whenNotMatched == .insertAll)
    target source

/-- What a merge does with source rows of distinct keys.  Keys that match are equal, and a
key without nulls matches itself; whether nulls match is left open. -/
structure Lance.LawfulMerge (lance : Lance) (keysMatch : List Value → List Value → Bool) :
    Prop where
  load : lance.LawfulLoad
  match_eq : ∀ {k k'}, keysMatch k k' = true → k = k'
  match_self : ∀ {k}, .null ∉ k → keysMatch k k = true
  execute : ∀ builder schema batches dataset,
    ((batchRows batches).map (keyOf builder.on)).Nodup →
    lance.mergeExecute builder schema batches = .ok dataset →
    dataset.rows.Perm (mergeRows keysMatch builder.on builder.whenMatched builder.whenNotMatched
      builder.dataset.rows (batchRows batches))

def Dataset.sample (ids : List Int) : Dataset :=
  ⟨["id"], ids.map fun id => [("id", .scalar (.int id))]⟩

def sampleKeysMatch (k k' : List Value) : Bool := k == k' && k.all (· != .null)

def Lance.sample (commitFault : Nat → Option String) : Lance where
  load _ store := store.elim (.error "dataset not found") .ok
  write params store schema batches :=
    match params.mode, store with
    | .create, some _ => .error "dataset already exists"
    | .append, some old => .ok ⟨old.fieldNames, old.rows ++ batchRows batches⟩
    | _, _ => .ok ⟨schema.map FieldOf.name, batchRows batches⟩
  mergeTryNew _ _ := .ok ()
  mergeTryBuild builder :=
    if builder.whenMatched = .doNothing ∧ builder.whenNotMatched = .doNothing then
      .error "the merge insert job is not configured to change the data in any way"
    else .ok ()
  mergeExecute builder _ batches :=
    .ok ⟨builder.dataset.fieldNames, mergeRows sampleKeysMatch builder.on builder.whenMatched
      builder.whenNotMatched builder.dataset.rows (batchRows batches)⟩
  commitFault := commitFault

theorem Lance.sample_lawfulLoad (commitFault : Nat → Option String) :
    (Lance.sample commitFault).LawfulLoad := by
  intro options store dataset h
  cases store with
  | none => cases h
  | some d => cases h; rfl

theorem Lance.sample_lawfulWrite (commitFault : Nat → Option String) :
    (Lance.sample commitFault).LawfulWrite where
  load := Lance.sample_lawfulLoad commitFault
  create_some _ _ _ _ := ⟨_, rfl⟩
  create_none _ _ _ := ⟨_, rfl, rfl⟩
  overwrite _ store _ _ := by cases store <;> exact ⟨_, rfl, rfl⟩
  append _ _ _ _ := ⟨_, rfl, rfl⟩

theorem Lance.sample_lawfulMerge (commitFault : Nat → Option String) :
    (Lance.sample commitFault).LawfulMerge sampleKeysMatch where
  load := Lance.sample_lawfulLoad commitFault
  match_eq h := by
    simp only [sampleKeysMatch, Bool.and_eq_true, beq_iff_eq] at h
    exact h.1
  match_self h := by
    simp only [sampleKeysMatch, beq_self_eq_true, Bool.true_and, List.all_eq_true, bne_iff_ne]
    intro v hv hnull
    exact h (hnull ▸ hv)
  execute builder schema batches dataset _ h := by
    cases h
    exact List.Perm.refl _

end PgLance
