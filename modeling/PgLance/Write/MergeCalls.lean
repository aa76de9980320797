import PgLance.Library.UpsertMap
import PgLance.Write.MergeLaws

/-! Runs of merge calls on one dataset, of which some may fail: the dataset as a map from keys to
rows. -/

namespace PgLance

variable {Raw : Type}

/-- A call of `lance_merge_insert`, or with column types of `lance_merge_insert_with_schema`. -/
structure MergeCall (Raw : Type) where
  env : Env Raw
  host : Host
  lance : Lance
  uri : String
  source : ResultSet Raw
  columnTypes : Option Json
  whenMatched : String
  whenNotMatched : String
  batchSize : Int
  serverName : Option String

namespace MergeCall

variable (onColumns : List String) (call : MergeCall Raw)

def run (store : Option Dataset) : Except Failure MergeRow × Option Dataset :=
  match call.columnTypes with
  | none => lanceMergeInsert call.env call.host call.lance call.uri call.source onColumns
      call.whenMatched call.whenNotMatched call.batchSize call.serverName store
  | some columnTypes => lanceMergeInsertWithSchema call.env call.host call.lance call.uri
      call.source onColumns columnTypes call.whenMatched call.whenNotMatched call.batchSize
      call.serverName store

def typeOverrides : Except String (Option ArrowTypeOverrides) :=
  match call.columnTypes with
  | none => .ok none
  | some columnTypes => (parseArrowTypeOverrides columnTypes).map some

def written (rows : List (SpiRow Raw)) : List Row :=
  match call.typeOverrides with
  | .error _ => []
  | .ok typeOverrides => writtenRows call.env call.source.columns typeOverrides rows

def putAll (rows : List (SpiRow Raw)) (entries : List Value → Option Row) :
    List Value → Option Row := fun k =>
  Upsert.put (call.whenMatched = "update") (call.whenNotMatched = "insert") (entries k)
    (Upsert.lookup (keyOf onColumns) (call.written rows) k)

end MergeCall

def runMerges (onColumns : List String) : List (MergeCall Raw) → Option Dataset →
    List (Except Failure MergeRow) × Option Dataset
  | [], store => ([], store)
  | call :: calls, store =>
    let (result, store) := call.run onColumns store
    let (results, store) := runMerges onColumns calls store
    (result :: results, store)

theorem parseWhenMatched_ok {whenMatched : String} {m : WhenMatched}
    (h : parseWhenMatched whenMatched = .ok m) :
    (m == .updateAll) = decide (whenMatched = "update") := by
  unfold parseWhenMatched at h
  split at h
  · cases h
    rfl
  · cases h
    rfl
  · cases h

theorem parseWhenNotMatched_ok {whenNotMatched : String} {n : WhenNotMatched}
    (h : parseWhenNotMatched whenNotMatched = .ok n) :
    (n == .insertAll) = decide (whenNotMatched = "insert") := by
  unfold parseWhenNotMatched at h
  split at h
  · cases h
    rfl
  · cases h
    rfl
  · cases h

namespace MergeCall

variable {onColumns : List String} {call : MergeCall Raw}

theorem written_append (rows more : List (SpiRow Raw)) :
    call.written (rows ++ more) = call.written rows ++ call.written more := by
  unfold written
  split
  · rfl
  · exact writtenRows_append ..

@[simp] theorem written_nil : call.written [] = [] := by
  unfold written writtenRows
  split
  · rfl
  · split <;> rfl

@[simp] theorem putAll_nil (entries : List Value → Option Row) :
    call.putAll onColumns [] entries = entries := by
  funext k
  simp [putAll, Upsert.lookup]

theorem run_rows {keysMatch : List Value → List Value → Bool} (hl : call.lance.LawfulMerge keysMatch)
    (hkeys : ((call.written call.source.rows).map (keyOf onColumns)).Nodup) {ds : Dataset}
    {result : Except Failure MergeRow} {after : Option Dataset}
    (h : call.run onColumns (some ds) = (result, after)) :
    ∃ rows ds', rows <+: call.source.rows ∧ after = some ds' ∧
      (rows = [] ∧ ds' = ds ∨ ∃ m n, parseWhenMatched call.whenMatched = .ok m ∧
        parseWhenNotMatched call.whenNotMatched = .ok n ∧
        ds'.rows.Perm (mergeRows keysMatch onColumns m n ds.rows (call.written rows))) ∧
      ∀ row, result = .ok row → rows = call.source.rows := by
  have hinner : ∀ typeOverrides context inner, call.typeOverrides = .ok typeOverrides →
      lanceMergeInsertImplInner call.env call.host call.lance call.uri call.source onColumns
        call.whenMatched call.whenNotMatched (i32AsUsize call.batchSize) call.serverName
        typeOverrides (some ds) = inner →
      result = (inner.1.mapError (raiseError context)).map MergeReport.row → after = inner.2 →
      ∃ rows ds', rows <+: call.source.rows ∧ after = some ds' ∧
        (rows = [] ∧ ds' = ds ∨ ∃ m n, parseWhenMatched call.whenMatched = .ok m ∧
          parseWhenNotMatched call.whenNotMatched = .ok n ∧
          ds'.rows.Perm (mergeRows keysMatch onColumns m n ds.rows (call.written rows))) ∧
        ∀ row, result = .ok row → rows = call.source.rows := by
    rintro typeOverrides context ⟨inner, store⟩ htypes hcall rfl rfl
    have hwritten : ∀ rows, call.written rows =
        writtenRows call.env call.source.columns typeOverrides rows := by
      intro rows
      simp only [written, htypes]
    rw [hwritten] at hkeys
    obtain ⟨rows, ds', hfirst, hstore, hrows, hreports⟩ :=
      lanceMergeInsertImplInner_rows hl hkeys hcall
    rw [← hwritten] at hrows
    refine ⟨rows, ds', hfirst, hstore, hrows, ?_⟩
    intro row hrow
    cases inner with
    | error e => cases hrow
    | ok report => exact (hreports report rfl).1
  cases htypes : call.columnTypes with
  | none =>
    simp only [run, htypes, lanceMergeInsert, lanceMergeInsertImpl, Prod.mk.injEq] at h
    exact hinner none _ _ (by rw [typeOverrides, htypes]) rfl h.1.symm h.2.symm
  | some columnTypes =>
    cases hparse : parseArrowTypeOverrides columnTypes with
    | error e =>
      simp only [run, htypes, lanceMergeInsertWithSchema, hparse, Prod.mk.injEq] at h
      refine ⟨[], ds, List.nil_prefix, h.2.symm, .inl ⟨rfl, rfl⟩, ?_⟩
      intro row hrow
      rw [hrow] at h
      cases h.1
    | ok overrides =>
      simp only [run, htypes, lanceMergeInsertWithSchema, hparse, lanceMergeInsertWithSchemaImpl,
        Prod.mk.injEq] at h
      exact hinner (some overrides) _ _ (by rw [typeOverrides, htypes]; simp [hparse, Except.map])
        rfl h.1.symm h.2.symm

theorem run_lookup {keysMatch : List Value → List Value → Bool}
    (hl : call.lance.LawfulMerge keysMatch)
    (hkeys : ((call.written call.source.rows).map (keyOf onColumns)).Nodup)
    (hnulls : ∀ row ∈ call.written call.source.rows, .null ∉ keyOf onColumns row) {ds : Dataset}
    (hds : (ds.rows.map (keyOf onColumns)).Nodup) {result : Except Failure MergeRow}
    {after : Option Dataset} (h : call.run onColumns (some ds) = (result, after)) :
    ∃ rows ds', rows <+: call.source.rows ∧ after = some ds' ∧
      (∀ row, result = .ok row → rows = call.source.rows) ∧
      (ds'.rows.map (keyOf onColumns)).Nodup ∧
      Upsert.lookup (keyOf onColumns) ds'.rows =
        call.putAll onColumns rows (Upsert.lookup (keyOf onColumns) ds.rows) := by
  obtain ⟨rows, ds', hfirst, hafter, hrows, hall⟩ := run_rows hl hkeys h
  refine ⟨rows, ds', hfirst, hafter, hall, ?_⟩
  rcases hrows with ⟨rfl, rfl⟩ | ⟨m, n, hm, hn, hperm⟩
  · exact ⟨hds, (putAll_nil _).symm⟩
  · obtain ⟨rest, hrest⟩ := hfirst
    rw [← hrest, written_append] at hkeys hnulls
    rw [List.map_append] at hkeys
    have hself : ∀ row ∈ call.written rows,
        keysMatch (keyOf onColumns row) (keyOf onColumns row) = true := fun row hrow =>
      hl.match_self (hnulls row (List.mem_append_left _ hrow))
    have hmerged := Upsert.nodup_merge hl.match_eq hself hds hkeys.of_append_left
      (m == .updateAll) (n == .insertAll)
    refine ⟨(hperm.map _).nodup_iff.mpr hmerged, ?_⟩
    funext k
    rw [Upsert.lookup_perm hperm ((hperm.map _).nodup_iff.mpr hmerged), mergeRows,
      Upsert.lookup_merge hl.match_eq hself hds hkeys.of_append_left, parseWhenMatched_ok hm,
      parseWhenNotMatched_ok hn, putAll]

end MergeCall

/-- A run of merges on distinct keys is a run of puts: whatever fails, keys stay distinct, and under
each key stands what the rows that were merged, some first ones of each source and all of a call
that returned, put there in the order of the calls. -/
theorem runMerges_lookup (onColumns : List String) (calls : List (MergeCall Raw)) (ds : Dataset)
    (keysMatch : List Value → List Value → Bool)
    (hl : ∀ call ∈ calls, call.lance.LawfulMerge keysMatch)
    (hkeys : ∀ call ∈ calls, ((call.written call.source.rows).map (keyOf onColumns)).Nodup)
    (hnulls : ∀ call ∈ calls, ∀ row ∈ call.written call.source.rows, .null ∉ keyOf onColumns row)
    (hds : (ds.rows.map (keyOf onColumns)).Nodup) :
    ∃ ds' merged, (runMerges onColumns calls (some ds)).2 = some ds' ∧
      List.Forall₂ (fun p rows => rows <+: p.1.source.rows ∧
          ∀ row, p.2 = .ok row → rows = p.1.source.rows)
        (calls.zip (runMerges onColumns calls (some ds)).1) merged ∧
      (ds'.rows.map (keyOf onColumns)).Nodup ∧
      Upsert.lookup (keyOf onColumns) ds'.rows =
        (calls.zip merged).foldl (fun entries p => p.1.putAll onColumns p.2 entries)
          (Upsert.lookup (keyOf onColumns) ds.rows) := by
  induction calls generalizing ds with
  | nil => exact ⟨ds, [], rfl, .nil, hds, rfl⟩
  | cons call calls ih =>
    rw [List.forall_mem_cons] at hl hkeys hnulls
    cases hrun : call.run onColumns (some ds) with
    | mk result after =>
      obtain ⟨rows, ds₁, hfirst, rfl, hall, hnodup, hlookup⟩ :=
        MergeCall.run_lookup hl.1 hkeys.1 hnulls.1 hds hrun
      obtain ⟨ds', merged, hstore, hmerged, hnodup', hlookup'⟩ :=
        ih ds₁ hl.2 hkeys.2 hnulls.2 hnodup
      refine ⟨ds', rows :: merged, ?_, ?_, hnodup', ?_⟩
      · simp only [runMerges, hrun, hstore]
      · simp only [runMerges, hrun, List.zip_cons_cons]
        exact .cons ⟨hfirst, hall⟩ hmerged
      · rw [hlookup', hlookup, List.zip_cons_cons, List.foldl_cons]

def sampleMerges : List (MergeCall Int) :=
  [⟨.sample ⟨0, 2, true⟩, .sample, .sample fun n => if n = 1 then some "fault" else none, "/d",
      .sample [1, 2, 7] none (by decide), none, "update", "insert", 2, none⟩,
    ⟨.sample ⟨0, 2, true⟩, .sample, .sample fun _ => none, "/d", .sample [2, 4] none (by decide),
      none, "nothing", "insert", 2, none⟩]

theorem runMerges_lookup_sample :
    (runMerges ["id"] sampleMerges (some (.sample [5, 1]))).2 = some (.sample [5, 1, 2, 4]) ∧
    ∃ ds' merged, (runMerges ["id"] sampleMerges (some (.sample [5, 1]))).2 = some ds' ∧
      List.Forall₂ (fun p rows => rows <+: p.1.source.rows ∧
          ∀ row, p.2 = .ok row → rows = p.1.source.rows)
        (sampleMerges.zip (runMerges ["id"] sampleMerges (some (.sample [5, 1]))).1) merged ∧
      (ds'.rows.map (keyOf ["id"])).Nodup ∧
      Upsert.lookup (keyOf ["id"]) ds'.rows =
        (sampleMerges.zip merged).foldl (fun entries p => p.1.putAll ["id"] p.2 entries)
          (Upsert.lookup (keyOf ["id"]) (Dataset.sample [5, 1]).rows) := by
  refine ⟨by decide +kernel,
    runMerges_lookup ["id"] sampleMerges (.sample [5, 1]) sampleKeysMatch ?_ ?_ ?_ (by decide)⟩
  · simp [sampleMerges, Lance.sample_lawfulMerge]
  · decide +kernel
  · decide +kernel

end PgLance
