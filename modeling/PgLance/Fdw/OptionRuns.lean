import PgLance.Fdw.CompositeRuns
import PgLance.Fdw.Options

/-! What the foreign tables read that imports, attaches and syncs made. -/

namespace PgLance

theorem stripPlus_of_ne {cs : List Char} (h : cs.head? ≠ some '+') : stripPlus cs = cs := by
  unfold stripPlus
  split
  · exact absurd rfl h
  · rfl

theorem usizeParse_digits {digits : List Char} (hdigits : ∀ c ∈ digits, c.isDigit = true)
    (hne : digits ≠ []) : usizeParse (String.ofList digits) =
      if Decimal.Literal.natValue digits ≤ usizeMax then
        some (Decimal.Literal.natValue digits) else none := by
  have hplus : digits.head? ≠ some '+' := by
    intro hhead
    exact absurd (hdigits '+' (List.mem_of_mem_head? hhead)) (by decide)
  have hall : digits.all Char.isDigit = true := List.all_eq_true.mpr hdigits
  have hempty : digits.isEmpty = false := by simpa using hne
  simp only [usizeParse, String.toList_ofList, stripPlus_of_ne hplus, hall, hempty, Bool.not_true,
    Bool.or_self, Bool.false_eq_true, if_false]

theorem usizeParse_toString (n : Int) :
    usizeParse (toString n) = if 0 ≤ n ∧ n ≤ usizeMax then some n.toNat else none := by
  cases n with
  | ofNat n =>
    have htext : toString (Int.ofNat n) = String.ofList (Nat.toDigits 10 n) := rfl
    rw [htext, usizeParse_digits]
    · simp [Decimal.Literal.natValue_toDigits]
    · exact fun c hc => Nat.isDigit_of_mem_toDigits (by decide) (by decide) hc
    · exact Nat.toDigits_ne_nil
  | negSucc n =>
    have htext : toString (Int.negSucc n) = "-" ++ (n + 1).repr := rfl
    have hminus : (toString (Int.negSucc n)).toList = '-' :: (n + 1).repr.toList := by
      simp [htext, String.toList_append]
    have hdigits : stripPlus (toString (Int.negSucc n)).toList = '-' :: (n + 1).repr.toList := by
      rw [hminus]
      exact stripPlus_of_ne (by simp)
    have hdigit : Char.isDigit '-' = false := by decide
    have hnot : ¬ (0 ≤ Int.negSucc n ∧ Int.negSucc n ≤ usizeMax) := by omega
    simp only [usizeParse, hdigits, hnot, List.all_cons, hdigit, Bool.false_and, Bool.not_false,
      Bool.or_true, if_true, if_false]

/-- The batch size of a table that was made with one, or without. -/
def madeBatchSize (serverOptions : List (String × String)) : Option Int → Nat
  | some n => if 0 ≤ n ∧ n ≤ usizeMax then n.toNat else 1024
  | none => ((parseDefelemList serverOptions)[optBatchSize]?.bind usizeParse).getD 1024

theorem storedOptions_mapM (options : List (String × String)) :
    (storedOptions options).mapM defGetString =
      .ok (options.map fun option => (truncateIdentifier option.1, option.2)) := by
  rw [storedOptions, List.mapM_map]
  induction options with
  | nil => rfl
  | cons option options ih =>
    rw [List.mapM_cons, ih]
    rfl

theorem truncateIdentifier_opt : truncateIdentifier optUri = optUri ∧
    truncateIdentifier optBatchSize = optBatchSize ∧
    truncateIdentifier optNsTableId = optNsTableId := by
  decide

section

variable {tableIdFromJson : String → Except String TableId} {σ : LocalCatalog} {place : QualName}
  {rel : Relation} {server : String} {serverOptions : List (String × String)}

theorem tableOptions_batchSize (name value : String) (hname : name ≠ optBatchSize)
    (batchSize : Option Int) (serverOptions : List (String × String)) :
    batchSizeOf (parseDefelemList serverOptions)
        (parseDefelemList ((name, value) :: batchSizeOption batchSize)) =
      madeBatchSize serverOptions batchSize := by
  cases batchSize with
  | none =>
    simp [batchSizeOf, madeBatchSize, batchSizeOption, parseDefelemList,
      hname]
  | some n =>
    simp only [batchSizeOf, madeBatchSize, batchSizeOption, parseDefelemList, List.foldl_cons,
      List.foldl_nil, Std.TreeMap.getElem?_insert_self, Option.some_or, Option.bind_some,
      usizeParse_toString]
    split <;> rfl

theorem parsed_made {name : String} (hname : truncateIdentifier name = name) (value : String)
    (batchSize : Option Int) :
    (storedOptions ((name, value) :: batchSizeOption batchSize)).mapM defGetString =
      .ok ((name, value) :: batchSizeOption batchSize) := by
  rw [storedOptions_mapM]
  cases batchSize <;> simp [batchSizeOption, hname, truncateIdentifier_opt.2.1]

theorem made_get (name value : String) (batchSize : Option Int) {key : String}
    (hkey : key ≠ optBatchSize) :
    (parseDefelemList ((name, value) :: batchSizeOption batchSize))[key]? =
      if name = key then some value else none := by
  have hget : ((∅ : Std.TreeMap String String).insert name value)[key]? =
      if name = key then some value else none := by
    rw [Std.TreeMap.getElem?_insert]
    by_cases heq : name = key <;> simp [heq]
  cases batchSize with
  | none => exact hget
  | some n =>
    rw [batchSizeOption, parseDefelemList, List.foldl_cons, List.foldl_cons, List.foldl_nil,
      Std.TreeMap.getElem?_insert, if_neg, hget]
    simpa using Ne.symm hkey

theorem fromForeignTable_import (hrel : σ.relations[place]? = some rel) {uri : String}
    {batchSize : Option Int} (hkind : rel.kind = .foreignTable server
      (storedOptions ((optUri, uri) :: batchSizeOption batchSize)))
    (hserver : σ.servers.lookup server = some serverOptions) :
    LanceFdwOptions.fromForeignTable tableIdFromJson σ place =
      .ok ⟨.uri uri, madeBatchSize serverOptions batchSize⟩ := by
  have hbatch := tableOptions_batchSize optUri uri (by decide) batchSize serverOptions
  have hid : (parseDefelemList ((optUri, uri) :: batchSizeOption batchSize))[optNsTableId]? =
      none := by
    rw [made_get optUri uri batchSize (by decide), if_neg (by decide)]
  have huri : (parseDefelemList ((optUri, uri) :: batchSizeOption batchSize))[optUri]? =
      some uri := by
    rw [made_get optUri uri batchSize (by decide), if_pos rfl]
  simp only [LanceFdwOptions.fromForeignTable, hrel, Option.map_some, hkind, hserver,
    parsed_made truncateIdentifier_opt.1]
  simp only [Functor.map, Except.map, Bind.bind, Except.bind, hbatch, hid, huri, Option.some_or,
    pure, Except.pure]

theorem fromForeignTable_attach (hrel : σ.relations[place]? = some rel) {ctx : AttachContext}
    {tableId : TableId} (hkind : rel.kind = .foreignTable server
      (storedOptions (attachOptions ctx tableId)))
    (hserver : σ.servers.lookup server = some serverOptions)
    (hround : tableIdFromJson (ctx.env.tableIdToJson tableId) = .ok tableId)
    (hne : tableId ≠ []) :
    LanceFdwOptions.fromForeignTable tableIdFromJson σ place =
      .ok ⟨.namespaced server tableId, madeBatchSize serverOptions ctx.batchSize⟩ := by
  have hbatch := tableOptions_batchSize optNsTableId (ctx.env.tableIdToJson tableId) (by decide)
    ctx.batchSize serverOptions
  have hid : (parseDefelemList (attachOptions ctx tableId))[optNsTableId]? =
      some (ctx.env.tableIdToJson tableId) := by
    rw [attachOptions, made_get optNsTableId _ ctx.batchSize (by decide), if_pos rfl]
  have hempty : tableId.isEmpty = false := by simpa using hne
  simp only [LanceFdwOptions.fromForeignTable, hrel, Option.map_some, hkind, hserver,
    attachOptions, parsed_made truncateIdentifier_opt.2.2]
  rw [attachOptions] at hid
  simp only [Functor.map, Except.map, Bind.bind, Except.bind, hbatch, hid, hround, hempty,
    Bool.false_eq_true, if_false, pure, Except.pure]

end

theorem splitOnce_append {sep : Char} {k : List Char} (h : sep ∉ k) (v : List Char) :
    splitOnce sep (k ++ sep :: v) = some (k, v) := by
  induction k with
  | nil => simp [splitOnce]
  | cons c k ih =>
    rw [List.mem_cons, not_or] at h
    simp [splitOnce, Ne.symm h.1, ih h.2]

def validate (options : List (String × String)) : Except Failure Unit :=
  lanceFdwValidator (options.map fun option => option.1 ++ "=" ++ option.2)

theorem validate_made {name : String} (hname : name = optUri ∨ name = optNsTableId)
    (value : String) (batchSize : Option Int) :
    validate ((name, value) :: batchSizeOption batchSize) = .ok () := by
  have hsplit : ∀ k v : String, '=' ∉ k.toList → splitOnce '=' (k ++ "=" ++ v).toList =
      some (k.toList, v.toList) := by
    intro k v hk
    simpa [String.toList_append] using splitOnce_append hk v.toList
  have hfirst : ∀ k : String, k = optUri ∨ k = optBatchSize ∨ k = optNsTableId → '=' ∉ k.toList ∧
      (k.toList = "uri".toList ∨ k.toList = "batch_size".toList ∨
        "aws_".toList.isPrefixOf k.toList = true ∨ "s3_".toList.isPrefixOf k.toList = true ∨
        "ns.".toList.isPrefixOf k.toList = true) := by
    rintro k (rfl | rfl | rfl) <;> decide
  rw [validate, lanceFdwValidator, Fallible.forM_ok_iff, List.forall_mem_map]
  intro option hoption
  have hopt : option.1 = optUri ∨ option.1 = optBatchSize ∨ option.1 = optNsTableId := by
    cases List.mem_cons.mp hoption with
    | inl heq =>
      rw [heq]
      exact hname.imp_right .inr
    | inr hrest =>
      cases batchSize with
      | none => cases hrest
      | some n =>
        rw [List.mem_singleton.mp hrest]
        exact .inr (.inl rfl)
  obtain ⟨hsep, hsupported⟩ := hfirst option.1 hopt
  simp only [hsplit option.1 option.2 hsep, hsupported, if_true]

/-- What a call asks a foreign table to read: a source with its fields, and a batch size. -/
def CatalogCall.Asks (σ : LocalCatalog) :
    CatalogCall → TableRequest → LanceDatasetSource → Option Int → Prop
  | importTable env serverName localSchema tableName uri batchSize, request, source, size =>
    request.server = serverName ∧ request.place = ⟨localSchema, tableName⟩ ∧
      env.openDataset uri = .ok request.fields ∧ source = .uri uri ∧ size = batchSize
  | attach env serverName rootNamespaceId schemaPrefix batchSize limitPerListCall dryRun, request,
      source, size =>
    dryRun = false ∧ request.server = serverName ∧ ∃ tableIds, ∃ id ∈ tableIds,
      listTableIds env.remote rootNamespaceId limitPerListCall = .ok tableIds ∧
      localPlace schemaPrefix id = .ok request.place ∧
      env.remote.load .attach id = .ok request.fields ∧ source = .namespaced serverName id ∧
      size = batchSize
  | sync ctx rootNamespaceId schemaPrefix, request, source, size =>
    ctx.dryRun = false ∧ request.server = ctx.serverName ∧ ∃ tableIds, ∃ id ∈ tableIds,
      listTableIds ctx.env.remote rootNamespaceId defaultLimitPerListCall = .ok tableIds ∧
      localPlace schemaPrefix id = .ok request.place ∧
      ctx.env.remote.load .attach id = .ok request.fields ∧
      source = .namespaced ctx.serverName id ∧
      size = (introspectLocalNamespaceTables ctx.env ctx.serverName rootNamespaceId σ).1[id]?.bind
        LocalNamespaceTable.batchSize

/-- The ids of the tables that a call lists are read back as it writes them. -/
def CatalogCall.WritesIds (tableIdFromJson : String → Except String TableId) : CatalogCall → Prop
  | importTable _ _ _ _ _ _ => True
  | attach env _ rootNamespaceId _ _ limitPerListCall _ => ∀ tableIds,
    listTableIds env.remote rootNamespaceId limitPerListCall = .ok tableIds →
      ∀ id ∈ tableIds, tableIdFromJson (env.tableIdToJson id) = .ok id
  | sync ctx rootNamespaceId _ => ∀ tableIds,
    listTableIds ctx.env.remote rootNamespaceId defaultLimitPerListCall = .ok tableIds →
      ∀ id ∈ tableIds, tableIdFromJson (ctx.env.tableIdToJson id) = .ok id

theorem localPlace_ne_nil {schemaPrefix : String} {id : TableId} {place : QualName}
    (h : localPlace schemaPrefix id = .ok place) : id ≠ [] := by
  rintro rfl
  cases h

theorem CatalogCall.asks_of_makes {tableIdFromJson : String → Except String TableId}
    {call : CatalogCall} {σ σ' : LocalCatalog} {request : TableRequest} {c : Creation}
    {name : QualName} {rel : Relation} {serverOptions : List (String × String)}
    (hround : call.WritesIds tableIdFromJson) (h : call.Makes σ request)
    (hrel : σ'.relations[name]? = some rel) (hholds : request.Holds c name rel σ')
    (hserver : σ'.servers.lookup request.server = some serverOptions) :
    validate request.options = .ok () ∧ ∃ source batchSize, call.Asks σ request source batchSize ∧
      LanceFdwOptions.fromForeignTable tableIdFromJson σ' name =
        .ok ⟨source, madeBatchSize serverOptions batchSize⟩ := by
  have hkind := hholds.kind
  cases call with
  | importTable env serverName localSchema tableName uri batchSize =>
    obtain ⟨hfields, hname, hplace, hoptions⟩ := h
    rw [hoptions] at hkind ⊢
    exact ⟨validate_made (.inl rfl) uri batchSize, .uri uri, batchSize,
      ⟨hname, hplace, hfields, rfl, rfl⟩, fromForeignTable_import hrel hkind hserver⟩
  | attach env serverName rootNamespaceId schemaPrefix batchSize limitPerListCall dryRun =>
    obtain ⟨hdry, hname, tableIds, mapping, id, hmap, hentry, hload, hoptions⟩ := h
    obtain ⟨hlisted, hcovers⟩ := mapNamespace_ok hmap
    obtain ⟨hplace, hid⟩ := hcovers.place id request.place hentry
    rw [hoptions] at hkind ⊢
    have hread := fromForeignTable_attach hrel hkind hserver (hround tableIds hlisted id hid)
      (localPlace_ne_nil hplace)
    rw [hname] at hread
    exact ⟨validate_made (.inr rfl) _ batchSize, .namespaced serverName id, batchSize,
      ⟨hdry, hname, tableIds, id, hid, hlisted, hplace, hload, rfl, rfl⟩, hread⟩
  | sync ctx rootNamespaceId schemaPrefix =>
    obtain ⟨hdry, hname, tableIds, mapping, id, hmap, hentry, hload, hoptions⟩ := h
    obtain ⟨hlisted, hcovers⟩ := mapNamespace_ok hmap
    obtain ⟨hplace, hid⟩ := hcovers.place id request.place hentry
    rw [hoptions] at hkind ⊢
    have hread := fromForeignTable_attach hrel hkind hserver (hround tableIds hlisted id hid)
      (localPlace_ne_nil hplace)
    rw [hname] at hread
    exact ⟨validate_made (.inr rfl) _ _, .namespaced ctx.serverName id, _,
      ⟨hdry, hname, tableIds, id, hid, hlisted, hplace, hload, rfl, rfl⟩, hread⟩

/-- In every run, the options of a foreign table are those it had at the start, or name the source
and the batch size that a call asked for, and pass the validator. -/
theorem runCalls_options {tableIdFromJson : String → Except String TableId}
    (calls : List CatalogCall) (σ : LocalCatalog)
    (hround : ∀ call ∈ calls, call.WritesIds tableIdFromJson) :
    let σ' := (runCalls calls ⟨σ, [], []⟩).catalog
    ∀ (name : QualName) rel server options, σ'.relations[name]? = some rel →
      rel.kind = .foreignTable server options →
      (σ.relations[name]? = some rel ∧
        LanceFdwOptions.fromForeignTable tableIdFromJson σ' name =
          LanceFdwOptions.fromForeignTable tableIdFromJson σ name) ∨
      ∃ before call after request source batchSize serverOptions,
        calls = before ++ call :: after ∧
        call.Asks (runCalls before ⟨σ, [], []⟩).catalog request source batchSize ∧
        name = .stored request.place.schema request.place.name ∧
        options = storedOptions request.options ∧ validate request.options = .ok () ∧
        σ'.servers.lookup request.server = some serverOptions ∧
        LanceFdwOptions.fromForeignTable tableIdFromJson σ' name =
          .ok ⟨source, madeBatchSize serverOptions batchSize⟩ := by
  intro σ' name rel server options hrel hkind
  rcases (accounted_runCalls calls σ).tables name rel server options hrel hkind with
    hold | ⟨request, ⟨before, call, after, rfl, hmakes⟩, c, hc, hholds⟩
  · refine .inl ⟨hold, ?_⟩
    have hservers := (Keeps.of_reaches (runCalls_reaches calls ⟨σ, [], []⟩)).servers
    simp only [LanceFdwOptions.fromForeignTable, hold, hrel, hservers, σ']
  · obtain ⟨serverOptions, hserver⟩ := Option.isSome_iff_exists.mp hholds.server
    obtain ⟨hvalid, source, batchSize, hasks, hoptions⟩ :=
      CatalogCall.asks_of_makes (hround call (by simp)) hmakes hrel hholds hserver
    have hname : name = .stored request.place.schema request.place.name := by
      rw [← hholds.place, Creation.place, hholds.schema, hholds.table]
    rw [hholds.kind] at hkind
    cases hkind
    exact .inr ⟨before, call, after, request, source, batchSize, serverOptions, rfl, hasks, hname,
      rfl, hvalid, hserver, hoptions⟩

def clashingRun : List CatalogCall :=
  [.attach clashingEnv "srv" [] "lance" (some 64) 1 false]

theorem clashingRun_table :
    (runCalls clashingRun ⟨.sample, [], []⟩).catalog.relations[
      (⟨"lance", "t"⟩ : QualName)]?.map Relation.kind = some (.foreignTable "srv"
        [("ns.table_id", some "[\"t\"]"), ("batch_size", some "64")]) := by
  decide +kernel

theorem runCalls_options_sample : ∃ rel,
    (runCalls clashingRun ⟨.sample, [], []⟩).catalog.relations[(⟨"lance", "t"⟩ : QualName)]? =
      some rel ∧
    ∃ before call after request source batchSize serverOptions,
      clashingRun = before ++ call :: after ∧
      call.Asks (runCalls before ⟨.sample, [], []⟩).catalog request source batchSize ∧
      ⟨"lance", "t"⟩ = QualName.stored request.place.schema request.place.name ∧
      [("ns.table_id", some "[\"t\"]"), ("batch_size", some "64")] =
        storedOptions request.options ∧
      validate request.options = .ok () ∧
      (runCalls clashingRun ⟨.sample, [], []⟩).catalog.servers.lookup request.server =
        some serverOptions ∧
      LanceFdwOptions.fromForeignTable clashingEnv.tableIdFromJson
          (runCalls clashingRun ⟨.sample, [], []⟩).catalog ⟨"lance", "t"⟩ =
        .ok ⟨source, madeBatchSize serverOptions batchSize⟩ := by
  obtain ⟨rel, hrel, hkind⟩ := Option.map_eq_some_iff.mp clashingRun_table
  refine ⟨rel, hrel, ?_⟩
  have hround : ∀ call ∈ clashingRun, call.WritesIds clashingEnv.tableIdFromJson := by
    intro call hcall
    rw [List.mem_singleton.mp hcall]
    intro tableIds hlists
    rw [clashingEnv_lists] at hlists
    cases hlists
    decide
  rcases runCalls_options clashingRun .sample hround _ rel "srv" _ hrel hkind with
    ⟨hold, -⟩ | hmade
  · have hnone : LocalCatalog.sample.relations[(⟨"lance", "t"⟩ : QualName)]? = none := by decide
    rw [hnone] at hold
    cases hold
  · exact hmade

end PgLance
