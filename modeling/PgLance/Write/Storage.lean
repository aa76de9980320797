import PgLance.Lance

/-! Storage options of a foreign server, and what else the write functions take from the
PostgreSQL server they run in. -/

namespace PgLance

structure Host where
  runtimeNew : Except String Unit
  getForeignServerByName : String → Option (List (String × String))
  elapsedMs : Int

def Host.sample : Host := ⟨.ok (), fun _ => none, 0⟩

def parseDefelemList (list : List (String × String)) : Std.TreeMap String String :=
  list.foldl (fun out (name, value) => out.insert name value) ∅

def resolveStorageOptions (host : Host) (serverName : String) :
    Except String (Std.TreeMap String String) :=
  if serverName.contains '\x00' then .error "invalid server name"
  else
    match host.getForeignServerByName serverName with
    | none => .error ("foreign server '" ++ serverName ++ "' not found")
    | some options =>
      .ok ((parseDefelemList options).filter fun k _ =>
        k.startsWith "aws_" || k.startsWith "s3_")

def loadDataset (lance : Lance) (uri : String) (store : Option Dataset)
    (storageOpts : Std.TreeMap String String) : Except String Dataset :=
  (lance.load storageOpts.toList store).mapError fun e =>
    "failed to open dataset '" ++ uri ++ "': " ++ e

def openDataset (host : Host) (lance : Lance) (uri : String) (serverName : Option String)
    (store : Option Dataset) : Except String Dataset :=
  match serverName with
  | some name => resolveStorageOptions host name >>= loadDataset lance uri store
  | none => loadDataset lance uri store ∅

def storageOptionsVec (host : Host) (serverName : Option String) :
    Except String StorageOptions :=
  match serverName with
  | some name => do
    let opts ← resolveStorageOptions host name
    return opts.toList
  | none => .ok []

theorem loadDataset_ok {lance : Lance} (hl : lance.LawfulLoad) {uri : String}
    {store : Option Dataset} {storageOpts : Std.TreeMap String String} {dataset : Dataset}
    (h : loadDataset lance uri store storageOpts = .ok dataset) : store = some dataset := by
  cases hload : lance.load storageOpts.toList store with
  | error e => simp [loadDataset, hload, Except.mapError] at h
  | ok d =>
    simp only [loadDataset, hload, Except.mapError, Except.ok.injEq] at h
    rw [← h]
    exact hl _ _ _ hload

theorem openDataset_ok {host : Host} {lance : Lance} (hl : lance.LawfulLoad) {uri : String}
    {serverName : Option String} {store : Option Dataset} {dataset : Dataset}
    (h : openDataset host lance uri serverName store = .ok dataset) : store = some dataset := by
  cases serverName with
  | none => exact loadDataset_ok hl h
  | some name =>
    cases hopts : resolveStorageOptions host name with
    | error e => rw [openDataset, hopts] at h; cases h
    | ok opts =>
      rw [openDataset, hopts] at h
      exact loadDataset_ok hl h

end PgLance
