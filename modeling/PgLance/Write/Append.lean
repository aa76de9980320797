import PgLance.Write.PgToArrow
import PgLance.Write.Storage

/-! `lance_append`: the first chunk is written in the requested mode, later chunks append. -/

namespace PgLance

variable {Raw : Type}

structure AppendState where
  first : Bool
  store : Option Dataset
  writes : Nat
  deriving DecidableEq

def storeParams (storageOpts : StorageOptions) : Option StorageOptions :=
  if storageOpts.isEmpty then none else some storageOpts

def appendChunk (host : Host) (lance : Lance) (uri mode : String) (serverName : Option String)
    (storageOpts : StorageOptions) : Handler AppendState := fun schema batches st =>
  if batches.isEmpty then (.ok (), st)
  else
    let writeMode : WriteMode :=
      if st.first then
        match mode with
        | "create" => .create
        | "overwrite" => .overwrite
        | _ => .append
      else .append
    let opened : Except String Unit :=
      if st.first ∧ mode = "append" then
        (openDataset host lance uri serverName st.store).map fun _ => ()
      else .ok ()
    match opened with
    | .error e => (.error (.returned e), st)
    | .ok () =>
      match lance.writeNth st.writes ⟨writeMode, storeParams storageOpts⟩ st.store schema
          batches with
      | (.error e, store) =>
        (.error (.returned ("lance write failed: " ++ e)), ⟨st.first, store, st.writes + 1⟩)
      | (.ok (), store) => (.ok (), ⟨false, store, st.writes + 1⟩)

def asI64 (n : Nat) : Int := (n : Int).bmod (2 ^ 64)

def lanceAppendImpl (env : Env Raw) (host : Host) (lance : Lance) (uri : String)
    (source : ResultSet Raw) (mode : String) (batchSize : Nat) (serverName : Option String)
    (store : Option Dataset) : Except Failure (Int × Int) × Option Dataset :=
  if mode = "create" ∨ mode = "append" ∨ mode = "overwrite" then
    match host.runtimeNew with
    | .error e => (.error (.returned ("failed to create tokio runtime: " ++ e)), store)
    | .ok () =>
      match storageOptionsVec host serverName with
      | .error e => (.error (.returned e), store)
      | .ok storageOpts =>
        let chunkRows := env.settings.writeChunkRows
        let (totalRows, st) := forEachSpiChunk env source batchSize chunkRows
          (appendChunk host lance uri mode serverName storageOpts) ⟨true, store, 0⟩
        (totalRows.map fun totalRows => (asI64 totalRows, host.elapsedMs), st.store)
  else
    (.error (.returned ("invalid mode '" ++ mode ++
      "': must be 'create', 'append', or 'overwrite'")), store)

/-- `pgrx::error!` raises what an entry point is returned. -/
def raiseError (context : String) : Failure → Failure
  | .returned message => .raised (context ++ message)
  | failure => failure

def lanceAppend (env : Env Raw) (host : Host) (lance : Lance) (uri : String)
    (source : ResultSet Raw) (mode : String) (batchSize : Int) (serverName : Option String)
    (store : Option Dataset) : Except Failure (Int × Int) × Option Dataset :=
  let (result, store) := lanceAppendImpl env host lance uri source mode (i32AsUsize batchSize)
    serverName store
  (result.mapError (raiseError "lance_append failed: "), store)

end PgLance
