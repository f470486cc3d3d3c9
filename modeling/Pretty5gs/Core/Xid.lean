import Pretty5gs.Core.Types

/-
  Allocation of transaction identifiers from a counter.

  The counter of a thread is advanced either over the whole range of a protocol or, when protocol
  shards are active, inside the window of the thread's shard.
-/

---- Shards ----

namespace Pretty5gs

/- `OGS_WORKER_ID_BITS` -/
abbrev ogsWorkerIdBits : Nat := 4

/- `OGS_MAX_WORKERS` -/
abbrev ogsMaxWorkers : Nat := 16

instance neZeroMaxWorkers : @NeZero Nat Zero.ofOfNat0 ogsMaxWorkers := ⟨by decide⟩

/-
  The calling thread: whether protocol shards are active and its shard id, which `ogs_worker_create`
  keeps below `OGS_MAX_WORKERS`.
-/
structure Worker where
  shardsActive : Bool
  selfId : Fin ogsMaxWorkers
deriving DecidableEq, Repr

---- Counters ----

/- `OGS_NEXT_ID`: wrap only on equality with the maximum. -/
def ogsNextId (id min max : U32) : U32 := if id = max then min else id + 1

/- `xact_next_xid`: the allocated identifier together with the new value of the thread's counter. -/
def xactNextXid (worker : Worker) (counter min max : U32) : U32 × U32 :=
  if worker.shardsActive then
    let span := (max - min + 1) >>> ogsWorkerIdBits
    let base := BitVec.ofNat 32 worker.selfId * span
    let next := (counter + 1) % span
    -- Only shard 0 can go below the minimum.
    let next := if base + next < min then min - base else next
    (base + next, next)
  else
    let next := ogsNextId counter min max
    (next, next)

end Pretty5gs
