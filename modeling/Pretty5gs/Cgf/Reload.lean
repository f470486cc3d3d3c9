import Pretty5gs.Library.Transition
import Pretty5gs.Cgf.Pipeline

/-
  The events of a drain, and the reload of the peer table.

  A reload on the main thread puts the peers that stay into their new slots with their sockets and
  transactions, and closes the others. With workers, the threads are stopped and started again on
  the new table.
-/

---- Reload ----

namespace Pretty5gs.Cgf

/- `cgf_hot_peer_t` -/
structure HotPeer where
  host : List UInt8
  port : U16
  isPrimary : Bool
deriving DecidableEq, Repr

/- `cgf_hot_config_t` -/
structure HotConfig where
  echoIntervalS : Nat
  requestRtoMs : Nat
  requestRetries : Nat
  failoverAfterMissedEchoes : Nat
  maxRecordsPerPacket : Nat
  maxBytesPerPacket : Nat
  maxInflight : Nat
  peers : List HotPeer
deriving DecidableEq, Repr

/- Zero keeps the value, except for the retries. -/
def HotConfig.apply (hot : HotConfig) (cfg : Config) : Config :=
  let pick := fun new old : Nat => if new = 0 then old else new
  { cfg with
    echoIntervalS := pick hot.echoIntervalS cfg.echoIntervalS
    requestRtoMs := pick hot.requestRtoMs cfg.requestRtoMs
    requestRetries := hot.requestRetries
    failoverAfterMissedEchoes :=
      pick hot.failoverAfterMissedEchoes
        cfg.failoverAfterMissedEchoes
    maxRecordsPerPacket := pick hot.maxRecordsPerPacket cfg.maxRecordsPerPacket
    maxBytesPerPacket := pick hot.maxBytesPerPacket cfg.maxBytesPerPacket
    maxInflight := pick hot.maxInflight cfg.maxInflight }

def HotPeer.role (hp : HotPeer) : Role := if hp.isPrimary then .primary else .secondary

/- The locals of the loop, with where a slot comes from. -/
structure Reload where
  old : Slot → Peer
  peers : Slot → Peer
  num : Nat
  nextEndpoint : Endpoint
  origin : Slot → Option Slot

/- `find_matching_old_peer` -/
def findMatchingOldPeer (hp : HotPeer) (old : Slot → Peer) (oldN : Nat) : Option Slot :=
  (List.finRange maxPeers).find? (fun j =>
    decide (j.val < oldN) && (old j).host != [] &&
      (old j).port == hp.port && (old j).host == hp.host)

/-
  A round of the loop of `cgf_gtpp_apply_runtime`. A slot that stays empty is not counted, but keeps
  its place.
-/
def reinstate (oldN : Nat) (dials : Slot → Dial) (r : Reload) (entry : Slot × HotPeer) : Reload :=
  let i := entry.1
  let hp := entry.2
  if hp.host = [] then r
  else
    match findMatchingOldPeer hp r.old oldN with
    | some j =>
        { r with
          old := Function.update r.old j Peer.zero
          peers :=
            Function.update r.peers i
              { r.old j with role := hp.role }
          num := r.num + 1
          origin := Function.update r.origin i (some j) }
    | none =>
        match dials i with
        | .ok =>
            { r with
              peers :=
                Function.update r.peers i
                  { Peer.zero with
                    host := hp.host
                    port := if hp.port = 0 then 3386 else hp.port
                    role := hp.role
                    sock := some r.nextEndpoint }
              num := r.num + 1
              nextEndpoint := r.nextEndpoint + 1
              origin := Function.update r.origin i none }
        | .failed => { r with nextEndpoint := r.nextEndpoint + 1 }
        | .noPoll => { r with nextEndpoint := r.nextEndpoint + 1 }

namespace Pipeline

/- The loop of `cgf_gtpp_apply_runtime`. -/
def reinstateAll (hot : HotConfig) (dials : Slot → Dial) (s : Pipeline) : Reload :=
  ((List.finRange maxPeers).zip hot.peers).foldl (reinstate s.numOfPeers dials)
    { old := s.peers
      peers := fun _ => Peer.zero
      num := 0
      nextEndpoint := s.nextEndpoint
      origin := fun _ => none }

/- No new slot took the peer over. -/
def forsaken (origin : Slot → Option Slot) (j : Slot) : Bool := decide (∀ i, origin i ≠ some j)

/- The batches of the peers that are gone. -/
def forsakenEvents (origin : Slot → Option Slot) (heap : FileId → SpoolFile)
    (requests : Slot → List (Option Request)) : List Event :=
  ((List.finRange maxPeers).filter (forsaken origin)).flatMap
    (fun j => dropEvents heap (fun _ => true) (requests j))

/- The active index after a reload. -/
def validIndex (idx num : Nat) (peers : Slot → Peer) : Nat :=
  if idx ≥ num then
    ((List.range num).find? (fun k => (slotAt k).any (fun i => (peers i).role == .primary))).getD 0
  else idx

/- `cgf_gtpp_apply_runtime` on the main thread. -/
def applyRuntime (hot : HotConfig) (dials : Slot → Dial) (s : Pipeline) : Pipeline :=
  let r := s.reinstateAll hot dials
  { s with
    cfg := hot.apply s.cfg
    peers := r.peers
    numOfPeers := r.num
    activePeerIdx := validIndex s.activePeerIdx r.num r.peers
    nextEndpoint := r.nextEndpoint
    log :=
      forsakenEvents r.origin s.heap
        (fun j => (s.peers j).requests) ++ s.log }

end Pipeline

---- Start ----

/- A configured peer, and how its start went. -/
structure Start where
  role : Role
  host : List UInt8
  port : U16
  dialled : Bool
  greeted : Bool
  stamp : Int

/-
  `cgf_gtpp_open_peer` and the first echo request, on entry of the state machine or in
  `cgf_worker_thread_init`.
-/
def Start.peer (start : Start) (fresh : Endpoint) : Peer :=
  let configured :=
    { Peer.zero with
      role := start.role
      host := start.host
      port := start.port }
  if start.dialled then
    { configured with
      sock := some fresh
      nextSeq := 1
      lastEchoSent := start.stamp
      state := if start.greeted then .probing else .down }
  else configured

/- A drain that starts, with the numbers that were used. -/
def Pipeline.boot (cfg : Config) (starts : Slot → Start) (num active : Nat) (nextFile : FileId)
    (nextEndpoint : Endpoint) (log : List Event) : Pipeline where
  cfg := cfg
  peers := fun i =>
    if i.val < num then (starts i).peer (nextEndpoint + i)
    else Peer.zero
  numOfPeers := num
  activePeerIdx := active
  files := []
  heap := fun _ => SpoolFile.opened []
  nextFile := nextFile
  nextEndpoint := nextEndpoint + maxPeers
  queue := []
  todo := []
  gaveUp := false
  needDrain := false
  log := log

---- Events ----

/- Events of a drain, and the work on the current one. -/
inductive Op where
  -- `recv_cb` and `worker_recv_cb`
  | arrive (i : Slot) (octets : List UInt8) (env : Env)
  | dispatch (env : Env)
  | echoTick
  | rtoTick
  | spoolTick
  | reload (hot : HotConfig) (dials : Slot → Dial)
  -- `cgf_workers_stop` and `cgf_workers_start`
  | restart (hot : HotConfig) (starts : Slot → Start) (num active : Nat)
  | work (env : Env)

namespace Pipeline

/- `recv_cb` -/
def enqueue (i : Slot) (octets : List UInt8) (s : Pipeline) : Pipeline :=
  match (s.peers i).sock with
  | none => s
  | some arrivedOn => { s with queue := s.queue ++ [⟨i, arrivedOn, octets⟩] }

/- `worker_recv_cb` -/
def workerRecv (env : Env) (i : Slot) (octets : List UInt8)
    (s : Pipeline) : Except Fault Pipeline :=
  match (s.peers i).sock with
  | none => .ok s
  | some arrivedOn =>
      (s.onMessage env i (handleRecv octets) arrivedOn).map
        (fun s => { s with todo := s.todo ++ [.drain] })

/- `cgf_state_running` on a datagram. -/
def dispatch (env : Env) (s : Pipeline) : Except Fault Pipeline :=
  match s.queue with
  | [] => .ok s
  | event :: rest =>
      let s := { s with queue := rest }
      if event.peerIdx.val < s.numOfPeers then
        s.onMessage env event.peerIdx (handleRecv event.octets) event.arrivedOn
      else .ok s

/- `peer_rto_tick` as the ticks call it. -/
def rtoTasks (s : Pipeline) : List Task :=
  if s.cfg.sendMode = .roundRobin then s.slots.map Task.rto
  else [.rtoActive]

/- An event when nothing is left to do. -/
def handle (kind : Kind) (op : Op) (s : Pipeline) : Except Fault Pipeline :=
  match kind, op with
  | .main, .arrive i octets _ => .ok (s.enqueue i octets)
  | .worker, .arrive i octets env => s.workerRecv env i octets
  | .main, .dispatch env => s.dispatch env
  | .main, .echoTick =>
      .ok ({ s with needDrain := false }.addTasks (s.slots.map Task.echo ++ [Task.settle]))
  | .worker, .echoTick => .ok ({ s with needDrain := false }.addTasks (s.slots.map Task.echo))
  | .main, .rtoTick =>
      .ok ({ s with needDrain := false }.addTasks (s.slots.map Task.probe ++ s.rtoTasks ++
            [Task.settle]))
  | .worker, .rtoTick =>
      .ok ({ s with needDrain := false }.addTasks (s.rtoTasks ++ s.slots.map Task.probe ++
            [Task.settle]))
  | .main, .spoolTick => .ok (s.addTasks [.openMore s.cfg.maxActiveFiles, .drain])
  | .worker, .spoolTick => .ok (s.addTasks [.drain])
  | .main, .reload hot dials => .ok (s.applyRuntime hot dials)
  | .worker, .restart hot starts num active =>
      .ok (boot (hot.apply s.cfg) starts num active s.nextFile s.nextEndpoint
          (forsakenEvents (fun _ => none) s.heap (fun j => (s.peers j).requests) ++ s.log))
  | _, _ => .ok s

/- One step: the next task, or the next event. -/
def exec (kind : Kind) (s : Pipeline) (op : Op) : Except Fault Pipeline :=
  match s.todo, op with
  | [], op => s.handle kind op
  | task :: rest, .work env => { s with todo := rest }.work kind env task
  | _, _ => .ok s

end Pipeline

/- Drains start on any configuration. -/
def cgfSystem (kind : Kind) : Faulty.System Pipeline Op Fault where
  Init := fun s => ∃ cfg starts num active, s = Pipeline.boot cfg starts num active 0 0 []
  exec := Pipeline.exec kind

---- Sample Drains ----

/- A spool record with one octet. -/
def sampleFrame : List UInt8 := [0x4f, 0x35, 0x43, 0x44, 1, 1, 0, 1, 0xaa]

/- A drain that has just dialled its peers; one record a packet. -/
def sampleDrain (sendMode : SendMode) (window num : Nat) : Pipeline := Pipeline.boot
    { sendMode := sendMode
      echoIntervalS := 60
      requestRtoMs := 3000
      requestRetries := 4
      failoverAfterMissedEchoes := 3
      maxRecordsPerPacket := 1
      maxBytesPerPacket := 1400
      maxInflight := window
      maxActiveFiles := 8 } (fun i => ⟨.primary, [1 + i.val.toUInt8], 3386, true, true, 5⟩)
    num 0 0 0 []

/- Sending works or not, and the spool has a file or none. -/
def sampleEnv (sendOk : Bool) (found : Option (List UInt8)) : Env := ⟨10, 10, sendOk, .ok, found⟩

/- The next task, with no new file in the spool. -/
def sampleWork : Op := .work (sampleEnv true none)

/- The next task, with a file of some sample records. -/
def sampleSpool (data : List UInt8) : Op := .work (sampleEnv true (some data))

/- The answer to a request, as it arrives from a peer. -/
def sampleAnswer (i : Slot) (seq cause : UInt8) : Op :=
  .arrive i [0x4e, 241, 0, 2, 0, seq, 1, cause] (sampleEnv true none)

end Pretty5gs.Cgf
