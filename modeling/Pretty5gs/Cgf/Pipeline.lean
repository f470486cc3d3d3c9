import Mathlib.Logic.Function.Basic
import Pretty5gs.Cgf.Peer

/-
  The drain of the charging gateway: open spool files, the peers, and the events that move batches
  between them.

  There is one drain on the main thread, and each worker thread has its own. Their code is the same
  up to a few branches, which take the kind of the drain. An event is handled in small steps, one
  for each round of a loop or call that touches a transaction: what is left to do is a list of
  tasks, and nothing else happens before it is done. The main thread queues datagrams under the
  index of their peer and handles them later.
-/

---- States ----

namespace Pretty5gs.Cgf

/- The two copies of the drain. -/
inductive Kind where
  | main
  | worker
deriving DecidableEq, Repr

/- What the statements speak about, newest first; nothing reads it. Batches are octets of a file. -/
inductive Event where
  | sent (file start stop : Nat) (ptc : Ptc) (confirmed : Nat)
  -- a request is given up that nobody answered
  | dropped (file start stop : Nat)
  | confirmed (file start : Nat) (seq : U16) (via : Endpoint) (answerSeq : U16)
      (arrivedOn : Endpoint)
deriving DecidableEq, Repr

/- What is left to do of the current event. -/
inductive Task where
  -- a round of `cgf_sm_try_drain` or `cgf_worker_try_drain`
  | drain
  -- a round of `cgf_spool_try_open_more`
  | openMore (cap : Nat)
  | drainIfMore (before : Nat)
  | release (i : Slot)
  | abort (i : Slot)
  -- `abort_in_flight` and `cgf_gtpp_reopen_peer`
  | redial (i : Slot)
  | resetSeq (i : Slot)
  | failOver
  | echo (i : Slot)
  | echoCheck (i : Slot)
  | echoSend (i : Slot)
  | probe (i : Slot)
  | rto (i : Slot)
  | rtoActive
  | rtoSlot (i : Slot) (k : Nat)
  | rtoEnd (i : Slot)
  -- the drain at the end of a tick
  | settle
deriving DecidableEq, Repr

/- `cgf_event_t` of a datagram. -/
structure Queued where
  peerIdx : Slot
  arrivedOn : Endpoint
  octets : List UInt8
deriving DecidableEq, Repr

/-
  `cgf_context_t` or `cgf_worker_t`, the open files in their order, and what is left of a file that
  is not open.
-/
structure Pipeline where
  cfg : Config
  peers : Slot → Peer
  numOfPeers : Nat
  activePeerIdx : Nat
  files : List FileId
  heap : FileId → SpoolFile
  nextFile : FileId
  nextEndpoint : Endpoint
  queue : List Queued
  todo : List Task
  -- `gave_up` and `any_gave_up` or `need_drain`
  gaveUp : Bool
  needDrain : Bool
  log : List Event

/- The octets of a batch that is given up. -/
def dropEvent (heap : FileId → SpoolFile) (request : Request) : Option Event :=
  request.file.map (fun f =>
    .dropped f request.batchStart (offsetAfterRecords (heap f).data request.batchStart
        request.recordsInBatch))

/- The batches of a table that are given up. -/
def dropEvents (heap : FileId → SpoolFile) (p : Request → Bool)
    (requests : List (Option Request)) : List Event := requests.filterMap (fun slot =>
    (slot.filter p).bind (dropEvent heap))

namespace Pipeline

def setPeer (i : Slot) (p : Peer) (s : Pipeline) : Pipeline :=
  { s with peers := Function.update s.peers i p }

def setFile (f : FileId) (file : SpoolFile) (s : Pipeline) : Pipeline :=
  { s with heap := Function.update s.heap f file }

def addTasks (tasks : List Task) (s : Pipeline) : Pipeline := { s with todo := tasks ++ s.todo }

def note (event : Event) (s : Pipeline) : Pipeline := { s with log := event :: s.log }

def noteAll (events : List Event) (s : Pipeline) : Pipeline := { s with log := events ++ s.log }

/- `cgf_spool_open_path` and the list of open files. -/
def openFile (file : SpoolFile) (s : Pipeline) : Pipeline :=
  { s with
    files := s.files ++ [s.nextFile]
    heap := Function.update s.heap s.nextFile file
    nextFile := s.nextFile + 1 }

/- `cgf_spool_quarantine`, after `worker_forget_file` -/
def quarantine (f : FileId) (s : Pipeline) : Pipeline := { s with files := s.files.erase f }

---- The Choice Of A Peer ----

/- The loop over the peers. -/
def slots (s : Pipeline) : List Slot :=
  (List.finRange maxPeers).filter (fun i => i.val < s.numOfPeers)

def slotAt (idx : Nat) : Option Slot := if hSlot : idx < maxPeers then some ⟨idx, hSlot⟩ else none

/- The indices from `start` on, around the peers. -/
def cycle (start num : Nat) : List Nat := (List.range num).map (fun i => (start + i) % num)

/- `active_peer` and `worker_active_peer` -/
def activePeer (s : Pipeline) : Option Slot :=
  if s.activePeerIdx < s.numOfPeers then slotAt s.activePeerIdx
  else none

/- `switch_to_next_peer` and `worker_switch_to_next_peer` -/
def switchToNextPeer (s : Pipeline) : Pipeline :=
  let hasSock := fun idx => (slotAt idx).any (fun i => (s.peers i).sock.isSome)
  match (cycle (s.activePeerIdx + 1) s.numOfPeers).find? hasSock with
  | none => s
  | some idx => { s with activePeerIdx := idx }

/- The switch where round robin makes none. -/
def failOver (s : Pipeline) : Pipeline :=
  if s.cfg.sendMode = .roundRobin then s else s.switchToNextPeer

/- `peer_holding_file` and `worker_peer_holding_file` -/
def peerHoldingFile (f : FileId) (s : Pipeline) : Option Slot :=
  s.slots.find? (fun i => (s.peers i).holds f)

end Pipeline

/- The limit of `max_inflight` in the drain. -/
def Config.window (cfg : Config) : Nat :=
  if cfg.maxInflight = 0 then 1
  else min cfg.maxInflight Cgf.maxInflight

/- The limit of `max_active_files` in the drain. -/
def Config.maxFiles (cfg : Config) : Nat :=
  if cfg.maxActiveFiles = 0 then 1
  else min cfg.maxActiveFiles Cgf.maxInflight

/- `cgf_spool_stage_batch` as the drain calls it. -/
def Config.stage (cfg : Config) (file : SpoolFile) : SpoolFile × Nat × List UInt8 :=
  stageBatch file batchSize cfg.maxRecordsPerPacket (min cfg.maxBytesPerPacket batchSize)

/- `peer_effective_window` with `CGF_PROBING_WINDOW` -/
def peerEffectiveWindow (p : Peer) (window : Nat) : Nat :=
  if p.state = .probing ∧ window > 2 then 2 else window

/- Workers fill the window of a probing peer as well. -/
def Kind.window (kind : Kind) (p : Peer) (window : Nat) : Nat :=
  match kind with
  | .main => peerEffectiveWindow p window
  | .worker => window

/- The peer may be sent one more request. -/
def Kind.hasRoom (kind : Kind) (window : Nat) (p : Peer) : Bool := p.maySend &&
    decide (p.gtppInflightCount < kind.window p window)

namespace Pipeline

/- `rr_pick_peer` with the cursor that it leaves. -/
def rrPickPeer (kind : Kind) (s : Pipeline) : Option (Slot × Nat) :=
  let num := s.numOfPeers
  let pick := fun idx =>
    (slotAt idx).bind (fun i =>
      if (s.peers i).sock.isSome && kind.hasRoom s.cfg.window (s.peers i) then
        some (i, (idx + 1) % num)
      else none)
  (cycle (s.activePeerIdx % num) num).findSome? pick

/-
  `select_peer_for_file` and `worker_select_peer_for_file` with the active index that they leave.
-/
def selectPeerForFile (kind : Kind) (f : FileId) (s : Pipeline) : Option (Slot × Nat) :=
  let ifRoom := fun i =>
    if kind.hasRoom s.cfg.window (s.peers i) then some (i, s.activePeerIdx)
    else none
  match s.cfg.sendMode with
  | .roundRobin =>
      match s.peerHoldingFile f with
      | some i => ifRoom i
      | none => s.rrPickPeer kind
  | .failover => s.activePeer.bind ifRoom

/- Octets of the file wait to be sent. -/
def unsent (f : FileId) (s : Pipeline) : Bool :=
  decide ((s.heap f).sendOffset < (s.heap f).data.length)

/- `pick_sendable_file` and `worker_pick_sendable_file` -/
def pickSendableFile (kind : Kind) (s : Pipeline) : Option (FileId × Slot × Nat) :=
  s.files.findSome? (fun f =>
    if s.unsent f then (s.selectPeerForFile kind f).map (fun peer => (f, peer))
    else none)

/- `any_peer_has_room` and `worker_any_peer_has_room` -/
def anyPeerHasRoom (s : Pipeline) : Bool := s.slots.any (fun i =>
    (s.peers i).sock.isSome && (s.peers i).maySend &&
      decide ((s.peers i).gtppInflightCount < s.cfg.window))

---- Giving Up ----

/- The end of `abort_file_pipeline`. -/
def rewound (uncertain : Bool) (file : SpoolFile) : SpoolFile :=
  if uncertain then markPossiblyDup (nackBatch file)
  else nackBatch file

/- `abort_file_pipeline` and `worker_abort_file_pipeline` -/
def abortFilePipeline (i : Slot) (f : FileId) (uncertain : Bool)
    (s : Pipeline) : Except Fault Pipeline :=
  if f ∈ s.files then
    let p := s.peers i
    let refers := Peer.refersTo f
    .ok (((s.setPeer i (p.dropXacts refers)).setFile f (rewound uncertain (s.heap f))).noteAll
        (dropEvents s.heap refers p.requests))
  else .error .useAfterFree

/- The last loop of `abort_in_flight`. -/
def nackAll (held : List FileId) (s : Pipeline) : Except Fault Pipeline :=
  match held with
  | [] => .ok s
  | f :: rest =>
      if f ∈ s.files then nackAll rest (s.setFile f (rewound true (s.heap f)))
      else .error .useAfterFree

/- The files of the requests of a table. -/
def heldFiles (requests : List (Option Request)) : List FileId :=
  requests.filterMap (fun slot => slot.bind Request.file)

/- `abort_in_flight` and `worker_abort_in_flight` -/
def abortInFlight (i : Slot) (s : Pipeline) : Except Fault Pipeline :=
  let p := s.peers i
  let all := fun _ : Request => true
  nackAll (heldFiles p.requests).eraseDups ((s.setPeer i (p.dropXacts all)).noteAll
      (dropEvents s.heap all p.requests))

---- Drain ----

/- No open file can be sent: open more, or stop. -/
def drainMore (kind : Kind) (env : Env) (s : Pipeline) : Pipeline :=
  if s.files.length ≥ s.cfg.maxFiles || !s.anyPeerHasRoom then s
  else
    match kind with
    | .main => s.addTasks [.openMore s.cfg.maxFiles, .drainIfMore s.files.length]
    | .worker =>
        match env.found.bind openPath with
        | none => s
        | some file => (s.openFile file).addTasks [.drain]

/- What follows the attempt to send a batch. -/
def drainSent (i : Slot) (f : FileId) (n : Nat) (rv : Rv) (s : Pipeline) : Except Fault Pipeline :=
  let file := s.heap f
  match rv with
  | .retry => .ok s
  | .error =>
      (s.abortFilePipeline i f true).map (fun s =>
        (s.setPeer i { s.peers i with state := .down }).failOver)
  | .ok =>
      let start := file.pendingBatchStart
      let event : Event :=
        .sent f start (offsetAfterRecords file.data start n)
          (if file.sendPossiblyDup then .sendPossDup
            else .sendDataRec)
          file.nextRecordOffset
      .ok (((s.setFile f (commitSend file start n)).note event).addTasks [.drain])

/- A file and a peer for it are chosen. -/
def drainFile (env : Env) (f : FileId) (i : Slot) (s : Pipeline) : Except Fault Pipeline :=
  let staged := s.cfg.stage (s.heap f)
  let n := staged.2.1
  let s := s.setFile f staged.1
  if n = 0 then
    if s.unsent f then .ok ((s.quarantine f).addTasks [.drain])
    else .ok (s.addTasks [.drain])
  else
    match Peer.gtppSendDataRecordTransfer env staged.1 f n staged.2.2.length (s.peers i) with
    | .error fault => .error fault
    | .ok sent => (s.setPeer i sent.1).drainSent i f n sent.2

/- A round of `cgf_sm_try_drain` or `cgf_worker_try_drain`. -/
def drain (kind : Kind) (env : Env) (s : Pipeline) : Except Fault Pipeline :=
  match s.pickSendableFile kind with
  | none => .ok (s.drainMore kind env)
  | some picked => { s with activePeerIdx := picked.2.2 }.drainFile env picked.1 picked.2.1

/- The limit of `cgf_spool_try_open_more`. -/
def openLimit (cap : Nat) : Nat := if cap = 0 then maxInflight else min cap maxInflight

/-
  A round of `cgf_spool_try_open_more`. It ends when nothing was claimed, which counts the failures
  as well.
-/
def openMore (env : Env) (cap : Nat) (s : Pipeline) : Pipeline :=
  if s.files.length ≥ openLimit cap then s
  else
    match env.found with
    | none => s
    | some data =>
        match openPath data with
        | none => s.addTasks [.openMore cap]
        | some file => (s.openFile file).addTasks [.openMore cap]

/- The drain goes on if files were opened. -/
def drainIfMore (before : Nat) (s : Pipeline) : Pipeline :=
  if s.files.length ≤ before then s else s.addTasks [.drain]

---- Answers ----

/- `cgf_sm_on_echo_response` -/
def onEchoResponse (env : Env) (i : Slot) (recovery : Option UInt8) (s : Pipeline) : Pipeline :=
  let p := { s.peers i with lastEchoReceived := env.stamp }.noteRx env.stamp
  match recovery with
  | none => (s.setPeer i p).addTasks [.drain]
  | some value =>
      let restarted := p.restartCounterValid && p.restartCounter != value
      (s.setPeer i { p with
          restartCounter := value
          restartCounterValid := true }).addTasks (if restarted then [.abort i, .resetSeq i, .drain]
          else [.drain])

/- The transaction was answered, and the rest of its file is given up with it. -/
def refuse (i : Slot) (k : Nat) (f : FileId) (uncertain : Bool)
    (s : Pipeline) : Except Fault Pipeline :=
  ((s.setPeer i ((s.peers i).gtppFreeXact k)).abortFilePipeline
    i f uncertain).map (fun s => s.addTasks [.drain])

/- The batch of the transaction is confirmed. -/
def confirm (i : Slot) (k : Nat) (x : Xact) (f : FileId) (acked : Acked) (seq : U16)
    (arrivedOn : Endpoint) (s : Pipeline) : Pipeline :=
  let confirmed :=
    { (s.setPeer i ((s.peers i).gtppFreeXact k)).setFile f acked.file with
      files := if acked.freed then s.files.erase f else s.files }
  (confirmed.note (.confirmed f x.batchStart x.seq x.via seq arrivedOn)).addTasks
    (if x.ptc = .sendPossDup then [.release i, .drain]
      else [.drain])

/- `cgf_sm_on_dtrr_response` on a batch that was accepted. -/
def acknowledge (i : Slot) (k : Nat) (x : Xact) (f : FileId) (seq : U16) (arrivedOn : Endpoint)
    (s : Pipeline) : Except Fault Pipeline :=
  if f ∈ s.files then
    let acked := ackBatchEx (s.heap f) x.batchStart x.recordsInBatch
    if acked.ok then .ok (s.confirm i k x f acked seq arrivedOn)
    else (s.setFile f acked.file).refuse i k f true
  else .error .useAfterFree

/- `cgf_sm_on_dtrr_response` after `cgf_peer_note_rx` -/
def answer (i : Slot) (seq : U16) (cause : UInt8) (arrivedOn : Endpoint)
    (s : Pipeline) : Except Fault Pipeline :=
  match (s.peers i).gtppFindXact seq with
  | none => .ok s
  | some found =>
      match found.2.file with
      -- a release, accepted or not
      | none => .ok ((s.setPeer i ((s.peers i).gtppFreeXact found.1)).addTasks [.drain])
      | some f =>
          if cause < 128 then s.refuse i found.1 f false
          else s.acknowledge i found.1 found.2 f seq arrivedOn

/- `cgf_sm_on_dtrr_response` -/
def onDtrrResponse (env : Env) (i : Slot) (seq : U16) (cause : UInt8) (arrivedOn : Endpoint)
    (s : Pipeline) : Except Fault Pipeline :=
  (s.setPeer i ((s.peers i).noteRx env.stamp)).answer i seq cause arrivedOn

/- The calls of `cgf_gtpp_handle_recv`. -/
def onMessage (env : Env) (i : Slot) (message : Message) (arrivedOn : Endpoint)
    (s : Pipeline) : Except Fault Pipeline :=
  match message with
  | .echoResponse recovery => .ok (s.onEchoResponse env i recovery)
  | .dtrrResponse seq cause => s.onDtrrResponse env i seq cause arrivedOn
  | .echoRequest => (Peer.rawSend env (s.peers i)).map (fun _ => s)
  | .ignored => .ok s

---- Ticks ----

/- `cgf_gtpp_reopen_peer` on a slot. -/
def reopen (env : Env) (i : Slot) (s : Pipeline) : Pipeline × Bool :=
  let opened := Peer.gtppReopenPeer env.dial s.nextEndpoint (s.peers i)
  ({ s.setPeer i opened.1 with
      nextEndpoint := s.nextEndpoint + 1 }, opened.2)

/- The start of a round of the echo ticks. -/
def echo (kind : Kind) (env : Env) (i : Slot) (s : Pipeline) : Pipeline :=
  if (s.peers i).sock.isSome then s.addTasks [.echoCheck i]
  else
    match kind with
    | .worker => s
    | .main =>
        let opened := s.reopen env i
        if opened.2 then opened.1.addTasks [.echoCheck i]
        else opened.1

/- What follows for a peer that is marked down. -/
def downTasks (kind : Kind) (i : Slot) (s : Pipeline) : List Task :=
  (if s.cfg.sendMode = .roundRobin ∨ i.val = s.activePeerIdx then
    [.abort i, .failOver] else []) ++
    match kind with
    | .main => [.redial i]
    | .worker => []

/- Missed echoes in `cgf_sm_on_echo_tick` and its copy. -/
def echoCheck (kind : Kind) (env : Env) (i : Slot) (s : Pipeline) : Pipeline :=
  let p := s.peers i
  let missed := p.missedEchoes s.cfg env.now
  if p.lastEchoSent ≤ p.lastEchoReceived then s.addTasks [.echoSend i]
  else if missed ≥ s.cfg.failoverAfterMissedEchoes ∧ p.state ≠ .down then
    (s.setPeer i { p with
        consecutiveMissedEchoes := missed
        state := .down }).addTasks (s.downTasks kind i ++ [.echoSend i])
  else (s.setPeer i { p with consecutiveMissedEchoes := missed }).addTasks [.echoSend i]

variable (env : Env) (i : Slot) (s : Pipeline)

/- An echo request, after which a peer may be probed. -/
def probeWith : Except Fault Pipeline :=
  (Peer.gtppSendEchoRequest env (s.peers i)).map (fun sent =>
    if sent.2 && sent.1.state == .down then
      { s.setPeer i { sent.1 with state := .probing } with
        needDrain := true }
    else s.setPeer i sent.1)

/- The end of a round; a worker's tick ends without a drain. -/
def echoSend : Except Fault Pipeline := if (s.peers i).sock.isSome then s.probeWith env i else .ok s

/- A round of the recovery probe in the RTO ticks. -/
def probe : Except Fault Pipeline :=
  let p := s.peers i
  if p.sock.isSome ∧ p.state = .down ∧ (p.lastEchoSent = 0 ∨ env.now - p.lastEchoSent ≥
          1000000 * (s.cfg.echoIntervalS : Int)) then
    s.probeWith env i
  else .ok s

/- The rounds of `peer_rto_tick` and `worker_peer_rto_tick`. -/
def rto (i : Slot) (s : Pipeline) : Pipeline := { s with gaveUp := false }.addTasks
    ((List.range maxInflight).map (Task.rtoSlot i) ++ [Task.rtoEnd i])

/- One of the rounds. -/
def rtoSlot (env : Env) (i : Slot) (k : Nat) (s : Pipeline) : Except Fault Pipeline :=
  let p := s.peers i
  match p.xacts.getD k none with
  | none => .ok s
  | some x =>
      if env.now - x.sentAt < 1000 * (s.cfg.requestRtoMs : Int) then .ok s
      else if x.retries ≥ s.cfg.requestRetries then
        let s := { s with gaveUp := true }
        match x.file with
        | some f => s.abortFilePipeline i f true
        | none => .ok (s.setPeer i (p.gtppFreeXact k))
      else (p.gtppRetransmitXactOn env k x).map (fun p => s.setPeer i p)

/- What follows the rounds; only the main thread re-dials. -/
def rtoEnd (kind : Kind) (env : Env) (i : Slot) (s : Pipeline) : Pipeline :=
  if s.gaveUp then
    let s := { s with needDrain := true }
    if (s.peers i).recentlyAnswered s.cfg env.now then s
    else
      (s.setPeer i { s.peers i with state := .down }).addTasks (match kind with
          | .main => [.redial i, .failOver]
          | .worker => [.failOver])
  else s

/- The end of a tick. -/
def settle (s : Pipeline) : Pipeline :=
  if s.needDrain then { s with needDrain := false }.addTasks [.drain]
  else s

/- The next task. -/
def work (kind : Kind) (env : Env) (task : Task) (s : Pipeline) : Except Fault Pipeline :=
  match task with
  | .drain => s.drain kind env
  | .openMore cap => .ok (s.openMore env cap)
  | .drainIfMore before => .ok (s.drainIfMore before)
  | .release i => (Peer.gtppSendRelease env (s.peers i)).map (fun p => s.setPeer i p)
  | .abort i => s.abortInFlight i
  | .redial i => (s.abortInFlight i).map (fun s => (s.reopen env i).1)
  | .resetSeq i => .ok (s.setPeer i (s.peers i).gtppResetSeq)
  | .failOver => .ok s.failOver
  | .echo i => .ok (s.echo kind env i)
  | .echoCheck i => .ok (s.echoCheck kind env i)
  | .echoSend i => s.echoSend env i
  | .probe i => s.probe env i
  | .rto i => .ok (s.rto i)
  | .rtoActive =>
      match s.activePeer with
      | none => .ok s
      | some i => .ok (s.rto i)
  | .rtoSlot i k => s.rtoSlot env i k
  | .rtoEnd i => .ok (s.rtoEnd kind env i)
  | .settle => .ok s.settle

end Pipeline

end Pretty5gs.Cgf
