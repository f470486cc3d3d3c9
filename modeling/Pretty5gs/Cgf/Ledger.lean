import Mathlib
import Pretty5gs.Cgf.Reload

/-
  The ledger of a drain: which peer holds which requests through which socket, the open files, and
  what was sent, given up and confirmed.

  A step of the drain does at most one thing to the ledger. `Pipeline.act` says which, and
  `Action.Enabled` what is known then.

  Main results: `Action.mem_apply` and `Action.mem_events`.
-/

---- Ledgers And Actions ----

namespace Pretty5gs.Cgf

open Function Option SlotTable

/- The part of a drain that its results speak of. -/
structure Ledger where
  requests : Slot → List (Option Request)
  sock : Slot → Option Endpoint
  files : List FileId
  heap : FileId → SpoolFile
  nextFile : FileId
  log : List Event

namespace Ledger

def setFile (f : FileId) (file : SpoolFile) (c : Ledger) : Ledger :=
  { c with heap := Function.update c.heap f file }

def openFile (file : SpoolFile) (c : Ledger) : Ledger :=
  { c with
    files := c.files ++ [c.nextFile]
    heap := Function.update c.heap c.nextFile file
    nextFile := c.nextFile + 1 }

def quarantine (f : FileId) (c : Ledger) : Ledger := { c with files := c.files.erase f }

def put (i : Slot) (r : Request) (c : Ledger) : Ledger :=
  { c with requests := Function.update c.requests i (SlotTable.put r (c.requests i)) }

def free (i : Slot) (k : Nat) (c : Ledger) : Ledger :=
  { c with requests := Function.update c.requests i ((c.requests i).set k none) }

def note (event : Event) (c : Ledger) : Ledger := { c with log := event :: c.log }

def noteAll (events : List Event) (c : Ledger) : Ledger := { c with log := events ++ c.log }

variable (i : Slot)

/- Some requests of a peer are dropped from its table. -/
def drop (refers : Request → Bool) (c : Ledger) : Ledger :=
  { c with requests := Function.update c.requests i (SlotTable.clearAll refers (c.requests i)) }

/- A batch goes out. -/
def send (f : FileId) (r : Request) (c : Ledger) : Ledger :=
  let file := c.heap f
  ((c.put i r).setFile f (commitSend file r.batchStart r.recordsInBatch)).note (.sent f r.batchStart
      (offsetAfterRecords file.data r.batchStart r.recordsInBatch) r.ptc file.nextRecordOffset)

/- A batch is confirmed. -/
def confirm (k : Nat) (f : FileId) (r : Request) (seq : U16) (arrivedOn : Endpoint)
    (c : Ledger) : Ledger :=
  let acked := ackBatchEx (c.heap f) r.batchStart r.recordsInBatch
  let next := (c.free i k).setFile f acked.file
  { next with
    files := if acked.freed then c.files.erase f else c.files
    log := .confirmed f r.batchStart r.seq r.via seq arrivedOn :: c.log }

/- The requests of a peer for a file are given up. -/
def rewind (f : FileId) (uncertain : Bool) (c : Ledger) : Ledger :=
  ((c.drop i (Peer.refersTo f)).setFile f (Pipeline.rewound uncertain (c.heap f))).noteAll
    (dropEvents c.heap (Peer.refersTo f) (c.requests i))

/- All requests of a peer are given up. -/
def abort (c : Ledger) : Ledger :=
  let next := (c.drop i (fun _ => true)).noteAll (dropEvents c.heap (fun _ => true) (c.requests i))
  { next with
    heap := fun f =>
      if f ∈ Pipeline.heldFiles (c.requests i) then Pipeline.rewound true (c.heap f)
      else c.heap f }

def setSock (sock : Option Endpoint) (c : Ledger) : Ledger :=
  { c with sock := Function.update c.sock i sock }

/- The requests in the new slots. -/
def moved (origin : Slot → Option Slot) (requests : Slot → List (Option Request))
    (i : Slot) : List (Option Request) :=
  match origin i with
  | none => List.replicate maxInflight none
  | some j => requests j

/- The peers move to new slots or are given up. -/
def reload (origin : Slot → Option Slot) (socks : Slot → Option Endpoint) (c : Ledger) : Ledger :=
  { c with
    requests := moved origin c.requests
    sock := socks
    log := Pipeline.forsakenEvents origin c.heap c.requests ++ c.log }

/- Everything is given up. -/
def restart (socks : Slot → Option Endpoint) (c : Ledger) : Ledger :=
  { c.reload (fun _ => none) socks with
    files := []
    heap := fun _ => SpoolFile.opened [] }

/- The file as a batch was staged from it. -/
def Stages (f : FileId) (staged : SpoolFile) (c : Ledger) : Prop := f ∈ c.files ∧ ∃ start records,
      staged = { c.heap f with
          pendingBatchStart := start
          pendingBatchRecords := records }

end Ledger

/- What a step does to the ledger. -/
inductive Action where
  | keep
  | openFile (file : SpoolFile)
  | stage (f : FileId) (staged : SpoolFile)
  | quarantine (f : FileId) (staged : SpoolFile)
  | send (i : Slot) (f : FileId) (staged : SpoolFile) (r : Request)
  | fail (i : Slot) (f : FileId) (staged : SpoolFile)
  | release (i : Slot) (r : Request)
  | free (i : Slot) (k : Nat)
  | confirm (i : Slot) (k : Nat) (f : FileId) (r : Request) (seq : U16) (arrivedOn : Endpoint)
  | refuse (i : Slot) (k : Nat) (f : FileId) (uncertain : Bool)
  | rewind (i : Slot) (f : FileId)
  | abort (i : Slot)
  | dial (i : Slot) (sock : Option Endpoint)
  | redial (i : Slot) (sock : Option Endpoint)
  | reload (origin : Slot → Option Slot) (socks : Slot → Option Endpoint)
  | restart (socks : Slot → Option Endpoint)

namespace Action

variable (action : Action) (c : Ledger)

def apply : Ledger :=
  match action with
  | .keep => c
  | .openFile file => c.openFile file
  | .stage f staged => c.setFile f staged
  | .quarantine f staged => (c.setFile f staged).quarantine f
  | .send i f staged r => (c.setFile f staged).send i f r
  | .fail i f staged => (c.setFile f staged).rewind i f true
  | .release i r => c.put i r
  | .free i k => c.free i k
  | .confirm i k f r seq arrivedOn => c.confirm i k f r seq arrivedOn
  | .refuse i k f uncertain => (c.free i k).rewind i f uncertain
  | .rewind i f => c.rewind i f true
  | .abort i => c.abort i
  | .dial i sock => c.setSock i sock
  | .redial i sock => (c.abort i).setSock i sock
  | .reload origin socks => c.reload origin socks
  | .restart socks => c.restart socks

/- What is known when a step takes the action. -/
def Enabled : Prop :=
  match action with
  | .keep => True
  | .openFile file => ∃ data, file = SpoolFile.opened data
  | .stage f staged => c.Stages f staged
  | .quarantine f staged => c.Stages f staged
  | .send i f staged r =>
      c.Stages f staged ∧ none ∈ c.requests i ∧ r.file = some f ∧ c.sock i = some r.via ∧ r.ptc =
          (if (c.heap f).sendPossiblyDup then .sendPossDup
            else .sendDataRec)
  | .fail _ f staged => c.Stages f staged
  | .release i r => none ∈ c.requests i ∧ r.file = none ∧ c.sock i = some r.via
  | .free i k => ∃ r, (c.requests i)[k]? = some (some r) ∧ r.file = none
  | .confirm i k f r seq _ =>
      f ∈ c.files ∧ (c.requests i)[k]? = some (some r) ∧ r.file = some f ∧ r.seq = seq ∧
        (ackBatchEx (c.heap f) r.batchStart r.recordsInBatch).ok = true
  | .refuse i k f _ => f ∈ c.files ∧ ∃ r, (c.requests i)[k]? = some (some r) ∧ r.file = some f
  | .rewind _ f => f ∈ c.files
  | .abort i => ∀ f ∈ Pipeline.heldFiles (c.requests i), f ∈ c.files
  | .dial i _ => c.sock i = none
  | .redial i _ => ∀ f ∈ Pipeline.heldFiles (c.requests i), f ∈ c.files
  | .reload origin socks =>
      (∀ i i' j, origin i = some j → origin i' = some j → i = i') ∧
      ∀ i j, origin i = some j → socks i = c.sock j
  | .restart _ => True

/- Where a request of the next ledger comes from. -/
def Carries (i : Slot) (r : Request) : Prop :=
  match action with
  | .send j _ _ sent => some r ∈ c.requests i ∨ (i = j ∧ r = sent)
  | .release j sent => some r ∈ c.requests i ∨ (i = j ∧ r = sent)
  | .reload origin _ => ∃ j, origin i = some j ∧ some r ∈ c.requests j
  | .restart _ => False
  | _ => some r ∈ c.requests i

/- What the action adds to the log. -/
def events : List Event :=
  match action with
  | .send _ f staged r =>
      [.sent f r.batchStart (offsetAfterRecords ((c.setFile f staged).heap f).data r.batchStart
          r.recordsInBatch) r.ptc ((c.setFile f staged).heap f).nextRecordOffset]
  | .fail i f staged => dropEvents (c.setFile f staged).heap (Peer.refersTo f) (c.requests i)
  | .confirm _ _ f r seq arrivedOn => [.confirmed f r.batchStart r.seq r.via seq arrivedOn]
  | .refuse i k f _ => dropEvents c.heap (Peer.refersTo f) ((c.free i k).requests i)
  | .rewind i f => dropEvents c.heap (Peer.refersTo f) (c.requests i)
  | .abort i => dropEvents c.heap (fun _ => true) (c.requests i)
  | .redial i _ => dropEvents c.heap (fun _ => true) (c.requests i)
  | .reload origin _ => Pipeline.forsakenEvents origin c.heap c.requests
  | .restart _ => Pipeline.forsakenEvents (fun _ => none) c.heap c.requests
  | _ => []

theorem log_apply : (action.apply c).log = action.events c ++ c.log := by cases action <;> rfl

end Action

---- What Is Given Up ----

variable {event : Event} {heap : FileId → SpoolFile}

theorem mem_dropEvents :
    event ∈ dropEvents heap p requests ↔ ∃ r f, some r ∈ requests ∧ p r = true ∧ r.file = some f ∧
        event = .dropped f r.batchStart (offsetAfterRecords (heap f).data r.batchStart
              r.recordsInBatch) := by
  simp only [dropEvents, List.mem_filterMap, bind_eq_some_iff, filter_eq_some_iff,
    dropEvent, map_eq_some_iff]
  constructor
  · rintro ⟨slot, hMem, r, ⟨rfl, hFits⟩, f, hFile, rfl⟩
    exact ⟨r, f, hMem, hFits, hFile, rfl⟩
  · rintro ⟨r, f, hMem, hFits, hFile, rfl⟩
    exact ⟨some r, hMem, r, ⟨rfl, hFits⟩, f, hFile, rfl⟩

theorem mem_forsakenEvents :
    event ∈ Pipeline.forsakenEvents origin heap requests ↔ ∃ j, (∀ i, origin i ≠ some j) ∧
        event ∈ dropEvents heap (fun _ => true) (requests j) := by
  simp [Pipeline.forsakenEvents, Pipeline.forsaken]

---- What Becomes Of A Request ----

namespace Ledger

variable {c : Ledger} {i j : Slot} {r : Request}

/- Only the table of one peer changes. -/
theorem mem_update (hTable : some r ∈ table → some r ∈ c.requests j)
    (hMem : some r ∈ Function.update c.requests j table i) : some r ∈ c.requests i := by
  by_cases hHere : i = j
  · subst hHere
    rw [update_self] at hMem
    exact hTable hMem
  · rw [update_of_ne hHere] at hMem
    exact hMem

theorem mem_put (hMem : some r ∈ (c.put j sent).requests i) :
    some r ∈ c.requests i ∨ (i = j ∧ r = sent) := by
  by_cases hHere : i = j
  · subst hHere
    simp only [put, update_self] at hMem
    rcases SlotTable.mem_put hMem with hNew | hOld
    · exact Or.inr ⟨rfl, hNew⟩
    · exact Or.inl hOld
  · simp only [put, update_of_ne hHere] at hMem
    exact Or.inl hMem

theorem mem_free (hMem : some r ∈ (c.free j k).requests i) : some r ∈ c.requests i :=
  mem_update mem_of_mem_set_none hMem

theorem mem_drop (hMem : some r ∈ (c.drop j refers).requests i) :
    some r ∈ c.requests i := mem_update (fun hKept => (mem_clearAll.mp hKept).1) hMem

theorem mem_moved (hMem : some r ∈ moved origin c.requests i) :
    ∃ j, origin i = some j ∧ some r ∈ c.requests j := by
  unfold moved at hMem
  cases hFrom : origin i with
  | none => simp [hFrom] at hMem
  | some j =>
    simp only [hFrom] at hMem
    exact ⟨j, rfl, hMem⟩

end Ledger

variable {c : Ledger}

/- Requests are made by a send or a release and no other action. -/
theorem Action.mem_apply {action : Action} (hMem : some r ∈ (action.apply c).requests i) :
    action.Carries c i r := by
  cases action with
  | keep => exact hMem
  | openFile file => exact hMem
  | stage f staged => exact hMem
  | quarantine f staged => exact hMem
  | send j f staged sent => exact Ledger.mem_put (c := c.setFile f staged) hMem
  | fail j f staged => exact Ledger.mem_drop (c := c.setFile f staged) hMem
  | release j sent => exact Ledger.mem_put hMem
  | free j k => exact Ledger.mem_free hMem
  | confirm j k f sent seq arrivedOn => exact Ledger.mem_free hMem
  | refuse j k f uncertain => exact Ledger.mem_free (Ledger.mem_drop hMem)
  | rewind j f => exact Ledger.mem_drop hMem
  | abort j => exact Ledger.mem_drop hMem
  | dial j sock => exact hMem
  | redial j sock => exact Ledger.mem_drop hMem
  | reload origin socks => exact Ledger.mem_moved hMem
  | restart socks =>
    have hMoved : some r ∈ Ledger.moved (fun _ => none) c.requests i := hMem
    rcases Ledger.mem_moved hMoved with ⟨j, hFrom, _⟩
    cases hFrom

/- Requests in a part of a table, as events. -/
theorem exists_dropped (hSubset : ∀ r, some r ∈ requests → some r ∈ c.requests i)
    (hMem : event ∈ dropEvents heap p requests) :
    ∃ i r f first last, some r ∈ c.requests i ∧ r.file = some f ∧
        event = .dropped f first last := by
  rcases mem_dropEvents.mp hMem with ⟨r, f, hRequest, _, hFile, rfl⟩
  exact ⟨i, r, f, _, _, hSubset r hRequest, hFile, rfl⟩

/- Batches are sent, confirmed or given up. -/
theorem Action.mem_events {action : Action} (hMem : event ∈ action.events c) :
    (∃ i f staged r, action = .send i f staged r) ∨ (∃ i k f r seq arrivedOn,
        action = .confirm i k f r seq arrivedOn) ∨ ∃ i r f first last,
        some r ∈ c.requests i ∧ r.file = some f ∧ event = .dropped f first last := by
  cases action with
  | send i f staged r => exact Or.inl ⟨i, f, staged, r, rfl⟩
  | confirm i k f r seq arrivedOn => exact Or.inr (Or.inl ⟨i, k, f, r, seq, arrivedOn, rfl⟩)
  | fail i f staged => exact Or.inr (Or.inr (exists_dropped (fun _ => id) hMem))
  | refuse i k f uncertain => exact Or.inr (Or.inr (exists_dropped (fun _ => Ledger.mem_free) hMem))
  | rewind i f => exact Or.inr (Or.inr (exists_dropped (fun _ => id) hMem))
  | abort i => exact Or.inr (Or.inr (exists_dropped (fun _ => id) hMem))
  | redial i sock => exact Or.inr (Or.inr (exists_dropped (fun _ => id) hMem))
  | reload origin socks =>
    rcases mem_forsakenEvents.mp hMem with ⟨j, _, hDropped⟩
    exact Or.inr (Or.inr (exists_dropped (fun _ => id) hDropped))
  | restart socks =>
    rcases mem_forsakenEvents.mp hMem with ⟨j, _, hDropped⟩
    exact Or.inr (Or.inr (exists_dropped (fun _ => id) hDropped))
  | _ => cases hMem

---- The Actions Of A Drain ----

namespace Pipeline

def ledger (s : Pipeline) : Ledger where
  requests := fun i => (s.peers i).requests
  sock := fun i => (s.peers i).sock
  files := s.files
  heap := s.heap
  nextFile := s.nextFile
  log := s.log

/- A round of the drain on a file and a peer. -/
def fileAct (env : Env) (f : FileId) (i : Slot) (s : Pipeline) : Action :=
  let staged := s.cfg.stage (s.heap f)
  let n := staged.2.1
  let p := s.peers i
  if n = 0 then
    if (s.setFile f staged.1).unsent f then .quarantine f staged.1
    else .stage f staged.1
  else
    match p.gtppSendDataRecordTransfer env staged.1 f n staged.2.2.length with
    | .error _ => .keep
    | .ok sent =>
        match sent.2 with
        | .retry => .stage f staged.1
        | .error => .fail i f staged.1
        | .ok => .send i f staged.1 (p.dataRequest staged.1 f n (p.sock.getD 0))

/- A round of the drain. -/
def drainAct (kind : Kind) (env : Env) (s : Pipeline) : Action :=
  match s.pickSendableFile kind with
  | none =>
      if s.files.length ≥ s.cfg.maxFiles || !s.anyPeerHasRoom then .keep
      else
        match kind with
        | .main => .keep
        | .worker =>
            match env.found.bind openPath with
            | none => .keep
            | some file => .openFile file
  | some picked => s.fileAct env picked.1 picked.2.1

/- The loop that opens files. -/
def openAct (env : Env) (cap : Nat) (s : Pipeline) : Action :=
  if s.files.length ≥ openLimit cap then .keep
  else
    match env.found with
    | none => .keep
    | some data =>
        match openPath data with
        | none => .keep
        | some file => .openFile file

/- A release that goes out. -/
def releaseAct (env : Env) (i : Slot) (s : Pipeline) : Action :=
  let p := s.peers i
  if none ∉ p.xacts then .keep
  else
    match p.sock with
    | none => .keep
    | some via =>
        if env.sendOk then .release i (p.releaseRequest via)
        else .keep

/- The socket of a peer that is dialled again. -/
def redialled (env : Env) (s : Pipeline) : Option Endpoint :=
  match env.dial with
  | .failed => none
  | .noPoll => some s.nextEndpoint
  | .ok => some s.nextEndpoint

/- A transaction whose time has come. -/
def rtoAct (env : Env) (i : Slot) (k : Nat) (s : Pipeline) : Action :=
  match (s.peers i).xacts.getD k none with
  | none => .keep
  | some x =>
      if env.now - x.sentAt < 1000 * (s.cfg.requestRtoMs : Int) then .keep
      else if x.retries ≥ s.cfg.requestRetries then
        match x.file with
        | some f => .rewind i f
        | none => .free i k
      else .keep

/- The next task. -/
def workAct (kind : Kind) (env : Env) (task : Task) (s : Pipeline) : Action :=
  match task with
  | .drain => s.drainAct kind env
  | .openMore cap => s.openAct env cap
  | .release i => s.releaseAct env i
  | .abort i => .abort i
  | .redial i => .redial i (s.redialled env)
  | .echo i =>
      if (s.peers i).sock.isSome then .keep
      else
        match kind with
        | .worker => .keep
        | .main => .dial i (s.redialled env)
  | .rtoSlot i k => s.rtoAct env i k
  | _ => .keep

/- The answer to a transaction. -/
def answerAct (i : Slot) (message : Message) (arrivedOn : Endpoint) (s : Pipeline) : Action :=
  match message with
  | .dtrrResponse seq cause =>
      match (s.peers i).gtppFindXact seq with
      | none => .keep
      | some found =>
          match found.2.file with
          | none => .free i found.1
          | some f =>
              if cause < 128 then .refuse i found.1 f false
              else if (ackBatchEx (s.heap f) found.2.batchStart found.2.recordsInBatch).ok then
                .confirm i found.1 f found.2.toRequest seq arrivedOn
              else .refuse i found.1 f true
  | _ => .keep

/- A datagram from the queue. -/
def dispatchAct (s : Pipeline) : Action :=
  match s.queue with
  | [] => .keep
  | event :: _ =>
      if event.peerIdx.val < s.numOfPeers then
        s.answerAct event.peerIdx (handleRecv event.octets) event.arrivedOn
      else .keep

/- A datagram at a worker. -/
def workerRecvAct (i : Slot) (octets : List UInt8) (s : Pipeline) : Action :=
  match (s.peers i).sock with
  | none => .keep
  | some arrivedOn => s.answerAct i (handleRecv octets) arrivedOn

/- An event. -/
def handleAct (kind : Kind) (op : Op) (s : Pipeline) : Action :=
  match kind, op with
  | .worker, .arrive i octets _ => s.workerRecvAct i octets
  | .main, .dispatch _ => s.dispatchAct
  | .main, .reload hot dials =>
      .reload (s.reinstateAll hot dials).origin (fun i => ((s.reinstateAll hot dials).peers i).sock)
  | .worker, .restart _ starts num _ =>
      .restart (fun i =>
        (if i.val < num then (starts i).peer (s.nextEndpoint + i) else Peer.zero).sock)
  | _, _ => .keep

/- What a step does to the ledger. -/
def act (kind : Kind) (s : Pipeline) (op : Op) : Action :=
  match s.todo, op with
  | [], op => s.handleAct kind op
  | task :: rest, .work env => { s with todo := rest }.workAct kind env task
  | _, _ => .keep

end Pipeline

end Pretty5gs.Cgf
