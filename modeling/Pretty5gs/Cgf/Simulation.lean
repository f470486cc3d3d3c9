import Pretty5gs.Cgf.Ledger

/-
  Every step of a drain is an action on its ledger.

  Main results: `Pipeline.abortInFlight_ledger`, `Pipeline.reinstateAll_adopts`,
  `Pipeline.exec_takes`, `ledger_invariant`.
-/

---- Views Of The Updates ----

namespace Pretty5gs.Cgf

open List Function Option Faulty SlotTable

/- The step does what the action says. -/
def Takes (action : Action) (s s' : Pipeline) : Prop :=
  action.Enabled s.ledger ∧ s'.ledger = action.apply s.ledger

/- A test that the step and its action share. -/
theorem Takes.ite {condition : Prop} [Decidable condition] {x y : Except Fault Pipeline}
    (hStep : (if condition then x else y) = .ok s') (hThen : condition → x = .ok s' → Takes a s s')
    (hElse : ¬ condition → y = .ok s' → Takes b s s') : Takes (if condition then a else b) s s' := by
  split at hStep
  case isTrue hHolds =>
    rw [if_pos hHolds]
    exact hThen hHolds hStep
  case isFalse hFails =>
    rw [if_neg hFails]
    exact hElse hFails hStep

namespace Pipeline

theorem requests_update {peers : Slot → Peer} {i : Slot} {p : Peer} :
    (fun j => (Function.update peers i p j).requests) =
      Function.update (fun j => (peers j).requests) i p.requests := by
  funext j
  exact apply_update (fun _ => Peer.requests) _ _ _ _

theorem sock_update {peers : Slot → Peer} {i : Slot} {p : Peer} :
    (fun j => (Function.update peers i p j).sock) =
      Function.update (fun j => (peers j).sock) i p.sock := by
  funext j
  exact apply_update (fun _ => Peer.sock) _ _ _ _

/- A peer that keeps its socket. -/
theorem sock_update_same {peers : Slot → Peer} (hSock : p.sock = (peers i).sock) :
    (fun j => (Function.update peers i p j).sock) = fun j => (peers j).sock := by
  rw [sock_update, hSock]
  exact update_eq_self i _

theorem ledger_setPeer (i : Slot) (p : Peer) (s : Pipeline) : (s.setPeer i p).ledger =
      { s.ledger with
        requests := Function.update s.ledger.requests i p.requests
        sock := Function.update s.ledger.sock i p.sock } := by
  simp only [ledger, setPeer, requests_update, sock_update]

theorem ledger_setPeer_requests {s : Pipeline}
    (hSock : p.sock = (s.peers i).sock) : (s.setPeer i p).ledger =
      { s.ledger with requests := Function.update s.ledger.requests i p.requests } := by
  simp only [ledger, setPeer, requests_update, sock_update_same hSock]

/- Only requests and sockets are in the ledger. -/
theorem ledger_setPeer_same {s : Pipeline} (hRequests : p.requests = (s.peers i).requests)
    (hSock : p.sock = (s.peers i).sock) : (s.setPeer i p).ledger = s.ledger := by
  have hSame : Function.update s.ledger.requests i p.requests = s.ledger.requests := by
    rw [hRequests]
    exact update_eq_self i _
  rw [ledger_setPeer_requests hSock, hSame]

@[simp] theorem ledger_addTasks {tasks : List Task} {s : Pipeline} :
    (s.addTasks tasks).ledger = s.ledger := rfl

@[simp] theorem ledger_setFile {f : FileId} {file : SpoolFile} {s : Pipeline} :
    (s.setFile f file).ledger = s.ledger.setFile f file := rfl

@[simp] theorem ledger_note {event : Event} {s : Pipeline} :
    (s.note event).ledger = s.ledger.note event := rfl

@[simp] theorem ledger_noteAll {events : List Event} {s : Pipeline} :
    (s.noteAll events).ledger = s.ledger.noteAll events := rfl

@[simp] theorem ledger_failOver {s : Pipeline} : s.failOver.ledger = s.ledger := by
  unfold failOver
  split
  · rfl
  · simp only [switchToNextPeer]
    split <;> rfl

end Pipeline

open Peer

/- A transaction that is freed, as a request. -/
theorem Peer.requests_gtppFreeXact {k : Nat} {p : Peer} :
    (p.gtppFreeXact k).requests = p.requests.set k none := by
  simp [gtppFreeXact, requests, map_set]

theorem Peer.requests_slot {p : Peer} {k : Nat} (hSlot : p.xacts[k]? = some (some x)) :
    p.requests[k]? = some (some x.toRequest) := by
  simp [requests, hSlot]

theorem Peer.none_mem_requests {p : Peer} (hFree : none ∈ p.xacts) : none ∈ p.requests :=
  List.mem_map.mpr ⟨none, hFree, rfl⟩

/- The timer of a transaction is not in its request. -/
theorem Peer.requests_retimed {p : Peer}
    (hSlot : p.xacts[k]? = some (some x)) (hSame : x'.toRequest = x.toRequest) :
    requests { p with xacts := p.xacts.set k (some x') } = p.requests := by
  apply ext_getElem?
  intro j
  simp only [requests, map_set, map_some, hSame, List.getElem?_set, length_map]
  split
  case isTrue hHere =>
    subst hHere
    have hBound := (List.getElem?_eq_some_iff.mp hSlot).1
    rw [List.getElem?_map, hSlot, if_pos hBound]
    rfl
  case isFalse => rfl

namespace Pipeline

variable {s s' : Pipeline}

theorem ledger_dropXacts (i : Slot) (refers : Request → Bool) (s : Pipeline) :
    (s.setPeer i ((s.peers i).dropXacts refers)).ledger = s.ledger.drop i refers := by
  have hSock : ((s.peers i).dropXacts refers).sock = (s.peers i).sock := rfl
  have hRequests : ((s.peers i).dropXacts refers).requests =
    SlotTable.clearAll refers (s.peers i).requests := map_clearAll Xact.toRequest refers _
  rw [ledger_setPeer_requests hSock, hRequests]
  rfl

theorem ledger_freeXact {i : Slot} {k : Nat} {s : Pipeline} :
    (s.setPeer i ((s.peers i).gtppFreeXact k)).ledger = s.ledger.free i k := by
  have hSock : ((s.peers i).gtppFreeXact k).sock = (s.peers i).sock := rfl
  rw [ledger_setPeer_requests hSock, requests_gtppFreeXact]
  rfl

---- Giving Up ----

variable {f : FileId} {i : Slot}

theorem abortFilePipeline_ledger (hAbort : s.abortFilePipeline i f uncertain = .ok s') :
    f ∈ s.files ∧ s'.ledger = s.ledger.rewind i f uncertain := by
  unfold abortFilePipeline at hAbort
  split at hAbort
  case isFalse => cases hAbort
  case isTrue hOpen =>
    cases hAbort
    refine ⟨hOpen, ?_⟩
    rw [ledger_noteAll, ledger_setFile, ledger_dropXacts]
    rfl

/- The files of a peer are rewound one by one. -/
theorem nackAll_eq (hNack : s.nackAll held = .ok s') : (∀ f ∈ held, f ∈ s.files) ∧ s' =
        { s with
          heap := fun f =>
            if f ∈ held then rewound true (s.heap f)
            else s.heap f } := by
  induction held generalizing s with
  | nil =>
    cases hNack
    exact ⟨nofun, rfl⟩
  | cons g rest ih =>
    unfold nackAll at hNack
    split at hNack
    case isFalse => cases hNack
    case isTrue hOpen =>
      rcases ih hNack with ⟨hRest, hNext⟩
      refine ⟨?_, ?_⟩
      · intro f hMem
        rcases mem_cons.mp hMem with rfl | hMem
        · exact hOpen
        · exact hRest f hMem
      · rw [hNext]
        simp only [setFile, mem_cons]
        congr 1
        funext f
        -- rewinding twice is rewinding once
        by_cases hHere : f = g
        · subst hHere
          simp [rewound, nackBatch, markPossiblyDup]
        · simp [hHere]

theorem abortInFlight_ledger (hAbort : s.abortInFlight i = .ok s') :
    (∀ f ∈ heldFiles (s.ledger.requests i), f ∈ s.files) ∧ s'.ledger = s.ledger.abort i := by
  rcases nackAll_eq hAbort with ⟨hOpen, hNext⟩
  simp only [mem_eraseDups] at hOpen hNext
  refine ⟨hOpen, ?_⟩
  have hDropped := ledger_dropXacts i (fun _ => true) s
  have hHeap : s'.ledger =
    { (s.setPeer i
          ((s.peers i).dropXacts (fun _ => true))).ledger with
      heap := fun f =>
        if f ∈ heldFiles (s.peers i).requests then rewound true (s.heap f)
        else s.heap f
      log :=
        dropEvents s.heap (fun _ => true)
          (s.peers i).requests ++ s.log } := by
    rw [hNext]
    rfl
  rw [hHeap, hDropped]
  rfl

theorem abortInFlight_nextEndpoint (hAbort : s.abortInFlight i = .ok s') :
    s'.nextEndpoint = s.nextEndpoint := by
  rw [(nackAll_eq hAbort).2]
  rfl

---- Drain ----

variable {env : Env} {file : SpoolFile}

/- What an attempt to send does to a peer. -/
theorem gtppSendDataRecordTransfer_cases {p : Peer}
    (hSend : p.gtppSendDataRecordTransfer env file f n recordsLen = .ok sent) :
    sent.1.sock = p.sock ∧ ((sent.2 ≠ .ok ∧ sent.1.requests = p.requests) ∨
        (sent.2 = .ok ∧ none ∈ p.requests ∧ p.sock = some (p.sock.getD 0) ∧ sent.1.requests =
            SlotTable.put (p.dataRequest file f n (p.sock.getD 0)) p.requests)) := by
  unfold gtppSendDataRecordTransfer at hSend
  split at hSend
  · cases hSend
    exact ⟨rfl, Or.inl ⟨nofun, rfl⟩⟩
  case isFalse hFree =>
    split at hSend
    · cases hSend
      exact ⟨rfl, Or.inl ⟨nofun, rfl⟩⟩
    split at hSend
    · cases hSend
      exact ⟨rfl, Or.inl ⟨nofun, rfl⟩⟩
    split at hSend
    · cases hSend
    case h_2 via hSock =>
      split at hSend
      · cases hSend
        refine ⟨rfl, Or.inr ⟨rfl, ?_, ?_, ?_⟩⟩
        · exact none_mem_requests (not_not.mp hFree)
        · rw [hSock]
          rfl
        · rw [hSock]
          exact map_put Xact.toRequest _ _
      · cases hSend
        exact ⟨rfl, Or.inl ⟨nofun, rfl⟩⟩

/- A round of the drain on a file and a peer. -/
theorem drainFile_takes (hOpen : f ∈ s.files) (hDrain : s.drainFile env f i = .ok s') :
    Takes (s.fileAct env f i) s s' := by
  have hStages : s.ledger.Stages f (s.cfg.stage (s.heap f)).1 := ⟨hOpen, _, _, rfl⟩
  unfold drainFile at hDrain
  unfold fileAct
  generalize hStaged : s.cfg.stage (s.heap f) = staged at *
  refine .ite hDrain (fun _ hDrain => .ite hDrain ?_ ?_) (fun _ hDrain => ?_)
  · intro _ hDrain
    cases hDrain
    exact ⟨hStages, rfl⟩
  · intro _ hDrain
    cases hDrain
    exact ⟨hStages, rfl⟩
  · have hSame : (s.setFile f staged.1).peers i = s.peers i := rfl
    rw [hSame] at hDrain
    cases hSend : (s.peers i).gtppSendDataRecordTransfer env staged.1 f
          staged.2.1 staged.2.2.length with
    | error fault =>
        rw [hSend] at hDrain
        cases hDrain
    | ok sent =>
        rw [hSend] at hDrain
        simp only at hDrain ⊢
        rcases gtppSendDataRecordTransfer_cases hSend with ⟨hSock, ⟨hNot, hRequests⟩ |
            ⟨hOk, hFree, hVia, hRequests⟩⟩
        · have hView : ((s.setFile f staged.1).setPeer i sent.1).ledger =
                s.ledger.setFile f staged.1 := ledger_setPeer_same hRequests hSock
          cases hRv : sent.2 with
          | ok => exact absurd hRv hNot
          | retry =>
              rw [hRv] at hDrain
              cases hDrain
              exact ⟨hStages, hView⟩
          | error =>
              rw [hRv] at hDrain
              rcases map_eq_ok hDrain with ⟨mid, hAbort, rfl⟩
              rcases abortFilePipeline_ledger hAbort with ⟨_, hRewind⟩
              refine ⟨hStages, ledger_failOver.trans
                ((ledger_setPeer_same (by rfl) (by rfl)).trans ?_)⟩
              rw [hRewind, hView]
              rfl
        · have hView : ((s.setFile f staged.1).setPeer i sent.1).ledger =
                (s.ledger.setFile f staged.1).put i ((s.peers i).dataRequest staged.1 f staged.2.1
                    ((s.peers i).sock.getD 0)) := by
            rw [ledger_setPeer_requests (s := s.setFile f staged.1) hSock, hRequests]
            rfl
          have hFile : ((s.setFile f staged.1).setPeer i sent.1).heap f = staged.1 := by
            simp [setPeer, setFile]
          rw [hOk] at hDrain
          simp only [drainSent, hFile] at hDrain
          cases hDrain
          rw [hOk]
          rcases hStages with ⟨hMem, start, records, hPending⟩
          constructor
          · refine ⟨⟨hMem, start, records, hPending⟩, hFree, rfl, hVia, ?_⟩
            rw [hPending]
            rfl
          · rw [ledger_addTasks, ledger_note, ledger_setFile, hView]
            simp only [Action.apply, Ledger.send]
            have hHeap : (s.ledger.setFile f staged.1).heap f = staged.1 := by simp [Ledger.setFile]
            rw [hHeap]
            rfl

theorem openPath_opened (hOpen : openPath data = some file) : file = SpoolFile.opened data := by
  unfold openPath at hOpen
  split at hOpen
  · cases hOpen
  · exact (Option.some.inj hOpen).symm

/- The file that is picked is open. -/
theorem pickSendableFile_mem (hPick : s.pickSendableFile kind = some picked) :
    picked.1 ∈ s.files ∧ s.selectPeerForFile kind picked.1 = some picked.2 := by
  rcases List.exists_of_findSome?_eq_some hPick with ⟨f, hMem, hFile⟩
  split at hFile
  · rcases map_eq_some_iff.mp hFile with ⟨peer, hSelect, hPicked⟩
    cases hPicked
    exact ⟨hMem, hSelect⟩
  · cases hFile

theorem drain_takes (hDrain : s.drain kind env = .ok s') : Takes (s.drainAct kind env) s s' := by
  unfold drain at hDrain
  unfold drainAct
  cases hPick : s.pickSendableFile kind with
  | some picked =>
    simp only [hPick] at hDrain ⊢
    have hOpen := (pickSendableFile_mem hPick).1
    exact drainFile_takes (s := { s with activePeerIdx := picked.2.2 }) hOpen hDrain
  | none =>
    simp only [hPick] at hDrain ⊢
    cases hDrain
    unfold drainMore
    by_cases hStop : (decide (s.files.length ≥ s.cfg.maxFiles) || !s.anyPeerHasRoom) = true
    · rw [if_pos hStop, if_pos hStop]
      exact ⟨trivial, rfl⟩
    · rw [if_neg hStop, if_neg hStop]
      cases kind with
      | main => exact ⟨trivial, rfl⟩
      | worker =>
        cases hFound : env.found.bind openPath with
        | none => exact ⟨trivial, rfl⟩
        | some file =>
          rcases bind_eq_some_iff.mp hFound with ⟨data, _, hOpen⟩
          exact ⟨⟨data, openPath_opened hOpen⟩, rfl⟩

theorem openMore_takes {env : Env} {cap : Nat} {s : Pipeline} :
    Takes (s.openAct env cap) s (s.openMore env cap) := by
  unfold openAct openMore
  split
  · exact ⟨trivial, rfl⟩
  · cases env.found with
    | none => exact ⟨trivial, rfl⟩
    | some data =>
      cases hOpen : openPath data with
      | none =>
        simp only [hOpen]
        exact ⟨trivial, rfl⟩
      | some file =>
        simp only [hOpen]
        exact ⟨⟨data, openPath_opened hOpen⟩, rfl⟩

---- Answers ----

theorem refuse_ledger (hRefuse : s.refuse i k f uncertain = .ok s') :
    f ∈ s.files ∧ s'.ledger = (s.ledger.free i k).rewind i f uncertain := by
  rcases map_eq_ok hRefuse with ⟨mid, hAbort, rfl⟩
  rcases abortFilePipeline_ledger hAbort with ⟨hOpen, hRewind⟩
  refine ⟨hOpen, ?_⟩
  rw [ledger_addTasks, hRewind, ledger_freeXact]

/- An acknowledgement that finds no room changes little. -/
theorem ackBatchEx_full (hFull : ¬ (ackBatchEx file batchStart records).ok = true) : ∃ inflight,
      (ackBatchEx file batchStart records).file =
        { file with
          pendingBatchRecords := 0
          inflightBatches := inflight } := by
  unfold ackBatchEx at hFull ⊢
  simp only at hFull ⊢
  split
  · simp_all [Acked.done]
  · split
    · simp_all [Acked.done]
    · split
      · simp_all [Acked.done]
      · split
        · exact ⟨_, rfl⟩
        · simp_all [Acked.done]

/- The octets of a batch depend on the data of its file. -/
theorem dropEvents_congr {heap heap' : FileId → SpoolFile}
    (hData : ∀ f, (heap' f).data = (heap f).data) {p : Request → Bool}
    {requests : List (Option Request)} :
    dropEvents heap' p requests = dropEvents heap p requests := by
  have hEvent : dropEvent heap' = dropEvent heap := by
    funext request
    simp [dropEvent, hData]
  simp [dropEvents, hEvent]

/- What the acknowledgement wrote is overwritten. -/
theorem rewind_of_full (c : Ledger)
    (hFull : ¬ (ackBatchEx (c.heap f) batchStart records).ok = true) :
    (c.setFile f (ackBatchEx (c.heap f) batchStart records).file).rewind i f true =
      c.rewind i f true := by
  rcases ackBatchEx_full hFull with ⟨inflight, hFile⟩
  rw [hFile]
  have hEvents : dropEvents (Function.update c.heap f
    { c.heap f with
      pendingBatchRecords := 0
      inflightBatches := inflight }) (refersTo f) (c.requests i) =
    dropEvents c.heap (refersTo f) (c.requests i) := by
    apply dropEvents_congr
    intro g
    by_cases hHere : g = f
    · subst hHere
      rw [update_self]
    · rw [update_of_ne hHere]
  simp only [Ledger.rewind, Ledger.setFile, Ledger.drop, hEvents, update_self, update_idem]
  rfl

variable {arrivedOn : Endpoint}

theorem acknowledge_takes (hSlot : (s.peers i).xacts[k]? = some (some x)) (hFile : x.file = some f)
    (hSeq : x.seq = seq) (hAck : s.acknowledge i k x f seq arrivedOn = .ok s') : Takes
      (if (ackBatchEx (s.heap f) x.batchStart x.recordsInBatch).ok then
        .confirm i k f x.toRequest seq arrivedOn
      else .refuse i k f true) s s' := by
  have hRequest := requests_slot hSlot
  unfold acknowledge at hAck
  split at hAck
  case isFalse => cases hAck
  case isTrue hOpen =>
    refine .ite hAck ?_ ?_
    · intro hOk hAck
      cases hAck
      refine ⟨⟨hOpen, hRequest, hFile, hSeq, hOk⟩, ?_⟩
      have hConfirm : (s.confirm i k x f (ackBatchEx (s.heap f) x.batchStart
        x.recordsInBatch) seq arrivedOn).ledger =
        { (s.setPeer i
              ((s.peers i).gtppFreeXact k)).ledger.setFile f
            (ackBatchEx (s.heap f) x.batchStart
              x.recordsInBatch).file with
          files :=
            if (ackBatchEx (s.heap f) x.batchStart
                x.recordsInBatch).freed then s.files.erase f
            else s.files
          log :=
            .confirmed f x.batchStart x.seq x.via seq
              arrivedOn :: s.log } := rfl
      rw [hConfirm, ledger_freeXact]
      rfl
    · intro hFull hAck
      rcases refuse_ledger hAck with ⟨_, hLedger⟩
      refine ⟨⟨hOpen, _, hRequest, hFile⟩, ?_⟩
      rw [hLedger]
      exact rewind_of_full (s.ledger.free i k) hFull

theorem answer_takes (hAnswer : s.answer i seq cause arrivedOn = .ok s') :
    Takes (s.answerAct i (.dtrrResponse seq cause) arrivedOn) s s' := by
  unfold answer at hAnswer
  unfold answerAct
  simp only
  cases hFound : (s.peers i).gtppFindXact seq with
  | none =>
    simp only [hFound] at hAnswer
    cases hAnswer
    exact ⟨trivial, rfl⟩
  | some found =>
    rcases SlotTable.find?_eq_some hFound with ⟨hSlot, hSeq⟩
    have hRequest := requests_slot hSlot
    simp only [hFound] at hAnswer ⊢
    cases hFile : found.2.file with
    | none =>
      simp only [hFile] at hAnswer ⊢
      cases hAnswer
      refine ⟨⟨_, hRequest, hFile⟩, ?_⟩
      rw [ledger_addTasks, ledger_freeXact]
      rfl
    | some f =>
      simp only [hFile] at hAnswer ⊢
      refine .ite hAnswer ?_ ?_
      · intro _ hRejected
        rcases refuse_ledger hRejected with ⟨hOpen, hLedger⟩
        exact ⟨⟨hOpen, _, hRequest, hFile⟩, hLedger⟩
      · intro _ hAnswer
        exact acknowledge_takes hSlot hFile (beq_iff_eq.mp hSeq) hAnswer

theorem onMessage_takes (hMessage : s.onMessage env i message arrivedOn = .ok s') :
    Takes (s.answerAct i message arrivedOn) s s' := by
  cases message with
  | echoResponse recovery =>
    cases hMessage
    refine ⟨trivial, ?_⟩
    cases recovery with
    | none => exact ledger_setPeer_same (by rfl) (by rfl)
    | some value => exact ledger_setPeer_same (by rfl) (by rfl)
  | dtrrResponse seq cause =>
    have hNoted : (s.setPeer i ((s.peers i).noteRx env.stamp)).ledger = s.ledger :=
      ledger_setPeer_same (by rfl) (by rfl)
    rcases answer_takes hMessage with ⟨hEnabled, hLedger⟩
    have hSame : (s.setPeer i ((s.peers i).noteRx env.stamp)).answerAct i
      (.dtrrResponse seq cause) arrivedOn = s.answerAct i (.dtrrResponse seq cause) arrivedOn := by
      simp only [answerAct, setPeer, update_self]
      rfl
    rw [hSame, hNoted] at hEnabled hLedger
    exact ⟨hEnabled, hLedger⟩
  | echoRequest =>
    rcases map_eq_ok hMessage with ⟨_, _, rfl⟩
    exact ⟨trivial, rfl⟩
  | ignored =>
    cases hMessage
    exact ⟨trivial, rfl⟩

---- Ticks ----

theorem release_takes (hSend : (s.peers i).gtppSendRelease env = .ok p) :
    Takes (s.releaseAct env i) s (s.setPeer i p) := by
  unfold gtppSendRelease at hSend
  unfold releaseAct
  split at hSend
  case isTrue hFull =>
    rw [if_pos hFull]
    cases hSend
    exact ⟨trivial, ledger_setPeer_same (by rfl) (by rfl)⟩
  case isFalse hFree =>
    rw [if_neg hFree]
    cases hSock : (s.peers i).sock with
    | none =>
      simp only [hSock] at hSend
      cases hSend
    | some via =>
      simp only [hSock] at hSend ⊢
      split at hSend
      case isTrue hOk =>
        rw [if_pos hOk]
        cases hSend
        refine ⟨⟨?_, rfl, hSock⟩, ?_⟩
        · exact none_mem_requests (not_not.mp hFree)
        · refine (ledger_setPeer_requests (by rw [hSock])).trans ?_
          have hPut := map_put Xact.toRequest
            { (s.peers i).releaseRequest via with
              retries := 0
              sentAt := env.stamp } (s.peers i).xacts
          simp only [Action.apply, Ledger.put, requests, hPut]
          rfl
      case isFalse hFailed =>
        rw [if_neg hFailed]
        cases hSend
        exact ⟨trivial, ledger_setPeer_same (by rfl) (by rw [hSock])⟩

theorem reopen_ledger {env : Env} {i : Slot} {s : Pipeline} :
    (s.reopen env i).1.ledger = s.ledger.setSock i (s.redialled env) := by
  have hRequests : (gtppReopenPeer env.dial s.nextEndpoint (s.peers i)).1.requests =
        s.ledger.requests i := by
    cases env.dial <;> rfl
  have hSock : (gtppReopenPeer env.dial s.nextEndpoint (s.peers i)).1.sock = s.redialled env := by
    unfold gtppReopenPeer gtppOpenPeer redialled
    cases env.dial <;> rfl
  have hPeer := ledger_setPeer i (gtppReopenPeer env.dial s.nextEndpoint (s.peers i)).1 s
  rw [hRequests, hSock, update_eq_self] at hPeer
  exact hPeer

theorem echo_takes {kind : Kind} {env : Env} {i : Slot} {s : Pipeline} :
    Takes (s.workAct kind env (.echo i)) s (s.echo kind env i) := by
  simp only [workAct]
  unfold echo
  by_cases hSock : (s.peers i).sock.isSome = true
  · rw [if_pos hSock, if_pos hSock]
    exact ⟨trivial, rfl⟩
  · rw [if_neg hSock, if_neg hSock]
    cases kind with
    | worker => exact ⟨trivial, rfl⟩
    | main =>
      refine ⟨not_isSome_iff_eq_none.mp hSock, ?_⟩
      simp only
      split
      · exact reopen_ledger
      · exact reopen_ledger

theorem rtoSlot_takes (hRto : s.rtoSlot env i k = .ok s') : Takes (s.rtoAct env i k) s s' := by
  unfold rtoSlot at hRto
  unfold rtoAct
  cases hXact : (s.peers i).xacts.getD k none with
  | none =>
    simp only [hXact] at hRto
    cases hRto
    exact ⟨trivial, rfl⟩
  | some x =>
    have hSlot : (s.peers i).xacts[k]? = some (some x) := by
      rw [getD_eq_getElem?_getD, getD_eq_iff] at hXact
      exact hXact.resolve_right nofun
    have hRequest := requests_slot hSlot
    simp only [hXact] at hRto ⊢
    refine .ite hRto ?_ fun _ hRto => .ite hRto ?_ ?_
    · intro _ hWait
      cases hWait
      exact ⟨trivial, rfl⟩
    · intro _ hGiveUp
      cases hFile : x.file with
      | some f =>
        simp only [hFile] at hGiveUp ⊢
        exact abortFilePipeline_ledger (s := { s with gaveUp := true }) hGiveUp
      | none =>
        simp only [hFile] at hGiveUp ⊢
        cases hGiveUp
        exact ⟨⟨_, hRequest, hFile⟩, ledger_freeXact⟩
    · intro _ hAgain
      rcases map_eq_ok hAgain with ⟨p, hSend, rfl⟩
      rcases map_eq_ok hSend with ⟨_, _, rfl⟩
      refine ⟨trivial, ledger_setPeer_same ?_ (by rfl)⟩
      exact requests_retimed hSlot rfl

theorem probeWith_ledger (hProbe : s.probeWith env i = .ok s') : s'.ledger = s.ledger := by
  rcases map_eq_ok hProbe with ⟨sent, hSend, rfl⟩
  rcases map_eq_ok hSend with ⟨_, _, rfl⟩
  split
  · exact ledger_setPeer_same (by rfl) (by rfl)
  · exact ledger_setPeer_same (by rfl) (by rfl)

end Pipeline

---- Reload ----

/- Where the peers of a reload come from. -/
structure Adopts (peers : Slot → Peer) (r : Reload) : Prop where
  kept : ∀ i j, r.origin i = some j → (r.peers i).requests = (peers j).requests ∧
        (r.peers i).sock = (peers j).sock
  fresh : ∀ i, r.origin i = none → (r.peers i).requests = List.replicate maxInflight none
  old : ∀ j, r.old j = peers j ∨ (r.old j).host = []
  taken : ∀ i j, r.origin i = some j → (r.old j).host = []
  injective : ∀ i i' j, r.origin i = some j → r.origin i' = some j → i = i'

/- Where the value of an updated function comes from. -/
theorem update_cases {f : Slot → Option Slot} (hValue : Function.update f i x i' = y) :
    (i' = i ∧ x = y) ∨ (i' ≠ i ∧ f i' = y) := by
  by_cases hHere : i' = i
  · subst hHere
    rw [update_self] at hValue
    exact Or.inl ⟨rfl, hValue⟩
  · rw [update_of_ne hHere] at hValue
    exact Or.inr ⟨hHere, hValue⟩

theorem requests_zero : zero.requests = List.replicate maxInflight none := by simp [requests, zero]

namespace Adopts

variable {peers : Slot → Peer} {r : Reload}

/- A peer that stays; its old slot is cleared. -/
theorem adopt (hAdopts : Adopts peers r) {i j : Slot} {role : Role} {num : Nat}
    (hHost : (r.old j).host ≠ []) : Adopts peers
      { r with
        old := Function.update r.old j zero
        peers := Function.update r.peers i { r.old j with role := role }
        num := num
        origin := Function.update r.origin i (some j) } := by
  have hOld : r.old j = peers j := by
    rcases hAdopts.old j with hSame | hGone
    · exact hSame
    · exact absurd hGone hHost
  have hFree : ∀ i', r.origin i' ≠ some j := by
    intro i' hTaken
    exact hHost (hAdopts.taken i' j hTaken)
  have hBefore : ∀ i' j', Function.update r.origin i (some j) i' = some j' →
    (i' = i ∧ j' = j) ∨ (i' ≠ i ∧ r.origin i' = some j') := fun _ _ hOrigin =>
    (update_cases hOrigin).imp_left (And.imp_right fun hSome => (Option.some.inj hSome).symm)
  constructor
  · intro i' j' hOrigin
    rcases hBefore i' j' hOrigin with ⟨rfl, rfl⟩ | ⟨hHere, hOrigin⟩
    · rw [← hOld]
      simp [requests]
    · simp only [update_of_ne hHere]
      exact hAdopts.kept i' j' hOrigin
  · intro i' hOrigin
    rcases update_cases hOrigin with ⟨-, hNone⟩ | ⟨hHere, hOrigin⟩
    · cases hNone
    · simp only [update_of_ne hHere]
      exact hAdopts.fresh i' hOrigin
  · intro j'
    simp only
    by_cases hHere : j' = j
    · subst hHere
      rw [update_self]
      exact Or.inr rfl
    · rw [update_of_ne hHere]
      exact hAdopts.old j'
  · intro i' j' hOrigin
    rcases hBefore i' j' hOrigin with ⟨rfl, rfl⟩ | ⟨_, hStays⟩
    · simp only [update_self]
      rfl
    · have hOther : j' ≠ j := by
        rintro rfl
        exact hFree i' hStays
      simp only [update_of_ne hOther]
      exact hAdopts.taken i' j' hStays
  · intro i1 i2 j' hFirst hSecond
    rcases hBefore i1 j' hFirst with ⟨rfl, rfl⟩ | ⟨_, hOne⟩
    · rcases hBefore i2 j' hSecond with ⟨rfl, _⟩ | ⟨_, hTwo⟩
      · rfl
      · exact absurd hTwo (hFree i2)
    · rcases hBefore i2 j' hSecond with ⟨rfl, rfl⟩ | ⟨_, hTwo⟩
      · exact absurd hOne (hFree i1)
      · exact hAdopts.injective i1 i2 j' hOne hTwo

/- A new peer. -/
theorem create (hAdopts : Adopts peers r) {i : Slot} {p : Peer} {num : Nat}
    {nextEndpoint : Endpoint} (hEmpty : p.requests = List.replicate maxInflight none) : Adopts peers
      { r with
        peers := Function.update r.peers i p
        num := num
        nextEndpoint := nextEndpoint
        origin := Function.update r.origin i none } := by
  have hBefore : ∀ i' j, Function.update r.origin i none i' = some j →
    i' ≠ i ∧ r.origin i' = some j := fun _ _ hOrigin => (update_cases hOrigin).resolve_left nofun
  constructor
  · intro i' j hOrigin
    rcases hBefore i' j hOrigin with ⟨hHere, hOrigin⟩
    simp only [update_of_ne hHere]
    exact hAdopts.kept i' j hOrigin
  · intro i' hOrigin
    rcases update_cases hOrigin with ⟨rfl, -⟩ | ⟨hHere, hOrigin⟩
    · simp only [update_self]
      exact hEmpty
    · simp only [update_of_ne hHere]
      exact hAdopts.fresh i' hOrigin
  · exact hAdopts.old
  · intro i' j hOrigin
    exact hAdopts.taken i' j (hBefore i' j hOrigin).2
  · intro i1 i2 j hFirst hSecond
    exact hAdopts.injective i1 i2 j (hBefore i1 j hFirst).2 (hBefore i2 j hSecond).2

/- One round of the loop. -/
theorem reinstate (hAdopts : Adopts peers r) {oldN : Nat} {dials : Slot → Dial}
    {entry : Slot × HotPeer} : Adopts peers (Cgf.reinstate oldN dials r entry) := by
  have hSkip : Adopts peers { r with nextEndpoint := r.nextEndpoint + 1 } :=
    { kept := hAdopts.kept
      fresh := hAdopts.fresh
      old := hAdopts.old
      taken := hAdopts.taken
      injective := hAdopts.injective }
  unfold Cgf.reinstate
  simp only
  split
  · exact hAdopts
  · cases hMatch : findMatchingOldPeer entry.2 r.old oldN with
    | some j =>
        apply hAdopts.adopt
        have hFits := List.find?_some hMatch
        simp only [Bool.and_eq_true, bne_iff_ne, ne_eq] at hFits
        exact hFits.1.1.2
    | none =>
        cases dials entry.1 with
        | ok =>
            apply hAdopts.create
            exact requests_zero
        | failed => exact hSkip
        | noPoll => exact hSkip

end Adopts

namespace Pipeline

variable {s s' : Pipeline}

theorem reinstateAll_adopts (hot : HotConfig) (dials : Slot → Dial) (s : Pipeline) :
    Adopts s.peers (s.reinstateAll hot dials) := by
  have hRun : ∀ (entries : List (Slot × HotPeer)) (r : Reload), Adopts s.peers r → Adopts s.peers
    (entries.foldl (reinstate s.numOfPeers dials) r) := by
    intro entries
    induction entries with
    | nil =>
      intro r hAdopts
      exact hAdopts
    | cons entry rest ih =>
      intro r hAdopts
      exact ih _ hAdopts.reinstate
  apply hRun
  exact
    { kept := nofun
      fresh := fun _ _ => requests_zero
      old := fun _ => Or.inl rfl
      taken := nofun
      injective := nofun }

theorem applyRuntime_takes {hot : HotConfig} {dials : Slot → Dial} {s : Pipeline} :
    Takes (.reload (s.reinstateAll hot dials).origin
        (fun i => ((s.reinstateAll hot dials).peers i).sock)) s (s.applyRuntime hot dials) := by
  have hAdopts := reinstateAll_adopts hot dials s
  refine ⟨⟨hAdopts.injective, ?_⟩, ?_⟩
  · intro i j hOrigin
    exact (hAdopts.kept i j hOrigin).2
  · have hRequests : (fun i => ((s.reinstateAll hot dials).peers i).requests) =
          Ledger.moved (s.reinstateAll hot dials).origin s.ledger.requests := by
      funext i
      unfold Ledger.moved
      cases hOrigin : (s.reinstateAll hot dials).origin i with
      | none => exact hAdopts.fresh i hOrigin
      | some j => exact (hAdopts.kept i j hOrigin).1
    simp only [Action.apply, Ledger.reload, ← hRequests]
    rfl

theorem boot_requests {starts : Slot → Start} {num : Nat} {nextEndpoint : Endpoint} {i : Slot} :
    (if i.val < num then (starts i).peer (nextEndpoint + i)
      else zero).requests =
      List.replicate maxInflight none := by
  split
  · unfold Start.peer
    split
    · exact requests_zero
    · exact requests_zero
  · exact requests_zero

---- Steps ----

variable {kind : Kind}

theorem work_takes (hWork : s.work kind env task = .ok s') :
    Takes (s.workAct kind env task) s s' := by
  cases task with
  | drain => exact drain_takes hWork
  | openMore cap =>
    cases hWork
    exact openMore_takes
  | drainIfMore before =>
    cases hWork
    refine ⟨trivial, ?_⟩
    unfold drainIfMore
    split <;> rfl
  | release i =>
    rcases map_eq_ok hWork with ⟨p, hSend, rfl⟩
    exact release_takes hSend
  | abort i => exact abortInFlight_ledger hWork
  | redial i =>
    rcases map_eq_ok hWork with ⟨mid, hAbort, rfl⟩
    rcases abortInFlight_ledger hAbort with ⟨hOpen, hLedger⟩
    refine ⟨hOpen, ?_⟩
    have hFresh : mid.redialled env = s.redialled env := by
      unfold redialled
      rw [abortInFlight_nextEndpoint hAbort]
    rw [reopen_ledger, hLedger, hFresh]
    rfl
  | resetSeq i =>
    cases hWork
    exact ⟨trivial, ledger_setPeer_same (by rfl) (by rfl)⟩
  | failOver =>
    cases hWork
    exact ⟨trivial, ledger_failOver⟩
  | echo i =>
    cases hWork
    exact echo_takes
  | echoCheck i =>
    cases hWork
    refine ⟨trivial, ?_⟩
    unfold echoCheck
    simp only
    split
    · rfl
    · split
      · exact ledger_setPeer_same (by rfl) (by rfl)
      · exact ledger_setPeer_same (by rfl) (by rfl)
  | echoSend i =>
    refine ⟨trivial, ?_⟩
    simp only [work, echoSend] at hWork
    split at hWork
    · exact probeWith_ledger hWork
    · cases hWork
      rfl
  | probe i =>
    refine ⟨trivial, ?_⟩
    simp only [work, probe] at hWork
    split at hWork
    · exact probeWith_ledger hWork
    · cases hWork
      rfl
  | rto i =>
    cases hWork
    exact ⟨trivial, rfl⟩
  | rtoActive =>
    refine ⟨trivial, ?_⟩
    simp only [work] at hWork
    split at hWork
    · cases hWork
      rfl
    · cases hWork
      rfl
  | rtoSlot i k => exact rtoSlot_takes hWork
  | rtoEnd i =>
    cases hWork
    refine ⟨trivial, ?_⟩
    unfold rtoEnd
    split
    · simp only
      split
      · rfl
      · exact ledger_setPeer_same (by rfl) (by rfl)
    · rfl
  | settle =>
    cases hWork
    refine ⟨trivial, ?_⟩
    unfold settle
    split <;> rfl

theorem dispatch_takes (hDispatch : s.dispatch env = .ok s') : Takes s.dispatchAct s s' := by
  unfold dispatch at hDispatch
  unfold dispatchAct
  cases hQueue : s.queue with
  | nil =>
    simp only [hQueue] at hDispatch
    cases hDispatch
    exact ⟨trivial, rfl⟩
  | cons event rest =>
    simp only [hQueue] at hDispatch ⊢
    refine .ite hDispatch ?_ ?_
    · intro _ hMessage
      exact onMessage_takes (s := { s with queue := rest }) hMessage
    · intro _ hIgnored
      cases hIgnored
      exact ⟨trivial, rfl⟩

theorem workerRecv_takes (hRecv : s.workerRecv env i octets = .ok s') :
    Takes (s.workerRecvAct i octets) s s' := by
  unfold workerRecv at hRecv
  unfold workerRecvAct
  cases hSock : (s.peers i).sock with
  | none =>
    simp only [hSock] at hRecv
    cases hRecv
    exact ⟨trivial, rfl⟩
  | some arrivedOn =>
    simp only [hSock] at hRecv ⊢
    rcases map_eq_ok hRecv with ⟨mid, hMessage, rfl⟩
    have hTakes := onMessage_takes hMessage
    exact hTakes

/- New workers know nothing of the requests before. -/
theorem restart_takes (hRestart : s.handle .worker (.restart hot starts num active) = .ok s') :
    Takes (s.handleAct .worker (.restart hot starts num active)) s s' := by
  cases hRestart
  refine ⟨trivial, ?_⟩
  have hRequests : (fun i : Slot =>
    (if i.val < num then (starts i).peer (s.nextEndpoint + i)
    else zero).requests) =
    Ledger.moved (fun _ => none) s.ledger.requests := by
    funext i
    exact boot_requests
  simp only [handleAct, Action.apply, Ledger.restart, Ledger.reload, ← hRequests]
  rfl

theorem handle_takes (hHandle : s.handle kind op = .ok s') : Takes (s.handleAct kind op) s s' := by
  cases kind with
  | main =>
    cases op with
    | arrive i octets env =>
      cases hHandle
      refine ⟨trivial, ?_⟩
      unfold enqueue
      split <;> rfl
    | dispatch env => exact dispatch_takes hHandle
    | reload hot dials =>
      cases hHandle
      exact applyRuntime_takes
    | _ =>
      cases hHandle
      exact ⟨trivial, rfl⟩
  | worker =>
    cases op with
    | arrive i octets env => exact workerRecv_takes hHandle
    | restart hot starts num active => exact restart_takes hHandle
    | _ =>
      cases hHandle
      exact ⟨trivial, rfl⟩

/- Every step is the action that `act` says. -/
theorem exec_takes (hExec : s.exec kind op = .ok s') : Takes (s.act kind op) s s' := by
  unfold exec at hExec
  unfold act
  cases hTodo : s.todo with
  | nil =>
    simp only [hTodo] at hExec ⊢
    exact handle_takes hExec
  | cons task rest =>
    cases op with
    | work env =>
      simp only [hTodo] at hExec ⊢
      exact work_takes (s := { s with todo := rest }) hExec
    | _ =>
      simp only [hTodo] at hExec
      cases hExec
      exact ⟨trivial, rfl⟩

end Pipeline

/- Nothing is known to a drain that starts. -/
def Ledger.Blank (c : Ledger) : Prop :=
  (∀ i, c.requests i = List.replicate maxInflight none) ∧ c.files = [] ∧ c.log = []

theorem Ledger.Blank.not_mem {c : Ledger} (hBlank : c.Blank) : some r ∉ c.requests i := by
  simp [hBlank.1 i]

/-
  What holds of blank ledgers and is kept by the actions of the allowed steps holds in every state
  reached.
-/
theorem ledger_invariant {P : Ledger → Prop} (hBlank : ∀ c : Ledger, c.Blank → P c)
    (hStep : ∀ s op, P s.ledger → Allowed s op → (s.act kind op).Enabled s.ledger →
        P ((s.act kind op).apply s.ledger)) (hReach : (cgfSystem kind).ReachableBy Allowed s) :
    P s.ledger := by
  apply hReach.invariant (P := fun s => P s.ledger)
  · rintro start ⟨cfg, starts, num, active, rfl⟩
    apply hBlank
    refine ⟨?_, rfl, rfl⟩
    intro i
    exact Pipeline.boot_requests
  · intro before op after _ hPrior hAllowed hExec
    rcases Pipeline.exec_takes hExec with ⟨hEnabled, hLedger⟩
    rw [hLedger]
    exact hStep before op hPrior hAllowed hEnabled

end Pretty5gs.Cgf
