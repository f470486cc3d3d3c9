import Pretty5gs.Cgf.Simulation

/-
  Batches that are given up without an answer, and the requests that carry their records again.

  The flag that marks requests as possibly duplicated belongs to a file. A refused batch gives up
  its unanswered neighbours without setting it, a confirmation clears it once nothing is in flight,
  and a reload does not set it.

  Main results: `ackBatchEx_advances`, `Marked.step`, `dropped_records_are_marked`.
-/

---- Acknowledged Files ----

namespace Pretty5gs.Cgf

open List Function

/- The confirmed offset once a batch is acknowledged. -/
def confirmedTo (file : SpoolFile) (batchStart records : Nat) : Nat :=
  if batchStart = file.nextRecordOffset then
    (drainPendingAcks { file with
        nextRecordOffset := offsetAfterRecords file.data batchStart records }).nextRecordOffset
  else file.nextRecordOffset

/- An acknowledgement of the batch clears the flag. -/
def ClearsFlag (file : SpoolFile) (batchStart : Nat) : Prop :=
  file.sendPossiblyDup = true ∧ file.inflightBatches ≤ 1 ∧ batchStart ≤ file.nextRecordOffset

instance (file : SpoolFile) (batchStart : Nat) : Decidable (ClearsFlag file batchStart) :=
  inferInstanceAs (Decidable (_ ∧ _ ∧ _))

/- Draining does not read the counters. -/
theorem drainRounds_counters {inflight : Nat} : drainRounds
        { file with
          pendingBatchRecords := pending
          inflightBatches := inflight } rounds =
      { drainRounds file rounds with
        pendingBatchRecords := pending
        inflightBatches := inflight } := by
  induction rounds generalizing file with
  | zero => rfl
  | succ rounds ih =>
    have hOne : drainOne
      { file with
        pendingBatchRecords := pending
        inflightBatches := inflight } = (drainOne file).map (fun next =>
      { next with
        pendingBatchRecords := pending
        inflightBatches := inflight }) := by
      unfold drainOne
      simp only
      split <;> rfl
    rw [drainRounds, drainRounds, hOne]
    cases drainOne file with
    | none => rfl
    | some next => exact ih

variable {file : SpoolFile}

theorem drainPendingAcks_bounds (hNext : file.nextRecordOffset ≤ file.data.length) :
    file.nextRecordOffset ≤ (drainPendingAcks file).nextRecordOffset ∧
      (drainPendingAcks file).nextRecordOffset ≤ file.data.length := by
  let InBounds : SpoolFile → Prop := fun last =>
    last.data = file.data ∧ file.nextRecordOffset ≤ last.nextRecordOffset ∧
      last.nextRecordOffset ≤ file.data.length
  have hKept : InBounds (drainPendingAcks file) := by
    apply drainPendingAcks_induct InBounds
    · rintro before last ⟨hData, hLow, hHigh⟩ hDrain
      rcases drainOne_some before last hDrain with ⟨ack, _, hStart, _, hLast⟩
      have hAck : ack.batchStart ≤ before.data.length := by
        rw [hStart, hData]
        exact hHigh
      have hBounds := offsetAfterRecords_bounds ack.records hAck
      rw [hLast]
      refine ⟨hData, ?_, ?_⟩
      · exact Nat.le_trans (hStart ▸ hLow) hBounds.1
      · exact Nat.le_trans hBounds.2 (Nat.le_of_eq (congrArg List.length hData))
    · exact ⟨rfl, Nat.le_refl _, hNext⟩
  exact hKept.2

theorem confirmedTo_bounds (hNext : file.nextRecordOffset ≤ file.data.length) :
    file.nextRecordOffset ≤ confirmedTo file batchStart records ∧
      confirmedTo file batchStart records ≤ file.data.length := by
  unfold confirmedTo
  split
  · rename_i hStart
    have hSkip := offsetAfterRecords_bounds records hNext
    rw [← hStart] at hSkip
    have hDrain := @drainPendingAcks_bounds
      { file with nextRecordOffset := offsetAfterRecords file.data batchStart records } hSkip.2
    rw [← hStart]
    exact ⟨Nat.le_trans hSkip.1 hDrain.1, hDrain.2⟩
  · exact ⟨Nat.le_refl _, hNext⟩

@[simp] theorem clearPossiblyDup_data : (clearPossiblyDup file).data = file.data := by
  unfold clearPossiblyDup
  split <;> rfl

@[simp] theorem clearPossiblyDup_nextRecordOffset :
    (clearPossiblyDup file).nextRecordOffset = file.nextRecordOffset := by
  unfold clearPossiblyDup
  split <;> rfl

theorem clearPossiblyDup_flag (hFlag : file.sendPossiblyDup = true)
    (hInflight : file.inflightBatches ≠ 0) : (clearPossiblyDup file).sendPossiblyDup = true := by
  rw [clearPossiblyDup, if_neg hInflight]
  exact hFlag

/- What an acknowledgement does to the offset and the flag. -/
theorem ackBatchEx_file :
    (ackBatchEx file batchStart records).file.data = file.data ∧
      (ackBatchEx file batchStart records).file.nextRecordOffset =
        confirmedTo file batchStart records ∧ (file.sendPossiblyDup = true →
        ¬ ClearsFlag file batchStart → (ackBatchEx file batchStart
          records).file.sendPossiblyDup = true) := by
  unfold ackBatchEx confirmedTo
  have hInflight : file.sendPossiblyDup = true → batchStart ≤ file.nextRecordOffset →
    ¬ ClearsFlag file batchStart → file.inflightBatches - 1 ≠ 0 := by
    intro hFlag hStart hKeeps hNone
    exact hKeeps ⟨hFlag, Nat.sub_eq_zero_iff_le.mp hNone, hStart⟩
  by_cases hLate : batchStart < file.nextRecordOffset
  · rw [if_pos hLate, if_neg (Nat.ne_of_lt hLate)]
    refine ⟨clearPossiblyDup_data, clearPossiblyDup_nextRecordOffset, ?_⟩
    intro hFlag hKeeps
    exact clearPossiblyDup_flag hFlag (hInflight hFlag (Nat.le_of_lt hLate) hKeeps)
  · rw [if_neg hLate]
    by_cases hStart : batchStart = file.nextRecordOffset
    · rw [if_pos hStart, if_pos hStart]
      let skipped : SpoolFile :=
        { file with nextRecordOffset := offsetAfterRecords file.data batchStart records }
      have hCounters : drainPendingAcks
        { skipped with
          pendingBatchRecords := 0
          inflightBatches := file.inflightBatches - 1 } =
        { drainPendingAcks skipped with
          pendingBatchRecords := 0
          inflightBatches := file.inflightBatches - 1 } := drainRounds_counters
      rcases drainPendingAcks_frame skipped with ⟨next, acks, hFrame⟩
      rw [hCounters]
      simp only [Acked.done, clearPossiblyDup_data, clearPossiblyDup_nextRecordOffset, hFrame]
      refine ⟨rfl, congrArg SpoolFile.nextRecordOffset hFrame.symm, ?_⟩
      intro hFlag hKeeps
      exact clearPossiblyDup_flag hFlag (hInflight hFlag (Nat.le_of_eq hStart) hKeeps)
    · rw [if_neg hStart]
      split
      · exact ⟨rfl, rfl, fun hFlag _ => hFlag⟩
      · split
        · exact ⟨rfl, rfl, fun hFlag _ => hFlag⟩
        · exact ⟨rfl, rfl, fun hFlag _ => hFlag⟩

---- Marked Files ----

/- A request that carries an unconfirmed octet of a batch that was given up before is marked. -/
def Event.Respects : Event → Event → Prop
| .sent f start stop ptc offset, .dropped g first last =>
    f = g → ∀ o, first ≤ o → o < last → start ≤ o → o < stop → offset ≤ o → ptc = .sendPossDup
| _, _ => True

/- A batch that was given up is marked or confirmed. -/
def Event.Settled (c : Ledger) : Event → Prop
| .dropped f _ last =>
    f ∈ c.files → (c.heap f).sendPossiblyDup = true ∨ last ≤ (c.heap f).nextRecordOffset
| _ => True

instance (c : Ledger) (event : Event) : Decidable (event.Settled c) :=
  match event with
  | .dropped f _ last =>
    inferInstanceAs (Decidable (f ∈ c.files → (c.heap f).sendPossiblyDup = true ∨
      last ≤ (c.heap f).nextRecordOffset))
  | .sent _ _ _ _ _ => isTrue trivial
  | .confirmed _ _ _ _ _ _ => isTrue trivial

/- What was given up of the file ends at the offset. -/
def Event.EndsBy (f : FileId) (offset : Nat) : Event → Prop
| .dropped g _ last => g = f → last ≤ offset
| _ => True

instance (f : FileId) (offset : Nat) (event : Event) : Decidable (event.EndsBy f offset) :=
  match event with
  | .dropped g _ last => inferInstanceAs (Decidable (g = f → last ≤ offset))
  | .sent _ _ _ _ _ => isTrue trivial
  | .confirmed _ _ _ _ _ _ => isTrue trivial

/-
  No mark is missing: a refusal and a reload give up batches of marked files or confirmed ones only,
  and an acknowledgement clears the flag once all that was given up is confirmed.
-/
def Action.Marks (action : Action) (c : Ledger) : Prop :=
  match action with
  | .refuse i k f false =>
      ∀ event ∈ dropEvents c.heap (Peer.refersTo f) ((c.free i k).requests i), event.Settled c
  | .reload origin _ => ∀ event ∈ Pipeline.forsakenEvents origin c.heap c.requests, event.Settled c
  | .confirm _ _ f r _ _ =>
      ClearsFlag (c.heap f) r.batchStart → ∀ event ∈ c.log, event.EndsBy f
            (confirmedTo (c.heap f) r.batchStart r.recordsInBatch)
  | _ => True

instance (action : Action) (c : Ledger) : Decidable (action.Marks c) := by
  unfold Action.Marks
  split <;> infer_instance

/- What holds of the ledger of a run. -/
structure Marked (c : Ledger) : Prop where
  freshFiles : ∀ f ∈ c.files, f < c.nextFile
  freshRequests : ∀ i r f, some r ∈ c.requests i → r.file = some f → f < c.nextFile
  freshEvents : ∀ f first last, .dropped f first last ∈ c.log → f < c.nextFile
  bounded : ∀ f ∈ c.files, (c.heap f).nextRecordOffset ≤ (c.heap f).data.length
  settled : ∀ event ∈ c.log, event.Settled c
  respects : c.log.Pairwise Event.Respects

/-
  How a file may change: no confirmed record is taken back, and the flag stays until all that was
  given up is confirmed.
-/
structure Advances (log : List Event) (f : FileId) (file next : SpoolFile) : Prop where
  data : next.data = file.data
  bounds : file.nextRecordOffset ≤ file.data.length →
      file.nextRecordOffset ≤ next.nextRecordOffset ∧ next.nextRecordOffset ≤ file.data.length
  flag : file.sendPossiblyDup = true → next.sendPossiblyDup = true ∨
        ∀ event ∈ log, event.EndsBy f next.nextRecordOffset

namespace Advances

variable {log : List Event} {f : FileId} {file next : SpoolFile}

theorem of_same (hData : next.data = file.data)
    (hNext : next.nextRecordOffset = file.nextRecordOffset)
    (hFlag : file.sendPossiblyDup = true → next.sendPossiblyDup = true) :
    Advances log f file next where
  data := hData
  bounds := by
    intro hBounded
    rw [hNext]
    exact ⟨Nat.le_refl _, hBounded⟩
  flag := fun hMarked => Or.inl (hFlag hMarked)

theorem refl : Advances log f file file := of_same rfl rfl id

theorem rewound : Advances log f file (Pipeline.rewound uncertain file) := by
  cases uncertain with
  | false => exact of_same rfl rfl id
  | true => exact of_same rfl rfl (fun _ => rfl)

theorem ackBatchEx
    (hMarks : ClearsFlag file batchStart → ∀ event ∈ log,
          event.EndsBy f (confirmedTo file batchStart records)) :
    Advances log f file (ackBatchEx file batchStart records).file := by
  rcases ackBatchEx_file with ⟨hData, hNext, hFlag⟩
  refine ⟨hData, ?_, ?_⟩
  · intro hBounded
    rw [hNext]
    exact confirmedTo_bounds hBounded
  · intro hMarked
    by_cases hClears : ClearsFlag file batchStart
    · rw [hNext]
      exact Or.inr (hMarks hClears)
    · exact Or.inl (hFlag hMarked hClears)

/- Only one file of the heap changes. -/
theorem update (hHere : Advances log f (heap f) next) {g : FileId} :
    Advances log g (heap g) (Function.update heap f next g) := by
  by_cases hSame : g = f
  · subst hSame
    rw [update_self]
    exact hHere
  · rw [update_of_ne hSame]
    exact refl

end Advances

theorem Ledger.Stages.advances {c : Ledger} (hStages : c.Stages f staged) {log : List Event}
    {g : FileId} : Advances log g (c.heap g) ((c.setFile f staged).heap g) := by
  rcases hStages with ⟨_, start, records, rfl⟩
  have hHere : Advances log f (c.heap f)
    { c.heap f with
      pendingBatchStart := start
      pendingBatchRecords := records } := .of_same rfl rfl id
  exact hHere.update

namespace Action

variable {action : Action} {c : Ledger}

variable {f : FileId}

/- Files are opened under the next number, and no other. -/
theorem mem_files (hMem : f ∈ (action.apply c).files) :
    f ∈ c.files ∨ f = c.nextFile ∧ ∃ file, action = .openFile file := by
  cases action with
  | openFile file =>
    rcases mem_append.mp hMem with hOld | hNew
    · exact Or.inl hOld
    · exact Or.inr ⟨mem_singleton.mp hNew, file, rfl⟩
  | quarantine g staged => exact Or.inl (mem_of_mem_erase hMem)
  | confirm i k g r seq arrivedOn =>
    simp only [apply, Ledger.confirm] at hMem
    split at hMem
    · exact Or.inl (mem_of_mem_erase hMem)
    · exact Or.inl hMem
  | restart socks => cases hMem
  | _ => exact Or.inl hMem

theorem nextFile_le : c.nextFile ≤ (action.apply c).nextFile := by
  cases action with
  | openFile file => exact Nat.le_succ _
  | _ => exact Nat.le_refl _

/- An open file advances with every action that marks. -/
theorem advances (hFresh : f < c.nextFile) (hOpen : f ∈ (action.apply c).files)
    (hMarks : action.Marks c) (hEnabled : action.Enabled c) :
    Advances c.log f (c.heap f) ((action.apply c).heap f) := by
  cases action with
  | openFile file =>
    have hOther : f ≠ c.nextFile := Nat.ne_of_lt hFresh
    simp only [apply, Ledger.openFile, update_of_ne hOther]
    exact .refl
  | stage g staged => exact hEnabled.advances
  | quarantine g staged => exact hEnabled.advances
  | send i g staged r =>
    rcases hEnabled.1 with ⟨_, start, records, rfl⟩
    have hHere : Advances c.log g (c.heap g) (commitSend
      { c.heap g with
        pendingBatchStart := start
        pendingBatchRecords := records } r.batchStart r.recordsInBatch) := .of_same rfl rfl id
    simp only [apply, Ledger.send, Ledger.note, Ledger.setFile,
      Ledger.put, update_self, update_idem]
    exact hHere.update
  | fail i g staged =>
    rcases hEnabled with ⟨_, start, records, rfl⟩
    have hHere : Advances c.log g (c.heap g) (Pipeline.rewound true
      { c.heap g with
        pendingBatchStart := start
        pendingBatchRecords := records }) := .of_same rfl rfl (fun _ => rfl)
    simp only [apply, Ledger.rewind, Ledger.noteAll,
      Ledger.setFile, Ledger.drop, update_self, update_idem]
    exact hHere.update
  | confirm i k g r seq arrivedOn => exact (Advances.ackBatchEx hMarks).update
  | refuse i k g uncertain => exact Advances.rewound.update
  | rewind i g => exact Advances.rewound.update
  | abort i =>
    simp only [apply, Ledger.abort]
    split
    · exact .rewound
    · exact .refl
  | redial i sock =>
    simp only [apply, Ledger.setSock, Ledger.abort]
    split
    · exact .rewound
    · exact .refl
  | restart socks => cases hOpen
  | _ => exact .refl

/- What is given up was requested. -/
theorem dropped_requested (hMem : .dropped f first last ∈ action.events c) :
    ∃ i r, some r ∈ c.requests i ∧ r.file = some f := by
  rcases Action.mem_events hMem with ⟨i, g, staged, r, rfl⟩ | ⟨i, k, g, r, seq, arrivedOn, rfl⟩ |
    ⟨i, r, g, low, high, hRequest, hFile, hEvent⟩
  · cases mem_singleton.mp hMem
  · cases mem_singleton.mp hMem
  · cases hEvent
    exact ⟨i, r, hRequest, hFile⟩

theorem sent_mem_events (hMem : .sent f start stop ptc offset ∈ action.events c) :
    ∃ i staged r, action = .send i f staged r ∧ ptc = r.ptc ∧ offset = staged.nextRecordOffset := by
  rcases Action.mem_events hMem with ⟨i, g, staged, r, rfl⟩ | ⟨i, k, g, r, seq, arrivedOn, rfl⟩ |
    ⟨i, r, g, low, high, _, _, hEvent⟩
  · cases mem_singleton.mp hMem
    refine ⟨i, staged, r, rfl, rfl, ?_⟩
    simp [Ledger.setFile]
  · cases mem_singleton.mp hMem
  · cases hEvent

variable {event : Event}

/- A rewound file is marked, if it is uncertain. -/
theorem settled_of_rewind (hMem : event ∈ dropEvents heap (Peer.refersTo f) requests) :
    event.Settled (c.rewind i f true) := by
  rcases mem_dropEvents.mp hMem with ⟨r, g, _, hRefers, hFile, rfl⟩
  have hHere : g = f := by simpa [Peer.refersTo, hFile] using hRefers
  subst hHere
  intro _
  left
  simp only [Ledger.rewind, Ledger.noteAll, Ledger.setFile, update_self]
  rfl

theorem settled_of_abort (hMem : event ∈ dropEvents c.heap (fun _ => true) (c.requests i)) :
    event.Settled (c.abort i) := by
  rcases mem_dropEvents.mp hMem with ⟨r, g, hRequest, _, hFile, rfl⟩
  have hHeld : g ∈ Pipeline.heldFiles (c.requests i) := mem_filterMap.mpr ⟨some r, hRequest, hFile⟩
  intro _
  left
  simp only [Ledger.abort, if_pos hHeld]
  rfl

/- The batches that an action gives up are settled by it. -/
theorem settles (hMarks : action.Marks c) (hMem : event ∈ action.events c) :
    event.Settled (action.apply c) := by
  cases action with
  | send i f staged r =>
    rw [mem_singleton.mp hMem]
    trivial
  | confirm i k f r seq arrivedOn =>
    rw [mem_singleton.mp hMem]
    trivial
  | fail i f staged => exact settled_of_rewind hMem
  | rewind i f => exact settled_of_rewind hMem
  | refuse i k f uncertain =>
    cases uncertain with
    | true => exact settled_of_rewind hMem
    | false =>
      -- Offset and flag of the file stay as they are.
      have hPrior := hMarks event hMem
      rcases mem_dropEvents.mp hMem with ⟨r, g, _, hRefers, hFile, rfl⟩
      have hHere : g = f := by simpa [Peer.refersTo, hFile] using hRefers
      subst hHere
      intro hOpen
      simp only [apply, Ledger.rewind, Ledger.noteAll, Ledger.setFile, update_self]
      exact hPrior hOpen
  | abort i => exact settled_of_abort hMem
  | redial i sock =>
    have hSettled := settled_of_abort hMem
    rcases mem_dropEvents.mp hMem with ⟨r, g, _, _, _, rfl⟩
    exact hSettled
  | reload origin socks =>
    have hPrior := hMarks event hMem
    rcases mem_forsakenEvents.mp hMem with ⟨j, _, hDropped⟩
    rcases mem_dropEvents.mp hDropped with ⟨r, g, _, _, _, rfl⟩
    exact hPrior
  | restart socks =>
    rcases mem_forsakenEvents.mp hMem with ⟨j, _, hDropped⟩
    rcases mem_dropEvents.mp hDropped with ⟨r, g, _, _, _, rfl⟩
    intro hOpen
    cases hOpen
  | _ => cases hMem

end Action

---- Runs ----

namespace Marked

variable {c : Ledger} {action : Action}

variable {f : FileId}

theorem freshRequests_apply (hMarked : Marked c) (hEnabled : action.Enabled c)
    (hMem : some r ∈ (action.apply c).requests i) (hFile : r.file = some f) : f < c.nextFile := by
  have hCarries := Action.mem_apply hMem
  cases action with
  | send j g staged sent =>
    rcases hCarries with hOld | ⟨rfl, rfl⟩
    · exact hMarked.freshRequests i r f hOld hFile
    · rw [hEnabled.2.2.1] at hFile
      cases hFile
      exact hMarked.freshFiles _ hEnabled.1.1
  | release j sent =>
    rcases hCarries with hOld | ⟨rfl, rfl⟩
    · exact hMarked.freshRequests i r f hOld hFile
    · rw [hEnabled.2.1] at hFile
      cases hFile
  | reload origin socks =>
    rcases hCarries with ⟨j, _, hOld⟩
    exact hMarked.freshRequests j r f hOld hFile
  | restart socks => exact hCarries.elim
  | _ => exact hMarked.freshRequests i r f hCarries hFile

theorem freshEvents_apply (hMarked : Marked c)
    (hMem : .dropped f first last ∈ (action.apply c).log) : f < c.nextFile := by
  rw [Action.log_apply] at hMem
  rcases mem_append.mp hMem with hNew | hOld
  · rcases Action.dropped_requested hNew with ⟨i, r, hRequest, hFile⟩
    exact hMarked.freshRequests i r f hRequest hFile
  · exact hMarked.freshEvents f first last hOld

/- A batch that was settled stays so. -/
theorem settled_apply (hMarked : Marked c) (hMarks : action.Marks c) (hEnabled : action.Enabled c)
    (hMem : event ∈ c.log) : event.Settled (action.apply c) := by
  cases event with
  | sent f start stop ptc offset => trivial
  | confirmed f start seq via answerSeq arrivedOn => trivial
  | dropped f first last =>
    intro hOpen
    have hFresh := hMarked.freshEvents f first last hMem
    have hOld : f ∈ c.files := by
      rcases Action.mem_files hOpen with hOld | ⟨hNew, _⟩
      · exact hOld
      · exact absurd hNew (Nat.ne_of_lt hFresh)
    have hFile := Action.advances hFresh hOpen hMarks hEnabled
    have hNext := (hFile.bounds (hMarked.bounded f hOld)).1
    rcases hMarked.settled _ hMem hOld with hFlag | hEnd
    · rcases hFile.flag hFlag with hKept | hEnds
      · exact Or.inl hKept
      · exact Or.inr (hEnds _ hMem rfl)
    · exact Or.inr (Nat.le_trans hEnd hNext)

/- A batch of a file with given-up batches is marked. -/
theorem respects_apply (hMarked : Marked c) (hEnabled : action.Enabled c)
    (hEvent : event ∈ action.events c) (hOlder : older ∈ c.log) : event.Respects older := by
  cases event with
  | dropped f first last => trivial
  | confirmed f start seq via answerSeq arrivedOn => trivial
  | sent f start stop ptc offset =>
    rcases Action.sent_mem_events hEvent with ⟨i, staged, r, rfl, rfl, rfl⟩
    rcases hEnabled with ⟨hStages, _, _, _, hPtc⟩
    rcases hStages with ⟨hOpen, _, _, rfl⟩
    cases older with
    | sent => trivial
    | confirmed => trivial
    | dropped g first last =>
      rintro rfl o _ hLast _ _ hOffset
      -- The octet is not confirmed, so the flag is set.
      rcases hMarked.settled _ hOlder hOpen with hFlag | hEnd
      · rw [hPtc, if_pos hFlag]
      · exact absurd (Nat.le_trans hEnd hOffset) (Nat.not_le_of_lt hLast)

/- The events of one action do not affect each other. -/
theorem respects_events (hEvent : event ∈ action.events c) (hOlder : older ∈ action.events c) :
    event.Respects older := by
  cases event with
  | dropped f first last => trivial
  | confirmed f start seq via answerSeq arrivedOn => trivial
  | sent f start stop ptc offset =>
    rcases Action.sent_mem_events hEvent with ⟨i, staged, r, rfl, _, _⟩
    rw [mem_singleton.mp hOlder]
    trivial

theorem bounded_apply (hMarked : Marked c) (hMarks : action.Marks c) (hEnabled : action.Enabled c)
    (hOpen : f ∈ (action.apply c).files) :
    ((action.apply c).heap f).nextRecordOffset ≤ ((action.apply c).heap f).data.length := by
  rcases Action.mem_files hOpen with hOld | ⟨rfl, file, rfl⟩
  · have hFile := Action.advances (hMarked.freshFiles f hOld) hOpen hMarks hEnabled
    rw [hFile.data]
    exact (hFile.bounds (hMarked.bounded f hOld)).2
  · rcases hEnabled with ⟨data, rfl⟩
    simp [Action.apply, Ledger.openFile, SpoolFile.opened]

/- What a step keeps. -/
theorem step (hMarked : Marked c) (hMarks : action.Marks c) (hEnabled : action.Enabled c) :
    Marked (action.apply c) where
  freshFiles := by
    intro f hOpen
    rcases Action.mem_files hOpen with hOld | ⟨rfl, file, rfl⟩
    · exact Nat.lt_of_lt_of_le (hMarked.freshFiles f hOld) Action.nextFile_le
    · exact Nat.lt_succ_self _
  freshRequests := by
    intro i r f hMem hFile
    exact Nat.lt_of_lt_of_le (hMarked.freshRequests_apply hEnabled hMem hFile) Action.nextFile_le
  freshEvents := by
    intro f first last hMem
    exact Nat.lt_of_lt_of_le (hMarked.freshEvents_apply hMem) Action.nextFile_le
  bounded := fun f => hMarked.bounded_apply hMarks hEnabled
  settled := by
    intro event hMem
    rw [Action.log_apply] at hMem
    rcases mem_append.mp hMem with hNew | hOld
    · exact Action.settles hMarks hNew
    · exact hMarked.settled_apply hMarks hEnabled hOld
  respects := by
    rw [Action.log_apply, pairwise_append]
    refine ⟨?_, hMarked.respects, ?_⟩
    · apply pairwise_of_forall_mem_list
      intro event hEvent older hOlder
      exact respects_events hEvent hOlder
    · intro event hEvent older hOlder
      exact hMarked.respects_apply hEnabled hEvent hOlder

theorem blank (hBlank : c.Blank) : Marked c := by
  rcases hBlank with ⟨hRequests, hFiles, hLog⟩
  constructor <;> simp [hRequests, hFiles, hLog]

end Marked

/- The steps of a run that leave no mark out. -/
def MarkedSteps (kind : Kind) (s : Pipeline) (op : Op) : Prop := (s.act kind op).Marks s.ledger

instance (kind : Kind) (s : Pipeline) (op : Op) : Decidable (MarkedSteps kind s op) :=
  inferInstanceAs (Decidable ((s.act kind op).Marks s.ledger))

/-
  A request that carries a record of a batch that was given up earlier without an answer, and that
  is not confirmed, is marked as possibly duplicated. The log has the newest event first.
-/
theorem dropped_records_are_marked (kind : Kind) (s : Pipeline)
    (hReach : (cgfSystem kind).ReachableBy (MarkedSteps kind) s) (later earlier : List Event)
    (f : FileId) (start stop offset first last : Nat) (ptc : Ptc)
    (hLog : s.log = later ++ .sent f start stop ptc offset :: earlier)
    (hDropped : .dropped f first last ∈ earlier) (o : Nat) (hBatch : first ≤ o ∧ o < last)
    (hCarried : start ≤ o ∧ o < stop) (hUnconfirmed : offset ≤ o) : ptc = .sendPossDup := by
  have hMarked : Marked s.ledger := by
    apply ledger_invariant (fun c => Marked.blank) ?_ hReach
    intro before op hPrior hMarks hEnabled
    exact hPrior.step hMarks hEnabled
  have hRespects : s.log.Pairwise Event.Respects := hMarked.respects
  rw [hLog, pairwise_append] at hRespects
  have hHere := (pairwise_cons.mp hRespects.2.1).1 _ hDropped
  exact hHere rfl o hBatch.1 hBatch.2 hCarried.1 hCarried.2 hUnconfirmed

/- A file of two records is opened, and the first one sent. -/
def twoRecordSteps (rest : List Op) : List Op :=
  [.spoolTick, sampleSpool (sampleFrame ++ sampleFrame), sampleWork, sampleWork] ++ rest

/- The second send fails, and the other peer takes over. -/
def sendErrorSteps : List Op := twoRecordSteps
    [.work (sampleEnv false none), .spoolTick, sampleWork, sampleWork]

theorem dropped_records_are_marked_send_error :
    ∃ s ptc, (cgfSystem .main).run (sampleDrain .failover 2 2) sendErrorSteps = .ok s ∧ s.log =
          [.sent 0 0 9 ptc 0, .dropped 0 0 9, .sent 0 0 9 .sendDataRec 0] ∧ ptc = .sendPossDup := by
  have hRun : ∃ s, (cgfSystem .main).run (sampleDrain .failover 2 2) sendErrorSteps = .ok s ∧
    s.log = [.sent 0 0 9 .sendPossDup 0, .dropped 0 0 9, .sent 0 0 9 .sendDataRec 0] :=
    Faulty.System.exists_run (by decide +kernel)
  rcases hRun with ⟨s, hRun, hLog⟩
  have hAllowed : (cgfSystem .main).AllowedRun (MarkedSteps .main)
    (sampleDrain .failover 2 2) sendErrorSteps := by
    decide +kernel
  refine ⟨s, _, hRun, hLog, ?_⟩
  exact dropped_records_are_marked .main s (.run (.init ⟨_, _, _, _, rfl⟩) hAllowed hRun) []
    [.dropped 0 0 9, .sent 0 0 9 .sendDataRec 0] 0 0 9 0 0 9 _
    hLog mem_cons_self 0 (by decide) (by decide) (by decide)

/-
  The first batch is refused, and the second one is given up with it and sent again without a mark.
-/
theorem dropped_record_is_not_marked :
    ∃ s, (cgfSystem .main).Reachable s ∧ s.log = [.sent 0 9 18 .sendDataRec 0,
            .sent 0 0 9 .sendDataRec 0, .dropped 0 9 18, .sent 0 9 18 .sendDataRec 0,
            .sent 0 0 9 .sendDataRec 0] := by
  have hRun : ∃ s, (cgfSystem .main).run (sampleDrain .failover 2 1) (twoRecordSteps
    [sampleWork, sampleWork, sampleAnswer 0 1 0,
      .dispatch (sampleEnv true none), sampleWork, sampleWork]) = .ok s ∧ s.log =
    [.sent 0 9 18 .sendDataRec 0, .sent 0 0 9 .sendDataRec 0, .dropped 0 9 18,
      .sent 0 9 18 .sendDataRec 0, .sent 0 0 9 .sendDataRec 0] :=
    Faulty.System.exists_run (by decide +kernel)
  rcases hRun with ⟨s, hRun, hLog⟩
  exact ⟨s, .run (.init ⟨_, _, _, _, rfl⟩) hRun, hLog⟩

end Pretty5gs.Cgf
