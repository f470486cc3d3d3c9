import Pretty5gs.Cgf.Consistent

/-
  The requests for a file are all at one peer.

  In round robin the drain looks for the peer that has requests for a file, among the peers it
  counts. In failover it takes the active peer, and the active peer may change while another one
  still has requests for the file.

  Main results: `act_send`, `requests_of_a_file_share_a_peer`.
-/

---- Pinned Files ----

namespace Pretty5gs.Cgf

/- No two peers have requests for one file. -/
def Pinned (c : Ledger) : Prop := ∀ i j f, c.Holds i f → c.Holds j f → i = j

namespace Pinned

variable {c next : Ledger}

/- Peers have requests for the files they had them for. -/
theorem mono (hPinned : Pinned c) (hHolds : ∀ i f, next.Holds i f → c.Holds i f) : Pinned next := by
  intro i j f hLeft hRight
  exact hPinned i j f (hHolds i f hLeft) (hHolds j f hRight)

/- One peer gets one file that no other peer has. -/
theorem insert (hPinned : Pinned c) (hAlone : ∀ j, j ≠ i → ¬ c.Holds j f)
    (hHolds : ∀ j g, next.Holds j g → c.Holds j g ∨ (j = i ∧ g = f)) : Pinned next := by
  -- Who has the file afterwards is the peer that got it.
  have hHere : ∀ j, next.Holds j f → j = i := by
    intro j hNext
    rcases hHolds j f hNext with hOld | hNew
    · by_contra hOther
      exact hAlone j hOther hOld
    · exact hNew.1
  intro j k g hLeft hRight
  by_cases hFile : g = f
  · subst hFile
    rw [hHere j hLeft, hHere k hRight]
  · have hOld : ∀ l, next.Holds l g → c.Holds l g := by
      intro l hNext
      rcases hHolds l g hNext with hOld | hNew
      · exact hOld
      · exact absurd hNew.2 hFile
    exact hPinned j k g (hOld j hLeft) (hOld k hRight)

/- Peers move to slots of their own. -/
theorem moved {origin : Slot → Option Slot} (hPinned : Pinned c)
    (hOnce : ∀ i i' j, origin i = some j → origin i' = some j → i = i')
    (hHolds : ∀ i f, next.Holds i f → ∃ j, origin i = some j ∧ c.Holds j f) : Pinned next := by
  intro i i' f hLeft hRight
  rcases hHolds i f hLeft with ⟨j, hFrom, hOld⟩
  rcases hHolds i' f hRight with ⟨j', hFrom', hOld'⟩
  have hSame := hPinned j j' f hOld hOld'
  subst hSame
  exact hOnce i i' j hFrom hFrom'

end Pinned

---- The Peer Of A Send ----

namespace Pipeline

variable {s : Pipeline} {kind : Kind}

variable {r : Request} {staged : SpoolFile}

theorem fileAct_send (hAct : s.fileAct env g j = .send i f staged r) : j = i ∧ g = f := by
  unfold fileAct at hAct
  simp only at hAct
  split at hAct
  · split at hAct <;> cases hAct
  · split at hAct
    · cases hAct
    · split at hAct
      · cases hAct
      · cases hAct
      · cases hAct
        exact ⟨rfl, rfl⟩

variable {f : FileId} {i : Slot}

theorem drainAct_send (hAct : s.drainAct kind env = .send i f staged r) :
    ∃ idx, s.selectPeerForFile kind f = some (i, idx) := by
  unfold drainAct at hAct
  cases hPick : s.pickSendableFile kind with
  | some picked =>
    simp only [hPick] at hAct
    rcases fileAct_send hAct with ⟨hSlot, hFile⟩
    have hSelect := (pickSendableFile_mem hPick).2
    rw [hFile] at hSelect
    refine ⟨picked.2.2, hSelect.trans ?_⟩
    rw [← hSlot]
  | none =>
    simp only [hPick] at hAct
    split at hAct
    · cases hAct
    · split at hAct
      · cases hAct
      · split at hAct <;> cases hAct

/- Answers send nothing. -/
theorem answerAct_ne_send : s.answerAct j message arrivedOn ≠ .send i f staged r := by
  intro hAct
  unfold answerAct at hAct
  split at hAct
  · split at hAct
    · cases hAct
    · split at hAct
      · cases hAct
      · split at hAct
        · cases hAct
        · split at hAct <;> cases hAct
  · cases hAct

theorem handleAct_ne_send : s.handleAct kind op ≠ .send i f staged r := by
  intro hAct
  unfold handleAct at hAct
  split at hAct
  · unfold workerRecvAct at hAct
    split at hAct
    · cases hAct
    · exact answerAct_ne_send hAct
  · unfold dispatchAct at hAct
    split at hAct
    · cases hAct
    · split at hAct
      · exact answerAct_ne_send hAct
      · cases hAct
  · cases hAct
  · cases hAct
  · cases hAct

theorem workAct_send (hAct : s.workAct kind env task = .send i f staged r) :
    ∃ idx, s.selectPeerForFile kind f = some (i, idx) := by
  cases task with
  | drain => exact drainAct_send hAct
  | openMore cap =>
    simp only [workAct, openAct] at hAct
    split at hAct
    · cases hAct
    · split at hAct
      · cases hAct
      · split at hAct <;> cases hAct
  | release j =>
    simp only [workAct, releaseAct] at hAct
    split at hAct
    · cases hAct
    · split at hAct
      · cases hAct
      · split at hAct <;> cases hAct
  | echo j =>
    simp only [workAct] at hAct
    split at hAct
    · cases hAct
    · split at hAct <;> cases hAct
  | rtoSlot j k =>
    simp only [workAct, rtoAct] at hAct
    split at hAct
    · cases hAct
    · split at hAct
      · cases hAct
      · split at hAct
        · split at hAct <;> cases hAct
        · cases hAct
  | _ => cases hAct

/- Batches go to the peer that is selected for their file. -/
theorem act_send (hAct : s.act kind op = .send i f staged r) :
    ∃ idx, s.selectPeerForFile kind f = some (i, idx) := by
  unfold act at hAct
  split at hAct
  · exact absurd hAct handleAct_ne_send
  · exact workAct_send hAct
  · cases hAct

theorem holds_iff : (s.peers i).holds f = true ↔ s.ledger.Holds i f := by
  rw [← Ledger.holds_iff, SlotTable.count_pos_iff]
  simp only [Peer.holds, List.any_eq_true, Option.any_eq_true]
  constructor
  · rintro ⟨slot, hMem, r, rfl, hRefers⟩
    exact ⟨r, hMem, hRefers⟩
  · rintro ⟨r, hMem, hRefers⟩
    exact ⟨some r, hMem, r, rfl, hRefers⟩

/- In round robin a peer that has the file is selected again. -/
theorem selectPeerForFile_holds (hMode : s.cfg.sendMode = .roundRobin)
    (hSelect : s.selectPeerForFile kind f = some (i, idx)) (hCounted : j.val < s.numOfPeers)
    (hHolds : s.ledger.Holds j f) : s.ledger.Holds i f := by
  have hSlot : j ∈ s.slots := by simpa [slots] using hCounted
  unfold selectPeerForFile at hSelect
  simp only [hMode] at hSelect
  cases hHolder : s.peerHoldingFile f with
  | none =>
    have hNone := List.find?_eq_none.mp hHolder j hSlot
    exact absurd (holds_iff.mpr hHolds) hNone
  | some holder =>
    simp only [hHolder] at hSelect
    split at hSelect
    · cases hSelect
      have hFound := List.find?_some hHolder
      exact holds_iff.mp hFound
    · cases hSelect

end Pipeline

---- Runs ----

/-
  Only what is at no other peer is sent: in failover, no other peer has requests for the file; in
  round robin, no peer outside of those that are counted has.
-/
def Action.Alone (action : Action) (sendMode : SendMode) (numOfPeers : Nat) (c : Ledger) : Prop :=
  match action, sendMode with
  | .send i f _ _, .failover => ∀ j, j ≠ i → ¬ c.Holds j f
  | .send _ f _ _, .roundRobin => ∀ j : Slot, numOfPeers ≤ j.val → ¬ c.Holds j f
  | _, _ => True

instance (action : Action) (sendMode : SendMode) (numOfPeers : Nat) (c : Ledger) :
    Decidable (action.Alone sendMode numOfPeers c) := by
  unfold Action.Alone
  split <;> infer_instance

/- The steps of a run that send what is at no other peer. -/
def PinnedSteps (kind : Kind) (s : Pipeline) (op : Op) : Prop :=
  (s.act kind op).Alone s.cfg.sendMode s.numOfPeers s.ledger

instance (kind : Kind) (s : Pipeline) (op : Op) : Decidable (PinnedSteps kind s op) :=
  inferInstanceAs (Decidable ((s.act kind op).Alone s.cfg.sendMode s.numOfPeers s.ledger))

/- The file of a batch is at no other peer. -/
theorem Pinned.alone (hPinned : Pinned s.ledger) (hStep : PinnedSteps kind s op)
    (hAct : s.act kind op = .send i f staged r) (j : Slot) (hOther : j ≠ i) :
    ¬ s.ledger.Holds j f := by
  unfold PinnedSteps Action.Alone at hStep
  cases hMode : s.cfg.sendMode with
  | failover =>
    simp only [hAct, hMode] at hStep
    exact hStep j hOther
  | roundRobin =>
    simp only [hAct, hMode] at hStep
    intro hHolds
    by_cases hCounted : j.val < s.numOfPeers
    · rcases Pipeline.act_send hAct with ⟨idx, hSelect⟩
      have hHere := Pipeline.selectPeerForFile_holds hMode hSelect hCounted hHolds
      exact hOther (hPinned j i f hHolds hHere)
    · exact hStep j (Nat.le_of_not_lt hCounted) hHolds

/- What a step of the run keeps. -/
theorem Pinned.step (hPinned : Pinned s.ledger) (hStep : PinnedSteps kind s op)
    (hEnabled : (s.act kind op).Enabled s.ledger) : Pinned ((s.act kind op).apply s.ledger) := by
  have hCarries : ∀ j g, ((s.act kind op).apply s.ledger).Holds j g →
    ∃ r, (s.act kind op).Carries s.ledger j r ∧ r.file = some g := by
    rintro j g ⟨r, hMem, hFile⟩
    exact ⟨r, Action.mem_apply hMem, hFile⟩
  have hAlone := @Pinned.alone kind s op
  generalize s.act kind op = action at *
  cases action with
  | send i f staged sent =>
    apply hPinned.insert (hAlone hPinned hStep rfl)
    intro j g hNext
    rcases hCarries j g hNext with ⟨r, hOld | ⟨rfl, rfl⟩, hFile⟩
    · exact Or.inl ⟨r, hOld, hFile⟩
    · rw [hEnabled.2.2.1] at hFile
      exact Or.inr ⟨rfl, (Option.some.inj hFile).symm⟩
  | release i sent =>
    apply hPinned.mono
    intro j g hNext
    rcases hCarries j g hNext with ⟨r, hOld | ⟨rfl, rfl⟩, hFile⟩
    · exact ⟨r, hOld, hFile⟩
    · rw [hEnabled.2.1] at hFile
      cases hFile
  | reload origin socks =>
    apply hPinned.moved hEnabled.1
    intro i g hNext
    rcases hCarries i g hNext with ⟨r, ⟨j, hFrom, hOld⟩, hFile⟩
    exact ⟨j, hFrom, r, hOld, hFile⟩
  | restart socks =>
    apply hPinned.mono
    intro j g hNext
    rcases hCarries j g hNext with ⟨r, hNone, _⟩
    exact hNone.elim
  | _ =>
    apply hPinned.mono
    intro j g hNext
    exact hCarries j g hNext

/-
  Two files go out to the active peer. The second record of one of them waits, the other file is
  refused, and sending it again works or fails.
-/
def failoverSteps (sendOk : Bool) : List Op :=
  [.spoolTick, sampleSpool sampleFrame, sampleSpool (sampleFrame ++ sampleFrame), sampleWork,
    sampleWork, sampleWork, sampleWork, sampleWork, sampleWork,
    sampleAnswer 0 1 0, .dispatch (sampleEnv true none),
    .work (sampleEnv sendOk none), .spoolTick, sampleWork, sampleWork, sampleWork]

/- The peers with transactions for a file. -/
def holders (f : FileId) (s : Pipeline) : List Slot :=
  (List.finRange maxPeers).filter (fun i => (s.peers i).holds f)

end Pretty5gs.Cgf
