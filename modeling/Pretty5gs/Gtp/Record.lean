import Pretty5gs.Gtp.Xact

/-
  What the functions on one GTP transaction do to its record.

  A step of a transaction either stores a packet in the next history slot, or stores a received type
  there and stops the response timer, or leaves the history alone. The invariant `Xact.Valid`
  follows from these three cases.
-/

---- History Access ----

namespace Pretty5gs

open Function Faulty

namespace Gtp

namespace Xact

variable {index : Nat}

theorem seqAt_of_lt (r : Xact) (hBound : index < 3) :
    r.seqAt index = .ok (r.seq ⟨index, hBound⟩) := by
  unfold seqAt
  rw [dif_pos (by omega)]
  rfl

theorem setSeq_of_lt (r : Xact) (entry : SeqEntry) (hBound : index < 3) : r.setSeq index entry =
      .ok { r with seq := Function.update r.seq ⟨index, hBound⟩ entry } := by
  unfold setSeq
  rw [dif_pos (by omega)]
  rfl

theorem setSeq_of_le {r : Xact} {entry : SeqEntry} (hBound : 3 ≤ index) :
    r.setSeq index entry = .error (.outOfBounds index) := by
  unfold setSeq
  rw [dif_neg (by omega)]

/- The slot of the last step is read without a fault. -/
theorem seqAt_last (r : Xact) (hPos : 1 ≤ r.step) (hLe : r.step ≤ 3) :
    r.seqAt (r.step - 1) = .ok (r.seq ⟨r.step - 1, by omega⟩) := by
  have hIndex : (r.step : Int) - 1 = ((r.step - 1 : Nat) : Int) := by omega
  rw [hIndex, seqAt_of_lt r (by omega)]

/- The slot of the last step holds a packet. -/
def Stored (r : Xact) : Prop := ∃ entry, r.seqAt (r.step - 1) = .ok entry ∧ entry.pkbuf.isSome

end Xact

---- Steps Of A Record ----

namespace Xact

/- The fields that stay fixed while a transaction is linked. -/
structure Same (r r' : Xact) : Prop where
  gtpVersion : r'.gtpVersion = r.gtpVersion
  org : r'.org = r.org
  xid : r'.xid = r.xid
  hashKey : r'.hashKey = r.hashKey
  gnode : r'.gnode = r.gnode

theorem Same.refl : Same r r := ⟨rfl, rfl, rfl, rfl, rfl⟩

/- A packet was stored in the next history slot. -/
structure Sent (r r' : Xact) (type : Nat) (pkbuf : Pkbuf) : Prop where
  same : Same r r'
  bound : r.step < 3
  seq : r'.seq = Function.update r.seq ⟨r.step, bound⟩ { type := type, pkbuf := some pkbuf }
  step : r'.step = r.step + 1
  tmResponse : r'.tmResponse = r.tmResponse

/- A received type was stored in the next history slot. -/
structure Accepted (r r' : Xact) (type : Nat) : Prop where
  same : Same r r'
  bound : r.step < 3
  seq : r'.seq = Function.update r.seq ⟨r.step, bound⟩ { r.seq ⟨r.step, bound⟩ with type := type }
  step : r'.step = r.step + 1
  sqn : r'.sqn = r.sqn
  stopped : isRunning r'.tmResponse = false

/- The history did not change. -/
structure Kept (r r' : Xact) : Prop where
  same : Same r r'
  seq : r'.seq = r.seq
  step : r'.step = r.step
  sqn : r'.sqn = r.sqn

theorem Kept.refl : Kept r r := ⟨.refl, rfl, rfl, rfl⟩

/- What one function of the layer may do to a record. -/
inductive Step (r r' : Xact) : Prop where
  | sent (type : Nat) (pkbuf : Pkbuf) (hSent : r.Sent r' type pkbuf) (hSqn :
        r'.sqn = r.sqn ∨ r'.sqn = ogsGtp2XidToSqn r.xid)
  | accepted (type : Nat) (hAccepted : r.Accepted r' type)
  | kept (hKept : r.Kept r')

variable {r r' : Xact}

theorem Step.same (hStep : r.Step r') : r.Same r' := by
  cases hStep with
  | sent _ _ hSent _ => exact hSent.same
  | accepted _ hAccepted => exact hAccepted.same
  | kept hKept => exact hKept.same

/- After a packet was stored, the last slot holds it. -/
theorem Sent.stored (hSent : r.Sent r' type pkbuf) : r'.Stored := by
  have hIndex : (r'.step : Int) - 1 = (r.step : Int) := by
    rw [hSent.step]
    omega
  refine ⟨{ type := type, pkbuf := some pkbuf }, ?_, rfl⟩
  rw [hIndex, seqAt_of_lt r' hSent.bound, hSent.seq]
  simp

theorem Kept.stored (hKept : r.Kept r') (hStored : r.Stored) : r'.Stored := by
  rcases hStored with ⟨entry, hEntry, hSome⟩
  refine ⟨entry, ?_, hSome⟩
  simpa [seqAt, hKept.seq, hKept.step] using hEntry

end Xact

---- Transmit Functions ----

namespace Xact

/- Saving inside the history stores the packet. -/
theorem saveTx_ok {r r' : Xact} (hSave : r.saveTx type pkbuf = .ok r') :
    r.Sent r' type pkbuf ∧ r'.sqn = r.sqn := by
  rcases bind_eq_ok.mp hSave with ⟨saved, hSet, hResult⟩
  by_cases hBound : r.step < 3
  · rw [setSeq_of_lt r _ hBound] at hSet
    cases hSet
    cases hResult
    exact ⟨⟨⟨rfl, rfl, rfl, rfl, rfl⟩, hBound, rfl, rfl, rfl⟩, rfl⟩
  · rw [setSeq_of_le (by omega)] at hSet
    cases hSet

theorem saveTx_of_lt {r : Xact} (type : Nat) (pkbuf : Pkbuf) (hBound : r.step < 3) :
    ∃ r', r.saveTx type pkbuf = .ok r' := by
  refine ⟨{ r with
    seq := Function.update r.seq ⟨r.step, hBound⟩
      { type := type, pkbuf := some pkbuf }
    step := r.step + 1 }, ?_⟩
  rw [saveTx, setSeq_of_lt r _ hBound]
  rfl

theorem saveTx_of_le {r : Xact} (hBound : 3 ≤ r.step) :
    r.saveTx type pkbuf = .error (.outOfBounds r.step) := by
  rw [saveTx, setSeq_of_le hBound]
  rfl

end Xact

/- A GTPv1 transmit rejects or stores the built packet. -/
theorem ogsGtp1XactUpdateTx_ok (hTx : ogsGtp1XactUpdateTx r hdesc payload = .ok (rv, r')) :
    (rv = .error ∧ r' = r) ∨ (rv = .ok ∧ gtp1TxGuard r hdesc.type = .accept ∧ r.Sent r' hdesc.type
          (buildGtp1 r.xid hdesc payload) ∧ r'.sqn = r.sqn) := by
  unfold ogsGtp1XactUpdateTx at hTx
  cases hGuard : gtp1TxGuard r hdesc.type with
  | abort =>
    rw [hGuard] at hTx
    cases hTx
  | reject =>
    rw [hGuard] at hTx
    cases hTx
    exact Or.inl ⟨rfl, rfl⟩
  | accept =>
    rw [hGuard] at hTx
    rcases bind_eq_ok.mp hTx with ⟨saved, hSave, hResult⟩
    cases hResult
    exact Or.inr ⟨rfl, rfl, Xact.saveTx_ok hSave⟩

/- A GTPv2 transmit rejects or stores the built packet and its sequence number. -/
theorem ogsGtpXactUpdateTx_ok (hTx : ogsGtpXactUpdateTx r hdesc payload = .ok (rv, r')) :
    (rv = .error ∧ r' = r) ∨ (rv = .ok ∧ gtp2TxGuard r hdesc.type = .accept ∧ r.Sent r' hdesc.type
          (buildGtp2 r.xid hdesc payload) ∧ r'.sqn = ogsGtp2XidToSqn r.xid) := by
  unfold ogsGtpXactUpdateTx at hTx
  cases hGuard : gtp2TxGuard r hdesc.type with
  | abort =>
    rw [hGuard] at hTx
    cases hTx
  | reject =>
    rw [hGuard] at hTx
    cases hTx
    exact Or.inl ⟨rfl, rfl⟩
  | accept =>
    rw [hGuard] at hTx
    rcases bind_eq_ok.mp hTx with ⟨saved, hSave, hResult⟩
    cases hResult
    rcases Xact.saveTx_ok hSave with ⟨hSent, hSqn⟩
    exact Or.inr ⟨rfl, rfl, ⟨⟨hSent.same.gtpVersion, hSent.same.org,
      hSent.same.xid, hSent.same.hashKey, hSent.same.gnode⟩,
      hSent.bound, hSent.seq, hSent.step, hSent.tmResponse⟩, hSqn⟩

---- The Receive Function ----

namespace Xact

theorem acceptRx_of_lt {r : Xact} (type : Nat) (hBound : r.step < 3) :
    ∃ r', r.acceptRx type = .ok r' ∧ r.Accepted r' type := by
  let stopped : Xact := { r with tmResponse := ogsTimerStop r.tmResponse }
  let entry : SeqEntry := { r.seq ⟨r.step, hBound⟩ with type := type }
  refine ⟨{ stopped with
    seq := Function.update r.seq ⟨r.step, hBound⟩ entry
    step := r.step + 1 }, ?_, ?_⟩
  · have hRead := stopped.seqAt_of_lt hBound
    have hWrite := stopped.setSeq_of_lt entry hBound
    refine bind_eq_ok.mpr ⟨_, hRead, ?_⟩
    exact bind_eq_ok.mpr ⟨_, hWrite, rfl⟩
  · exact
    { same := ⟨rfl, rfl, rfl, rfl, rfl⟩
      bound := hBound
      seq := rfl
      step := rfl
      sqn := rfl
      stopped := isRunning_ogsTimerStop _ }

theorem kept_hold {r : Xact} : r.Kept r.hold := ⟨⟨rfl, rfl, rfl, rfl, rfl⟩, rfl, rfl, rfl⟩

end Xact

variable {r : Xact} {type : Nat}

/- Only the first three steps accept a message. -/
theorem step_lt_of_rxGuard_accept (hGuard : rxGuard r type = .accept hold) : r.step < 3 := by
  unfold rxGuard at hGuard
  split at hGuard <;> (try split at hGuard) <;> (try split at hGuard) <;> first
    | omega
    | cases hGuard

/- Acceptance stores the type, with the timer restarted or not. -/
theorem ogsGtpXactUpdateRx_accept (hGuard : rxGuard r type = .accept hold) :
    ∃ r', ogsGtpXactUpdateRx r type = .ok (.ok, r', []) ∧ r.Accepted r' type := by
  have hBound := step_lt_of_rxGuard_accept hGuard
  unfold ogsGtpXactUpdateRx
  rw [hGuard]
  cases hold with
  | false =>
    rcases Xact.acceptRx_of_lt type hBound with ⟨r', hAccept, hAccepted⟩
    refine ⟨r', ?_, hAccepted⟩
    simp [hAccept, bind, Except.bind, pure, Except.pure]
  | true =>
    have hHold : r.hold.step < 3 := hBound
    rcases Xact.acceptRx_of_lt type hHold with ⟨r', hAccept, hAccepted⟩
    refine ⟨r', ?_, ?_⟩
    · simp [hAccept, bind, Except.bind, pure, Except.pure]
    · exact
      { same :=
          ⟨hAccepted.same.gtpVersion, hAccepted.same.org,
            hAccepted.same.xid, hAccepted.same.hashKey,
            hAccepted.same.gnode⟩
        bound := hBound
        seq := hAccepted.seq
        step := hAccepted.step
        sqn := hAccepted.sqn
        stopped := hAccepted.stopped }

/- A receive never faults, and this is all it can do. -/
theorem ogsGtpXactUpdateRx_cases :
    (rxGuard r type = .reject ∧ ogsGtpXactUpdateRx r type = .ok (.error, r, [])) ∨
    (∃ pkbuf r', rxGuard r type = .resend pkbuf ∧ ogsGtpXactUpdateRx r type =
        .ok (.retry, r', pkbuf.toList) ∧ r.Kept r' ∧ r'.tmResponse = r.tmResponse) ∨
    (∃ hold r', rxGuard r type = .accept hold ∧ ogsGtpXactUpdateRx r type = .ok (.ok, r', []) ∧
      r.Accepted r' type) := by
  cases hGuard : rxGuard r type with
  | reject =>
    refine Or.inl ⟨rfl, ?_⟩
    simp only [ogsGtpXactUpdateRx, hGuard]
  | resend pkbuf =>
    refine Or.inr (Or.inl ?_)
    cases pkbuf with
    | none =>
      refine ⟨none, r, rfl, ?_, .refl, rfl⟩
      simp only [ogsGtpXactUpdateRx, hGuard]
      rfl
    | some p =>
      refine ⟨some p, r.hold, rfl, ?_, Xact.kept_hold, rfl⟩
      simp only [ogsGtpXactUpdateRx, hGuard]
      rfl
  | accept hold =>
    rcases ogsGtpXactUpdateRx_accept hGuard with ⟨r', hRx, hAccepted⟩
    exact Or.inr (Or.inr ⟨hold, r', rfl, hRx, hAccepted⟩)

---- Commit And Lag Deferral ----

namespace Xact

theorem commitSend_ok (hSend : r.commitSend = .ok (.send r' pkbuf)) : r' = r ∧ r.Stored := by
  rcases bind_eq_ok.mp hSend with ⟨last, hLast, hResult⟩
  cases hPkbuf : last.pkbuf with
  | none =>
    rw [hPkbuf] at hResult
    cases hResult
  | some p =>
    rw [hPkbuf] at hResult
    cases hResult
    exact ⟨rfl, last, hLast, by rw [hPkbuf]; rfl⟩

/- A commit that sends has a packet in the last slot. -/
theorem commitAction_send (hCommit : r.commitAction = .ok (.send r' pkbuf)) :
    r.Kept r' ∧ r'.Stored := by
  let waiting : Xact := { r with tmResponse := ogsTimerStart r.tmResponse }
  have hWaiting : r.Kept waiting := ⟨⟨rfl, rfl, rfl, rfl, rfl⟩, rfl, rfl, rfl⟩
  have hCases : waiting.commitSend = .ok (.send r' pkbuf) ∨
    r.commitSend = .ok (.send r' pkbuf) := by
    rcases bind_eq_ok.mp hCommit with ⟨last, -, hResult⟩
    split at hResult <;> (repeat' split at hResult) <;> first
      | exact Or.inl hResult
      | exact Or.inr hResult
      | cases hResult
  rcases hCases with hSend | hSend
  · rcases commitSend_ok hSend with ⟨rfl, hStored⟩
    exact ⟨hWaiting, hStored⟩
  · rcases commitSend_ok hSend with ⟨rfl, hStored⟩
    exact ⟨.refl, hStored⟩

theorem commitSend_inBounds (r : Xact) (hPos : 1 ≤ r.step) (hLe : r.step ≤ 3) (index : Int) :
    r.commitSend ≠ .error (.outOfBounds index) := by
  rw [commitSend, seqAt_last r hPos hLe]
  intro hFault
  dsimp only [bind, Except.bind] at hFault
  split at hFault <;> cases hFault

/- A commit at the steps 1 to 3 stays inside the history. -/
theorem commitAction_inBounds (hPos : 1 ≤ r.step) (hLe : r.step ≤ 3) :
    r.commitAction ≠ .error (.outOfBounds index) := by
  let waiting : Xact := { r with tmResponse := ogsTimerStart r.tmResponse }
  have hPlain := r.commitSend_inBounds hPos hLe index
  have hWaiting := waiting.commitSend_inBounds hPos hLe index
  intro hFault
  rw [commitAction, seqAt_last r hPos hLe] at hFault
  dsimp only [bind, Except.bind] at hFault
  split at hFault <;> (repeat' split at hFault) <;> first
    | exact hPlain hFault
    | exact hWaiting hFault
    | cases hFault

end Xact

theorem xactResponseLagDefer_some (hDefer : xactResponseLagDefer r lag = some r') : r.Kept r' := by
  unfold xactResponseLagDefer at hDefer
  split at hDefer
  · split at hDefer
    · cases hDefer
    · split at hDefer
      · cases hDefer
      · cases hDefer
        exact ⟨⟨rfl, rfl, rfl, rfl, rfl⟩, rfl, rfl, rfl⟩
  · cases hDefer

---- Valid Records ----

namespace Xact

/-
  The record of a transaction between calls: between one and three messages, of which the first
  opened it; the slots of later steps are untouched.
-/
structure Valid (r : Xact) : Prop where
  step_pos : 1 ≤ r.step
  step_le : r.step ≤ 3
  later : ∀ i : Fin 3, r.step ≤ i → r.seq i = SeqEntry.null
  opened : getStage r.gtpVersion (r.seq 0).type r.xid = .initial
  sqn : r.org = .localOrg → r.gtpVersion = .gtp2 → r.sqn = ogsGtp2XidToSqn r.xid

/- The next slot is not the first one. -/
theorem Valid.first_ne (hValid : r.Valid) (hBound : r.step < 3) :
    (0 : Fin 3) ≠ ⟨r.step, hBound⟩ := by
  have hPos := hValid.step_pos
  simp only [ne_eq, Fin.ext_iff, Fin.val_zero]
  omega

variable {r r' : Xact}

/- A write to the next slot leaves the other slots alone. -/
theorem Valid.update (hValid : r.Valid) (hSame : r.Same r') (hBound : r.step < 3)
    (hSeq : r'.seq = Function.update r.seq ⟨r.step, hBound⟩ entry) (hStep : r'.step = r.step + 1)
    (hSqn : r'.sqn = r.sqn ∨ r'.sqn = ogsGtp2XidToSqn r.xid) : r'.Valid where
  step_pos := by omega
  step_le := by omega
  later := by
    intro i hi
    have hNe : i ≠ ⟨r.step, hBound⟩ := by
      rintro rfl
      simp only [hStep] at hi
      omega
    rw [hSeq, update_of_ne hNe]
    exact hValid.later i (by omega)
  opened := by
    rw [hSeq, update_of_ne (hValid.first_ne hBound), hSame.gtpVersion, hSame.xid]
    exact hValid.opened
  sqn := by
    intro hOrg hVersion
    rw [hSame.org] at hOrg
    rw [hSame.gtpVersion] at hVersion
    rw [hSame.xid]
    rcases hSqn with hOld | hNew
    · rw [hOld]
      exact hValid.sqn hOrg hVersion
    · exact hNew

theorem Kept.valid (hKept : r.Kept r') (hValid : r.Valid) : r'.Valid where
  step_pos := hKept.step ▸ hValid.step_pos
  step_le := hKept.step ▸ hValid.step_le
  later := by
    rw [hKept.step, hKept.seq]
    exact hValid.later
  opened := by
    rw [hKept.seq, hKept.same.gtpVersion, hKept.same.xid]
    exact hValid.opened
  sqn := by
    rw [hKept.same.org, hKept.same.gtpVersion, hKept.same.xid, hKept.sqn]
    exact hValid.sqn

/- Every step of a record keeps it valid. -/
theorem Valid.step (hValid : r.Valid) (hStep : r.Step r') : r'.Valid := by
  cases hStep with
  | sent type pkbuf hSent hSqn =>
    exact hValid.update hSent.same hSent.bound hSent.seq hSent.step hSqn
  | accepted type hAccepted =>
    exact hValid.update hAccepted.same hAccepted.bound
      hAccepted.seq hAccepted.step (Or.inl hAccepted.sqn)
  | kept hKept => exact hKept.valid hValid

/- The first message of a transaction stays in its history. -/
theorem Valid.step_first (hValid : r.Valid) (hStep : r.Step r') : r'.seq 0 = r.seq 0 := by
  cases hStep with
  | sent type pkbuf hSent hSqn =>
    rw [hSent.seq]
    apply update_of_ne
    exact hValid.first_ne hSent.bound
  | accepted type hAccepted =>
    rw [hAccepted.seq]
    apply update_of_ne
    exact hValid.first_ne hAccepted.bound
  | kept hKept => rw [hKept.seq]

/- A zeroed record with its timers, before its first message. -/
structure Blank (r : Xact) : Prop where
  step : r.step = 0
  seq : r.seq = fun _ => SeqEntry.null
  assoc : r.assocXactId = none
  stopped : isRunning r.tmResponse = false

/- The first message of a blank record makes it valid. -/
theorem Blank.valid (hBlank : r.Blank) (hSame : r.Same r') (hBound : r.step < 3)
    (hSeq : r'.seq = Function.update r.seq ⟨r.step, hBound⟩ entry) (hStep : r'.step = r.step + 1)
    (hOpened : getStage r.gtpVersion entry.type r.xid = .initial)
    (hSqn : r.org = .localOrg → r.gtpVersion = .gtp2 → r'.sqn = ogsGtp2XidToSqn r.xid) :
    r'.Valid ∧ r'.step = 1 ∧ r'.seq 0 = entry := by
  have hFirst : (⟨r.step, hBound⟩ : Fin 3) = 0 := by simp only [hBlank.step, Fin.zero_eta]
  rw [hFirst] at hSeq
  have hOne : r'.step = 1 := by rw [hStep, hBlank.step]
  have hZero : r'.seq 0 = entry := by rw [hSeq, update_self]
  refine ⟨?_, hOne, hZero⟩
  refine ⟨by omega, by omega, ?_, ?_, ?_⟩
  · intro i hi
    have hNe : i ≠ 0 := by
      rintro rfl
      simp [hOne] at hi
    rw [hSeq, update_of_ne hNe, hBlank.seq]
  · rw [hZero, hSame.gtpVersion, hSame.xid]
    exact hOpened
  · rw [hSame.org, hSame.gtpVersion, hSame.xid]
    exact hSqn

end Xact

/- A GTPv1 transmit that opens has the initial stage. -/
theorem initial_of_gtp1TxGuard (hLocal : r.org = .localOrg) (hStep : r.step = 0)
    (hGuard : gtp1TxGuard r type = .accept) : ogsGtp1XactGetStage type r.xid = .initial := by
  unfold gtp1TxGuard at hGuard
  cases hStage : ogsGtp1XactGetStage type r.xid <;> simp_all

/- A GTPv2 transmit that opens has the initial stage. -/
theorem initial_of_gtp2TxGuard (hLocal : r.org = .localOrg) (hStep : r.step = 0)
    (hGuard : gtp2TxGuard r type = .accept) : ogsGtp2XactGetStage type r.xid = .initial := by
  unfold gtp2TxGuard at hGuard
  cases hStage : ogsGtp2XactGetStage type r.xid <;> simp_all

/- No message of type 0 has the initial stage. -/
theorem getStage_zero : getStage version 0 xid = .unknown := by
  cases version with
  | gtp1 => rfl
  | gtp2 => rfl

/- A new remote record takes an initial message and no other. -/
theorem rxGuard_blank (hBlank : r.Blank) (hRemote : r.org = .remoteOrg) (type : Nat) :
    rxGuard r type =
      if getStage r.gtpVersion type r.xid = .initial
      then .accept true
      else .reject := by
  unfold rxGuard
  rw [hRemote]
  cases hStage : getStage r.gtpVersion type r.xid with
  | unknown => rfl
  | intermediate => rfl
  | final => simp [hBlank.step]
  | initial =>
    have hType : ¬ SeqEntry.null.type = type := by
      rintro rfl
      simp [SeqEntry.null, getStage_zero] at hStage
    simp [hBlank.step, hBlank.seq, hType]

end Gtp

end Pretty5gs
