import Pretty5gs.Pfcp.Outcome

/-
  What a received message that is not accepted does to the transactions in use.

  An error of the receive function deletes the transaction that the message reached, also when the
  message did not create it. The transactions survive exactly when the message reaches one that
  tolerates it.

  Main results: `failed_receive_spares_transactions`.
-/

---- The Message's Target ----

namespace Pretty5gs.Pfcp

open Function Option

/- The transaction in use that a message reaches. -/
def target (s : Store) (n : Nat) (h : Header) : Option Nat :=
  let xid := ogsPfcpSqnToXid h.sqn
  (rxOrg (ogsPfcpXactGetStage h.type xid)).bind (fun org => findXid s n org xid)

/- A lookup finds a transaction of the side asked. -/
theorem Linked.findXid_some (hLinked : Linked s) (hFind : findXid s n org xid = some x) :
    ∃ r, s.xact x = some r ∧ r.org = org := by
  unfold findXid at hFind
  split at hFind
  case h_1 y hSlot =>
    cases hFind
    rcases hLinked.owner (filter_eq_some_iff.mp hSlot).1 with ⟨r, hLive, -, hKey⟩
    exact ⟨r, hLive, (key_eq_xactIndexKey.mp hKey).1⟩
  case h_2 =>
    rcases hLinked.mem_xactList (List.mem_of_find?_eq_some hFind) with ⟨r, hLive, -, hOrg⟩
    exact ⟨r, hLive, hOrg⟩

/- The target is in use, on the side that the type selects. -/
theorem Linked.target_some (hLinked : Linked s) (hTarget : target s n h = some x) :
    ∃ r, s.xact x = some r ∧ rxOrg (ogsPfcpXactGetStage h.type r.xid) = some r.org := by
  rcases bind_eq_some_iff.mp hTarget with ⟨org, hOrg, hFind⟩
  rcases hLinked.findXid_some hFind with ⟨r, hLive, rfl⟩
  exact ⟨r, hLive, hOrg⟩

/- A message with a target is received on it. -/
theorem receive_target (hTarget : target t.toStore n h = some x) :
    ogsPfcpXactReceive cfg t n h = receiveRx t x h.type := by
  rcases bind_eq_some_iff.mp hTarget with ⟨org, hOrg, hFind⟩
  simp only [ogsPfcpXactReceive, hOrg, hFind]

---- Surviving A Message ----

/- Same step, history and running timers. -/
structure Xact.Untouched (r r' : Xact) : Prop where
  step : r'.step = r.step
  seq : r'.seq = r.seq
  response : isRunning r'.tmResponse = isRunning r.tmResponse
  holding : isRunning r'.tmHolding = isRunning r.tmHolding
  delayedCommit : isRunning r'.tmDelayedCommit = isRunning r.tmDelayedCommit

theorem Xact.Untouched.refl {r : Xact} : r.Untouched r := ⟨rfl, rfl, rfl, rfl, rfl⟩

/- Every transaction in use is there and untouched. -/
def Survive (s s' : Store) : Prop := ∀ x r, s.xact x = some r →
    ∃ r', s'.xact x = some r' ∧ r.Untouched r'

theorem survive_setXact (hLive : s.xact x = some r) (hUntouched : r.Untouched r') :
    Survive s (s.setXact x r') := by
  intro y q hq
  by_cases hEq : y = x
  · subst hEq
    rw [hLive] at hq
    cases hq
    exact ⟨r', update_self .., hUntouched⟩
  · refine ⟨q, ?_, .refl⟩
    exact (update_of_ne hEq ..).trans hq

/- A change that concerns a new transaction only. -/
theorem survive_receiveNew (hLinked : Linked t.toStore)
    (hCreate : ogsPfcpXactRemoteCreate cfg t n xid = .ok (some x, u))
    (hExec : receiveRx u x type = .ok (rv, res, t')) : Survive t.toStore t'.toStore := by
  rcases remoteCreate_some hCreate with ⟨rfl, r, -, -, -, -, hLink⟩
  intro y q hq
  have hNe : y ≠ t.poolId + 1 := by
    have hBound := hLinked.bound hq
    omega
  have hLinkedXact : u.xact y = some q := by
    rw [hLink]
    exact (update_of_ne hNe ..).trans hq
  refine ⟨q, ?_, .refl⟩
  rcases receiveRx_ok hExec with ⟨r, r', packets, -, -, ⟨-, hStore⟩ | ⟨-, hStore⟩⟩
  · rw [hStore]
    exact (update_of_ne hNe ..).trans hLinkedXact
  · rw [hStore]
    exact (update_of_ne hNe ..).trans hLinkedXact

---- Tolerated Messages ----

/-
  A local transaction still waits for its response. A remote one gets the request that it has
  answered or is about to answer, and a reply sent again finds the holding timer running.
-/
def Xact.Tolerates (r : Xact) (type : Nat) : Prop :=
  match r.org with
  | .localOrg => r.step = 1
  | .remoteOrg =>
      (r.seq 0).type = type ∧ (r.step = 1 ∨ r.step = 2) ∧
        ((r.seq 1).pkbuf = none ∨ r.tmHolding = none ∨ isRunning r.tmHolding)

/- The stage of the messages that reach a side. -/
def rxStage (org : Originator) : Stage :=
  match org with
  | .localOrg => .final
  | .remoteOrg => .initial

variable {type : Nat}

theorem stage_of_rxOrg (hOrg : rxOrg (ogsPfcpXactGetStage type xid) = some org) :
    ogsPfcpXactGetStage type xid = rxStage org := by
  cases hStage : ogsPfcpXactGetStage type xid with
  | unknown =>
    rw [hStage] at hOrg
    cases hOrg
  | initial =>
    rw [hStage] at hOrg
    cases hOrg
    rfl
  | intermediate =>
    unfold ogsPfcpXactGetStage at hStage
    split at hStage
    · cases hStage
    · split at hStage <;> cases hStage
  | final =>
    rw [hStage] at hOrg
    cases hOrg
    rfl

variable {r : Xact}

/- A tolerated message is accepted or leaves the record. -/
theorem rxGuard_of_tolerates (hOrg : rxOrg (ogsPfcpXactGetStage type r.xid) = some r.org)
    (hTolerates : r.Tolerates type) :
    rxGuard r type = .discard ∨ (∃ hold, rxGuard r type = .accept hold) ∨
      ∃ reply, rxGuard r type = .resend reply ∧ (reply = none ∨ isRunning r.hold.tmHolding =
            isRunning r.tmHolding) := by
  have hStage := stage_of_rxOrg hOrg
  unfold Xact.Tolerates at hTolerates
  cases hSide : r.org with
  | localOrg =>
    simp only [hSide, rxStage] at hTolerates hStage
    simp only [rxGuard, hSide, hStage, hTolerates, ne_eq, not_true, if_false]
    split
    · exact Or.inl rfl
    · exact Or.inr (Or.inl ⟨_, rfl⟩)
  | remoteOrg =>
    simp only [hSide, rxStage] at hTolerates hStage
    rcases hTolerates with ⟨hType, hStep, hQuiet⟩
    have hTwo : ¬ (r.step ≠ 1 ∧ r.step ≠ 2) := by omega
    simp only [rxGuard, hSide, hStage, if_pos hType, if_neg hTwo]
    refine Or.inr (Or.inr ⟨_, rfl, ?_⟩)
    rcases hQuiet with hNone | hNone | hRunning
    · exact Or.inl hNone
    · apply Or.inr
      rw [Xact.hold, hNone]
      rfl
    · apply Or.inr
      cases hTimer : r.tmHolding with
      | none => simp [hTimer, isRunning] at hRunning
      | some timer =>
        rw [hTimer] at hRunning
        rw [hRunning, Xact.hold, hTimer]
        rfl

/- Any other message is an error or starts a timer. -/
theorem rxGuard_of_not_tolerates (hOrg : rxOrg (ogsPfcpXactGetStage type r.xid) = some r.org)
    (hRemote : r.org = .remoteOrg → 1 ≤ r.step) (hNot : ¬ r.Tolerates type) :
    rxGuard r type = .reject ∨ ∃ pkbuf, rxGuard r type = .resend (some pkbuf) ∧
        isRunning r.hold.tmHolding ≠ isRunning r.tmHolding := by
  have hStage := stage_of_rxOrg hOrg
  unfold Xact.Tolerates at hNot
  cases hSide : r.org with
  | localOrg =>
    simp only [hSide, rxStage] at hNot hStage
    left
    simp only [rxGuard, hSide, hStage, ne_eq, hNot, not_false_eq_true, if_true]
  | remoteOrg =>
    simp only [hSide, rxStage] at hNot hStage
    have hStarted := hRemote hSide
    by_cases hType : (r.seq 0).type = type
    · simp only [rxGuard, hSide, hStage, if_pos hType]
      by_cases hStep : r.step ≠ 1 ∧ r.step ≠ 2
      · exact Or.inl (if_pos hStep)
      · rw [if_neg hStep]
        have hTwo : r.step = 1 ∨ r.step = 2 := by omega
        have hLoud := fun h => hNot ⟨hType, hTwo, h⟩
        cases hReply : (r.seq 1).pkbuf with
        | none => exact absurd (Or.inl hReply) hLoud
        | some pkbuf =>
          refine Or.inr ⟨pkbuf, rfl, ?_⟩
          cases hTimer : r.tmHolding with
          | none => exact absurd (Or.inr (Or.inl hTimer)) hLoud
          | some timer =>
            intro hSame
            apply hLoud
            refine Or.inr (Or.inr ?_)
            rw [hTimer, ← hSame, Xact.hold, hTimer]
            rfl
    · have hStep : r.step ≠ 0 := by omega
      left
      simp only [rxGuard, hSide, hStage, if_neg hType, if_pos hStep]

/- A tolerated message that is not accepted. -/
theorem survive_of_tolerates (hLive : t.xact x = some r)
    (hOrg : rxOrg (ogsPfcpXactGetStage type r.xid) = some r.org) (hTolerates : r.Tolerates type)
    (hExec : receiveRx t x type = .ok (rv, res, t')) (hRv : rv ≠ .ok) :
    Survive t.toStore t'.toStore := by
  have hGuard := rxGuard_of_tolerates hOrg hTolerates
  rcases receiveRx_ok hExec with ⟨q, r', packets, hq, hRx, hStore⟩
  rw [hLive] at hq
  cases hq
  rcases ogsPfcpXactUpdateRx_ok hRx with ⟨-, hRow, -⟩ | ⟨hRetry, -, rfl⟩ |
    ⟨reply, hRetry, hRow, rfl⟩ | ⟨hold, hOk, -⟩
  · simp [hRow] at hGuard
  · subst hRetry
    rcases hStore with ⟨hError, -⟩ | ⟨-, hStore⟩
    · cases hError
    · rw [hStore]
      exact survive_setXact hLive .refl
  · subst hRetry
    rcases hStore with ⟨hError, -⟩ | ⟨-, hStore⟩
    · cases hError
    · rw [hStore]
      refine survive_setXact hLive ?_
      simp only [hRow, RxGuard.resend.injEq, exists_eq_left',
        reduceCtorEq, exists_false, false_or] at hGuard
      cases reply with
      | none => exact .refl
      | some pkbuf =>
        rcases hGuard with hNone | hSame
        · cases hNone
        · exact ⟨rfl, rfl, rfl, hSame, rfl⟩
  · exact absurd hOk hRv

/- Any other message deletes or touches its target. -/
theorem not_survive_of_not_tolerates (hLive : t.xact x = some r)
    (hGuard : rxGuard r type = .reject ∨ ∃ pkbuf, rxGuard r type = .resend (some pkbuf) ∧
          isRunning r.hold.tmHolding ≠ isRunning r.tmHolding) :
    ∃ rv t', receiveRx t x type = .ok (rv, none, t') ∧
      rv ≠ .ok ∧ ¬ Survive t.toStore t'.toStore := by
  rcases hGuard with hReject | ⟨pkbuf, hResend, hTimer⟩
  · have hUpdate : ogsPfcpXactUpdateRx r type = .ok (.error, r, []) := by
      simp only [ogsPfcpXactUpdateRx, hReject]
    have hSet : (t.setXact x r).xact x = some r := update_self ..
    have hDelete : ∃ t', ogsPfcpXactDelete ((t.setXact x r).sendto r.node []) x = .ok t' ∧
          t'.xact x = none := by
      simp only [ogsPfcpXactDelete, Thread.sendto, hSet]
      exact ⟨_, rfl, update_self ..⟩
    rcases hDelete with ⟨t', hDelete, hGone⟩
    refine ⟨.error, t', ?_, ?_, ?_⟩
    · simp only [receiveRx, hLive, hUpdate, bind, Except.bind, hDelete]
      rfl
    · intro hRv
      cases hRv
    · intro hSurvive
      rcases hSurvive x r hLive with ⟨r', hr', -⟩
      rw [hGone] at hr'
      cases hr'
  · have hUpdate : ogsPfcpXactUpdateRx r type = .ok (.retry, r.hold, [pkbuf]) := by
      simp only [ogsPfcpXactUpdateRx, hResend]
    have hRx : receiveRx t x type =
        .ok (.retry, none, (t.setXact x r.hold).sendto r.hold.node [pkbuf]) := by
      simp only [receiveRx, hLive, hUpdate]
      rfl
    refine ⟨.retry, _, hRx, ?_, ?_⟩
    · intro hRv
      cases hRv
    · intro hSurvive
      rcases hSurvive x r hLive with ⟨r', hr', hUntouched⟩
      have hEq : r' = r.hold := by
        have hSet : (t.setXact x r.hold).xact x = some r.hold := update_self ..
        exact Option.some.inj (hr'.symm.trans hSet)
      subst hEq
      exact hTimer hUntouched.holding

/-
  The messages after which a receive that does not return OK spares every transaction are those that
  reach none, or one that tolerates them.
-/
theorem failed_receive_spares_transactions {cfg : Config} {t : Thread}
    (hReach : (layer cfg).Reachable t) (n : Nat) (h : Header) :
    (∀ rv res t', ogsPfcpXactReceive cfg t n h = .ok (rv, res, t') →
          rv ≠ .ok → Survive t.toStore t'.toStore) ↔ ∀ x r, target t.toStore n h = some x →
        t.xact x = some r → r.Tolerates h.type := by
  have hSound := sound_of_reachable hReach
  constructor
  · intro hSpares x r hTarget hLive
    by_contra hNot
    rcases hSound.target_some hTarget with ⟨q, hq, hOrg⟩
    rw [hLive] at hq
    cases hq
    rcases not_survive_of_not_tolerates hLive (rxGuard_of_not_tolerates hOrg (hSound.remote hLive)
      hNot) with ⟨rv, t', hExec, hRv, hLost⟩
    rw [← receive_target hTarget] at hExec
    exact hLost (hSpares rv none t' hExec hRv)
  · intro hTolerates rv res t' hExec hRv
    rcases receive_cases hExec with ⟨-, rfl⟩ | ⟨org, hOrg, ⟨x, hFind, hRx⟩ |
      ⟨-, x, u, hCreate, hRx⟩⟩
    · intro x r hLive
      exact ⟨r, hLive, .refl⟩
    · have hTarget : target t.toStore n h = some x := bind_eq_some_iff.mpr ⟨org, hOrg, hFind⟩
      rcases hSound.target_some hTarget with ⟨r, hLive, hSide⟩
      exact survive_of_tolerates hLive hSide (hTolerates x r hTarget hLive) hRx hRv
    · exact survive_receiveNew hSound.toLinked hCreate hRx

/- Two requests with one sequence number. -/
def establishment : Header where
  type := ogsPfcpSessionEstablishmentRequestType
  sqn := ogsPfcpXidToSqn 5

def modification : Header where
  type := 52
  sqn := ogsPfcpXidToSqn 5

/-
  A Session Establishment Request waits for its reply when a Session Modification Request arrives
  with the same sequence number. The second is an error, and the first is lost.
-/
theorem mismatching_request_destroys :
    ∃ t t' h x r, (layer mainThread).Reachable t ∧ t.xact x = some r ∧ r.step = 1 ∧
      ogsPfcpXactReceive mainThread t 0 h = .ok (.error, none, t') ∧
      t'.xact x = none ∧ ¬ Survive t.toStore t'.toStore := by
  obtain ⟨t, hRun, ⟨r, hLive, hStep⟩, t', hExec, hGone⟩ : ∃ t,
    (layer mainThread).run (initial 1 8 24) [.receive 0 establishment] = .ok t ∧
    (∃ r, t.xact 1 = some r ∧ r.step = 1) ∧ ∃ t', ogsPfcpXactReceive mainThread t 0 modification =
      .ok (.error, none, t') ∧ t'.xact 1 = none := by
    refine ⟨_, rfl, ⟨_, rfl, rfl⟩, ?_⟩
    exact ⟨_, rfl, rfl⟩
  have hReach : (layer mainThread).Reachable t := (reachable_initial (by decide)
    (by decide)).run hRun
  refine ⟨t, t', modification, 1, r, hReach, hLive, hStep, hExec, hGone, ?_⟩
  intro hSurvive
  rcases hSurvive 1 r hLive with ⟨r', hr', -⟩
  rw [hGone] at hr'
  cases hr'

theorem failed_receive_spares_transactions_resent :
    ∃ t t' h, (layer mainThread).Reachable t ∧ ogsPfcpXactReceive mainThread t 0 h =
        .ok (.retry, none, t') ∧ Survive t.toStore t'.toStore := by
  obtain ⟨t, hRun, hTarget, ⟨r, hLive, hOrg, hType, hStep, hReply⟩, t', hExec⟩ : ∃ t,
    (layer mainThread).run (initial 1 8 24) [.receive 0 establishment] = .ok t ∧
    target t.toStore 0 establishment = some 1 ∧ (∃ r, t.xact 1 = some r ∧ r.org = .remoteOrg ∧
      (r.seq 0).type = 50 ∧ r.step = 1 ∧ (r.seq 1).pkbuf = none) ∧
    ∃ t', ogsPfcpXactReceive mainThread t 0 establishment = .ok (.retry, none, t') := by
    refine ⟨_, rfl, rfl, ⟨_, rfl, rfl, rfl, rfl, rfl⟩, ?_⟩
    exact ⟨_, rfl⟩
  have hReach : (layer mainThread).Reachable t := (reachable_initial (by decide)
    (by decide)).run hRun
  refine ⟨t, t', establishment, hReach, hExec, ?_⟩
  refine (failed_receive_spares_transactions hReach 0
    establishment).mpr ?_ .retry none t' hExec (by decide)
  intro x q hReached hq
  rw [hTarget] at hReached
  cases hReached
  rw [hLive] at hq
  cases hq
  simp only [Xact.Tolerates, hOrg]
  exact ⟨hType, Or.inl hStep, Or.inl hReply⟩

end Pretty5gs.Pfcp
