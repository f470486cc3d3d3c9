import Pretty5gs.Pfcp.Sound

/-
  Every operation of the PFCP layer is a run of changes of the store, so that every reachable store
  is sound.

  Main results: `exec_run`, `sound_of_reachable`.
-/

---- Functions On One Record ----

namespace Pretty5gs

open Function Faulty

namespace Pfcp

namespace Xact

/- The fixed fields are kept and the step does not go back. -/
structure Advances (r r' : Xact) : Prop where
  same : r.Same r'
  step : r.step ≤ r'.step

theorem Advances.refl {r : Xact} : r.Advances r := ⟨.refl, le_rfl⟩

variable {r r' : Xact}

theorem setSeq_ok (hSet : r.setSeq index entry = .ok r') : r.Same r' ∧ r'.step = r.step := by
  unfold setSeq at hSet
  split at hSet
  · cases hSet
    exact ⟨⟨rfl, rfl, rfl, rfl⟩, rfl⟩
  · cases hSet

theorem acceptRx_ok (hAccept : r.acceptRx type = .ok r') : r.Same r' ∧ r'.step = r.step + 1 := by
  rcases bind_eq_ok.mp hAccept with ⟨entry, -, hRest⟩
  rcases bind_eq_ok.mp hRest with ⟨saved, hSet, hLast⟩
  cases hLast
  rcases setSeq_ok hSet with ⟨hSame, hStep⟩
  exact ⟨⟨hSame.org, hSame.xid, hSame.hashKey, hSame.node⟩, congrArg (· + 1) hStep⟩

theorem same_hold : r.Same r.hold := ⟨rfl, rfl, rfl, rfl⟩

theorem commitSend_ok (hSend : r.commitSend = .ok (.send r' pkbuf)) : r' = r := by
  rcases bind_eq_ok.mp hSend with ⟨last, -, hRest⟩
  cases hPkbuf : last.pkbuf with
  | none =>
    simp only [hPkbuf] at hRest
    cases hRest
  | some sent =>
    simp only [hPkbuf] at hRest
    cases hRest
    rfl

/- A commit that sends changes only the response timer. -/
theorem commitAction_send (hAction : r.commitAction = .ok (.send r' pkbuf)) : r.Advances r' := by
  rcases bind_eq_ok.mp hAction with ⟨last, -, hRest⟩
  have hSent : r.commitSend = .ok (.send r' pkbuf) → r.Advances r' := by
    intro hSend
    rw [commitSend_ok hSend]
    exact .refl
  have hWaited : commitSend { r with tmResponse := ogsTimerStart r.tmResponse } =
    .ok (.send r' pkbuf) → r.Advances r' := by
    intro hSend
    rw [commitSend_ok hSend]
    exact ⟨⟨rfl, rfl, rfl, rfl⟩, le_rfl⟩
  -- Rows that do not send return a deletion.
  split at hRest
  · split at hRest
    · cases hRest
    · exact hWaited hRest
  · cases hRest
  · split at hRest
    · cases hRest
    · split at hRest
      · cases hRest
      · exact hSent hRest
  · cases hRest
  · cases hRest
  · split at hRest
    · cases hRest
    · exact hWaited hRest
  · split at hRest
    · cases hRest
    · split at hRest
      · cases hRest
      · exact hSent hRest
  · cases hRest

end Xact

variable {r r' : Xact} {rv : Rv}

theorem ogsPfcpXactUpdateTx_ok (hTx : ogsPfcpXactUpdateTx r hdesc payload = .ok (rv, r')) :
    r.Advances r' := by
  unfold ogsPfcpXactUpdateTx at hTx
  cases hGuard : txGuard r hdesc.type with
  | abort =>
    rw [hGuard] at hTx
    cases hTx
  | reject =>
    rw [hGuard] at hTx
    cases hTx
    exact .refl
  | accept =>
    rw [hGuard] at hTx
    rcases bind_eq_ok.mp hTx with ⟨saved, hSet, hEnd⟩
    cases hEnd
    rcases Xact.setSeq_ok hSet with ⟨hSame, hStep⟩
    refine ⟨⟨hSame.org, hSame.xid, hSame.hashKey, hSame.node⟩, ?_⟩
    change r.step ≤ saved.step + 1
    omega

variable {type : Nat}

/- What a receive function did, by its return code. -/
theorem ogsPfcpXactUpdateRx_ok (hRx : ogsPfcpXactUpdateRx r type = .ok (rv, r', packets)) :
    (rv = .error ∧ rxGuard r type = .reject ∧ r' = r) ∨
      (rv = .retry ∧ rxGuard r type = .discard ∧ r' = r) ∨ (∃ reply, rv = .retry ∧
        rxGuard r type = .resend reply ∧ r' = if reply.isSome then r.hold else r) ∨
      (∃ hold, rv = .ok ∧ rxGuard r type = .accept hold ∧ r.Same r' ∧ r'.step = r.step + 1) := by
  unfold ogsPfcpXactUpdateRx at hRx
  cases hGuard : rxGuard r type with
  | reject =>
    rw [hGuard] at hRx
    cases hRx
    exact Or.inl ⟨rfl, rfl, rfl⟩
  | discard =>
    rw [hGuard] at hRx
    cases hRx
    exact Or.inr (Or.inl ⟨rfl, rfl, rfl⟩)
  | resend reply =>
    rw [hGuard] at hRx
    refine Or.inr (Or.inr (Or.inl ⟨reply, ?_⟩))
    cases reply with
    | none =>
      cases hRx
      exact ⟨rfl, rfl, rfl⟩
    | some pkbuf =>
      cases hRx
      exact ⟨rfl, rfl, rfl⟩
  | accept hold =>
    rw [hGuard] at hRx
    rcases bind_eq_ok.mp hRx with ⟨q, hAccept, hEnd⟩
    cases hEnd
    refine Or.inr (Or.inr (Or.inr ⟨hold, rfl, rfl, ?_⟩))
    cases hold with
    | false => exact Xact.acceptRx_ok hAccept
    | true =>
      rcases Xact.acceptRx_ok hAccept with ⟨hSame, hStep⟩
      exact ⟨Xact.same_hold.trans hSame, hStep⟩

theorem ogsPfcpXactUpdateRx_advances (hRx : ogsPfcpXactUpdateRx r type = .ok (rv, r', packets)) :
    r.Advances r' := by
  rcases ogsPfcpXactUpdateRx_ok hRx with ⟨-, -, rfl⟩ | ⟨-, -, rfl⟩ | ⟨reply, -, -, rfl⟩ |
    ⟨hold, -, -, hSame, hStep⟩
  · exact .refl
  · exact .refl
  · cases reply with
    | none => exact .refl
    | some pkbuf => exact ⟨Xact.same_hold, le_rfl⟩
  · exact ⟨hSame, by omega⟩

---- Operations ----

variable {x : Nat}

theorem run_setXact {t : Thread} (hLive : t.xact x = some r) (hAdvances : r.Advances r') :
    Run t.toStore (t.setXact x r').toStore :=
  .single (.updated hLive hAdvances.same hAdvances.step rfl)

variable {t t' : Thread}

/- A deletion, on a transaction that is in use. -/
theorem delete_ok (hExec : ogsPfcpXactDelete t x = .ok t') :
    ∃ r, t.xact x = some r ∧ t'.toStore = unlinkXact t.toStore x r := by
  unfold ogsPfcpXactDelete at hExec
  cases hLive : t.xact x with
  | none =>
    rw [hLive] at hExec
    cases hExec
  | some r =>
    rw [hLive] at hExec
    cases hExec
    exact ⟨r, rfl, rfl⟩

theorem delete_run (hExec : ogsPfcpXactDelete t x = .ok t') : Run t.toStore t'.toStore := by
  rcases delete_ok hExec with ⟨r, hLive, hStore⟩
  exact .single (.deleted hLive hStore)

theorem deleteAllFrom_run (hExec : deleteAllFrom t fuel node = .ok t') :
    Run t.toStore t'.toStore := by
  induction fuel generalizing t node with
  | zero =>
    cases hExec
    exact .refl
  | succ fuel ih =>
    cases node with
    | none =>
      cases hExec
      exact .refl
    | some x =>
      rcases bind_eq_ok.mp hExec with ⟨u, hDelete, hRest⟩
      exact (delete_run hDelete).trans (ih hRest)

theorem commit_run (hExec : ogsPfcpXactCommit t x = .ok (rv, t')) : Run t.toStore t'.toStore := by
  unfold ogsPfcpXactCommit at hExec
  cases hLive : t.xact x with
  | none =>
    rw [hLive] at hExec
    cases hExec
  | some r =>
    simp only [hLive] at hExec
    rcases bind_eq_ok.mp hExec with ⟨action, hAction, hRest⟩
    cases action with
    | delete rv' =>
      rcases bind_eq_ok.mp hRest with ⟨u, hDelete, hEnd⟩
      cases hEnd
      exact delete_run hDelete
    | send r' pkbuf =>
      cases hRest
      exact run_setXact hLive (Xact.commitAction_send hAction)

variable {cfg : Config}

/- Timers are added to a record that is otherwise kept. -/
theorem addTimers_ok (hTimers : addTimers cfg t r kinds = (done, r', t')) :
    r.Same r' ∧ r'.step = r.step ∧ t'.toStore = t.toStore := by
  induction kinds generalizing t r with
  | nil =>
    cases hTimers
    exact ⟨.refl, rfl, rfl⟩
  | cons kind rest ih =>
    unfold addTimers at hTimers
    by_cases hNone : t.timerAvail = 0
    · simp only [ogsTimerAdd, hNone, ↓reduceIte] at hTimers
      cases hTimers
      exact ⟨.refl, rfl, rfl⟩
    · simp only [ogsTimerAdd, hNone, ↓reduceIte] at hTimers
      rcases ih hTimers with ⟨hSame, hStep, hStore⟩
      cases kind with
      | response => exact ⟨⟨hSame.org, hSame.xid, hSame.hashKey, hSame.node⟩, hStep, hStore⟩
      | holding => exact ⟨⟨hSame.org, hSame.xid, hSame.hashKey, hSame.node⟩, hStep, hStore⟩
      | delayedCommit => exact ⟨⟨hSame.org, hSame.xid, hSame.hashKey, hSame.node⟩, hStep, hStore⟩

variable {res : Option Nat}

/- A create links the transaction, or deletes it before it was linked. -/
theorem setupXact_ok (hSetup : setupXact cfg u (t.poolId + 1) r = .ok (res, t'))
    (hAlloc : u.toStore = t.toStore.alloc) :
    ∃ r', r.Same r' ∧ r'.step = r.step ∧ ((res = some (t.poolId + 1) ∧ t'.toStore =
            linkXact t.toStore.alloc (t.poolId + 1) r') ∨ (res = none ∧ t'.toStore = unlinkXact
              (t.toStore.alloc.setXact (t.poolId + 1) r') (t.poolId + 1) r')) := by
  unfold setupXact at hSetup
  cases hTimers : addTimers cfg u r [.response, .holding, .delayedCommit] with
  | mk done rest =>
    rcases rest with ⟨r', v⟩
    rcases addTimers_ok hTimers with ⟨hSame, hStep, hStore⟩
    rw [hAlloc] at hStore
    refine ⟨r', hSame, hStep, ?_⟩
    rw [hTimers] at hSetup
    cases done with
    | true =>
      cases hSetup
      exact Or.inl ⟨rfl, by rw [hStore]⟩
    | false =>
      rcases bind_eq_ok.mp hSetup with ⟨w, hDelete, hEnd⟩
      cases hEnd
      rcases delete_ok hDelete with ⟨q, hLive, hUnlink⟩
      have hEq : q = r' := by
        simp only [Thread.setXact, Store.setXact, update_self, Option.some.injEq] at hLive
        exact hLive.symm
      subst hEq
      refine Or.inr ⟨rfl, ?_⟩
      rw [hUnlink, Thread.setXact, hStore]

theorem ogsPoolIdCalloc_some (hCalloc : ogsPoolIdCalloc t = some (x, u)) :
    x = t.poolId + 1 ∧ u.toStore = t.toStore.alloc := by
  unfold ogsPoolIdCalloc at hCalloc
  split at hCalloc
  · cases hCalloc
  · cases hCalloc
    exact ⟨rfl, rfl⟩

theorem localCreate_run (hExec : ogsPfcpXactLocalCreate cfg t n = .ok (res, t')) :
    Run t.toStore t'.toStore := by
  unfold ogsPfcpXactLocalCreate at hExec
  cases hCalloc : ogsPoolIdCalloc t with
  | none =>
    rw [hCalloc] at hExec
    cases hExec
    exact .refl
  | some pair =>
    rcases pair with ⟨x, u⟩
    simp only [hCalloc] at hExec
    rcases ogsPoolIdCalloc_some hCalloc with ⟨rfl, hAlloc⟩
    rcases setupXact_ok hExec hAlloc with ⟨r', hSame, -, ⟨-, hStore⟩ | ⟨-, hStore⟩⟩
    · refine .single (.created ?_ hStore)
      intro hRemote
      rw [hSame.org] at hRemote
      cases hRemote
    · exact .single (.discarded hStore)

/- A new remote transaction, linked. -/
theorem remoteCreate_some (hExec : ogsPfcpXactRemoteCreate cfg t n xid = .ok (some x, t')) :
    x = t.poolId + 1 ∧ ∃ r, r.org = .remoteOrg ∧ r.xid = xid ∧ r.node = n ∧ r.step = 0 ∧
        t'.toStore = linkXact t.toStore.alloc x r := by
  unfold ogsPfcpXactRemoteCreate at hExec
  cases hCalloc : ogsPoolIdCalloc t with
  | none =>
    rw [hCalloc] at hExec
    cases hExec
  | some pair =>
    rcases pair with ⟨y, u⟩
    simp only [hCalloc] at hExec
    rcases ogsPoolIdCalloc_some hCalloc with ⟨rfl, hAlloc⟩
    rcases setupXact_ok hExec hAlloc with ⟨r, hSame, hStep, ⟨hId, hStore⟩ | ⟨hId, -⟩⟩
    · cases hId
      exact ⟨rfl, r, hSame.org, hSame.xid, hSame.node, hStep, hStore⟩
    · cases hId

---- Receiving ----

/- Storing the record that is there changes nothing. -/
theorem setXact_self {s : Store} (hLive : s.xact x = some r) : s.setXact x r = s := by
  rw [Store.setXact, ← hLive, update_eq_self]

/- The record is rewritten, or the transaction deleted. -/
theorem receiveRx_ok (hExec : receiveRx t x type = .ok (rv, res, t')) :
    ∃ r r' packets, t.xact x = some r ∧ ogsPfcpXactUpdateRx r type = .ok (rv, r', packets) ∧
      ((rv = .error ∧ t'.toStore = unlinkXact t.toStore x r) ∨ (rv ≠ .error ∧
          t'.toStore = t.toStore.setXact x r')) := by
  unfold receiveRx at hExec
  cases hLive : t.xact x with
  | none =>
    rw [hLive] at hExec
    cases hExec
  | some r =>
    simp only [hLive] at hExec
    rcases bind_eq_ok.mp hExec with ⟨⟨rv', r', packets⟩, hRx, hRest⟩
    cases rv' with
    | error =>
      rcases bind_eq_ok.mp hRest with ⟨u, hDelete, hEnd⟩
      cases hEnd
      refine ⟨r, r', packets, rfl, hRx, Or.inl ⟨rfl, ?_⟩⟩
      rcases ogsPfcpXactUpdateRx_ok hRx with ⟨-, -, rfl⟩ | ⟨hRv, -⟩ | ⟨reply, hRv, -⟩ |
        ⟨hold, hRv, -⟩
      · rcases delete_ok hDelete with ⟨q, hq, hStore⟩
        have hSelf : ((t.setXact x r').sendto r'.node packets).toStore = t.toStore :=
          setXact_self hLive
        rw [hSelf] at hq hStore
        rw [hLive] at hq
        cases hq
        exact hStore
      · cases hRv
      · cases hRv
      · cases hRv
    | retry =>
      cases hRest
      refine ⟨r, r', packets, rfl, hRx, Or.inr ⟨?_, rfl⟩⟩
      intro hRv
      cases hRv
    | ok =>
      cases hRest
      refine ⟨r, r', packets, rfl, hRx, Or.inr ⟨?_, rfl⟩⟩
      intro hRv
      cases hRv

theorem receiveRx_run (hExec : receiveRx t x type = .ok (rv, res, t')) :
    Run t.toStore t'.toStore := by
  rcases receiveRx_ok hExec with ⟨r, r', packets, hLive, hRx, ⟨-, hStore⟩ | ⟨-, hStore⟩⟩
  · exact .single (.deleted hLive hStore)
  · have hAdvances := ogsPfcpXactUpdateRx_advances hRx
    exact .single (.updated hLive hAdvances.same hAdvances.step hStore)

/- A new transaction accepts its message or rejects it. -/
theorem rxGuard_new (hRemote : r.org = .remoteOrg) (hStep : r.step = 0) :
    rxGuard r type = .reject ∨ ∃ hold, rxGuard r type = .accept hold := by
  cases hStage : ogsPfcpXactGetStage type r.xid <;> simp only [rxGuard, hRemote, hStage, hStep] <;>
    try simp
  by_cases hType : (r.seq 0).type = type
  · simp [hType]
  · simp [hType]

/- A linked record may be rewritten before it is linked. -/
theorem linkXact_setXact (hSame : r.keyed.Same r') :
    (linkXact s x r).setXact x r' = linkXact s x r' := by
  have hHome : r'.home = r.home := hSame.home
  have hKey : r'.key = r.key := hSame.key
  have hNode : r'.node = r.node := hSame.node
  have hKeyed : r'.keyed = r' := by
    have hHash : r'.hashKey = r'.key := hSame.hashKey.trans hKey.symm
    rw [Xact.keyed, ← hHash]
  simp only [linkXact, xactIndexAdd, xactListAdd, Store.setXact, hHome, hKey, hNode, hKeyed,
    update_idem]

/- Creating a transaction for a message and receiving it. -/
theorem receiveNew_change (hCreate : ogsPfcpXactRemoteCreate cfg t n xid = .ok (some x, u))
    (hExec : receiveRx u x type = .ok (rv, res, t')) : Change t.toStore t'.toStore := by
  rcases remoteCreate_some hCreate with ⟨rfl, r, hOrg, -, -, hZero, hLink⟩
  rcases receiveRx_ok hExec with ⟨q, r', packets, hq, hRx, hStore⟩
  have hKeyed : q = r.keyed := by
    rw [hLink] at hq
    simp only [linkXact, xactIndexAdd, Store.setXact, update_self, Option.some.injEq] at hq
    exact hq.symm
  subst hKeyed
  rw [hLink] at hStore
  rcases hStore with ⟨-, hStore⟩ | ⟨hRv, hStore⟩
  · exact .dropped hStore
  · have hGuard : rxGuard r.keyed type = .reject ∨ ∃ hold, rxGuard r.keyed type = .accept hold :=
    rxGuard_new hOrg hZero
    rcases ogsPfcpXactUpdateRx_ok hRx with ⟨hError, -⟩ | ⟨-, hRow, -⟩ | ⟨reply, -, hRow, -⟩ |
      ⟨hold, -, -, hSame, hStep⟩
    · exact absurd hError hRv
    · simp [hRow] at hGuard
    · simp [hRow] at hGuard
    · rw [linkXact_setXact hSame] at hStore
      refine .created ?_ hStore
      intro _
      omega

/- A message is refused, reaches a transaction, or gets a new one. -/
theorem receive_cases (hExec : ogsPfcpXactReceive cfg t n h = .ok (rv, res, t')) :
    let xid := ogsPfcpSqnToXid h.sqn
    let found := rxOrg (ogsPfcpXactGetStage h.type xid)
    (found = none ∧ t' = t) ∨ ∃ org, found = some org ∧
        ((∃ x, findXid t.toStore n org xid = some x ∧ receiveRx t x h.type = .ok (rv, res, t')) ∨
          (findXid t.toStore n org xid = none ∧ ∃ x u, ogsPfcpXactRemoteCreate cfg t n xid =
                .ok (some x, u) ∧ receiveRx u x h.type = .ok (rv, res, t'))) := by
  intro xid found
  simp only [ogsPfcpXactReceive] at hExec
  cases hOrg : found with
  | none =>
    simp only [found, xid] at hOrg
    simp only [hOrg] at hExec
    cases hExec
    exact Or.inl ⟨rfl, rfl⟩
  | some org =>
    simp only [found, xid] at hOrg
    simp only [hOrg] at hExec
    refine Or.inr ⟨org, rfl, ?_⟩
    cases hFind : findXid t.toStore n org xid with
    | some x =>
      simp only [xid] at hFind
      simp only [hFind] at hExec
      exact Or.inl ⟨x, rfl, hExec⟩
    | none =>
      simp only [xid] at hFind
      simp only [hFind] at hExec
      rcases bind_eq_ok.mp hExec with ⟨⟨created, u⟩, hCreate, hRest⟩
      cases created with
      | none => cases hRest
      | some x => exact Or.inr ⟨rfl, x, u, hCreate, hRest⟩

theorem receive_run (hExec : ogsPfcpXactReceive cfg t n h = .ok (rv, res, t')) :
    Run t.toStore t'.toStore := by
  rcases receive_cases hExec with ⟨-, rfl⟩ | ⟨org, -, ⟨x, -, hRx⟩ | ⟨-, x, u, hCreate, hRx⟩⟩
  · exact .refl
  · exact receiveRx_run hRx
  · exact .single (receiveNew_change hCreate hRx)

---- Timers ----

variable {lag : Option Int}

theorem xactResponseLagDefer_some (hDefer : xactResponseLagDefer r lag = some r') :
    r.Advances r' := by
  unfold xactResponseLagDefer at hDefer
  split at hDefer
  · split at hDefer
    · cases hDefer
    · split at hDefer
      · cases hDefer
      · cases hDefer
        exact ⟨⟨rfl, rfl, rfl, rfl⟩, le_rfl⟩
  · cases hDefer

theorem ogsPfcpXactFindByIdForTimer_some (hFind : ogsPfcpXactFindByIdForTimer t x = some r) :
    t.xact x = some r := by
  exact (Option.filter_eq_some_iff.mp hFind).1

theorem responseTimeout_run (hExec : responseTimeout t x lag = .ok t') :
    Run t.toStore t'.toStore := by
  unfold responseTimeout at hExec
  cases hFind : ogsPfcpXactFindByIdForTimer t x with
  | none =>
    rw [hFind] at hExec
    cases hExec
    exact .refl
  | some r =>
    have hLive := ogsPfcpXactFindByIdForTimer_some hFind
    simp only [hFind] at hExec
    rcases bind_eq_ok.mp hExec with ⟨last, -, hRest⟩
    split at hRest
    case h_1 r' hDefer =>
      cases hRest
      exact run_setXact hLive (xactResponseLagDefer_some hDefer)
    case h_2 =>
      split at hRest
      · split at hRest
        · cases hRest
        · cases hRest
          exact run_setXact hLive ⟨⟨rfl, rfl, rfl, rfl⟩, le_rfl⟩
      · cases hRest
        exact run_setXact hLive ⟨⟨rfl, rfl, rfl, rfl⟩, le_rfl⟩

theorem holdingTimeout_run (hExec : holdingTimeout t x = .ok t') : Run t.toStore t'.toStore := by
  unfold holdingTimeout at hExec
  cases hFind : ogsPfcpXactFindByIdForTimer t x with
  | none =>
      rw [hFind] at hExec
      cases hExec
      exact .refl
  | some r =>
      have hLive := ogsPfcpXactFindByIdForTimer_some hFind
      simp only [hFind] at hExec
      rcases bind_eq_ok.mp hExec with ⟨last, -, hRest⟩
      split at hRest
      · cases hRest
        exact run_setXact hLive ⟨⟨rfl, rfl, rfl, rfl⟩, le_rfl⟩
      · have hAdvances : r.Advances
              { r with holdingRcount := r.holdingRcount - 1 } := ⟨⟨rfl, rfl, rfl, rfl⟩, le_rfl⟩
        have hCount := run_setXact hLive hAdvances
        exact hCount.trans (delete_run hRest)

theorem delayedCommitTimeout_run (hExec : delayedCommitTimeout t x = .ok t') :
    Run t.toStore t'.toStore := by
  unfold delayedCommitTimeout at hExec
  cases hFind : ogsPfcpXactFindByIdForTimer t x with
  | none =>
    rw [hFind] at hExec
    cases hExec
    exact .refl
  | some r =>
    simp only [hFind] at hExec
    rcases bind_eq_ok.mp hExec with ⟨last, -, hRest⟩
    rcases map_eq_ok hRest with ⟨⟨rv, u⟩, hCommit, rfl⟩
    exact commit_run hCommit

theorem fireTimer_run (hExec : fireTimer t lag = .ok t') : Run t.toStore t'.toStore := by
  unfold fireTimer at hExec
  split at hExec
  · cases hExec
    exact .refl
  case h_2 kind x rest hExpired =>
    let u := { t with expired := rest }
    cases kind with
    | response => exact responseTimeout_run (t := u) hExec
    | holding => exact holdingTimeout_run (t := u) hExec
    | delayedCommit => exact delayedCommitTimeout_run (t := u) hExec

theorem expireTimer_run : Run t.toStore (expireTimer t kind x).toStore := by
  unfold expireTimer
  split
  · exact .refl
  case h_2 r hLive =>
    split
    · refine run_setXact hLive ?_
      cases kind with
      | response => exact ⟨⟨rfl, rfl, rfl, rfl⟩, le_rfl⟩
      | holding => exact ⟨⟨rfl, rfl, rfl, rfl⟩, le_rfl⟩
      | delayedCommit => exact ⟨⟨rfl, rfl, rfl, rfl⟩, le_rfl⟩
    · exact .refl

---- Steps And Runs ----

theorem updateTx_run (hExec : updateTx t x hdesc payload = .ok (rv, t')) :
    Run t.toStore t'.toStore := by
  unfold updateTx at hExec
  cases hLive : t.xact x with
  | none =>
    rw [hLive] at hExec
    cases hExec
  | some r =>
    simp only [hLive] at hExec
    rcases bind_eq_ok.mp hExec with ⟨⟨rv', r'⟩, hTx, hEnd⟩
    cases hEnd
    exact run_setXact hLive (ogsPfcpXactUpdateTx_ok hTx)

theorem delayedCommit_run (hExec : ogsPfcpXactDelayedCommit t x = .ok t') :
    Run t.toStore t'.toStore := by
  unfold ogsPfcpXactDelayedCommit at hExec
  cases hLive : t.xact x with
  | none =>
    rw [hLive] at hExec
    cases hExec
  | some r =>
    simp only [hLive] at hExec
    split at hExec
    · cases hExec
    · cases hExec
      exact run_setXact hLive ⟨⟨rfl, rfl, rfl, rfl⟩, le_rfl⟩

/- Every step of the layer is a run of changes. -/
theorem exec_run (hExec : exec cfg t op = .ok t') : Run t.toStore t'.toStore := by
  cases op with
  | localCreate n =>
    rcases map_eq_ok hExec with ⟨⟨res, u⟩, hRun, rfl⟩
    exact localCreate_run hRun
  | updateTx x hdesc payload =>
    rcases map_eq_ok hExec with ⟨⟨rv, u⟩, hRun, rfl⟩
    exact updateTx_run hRun
  | receive n h =>
    simp only [exec] at hExec
    split at hExec
    · cases hExec
      exact .refl
    · rcases map_eq_ok hExec with ⟨⟨rv, res, u⟩, hRun, rfl⟩
      exact receive_run hRun
  | commit x =>
    rcases map_eq_ok hExec with ⟨⟨rv, u⟩, hRun, rfl⟩
    exact commit_run hRun
  | delayedCommit x => exact delayedCommit_run hExec
  | delete x => exact delete_run hExec
  | deleteAll n =>
    rcases bind_eq_ok.mp hExec with ⟨u, hFirst, hSecond⟩
    exact (deleteAllFrom_run hFirst).trans (deleteAllFrom_run hSecond)
  | expire kind x =>
    simp only [exec] at hExec
    split at hExec
    · cases hExec
      exact expireTimer_run
    · cases hExec
      exact .refl
  | fire lag =>
    simp only [exec] at hExec
    split at hExec
    · exact fireTimer_run hExec
    · cases hExec
      exact .refl
  | callbackReturn =>
    simp only [exec, callbackReturn] at hExec
    split at hExec
    · cases hExec
      exact .refl
    case h_2 x rest hCallbacks => exact delete_run (t := { t with callbacks := rest }) hExec
  | timers avail =>
    cases hExec
    exact .refl

/- Every reachable store is sound. -/
theorem sound_of_reachable (hReach : (layer cfg).Reachable t) : Sound t.toStore := by
  refine Faulty.System.Reachable.invariant (P := fun t => Sound t.toStore) ?_ ?_ hReach
  · rintro _ ⟨counter, poolAvail, timerAvail, -, -, rfl⟩
    exact sound_empty
  · intro s op s' hSound hExec
    exact Run.sound (exec_run hExec) hSound

end Pfcp

end Pretty5gs
