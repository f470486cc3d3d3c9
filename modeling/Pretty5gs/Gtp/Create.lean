import Pretty5gs.Gtp.Quiet

/-
  What the creates and the receive functions of the GTP transaction layer do to a sound store.

  A create links one transaction, or overwrites a list head when a timer is missing, or leaves
  everything as it was.

  Main results: `setupXact_spec`, `localCreate_spec`, `receiveRx_found`, `receiveNew_spec`.
-/

---- Creation ----

namespace Pretty5gs.Gtp

open Function Faulty

variable {r : Xact}

/- Allocating timers sets timer fields and nothing else. -/
theorem addTimers_spec (cfg : Config) (t : Thread) (kinds : List TimerKind)
    (hBlank : r.Blank) : ∃ avail r', addTimers cfg t r kinds =
        (decide (kinds.length ≤ t.timerAvail), r', { t with timerAvail := avail }) ∧
      r'.Blank ∧ r.Same r' := by
  induction kinds generalizing t r with
  | nil => exact ⟨t.timerAvail, r, by simp [addTimers], hBlank, .refl⟩
  | cons kind rest ih =>
      by_cases hNone : t.timerAvail = 0
      · refine ⟨0, r, ?_, hBlank, .refl⟩
        rcases t with ⟨store, xactId, poolAvail, timerAvail, _, _, _⟩
        cases hNone
        simp [addTimers, ogsTimerAdd]
      · let next : Xact := r.setTimer cfg kind { running := false }
        have hNext : next.Blank ∧ r.Same next := by
          cases kind with
          | response =>
              exact ⟨⟨hBlank.step, hBlank.seq, hBlank.assoc, rfl⟩, ⟨rfl, rfl, rfl, rfl, rfl⟩⟩
          | holding =>
              exact ⟨⟨hBlank.step, hBlank.seq, hBlank.assoc,
                hBlank.stopped⟩, ⟨rfl, rfl, rfl, rfl, rfl⟩⟩
          | peer =>
              exact ⟨⟨hBlank.step, hBlank.seq, hBlank.assoc,
                hBlank.stopped⟩, ⟨rfl, rfl, rfl, rfl, rfl⟩⟩
        rcases ih { t with timerAvail := t.timerAvail - 1 } hNext.1 with
          ⟨avail, r', hRest, hBlank', hSame⟩
        refine ⟨avail, r', ?_, hBlank', ?_⟩
        · have hBudget : rest.length ≤ t.timerAvail - 1 ↔ (kind :: rest).length ≤ t.timerAvail := by
            simp only [List.length_cons]
            omega
          simp only [addTimers, ogsTimerAdd, hNone, ↓reduceIte]
          rw [hRest]
          simp only [hBudget]
        · exact ⟨hSame.gtpVersion.trans hNext.2.gtpVersion, hSame.org.trans hNext.2.org,
              hSame.xid.trans hNext.2.xid, hSame.hashKey.trans hNext.2.hashKey,
              hSame.gnode.trans hNext.2.gnode⟩

variable {t u : Thread}

/-
  The common part of the creates, after the id has been taken: with enough timers the transaction is
  linked, and otherwise the list loses its head.
-/
theorem setupXact_spec
    (hSound : Sound t.toStore) (hAlloc : u.toStore = t.toStore.alloc) (hBlank : r.Blank) : ∃ t',
      t'.expired = u.expired ∧ t'.callbacks = u.callbacks ∧
      t'.xactId = u.xactId ∧ t'.sent = u.sent ∧
      if kinds.length ≤ u.timerAvail then
        setupXact cfg u (t.poolId + 1) r kinds = .ok (some (t.poolId + 1), t') ∧
          t'.poolAvail = u.poolAvail ∧ ∃ r', r'.Blank ∧ r.Same r' ∧ t'.toStore =
              linkXact t.toStore.alloc (t.poolId + 1) r'
      else
        setupXact cfg u (t.poolId + 1) r kinds = .ok (none, t') ∧ Clobbered t.toStore t'.toStore
            (r.gnode, r.org) := by
  rcases addTimers_spec cfg u kinds hBlank with ⟨avail, r', hTimers, hBlank', hSame⟩
  by_cases hEnough : kinds.length ≤ u.timerAvail
  · refine ⟨{ u with
      toStore := linkXact u.toStore (t.poolId + 1) r'
      timerAvail := avail }, rfl, rfl, rfl, rfl, ?_⟩
    rw [if_pos hEnough]
    refine ⟨?_, rfl, r', hBlank', hSame, ?_⟩
    · simp only [setupXact, hTimers, hEnough, decide_true]
    · rw [← hAlloc]
  · let blank : Thread := { u with timerAvail := avail }.setXact (t.poolId + 1) r'
    have hLive : blank.xact (t.poolId + 1) = some r' := by
      simp [blank, Thread.setXact, Store.setXact]
    have hDelete := delete_unassociated hLive hBlank'.assoc
    refine ⟨{ blank with
      toStore := unlinkXact blank.toStore (t.poolId + 1) r'
      poolAvail := blank.poolAvail + 1
      timerAvail := blank.timerAvail + r'.timers }, rfl, rfl, rfl, rfl, ?_⟩
    rw [if_neg hEnough]
    refine ⟨?_, ?_⟩
    · simp only [setupXact, hTimers, hEnough, decide_false]
      exact bind_eq_ok.mpr ⟨_, hDelete, rfl⟩
    · have hClobbered := hSound.unlink_unlinked r'
      rw [hSame.gnode, hSame.org, ← hAlloc] at hClobbered
      exact hClobbered

/- The record of a linked transaction is the one it keeps. -/
theorem linkXact_setXact (hSame : r.keyed.Same r') :
    (linkXact s x r).setXact x r' = linkXact s x r' := by
  have hKey : r'.key = r.key := hSame.key
  have hRecord : r'.keyed = r' := by
    have hStored : r'.hashKey = r.key := hSame.hashKey
    rw [Xact.keyed, hKey, ← hStored]
  have hGnode : r'.gnode = r.gnode := hSame.gnode
  have hOrg : r'.org = r.org := hSame.org
  simp only [linkXact, xactIndexAdd, xactListAdd,
    Store.setXact, Store.setGnode, update_idem, hRecord, hKey, hGnode, hOrg]

/- What a transmit does to a blank local record: it rejects, or it stores the opening message. -/
def TxOpens (tx : Xact → Except Fault (Rv × Xact)) (version : Version) (type : Nat)
    (build : U32 → Pkbuf) : Prop :=
  ∀ r rv r', r.gtpVersion = version → r.org = .localOrg → r.step = 0 → tx r = .ok (rv, r') →
    (rv = .error ∧ r' = r) ∨ (rv = .ok ∧ r.Sent r' type (build r.xid) ∧
        getStage version type r.xid = .initial ∧ (version = .gtp2 → r'.sqn = ogsGtp2XidToSqn r.xid))

theorem gtp1_txOpens :
    TxOpens (fun r => ogsGtp1XactUpdateTx r hdesc payload) .gtp1 hdesc.type
      (fun xid => buildGtp1 xid hdesc payload) := by
  intro r rv r' _ hLocal hStep hTx
  rcases ogsGtp1XactUpdateTx_ok hTx with hReject | ⟨hOk, hGuard, hSent, -⟩
  · exact Or.inl hReject
  · exact Or.inr ⟨hOk, hSent, initial_of_gtp1TxGuard hLocal hStep hGuard,
    fun hVersion => by cases hVersion⟩

theorem gtp2_txOpens :
    TxOpens (fun r => ogsGtpXactUpdateTx r hdesc payload) .gtp2 hdesc.type
      (fun xid => buildGtp2 xid hdesc payload) := by
  intro r rv r' _ hLocal hStep hTx
  rcases ogsGtpXactUpdateTx_ok hTx with hReject | ⟨hOk, hGuard, hSent, hSqn⟩
  · exact Or.inl hReject
  · exact Or.inr ⟨hOk, hSent, initial_of_gtp2TxGuard hLocal hStep hGuard, fun _ => hSqn⟩

variable {res : Option Nat} {tx : Xact → Except Fault (Rv × Xact)} {version : Version}

/-
  The last part of a local create. The first message is stored, or the new transaction is gone
  again.
-/
theorem firstTx_spec (hOpens : TxOpens tx version type build) (hSound : Sound t.toStore)
    (hVersion : r.gtpVersion = version) (hLocal : r.org = .localOrg) (hBlank : r.Blank) (hStore :
      u.toStore = linkXact t.toStore.alloc (t.poolId + 1) r) (hExec :
      firstTx tx (some (t.poolId + 1), u) = .ok (res, t')) : t'.expired = u.expired ∧
      ((res = none ∧ Reframed t.toStore t'.toStore) ∨ (res = some (t.poolId + 1) ∧
          ∃ r', r'.Valid ∧ r'.step = 1 ∧ r.keyed.Same r' ∧ r'.seq 0 =
              { type := type, pkbuf := some (build r.xid) } ∧ isRunning r'.tmResponse = false ∧
            t'.toStore = linkXact t.toStore.alloc (t.poolId + 1) r')) := by
  have hLive : u.xact (t.poolId + 1) = some r.keyed := by rw [hStore, linkXact_xact, update_self]
  simp only [firstTx, hLive] at hExec
  rcases bind_eq_ok.mp hExec with ⟨⟨rv, r'⟩, hTx, hRest⟩
  rcases hOpens r.keyed rv r' hVersion hLocal hBlank.step hTx with
    ⟨rfl, rfl⟩ | ⟨rfl, hSent, hInitial, hSqn⟩
  · -- The transmit was rejected and the transaction deleted.
    have hAgain : (u.setXact (t.poolId + 1) r.keyed).xact (t.poolId + 1) = some r.keyed := by
      simp [Thread.setXact, Store.setXact]
    have hDelete := delete_unassociated hAgain hBlank.assoc
    simp only [ne_eq, reduceCtorEq, not_false_eq_true, ↓reduceIte, hDelete, bind, Except.bind, pure,
      Except.pure, Except.ok.injEq, Prod.mk.injEq] at hRest
    rcases hRest with ⟨rfl, rfl⟩
    refine ⟨rfl, Or.inl ⟨rfl, ?_⟩⟩
    have hSet : (u.setXact (t.poolId + 1) r.keyed).toStore =
      linkXact t.toStore.alloc (t.poolId + 1) r := by
      change u.toStore.setXact _ _ = _
      rw [hStore, linkXact_setXact .refl]
      rfl
    rw [hSet]
    exact hSound.unlink_link .refl
  · rcases hRest with ⟨rfl, rfl⟩
    refine ⟨rfl, Or.inr ⟨rfl, r', ?_⟩⟩
    have hBlank' : r.keyed.Blank := ⟨hBlank.step, hBlank.seq, hBlank.assoc, hBlank.stopped⟩
    rcases hBlank'.valid hSent.same hSent.bound hSent.seq
      hSent.step (by rw [← hVersion] at hInitial
                     exact hInitial)
      (fun _ hGtp2 => hSqn (hVersion.symm.trans hGtp2)) with
      ⟨hValid, hOne, hFirst⟩
    refine ⟨hValid, hOne, hSent.same, hFirst, ?_, ?_⟩
    · rw [hSent.tmResponse]
      exact hBlank.stopped
    · change u.toStore.setXact _ _ = _
      rw [hStore, linkXact_setXact hSent.same]

theorem blank_calloc : (Xact.calloc version org xid n).Blank := ⟨rfl, rfl, rfl, rfl⟩

/- A create whose pool is not empty takes the next id. -/
theorem ogsPoolIdCalloc_some (hCalloc : ogsPoolIdCalloc t = some (x, u)) :
    x = t.poolId + 1 ∧ u.toStore = t.toStore.alloc ∧ u.expired = t.expired ∧ u.xactId = t.xactId ∧
      u.timerAvail = t.timerAvail ∧ 0 < t.poolAvail := by
  unfold ogsPoolIdCalloc at hCalloc
  split at hCalloc
  · cases hCalloc
  · cases hCalloc
    exact ⟨rfl, rfl, rfl, rfl, rfl, by omega⟩

/- The part of the two local creates after the identifier has been chosen. -/
theorem localCreate_spec (hOpens : TxOpens tx version type build)
    (hSound : Sound t.toStore) (hExec : (setupXact cfg u (t.poolId + 1)
          (Xact.calloc version .localOrg xid n) kinds >>= firstTx tx) = .ok (res, t'))
    (hAlloc : u.toStore = t.toStore.alloc) : t'.expired = u.expired ∧
      ((res = none ∧ Reframed t.toStore t'.toStore) ∨ (res = none ∧ u.timerAvail < kinds.length ∧
          Clobbered t.toStore t'.toStore (n, .localOrg)) ∨ (res = some (t.poolId + 1) ∧
          ∃ r, r.Valid ∧ r.step = 1 ∧ (r.gtpVersion = version ∧ r.org = .localOrg ∧
              r.xid = xid ∧ r.gnode = n) ∧ r.seq 0 = { type := type, pkbuf := some (build xid) } ∧
            isRunning r.tmResponse = false ∧ t'.toStore = linkXact t.toStore.alloc
                (t.poolId + 1) r)) := by
  rcases setupXact_spec hSound hAlloc blank_calloc with ⟨v, hExpired, -, -, -, hSetup⟩
  by_cases hEnough : kinds.length ≤ u.timerAvail
  · rw [if_pos hEnough] at hSetup
    rcases hSetup with ⟨hOk, -, r, hBlank, hSame, hStore⟩
    rw [hOk] at hExec
    rcases firstTx_spec hOpens hSound hSame.gtpVersion hSame.org hBlank hStore hExec with
      ⟨hSameExpired, hResult⟩
    refine ⟨hSameExpired.trans hExpired, ?_⟩
    rcases hResult with hGone | ⟨hRes, r', hValid, hOne, hKeyed, hFirst, hStopped, hLinked⟩
    · exact Or.inl hGone
    · rw [hSame.xid] at hFirst
      refine Or.inr (Or.inr ⟨hRes, r', hValid, hOne, ?_, hFirst, hStopped, hLinked⟩)
      exact ⟨hKeyed.gtpVersion.trans hSame.gtpVersion, hKeyed.org.trans hSame.org,
        hKeyed.xid.trans hSame.xid, hKeyed.gnode.trans hSame.gnode⟩
  · rw [if_neg hEnough] at hSetup
    rcases hSetup with ⟨hOk, hClobbered⟩
    rw [hOk] at hExec
    cases hExec
    exact ⟨hExpired, Or.inr (Or.inl ⟨rfl, by omega, hClobbered⟩)⟩

/-
  With enough timers, a transmit that rejects its first message ends the create with nothing but the
  id used up.
-/
theorem localCreate_rejected (cfg : Config) (kinds : List TimerKind)
    (hTx : ∀ q : Xact, q.org = r.org → q.step = 0 → tx q = .ok (.error, q))
    (hSound : Sound t.toStore) (hBlank : r.Blank) (hEnough : kinds.length ≤ u.timerAvail)
    (hAlloc : u.toStore = t.toStore.alloc) :
    ∃ t', (setupXact cfg u (t.poolId + 1) r kinds >>= firstTx tx) = .ok (none, t') ∧
      t'.poolAvail = u.poolAvail + 1 ∧ t'.xactId = u.xactId := by
  rcases setupXact_spec hSound hAlloc hBlank with ⟨v, -, -, hCounter, -, hSetup⟩
  rw [if_pos hEnough] at hSetup
  rcases hSetup with ⟨hOk, hPool, r', hBlank', hSame, hStore⟩
  have hLive : v.xact (t.poolId + 1) = some r'.keyed := by rw [hStore, linkXact_xact, update_self]
  have hReject := hTx r'.keyed hSame.org hBlank'.step
  have hAgain : (v.setXact (t.poolId + 1) r'.keyed).xact (t.poolId + 1) = some r'.keyed := by
    simp [Thread.setXact, Store.setXact]
  have hDelete : ∃ w, ogsGtpXactDelete (v.setXact (t.poolId + 1) r'.keyed) (t.poolId + 1) = .ok w ∧
    w.poolAvail = v.poolAvail + 1 ∧ w.xactId = v.xactId :=
    ⟨_, delete_unassociated hAgain hBlank'.assoc, rfl, rfl⟩
  rcases hDelete with ⟨w, hDelete, hReturned, hKept⟩
  refine ⟨w, bind_eq_ok.mpr ⟨_, hOk, ?_⟩, ?_, ?_⟩
  · simp only [firstTx, hLive, hReject, hDelete, bind,
    Except.bind, ne_eq, reduceCtorEq, not_false_eq_true, ↓reduceIte]
    rfl
  · rw [hReturned, hPool]
  · rw [hKept, hCounter]

/- With enough timers, an accepted first message returns. -/
theorem localCreate_opened (cfg : Config) (kinds : List TimerKind)
    (hTx : ∀ q : Xact, q.org = r.org → q.step = 0 → ∃ q', tx q = .ok (.ok, q'))
    (hSound : Sound t.toStore) (hBlank : r.Blank) (hEnough : kinds.length ≤ u.timerAvail)
    (hAlloc : u.toStore = t.toStore.alloc) :
    ∃ t', (setupXact cfg u (t.poolId + 1) r kinds >>= firstTx tx) = .ok (some (t.poolId + 1), t') ∧
      t'.poolAvail = u.poolAvail ∧ t'.xactId = u.xactId := by
  rcases setupXact_spec hSound hAlloc hBlank with ⟨v, -, -, hCounter, -, hSetup⟩
  rw [if_pos hEnough] at hSetup
  rcases hSetup with ⟨hOk, hPool, r', hBlank', hSame, hStore⟩
  have hLive : v.xact (t.poolId + 1) = some r'.keyed := by rw [hStore, linkXact_xact, update_self]
  rcases hTx r'.keyed hSame.org hBlank'.step with ⟨q', hAccept⟩
  refine ⟨v.setXact (t.poolId + 1) q', bind_eq_ok.mpr ⟨_, hOk, ?_⟩, hPool, hCounter⟩
  simp only [firstTx, hLive, hAccept]
  rfl

---- Receiving ----

/- A receive in terms of what the record's function does. -/
theorem receiveRx_eq {r r' : Xact} {packets : List Pkbuf} (hLive : t.xact x = some r) (hRx :
      ogsGtpXactUpdateRx r type = .ok (rv, r', packets)) : receiveRx t x created type =
      let u := (t.setXact x r').sendto r'.gnode packets
      match rv with
      | .error =>
          if created then (ogsGtpXactDelete u x).map (fun t => (.error, none, t))
          else .ok (.error, none, u)
      | .retry => .ok (.retry, none, u)
      | .ok => .ok (.ok, some x, u) := by
  simp only [receiveRx, hLive, hRx]
  cases rv <;> rfl

/- A found transaction is only rewritten. -/
theorem receiveRx_found (hIdle : t.expired = [])
    (hExec : receiveRx t x false type = .ok (rv, res, t')) : Quiet t t' := by
  cases hLive : t.xact x with
  | none =>
    simp only [receiveRx, hLive] at hExec
    cases hExec
  | some r =>
    rcases ogsGtpXactUpdateRx_cases with ⟨-, hRx⟩ | ⟨pkbuf, r', -, hRx, hKept, hTimer⟩ |
      ⟨hold, r', -, hRx, hAccepted⟩
    · rw [receiveRx_eq hLive hRx] at hExec
      cases hExec
      exact quiet_kept r hLive .refl rfl rfl (fun _ hy => hy)
    · rw [receiveRx_eq hLive hRx] at hExec
      cases hExec
      exact quiet_kept r' hLive hKept hTimer rfl (fun _ hy => hy)
    · rw [receiveRx_eq hLive hRx] at hExec
      cases hExec
      refine .update hLive (.accepted type hAccepted) rfl (fun _ _ hy => hy) ?_
      rintro (hRunning | hDue)
      · rw [hAccepted.stopped] at hRunning
        cases hRunning
      · change (TimerKind.response, x) ∈ t.expired at hDue
        rw [hIdle] at hDue
        cases hDue

/- A created transaction stays exactly when the message opens it. -/
theorem receiveNew_spec (hSound : Sound t.toStore)
    (hExec : receiveNew cfg t n version xid type = .ok (rv, res, t')) :
    t'.expired = t.expired ∧ (Reframed t.toStore t'.toStore ∨
        (getStage version type xid = .initial ∧ ∃ r, r.Valid ∧ r.step = 1 ∧
            (r.gtpVersion = version ∧ r.org = .remoteOrg ∧ r.xid = xid ∧ r.gnode = n) ∧
            isRunning r.tmResponse = false ∧ t'.toStore = linkXact t.toStore.alloc
                (t.poolId + 1) r)) := by
  rcases bind_eq_ok.mp hExec with ⟨⟨created, v⟩, hCreate, hRest⟩
  unfold ogsGtpXactRemoteCreate at hCreate
  cases hCalloc : ogsPoolIdCalloc t with
  | none =>
    rw [hCalloc] at hCreate
    cases hCreate
    cases hRest
  | some pair =>
    rcases pair with ⟨x, u⟩
    simp only [hCalloc] at hCreate
    rcases ogsPoolIdCalloc_some hCalloc with ⟨rfl, hAlloc, hExpired, -⟩
    rcases setupXact_spec hSound hAlloc blank_calloc with ⟨w, hSameExpired, -, -, -, hSetup⟩
    split at hSetup
    · rcases hSetup with ⟨hOk, -, r, hBlank, hSame, hStore⟩
      rw [hOk] at hCreate
      cases hCreate
      have hLive : v.xact (t.poolId + 1) = some r.keyed := by
        rw [hStore, linkXact_xact, update_self]
      have hBlank' : r.keyed.Blank := ⟨hBlank.step, hBlank.seq, hBlank.assoc, hBlank.stopped⟩
      have hGuard := rxGuard_blank hBlank' hSame.org type
      have hStage : getStage r.keyed.gtpVersion type r.keyed.xid = getStage version type xid := by
        change getStage r.gtpVersion type r.xid = _
        rw [hSame.gtpVersion, hSame.xid]
        rfl
      rw [hStage] at hGuard
      dsimp only at hRest
      rcases ogsGtpXactUpdateRx_cases with ⟨-, hRx⟩ | ⟨pkbuf, r', hResend, -⟩ |
        ⟨hold, r', hAccept, hRx, hAccepted⟩
      · -- The message does not open a transaction.
        let again : Thread := (v.setXact (t.poolId + 1) r.keyed).sendto r.keyed.gnode []
        have hAgain : again.xact (t.poolId + 1) = some r.keyed := by
          simp [again, Thread.sendto, Thread.setXact, Store.setXact]
        have hDelete := delete_unassociated hAgain hBlank'.assoc
        rw [receiveRx_eq hLive hRx] at hRest
        change (ogsGtpXactDelete again _).map _ = _ at hRest
        rw [hDelete] at hRest
        cases hRest
        refine ⟨hSameExpired.trans hExpired, Or.inl ?_⟩
        have hSet : again.toStore = linkXact t.toStore.alloc (t.poolId + 1) r := by
          change v.toStore.setXact _ _ = _
          rw [hStore, linkXact_setXact .refl]
          rfl
        rw [hSet]
        exact hSound.unlink_link .refl
      · rw [hGuard] at hResend
        split at hResend <;> cases hResend
      · rw [hGuard] at hAccept
        split at hAccept
        · rename_i hInitial
          rw [receiveRx_eq hLive hRx] at hRest
          cases hRest
          refine ⟨hSameExpired.trans hExpired, Or.inr ⟨hInitial, r', ?_⟩⟩
          rcases hBlank'.valid hAccepted.same hAccepted.bound hAccepted.seq
            hAccepted.step (hStage.trans hInitial) (fun hLocal => by
              rw [Xact.keyed_org, hSame.org] at hLocal
              cases hLocal) with
            ⟨hValid, hOne, -⟩
          refine ⟨hValid, hOne, ?_, hAccepted.stopped, ?_⟩
          · exact ⟨hAccepted.same.gtpVersion.trans hSame.gtpVersion,
            hAccepted.same.org.trans hSame.org, hAccepted.same.xid.trans hSame.xid,
            hAccepted.same.gnode.trans hSame.gnode⟩
          · change v.toStore.setXact _ _ = _
            rw [hStore, linkXact_setXact hAccepted.same]
        · cases hAccept
    · rcases hSetup with ⟨hOk, -⟩
      rw [hOk] at hCreate
      cases hCreate
      cases hRest

/- An index slot that is taken is what the lookup returns. -/
theorem Sound.findXid_of_slot (hSound : Sound t.toStore)
    (hSlot : xactIndexGet t.toStore n org version xid = some x) :
    findXid t n org version xid = some x := by
  rcases hSound.owner hSlot with ⟨r, hLive, -, hKey⟩
  rcases key_eq_xactIndexKey.mp hKey with ⟨-, hVersion, hXid⟩
  have hMatch : matchesXid t.toStore version xid x = true := by
    simp [matchesXid, hLive, hVersion, hXid]
  simp only [findXid, hSlot, Option.filter_some, hMatch, ↓reduceIte]

end Pretty5gs.Gtp
