import Pretty5gs.Gtp.Outcome

/-
  The three-element history of a GTP transaction over whole runs: which accesses stay inside it, and
  when the slot of the last step holds a packet.

  Main results: `history_access`, `response_timer_has_packet`.
-/

---- Functions That Stay Inside The History ----

namespace Pretty5gs.Gtp

open Function Faulty

/- An access outside the history. -/
def IsOutOfBounds (fault : Fault) : Prop := ∃ index, fault = .outOfBounds index

/- The computation makes no access outside the history. -/
abbrev InBounds {α : Type} (x : Except Fault α) : Prop := Faulty.Avoids IsOutOfBounds x

theorem inBounds_assertion : InBounds (.error .assertion : Except Fault α) :=
  avoids_error (by rintro ⟨index, hIndex⟩; cases hIndex)

theorem inBounds_useAfterFree : InBounds (.error .useAfterFree : Except Fault α) :=
  avoids_error (by rintro ⟨index, hIndex⟩; cases hIndex)

theorem deassociate_inBounds : InBounds (ogsGtpXactDeassociate t x y) := by
  unfold ogsGtpXactDeassociate
  split
  · split
    · exact inBounds_assertion
    · exact avoids_ok
  · exact inBounds_useAfterFree

theorem associate_inBounds : InBounds (ogsGtpXactAssociate t x y) := by
  unfold ogsGtpXactAssociate
  split
  · split
    · exact inBounds_assertion
    · exact avoids_ok
  · exact inBounds_useAfterFree

theorem delete_inBounds : InBounds (ogsGtpXactDelete t x) := by
  unfold ogsGtpXactDelete
  split
  · exact inBounds_useAfterFree
  · refine Faulty.Avoids.bind ?_ (fun _ _ => avoids_ok)
    unfold releaseAssoc
    split
    · exact deassociate_inBounds
    · exact avoids_ok

theorem deleteAllFrom_inBounds :
    InBounds (deleteAllFrom t fuel node) := by
  induction fuel generalizing t node with
  | zero => exact avoids_ok
  | succ fuel ih =>
    cases node with
    | none => exact avoids_ok
    | some x => exact Faulty.Avoids.bind (delete_inBounds) (fun u _ => ih)

variable {r : Xact}

/- A GTPv1 transmit leaves the history exactly here. -/
theorem gtp1UpdateTx_outOfBounds (hLe : r.step ≤ 3) :
    (∃ index, ogsGtp1XactUpdateTx r hdesc payload = .error (.outOfBounds index)) ↔
      r.org = .localOrg ∧ ogsGtp1XactGetStage hdesc.type r.xid = .final ∧ r.step = 3 := by
  constructor
  · rintro ⟨index, hFault⟩
    unfold ogsGtp1XactUpdateTx at hFault
    cases hGuard : gtp1TxGuard r hdesc.type with
    | abort =>
      rw [hGuard] at hFault
      cases hFault
    | reject =>
      rw [hGuard] at hFault
      cases hFault
    | accept =>
      have hStep : r.step = 3 := by
        by_contra hNe
        rcases Xact.saveTx_of_lt hdesc.type (buildGtp1 r.xid hdesc payload)
          (by omega : r.step < 3) with ⟨r', hSave⟩
        rw [hGuard] at hFault
        simp only [hSave] at hFault
        cases hFault
      unfold gtp1TxGuard at hGuard
      split at hGuard <;> simp_all
  · rintro ⟨hOrg, hStage, hStep⟩
    refine ⟨r.step, ?_⟩
    have hGuard : gtp1TxGuard r hdesc.type = .accept := by simp [gtp1TxGuard, hOrg, hStage, hStep]
    simp only [ogsGtp1XactUpdateTx, hGuard, Xact.saveTx_of_le hStep.ge]
    rfl

theorem gtp2UpdateTx_inBounds : InBounds (ogsGtpXactUpdateTx r hdesc payload) := by
  unfold ogsGtpXactUpdateTx
  cases hGuard : gtp2TxGuard r hdesc.type with
  | abort => exact inBounds_assertion
  | reject => exact avoids_ok
  | accept =>
    have hBound : r.step < 3 := by
      unfold gtp2TxGuard at hGuard
      split at hGuard <;> (try split at hGuard) <;> first
        | omega
        | cases hGuard
    refine Faulty.Avoids.bind ?_ (fun _ _ => avoids_ok)
    rcases Xact.saveTx_of_lt hdesc.type (buildGtp2 r.xid hdesc payload)
      (r := { r with sqn := ogsGtp2XidToSqn r.xid }) hBound with ⟨r', hSave⟩
    rw [hSave]
    exact avoids_ok

---- Operations That Stay Inside The History ----

theorem receiveRx_inBounds : InBounds (receiveRx t x created type) := by
  cases hLive : t.xact x with
  | none =>
    simp only [receiveRx, hLive]
    exact inBounds_useAfterFree
  | some r =>
    rcases ogsGtpXactUpdateRx_cases with ⟨-, hRx⟩ | ⟨pkbuf, r', -, hRx, -⟩ | ⟨hold, r', -, hRx, -⟩
    · rw [receiveRx_eq hLive hRx]
      cases created with
      | true => exact (delete_inBounds).map
      | false => exact avoids_ok
    · rw [receiveRx_eq hLive hRx]
      exact avoids_ok
    · rw [receiveRx_eq hLive hRx]
      exact avoids_ok

variable {cfg : Config}

/- The common part of the creates returns. -/
theorem setupXact_inBounds {t u : Thread} (hSound : Sound t.toStore)
    (hAlloc : u.toStore = t.toStore.alloc) (hBlank : r.Blank) :
    InBounds (setupXact cfg u (t.poolId + 1) r kinds) := by
  rcases setupXact_spec hSound hAlloc hBlank with ⟨v, -, -, -, -, hSetup⟩
  split at hSetup
  · rw [hSetup.1]
    exact avoids_ok
  · rw [hSetup.1]
    exact avoids_ok

variable {t : Thread}

theorem receiveNew_inBounds (hSound : Sound t.toStore) :
    InBounds (receiveNew cfg t n version xid type) := by
  refine Faulty.Avoids.bind ?_ ?_
  · unfold ogsGtpXactRemoteCreate
    cases hCalloc : ogsPoolIdCalloc t with
    | none => exact avoids_ok
    | some pair =>
      rcases pair with ⟨x, u⟩
      rcases ogsPoolIdCalloc_some hCalloc with ⟨rfl, hAlloc, -⟩
      exact setupXact_inBounds hSound hAlloc blank_calloc
  · rintro ⟨created, u⟩ -
    cases created with
    | none => exact inBounds_assertion
    | some x => exact receiveRx_inBounds

theorem receive1_inBounds (hSound : Sound t.toStore) : InBounds (ogsGtp1XactReceive cfg t n h) := by
  unfold ogsGtp1XactReceive
  dsimp only
  split
  · exact avoids_ok
  · split
    · exact avoids_ok
    · split
      · exact receiveRx_inBounds
      · split
        · exact avoids_ok
        · exact receiveNew_inBounds hSound

theorem receive2_inBounds (hSound : Sound t.toStore) : InBounds (ogsGtpXactReceive cfg t n h) := by
  unfold ogsGtpXactReceive
  dsimp only
  split
  · exact avoids_ok
  · split
    · split
      · exact avoids_ok
      · exact receiveRx_inBounds
    · split
      · exact receiveRx_inBounds
      · exact receiveNew_inBounds hSound

/- The first message of a create is stored at step 0, so a create stays inside the history. -/
theorem localCreate_inBounds (hSound : Sound t.toStore)
    (hTx : ∀ r : Xact, r.step = 0 → InBounds (tx r)) (hBlank : r.Blank)
    (hAlloc : u.toStore = t.toStore.alloc) :
    InBounds (setupXact cfg u (t.poolId + 1) r kinds >>= firstTx tx) := by
  refine Faulty.Avoids.bind (setupXact_inBounds hSound hAlloc hBlank) ?_
  rintro ⟨created, v⟩ hCreated
  cases created with
  | none => exact avoids_ok
  | some x =>
    rcases setupXact_spec hSound hAlloc hBlank with ⟨w, -, -, -, -, hSetup⟩
    split at hSetup
    · rcases hSetup with ⟨hOk, -, r', hBlank', -, hStore⟩
      rw [hOk] at hCreated
      cases hCreated
      have hLive : v.xact (t.poolId + 1) = some r'.keyed := by
        rw [hStore, linkXact_xact, update_self]
      simp only [firstTx, hLive]
      refine Faulty.Avoids.bind (hTx r'.keyed hBlank'.step) ?_
      rintro ⟨rv, r''⟩ -
      split
      · exact Faulty.Avoids.bind (delete_inBounds) (fun _ _ => avoids_ok)
      · exact avoids_ok
    · rw [hSetup.1] at hCreated
      cases hCreated

theorem localCreate1_inBounds (hSound : Sound t.toStore) :
    InBounds (ogsGtp1XactLocalCreate cfg t n hdesc payload) := by
  unfold ogsGtp1XactLocalCreate
  cases hCalloc : ogsPoolIdCalloc t with
  | none => exact avoids_ok
  | some pair =>
    rcases pair with ⟨x, u⟩
    rcases ogsPoolIdCalloc_some hCalloc with ⟨rfl, hAlloc, -⟩
    refine localCreate_inBounds hSound ?_ blank_calloc hAlloc
    rintro r hStep fault hFault ⟨index, rfl⟩
    have hThree := ((gtp1UpdateTx_outOfBounds (by omega)).mp ⟨index, hFault⟩).2.2
    omega

theorem localCreate2_inBounds (hSound : Sound t.toStore) :
    InBounds (ogsGtpXactLocalCreate cfg t n hdesc payload) := by
  unfold ogsGtpXactLocalCreate
  cases hCalloc : ogsPoolIdCalloc t with
  | none => exact avoids_ok
  | some pair =>
    rcases pair with ⟨x, u⟩
    rcases ogsPoolIdCalloc_some hCalloc with ⟨rfl, hAlloc, -⟩
    exact localCreate_inBounds hSound (fun r _ => gtp2UpdateTx_inBounds) blank_calloc hAlloc

theorem commit_inBounds (hValid : t.All Xact.Valid) : InBounds (ogsGtpXactCommit t x sendOk) := by
  unfold ogsGtpXactCommit
  cases hLive : t.xact x with
  | none => exact inBounds_useAfterFree
  | some r =>
    have hr := hValid x r hLive
    refine Faulty.Avoids.bind ?_ ?_
    · rintro fault hFault ⟨index, rfl⟩
      exact Xact.commitAction_inBounds hr.step_pos hr.step_le hFault
    · intro action _
      cases action with
      | delete rv => exact Faulty.Avoids.bind (delete_inBounds) (fun _ _ => avoids_ok)
      | keep => exact avoids_ok
      | send r' pkbuf =>
        dsimp only
        split
        · exact avoids_ok
        · exact Faulty.Avoids.bind (delete_inBounds) (fun _ _ => avoids_ok)

/- A timer callback reads the slot of the last step. -/
theorem fireTimer_inBounds (hValid : t.All Xact.Valid) : InBounds (fireTimer t lag) := by
  unfold fireTimer
  split
  · exact avoids_ok
  · rename_i kind x rest hExpired
    have hLast : ∀ {r}, ogsGtpXactFindByIdForTimer { t with expired := rest } x = some r →
      InBounds (r.seqAt (r.step - 1)) := by
      intro r hFind
      have hr := hValid x r (findByIdForTimer_some hFind)
      rw [Xact.seqAt_last r hr.step_pos hr.step_le]
      exact avoids_ok
    cases kind with
    | response =>
      dsimp only
      unfold responseTimeout
      split
      · exact avoids_ok
      · rename_i r hFind
        refine Faulty.Avoids.bind (hLast hFind) ?_
        intro last _
        split
        · exact avoids_ok
        · dsimp only
          split
          · split
            · exact inBounds_assertion
            · exact avoids_ok
          · exact avoids_ok
    | holding =>
      dsimp only
      unfold holdingTimeout
      split
      · exact avoids_ok
      · rename_i r hFind
        refine Faulty.Avoids.bind (hLast hFind) ?_
        intro last _
        dsimp only
        split
        · exact avoids_ok
        · exact delete_inBounds
    | peer =>
      dsimp only
      unfold peerTimeout
      split
      · exact avoids_ok
      · rename_i r hFind
        exact Faulty.Avoids.bind (hLast hFind) (fun _ _ => avoids_ok)

---- Access To The History ----

/- Every operation but the GTPv1 transmit stays inside. -/
theorem exec_inBounds (hSound : Sound t.toStore) (hValid : t.All Xact.Valid)
    (hOther : ∀ x hdesc payload, op ≠ .updateTx1 x hdesc payload) : InBounds (exec cfg t op) := by
  cases op with
  | updateTx1 x hdesc payload => exact absurd rfl (hOther x hdesc payload)
  | localCreate1 n hdesc payload => exact (localCreate1_inBounds hSound).map
  | localCreate2 n hdesc payload => exact (localCreate2_inBounds hSound).map
  | updateTx2 x hdesc payload =>
      refine Faulty.Avoids.map ?_
      unfold updateTx
      split
      · exact inBounds_useAfterFree
      · exact Faulty.Avoids.bind gtp2UpdateTx_inBounds (fun _ _ => avoids_ok)
  | receive1 n h =>
      simp only [exec]
      split
      · exact avoids_ok
      · exact (receive1_inBounds hSound).map
  | receive2 n h =>
      simp only [exec]
      split
      · exact avoids_ok
      · exact (receive2_inBounds hSound).map
  | commit x sendOk => exact (commit_inBounds hValid).map
  | associate x y => exact associate_inBounds
  | deassociate x y => exact deassociate_inBounds
  | deleteAll n =>
      exact Faulty.Avoids.bind (deleteAllFrom_inBounds)
        (fun u _ => deleteAllFrom_inBounds)
  | startPeer x =>
      simp only [exec, startPeer]
      split
      · exact inBounds_useAfterFree
      · exact avoids_ok
  | expire kind x =>
      simp only [exec]
      split <;> exact avoids_ok
  | fire lag =>
      simp only [exec]
      split
      · exact fireTimer_inBounds hValid
      · exact avoids_ok
  | callbackReturn =>
      simp only [exec, callbackReturn]
      split
      · exact avoids_ok
      · exact delete_inBounds
  | timers avail => exact avoids_ok

/- A transmit faults exactly when its record's function does. -/
theorem updateTx_error_iff :
    (updateTx t x tx).map (fun r => r.2) = .error (.outOfBounds index) ↔ ∃ r, t.xact x = some r ∧
        tx r = .error (.outOfBounds index) := by
  unfold updateTx
  cases hLive : t.xact x with
  | none => simp [Except.map]
  | some r =>
    cases hTx : tx r with
    | error e => simp [hTx, Except.map, bind, Except.bind]
    | ok pair => simp [hTx, Except.map, bind, Except.bind, pure, Except.pure]

/-
  Over every run a transaction has one to three steps, and the one operation that leaves the history
  is a second final GTPv1 transmit on a local transaction.
-/
theorem history_access {cfg : Config} {t : Thread} (hReach : (layer cfg).Reachable t) :
    (∀ x r, t.xact x = some r → 1 ≤ r.step ∧ r.step ≤ 3) ∧ ∀ op, (∃ index,
        exec cfg t op = .error (.outOfBounds index)) ↔ ∃ x hdesc payload r,
        op = .updateTx1 x hdesc payload ∧ t.xact x = some r ∧ r.org = .localOrg ∧
          ogsGtp1XactGetStage hdesc.type r.xid = .final ∧ r.step = 3 := by
  have hSound := sound_of_reachable hReach
  have hValid := valid_of_reachable hReach
  refine ⟨?_, ?_⟩
  · intro x r hLive
    have hr := hValid x r hLive
    exact ⟨hr.step_pos, hr.step_le⟩
  · intro op
    refine ⟨?_, ?_⟩
    · rintro ⟨index, hFault⟩
      by_cases hOther : ∀ x hdesc payload, op ≠ .updateTx1 x hdesc payload
      · exact absurd ⟨index, rfl⟩ (exec_inBounds hSound hValid hOther _ hFault)
      · push Not at hOther
        rcases hOther with ⟨x, hdesc, payload, rfl⟩
        rcases updateTx_error_iff.mp hFault with ⟨r, hLive, hTx⟩
        have hCase := (gtp1UpdateTx_outOfBounds (hValid x r hLive).step_le).mp ⟨index, hTx⟩
        exact ⟨x, hdesc, payload, r, rfl, hLive, hCase⟩
    · rintro ⟨x, hdesc, payload, r, rfl, hLive, hCase⟩
      rcases (gtp1UpdateTx_outOfBounds (hValid x r hLive).step_le).mpr hCase with ⟨index, hTx⟩
      exact ⟨index, updateTx_error_iff.mpr ⟨r, hLive, hTx⟩⟩

/- An SGSN Context Request that was answered and acknowledged is acknowledged a second time. -/
theorem second_acknowledge_out_of_bounds :
    ∃ t, (layer mainThread).Reachable t ∧ exec mainThread t (.updateTx1 1 ⟨52, 0⟩ []) =
        .error (.outOfBounds 3) := by
  have hRun : (layer mainThread).run (initial 0 1 2) [ .localCreate1 0 ⟨50, 0⟩ [], .commit 1 true,
    .receive1 0
      { version := 1
        s := true
        type := 51
        length := 4
        teid := 0
        sqn := ⟨1⟩ }, .updateTx1 1 ⟨52, 0⟩ [] ] = .ok _ := rfl
  exact ⟨_, (reachable_initial (by decide)).run hRun, rfl⟩

/- A commit after a create stays inside the history. -/
theorem history_access_commit :
    ∃ t, (layer mainThread).Reachable t ∧ (∃ r, t.xact 1 = some r ∧ r.step ≤ 3) ∧
      ¬ ∃ index, exec mainThread t (.commit 1 true) = .error (.outOfBounds index) := by
  have hRun : (layer mainThread).run (initial 0 1 2) [ .localCreate1 0 ⟨50, 0⟩ [] ] = .ok _ := rfl
  have hReach := (reachable_initial (by decide)).run hRun
  refine ⟨_, hReach, ⟨_, rfl, ?_⟩, ?_⟩
  · exact ((history_access hReach).1 1 _ rfl).2
  · rw [(history_access hReach).2]
    rintro ⟨x, hdesc, payload, r, hOp, -⟩
    cases hOp

---- Packets Behind Response Timers ----

/- Due callbacks have old ids, and armed records a packet. -/
structure ArmedStored (t : Thread) : Prop where
  due : ∀ y, t.Due y → y ≤ t.poolId
  stored : ∀ x r, t.xact x = some r → t.Armed x r → r.Stored

/- A record that did not change stays armed with a packet. -/
theorem ArmedStored.of_due {t t' : Thread} (hArmed : ArmedStored t) (hLive : t.xact x = some r)
    (hDue : t'.Due x → t.Due x) (hNow : t'.Armed x r) : r.Stored :=
  hArmed.stored x r hLive (hNow.imp_right hDue)

theorem Quiet.armedStored (hSound : Sound t.toStore) (hArmed : ArmedStored t)
    (hQuiet : Quiet t t') : ArmedStored t' := by
  cases hQuiet with
  | frame hStore hDue =>
    refine ⟨?_, ?_⟩
    · intro y hy
      exact (hArmed.due y (hDue y hy)).trans hStore.poolId
    · intro x r hLive hNow
      rw [hStore.xact] at hLive
      exact hArmed.of_due hLive (hDue x) hNow
  | @update y q q' hOld hStep hStore hDue hChange =>
    refine ⟨?_, ?_⟩
    · intro z hz
      rw [hStore]
      by_cases hEq : z = y
      · subst hEq
        exact hSound.bound hOld
      · exact hArmed.due z (hDue z hEq hz)
    · intro x r hLive hNow
      rw [hStore] at hLive
      by_cases hEq : x = y
      · subst hEq
        simp only [Store.setXact, update_self, Option.some.injEq] at hLive
        subst hLive
        rcases hChange hNow with ⟨hKept, hBefore⟩ | hStored
        · exact hKept.stored (hArmed.stored x q hOld hBefore)
        · exact hStored
      · simp only [Store.setXact, update_of_ne hEq] at hLive
        exact hArmed.of_due hLive (hDue x hEq) hNow
  | @delete y q hOld hStore hDue =>
    refine ⟨?_, ?_⟩
    · intro z hz
      rw [hStore]
      exact hArmed.due z (hDue z hz)
    · intro x r hLive hNow
      rw [hStore, unlinkXact_xact] at hLive
      by_cases hEq : x = y
      · subst hEq
        rw [update_self] at hLive
        cases hLive
      · rw [update_of_ne hEq] at hLive
        exact hArmed.of_due hLive (hDue x) hNow

theorem armedStored_of_reachable (hReach : (layer cfg).Reachable t) : ArmedStored t := by
  refine Faulty.System.ReachableBy.invariant (P := ArmedStored) ?_ ?_ hReach
  · rintro t ⟨counter, poolAvail, timerAvail, -, rfl⟩
    refine ⟨?_, ?_⟩
    · intro y hy
      cases hy
    · intro x r hLive
      cases hLive
  · intro t op t' hPrior hArmed _ hExec
    have hSound := sound_of_reachable hPrior
    cases exec_outcome hSound hExec with
    | quiet hRun =>
      exact (QuietRun.induct (fun _ _ hSound hArmed hQuiet =>
        hQuiet.armedStored hSound hArmed)
        hRun hSound hArmed).2
    | @created q _ _ _ _ hStopped _ hStore hExpired =>
      have hDue : ∀ y, t'.Due y → t.Due y := by
        intro y hy
        rw [Thread.Due, hExpired] at hy
        exact hy
      refine ⟨?_, ?_⟩
      · intro y hy
        rw [hStore]
        exact (hArmed.due y (hDue y hy)).trans (Nat.le_succ _)
      · intro x r hLive hNow
        rw [hStore, linkXact_xact] at hLive
        by_cases hEq : x = t.poolId + 1
        · -- A new record is not armed.
          subst hEq
          rw [update_self] at hLive
          cases hLive
          rcases hNow with hRunning | hy
          · change isRunning q.tmResponse = true at hRunning
            rw [hStopped] at hRunning
            cases hRunning
          · have hOld := hArmed.due _ (hDue _ hy)
            omega
        · rw [update_of_ne hEq] at hLive
          exact hArmed.of_due hLive (hDue x) hNow
    | failed _ hStore hExpired =>
      have hDue : ∀ y, t'.Due y → t.Due y := by
        intro y hy
        rw [Thread.Due, hExpired] at hy
        exact hy
      refine ⟨?_, ?_⟩
      · intro y hy
        exact (hArmed.due y (hDue y hy)).trans hStore.poolId
      · intro x r hLive hNow
        rw [hStore.xact] at hLive
        exact hArmed.of_due hLive (hDue x) hNow

/- With a packet in the last slot the callback returns. -/
theorem responseTimeout_returns (hStored : ∀ r, t.xact x = some r → r.Stored) :
    ∃ t', responseTimeout t x lag = .ok t' := by
  unfold responseTimeout
  split
  · exact ⟨t, rfl⟩
  · rename_i r hFind
    rcases hStored r (findByIdForTimer_some hFind) with ⟨last, hLast, hSome⟩
    rcases Option.isSome_iff_exists.mp hSome with ⟨pkbuf, hPkbuf⟩
    simp only [hLast, hPkbuf, bind, Except.bind]
    split
    · exact ⟨_, rfl⟩
    · split <;> exact ⟨_, rfl⟩

/-
  While the response timer of a transaction is running, the slot of its last step holds a packet,
  and so the callback of an expired response timer always returns.
-/
theorem response_timer_has_packet {cfg : Config} {t : Thread} (hReach : (layer cfg).Reachable t) :
    (∀ x r, t.xact x = some r → isRunning r.tmResponse = true → r.Stored) ∧
    ∀ x rest lag, t.expired = (.response, x) :: rest →
      ∃ t', responseTimeout { t with expired := rest } x lag = .ok t' := by
  have hArmed := armedStored_of_reachable hReach
  refine ⟨?_, ?_⟩
  · intro x r hLive hRunning
    exact hArmed.stored x r hLive (Or.inl hRunning)
  · intro x rest lag hExpired
    refine responseTimeout_returns ?_
    intro r hLive
    refine hArmed.stored x r hLive (Or.inr ?_)
    rw [Thread.Due, hExpired]
    exact List.mem_cons_self

/- A committed request waits with its packet, then retries. -/
theorem response_timer_has_packet_request :
    ∃ t t', (layer mainThread).Reachable t ∧ (∃ r, t.xact 1 = some r ∧
        isRunning r.tmResponse = true ∧ r.Stored) ∧
      exec mainThread t (.expire .response 1) = .ok t' ∧
      ∃ t'', exec mainThread t' (.fire none) = .ok t'' := by
  have hRun : (layer mainThread).run (initial 0 1 3)
    [ .localCreate2 0 ⟨32, 0⟩ [], .commit 1 true ] = .ok _ := rfl
  have hExpire : (layer mainThread).run (initial 0 1 3)
    [ .localCreate2 0 ⟨32, 0⟩ [], .commit 1 true, .expire .response 1 ] = .ok _ := rfl
  have hInit : (layer mainThread).Reachable (initial 0 1 3) := reachable_initial (by decide)
  refine ⟨_, _, hInit.run hRun, ⟨_, rfl, rfl, ?_⟩, rfl, ?_⟩
  · exact (response_timer_has_packet (hInit.run hRun)).1 1 _ rfl rfl
  · exact (response_timer_has_packet (hInit.run hExpire)).2 1 [] none rfl

end Pretty5gs.Gtp
