import Pretty5gs.Gtp.Create

/-
  What one operation of the GTP transaction layer can do.

  Every successful operation is a run of quiet changes, or it creates one transaction, or it is a
  local create that ran out of timers and overwrote a list head. The invariants of the layer are
  proved from these three cases and not from the code.

  Main results: `exec_outcome`, `sound_of_reachable`, `records_of_reachableBy`,
  `valid_of_reachable`.
-/

---- Outcomes ----

namespace Pretty5gs.Gtp

open Function Faulty

variable (cfg : Config) (t : Thread)

/- The identifier of the next GTPv1 create. -/
def gtp1NextXid : U32 :=
  (xactNextXid cfg.worker t.xactId
    ogsGtp1MinXactId ogsGtp1MaxXactId).1

/- The identifier of the next GTPv2 create. -/
def gtp2NextXid (hdesc : HeaderDesc) : U32 :=
  gtp2LocalXid hdesc
    (xactNextXid cfg.worker t.xactId
      ogsGtpMinXactId ogsGtpCmdXactId).1

/- The records that an operation may leave behind as new. -/
def Op.Creates (op : Op) (r : Xact) : Prop :=
  match op with
  | .localCreate1 n hdesc payload =>
      r.gtpVersion = .gtp1 ∧ r.org = .localOrg ∧
        r.xid = gtp1NextXid cfg t ∧ r.gnode = n ∧
        r.seq 0 =
          { type := hdesc.type
            pkbuf := some (buildGtp1 r.xid hdesc payload) }
  | .localCreate2 n hdesc payload =>
      r.gtpVersion = .gtp2 ∧ r.org = .localOrg ∧
        r.xid = gtp2NextXid cfg t hdesc ∧ r.gnode = n ∧
        r.seq 0 =
          { type := hdesc.type
            pkbuf := some (buildGtp2 r.xid hdesc payload) }
  | .receive1 n _ =>
      r.gtpVersion = .gtp1 ∧ r.org = .remoteOrg ∧
        r.gnode = n
  | .receive2 n _ =>
      r.gtpVersion = .gtp2 ∧ r.org = .remoteOrg ∧
        r.gnode = n
  | _ => False

/- A local create on the node gets an id but not its timers. -/
def Op.Fails (t : Thread) (op : Op) (n : Nat) : Prop :=
  match op with
  | .localCreate1 n' hdesc _ =>
      n' = n ∧ 0 < t.poolAvail ∧
        t.timerAvail < (gtp1LocalTimers hdesc).length
  | .localCreate2 n' _ _ => n' = n ∧ 0 < t.poolAvail ∧ t.timerAvail < 3
  | _ => False

/- What a successful operation has done. -/
inductive Outcome (cfg : Config) (t : Thread) (op : Op) (t' : Thread) : Prop where
  | quiet (hRun : QuietRun t t')
  | created {r : Xact} (hCreates : op.Creates cfg t r) (hPool : r.org = .localOrg → 0 < t.poolAvail)
      (hValid : r.Valid)
      (hStep : r.step = 1)
      (hStopped : isRunning r.tmResponse = false)
      (hFree : r.org = .remoteOrg → (t.gnode r.gnode).xactHash r.key = none)
      (hStore : t'.toStore = linkXact t.toStore.alloc (t.poolId + 1) r)
      (hExpired : t'.expired = t.expired)
  | failed {n : Nat} (hFails : op.Fails t n) (hStore :
        Clobbered t.toStore t'.toStore (n, .localOrg))
      (hExpired : t'.expired = t.expired)

variable {cfg : Config} {op : Op} {t t' : Thread}

/- A reframed store with the same due callbacks is quiet. -/
theorem outcome_reframed (hStore : Reframed t.toStore t'.toStore)
    (hExpired : t'.expired = t.expired) : Outcome cfg t op t' := by
  refine .quiet (.single (.frame hStore ?_))
  intro y hDue
  rw [Thread.Due, hExpired] at hDue
  exact hDue

---- Creates ----

variable {n : Nat} {res : Option Nat} {version : Version}

/- A local create with its identifier taken and chosen. -/
theorem localCreate_outcome (hOpens : TxOpens tx version type build)
    (hSound : Sound t.toStore) (hExec : (setupXact cfg u (t.poolId + 1)
          (Xact.calloc version .localOrg xid n) kinds >>= firstTx tx) = .ok (res, t'))
    (hAlloc : u.toStore = t.toStore.alloc) (hExpired : u.expired = t.expired)
    (hPool : 0 < t.poolAvail) (hFails : u.timerAvail < kinds.length → op.Fails t n) (hCreates : ∀ r,
        r.gtpVersion = version ∧ r.org = .localOrg ∧ r.xid = xid ∧ r.gnode = n → r.seq 0 =
              { type := type, pkbuf := some (build xid) } → op.Creates cfg t r) :
    Outcome cfg t op t' := by
  rcases localCreate_spec hOpens hSound hExec hAlloc with ⟨hSameExpired, ⟨-, hFrame⟩ |
      ⟨-, hLacking, hClobbered⟩ | ⟨-, r, hValid, hOne, hKeyed, hFirst, hStopped, hStore⟩⟩
  · exact outcome_reframed hFrame (hSameExpired.trans hExpired)
  · exact .failed (hFails hLacking) hClobbered (hSameExpired.trans hExpired)
  · refine .created (hCreates r hKeyed hFirst) (fun _ => hPool) hValid hOne hStopped ?_ hStore
      (hSameExpired.trans hExpired)
    intro hRemote
    rw [hKeyed.2.1] at hRemote
    cases hRemote

theorem localCreate1_outcome (hSound : Sound t.toStore)
    (hExec : ogsGtp1XactLocalCreate cfg t n hdesc payload = .ok (res, t')) :
    Outcome cfg t (.localCreate1 n hdesc payload) t' := by
  unfold ogsGtp1XactLocalCreate at hExec
  cases hCalloc : ogsPoolIdCalloc t with
  | none =>
    simp only [hCalloc] at hExec
    cases hExec
    exact .quiet .refl
  | some pair =>
    rcases pair with ⟨x, u⟩
    simp only [hCalloc] at hExec
    rcases ogsPoolIdCalloc_some hCalloc with ⟨rfl, hAlloc, hExpired, hCounter, hTimers, hPool⟩
    apply localCreate_outcome gtp1_txOpens hSound hExec hAlloc hExpired hPool
    · intro hLacking
      refine ⟨rfl, hPool, ?_⟩
      rw [← hTimers]
      exact hLacking
    · rintro r ⟨hVersion, hOrg, hXid, hNode⟩ hFirst
      refine ⟨hVersion, hOrg, ?_, hNode, ?_⟩
      · rw [hXid, hCounter, gtp1NextXid]
      · rw [hFirst, hXid]

theorem localCreate2_outcome (hSound : Sound t.toStore)
    (hExec : ogsGtpXactLocalCreate cfg t n hdesc payload = .ok (res, t')) :
    Outcome cfg t (.localCreate2 n hdesc payload) t' := by
  unfold ogsGtpXactLocalCreate at hExec
  cases hCalloc : ogsPoolIdCalloc t with
  | none =>
    simp only [hCalloc] at hExec
    cases hExec
    exact .quiet .refl
  | some pair =>
    rcases pair with ⟨x, u⟩
    simp only [hCalloc] at hExec
    rcases ogsPoolIdCalloc_some hCalloc with ⟨rfl, hAlloc, hExpired, hCounter, hTimers, hPool⟩
    apply localCreate_outcome gtp2_txOpens hSound hExec hAlloc hExpired hPool
    · intro hLacking
      refine ⟨rfl, hPool, ?_⟩
      rw [← hTimers]
      exact hLacking
    · rintro r ⟨hVersion, hOrg, hXid, hNode⟩ hFirst
      refine ⟨hVersion, hOrg, ?_, hNode, ?_⟩
      · rw [hXid, hCounter, gtp2NextXid]
      · rw [hFirst, hXid]

---- Receives ----

/- A lookup that fails leaves the slot of the key free. -/
theorem Sound.slot_of_findXid_none (hSound : Sound t.toStore)
    (hNone : findXid t n org version xid = none) :
    xactIndexGet t.toStore n org version xid = none := by
  cases hSlot : xactIndexGet t.toStore n org version xid with
  | none => rfl
  | some x =>
    rw [hSound.findXid_of_slot hSlot] at hNone
    cases hNone

/- The transaction of a message that was not found. -/
theorem receiveNew_outcome (hSound : Sound t.toStore)
    (hCreates : ∀ r : Xact, r.gtpVersion = version → r.org = .remoteOrg → r.gnode = n →
        op.Creates cfg t r)
    (hSlot : getStage version type xid = .initial →
        xactIndexGet t.toStore n .remoteOrg version xid = none)
    (hExec : receiveNew cfg t n version xid type = .ok (rv, res, t')) : Outcome cfg t op t' := by
  rcases receiveNew_spec hSound hExec with ⟨hExpired, hFrame | ⟨hInitial, r, hValid, hOne,
      ⟨hVersion, hOrg, hXid, hNode⟩, hStopped, hStore⟩⟩
  · exact outcome_reframed hFrame hExpired
  · refine .created (hCreates r hVersion hOrg hNode)
      (fun hLocal => ?_) hValid hOne hStopped ?_ hStore hExpired
    · rw [hOrg] at hLocal
      cases hLocal
    · intro _
      rw [Xact.key, hNode, hOrg, hVersion, hXid]
      exact hSlot hInitial

theorem receive1_outcome (hSound : Sound t.toStore) (hIdle : t.expired = [])
    (hExec : ogsGtp1XactReceive cfg t n h = .ok (rv, res, t')) :
    Outcome cfg t (.receive1 n h) t' := by
  unfold ogsGtp1XactReceive at hExec
  dsimp only at hExec
  split at hExec
  · cases hExec
    exact .quiet .refl
  · split at hExec
    · cases hExec
      exact .quiet .refl
    · rename_i org hOrg
      split at hExec
      · exact .quiet (.single (receiveRx_found hIdle hExec))
      · rename_i hNone
        split at hExec
        · cases hExec
          exact .quiet .refl
        · refine receiveNew_outcome hSound (fun r hVersion hRemote hNode =>
          ⟨hVersion, hRemote, hNode⟩) ?_ hExec
          intro hInitial
          -- An initial message selects the remote list.
          simp only [getStage] at hInitial
          rw [hInitial] at hOrg
          cases hOrg
          exact hSound.slot_of_findXid_none hNone

theorem receive2_outcome (hSound : Sound t.toStore) (hIdle : t.expired = [])
    (hExec : ogsGtpXactReceive cfg t n h = .ok (rv, res, t')) :
    Outcome cfg t (.receive2 n h) t' := by
  unfold ogsGtpXactReceive at hExec
  dsimp only at hExec
  split at hExec
  · cases hExec
    exact .quiet .refl
  · rename_i org hOrg
    split at hExec
    · split at hExec
      · cases hExec
        exact .quiet .refl
      · exact .quiet (.single (receiveRx_found hIdle hExec))
    · split at hExec
      · exact .quiet (.single (receiveRx_found hIdle hExec))
      · rename_i hNone
        refine receiveNew_outcome hSound (fun r hVersion hRemote hNode =>
          ⟨hVersion, hRemote, hNode⟩) ?_ hExec
        intro hInitial
        simp only [getStage] at hInitial
        rw [hInitial] at hOrg
        cases hOrg
        exact hSound.slot_of_findXid_none hNone

---- Every Operation ----

/- Every successful operation has one of the outcomes. -/
theorem exec_outcome (hSound : Sound t.toStore) (hExec : exec cfg t op = .ok t') :
    Outcome cfg t op t' := by
  cases op with
  | localCreate1 n hdesc payload =>
    rcases map_eq_ok hExec with ⟨⟨res, u⟩, hRun, rfl⟩
    exact localCreate1_outcome hSound hRun
  | localCreate2 n hdesc payload =>
    rcases map_eq_ok hExec with ⟨⟨res, u⟩, hRun, rfl⟩
    exact localCreate2_outcome hSound hRun
  | updateTx1 x hdesc payload =>
    rcases map_eq_ok hExec with ⟨⟨rv, u⟩, hRun, rfl⟩
    exact .quiet (.single (updateTx1_quiet hRun))
  | updateTx2 x hdesc payload =>
    rcases map_eq_ok hExec with ⟨⟨rv, u⟩, hRun, rfl⟩
    exact .quiet (.single (updateTx2_quiet hRun))
  | receive1 n h =>
    simp only [exec] at hExec
    split at hExec
    · cases hExec
      exact .quiet .refl
    · rename_i hBusy
      have hIdle : t.expired = [] := by
        simp only [Thread.busy, decide_not, Bool.not_eq_true', decide_eq_false_iff_not,
          not_not] at hBusy
        exact hBusy.1
      rcases map_eq_ok hExec with ⟨⟨rv, res, u⟩, hRun, rfl⟩
      exact receive1_outcome hSound hIdle hRun
  | receive2 n h =>
    simp only [exec] at hExec
    split at hExec
    · cases hExec
      exact .quiet .refl
    · rename_i hBusy
      have hIdle : t.expired = [] := by
        simp only [Thread.busy, decide_not, Bool.not_eq_true', decide_eq_false_iff_not,
          not_not] at hBusy
        exact hBusy.1
      rcases map_eq_ok hExec with ⟨⟨rv, res, u⟩, hRun, rfl⟩
      exact receive2_outcome hSound hIdle hRun
  | commit x sendOk =>
    rcases map_eq_ok hExec with ⟨⟨rv, u⟩, hRun, rfl⟩
    exact .quiet (commit_quiet hRun)
  | associate x y => exact .quiet (associate_quiet hExec)
  | deassociate x y => exact .quiet (deassociate_quiet hExec).1
  | deleteAll n => exact .quiet (deleteAll_quiet hExec)
  | startPeer x => exact .quiet (.single (startPeer_quiet hExec))
  | expire kind x =>
    simp only [exec] at hExec
    split at hExec
    · cases hExec
      exact .quiet (.single expireTimer_quiet)
    · cases hExec
      exact .quiet .refl
  | fire lag =>
    simp only [exec] at hExec
    split at hExec
    · exact .quiet (fireTimer_quiet hExec)
    · cases hExec
      exact .quiet .refl
  | callbackReturn => exact .quiet (callbackReturn_quiet hExec)
  | timers avail =>
    cases hExec
    exact .quiet (.single (quiet_same rfl rfl))

---- Soundness Of Runs ----

/- What every quiet change keeps, a run of them keeps. -/
theorem QuietRun.induct {P : Thread → Prop}
    (hStep : ∀ t t', Sound t.toStore → P t → Quiet t t' → P t') (hRun : QuietRun t t')
    (hSound : Sound t.toStore) (hP : P t) : Sound t'.toStore ∧ P t' := by
  induction hRun with
  | refl => exact ⟨hSound, hP⟩
  | tail _ hQuiet ih => exact ⟨hQuiet.sound ih.1, hStep _ _ ih.1 ih.2 hQuiet⟩

theorem Outcome.sound (hOutcome : Outcome cfg t op t') (hSound : Sound t.toStore) :
    Sound t'.toStore := by
  cases hOutcome with
  | quiet hRun =>
    have hBoth := QuietRun.induct (P := fun _ => True)
      (fun _ _ _ _ _ => trivial) hRun hSound trivial
    exact hBoth.1
  | created _ _ _ _ _ hFree hStore _ =>
    rw [hStore]
    exact hSound.link hFree
  | failed _ hStore _ => exact hSound.clobbered hStore

/- Every reachable state is sound. -/
theorem sound_of_reachable (hReach : (layer cfg).Reachable t) : Sound t.toStore := by
  refine System.Reachable.invariant (P := fun t => Sound t.toStore) ?_ ?_ hReach
  · rintro t ⟨counter, poolAvail, timerAvail, -, rfl⟩
    exact sound_empty
  · intro t op t' hSound hExec
    exact (exec_outcome hSound hExec).sound hSound

---- Invariants Of The Records ----

/- A property of every record in use. -/
def Thread.All (t : Thread) (P : Xact → Prop) : Prop := ∀ x r, t.xact x = some r → P r

theorem Quiet.all (hStep : ∀ r r', P r → r.Step r' → P r') (hAll : t.All P) (hQuiet : Quiet t t') :
    t'.All P := by
  intro x r hLive
  cases hQuiet with
  | frame hStore _ =>
    rw [hStore.xact] at hLive
    exact hAll x r hLive
  | @update y q q' hOld hChange hStore _ _ =>
    rw [hStore] at hLive
    by_cases hEq : x = y
    · subst hEq
      simp only [Store.setXact, update_self, Option.some.injEq] at hLive
      rw [← hLive]
      exact hStep q q' (hAll x q hOld) hChange
    · simp only [Store.setXact, update_of_ne hEq] at hLive
      exact hAll x r hLive
  | @delete y q hOld hStore _ =>
    rw [hStore, unlinkXact_xact] at hLive
    by_cases hEq : x = y
    · subst hEq
      rw [update_self] at hLive
      cases hLive
    · rw [update_of_ne hEq] at hLive
      exact hAll x r hLive

/-
  What every new record has and every step of a record keeps holds of all records in every reachable
  state. New records are valid.
-/
theorem records_of_reachableBy (hStep : ∀ r r', P r → r.Step r' → P r')
    (hNew : ∀ t op r, Allowed t op → op.Creates cfg t r → (r.org = .localOrg → 0 < t.poolAvail) →
        r.Valid → P r.keyed) (hReach : (layer cfg).ReachableBy Allowed t) : t.All P := by
  refine System.ReachableBy.invariant (P := fun t => t.All P) ?_ ?_ hReach
  · rintro t ⟨counter, poolAvail, timerAvail, -, rfl⟩
    intro x r hLive
    cases hLive
  · intro t op t' hPrior hAll hAllowed hExec
    have hSound := sound_of_reachable hPrior.reachable
    cases exec_outcome hSound hExec with
    | quiet hRun =>
      exact (QuietRun.induct (fun _ _ _ hAll hQuiet => hQuiet.all hStep hAll) hRun hSound hAll).2
    | @created q hCreates hPool hValid _ _ _ hStore _ =>
      intro x r hLive
      rw [hStore, linkXact_xact] at hLive
      by_cases hEq : x = t.poolId + 1
      · subst hEq
        rw [update_self] at hLive
        cases hLive
        exact hNew t op q hAllowed hCreates hPool hValid
      · rw [update_of_ne hEq] at hLive
        exact hAll x r hLive
    | failed _ hStore _ =>
      intro x r hLive
      rw [hStore.xact] at hLive
      exact hAll x r hLive

/- Every record of a reachable state is valid. -/
theorem valid_of_reachable (hReach : (layer cfg).Reachable t) : t.All Xact.Valid := by
  refine records_of_reachableBy ?_ ?_ hReach
  · intro r r' hValid hStep
    exact hValid.step hStep
  · intro _ _ r _ _ _ hValid
    exact ⟨hValid.step_pos, hValid.step_le, hValid.later, hValid.opened, hValid.sqn⟩

end Pretty5gs.Gtp
