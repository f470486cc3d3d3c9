import Mathlib.Logic.Relation
import Pretty5gs.Gtp.Layer
import Pretty5gs.Gtp.Sound

/-
  The changes that operations of the GTP transaction layer make without creating a transaction:
  rewriting a record, deleting a transaction, or using up ids.

  Transmit, commit and the timer callbacks are sequences of such changes.

  Main results: `delete_quiet`, `updateTx_quiet`, `commit_quiet`, `fireTimer_quiet`.
-/

---- Quiet Changes ----

namespace Pretty5gs.Gtp

open Intrusive List Faulty

/- The response callback of a transaction is due. -/
def Thread.Due (t : Thread) (x : Nat) : Prop := (TimerKind.response, x) ∈ t.expired

/- The response timer is running or its callback is due. -/
def Thread.Armed (t : Thread) (x : Nat) (r : Xact) : Prop := isRunning r.tmResponse = true ∨ t.Due x

/- A change that creates nothing and overwrites no head. -/
inductive Quiet (t t' : Thread) : Prop where
  | frame (hStore : Reframed t.toStore t'.toStore) (hDue : ∀ y, t'.Due y → t.Due y)
  | update {x : Nat} {r r' : Xact} (hLive : t.xact x = some r) (hStep : r.Step r')
      (hStore : t'.toStore = t.toStore.setXact x r')
      (hDue : ∀ y, y ≠ x → t'.Due y → t.Due y)
      (hArmed : t'.Armed x r' → (r.Kept r' ∧ t.Armed x r) ∨ r'.Stored)
  | delete {x : Nat} {r : Xact} (hLive : t.xact x = some r)
      (hStore : t'.toStore = unlinkXact t.toStore x r)
      (hDue : ∀ y, t'.Due y → t.Due y)

/- A sequence of quiet changes. -/
abbrev QuietRun := Relation.ReflTransGen Quiet

variable {t t' : Thread}

open Thread

/- Nothing that the lookups read has changed. -/
theorem quiet_same (hStore : t'.toStore = t.toStore) (hExpired : t'.expired = t.expired) :
    Quiet t t' := by
  refine .frame ?_ ?_
  · rw [hStore]
    exact .refl
  · intro y hy
    simpa only [Due, hExpired] using hy

variable {r : Xact} {x : Nat}

/- A record changed apart from its history and response timer. -/
theorem quiet_kept (r' : Xact) (hLive : t.xact x = some r) (hKept : r.Kept r')
    (hTimer : r'.tmResponse = r.tmResponse) (hStore : t'.toStore = t.toStore.setXact x r')
    (hExpired : ∀ y, t'.Due y → t.Due y) : Quiet t t' := by
  refine .update hLive (.kept hKept) hStore (fun y _ hy => hExpired y hy) ?_
  intro hArmed
  refine Or.inl ⟨hKept, ?_⟩
  rcases hArmed with hRunning | hDue
  · exact Or.inl (by rw [← hTimer]; exact hRunning)
  · exact Or.inr (hExpired x hDue)

/- Soundness survives quiet changes. -/
theorem Quiet.sound (hQuiet : Quiet t t') (hSound : Sound t.toStore) : Sound t'.toStore := by
  cases hQuiet with
  | frame hStore _ => exact hSound.reframed hStore
  | update hLive hStep hStore _ _ =>
    rw [hStore]
    exact hSound.setXact hLive hStep.same
  | delete hLive hStore _ =>
    rw [hStore]
    exact hSound.unlink hLive

---- Association And Deletion ----

theorem setAssoc_quiet : Quiet t (t.setAssoc x assoc) := by
  unfold setAssoc
  cases hLive : t.xact x with
  | none => exact quiet_same rfl rfl
  | some r =>
    exact quiet_kept { r with assocXactId := assoc } hLive
      ⟨⟨rfl, rfl, rfl, rfl, rfl⟩, rfl, rfl, rfl⟩ rfl rfl (fun _ hy => hy)

/- Setting an association keeps the record's fixed fields. -/
theorem setAssoc_xact (hLive : t.xact x = some r) :
    ∃ r', (t.setAssoc y assoc).xact x = some r' ∧ r.Same r' := by
  unfold setAssoc
  by_cases hEq : x = y
  · subst hEq
    rw [hLive]
    exact ⟨{ r with assocXactId := assoc }, by simp [setXact, Store.setXact],
      ⟨rfl, rfl, rfl, rfl, rfl⟩⟩
  · refine ⟨r, ?_, .refl⟩
    cases t.xact y with
    | none => exact hLive
    | some q =>
      simp only [setXact, Store.setXact, Function.update_of_ne hEq]
      exact hLive

theorem associate_quiet (hExec : ogsGtpXactAssociate t x y = .ok t') : QuietRun t t' := by
  unfold ogsGtpXactAssociate at hExec
  split at hExec
  · split at hExec
    · cases hExec
    · cases hExec
      exact (Relation.ReflTransGen.single setAssoc_quiet).tail setAssoc_quiet
  · cases hExec

theorem deassociate_quiet (hExec : ogsGtpXactDeassociate t x y = .ok t') :
    QuietRun t t' ∧ ∀ {z r}, t.xact z = some r → ∃ r', t'.xact z = some r' ∧ r.Same r' := by
  unfold ogsGtpXactDeassociate at hExec
  split at hExec
  · split at hExec
    · cases hExec
    · cases hExec
      refine ⟨(Relation.ReflTransGen.single setAssoc_quiet).tail setAssoc_quiet, ?_⟩
      intro z r hLive
      rcases setAssoc_xact hLive with ⟨q, hq, hSame⟩
      rcases setAssoc_xact hq with ⟨q', hq', hSame'⟩
      exact ⟨q', hq', ⟨hSame'.gtpVersion.trans hSame.gtpVersion, hSame'.org.trans hSame.org,
        hSame'.xid.trans hSame.xid, hSame'.hashKey.trans hSame.hashKey,
        hSame'.gnode.trans hSame.gnode⟩⟩
  · cases hExec

/- Deleting a transaction. -/
theorem delete_quiet (hExec : ogsGtpXactDelete t x = .ok t') : QuietRun t t' := by
  unfold ogsGtpXactDelete at hExec
  cases hLive : t.xact x with
  | none =>
    rw [hLive] at hExec
    cases hExec
  | some r =>
    rw [hLive] at hExec
    rcases bind_eq_ok.mp hExec with ⟨u, hUnbind, hResult⟩
    cases hResult
    have hPrior : QuietRun t u ∧ ∃ r', u.xact x = some r' ∧ r.Same r' := by
      unfold releaseAssoc at hUnbind
      split at hUnbind
      · rcases deassociate_quiet hUnbind with ⟨hRun, hKeep⟩
        exact ⟨hRun, hKeep hLive⟩
      · cases hUnbind
        exact ⟨.refl, r, hLive, .refl⟩
    rcases hPrior with ⟨hRun, r', hLive', hSame⟩
    refine hRun.tail (.delete hLive' ?_ (fun _ hy => hy))
    exact (unlinkXact_congr hSame).symm

/- A transaction without an association is just unlinked. -/
theorem delete_unassociated (hLive : t.xact x = some r)
    (hAssoc : r.assocXactId = none) : ogsGtpXactDelete t x =
      .ok { t with
        toStore := unlinkXact t.toStore x r
        poolAvail := t.poolAvail + 1
        timerAvail := t.timerAvail + r.timers } := by
  have hNone : t.findAssoc r = none := by simp [findAssoc, hAssoc]
  simp only [ogsGtpXactDelete, releaseAssoc, hLive, hNone]
  rfl

theorem deleteAllFrom_quiet (hExec : deleteAllFrom t fuel node = .ok t') : QuietRun t t' := by
  induction fuel generalizing t node with
  | zero =>
    cases hExec
    exact .refl
  | succ fuel ih =>
    cases node with
    | none =>
      cases hExec
      exact .refl
    | some x =>
      rcases bind_eq_ok.mp hExec with ⟨u, hDelete, hRest⟩
      exact (delete_quiet hDelete).trans (ih hRest)

theorem deleteAll_quiet (hExec : ogsGtpXactDeleteAll t n = .ok t') : QuietRun t t' := by
  rcases bind_eq_ok.mp hExec with ⟨u, hLocal, hRemote⟩
  exact (deleteAllFrom_quiet hLocal).trans (deleteAllFrom_quiet hRemote)

---- Transmit And Commit ----

variable {rv : Rv}

/- A transmit that leaves the record alone or stores. -/
theorem updateTx_quiet
    (hTx : ∀ {r rv r'}, tx r = .ok (rv, r') → r' = r ∨ ∃ type pkbuf, r.Sent r' type pkbuf ∧
          (r'.sqn = r.sqn ∨ r'.sqn = ogsGtp2XidToSqn r.xid))
    (hExec : updateTx t x tx = .ok (rv, t')) : Quiet t t' := by
  unfold updateTx at hExec
  cases hLive : t.xact x with
  | none =>
      rw [hLive] at hExec
      cases hExec
  | some r =>
      rw [hLive] at hExec
      rcases bind_eq_ok.mp hExec with ⟨⟨rv', r'⟩, hStep, hResult⟩
      cases hResult
      rcases hTx hStep with rfl | ⟨type, pkbuf, hSent, hSqn⟩
      · exact quiet_kept r' hLive .refl rfl rfl (fun _ hy => hy)
      · exact .update hLive (.sent type pkbuf hSent hSqn) rfl
          (fun _ _ hy => hy) (fun _ => Or.inr hSent.stored)

theorem updateTx1_quiet
    (hExec : updateTx t x (fun r => ogsGtp1XactUpdateTx r hdesc payload) = .ok (rv, t')) :
    Quiet t t' := by
  refine updateTx_quiet ?_ hExec
  intro r rv r' hTx
  rcases ogsGtp1XactUpdateTx_ok hTx with ⟨-, hEq⟩ | ⟨-, -, hSent, hSqn⟩
  · exact Or.inl hEq
  · exact Or.inr ⟨_, _, hSent, Or.inl hSqn⟩

theorem updateTx2_quiet
    (hExec : updateTx t x (fun r => ogsGtpXactUpdateTx r hdesc payload) = .ok (rv, t')) :
    Quiet t t' := by
  refine updateTx_quiet ?_ hExec
  intro r rv r' hTx
  rcases ogsGtpXactUpdateTx_ok hTx with ⟨-, hEq⟩ | ⟨-, -, hSent, hSqn⟩
  · exact Or.inl hEq
  · exact Or.inr ⟨_, _, hSent, Or.inr hSqn⟩

theorem commit_quiet (hExec : ogsGtpXactCommit t x sendOk = .ok (rv, t')) : QuietRun t t' := by
  unfold ogsGtpXactCommit at hExec
  cases hLive : t.xact x with
  | none =>
    rw [hLive] at hExec
    cases hExec
  | some r =>
    rw [hLive] at hExec
    rcases bind_eq_ok.mp hExec with ⟨action, hAction, hRest⟩
    cases action with
    | delete code =>
      rcases bind_eq_ok.mp hRest with ⟨u, hDelete, hResult⟩
      cases hResult
      exact delete_quiet hDelete
    | keep =>
      cases hRest
      exact .refl
    | send r' pkbuf =>
      rcases Xact.commitAction_send hAction with ⟨hKept, hStored⟩
      have hSend : Quiet t ((t.setXact x r').sendto r'.gnode [pkbuf]) :=
        .update hLive (.kept hKept) rfl (fun _ _ hy => hy) (fun _ => Or.inr hStored)
      dsimp only at hRest
      split at hRest
      · cases hRest
        exact .single hSend
      · rcases bind_eq_ok.mp hRest with ⟨u, hDelete, hResult⟩
        cases hResult
        exact .head hSend (delete_quiet hDelete)

---- Timers ----

/- A timer callback works on a transaction in use. -/
theorem findByIdForTimer_some (hFind : ogsGtpXactFindByIdForTimer t x = some r) :
    t.xact x = some r :=
  (Option.filter_eq_some_iff.mp hFind).1

theorem expireTimer_quiet : Quiet t (expireTimer t kind x) := by
  unfold expireTimer
  cases hLive : t.xact x with
  | none => exact quiet_same rfl rfl
  | some r =>
    dsimp only
    split
    · rename_i hRunning
      have hKept : r.Kept (r.stopTimer kind) := by
        cases kind <;> exact ⟨⟨rfl, rfl, rfl, rfl, rfl⟩, rfl, rfl, rfl⟩
      refine .update hLive (.kept hKept) rfl ?_ ?_
      · intro y hNe hDue
        simp only [Due, mem_append, mem_singleton, Prod.mk.injEq] at hDue
        rcases hDue with hOld | ⟨-, hEq⟩
        · exact hOld
        · exact absurd hEq hNe
      · intro hArmed
        refine Or.inl ⟨hKept, ?_⟩
        cases kind with
        | response => exact Or.inl hRunning
        | holding => simpa [Armed, Due, Xact.stopTimer] using hArmed
        | peer => simpa [Armed, Due, Xact.stopTimer] using hArmed
    · exact quiet_same rfl rfl

/-
  The response callback is due when it is called, so the record it leaves behind was armed before.
-/
theorem responseTimeout_quiet (hExpired : t.expired = (.response, x) :: rest) (hExec :
      responseTimeout { t with expired := rest } x lag = .ok t') : Quiet t t' := by
  have hShrink : ∀ {u : Thread}, u.expired = rest → ∀ y, u.Due y → t.Due y := by
    intro u hRest y hDue
    rw [Due, hRest] at hDue
    rw [Due, hExpired]
    exact mem_cons_of_mem _ hDue
  have hDue : t.Due x := by
    rw [Due, hExpired]
    exact mem_cons_self
  unfold responseTimeout at hExec
  split at hExec
  · cases hExec
    exact .frame .refl (hShrink rfl)
  · rename_i r hFind
    have hLive : t.xact x = some r := findByIdForTimer_some hFind
    have hUpdate : ∀ {r' : Xact} {u : Thread}, u.toStore = t.toStore.setXact x r' →
      u.expired = rest → r.Kept r' → Quiet t u := by
      intro r' u hStore hRest hKept
      exact .update hLive (.kept hKept) hStore (fun y _ hy => hShrink hRest y hy)
        (fun _ => Or.inl ⟨hKept, Or.inr hDue⟩)
    rcases bind_eq_ok.mp hExec with ⟨last, -, hRest⟩
    split at hRest
    · rename_i r' hDefer
      cases hRest
      exact hUpdate rfl rfl (xactResponseLagDefer_some hDefer)
    · dsimp only at hRest
      split at hRest
      · split at hRest
        · cases hRest
        · cases hRest
          exact hUpdate rfl rfl ⟨⟨rfl, rfl, rfl, rfl, rfl⟩, rfl, rfl, rfl⟩
      · cases hRest
        exact hUpdate rfl rfl ⟨⟨rfl, rfl, rfl, rfl, rfl⟩, rfl, rfl, rfl⟩

theorem holdingTimeout_quiet (hExec : holdingTimeout t x = .ok t') : QuietRun t t' := by
  unfold holdingTimeout at hExec
  split at hExec
  · cases hExec
    exact .refl
  · rename_i r hFind
    have hLive := findByIdForTimer_some hFind
    have hUpdate : ∀ {r' : Xact}, r.Kept r' → r'.tmResponse = r.tmResponse →
      Quiet t (t.setXact x r') := by
      intro r' hKept hTimer
      exact quiet_kept r' hLive hKept hTimer rfl (fun _ hy => hy)
    rcases bind_eq_ok.mp hExec with ⟨last, -, hRest⟩
    dsimp only at hRest
    split at hRest
    · cases hRest
      exact .single (hUpdate ⟨⟨rfl, rfl, rfl, rfl, rfl⟩, rfl, rfl, rfl⟩ rfl)
    · refine .trans (.single ?_) (delete_quiet hRest)
      exact hUpdate ⟨⟨rfl, rfl, rfl, rfl, rfl⟩, rfl, rfl, rfl⟩ rfl

theorem peerTimeout_eq (hExec : peerTimeout t x = .ok t') : t' = t := by
  unfold peerTimeout at hExec
  split at hExec
  · cases hExec
    rfl
  · rcases bind_eq_ok.mp hExec with ⟨last, -, hRest⟩
    cases hRest
    rfl

theorem fireTimer_quiet (hExec : fireTimer t lag = .ok t') : QuietRun t t' := by
  unfold fireTimer at hExec
  split at hExec
  · cases hExec
    exact .refl
  · rename_i kind x rest hExpired
    have hPop : Quiet t { t with expired := rest } := by
      refine .frame .refl ?_
      intro y hDue
      rw [Due, hExpired]
      exact mem_cons_of_mem _ hDue
    cases kind with
    | response => exact .single (responseTimeout_quiet hExpired hExec)
    | holding => exact .head hPop (holdingTimeout_quiet hExec)
    | peer =>
      rw [peerTimeout_eq hExec]
      exact .single hPop

theorem callbackReturn_quiet (hExec : callbackReturn t = .ok t') : QuietRun t t' := by
  unfold callbackReturn at hExec
  split at hExec
  · cases hExec
    exact .refl
  · refine .trans (.single ?_) (delete_quiet hExec)
    exact quiet_same rfl rfl

theorem startPeer_quiet (hExec : startPeer t x = .ok t') : Quiet t t' := by
  unfold startPeer at hExec
  cases hLive : t.xact x with
  | none =>
    rw [hLive] at hExec
    cases hExec
  | some r =>
    rw [hLive] at hExec
    cases hExec
    exact quiet_kept { r with tmPeer := ogsTimerStart r.tmPeer } hLive
      ⟨⟨rfl, rfl, rfl, rfl, rfl⟩, rfl, rfl, rfl⟩ rfl rfl (fun _ hy => hy)

end Pretty5gs.Gtp
