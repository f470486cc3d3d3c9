import Pretty5gs.Gtp.Outcome
import Pretty5gs.Pfcp.Outcome

/-
  A create that fails because a timer is missing.

  The transaction has been taken from the pool but is not linked yet, and the failing path calls the
  general delete routine on it. Removing a zeroed list node overwrites the head of the list with the
  null pair, and the GTP counter goes down by one.

  Main results: `failed_create_keeps_node`.
-/

---- GTP ----

namespace Pretty5gs

open Intrusive List Function Faulty

namespace Gtp

/- The three functions that create a transaction. -/
inductive Create where
  | localCreate1 (hdesc : HeaderDesc) (payload : List UInt8)
  | localCreate2 (hdesc : HeaderDesc) (payload : List UInt8)
  | remoteCreate (version : Version) (xid : U32)

namespace Create

def exec (c : Create) (cfg : Config) (t : Thread) (n : Nat) : Except Fault (Option Nat × Thread) :=
  match c with
  | localCreate1 hdesc payload => ogsGtp1XactLocalCreate cfg t n hdesc payload
  | localCreate2 hdesc payload => ogsGtpXactLocalCreate cfg t n hdesc payload
  | remoteCreate version xid => ogsGtpXactRemoteCreate cfg t n version xid

def org (c : Create) : Originator :=
  match c with
  | localCreate1 _ _ => .localOrg
  | localCreate2 _ _ => .localOrg
  | remoteCreate _ _ => .remoteOrg

/- The timers that a create allocates. -/
def timers (c : Create) : List TimerKind :=
  match c with
  | localCreate1 hdesc _ => gtp1LocalTimers hdesc
  | localCreate2 _ _ => [.response, .holding, .peer]
  | remoteCreate _ _ => [.response, .holding, .peer]

/- There is a transaction, but not every timer. -/
def LacksTimer (c : Create) (t : Thread) : Prop := 0 < t.poolAvail ∧ t.timerAvail < c.timers.length

end Create

/- The slots of a node and the links of the transactions in use are as they were. -/
structure NodeKept (s s' : Store) (n : Nat) : Prop where
  gnode : s'.gnode n = s.gnode n
  lnode : ∀ x r, s.xact x = some r → s'.lnode x = s.lnode x

/- A counter went down, so the node's slots differ. -/
theorem Clobbered.not_nodeKept (hClobbered : Clobbered s s' (n, org)) : ¬ NodeKept s s' n := by
  intro hKept
  have hCount := hClobbered.count n org
  rw [hKept.gnode] at hCount
  simp only [and_self, if_true] at hCount
  omega

/- The failing path of the setup that the creates share. -/
theorem setupXact_clobbers (cfg : Config) {t u : Thread} (hSound : Sound t.toStore)
    (hAlloc : u.toStore = t.toStore.alloc) (hTimers : u.timerAvail = t.timerAvail)
    (hBlank : r.Blank) (hLacks : t.timerAvail < kinds.length) :
    ∃ t', setupXact cfg u (t.poolId + 1) r kinds = .ok (none, t') ∧
      Clobbered t.toStore t'.toStore (r.gnode, r.org) := by
  rcases setupXact_spec hSound hAlloc hBlank with ⟨t', -, -, -, -, hSetup⟩
  have hNot : ¬ kinds.length ≤ u.timerAvail := by omega
  rw [if_neg hNot] at hSetup
  exact ⟨t', hSetup⟩

/- Every create that lacks a timer clobbers its list. -/
theorem Create.clobbers (hSound : Sound t.toStore) {c : Create} (hLacks : c.LacksTimer t) :
    ∃ t', c.exec cfg t n = .ok (none, t') ∧ Clobbered t.toStore t'.toStore (n, c.org) := by
  rcases hLacks with ⟨hPool, hTimers⟩
  let u : Thread :=
    { t with
      toStore := t.toStore.alloc
      poolAvail := t.poolAvail - 1 }
  have hCalloc : ogsPoolIdCalloc t = some (t.poolId + 1, u) := if_neg (by omega)
  cases c with
  | localCreate1 hdesc payload =>
    let next := xactNextXid cfg.worker u.xactId ogsGtp1MinXactId ogsGtp1MaxXactId
    rcases setupXact_clobbers cfg (u := { u with xactId := next.2 }) hSound rfl rfl
      blank_calloc hTimers with ⟨t', hSetup, hClobbered⟩
    refine ⟨t', ?_, hClobbered⟩
    simp only [Create.exec, ogsGtp1XactLocalCreate, hCalloc]
    exact bind_eq_ok.mpr ⟨_, hSetup, rfl⟩
  | localCreate2 hdesc payload =>
    let next := xactNextXid cfg.worker u.xactId ogsGtpMinXactId ogsGtpCmdXactId
    rcases setupXact_clobbers cfg (u := { u with xactId := next.2 }) hSound rfl rfl
      blank_calloc hTimers with ⟨t', hSetup, hClobbered⟩
    refine ⟨t', ?_, hClobbered⟩
    simp only [Create.exec, ogsGtpXactLocalCreate, hCalloc]
    exact bind_eq_ok.mpr ⟨_, hSetup, rfl⟩
  | remoteCreate version xid =>
    rcases setupXact_clobbers cfg (u := u) hSound rfl rfl
      blank_calloc hTimers with ⟨t', hSetup, hClobbered⟩
    refine ⟨t', ?_, hClobbered⟩
    simp only [Create.exec, ogsGtpXactRemoteCreate, hCalloc]
    exact hSetup

end Gtp

---- PFCP ----

namespace Pfcp

/- The two functions that create a transaction. -/
inductive Create where
  | localCreate
  | remoteCreate (xid : U32)

namespace Create

def exec (c : Create) (cfg : Config) (t : Thread) (n : Nat) : Except Fault (Option Nat × Thread) :=
  match c with
  | .localCreate => ogsPfcpXactLocalCreate cfg t n
  | .remoteCreate xid => ogsPfcpXactRemoteCreate cfg t n xid

def org (c : Create) : Originator :=
  match c with
  | .localCreate => .localOrg
  | .remoteCreate _ => .remoteOrg

end Create

/- There is a transaction, but not every one of its timers. -/
def LacksTimer (t : Thread) : Prop := 0 < t.poolAvail ∧ t.timerAvail < 3

/- The lists and the index of a node, and the links of the transactions in use, are as they were. -/
structure NodeKept (s s' : Store) (n : Nat) : Prop where
  list : ∀ org, s'.list (n, org) = s.list (n, org)
  xactHash : s'.xactHash n = s.xactHash n
  lnode : ∀ x r, s.xact x = some r → s'.lnode x = s.lnode x

/- Only an empty list survives being overwritten. -/
theorem Discarded.nodeKept_iff (hLinked : Linked s) (hDiscarded : Discarded s s' (n, org)) :
    NodeKept s s' n ↔ s.list (n, org) = Links.null := by
  constructor
  · intro hKept
    rw [← hKept.list org, hDiscarded.list, update_self]
  · intro hNull
    have hList : s'.list = s.list := by rw [hDiscarded.list, ← hNull, update_eq_self]
    refine ⟨?_, ?_, ?_⟩
    · intro side
      rw [hList]
    · rw [hDiscarded.xactHash]
    · intro x r hLive
      exact hDiscarded.lnode x (hLinked.bound hLive)

/- The allocation of timers succeeds when there are enough. -/
theorem addTimers_done (cfg : Config) (t : Thread) (r : Xact) (kinds : List TimerKind) :
    (addTimers cfg t r kinds).1 = decide (kinds.length ≤ t.timerAvail) := by
  induction kinds generalizing t r with
  | nil => simp [addTimers]
  | cons kind rest ih =>
    by_cases hNone : t.timerAvail = 0
    · simp [addTimers, ogsTimerAdd, hNone]
    · simp only [addTimers, ogsTimerAdd, hNone, if_false]
      rw [ih]
      simp only [length_cons, decide_eq_decide]
      omega

/- The failing path of the setup that the creates share. -/
theorem setupXact_discards {t u : Thread} (hLinked : Linked t.toStore)
    (hAlloc : u.toStore = t.toStore.alloc) (hLacks : u.timerAvail < 3) :
    ∃ t', setupXact cfg u (t.poolId + 1) r = .ok (none, t') ∧
      Discarded t.toStore t'.toStore r.home := by
  have hDone := addTimers_done cfg u r [.response, .holding, .delayedCommit]
  have hNot : ¬ [TimerKind.response, .holding, .delayedCommit].length ≤ u.timerAvail := by
    simp only [length_cons, length_nil]
    omega
  rw [decide_eq_false hNot] at hDone
  have hReturns : ∃ t', setupXact cfg u (t.poolId + 1) r = .ok (none, t') := by
    unfold setupXact
    cases hTimers : addTimers cfg u r [.response, .holding, .delayedCommit] with
    | mk done rest =>
      rcases rest with ⟨r', v⟩
      rw [hTimers] at hDone
      cases hDone
      have hLive : (v.setXact (t.poolId + 1) r').xact (t.poolId + 1) = some r' := update_self ..
      simp only [ogsPfcpXactDelete, hLive]
      exact ⟨_, rfl⟩
  rcases hReturns with ⟨t', hReturns⟩
  refine ⟨t', hReturns, ?_⟩
  rcases setupXact_ok hReturns hAlloc with ⟨r', hSame, -, ⟨hRes, -⟩ | ⟨-, hStore⟩⟩
  · cases hRes
  · rw [hStore, ← hSame.home]
    exact hLinked.discard r'

/- Every create that lacks a timer discards its record. -/
theorem Create.discards {cfg : Config} (hLinked : Linked t.toStore) {n : Nat} {c : Create}
    (hLacks : LacksTimer t) :
    ∃ t', c.exec cfg t n = .ok (none, t') ∧ Discarded t.toStore t'.toStore (n, c.org) := by
  rcases hLacks with ⟨hPool, hTimers⟩
  let u : Thread :=
    { t with
      toStore := t.toStore.alloc
      poolAvail := t.poolAvail - 1 }
  have hCalloc : ogsPoolIdCalloc t = some (t.poolId + 1, u) := if_neg (by omega)
  cases c with
  | localCreate =>
    let next := xactNextXid cfg.worker u.xactId pfcpMinXactId pfcpMaxXactId
    rcases setupXact_discards (u := { u with xactId := next.2 })
      (r := Xact.calloc .localOrg next.1 n) hLinked rfl hTimers with ⟨t', hSetup, hDiscarded⟩
    refine ⟨t', ?_, hDiscarded⟩
    simp only [Create.exec, ogsPfcpXactLocalCreate, hCalloc]
    exact hSetup
  | remoteCreate xid =>
    rcases setupXact_discards (u := u) (r := Xact.calloc .remoteOrg xid n)
      hLinked rfl hTimers with ⟨t', hSetup, hDiscarded⟩
    refine ⟨t', ?_, hDiscarded⟩
    simp only [Create.exec, ogsPfcpXactRemoteCreate, hCalloc]
    exact hSetup

end Pfcp

---- Both Layers ----

open Pfcp

/-
  From any reachable state, a GTP create that lacks a timer never leaves its node as it was, and a
  PFCP create does so exactly when the list of its side is empty.
-/
theorem failed_create_keeps_node (n : Nat) :
    (∀ (cfg : Gtp.Config) (t : Gtp.Thread) (c : Gtp.Create),
      (Gtp.layer cfg).Reachable t → c.LacksTimer t → ∃ t', c.exec cfg t n = .ok (none, t') ∧
          ¬ Gtp.NodeKept t.toStore t'.toStore n) ∧ ∀ (cfg : Config) (t : Thread) (c : Create),
      (layer cfg).Reachable t → LacksTimer t → ∃ t', c.exec cfg t n = .ok (none, t') ∧
          (NodeKept t.toStore t'.toStore n ↔ t.list (n, c.org) = Links.null) := by
  constructor
  · intro cfg t c hReach hLacks
    rcases Gtp.Create.clobbers (Gtp.sound_of_reachable hReach) hLacks with ⟨t', hExec, hClobbered⟩
    exact ⟨t', hExec, hClobbered.not_nodeKept⟩
  · intro cfg t c hReach hLacks
    have hLinked := (sound_of_reachable hReach).toLinked
    rcases Create.discards hLinked hLacks with ⟨t', hExec, hDiscarded⟩
    exact ⟨t', hExec, hDiscarded.nodeKept_iff hLinked⟩

/-
  Two transactions use up the timers. The create after them empties the list of both layers, and the
  GTP counter says one.
-/
theorem failed_create_empties_list :
    (∃ t t', (Gtp.layer Gtp.mainThread).Reachable t ∧
      Gtp.ogsGtpXactLocalCreate Gtp.mainThread t 0 ⟨32, 0⟩ [] = .ok (none, t') ∧
      Gtp.xactList t.toStore 0 .localOrg = [1, 2] ∧ Gtp.xactList t'.toStore 0 .localOrg = [] ∧
      Gtp.ogsGtpXactCount t.toStore 0 .localOrg = 2 ∧
      Gtp.ogsGtpXactCount t'.toStore 0 .localOrg = 1) ∧ ∃ t t', (layer mainThread).Reachable t ∧
      ogsPfcpXactLocalCreate mainThread t 0 = .ok (none, t') ∧
      xactList t.toStore 0 .localOrg = [1, 2] ∧ xactList t'.toStore 0 .localOrg = [] := by
  constructor
  · obtain ⟨t, hRun, hBefore, hTwo, t', hExec, hAfter, hOne⟩ : ∃ t, (Gtp.layer Gtp.mainThread).run
            (Gtp.initial 0 3 6) (List.replicate 2 (.localCreate2 0 ⟨32, 0⟩ [])) = .ok t ∧
          Gtp.xactList t.toStore 0 .localOrg = [1, 2] ∧
          Gtp.ogsGtpXactCount t.toStore 0 .localOrg = 2 ∧
          ∃ t', Gtp.ogsGtpXactLocalCreate Gtp.mainThread t 0 ⟨32, 0⟩ [] = .ok (none, t') ∧
            Gtp.xactList t'.toStore 0 .localOrg = [] ∧
            Gtp.ogsGtpXactCount t'.toStore 0 .localOrg = 1 := ⟨_, rfl, rfl, rfl, _, rfl, rfl, rfl⟩
    exact ⟨t, t', (Gtp.reachable_initial (by decide)).run hRun, hExec, hBefore, hAfter, hTwo, hOne⟩
  · obtain ⟨t, hRun, hBefore, t', hExec, hAfter⟩ : ∃ t, (layer mainThread).run
            (initial 1 3 6) (List.replicate 2 (.localCreate 0)) = .ok t ∧
          xactList t.toStore 0 .localOrg = [1, 2] ∧
          ∃ t', ogsPfcpXactLocalCreate mainThread t 0 = .ok (none, t') ∧
            xactList t'.toStore 0 .localOrg = [] := ⟨_, rfl, rfl, _, rfl, rfl⟩
    exact ⟨t, t', (reachable_initial (by decide) (by decide)).run hRun, hExec, hBefore, hAfter⟩

/- On empty lists without timers. -/
theorem failed_create_keeps_node_empty :
    (∃ t', (Gtp.Create.localCreate2 ⟨32, 0⟩ []).exec Gtp.mainThread (Gtp.initial 0 1 0) 0 =
          .ok (none, t') ∧ ¬ Gtp.NodeKept (Gtp.initial 0 1 0).toStore t'.toStore 0) ∧
    ∃ t', Create.localCreate.exec mainThread (initial 1 1 0) 0 = .ok (none, t') ∧
      NodeKept (initial 1 1 0).toStore t'.toStore 0 := by
  constructor
  · exact (failed_create_keeps_node 0).1 Gtp.mainThread _ (.localCreate2 ⟨32, 0⟩ [])
      (Gtp.reachable_initial (by decide)) ⟨by decide, by decide⟩
  · rcases (failed_create_keeps_node 0).2 mainThread (initial 1 1 0) .localCreate (reachable_initial
          (by decide) (by decide)) ⟨by decide, by decide⟩ with ⟨t', hExec, hKept⟩
    exact ⟨t', hExec, hKept.mpr rfl⟩

end Pretty5gs
