import Pretty5gs.Cgf.Simulation

/-
  Confirmations of batches on the main thread: the answer carries the number of the request and came
  in where the request went out.

  A datagram waits in the queue with the slot of its peer. The slots may be permuted before it is
  dispatched, and the number in it may be the one of another peer's request by then.

  Main results: `Authentic.step`, `batches_are_confirmed_where_sent`.
-/

---- Endpoints Of Requests ----

namespace Pretty5gs.Cgf

open List Function

/- The answer belongs to the request. -/
def Event.Genuine : Event → Prop
| .confirmed _ _ seq via answerSeq arrivedOn => arrivedOn = via ∧ answerSeq = seq
| _ => True

/-
  Requests wait at the endpoint they were sent through, and what is confirmed was answered there.
-/
structure Authentic (c : Ledger) : Prop where
  waits : ∀ i r, some r ∈ c.requests i → c.sock i = some r.via
  genuine : ∀ event ∈ c.log, event.Genuine

/- A confirmed batch is answered on the socket of its peer. -/
def Action.OnItsSocket (action : Action) (c : Ledger) : Prop :=
  match action with
  | .confirm i _ _ _ _ arrivedOn => c.sock i = some arrivedOn
  | _ => True

instance (action : Action) (c : Ledger) : Decidable (action.OnItsSocket c) :=
  match action with
  | .confirm i _ _ _ _ arrivedOn => inferInstanceAs (Decidable (c.sock i = some arrivedOn))
  | .keep | .openFile _ | .stage _ _ | .quarantine _ _ | .send _ _ _ _ | .fail _ _ _
  | .release _ _ | .free _ _ | .refuse _ _ _ _ | .rewind _ _ | .abort _ | .dial _ _
  | .redial _ _ | .reload _ _ | .restart _ => isTrue trivial

namespace Authentic

variable {c : Ledger} {action : Action}

theorem genuine_events (hAuth : Authentic c) (hSocket : action.OnItsSocket c)
    (hEnabled : action.Enabled c) : ∀ event ∈ action.events c, event.Genuine := by
  intro event hMem
  rcases Action.mem_events hMem with ⟨i, f, staged, r, rfl⟩ | ⟨i, k, f, r, seq, arrivedOn, rfl⟩ |
    ⟨i, r, f, first, last, _, _, rfl⟩
  · rw [mem_singleton.mp hMem]
    trivial
  · rcases hEnabled with ⟨_, hSlot, _, hSeq, _⟩
    have hWaits := hAuth.waits i r (mem_of_getElem? hSlot)
    rw [mem_singleton.mp hMem]
    refine ⟨?_, hSeq.symm⟩
    exact Option.some.inj (hSocket.symm.trans hWaits)
  · trivial

theorem waits_apply (hAuth : Authentic c) (hEnabled : action.Enabled c) (i : Slot) (r : Request)
    (hMem : some r ∈ (action.apply c).requests i) : (action.apply c).sock i = some r.via := by
  have hCarries := Action.mem_apply hMem
  cases action with
  | send j f staged sent =>
    rcases hCarries with hOld | ⟨rfl, rfl⟩
    · exact hAuth.waits i r hOld
    · exact hEnabled.2.2.2.1
  | release j sent =>
    rcases hCarries with hOld | ⟨rfl, rfl⟩
    · exact hAuth.waits i r hOld
    · exact hEnabled.2.2
  | dial j sock =>
    -- A peer without a socket has no requests.
    have hOther : i ≠ j := by
      rintro rfl
      have hWaits := hAuth.waits i r hCarries
      rw [hEnabled] at hWaits
      cases hWaits
    simp only [Action.apply, Ledger.setSock, update_of_ne hOther]
    exact hAuth.waits i r hCarries
  | redial j sock =>
    have hOther : i ≠ j := by
      rintro rfl
      simp only [Action.apply, Ledger.setSock, Ledger.abort, Ledger.noteAll, Ledger.drop,
        update_self] at hMem
      cases (SlotTable.mem_clearAll.mp hMem).2
    simp only [Action.apply, Ledger.setSock, update_of_ne hOther]
    exact hAuth.waits i r hCarries
  | reload origin socks =>
    rcases hCarries with ⟨j, hFrom, hOld⟩
    exact (hEnabled.2 i j hFrom).trans (hAuth.waits j r hOld)
  | restart socks => exact hCarries.elim
  | _ => exact hAuth.waits i r hCarries

/- What a step keeps. -/
theorem step (hAuth : Authentic c) (hSocket : action.OnItsSocket c) (hEnabled : action.Enabled c) :
    Authentic (action.apply c) where
  waits := hAuth.waits_apply hEnabled
  genuine := by
    intro event hMem
    rw [Action.log_apply] at hMem
    rcases mem_append.mp hMem with hNew | hOld
    · exact hAuth.genuine_events hSocket hEnabled event hNew
    · exact hAuth.genuine event hOld

theorem blank (hBlank : c.Blank) : Authentic c where
  waits := by
    intro i r hMem
    exact absurd hMem hBlank.not_mem
  genuine := by simp [hBlank.2.2]

end Authentic

---- Runs ----

/-
  The steps of a run where a datagram that confirms a batch is dispatched to the socket on which it
  arrived.
-/
def AuthenticSteps (s : Pipeline) (op : Op) : Prop := (s.act .main op).OnItsSocket s.ledger

instance (s : Pipeline) (op : Op) : Decidable (AuthenticSteps s op) :=
  inferInstanceAs (Decidable ((s.act .main op).OnItsSocket s.ledger))

/- A batch is confirmed by the answer to its own request. -/
theorem batches_are_confirmed_where_sent (s : Pipeline)
    (hReach : (cgfSystem .main).ReachableBy AuthenticSteps s) (f : FileId) (batchStart : Nat)
    (seq answerSeq : U16) (via arrivedOn : Endpoint)
    (hConfirmed : Event.confirmed f batchStart seq via answerSeq arrivedOn ∈ s.log) :
    arrivedOn = via ∧ answerSeq = seq := by
  have hAuth : Authentic s.ledger := by
    apply ledger_invariant (fun c => Authentic.blank) ?_ hReach
    intro before op hPrior hSocket hEnabled
    exact hPrior.step hSocket hEnabled
  exact hAuth.genuine _ hConfirmed

/-
  A file goes out to each of two peers. One of them answers, and before the answer is dispatched the
  peers are loaded again.
-/
def reloadSteps (hosts : List (List UInt8)) : List Op :=
  [.spoolTick, sampleSpool sampleFrame, sampleSpool sampleFrame,
    sampleWork, sampleWork, sampleWork, sampleWork, sampleWork, sampleWork, sampleAnswer 0 1 128,
    .reload ⟨0, 0, 4, 0, 0, 0, 0, hosts.map (fun host => ⟨host, 3386, true⟩)⟩ (fun _ => .ok),
    .dispatch (sampleEnv true none)]

/- The peers keep their order. -/
theorem batches_are_confirmed_where_sent_reload :
    ∃ s, (cgfSystem .main).run (sampleDrain .roundRobin 2 2) (reloadSteps [[1], [2]]) = .ok s ∧
        Event.confirmed 0 0 1 0 1 0 ∈ s.log ∧ (0 : Endpoint) = 0 ∧ (1 : U16) = 1 := by
  have hRun : ∃ s, (cgfSystem .main).run (sampleDrain .roundRobin 2 2)
    (reloadSteps [[1], [2]]) = .ok s ∧ Event.confirmed 0 0 1 0 1 0 ∈ s.log :=
    Faulty.System.exists_run (by decide +kernel)
  rcases hRun with ⟨s, hRun, hConfirmed⟩
  have hAllowed : (cgfSystem .main).AllowedRun AuthenticSteps (sampleDrain .roundRobin 2 2)
    (reloadSteps [[1], [2]]) := by
    decide +kernel
  refine ⟨s, hRun, hConfirmed, ?_⟩
  exact batches_are_confirmed_where_sent s
    (.run (.init ⟨_, _, _, _, rfl⟩) hAllowed hRun) 0 0 1 1 0 0 hConfirmed

/- The peers change places: the other file is confirmed. -/
theorem batch_is_confirmed_by_another_peer :
    ∃ s, (cgfSystem .main).Reachable s ∧ Event.confirmed 1 0 1 1 1 0 ∈ s.log := by
  have hRun : ∃ s, (cgfSystem .main).run (sampleDrain .roundRobin 2 2)
    (reloadSteps [[2], [1]]) = .ok s ∧ Event.confirmed 1 0 1 1 1 0 ∈ s.log :=
    Faulty.System.exists_run (by decide +kernel)
  rcases hRun with ⟨s, hRun, hConfirmed⟩
  exact ⟨s, .run (.init ⟨_, _, _, _, rfl⟩) hRun, hConfirmed⟩

end Pretty5gs.Cgf
