import Pretty5gs.Mme.S1apTx

/-
  Parked downlink messages that nobody hands over.

  A parked message waits for a completion that finds the counter at zero. A post that fails takes
  its count back and looks at no hold list, and the recovery may reset the counter under a
  completion that is about to decrement it.

  Main results: `txRuns_watched`, `quiescent_downlink_drained`.
-/

---- Quiescence ----

namespace Pretty5gs.Mme

/- The call has returned. -/
def Pc.returned : Pc → Bool
  | .done => true
  | .failed => true
  | _ => false

/- No job is posted or in flight, and no call in progress. -/
def Quiescent (s : TxEnb) : Prop := (∀ pc ∈ s.calls, pc.returned = true) ∧ s.jobs = [] ∧
    s.encoding = none ∧ s.ready = [] ∧ s.late = [] ∧ s.completion = .idle

instance (s : TxEnb) : Decidable (Quiescent s) := inferInstanceAs (Decidable (_ ∧ _))

/- Nothing is counted, and nothing is parked. -/
def Drained (s : TxEnb) : Prop := s.pending = 0 ∧ s.hold = []

instance (s : TxEnb) : Decidable (Drained s) := inferInstanceAs (Decidable (_ ∧ _))

---- Conditions ----

/- The completion has still to look at the counter. -/
def Completion.willCheck : Completion → Bool
  | .load _ => true
  | .sub _ => true
  | .send _ => true
  | .check => true
  | .recheck => true
  | .directLoad _ => true
  | .directSub _ => true
  | .directCheck _ => true
  | .idle => false
  | .directSend _ _ => false
  | .flush _ => false

/-
  A failed post that takes back the last count finds nothing parked or a completion that has still
  to look, and whoever decrements the counter finds it positive.
-/
def watched (s : TxEnb) : TxStep → Bool
  | .call i _ =>
      match s.calls[i]? with
      | some .undo =>
          s.pending ≥ 2 || (s.pending == 1 && (s.hold.isEmpty || s.completion.willCheck))
      | _ => true
  | .complete => !s.completion.subtracts || s.pending ≥ 1
  | _ => true

def WatchedStep (s : TxEnb) (step : TxStep) : Prop := watched s step = true

instance (s : TxEnb) (step : TxStep) : Decidable (WatchedStep s step) :=
  inferInstanceAs (Decidable (_ = true))

---- The Invariant ----

/- While a message is parked, somebody will look at it. -/
def TxEnb.HoldWatched (s : TxEnb) : Prop := s.hold ≠ [] →
    0 < s.pending ∨ s.completion.willCheck = true

/- The counter counts no more than there is. -/
structure TxEnb.Watched (s : TxEnb) : Prop where
  low : 0 ≤ s.pending
  high : s.pending ≤ s.counted
  held : s.HoldWatched

section Steps

variable {s : TxEnb} (hWatched : s.Watched)

include hWatched

/- A step that only moves messages on. -/
theorem TxEnb.Watched.of_same {s' : TxEnb} (hPending : s'.pending = s.pending)
    (hCounted : s'.counted = s.counted) (hHold : s'.hold = s.hold)
    (hCheck : s.completion.willCheck = true → s'.completion.willCheck = true) : s'.Watched := by
  constructor
  · rw [hPending]
    exact hWatched.low
  · rw [hPending, hCounted]
    exact hWatched.high
  · intro hParked
    rw [hHold] at hParked
    rw [hPending]
    rcases hWatched.held hParked with hPos | hWill
    · exact .inl hPos
    · exact .inr (hCheck hWill)

/- A failed post takes its count back. -/
theorem undo_watched (hCall : s.calls[i]? = some .undo) (hAllowed : WatchedStep s (.call i input)) :
    (callStep i .undo input s).Watched := by
  have hCounted := callStep_counted s i .undo input hCall
  have hHigh := hWatched.high
  simp only [WatchedStep, watched, hCall, Bool.or_eq_true,
    Bool.and_eq_true, decide_eq_true_eq, beq_iff_eq, List.isEmpty_iff] at hAllowed
  simp only [if_true, reduceCtorEq, if_false] at hCounted
  constructor
  · change 0 ≤ s.pending - 1
    omega
  · change s.pending - 1 ≤ _
    omega
  · intro hParked
    change 0 < s.pending - 1 ∨ s.completion.willCheck = true
    rcases hAllowed with hMore | ⟨_, hNone | hWill⟩
    · left
      omega
    · contradiction
    · exact .inr hWill

/- A send parks only while the counter is positive. -/
theorem test_watched (hCall : s.calls[i]? = some .test) : (callStep i .test input s).Watched := by
  have hCounted := callStep_counted s i .test input hCall
  have hPending := callStep_pending s i .test input (by simp)
  have hLow := hWatched.low
  have hHigh := hWatched.high
  simp only [reduceCtorEq, if_false] at hCounted hPending
  refine ⟨by omega, by omega, ?_⟩
  intro hParked
  rw [callStep_frame.2.2.2]
  by_cases hPos : 0 < s.pending
  · left
    omega
  · right
    have hHold : (callStep i .test input s).hold = s.hold := by
      unfold callStep
      simp only
      split <;> rfl
    rw [hHold] at hParked
    rcases hWatched.held hParked with hHas | hWill
    · contradiction
    · exact hWill

theorem callStep_watched (hCall : s.calls[i]? = some pc)
    (hAllowed : WatchedStep s (.call i input)) : (callStep i pc input s).Watched := by
  have hCounted := callStep_counted s i pc input hCall
  have hLow := hWatched.low
  have hHigh := hWatched.high
  by_cases hReset : pc = .reset
  · -- the recovery leaves nothing parked
    subst hReset
    exact ⟨Int.le_refl 0, Int.natCast_nonneg _, fun hParked => absurd rfl hParked⟩
  by_cases hUndo : pc = .undo
  · subst hUndo
    exact undo_watched hWatched hCall hAllowed
  by_cases hTest : pc = .test
  · subst hTest
    exact test_watched hWatched hCall
  have hPending := callStep_pending s i pc input hReset
  rw [if_neg hUndo] at hCounted hPending
  have hGrows : s.pending ≤ (callStep i pc input s).pending ∧ (callStep i pc input s).pending ≤
    (callStep i pc input s).counted := by
    by_cases hCount : pc = .count
    · rw [if_pos hCount] at hCounted hPending
      omega
    · rw [if_neg hCount] at hCounted hPending
      omega
  refine ⟨by omega, hGrows.2, ?_⟩
  intro hParked
  rw [callStep_hold hReset hTest] at hParked
  rw [callStep_frame.2.2.2]
  rcases hWatched.held hParked with hPos | hWill
  · left
    omega
  · exact .inr hWill

theorem takeStep_watched : (takeStep direct s).Watched := by
  apply hWatched.of_same takeStep_pending takeStep_counted
  · unfold takeStep
    split
    · split <;> rfl
    · rfl
  · unfold takeStep
    split
    · split <;> exact id
    · exact id

theorem encodeStep_watched (hAlone : s.Alone direct) :
    (encodeStep direct encoded room s).Watched := by
  apply hWatched.of_same encodeStep_pending (encodeStep_counted hAlone)
  · unfold encodeStep
    split
    · rfl
    · simp only
      split
      · rfl
      · split <;> rfl
  · unfold encodeStep
    split
    · exact id
    · simp only
      split
      · intro _
        rfl
      · split <;> exact id

theorem handleStep_watched : (handleStep s).Watched := by
  apply hWatched.of_same handleStep_pending handleStep_counted
  · unfold handleStep
    split <;> rfl
  · unfold handleStep
    split
    · intro _
      rfl
    · intro _
      rfl
    · exact id

/- Without anyone to look, the counter is positive. -/
theorem pending_pos (hParked : s.hold ≠ []) (hBlind : s.completion.willCheck = false) :
    0 < s.pending := by
  rcases hWatched.held hParked with hPos | hWill
  · exact hPos
  · rw [hBlind] at hWill
    contradiction

/- What a completion leaves parked is watched. -/
theorem completionStep_held : (completionStep s).HoldWatched := by
  have hLow := hWatched.low
  unfold completionStep
  split
  · exact hWatched.held
  · intro _
    right
    split <;> rfl
  · exact fun _ => .inr rfl
  · exact fun _ => .inr rfl
  · intro _
    simp only
    split
    · exact .inr rfl
    · left
      omega
  · split
    · exact hWatched.held
    · split
      · exact fun hParked => absurd rfl hParked
      · intro _
        left
        change 0 < s.pending
        omega
  · split
    · exact hWatched.held
    · intro _
      right
      split <;> rfl
  · exact fun _ => .inr rfl
  · split
    · exact fun hParked => absurd rfl hParked
    · intro _
      left
      change 0 < s.pending
      omega
  · rename_i message held hAt
    exact fun hParked => .inl (pending_pos (s := s) hWatched hParked (by rw [hAt]; rfl))
  · rename_i hAt
    exact fun hParked => .inl (pending_pos (s := s) hWatched hParked (by rw [hAt]; rfl))
  · rename_i held rest hAt
    exact fun hParked => .inl (pending_pos (s := s) hWatched hParked (by rw [hAt]; rfl))

theorem completionStep_watched (hAllowed : WatchedStep s .complete) :
    (completionStep s).Watched := by
  have hPending := completionStep_pending s
  have hCounted := completionStep_counted s
  have hLow := hWatched.low
  have hHigh := hWatched.high
  have hPositive : s.completion.subtracts = true → 1 ≤ s.pending := by
    intro hSubtracts
    simpa [WatchedStep, watched, hSubtracts] using hAllowed
  refine ⟨?_, ?_, completionStep_held hWatched⟩
  · split at hPending
    · rename_i hSubtracts
      have hOne := hPositive hSubtracts
      omega
    · omega
  · rcases takesOff_cases with hOff | ⟨hNot, hZero⟩
    · rw [hOff] at hCounted
      split at hPending
      · rename_i hSubtracts
        rw [if_pos hSubtracts] at hCounted
        omega
      · rename_i hSubtracts
        rw [if_neg hSubtracts] at hCounted
        omega
    · -- it was at zero, and stays there
      omega

theorem step_watched (hAlone : s.Alone direct) (hAllowed : WatchedStep s step) :
    (s.step direct step).Watched := by
  cases step with
  | startSend => exact hWatched.of_same rfl (start_counted rfl) rfl id
  | startPost => exact hWatched.of_same rfl (start_counted rfl) rfl id
  | call i input =>
    cases hCall : s.calls[i]? with
    | none =>
      rw [step_no_call _ _ _ _ hCall]
      exact hWatched
    | some pc =>
      rw [step_call hCall]
      exact callStep_watched hWatched hCall hAllowed
  | take => exact takeStep_watched hWatched
  | encode encoded room => exact encodeStep_watched hWatched hAlone
  | handle => exact handleStep_watched hWatched
  | complete => exact completionStep_watched hWatched hAllowed

end Steps

theorem txRuns_watched (hReach : (txRuns direct).ReachableBy WatchedStep s) : s.Watched := by
  refine Faulty.System.ReachableBy.invariant ?_ ?_ hReach
  · intro s hInit
    have hStart : s = TxEnb.initial := hInit
    rw [hStart]
    exact ⟨Int.le_refl 0, Int.le_refl 0, fun hParked => absurd rfl hParked⟩
  · intro s step s' hBefore hWatched hAllowed hExec
    cases hExec
    have hAlone := txRuns_alone hBefore.reachable
    exact step_watched hWatched hAlone hAllowed

---- Stranded Messages ----

theorem quiescent_counted (hQuiet : Quiescent s) : s.counted = 0 := by
  rcases hQuiet with ⟨hCalls, hJobs, hEncoding, hReady, hLate, hIdle⟩
  have hNone : s.calls.countP Pc.counted = 0 := by
    apply List.countP_eq_zero.mpr
    intro pc hMem hCounted
    have hReturned := hCalls pc hMem
    cases pc <;> contradiction
  simp [TxEnb.counted, hNone, hJobs, hEncoding, hReady, hLate, hIdle, Completion.counted]

/-
  In every interleaving whose steps are watched, nothing is counted and nothing is parked once all
  is quiet.
-/
theorem quiescent_downlink_drained (direct : Bool) (s : TxEnb)
    (hReach : (txRuns direct).ReachableBy WatchedStep s) (hQuiet : Quiescent s) : Drained s := by
  have hWatched := txRuns_watched hReach
  have hNone := quiescent_counted hQuiet
  have hLow := hWatched.low
  have hHigh := hWatched.high
  have hZero : s.pending = 0 := by omega
  refine ⟨hZero, ?_⟩
  by_contra hParked
  have hPos := pending_pos hWatched hParked (by rw [hQuiet.2.2.2.2.2]; rfl)
  omega

/- A send is parked behind a post that another post outlives. -/
def watchedRun : List TxStep := [.startPost, .call 0 true, .call 0 true,
    .startPost, .call 1 true, .startSend, .call 2 false,
    .call 2 false, .call 1 false, .call 1 false,
    .take, .encode true true, .handle, .complete, .complete,
    .complete, .complete, .complete, .complete, .complete]

theorem quiescent_downlink_drained_watched :
    ∃ s, (txRuns false).run TxEnb.initial watchedRun = .ok s ∧
        Quiescent s ∧ s.written = [0, 2] ∧ Drained s := by
  have hEnds : ∃ s, (txRuns false).run TxEnb.initial watchedRun = .ok s ∧
    Quiescent s ∧ s.written = [0, 2] := Faulty.System.exists_run (by decide +kernel)
  rcases hEnds with ⟨s, hRun, hQuiet, hWritten⟩
  refine ⟨s, hRun, hQuiet, hWritten, ?_⟩
  have hInit : (txRuns false).Init TxEnb.initial := rfl
  have hReach : (txRuns false).ReachableBy WatchedStep s :=
    Faulty.System.ReachableBy.run (.init hInit) (by decide +kernel) hRun
  exact quiescent_downlink_drained false s hReach hQuiet

/-
  A send is parked while a post is counted, and the worker has no room for the post. Its caller then
  sends synchronously.
-/
def failedPostRun : List TxStep := [.startPost, .call 0 true, .startSend, .call 1 false,
    .call 1 false, .call 0 false, .call 0 false,
    .startSend, .call 2 false, .call 2 false, .call 2 false]

/- All is quiet, and the first send stays parked. -/
theorem failed_post_strands_parked :
    ∃ s, (txRuns false).run TxEnb.initial failedPostRun = .ok s ∧
        Quiescent s ∧ s.pending = 0 ∧ s.hold = [1] ∧ s.written = [2] ∧ ¬ Drained s :=
  Faulty.System.exists_run (by decide +kernel)

end Pretty5gs.Mme
