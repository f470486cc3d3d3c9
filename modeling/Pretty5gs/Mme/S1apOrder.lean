import Pretty5gs.Library.Precedence
import Pretty5gs.Mme.S1apTx

/-
  The order of the downlink messages of an eNB.

  Everything that has been submitted and is not written is in one queue: what a completion carries,
  what is encoded, what is to be encoded, and last what is parked. A message that goes in behind the
  calls that returned before it keeps the order.

  Main results: `txRuns_ordered`, `downlink_written_in_order`.
-/

---- The Queue ----

namespace Pretty5gs.Mme

open List

/- What the completion still has to hand over. -/
def Completion.carried : Completion → List Nat
  | .load message => message.toList
  | .sub message => message.toList
  | .send message => message.toList
  | .directLoad message => message.toList
  | .directSub message => message.toList
  | .directCheck message => message.toList
  | .directSend message held => message.toList ++ held
  | .flush held => held
  | .idle => []
  | .check => []
  | .recheck => []

variable (s : TxEnb)

/- What is in front of the hold list and not written. -/
def TxEnb.offloaded : List Nat := s.completion.carried ++ s.ready.filterMap id ++
    s.late.filterMap id ++ s.encoding.toList ++ s.jobs

/- All that is submitted, in the order of writing. -/
def TxEnb.queue : List Nat := s.written ++ s.offloaded ++ s.hold

/- The first call had returned when the second one started. -/
def Precedes (first second : Nat) : Prop := ∃ returned,
    s.before[second]? = some returned ∧ first ∈ returned

---- Conditions ----

/- No job fails, and the recovery of the hold list stays out. -/
def undisturbed : TxStep → Bool
  | .call i input =>
      match s.calls[i]? with
      | some .recover => !sendStalled s.pending s.hold input
      | some .reset => false
      | some (.flush _) => false
      | some .post => input
      | some .undo => false
      | _ => true
  | .encode encoded _ => encoded
  | _ => true

/-
  A send that reads zero finds nothing parked and nothing that a completion carries, a post is
  counted while nothing is parked, and no TX_READY overtakes one in the main queue.
-/
def inTurn : TxStep → Bool
  | .call i _ =>
      match s.calls[i]? with
      | some .test => s.pending > 0 || (s.hold.isEmpty && s.completion.carried.isEmpty)
      | some .count => s.hold.isEmpty
      | _ => true
  | .encode _ room => !room || s.late.isEmpty
  | _ => true

/- The steps of the runs that keep the order. -/
def OrderedStep (step : TxStep) : Prop := undisturbed s step = true ∧ inTurn s step = true

instance (s : TxEnb) (step : TxStep) : Decidable (OrderedStep s step) :=
  inferInstanceAs (Decidable (_ ∧ _))

---- The Invariant ----

structure TxEnb.Ordered (s : TxEnb) : Prop where
  aligned : s.before.length = s.calls.length
  known : ∀ m ∈ s.queue, m < s.calls.length
  ended : ∀ m, s.calls[m]? = some .done → m ∈ s.queue
  past : ∀ j m, Precedes s j m → s.calls[j]? = some .done
  order : Respects (Precedes s) [] s.queue
  write : ∀ m, s.calls[m]? = some .write → ∀ j, Precedes s j m → j ∈ s.written
  post : ∀ m, s.calls[m]? = some .post → ∀ j, Precedes s j m → j ∉ s.hold

open Completion

/- While nothing fails, the counter is what it counts. -/
theorem step_counts {direct : Bool} {s : TxEnb} {step : TxStep} (hAlone : s.Alone direct)
    (hUndisturbed : undisturbed s step = true) (hCounts : s.pending = s.counted) :
    (s.step direct step).pending = (s.step direct step).counted := by
  cases step with
  | startSend =>
    change s.pending = (s.start .recover).counted
    rw [start_counted rfl]
    exact hCounts
  | startPost =>
    change s.pending = (s.start .count).counted
    rw [start_counted rfl]
    exact hCounts
  | call i input =>
    cases hCall : s.calls[i]? with
    | none =>
      rw [step_no_call _ _ _ _ hCall]
      exact hCounts
    | some pc =>
      rw [step_call hCall]
      have hReset : pc ≠ .reset := by
        rintro rfl
        simp [undisturbed, hCall] at hUndisturbed
      have hUndo : pc ≠ .undo := by
        rintro rfl
        simp [undisturbed, hCall] at hUndisturbed
      have hPending := callStep_pending s i pc input hReset
      have hCounted := callStep_counted s i pc input hCall
      rw [if_neg hUndo] at hPending hCounted
      by_cases hCount : pc = .count
      · rw [if_pos hCount] at hPending hCounted
        omega
      · rw [if_neg hCount] at hPending hCounted
        omega
  | take => simp [TxEnb.step, takeStep_counted, hCounts]
  | encode encoded room => simp [TxEnb.step, encodeStep_counted hAlone, hCounts]
  | handle => simp [TxEnb.step, handleStep_counted, hCounts]
  | complete =>
    have hPending := completionStep_pending s
    have hCounted := completionStep_counted s
    -- the counter is positive while the message is counted
    have hOwn : 0 < s.completion.counted → s.pending > 0 := by
      intro hOne
      unfold TxEnb.counted at hCounts
      omega
    change (completionStep s).pending = (completionStep s).counted
    unfold TxEnb.takesOff at hCounted
    cases hAt : s.completion with
    | load message =>
      have hPos := hOwn (by simp [hAt, Completion.counted])
      simp only [hAt, if_pos hPos] at hCounted
      simp [hAt, subtracts] at hPending
      omega
    | directLoad message =>
      have hPos := hOwn (by simp [hAt, Completion.counted])
      simp only [hAt, hPos, or_true, if_true] at hCounted
      simp [hAt, subtracts] at hPending
      omega
    | _ =>
      simp only [hAt] at hCounted
      simp [hAt, subtracts] at hPending
      omega

/- While nothing is counted, only a completion has messages. -/
theorem offloaded_of_counted_zero {s : TxEnb} (hNone : s.counted = 0) :
    s.ready = [] ∧ s.late = [] ∧ s.encoding = none ∧
      s.jobs = [] ∧ s.offloaded = s.completion.carried := by
  unfold TxEnb.counted at hNone
  have hReady : s.ready = [] := length_eq_zero_iff.mp (by omega)
  have hLate : s.late = [] := length_eq_zero_iff.mp (by omega)
  have hJobs : s.jobs = [] := length_eq_zero_iff.mp (by omega)
  have hEncoding : s.encoding = none := by
    cases h : s.encoding with
    | none => rfl
    | some job => simp [h] at hNone
  refine ⟨hReady, hLate, hEncoding, hJobs, ?_⟩
  simp [TxEnb.offloaded, hReady, hLate, hEncoding, hJobs]

/- A send that reads zero, in turn, has nothing ahead of it. -/
theorem queue_eq_written {s : TxEnb} (hCounts : s.pending = s.counted) (hZero : ¬ s.pending > 0)
    (hHold : s.hold = []) (hCarried : s.completion.carried = []) : s.queue = s.written := by
  have hNone : s.counted = 0 := by omega
  rcases offloaded_of_counted_zero hNone with ⟨_, _, _, _, hOffloaded⟩
  simp [TxEnb.queue, hOffloaded, hCarried, hHold]

theorem precedes_congr {s s' : TxEnb} (hBefore : s'.before = s.before) :
    Precedes s' = Precedes s := by
  unfold Precedes
  rw [hBefore]

section Moves

variable {s s' : TxEnb}

/- A move of the worker or of a completion. -/
theorem TxEnb.Ordered.of_move (hOrdered : s.Ordered) (hCalls : s'.calls = s.calls)
    (hBefore : s'.before = s.before) (hQueue : s'.queue = s.queue)
    (hWritten : s.written ⊆ s'.written) (hHold : s'.hold ⊆ s.hold) : s'.Ordered := by
  have hSame := precedes_congr hBefore
  constructor
  · rw [hBefore, hCalls]
    exact hOrdered.aligned
  · rw [hQueue, hCalls]
    exact hOrdered.known
  · rw [hQueue, hCalls]
    exact hOrdered.ended
  · rw [hSame, hCalls]
    exact hOrdered.past
  · rw [hSame, hQueue]
    exact hOrdered.order
  · rw [hSame, hCalls]
    intro m hCall j hBefore
    exact hWritten (hOrdered.write m hCall j hBefore)
  · rw [hSame, hCalls]
    intro m hCall j hBefore hMem
    exact hOrdered.post m hCall j hBefore (hHold hMem)

variable {i : Nat} {pc : Pc}

/- The other calls stay where they are. -/
theorem getElem?_goto_ne (hOther : m ≠ i) : (s.goto i pc').calls[m]? = s.calls[m]? := by
  exact List.getElem?_set_ne (Ne.symm hOther)

/- Where a call is when one of them has moved. -/
theorem calls_goto (hAt : (s.goto i pc').calls[m]? = some pc) :
    m = i ∧ pc' = pc ∨ s.calls[m]? = some pc := by
  by_cases hM : m = i
  · subst hM
    rcases List.getElem?_eq_some_iff.mp hAt with ⟨_, hIs⟩
    exact .inl ⟨rfl, (List.getElem_set_self _).symm.trans hIs⟩
  · rw [getElem?_goto_ne hM] at hAt
    exact .inr hAt
/- A call that has not returned precedes nothing. -/
theorem TxEnb.Ordered.ne_of_precedes (hOrdered : s.Ordered) (hCall : s.calls[i]? = some pc)
    (hActive : pc ≠ .done) (hBefore : Precedes s j m) : j ≠ i := by
  rintro rfl
  have hDone := hOrdered.past j m hBefore
  rw [hCall] at hDone
  exact hActive (Option.some.inj hDone)

/- A call makes a step and has not yet submitted. -/
theorem TxEnb.Ordered.of_goto (hOrdered : s.Ordered) (hCall : s.calls[i]? = some pc)
    (hActive : pc ≠ .done) (hStays : pc' ≠ .done)
    (hWrite : pc' = .write → ∀ j, Precedes s j i → j ∈ s.written)
    (hPost : pc' = .post → ∀ j, Precedes s j i → j ∉ s.hold) :
    TxEnb.Ordered { s.goto i pc' with pending := n } := by
  have hLength : (s.goto i pc').calls.length = s.calls.length := length_set
  constructor
  · exact hOrdered.aligned.trans hLength.symm
  · rw [hLength]
    exact hOrdered.known
  · intro m hDone
    rcases calls_goto hDone with ⟨-, hIs⟩ | hOld
    · contradiction
    · exact hOrdered.ended m hOld
  · intro j m hBefore
    have hJ := hOrdered.ne_of_precedes hCall hActive hBefore
    rw [getElem?_goto_ne hJ]
    exact hOrdered.past j m hBefore
  · exact hOrdered.order
  · intro m hAt
    rcases calls_goto hAt with ⟨rfl, hIs⟩ | hOld
    · exact hWrite hIs
    · exact hOrdered.write m hOld
  · intro m hAt
    rcases calls_goto hAt with ⟨rfl, hIs⟩ | hOld
    · exact hPost hIs
    · exact hOrdered.post m hOld

/- A call submits its message behind what precedes it. -/
theorem TxEnb.Ordered.of_submit (hOrdered : s.Ordered) (front back : List Nat)
    (hCall : s.calls[i]? = some pc) (hActive : pc ≠ .done)
    (hCalls : s'.calls = (s.goto i .done).calls) (hBefore : s'.before = s.before)
    (hQueue : s.queue = front ++ back) (hQueue' : s'.queue = front ++ i :: back)
    (hFront : ∀ j, Precedes s j i → j ∈ front) (hWritten : s.written ⊆ s'.written)
    (hHold : ∀ j ∈ s'.hold, j ∈ s.hold ∨ j = i) : s'.Ordered := by
  have hSame := precedes_congr hBefore
  have hLength : s'.calls.length = s.calls.length := by
    rw [hCalls]
    exact length_set
  have hMem : ∀ m, m ∈ s'.queue ↔ m = i ∨ m ∈ s.queue := by
    intro m
    rw [hQueue, hQueue']
    simp only [mem_append, mem_cons]
    tauto
  have hOther : ∀ (m : Nat) (pc : Pc), pc ≠ .done → s'.calls[m]? = some pc →
    s.calls[m]? = some pc := by
    intro m pc hNot hAt
    rw [hCalls] at hAt
    exact (calls_goto hAt).resolve_left fun hHere => hNot hHere.2.symm
  constructor
  · rw [hBefore, hLength]
    exact hOrdered.aligned
  · rw [hLength]
    intro m hIn
    rcases (hMem m).mp hIn with rfl | hOld
    · exact (List.getElem?_eq_some_iff.mp hCall).1
    · exact hOrdered.known m hOld
  · intro m hDone
    rw [hCalls] at hDone
    rw [hMem]
    exact (calls_goto hDone).imp And.left (hOrdered.ended m)
  · rw [hSame, hCalls]
    intro j m hBefore
    have hJ := hOrdered.ne_of_precedes hCall hActive hBefore
    rw [getElem?_goto_ne hJ]
    exact hOrdered.past j m hBefore
  · rw [hSame, hQueue']
    have hOrder := hOrdered.order
    rw [hQueue] at hOrder
    exact hOrder.insert hFront
  · rw [hSame]
    intro m hAt j hBefore
    have hOld := hOther m .write (by simp) hAt
    exact hWritten (hOrdered.write m hOld j hBefore)
  · rw [hSame]
    intro m hAt j hBefore hIn
    have hOld := hOther m .post (by simp) hAt
    rcases hHold j hIn with hHeld | hI
    · exact hOrdered.post m hOld j hBefore hHeld
    · exact hOrdered.ne_of_precedes hCall hActive hBefore hI

/- What precedes a call has been submitted. -/
theorem TxEnb.Ordered.mem_queue (hOrdered : s.Ordered) (hBefore : Precedes s j m) :
    j ∈ s.queue := hOrdered.ended j (hOrdered.past j m hBefore)

end Moves

---- Steps ----

section Steps

variable {s : TxEnb} (hOrdered : s.Ordered)

include hOrdered

theorem start_ordered (hWrite : pc ≠ .write) (hCounted : pc.counted = false) (hDone : pc ≠ .done) :
    (s.start pc).Ordered := by
  have hOld : ∀ {m pc'}, (s.start pc).calls[m]? = some pc' → pc' ≠ pc →
    m < s.calls.length ∧ s.calls[m]? = some pc' := by
    intro m pc' hAt hNot
    simp only [TxEnb.start, List.getElem?_append] at hAt
    split at hAt
    case isTrue hLt => exact ⟨hLt, hAt⟩
    case isFalse =>
      rcases List.getElem?_eq_some_iff.mp hAt with ⟨hLt, hIs⟩
      simp only [List.getElem_singleton] at hIs
      exact absurd hIs.symm hNot
  -- what the new call has before it, and nobody has it
  have hBefore : ∀ j m, Precedes (s.start pc) j m → s.calls[j]? = some .done ∧
    (m ≠ s.calls.length → Precedes s j m) := by
    rintro j m ⟨returned, hAt, hMem⟩
    simp only [TxEnb.start, List.getElem?_append] at hAt
    split at hAt
    · have hPrecedes : Precedes s j m := ⟨returned, hAt, hMem⟩
      exact ⟨hOrdered.past j m hPrecedes, fun _ => hPrecedes⟩
    · have hAligned := hOrdered.aligned
      have hLast := (List.getElem?_eq_some_iff.mp hAt).1
      simp only [length_singleton] at hLast
      have hReturned : s.returned = returned := by
        have hZero : m - s.before.length = 0 := by omega
        rw [hZero] at hAt
        exact Option.some.inj hAt
      rw [← hReturned] at hMem
      simp only [TxEnb.returned, mem_filter, beq_iff_eq] at hMem
      exact ⟨hMem.2, fun hNot => absurd (by omega) hNot⟩
  constructor
  · simp [TxEnb.start, hOrdered.aligned]
  · intro m hIn
    have hLt := hOrdered.known m hIn
    simp only [TxEnb.start, length_append, length_singleton]
    omega
  · intro m hAt
    exact hOrdered.ended m (hOld hAt hDone.symm).2
  · intro j m hPrecedes
    have hReturned := (hBefore j m hPrecedes).1
    have hLt := (List.getElem?_eq_some_iff.mp hReturned).1
    exact (List.getElem?_append_left hLt).trans hReturned
  · apply hOrdered.order.congr
    intro m hIn j hPrecedes
    have hLt := hOrdered.known m hIn
    exact (hBefore j m hPrecedes).2 (by omega)
  · intro m hAt j hPrecedes
    rcases hOld hAt hWrite.symm with ⟨hLt, hAt⟩
    exact hOrdered.write m hAt j ((hBefore j m hPrecedes).2 (Nat.ne_of_lt hLt))
  · intro m hAt j hPrecedes
    have hOther : Pc.post ≠ pc := by
      rintro rfl
      contradiction
    rcases hOld hAt hOther with ⟨hLt, hAt⟩
    exact hOrdered.post m hAt j ((hBefore j m hPrecedes).2 (Nat.ne_of_lt hLt))

theorem callStep_ordered (hCounts : s.pending = s.counted) (hCall : s.calls[i]? = some pc)
    (hAllowed : OrderedStep s (.call i input)) : (callStep i pc input s).Ordered := by
  rcases hAllowed with ⟨hUndisturbed, hInTurn⟩
  simp only [undisturbed, hCall] at hUndisturbed
  simp only [inTurn, hCall] at hInTurn
  cases pc with
  | recover =>
      simp only [Bool.not_eq_true'] at hUndisturbed
      unfold callStep
      simp only [hUndisturbed, Bool.false_eq_true, if_false]
      split
      · exact hOrdered
      · exact hOrdered.of_goto hCall (by simp) (by simp) (by simp) (by simp)
  | reset => simp at hUndisturbed
  | flush held => simp at hUndisturbed
  | undo => simp at hUndisturbed
  | test =>
      unfold callStep
      simp only
      split
      · exact hOrdered
      · split
        · -- parked behind everything
          refine hOrdered.of_submit s.queue [] hCall (by simp)
            rfl rfl (by simp) ?_ ?_ (fun _ h => h) ?_
          · simp [TxEnb.queue, TxEnb.offloaded, TxEnb.goto]
          · intro j hBefore
            exact hOrdered.mem_queue hBefore
          · intro j hMem
            simpa using hMem
        · rename_i hZero
          refine hOrdered.of_goto hCall (by simp) (by simp) ?_ (by simp)
          intro _ j hBefore
          simp only [hZero, decide_false, Bool.false_or,
            Bool.and_eq_true, List.isEmpty_iff] at hInTurn
          rw [← queue_eq_written hCounts hZero hInTurn.1 hInTurn.2]
          exact hOrdered.mem_queue hBefore
  | write =>
      refine hOrdered.of_submit s.written (s.offloaded ++ s.hold) hCall (by simp) rfl rfl
        ?_ ?_ (hOrdered.write i hCall) ?_ (fun j h => .inl h)
      · simp [TxEnb.queue]
      · simp [TxEnb.queue, TxEnb.offloaded, TxEnb.goto, callStep]
      · exact subset_append_left _ _
  | count =>
      simp only [List.isEmpty_iff] at hInTurn
      refine hOrdered.of_goto hCall (by simp) (by simp) (by simp) ?_
      intro _ j _ hMem
      rw [hInTurn] at hMem
      contradiction
  | post =>
      have hInput : input = true := hUndisturbed
      subst hInput
      refine hOrdered.of_submit (s.written ++ s.offloaded) s.hold hCall (by simp) rfl rfl rfl ?_ ?_
        (fun _ h => h) (fun j h => .inl h)
      · simp [TxEnb.queue, TxEnb.offloaded, TxEnb.goto, callStep]
      · intro j hBefore
        have hIn := hOrdered.mem_queue hBefore
        have hNot := hOrdered.post i hCall j hBefore
        rcases mem_append.mp hIn with hFront | hHeld
        · exact hFront
        · contradiction
  | done => exact hOrdered
  | failed => exact hOrdered

theorem takeStep_ordered : (takeStep direct s).Ordered := by
  unfold takeStep
  split
  · rename_i job rest hNone hJobs
    split
    · exact hOrdered
    · refine hOrdered.of_move rfl rfl ?_ (fun _ h => h) (fun _ h => h)
      simp [TxEnb.queue, TxEnb.offloaded, hNone, hJobs]
  · exact hOrdered

theorem encodeStep_ordered (hAlone : s.Alone direct) (hRoom : room = true → s.late = []) :
    (encodeStep direct true room s).Ordered := by
  unfold encodeStep
  split
  · exact hOrdered
  · rename_i job hEncoding
    simp only [if_true]
    split
    · rename_i hDirect
      rcases hAlone hDirect with ⟨hReady, hLate, hIdle⟩
      refine hOrdered.of_move rfl rfl ?_ (fun _ h => h) (fun _ h => h)
      simp [TxEnb.queue, TxEnb.offloaded, hEncoding, hReady, hLate, hIdle, carried]
    · split
      · rename_i hFits
        refine hOrdered.of_move rfl rfl ?_ (fun _ h => h) (fun _ h => h)
        simp [TxEnb.queue, TxEnb.offloaded, hEncoding, hRoom hFits]
      · refine hOrdered.of_move rfl rfl ?_ (fun _ h => h) (fun _ h => h)
        simp [TxEnb.queue, TxEnb.offloaded, hEncoding]

theorem handleStep_ordered : (handleStep s).Ordered := by
  unfold handleStep
  split
  · rename_i message rest hIdle hReady
    refine hOrdered.of_move rfl rfl ?_ (fun _ h => h) (fun _ h => h)
    cases message <;> simp [TxEnb.queue, TxEnb.offloaded, hIdle, hReady, carried]
  · rename_i message rest hIdle hReady hLate
    refine hOrdered.of_move rfl rfl ?_ (fun _ h => h) (fun _ h => h)
    cases message <;> simp [TxEnb.queue, TxEnb.offloaded, hIdle, hReady, hLate, carried]
  · exact hOrdered

/- A splice moves the hold list to where it already is. -/
theorem splice_ordered (hCounts : s.pending = s.counted) (hZero : s.pending = 0)
    (hCarried : completion.carried = s.completion.carried ++ s.hold) :
    TxEnb.Ordered
      { s with
        hold := []
        locked := locked
        completion := completion } := by
  have hNone : s.counted = 0 := by omega
  rcases offloaded_of_counted_zero hNone with ⟨hReady, hLate, hEncoding, hJobs, _⟩
  refine hOrdered.of_move rfl rfl ?_ (fun _ h => h) (nil_subset _)
  simp [TxEnb.queue, TxEnb.offloaded, hReady, hLate, hEncoding, hJobs, hCarried]

/- A completion goes on and carries what it carried. -/
theorem carry_ordered (hCarried : completion.carried = s.completion.carried) : TxEnb.Ordered
      { s with
        pending := pending
        locked := locked
        completion := completion } := by
  refine hOrdered.of_move rfl rfl ?_ (fun _ h => h) (fun _ h => h)
  simp [TxEnb.queue, TxEnb.offloaded, hCarried]

/- A completion writes the front of what it carries. -/
theorem hand_over_ordered (hCarried :
      s.completion.carried = front ++ completion.carried) : TxEnb.Ordered
      { s with
        written := s.written ++ front
        completion := completion } := by
  refine hOrdered.of_move rfl rfl ?_ (subset_append_left _ _) (fun _ h => h)
  simp [TxEnb.queue, TxEnb.offloaded, hCarried]

theorem completionStep_ordered (hCounts : s.pending = s.counted) : (completionStep s).Ordered := by
  unfold completionStep
  split
  · exact hOrdered
  · rename_i message hAt
    apply carry_ordered hOrdered
    split <;> simp [hAt, carried]
  · rename_i message hAt
    apply carry_ordered hOrdered
    simp [hAt, carried]
  · rename_i message hAt
    apply hand_over_ordered hOrdered
    simp [hAt, carried]
  · rename_i hAt
    apply carry_ordered hOrdered
    split <;> simp [hAt, carried]
  · rename_i hAt
    split
    · exact hOrdered
    · split
      · rename_i hZero
        apply splice_ordered hOrdered hCounts hZero
        simp [hAt, carried]
      · apply carry_ordered hOrdered
        simp [hAt, carried]
  · rename_i message hAt
    split
    · exact hOrdered
    · apply carry_ordered hOrdered
      split <;> simp [hAt, carried]
  · rename_i message hAt
    apply carry_ordered hOrdered
    simp [hAt, carried]
  · rename_i message hAt
    split
    · rename_i hZero
      apply splice_ordered hOrdered hCounts hZero
      simp [hAt, carried]
    · apply carry_ordered hOrdered
      simp [hAt, carried]
  · rename_i message held hAt
    apply hand_over_ordered hOrdered
    simp [hAt, carried]
  · rename_i hAt
    apply carry_ordered hOrdered
    simp [hAt, carried]
  · rename_i held rest hAt
    apply hand_over_ordered hOrdered
    simp [hAt, carried]

theorem step_ordered {direct : Bool} {step : TxStep} (hAlone : s.Alone direct)
    (hCounts : s.pending = s.counted) (hAllowed : OrderedStep s step) :
    (s.step direct step).Ordered := by
  cases step with
  | startSend => exact start_ordered hOrdered (by simp) rfl (by simp)
  | startPost => exact start_ordered hOrdered (by simp) rfl (by simp)
  | call i input =>
    cases hCall : s.calls[i]? with
    | none =>
      rw [step_no_call _ _ _ _ hCall]
      exact hOrdered
    | some pc =>
      rw [step_call hCall]
      exact callStep_ordered hOrdered hCounts hCall hAllowed
  | take => exact takeStep_ordered hOrdered
  | encode encoded room =>
    rcases hAllowed with ⟨hEncoded, hInTurn⟩
    have hDone : encoded = true := hEncoded
    subst hDone
    apply encodeStep_ordered hOrdered hAlone
    intro hRoom
    simpa [inTurn, hRoom] using hInTurn
  | handle => exact handleStep_ordered hOrdered
  | complete => exact completionStep_ordered hOrdered hCounts

end Steps

---- The Order Of Writing ----

/- Written behind all messages of the calls before. -/
def WrittenInOrder (s : TxEnb) : Prop := ∀ front m back, s.written = front ++ m :: back →
      ∀ j, Precedes s j m → j ∈ front

theorem initial_ordered : TxEnb.initial.Ordered := by
  constructor
  · rfl
  · intro m hIn
    cases hIn
  · intro m hDone
    simp [TxEnb.initial] at hDone
  · rintro j m ⟨returned, hAt, _⟩
    simp [TxEnb.initial] at hAt
  · trivial
  · intro m hAt
    simp [TxEnb.initial] at hAt
  · intro m hAt
    simp [TxEnb.initial] at hAt

theorem txRuns_ordered {direct : Bool} {s : TxEnb}
    (hReach : (txRuns direct).ReachableBy OrderedStep s) : s.pending = s.counted ∧ s.Ordered := by
  refine Faulty.System.ReachableBy.invariant (P := fun s => s.pending = s.counted ∧ s.Ordered)
    ?_ ?_ hReach
  · intro s hInit
    have hStart : s = TxEnb.initial := hInit
    rw [hStart]
    exact ⟨rfl, initial_ordered⟩
  · rintro s step s' hBefore ⟨hCounts, hOrdered⟩ hAllowed hExec
    cases hExec
    have hAlone := txRuns_alone hBefore.reachable
    exact ⟨step_counts hAlone hAllowed.1 hCounts, step_ordered hOrdered hAlone hCounts hAllowed⟩

/-
  In every interleaving in which no job fails, the recovery stays out and every step is in turn,
  messages are written in the order of the calls that do not overlap.
-/
theorem downlink_written_in_order (direct : Bool) (s : TxEnb)
    (hReach : (txRuns direct).ReachableBy OrderedStep s) : WrittenInOrder s := by
  rcases txRuns_ordered hReach with ⟨_, hOrdered⟩
  intro front m back hWritten j hBefore
  have hOrder := hOrdered.order
  unfold TxEnb.queue at hOrder
  rw [hWritten, append_assoc, append_assoc] at hOrder
  exact hOrder.mem_of_split hBefore

/- A post, and a send that is parked until it is complete. -/
def parkedRun : List TxStep := [.startPost, .call 0 true, .call 0 true,
    .startSend, .call 1 false, .call 1 false,
    .take, .encode true true, .handle, .complete, .complete,
    .complete, .complete, .complete, .complete, .complete]

theorem downlink_written_in_order_parked :
    ∃ s, (txRuns false).run TxEnb.initial parkedRun = .ok s ∧
        s.written = [0, 1] ∧ s.before = [[], [0]] ∧ WrittenInOrder s := by
  have hEnds : ∃ s, (txRuns false).run TxEnb.initial parkedRun = .ok s ∧
    s.written = [0, 1] ∧ s.before = [[], [0]] := Faulty.System.exists_run (by decide +kernel)
  rcases hEnds with ⟨s, hRun, hWritten, hBefore⟩
  refine ⟨s, hRun, hWritten, hBefore, ?_⟩
  have hInit : (txRuns false).Init TxEnb.initial := rfl
  apply downlink_written_in_order false s
  exact Faulty.System.ReachableBy.run (.init hInit) (by decide +kernel) hRun

/-
  A post, a send that is parked, and another post. The second post is complete before the counter is
  zero.
-/
def overtakingRun : List TxStep := [.startPost, .call 0 true, .call 0 true,
    .startSend, .call 1 false, .call 1 false, .startPost, .call 2 true, .call 2 true,
    .take, .encode true true, .handle, .complete, .complete, .complete, .complete,
    .take, .encode true true, .handle, .complete, .complete,
    .complete, .complete, .complete, .complete, .complete]

/- The send has returned before the second post starts. -/
theorem second_post_overtakes_parked :
    (txRuns false).AllowedRun (fun s step => undisturbed s step = true)
        TxEnb.initial overtakingRun ∧ ∃ s, (txRuns false).run TxEnb.initial overtakingRun = .ok s ∧
          s.written = [0, 2, 1] ∧ Precedes s 1 2 ∧ ¬ WrittenInOrder s := by
  refine ⟨by decide +kernel, ?_⟩
  have hEnds : ∃ s, (txRuns false).run TxEnb.initial overtakingRun = .ok s ∧ s.written = [0, 2, 1] ∧
    s.before = [[], [0], [0, 1]] := Faulty.System.exists_run (by decide +kernel)
  rcases hEnds with ⟨s, hRun, hWritten, hReturned⟩
  have hBefore : Precedes s 1 2 := ⟨[0, 1], by rw [hReturned]; rfl, by simp⟩
  refine ⟨s, hRun, hWritten, hBefore, ?_⟩
  intro hInOrder
  have hMem := hInOrder [0] 2 [1] hWritten 1 hBefore
  simp at hMem

end Pretty5gs.Mme
