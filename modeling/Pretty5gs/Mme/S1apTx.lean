import Mathlib.Data.List.Basic
import Pretty5gs.Core.Types
import Pretty5gs.Library.Transition

/-
  The encode offload of the S1AP downlink, for one eNB.

  Calls submit messages from any thread. A post counts the message in `s1ap_tx_pending` and gives it
  to the worker of the eNB. A send is written at once while the counter is zero, and is parked on
  the hold list otherwise. What the worker has encoded is completed by the main thread (TX_READY),
  or by the worker itself in direct mode.

  A step is one access to the counter, or to a queue, with everything that the thread does next to
  what only it can see or what the hold lock protects.
-/

---- Where The Threads Are ----

namespace Pretty5gs.Mme

open List

/- A submission call, before its next step. -/
inductive Pc where
  -- `s1ap_send_to_enb`
  | recover
  | reset
  | flush (held : List Nat)
  | test
  | write
  -- `s1ap_tx_post_dlnas`
  | count
  | post
  | undo
  -- returned, with or without having submitted its message
  | done
  | failed
deriving DecidableEq, Repr

/- A completion, before its next step. It has no message when the worker could not encode it. -/
inductive Completion where
  | idle
  -- `s1ap_tx_ready_handle`
  | load (message : Option Nat)
  | sub (message : Option Nat)
  | send (message : Option Nat)
  | check
  | recheck
  -- `tx_complete_direct`
  | directLoad (message : Option Nat)
  | directSub (message : Option Nat)
  | directCheck (message : Option Nat)
  | directSend (message : Option Nat) (held : List Nat)
  -- both
  | flush (held : List Nat)
deriving DecidableEq, Repr

/-
  The message of a call is its position in `calls`. `before` has, for each call, the calls that had
  returned when it started. `ready` is the queue for TX_READY, and `late` are those that went to the
  queue of the main thread instead.
-/
structure TxEnb where
  pending : Int
  hold : List Nat
  locked : Bool
  calls : List Pc
  before : List (List Nat)
  jobs : List Nat
  encoding : Option Nat
  ready : List (Option Nat)
  late : List (Option Nat)
  completion : Completion
  written : List Nat
deriving DecidableEq, Repr

def TxEnb.initial : TxEnb where
  pending := 0
  hold := []
  locked := false
  calls := []
  before := []
  jobs := []
  encoding := none
  ready := []
  late := []
  completion := .idle
  written := []

---- Calls ----

/- The calls that have returned with their message submitted. -/
def TxEnb.returned (s : TxEnb) : List Nat := (List.range s.calls.length).filter
    (fun m => s.calls[m]? == some .done)

/- A new call. -/
def TxEnb.start (s : TxEnb) (pc : Pc) : TxEnb :=
  { s with
    calls := s.calls ++ [pc]
    before := s.before ++ [s.returned] }

/- The call is before another step. -/
def TxEnb.goto (s : TxEnb) (i : Nat) (pc : Pc) : TxEnb := { s with calls := s.calls.set i pc }

/- `S1AP_TX_HOLD_SEND_MAX_PARKED` -/
abbrev sendMaxParked : Nat := 128

/-
  The decision of `s1ap_tx_hold_try_flush_locked` on the send path; `aged` is how its comparisons
  with the clock end.
-/
def sendStalled (pending : Int) (hold : List Nat) (aged : Bool) : Bool :=
  if hold = [] ∧ pending ≤ 0 then false
  else if hold.length ≥ sendMaxParked then true
  else aged

/-
  A step of the `i`-th call. The input is `aged` in the recovery, and whether the worker takes the
  job in a post.
-/
def callStep (i : Nat) (pc : Pc) (input : Bool) (s : TxEnb) : TxEnb :=
  match pc with
  | .recover =>
      if s.locked then s
      else if sendStalled s.pending s.hold input then { s.goto i .reset with locked := true }
      else s.goto i .test
  | .reset =>
      { s.goto i (.flush s.hold) with
        hold := []
        pending := 0
        locked := false }
  | .flush [] => s.goto i .test
  | .flush (held :: rest) =>
      { s.goto i (.flush rest) with
        written := s.written ++ [held] }
  | .test =>
      if s.locked then s
      else if s.pending > 0 then { s.goto i .done with hold := s.hold ++ [i] }
      else s.goto i .write
  | .write => { s.goto i .done with written := s.written ++ [i] }
  | .count => { s.goto i .post with pending := s.pending + 1 }
  | .post =>
      if input then { s.goto i .done with jobs := s.jobs ++ [i] }
      else s.goto i .undo
  | .undo => { s.goto i .failed with pending := s.pending - 1 }
  | .done => s
  | .failed => s

---- The Worker ----

/- The worker takes a job; in direct mode it completes alone. -/
def takeStep (direct : Bool) (s : TxEnb) : TxEnb :=
  match s.encoding, s.jobs with
  | none, job :: rest =>
      if direct && s.completion != .idle then s
      else
        { s with
          encoding := some job
          jobs := rest }
  | _, _ => s

/-
  `tx_dispatch` behind the encoder. A TX_READY goes to the queue of the main thread when its own has
  no room.
-/
def encodeStep (direct encoded room : Bool) (s : TxEnb) : TxEnb :=
  match s.encoding with
  | none => s
  | some job =>
      let message := if encoded then some job else none
      if direct then
        { s with
          encoding := none
          completion := .directLoad message }
      else if room then
        { s with
          encoding := none
          ready := s.ready ++ [message] }
      else
        { s with
          encoding := none
          late := s.late ++ [message] }

---- Completion ----

/- The main thread takes a TX_READY. -/
def handleStep (s : TxEnb) : TxEnb :=
  match s.completion, s.ready, s.late with
  | .idle, message :: rest, _ =>
      { s with
        completion := .load message
        ready := rest }
  | .idle, [], message :: rest =>
      { s with
        completion := .load message
        late := rest }
  | _, _, _ => s

/- A step of `s1ap_tx_ready_handle` or `tx_complete_direct`. -/
def completionStep (s : TxEnb) : TxEnb :=
  match s.completion with
  | .idle => s
  | .load message =>
      { s with
        completion :=
          if s.pending > 0 then .sub message
          else .send message }
  | .sub message =>
      { s with
        pending := s.pending - 1
        completion := .send message }
  | .send message =>
      { s with
        written := s.written ++ message.toList
        completion := .check }
  | .check => { s with completion := if s.pending = 0 then .recheck else .idle }
  | .recheck =>
      if s.locked then s
      else if s.pending = 0 then
        { s with
          hold := []
          completion := .flush s.hold }
      else { s with completion := .flush [] }
  | .directLoad message =>
      if s.locked then s
      else
        { s with
          locked := true
          completion :=
            if s.pending > 0 then .directSub message
            else .directCheck message }
  | .directSub message =>
      { s with
        pending := s.pending - 1
        completion := .directCheck message }
  | .directCheck message =>
      if s.pending = 0 then
        { s with
          locked := false
          hold := []
          completion := .directSend message s.hold }
      else
        { s with
          locked := false
          completion := .directSend message [] }
  | .directSend message held =>
      { s with
        written := s.written ++ message.toList
        completion := .flush held }
  | .flush [] => { s with completion := .idle }
  | .flush (held :: rest) =>
      { s with
        written := s.written ++ [held]
        completion := .flush rest }

---- Interleavings ----

inductive TxStep where
  | startSend
  | startPost
  | call (i : Nat) (input : Bool)
  | take
  | encode (encoded room : Bool)
  | handle
  | complete
deriving DecidableEq, Repr

def TxEnb.step (direct : Bool) (s : TxEnb) : TxStep → TxEnb
  | .startSend => s.start .recover
  | .startPost => s.start .count
  | .call i input =>
      match s.calls[i]? with
      | some pc => callStep i pc input s
      | none => s
  | .take => takeStep direct s
  | .encode encoded room => encodeStep direct encoded room s
  | .handle => handleStep s
  | .complete => completionStep s

open TxEnb

theorem step_call (hCall : s.calls[i]? = some pc) :
    s.step direct (.call i input) = callStep i pc input s := by
  simp [step, hCall]

theorem step_no_call (direct input : Bool) (s : TxEnb) (i : Nat) (hNone : s.calls[i]? = none) :
    s.step direct (.call i input) = s := by
  simp [step, hNone]

def txRuns (direct : Bool) : Faulty.System TxEnb TxStep Fault where
  Init := fun s => s = initial
  exec := fun s step => .ok (s.step direct step)

---- What The Counter Counts ----

/- The call has counted its message and not given it away. -/
def Pc.counted : Pc → Bool
  | .post => true
  | .undo => true
  | _ => false

/- The completion has not taken its message off the counter. -/
def Completion.counted : Completion → Nat
  | .load _ => 1
  | .sub _ => 1
  | .directLoad _ => 1
  | .directSub _ => 1
  | _ => 0

/- The posts that are counted and not yet taken off. -/
def TxEnb.counted (s : TxEnb) : Nat := s.calls.countP Pc.counted + s.jobs.length +
    s.encoding.toList.length + s.ready.length + s.late.length + s.completion.counted

theorem start_counted {s : TxEnb} {pc : Pc} (hNot : pc.counted = false) :
    (s.start pc).counted = s.counted := by
  simp [start, TxEnb.counted, hNot]

/- The number of counted calls when one call moves. -/
theorem goto_counted {s : TxEnb} {i : Nat} {pc pc' : Pc} (hCall : s.calls[i]? = some pc) :
    (s.goto i pc').counted + (if pc.counted then 1 else 0) =
      s.counted + (if pc'.counted then 1 else 0) := by
  rcases List.getElem?_eq_some_iff.mp hCall with ⟨hLt, hAt⟩
  have hSet := countP_set (p := Pc.counted) (a := pc') hLt
  rw [hAt] at hSet
  have hOne : (if pc.counted then 1 else 0) ≤ s.calls.countP Pc.counted := by
    split
    · rename_i hCounted
      apply countP_pos_iff.mpr
      exact ⟨pc, mem_of_getElem? hCall, hCounted⟩
    · exact Nat.zero_le _
  unfold goto TxEnb.counted
  simp only [hSet]
  omega

/- What a step of a call does to the number. -/
theorem callStep_counted (s : TxEnb) (i : Nat) (pc : Pc) (input : Bool)
    (hCall : s.calls[i]? = some pc) : (callStep i pc input s).counted +
        (if pc = .undo then 1 else 0) = s.counted + (if pc = .count then 1 else 0) := by
  have hMove : ∀ pc', (s.goto i pc').counted + (if pc.counted then 1 else 0) =
    s.counted + (if pc'.counted then 1 else 0) := fun pc' => goto_counted hCall
  cases pc with
  | recover =>
    unfold callStep
    simp only
    split
    · simp
    · split
      · exact hMove .reset
      · exact hMove .test
  | reset => exact hMove (.flush s.hold)
  | flush held =>
    cases held with
    | nil => exact hMove .test
    | cons _ rest => exact hMove (.flush rest)
  | test =>
    unfold callStep
    simp only
    split
    · simp
    · split
      · exact hMove .done
      · exact hMove .write
  | write => exact hMove .done
  | count => exact hMove .post
  | post =>
    unfold callStep
    simp only
    split
    · have hDone := hMove .done
      have hJob : TxEnb.counted { s.goto i .done with jobs := s.jobs ++ [i] } =
        (s.goto i .done).counted + 1 := by
        simp [TxEnb.counted, goto]
        omega
      simp only [Pc.counted, if_true, Bool.false_eq_true, if_false] at hDone
      rw [hJob, hDone]
      simp
    · have hUndo := hMove .undo
      simp only [Pc.counted, if_true] at hUndo
      simp only [reduceCtorEq, if_false]
      omega
  | undo => exact hMove .failed
  | done => simp [callStep]
  | failed => simp [callStep]

/- A completion has the worker to itself in direct mode. -/
def TxEnb.Alone (direct : Bool) (s : TxEnb) : Prop := direct = true → s.ready = [] ∧ s.late = [] ∧
      (s.encoding ≠ none → s.completion = .idle)

theorem takeStep_counted : (takeStep direct s).counted = s.counted := by
  unfold takeStep
  split
  · rename_i job rest hNone hJobs
    split
    · rfl
    · simp only [TxEnb.counted, hNone, hJobs]
      simp
      omega
  · rfl

theorem encodeStep_counted (hAlone : s.Alone direct) :
    (encodeStep direct encoded room s).counted = s.counted := by
  unfold encodeStep
  split
  · rfl
  · rename_i job hEncoding
    simp only
    split
    · rename_i hDirect
      have hIdle := (hAlone hDirect).2.2 (by simp [hEncoding])
      simp [TxEnb.counted, hEncoding, hIdle, Completion.counted]
      omega
    · split
      · simp [TxEnb.counted, hEncoding]
        omega
      · simp [TxEnb.counted, hEncoding]
        omega

theorem handleStep_counted : (handleStep s).counted = s.counted := by
  unfold handleStep
  split
  · rename_i message rest hIdle hReady
    simp [TxEnb.counted, hIdle, hReady, Completion.counted]
    omega
  · rename_i message rest hIdle hReady hLate
    simp [TxEnb.counted, hIdle, hReady, hLate, Completion.counted]
    omega
  · rfl

/- What the completion takes off with its next step. -/
def TxEnb.takesOff (s : TxEnb) : Nat :=
  match s.completion with
  | .load _ => if s.pending > 0 then 0 else 1
  | .sub _ => 1
  | .directLoad _ => if s.locked ∨ s.pending > 0 then 0 else 1
  | .directSub _ => 1
  | _ => 0

theorem completionStep_counted (s : TxEnb) :
    (completionStep s).counted + s.takesOff = s.counted := by
  unfold completionStep takesOff TxEnb.counted
  cases hAt : s.completion with
  | load message => by_cases hPending : s.pending > 0 <;> simp [hPending, Completion.counted]
  | directLoad message =>
    by_cases hLocked : s.locked = true
    · simp [hLocked, hAt]
    · by_cases hPending : s.pending > 0 <;> simp [hLocked, hPending, Completion.counted]
  | check => by_cases hZero : s.pending = 0 <;> simp [hZero, Completion.counted]
  | recheck =>
    by_cases hLocked : s.locked = true
    · simp [hLocked, hAt]
    · by_cases hZero : s.pending = 0 <;> simp [hLocked, hZero, Completion.counted]
  | directCheck message => by_cases hZero : s.pending = 0 <;> simp [hZero, Completion.counted]
  | flush held => cases held <;> simp [Completion.counted]
  | idle => simp [hAt]
  | _ => simp [Completion.counted]

---- What Steps Do To The Counter ----

theorem callStep_pending (s : TxEnb) (i : Nat) (pc : Pc) (input : Bool) (hNot : pc ≠ .reset) :
    (callStep i pc input s).pending + (if pc = .undo then 1 else 0) =
      s.pending + (if pc = .count then 1 else 0) := by
  cases pc with
  | reset => contradiction
  | recover =>
    unfold callStep
    simp only
    split
    · simp
    · split <;> simp [goto]
  | flush held => cases held <;> simp [callStep, goto]
  | test =>
    unfold callStep
    simp only
    split
    · simp
    · split <;> simp [goto]
  | post =>
    unfold callStep
    simp only
    split <;> simp [goto]
  | _ => simp [callStep, goto]

/- Only the test and the recovery touch the hold list. -/
theorem callStep_hold (hReset : pc ≠ .reset) (hTest : pc ≠ .test) :
    (callStep i pc input s).hold = s.hold := by
  cases pc with
  | reset => contradiction
  | test => contradiction
  | recover =>
    unfold callStep
    simp only
    split
    · rfl
    · split <;> rfl
  | flush held => cases held <;> rfl
  | post =>
    unfold callStep
    simp only
    split <;> rfl
  | _ => rfl

@[simp] theorem takeStep_pending : (takeStep direct s).pending = s.pending := by
  unfold takeStep
  split
  · split <;> rfl
  · rfl

@[simp] theorem encodeStep_pending : (encodeStep direct encoded room s).pending = s.pending := by
  unfold encodeStep
  split
  · rfl
  · simp only
    split
    · rfl
    · split <;> rfl

@[simp] theorem handleStep_pending : (handleStep s).pending = s.pending := by
  unfold handleStep
  split <;> rfl

/- The completion is before taking its message off. -/
def Completion.subtracts : Completion → Bool
  | .sub _ => true
  | .directSub _ => true
  | _ => false

theorem completionStep_pending (s : TxEnb) : (completionStep s).pending +
        (if s.completion.subtracts then 1 else 0) = s.pending := by
  unfold completionStep
  cases hAt : s.completion with
  | recheck =>
    simp only
    split
    · simp [Completion.subtracts]
    · split <;> simp [Completion.subtracts]
  | directLoad message =>
    simp only
    split <;> simp [Completion.subtracts]
  | directCheck message =>
    simp only
    split <;> simp [Completion.subtracts]
  | flush held => cases held <;> simp [Completion.subtracts]
  | _ => simp [Completion.subtracts]

/- A message is taken off by subtracting, or at zero. -/
theorem takesOff_cases {s : TxEnb} : s.takesOff = (if s.completion.subtracts then 1 else 0) ∨
      (s.completion.subtracts = false ∧ s.pending ≤ 0) := by
  unfold takesOff
  cases hAt : s.completion with
  | load message =>
    by_cases hPos : s.pending > 0
    · simp [hPos, Completion.subtracts]
    · right
      exact ⟨rfl, by omega⟩
  | directLoad message =>
    by_cases hPos : s.pending > 0
    · simp [hPos, Completion.subtracts]
    · right
      exact ⟨rfl, by omega⟩
  | _ => exact .inl rfl

---- Direct Mode ----

/- A call touches neither the worker nor the completion. -/
theorem callStep_frame :
    (callStep i pc input s).encoding = s.encoding ∧ (callStep i pc input s).ready = s.ready ∧
      (callStep i pc input s).late = s.late ∧
      (callStep i pc input s).completion = s.completion := by
  cases pc with
  | recover =>
    unfold callStep
    simp only
    split
    · simp
    · split <;> simp [goto]
  | flush held => cases held <;> simp [callStep, goto]
  | test =>
    unfold callStep
    simp only
    split
    · simp
    · split <;> simp [goto]
  | post =>
    unfold callStep
    simp only
    split <;> simp [goto]
  | _ => simp [callStep, goto]

/- The queues of TX_READY change only when it is taken. -/
theorem completionStep_frame (s : TxEnb) :
    (completionStep s).encoding = s.encoding ∧ (completionStep s).ready = s.ready ∧
      (completionStep s).late = s.late ∧ (s.completion = .idle →
        (completionStep s).completion = .idle) := by
  unfold completionStep
  cases hAt : s.completion with
  | recheck =>
    simp only
    split
    · simp
    · split <;> simp
  | directLoad message =>
    simp only
    split <;> simp
  | directCheck message =>
    simp only
    split <;> simp
  | flush held => cases held <;> simp
  | idle => simp [hAt]
  | _ => simp

theorem step_alone {direct : Bool} {s : TxEnb} {step : TxStep} (hAlone : s.Alone direct) :
    (s.step direct step).Alone direct := by
  intro hDirect
  rcases hAlone hDirect with ⟨hReady, hLate, hIdle⟩
  cases step with
  | startSend => exact ⟨hReady, hLate, hIdle⟩
  | startPost => exact ⟨hReady, hLate, hIdle⟩
  | call i input =>
    cases hCall : s.calls[i]? with
    | none =>
      rw [step_no_call _ _ _ _ hCall]
      exact ⟨hReady, hLate, hIdle⟩
    | some pc =>
      rcases callStep_frame with ⟨hE, hR, hL, hC⟩
      rw [step_call hCall, hE, hR, hL, hC]
      exact ⟨hReady, hLate, hIdle⟩
  | take =>
    unfold step takeStep
    simp only
    split
    · split
      · exact ⟨hReady, hLate, hIdle⟩
      · rename_i hFree
        simp only [hDirect, Bool.true_and, bne_iff_ne, ne_eq, not_not] at hFree
        exact ⟨hReady, hLate, fun _ => hFree⟩
    · exact ⟨hReady, hLate, hIdle⟩
  | encode encoded room =>
    unfold step encodeStep
    simp only
    split
    · exact ⟨hReady, hLate, hIdle⟩
    · rw [if_pos hDirect]
      exact ⟨hReady, hLate, fun hSome => absurd rfl hSome⟩
  | handle =>
    simp only [step, handleStep, hReady, hLate]
    split
    · contradiction
    · contradiction
    · exact ⟨hReady, hLate, hIdle⟩
  | complete =>
    rcases completionStep_frame s with ⟨hE, hR, hL, hC⟩
    simp only [step, hE, hR, hL]
    exact ⟨hReady, hLate, fun hSome => hC (hIdle hSome)⟩

theorem txRuns_alone (hReach : (txRuns direct).Reachable s) : s.Alone direct := by
  refine Faulty.System.Reachable.invariant ?_ ?_ hReach
  · intro s hInit
    have hStart : s = initial := hInit
    rw [hStart]
    intro _
    exact ⟨rfl, rfl, fun hSome => absurd rfl hSome⟩
  · intro s step s' hAlone hExec
    cases hExec
    exact step_alone hAlone

end Pretty5gs.Mme
