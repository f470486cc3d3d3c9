import Pretty5gs.Library.Transition
import Pretty5gs.Mme.Overload

/-
  Releasing the eNBs that were told to throttle.

  A tick sends OVERLOAD STOP to an eNB that has been calm for the recovery interval. Whether it may
  is asked first, and the answer is no for every level while `signal_enb` is off.

  Main results: `overloadRuns_sound`, `overload_stop_by_tick_iff`.
-/

---- Runs Of Overload Control ----

namespace Pretty5gs.Mme

open List

/-
  An eNB, with the time of the last call that found its level above zero or that shed something for
  it.
-/
structure Cell where
  enb : EnbOverload
  lastHot : Int
deriving DecidableEq

/- The settings, the level of the MME and the eNBs. -/
structure OverloadState where
  config : OverloadConfig
  global : GlobalLevel
  cells : List Cell
deriving DecidableEq

inductive OverloadOp where
  | tick (lag now : Int) (sendOk : Nat → Bool)
  | congested (i : Nat) (depth now : Int) (sendOk : Bool)
  | initialUe (i : Nat) (cause : Option RrcCause) (now : Int) (sendOk : Bool)
  | configure (config : OverloadConfig)
  | connect
  | s1Setup (i : Nat)
  | disconnect (i : Nat)

/- When the eNB was last hot, after a call. -/
def lastHotAfter (now lastHot : Int) (level : Nat) (shed : Bool) : Int :=
  if level > 0 ∨ shed = true then now else lastHot

variable (config : OverloadConfig) (global : GlobalLevel)

def Cell.tick (now : Int) (sendOk : Bool) (cell : Cell) : Cell where
  enb := tickEnb config global now sendOk cell.enb
  lastHot := lastHotAfter now cell.lastHot (enbLevel config global cell.enb now) false

def Cell.congested (depth now : Int) (sendOk : Bool) (cell : Cell) : Cell :=
  let enb := overloadEnbCongested config global depth now sendOk cell.enb
  { enb := enb
    lastHot := lastHotAfter now cell.lastHot (enbLevel config global enb now) false }

def Cell.admission (cause : Option RrcCause) (now : Int) (sendOk : Bool) (cell : Cell) : Cell :=
  let result := admitInitialUe config global cause now sendOk cell.enb
  { enb := result.2
    lastHot := lastHotAfter now cell.lastHot (enbLevel config global cell.enb now) (!result.1) }

def Cell.initial : Cell where
  enb := EnbOverload.initial
  lastHot := 0

/- S1 Setup has succeeded. -/
def Cell.s1Setup (cell : Cell) : Cell :=
  { cell with enb := { cell.enb with s1SetupSuccess := true } }

/- `overload_tick` -/
def OverloadState.tick (lag now : Int) (sendOk : Nat → Bool) (s : OverloadState) : OverloadState :=
  let global := tickGlobal s.config lag now s.global
  { s with
    global := global
    cells := s.cells.mapIdx (fun i cell => cell.tick s.config global now (sendOk i)) }

def OverloadState.step (s : OverloadState) : OverloadOp → OverloadState
  | .tick lag now sendOk => s.tick lag now sendOk
  | .congested i depth now sendOk =>
      { s with cells := s.cells.modify i (Cell.congested s.config s.global depth now sendOk) }
  | .initialUe i cause now sendOk =>
      { s with cells := s.cells.modify i (Cell.admission s.config s.global cause now sendOk) }
  | .configure config => { s with config := config }
  | .connect => { s with cells := s.cells ++ [Cell.initial] }
  | .s1Setup i => { s with cells := s.cells.modify i Cell.s1Setup }
  | .disconnect i => { s with cells := s.cells.eraseIdx i }

/- Every run starts without eNBs, with any settings. -/
def overloadRuns : Faulty.System OverloadState OverloadOp Fault where
  Init := fun s => s.global = GlobalLevel.initial ∧ s.cells = []
  exec := fun s op => .ok (s.step op)

---- What Signalling Does ----

section Signalling

variable (config : OverloadConfig) {global : GlobalLevel} {level : Nat} (now : Int) {sendOk : Bool}
variable (enb : EnbOverload)

/- Nothing, one START to an eNB that is set up, or one STOP. -/
theorem overloadSignalEnb_cases :
    overloadSignalEnb config global level now sendOk enb = enb ∨
      (enb.s1SetupSuccess = true ∧ 0 < level ∧
        overloadSignalEnb config global level now sendOk enb = signalStart config level now enb) ∨
      overloadSignalEnb config global level now sendOk enb = signalStop now enb := by
  unfold overloadSignalEnb
  by_cases hMay : overloadMaySignal config global enb level now = true
  · have hSetup : enb.s1SetupSuccess = true := by
      unfold overloadMaySignal at hMay
      by_contra hNot
      simp [hNot] at hMay
    simp only [hMay, Bool.not_true, Bool.false_eq_true, if_false]
    split
    · rename_i hLevel
      split
      · exact .inl rfl
      · split
        · exact .inr (.inl ⟨hSetup, hLevel, rfl⟩)
        · exact .inl rfl
    · split
      · exact .inl rfl
      · split
        · exact .inl rfl
        · split
          · exact .inr (.inr rfl)
          · exact .inl rfl
  · simp [hMay]

@[simp] theorem overloadSignalEnb_hotAt :
    (overloadSignalEnb config global level now sendOk enb).hotAt = enb.hotAt := by
  rcases overloadSignalEnb_cases config now enb with hSame | ⟨_, _, hStart⟩ | hStop
  · rw [hSame]
  · rw [hStart]
    rfl
  · rw [hStop]
    rfl

/-
  Signalling does not move the congestion report, so that it leaves the level of the eNB as it is.
-/
@[simp] theorem overloadSignalEnb_enbLevel :
    enbLevel config global (overloadSignalEnb config global level now sendOk enb) later =
      enbLevel config global enb later := by
  rcases overloadSignalEnb_cases config now enb with hSame | ⟨_, _, hStart⟩ | hStop
  · rw [hSame]
  · rw [hStart]
    rfl
  · rw [hStop]
    rfl

@[simp] theorem storeLevel_hotAt : (storeLevel config global now enb).hotAt =
      if enbLevel config global enb now > 0 then now
      else enb.hotAt := by
  unfold storeLevel
  split
  · simp_all [enbLevel]
  · rfl

@[simp] theorem storeLevel_enbLevel :
    enbLevel config global (storeLevel config global now enb) later =
      enbLevel config global enb later := by
  unfold storeLevel
  split <;> rfl

theorem refillTokens_eq : ∃ tokens tokensAt, refillTokens config now enb =
        { enb with
          tokens := tokens
          tokensAt := tokensAt } := by
  unfold refillTokens
  simp only
  split
  · exact ⟨_, _, rfl⟩
  · split <;> exact ⟨_, _, rfl⟩

/- Taking a token changes only the bucket. -/
theorem initialUeTokenTake_eq : ∃ tokens tokensAt, (initialUeTokenTake config now enb).2 =
        { enb with
          tokens := tokens
          tokensAt := tokensAt } := by
  rcases refillTokens_eq config now enb with ⟨tokens, tokensAt, hRefill⟩
  unfold initialUeTokenTake
  simp only [hRefill]
  split
  · exact ⟨enb.tokens, enb.tokensAt, rfl⟩
  · split <;> exact ⟨_, _, rfl⟩

end Signalling

---- What Holds Of Every eNB ----

/- What the eNB was told last is what is kept of it. -/
def ToldLast (enb : EnbOverload) : Prop :=
  if enb.signalledLevel = 0 then enb.sent = [] ∨ enb.sent.head? = some .stop
  else ∃ reduction, enb.sent.head? = some (.start enb.signalledLevel reduction)

/- Only an eNB that is set up has been told anything. -/
structure Signalled (enb : EnbOverload) : Prop where
  setup : enb.signalledLevel ≠ 0 → enb.s1SetupSuccess = true
  last : ToldLast enb

structure Cell.Sound (cell : Cell) : Prop where
  hot : cell.enb.hotAt = cell.lastHot
  signalled : Signalled cell.enb

theorem Cell.initial_sound : Cell.initial.Sound := by
  constructor
  · rfl
  · constructor
    · intro hNone
      exact absurd rfl hNone
    · exact .inl rfl

/- A call that leaves what is signalled keeps the facts. -/
theorem Signalled.of_same (hSignalled : Signalled enb)
    (hSetup : enb'.s1SetupSuccess = enb.s1SetupSuccess)
    (hLevel : enb'.signalledLevel = enb.signalledLevel) (hSent : enb'.sent = enb.sent) :
    Signalled enb' := by
  constructor
  · rw [hLevel, hSetup]
    exact hSignalled.setup
  · unfold ToldLast
    rw [hLevel, hSent]
    exact hSignalled.last

section Calls

variable (config : OverloadConfig) (global : GlobalLevel) (now : Int) {sendOk : Bool}

theorem overloadSignalEnb_signalled (hSignalled : Signalled enb) :
    Signalled (overloadSignalEnb config global level now sendOk enb) := by
  rcases overloadSignalEnb_cases config now enb with hSame | ⟨hSetup, hLevel, hStart⟩ | hStop
  · rw [hSame]
    exact hSignalled
  · rw [hStart]
    constructor
    · intro _
      exact hSetup
    · have hSome : level ≠ 0 := by omega
      simp [ToldLast, signalStart, hSome]
  · rw [hStop]
    constructor
    · intro hNone
      exact absurd rfl hNone
    · simp [ToldLast, signalStop]

theorem storeLevel_signalled (hSignalled : Signalled enb) :
    Signalled (storeLevel config global now enb) := by
  unfold storeLevel
  split
  · exact hSignalled
  · exact hSignalled.of_same rfl rfl rfl

theorem Cell.tick_sound (cell : Cell) (hSound : cell.Sound) :
    (cell.tick config global now sendOk).Sound := by
  unfold Cell.tick tickEnb
  by_cases hOn : config.enabled = true
  · simp only [hOn, Bool.not_true, Bool.false_eq_true, if_false]
    constructor
    · simp [lastHotAfter, hSound.hot]
    · apply overloadSignalEnb_signalled
      exact storeLevel_signalled config global now hSound.signalled
  · simp only [hOn, Bool.not_false, if_true]
    constructor
    · simp only [lastHotAfter, enbLevel, hOn]
      split
      · simp [hSound.hot]
      · split <;> simp [hSound.hot]
    · split
      · exact hSound.signalled
      · split
        · constructor
          · intro hNone
            exact absurd rfl hNone
          · simp [ToldLast]
        · exact hSound.signalled

theorem Cell.congested_sound (depth : Int) (cell : Cell) (hSound : cell.Sound) :
    (cell.congested config global depth now sendOk).Sound := by
  unfold Cell.congested overloadEnbCongested
  constructor
  · simp [lastHotAfter, hSound.hot]
  · apply overloadSignalEnb_signalled
    apply storeLevel_signalled
    exact hSound.signalled.of_same rfl rfl rfl

variable {cause : Option RrcCause}

/- Every shed marks the eNB as hot, and nothing else does. -/
theorem admitOrdinary_hotAt :
    (admitOrdinary config global cause level now sendOk enb).2.hotAt =
      if (admitOrdinary config global cause level now sendOk enb).1 = true then enb.hotAt
      else now := by
  rcases initialUeTokenTake_eq config now enb with ⟨tokens, tokensAt, hTaken⟩
  unfold admitOrdinary
  simp only
  split
  · simp [shedAccount]
  · split
    · simp [shedAccount]
    · simp [hTaken]

theorem admitOrdinary_signalled (hSignalled : Signalled enb) :
    Signalled (admitOrdinary config global cause level now sendOk enb).2 := by
  rcases initialUeTokenTake_eq config now enb with ⟨tokens, tokensAt, hTaken⟩
  unfold admitOrdinary
  simp only [hTaken]
  split
  · apply overloadSignalEnb_signalled
    exact hSignalled.of_same rfl rfl rfl
  · split <;> exact hSignalled.of_same rfl rfl rfl

theorem Cell.admission_sound (cell : Cell) (hSound : cell.Sound) :
    (cell.admission config global cause now sendOk).Sound := by
  unfold Cell.admission admitInitialUe
  by_cases hOn : config.enabled = true
  · simp only [hOn, Bool.not_true, Bool.false_eq_true, if_false]
    have hStored := storeLevel_signalled config global now hSound.signalled
    split
    · exact ⟨by simp [lastHotAfter, hSound.hot], hStored⟩
    · constructor
      · rw [admitOrdinary_hotAt, storeLevel_hotAt]
        simp only [lastHotAfter, Bool.not_eq_true']
        grind [hSound.hot]
      · exact admitOrdinary_signalled config global now hStored
  · simp only [hOn, Bool.not_false, if_true]
    exact ⟨by simp [lastHotAfter, enbLevel, hOn, hSound.hot],
      hSound.signalled⟩

end Calls

theorem Cell.s1Setup_sound (cell : Cell) (hSound : cell.Sound) : cell.s1Setup.Sound := by
  constructor
  · exact hSound.hot
  · exact ⟨fun _ => rfl, hSound.signalled.last⟩

/- Changing one member of a list keeps what holds of all. -/
theorem forall_mem_modify {α : Type} {P : α → Prop} (xs : List α) (i : Nat) (f : α → α)
    (hAll : ∀ x ∈ xs, P x) (hChange : ∀ x, P x → P (f x)) : ∀ x ∈ xs.modify i f, P x := by
  intro x hMem
  rcases mem_iff_getElem?.mp hMem with ⟨j, hAt⟩
  rw [List.getElem?_modify] at hAt
  rcases Option.map_eq_some_iff.mp hAt with ⟨y, hOld, rfl⟩
  have hY := hAll y (mem_of_getElem? hOld)
  split
  · exact hChange y hY
  · exact hY

theorem overloadRuns_sound (hReach : overloadRuns.Reachable s) :
    ∀ cell ∈ s.cells, cell.Sound := by
  refine Faulty.System.Reachable.invariant (P := fun s => ∀ cell ∈ s.cells, cell.Sound) ?_ ?_ hReach
  · rintro s ⟨_, hNone⟩
    simp [hNone]
  · intro s op s' hAll hExec
    cases hExec
    cases op with
    | tick lag now sendOk =>
      intro cell hCell
      rcases mem_mapIdx.mp hCell with ⟨i, hLt, rfl⟩
      apply Cell.tick_sound
      exact hAll _ (getElem_mem hLt)
    | congested i depth now sendOk =>
      apply forall_mem_modify _ _ _ hAll
      exact Cell.congested_sound _ _ _ _
    | initialUe i cause now sendOk =>
      apply forall_mem_modify _ _ _ hAll
      exact Cell.admission_sound _ _ _
    | configure config => exact hAll
    | connect =>
      intro cell hCell
      rcases mem_append.mp hCell with hOld | hNew
      · exact hAll cell hOld
      · rw [mem_singleton.mp hNew]
        exact Cell.initial_sound
    | s1Setup i => exact forall_mem_modify _ _ _ hAll Cell.s1Setup_sound
    | disconnect i =>
      intro cell hCell
      exact hAll cell (mem_of_mem_eraseIdx hCell)

---- Releasing ----

/- The eNB has been told to stop, and this is kept. -/
def Released (enb : EnbOverload) : Prop := enb.signalledLevel = 0 ∧ enb.sent.head? = some .stop

instance (enb : EnbOverload) : Decidable (Released enb) := inferInstanceAs (Decidable (_ ∧ _))

/- An eNB that holds no START was released, if it ever was told. -/
theorem ToldLast.released (hLast : ToldLast enb) (hNone : enb.signalledLevel = 0)
    (hTold : enb.sent ≠ []) : Released enb := by
  unfold ToldLast at hLast
  rw [if_pos hNone] at hLast
  rcases hLast with hNever | hStop
  · contradiction
  · exact ⟨hNone, hStop⟩

section Calm

variable (config : OverloadConfig) (global : GlobalLevel) (now : Int) (enb : EnbOverload)

/- At level zero an eNB that was calm is released, if allowed. -/
theorem overloadSignalEnb_calm (hSignal : config.signalEnb = true)
    (hSetup : enb.s1SetupSuccess = true) (hThrottled : enb.signalledLevel ≠ 0)
    (hCalm : config.recoveryTime ≤ now - enb.hotAt) :
    overloadSignalEnb config global 0 now true enb = signalStop now enb := by
  have hMay : overloadMaySignal config global enb 0 now = true := by
    simp [overloadMaySignal, hSignal, hSetup]
  have hLong : ¬ (enb.hotAt ≠ 0 ∧ now - enb.hotAt < config.recoveryTime) := by omega
  unfold overloadSignalEnb
  rw [if_neg (by simp [hMay]), if_neg (by omega), if_neg hThrottled, if_neg hLong, if_pos rfl]

theorem overloadSignalEnb_silent (hSignal : config.signalEnb = false) : overloadSignalEnb config global level now sendOk enb = enb := by
  simp [overloadSignalEnb, overloadMaySignal, hSignal]

theorem overloadSignalEnb_none (hNone : enb.signalledLevel = 0) :
    overloadSignalEnb config global 0 now sendOk enb = enb := by
  simp [overloadSignalEnb, hNone]

/- A tick of an eNB at level zero, with overload control on. -/
theorem tickEnb_calm (hOn : config.enabled = true)
    (hLevel : enbLevel config global enb now = 0) : tickEnb config global now sendOk enb =
      overloadSignalEnb config global 0 now sendOk { enb with level := 0 } := by
  simp [tickEnb, storeLevel, hOn, hLevel]

theorem tickEnb_off (hOff : config.enabled = false) (hThrottled : enb.signalledLevel ≠ 0) :
    tickEnb config global now true enb =
      { enb with
        signalledLevel := 0
        sent := .stop :: enb.sent } := by
  simp [tickEnb, hOff, hThrottled]

/- When the tick releases an eNB that was told to throttle. -/
theorem tickEnb_released_iff (hSetup : enb.s1SetupSuccess = true)
    (hThrottled : enb.signalledLevel ≠ 0) (hLevel : enbLevel config global enb now = 0)
    (hCalm : config.recoveryTime ≤ now - enb.hotAt) :
    Released (tickEnb config global now true enb) ↔
      config.enabled = false ∨ config.signalEnb = true := by
  by_cases hOff : config.enabled = false
  · rw [tickEnb_off config global now enb hOff hThrottled]
    simp [Released, hOff]
  · have hOn : config.enabled = true := by simpa using hOff
    rw [tickEnb_calm config global now enb hOn hLevel]
    by_cases hSignal : config.signalEnb = true
    · rw [overloadSignalEnb_calm config global now
      { enb with level := 0 } hSignal hSetup hThrottled hCalm]
      simp [Released, signalStop, hSignal]
    · rw [overloadSignalEnb_silent config global now _ (by simpa using hSignal)]
      simp [Released, hThrottled, hOff, hSignal]

end Calm

/- An eNB that has been sent OVERLOAD START. -/
def Started (enb : EnbOverload) : Prop := ∃ message ∈ enb.sent, message ≠ .stop

instance (enb : EnbOverload) : Decidable (Started enb) :=
  inferInstanceAs (Decidable (∃ message ∈ enb.sent, _))

open OverloadState

/-
  In every run, a tick finds an eNB that was sent a START, is at level zero and has been calm for
  longer than the lease and the recovery interval. After it the eNB is released exactly when
  overload control is off, eNBs are signalled, or the eNB was released before.
-/
theorem overload_stop_by_tick_iff (s : OverloadState) (lag now : Int) (sendOk : Nat → Bool)
    (i : Nat) (cell after : Cell) (hReach : overloadRuns.Reachable s)
    (hCell : s.cells[i]? = some cell) (hAfter : (s.tick lag now sendOk).cells[i]? = some after)
    (hStarted : Started cell.enb)
    (hLevel : enbLevel s.config (tickGlobal s.config lag now s.global) cell.enb now = 0)
    (hCalm : now - cell.lastHot > s.config.leaseTime + s.config.recoveryTime)
    (hSend : sendOk i = true) :
    Released after.enb ↔ s.config.enabled = false ∨ s.config.signalEnb = true ∨
        cell.enb.signalledLevel = 0 := by
  have hSound := overloadRuns_sound hReach cell (mem_of_getElem? hCell)
  have hTicked : after.enb = tickEnb s.config (tickGlobal s.config lag now s.global)
    now true cell.enb := by
    simp only [tick, List.getElem?_mapIdx, hCell,
      Option.map_some, Option.some.injEq, hSend] at hAfter
    rw [← hAfter]
    rfl
  rw [hTicked]
  by_cases hNone : cell.enb.signalledLevel = 0
  · -- the STOP has been sent before, and the tick sends nothing
    have hTold : cell.enb.sent ≠ [] := by
      rcases hStarted with ⟨message, hMem, _⟩
      exact ne_nil_of_mem hMem
    have hBefore := hSound.signalled.last.released hNone hTold
    simp only [hNone, or_true, iff_true]
    by_cases hOn : s.config.enabled = true
    · rw [tickEnb_calm _ _ _ _ hOn hLevel, overloadSignalEnb_none _ _ _
      { cell.enb with level := 0 } hNone]
      exact hBefore
    · simpa [tickEnb, hOn, hNone] using hBefore
  · have hLease := s.config.leaseTime_pos
    have hLong : s.config.recoveryTime ≤ now - cell.enb.hotAt := by
      rw [hSound.hot]
      omega
    rw [tickEnb_released_iff _ _ _ _ (hSound.signalled.setup hNone) hNone hLevel hLong]
    simp [hNone]

/- One eNB is congested at the first second and sent a START. -/
def throttledRun : List OverloadOp := [.connect, .s1Setup 0, .congested 0 250 usecPerSec true]

def OverloadState.initial (config : OverloadConfig) : OverloadState where
  config := config
  global := GlobalLevel.initial
  cells := []

/- The eNB as that run leaves it. -/
def throttledCell : Cell where
  enb :=
    { EnbOverload.initial with
      s1SetupSuccess := true
      congestedAt := usecPerSec
      congestedDepth := 250
      level := 2
      hotAt := usecPerSec
      signalledLevel := 2
      signalledAt := usecPerSec
      sent := [.start 2 50] }
  lastHot := usecPerSec

theorem overload_stop_by_tick_signalled :
    ∃ s after, overloadRuns.run (initial overloadDefaults) throttledRun = .ok s ∧
        s.cells[0]? = some throttledCell ∧ (s.tick 0 (20 * usecPerSec) (fun _ => true)).cells[0]? =
          some after ∧ Released after.enb := by
  have hEnds : ∃ s, overloadRuns.run (initial overloadDefaults) throttledRun = .ok s ∧
    s = ⟨overloadDefaults, GlobalLevel.initial, [throttledCell]⟩ :=
    Faulty.System.exists_run (by decide +kernel)
  rcases hEnds with ⟨s, hRun, rfl⟩
  refine ⟨_, _, hRun, rfl, rfl, ?_⟩
  have hInit : overloadRuns.Init (initial overloadDefaults) := ⟨rfl, rfl⟩
  have hReach := Faulty.System.Reachable.run (.init hInit) hRun
  rw [overload_stop_by_tick_iff _ 0 (20 * usecPerSec)
    (fun _ => true) 0 throttledCell _ hReach rfl rfl
    (by decide +kernel) (by decide +kernel) (by decide +kernel) rfl]
  exact .inr (.inl rfl)

/-
  `signal_enb` is turned off while the eNB is throttled. It is calm for nineteen seconds, and the
  tick leaves it throttled.
-/
theorem silent_reload_keeps_throttle : ∃ s after,
      overloadRuns.run (initial overloadDefaults) (throttledRun ++ [.configure
              { overloadDefaults with signalEnb := false }]) = .ok s ∧
        s.cells[0]? = some throttledCell ∧ Started throttledCell.enb ∧ enbLevel s.config
            (tickGlobal s.config 0 (20 * usecPerSec) s.global)
            throttledCell.enb (20 * usecPerSec) = 0 ∧ 20 * usecPerSec - throttledCell.lastHot >
          s.config.leaseTime + s.config.recoveryTime ∧
        (s.tick 0 (20 * usecPerSec) (fun _ => true)).cells[0]? = some after ∧
        after.enb.signalledLevel = 2 ∧ after.enb.sent = [.start 2 50] ∧ ¬ Released after.enb := by
  have hEnds : ∃ s, overloadRuns.run (initial overloadDefaults) (throttledRun ++
    [.configure { overloadDefaults with signalEnb := false }]) = .ok s ∧
    s = ⟨{ overloadDefaults with signalEnb := false },
      GlobalLevel.initial, [throttledCell]⟩ := Faulty.System.exists_run (by decide +kernel)
  rcases hEnds with ⟨s, hRun, rfl⟩
  refine ⟨_, _, hRun, rfl, ?_, ?_, ?_, rfl, ?_, ?_, ?_⟩ <;> decide +kernel

end Pretty5gs.Mme
