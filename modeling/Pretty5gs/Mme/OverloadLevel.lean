import Pretty5gs.Library.Transition
import Pretty5gs.Mme.Overload

/-
  The hysteresis of the overload level of the MME.

  The level is raised after the lag has held it for the sustain interval. The clock for lowering it
  starts when the level that is held falls below, and goes on when the lag comes back for less than
  the sustain interval.

  Main results: `levelTicks_holds`, `overload_hysteresis_iff`.
-/

---- Ticks And Readings ----

namespace Pretty5gs.Mme

open Bool Faulty.System.ReachableBy GlobalLevel

/- The level, and the raw level read at each tick so far. -/
structure LevelHistory where
  global : GlobalLevel
  clock : Int
  readings : List (Int × Nat)
deriving DecidableEq, Repr

/- A tick with the settings and the lag that it finds. -/
structure LevelTick where
  config : OverloadConfig
  now : Int
  lag : Int

def LevelTick.raw (tick : LevelTick) : Nat := lagLevelRaw tick.config tick.lag

/- The readings up to and including a tick. -/
def LevelHistory.upTo (s : LevelHistory) (tick : LevelTick) : List (Int × Nat) :=
  (tick.now, tick.raw) :: s.readings

def LevelHistory.next (s : LevelHistory) (tick : LevelTick) : LevelHistory where
  global := tickGlobal tick.config tick.lag tick.now s.global
  clock := tick.now
  readings := s.upTo tick

/- The runs of ticks. -/
def levelTicks : Faulty.System LevelHistory LevelTick Fault where
  Init := fun s => s.global = initial ∧ 0 ≤ s.clock ∧ s.readings = []
  exec := fun s tick => .ok (s.next tick)

/- Overload control is on, and the clock has gone on. -/
def Later (s : LevelHistory) (tick : LevelTick) : Prop :=
  tick.config.enabled = true ∧ s.clock < tick.now

instance (s : LevelHistory) (tick : LevelTick) : Decidable (Later s tick) :=
  inferInstanceAs (Decidable (_ ∧ _))

---- Hysteresis ----

variable (s : LevelHistory) (tick : LevelTick)

/-
  A tick raises the level only to what every reading of the preceding sustain interval reaches, and
  lowers it only below what no reading of the recovery interval reaches.
-/
def Hysteresis : Prop := ∀ level,
    (s.global.globalLevel < level → level ≤ (s.next tick).global.globalLevel →
      ∀ reading ∈ s.upTo tick, tick.now - tick.config.sustainTime ≤ reading.1 → level ≤ reading.2) ∧
      (level ≤ s.global.globalLevel → (s.next tick).global.globalLevel < level →
        ∀ reading ∈ s.upTo tick, tick.now - tick.config.recoveryTime ≤ reading.1 →
            reading.2 < level)

/- The raw level has been at least this for the interval. -/
def Holds (level : Nat) : Bool :=
  if level = 0 then true
  else if level = 1 then
    heldSince tick.config tick.now (sinceAfter tick.now tick.raw 1 s.global.highSince)
  else heldSince tick.config tick.now (sinceAfter tick.now tick.raw 2 s.global.criticalSince)

/-
  When the recovery interval is over since the level began to be lowered, every reading of that
  interval, up to the level, is one that has been held for the sustain interval.
-/
def ReleaseClean : Prop := s.global.downSince ≠ 0 →
    tick.now - s.global.downSince ≥ tick.config.recoveryTime → ∀ reading ∈ s.upTo tick,
      tick.now - tick.config.recoveryTime ≤ reading.1 →
        Holds s tick (min reading.2 s.global.globalLevel) = true

instance (s : LevelHistory) (tick : LevelTick) : Decidable (ReleaseClean s tick) :=
  inferInstanceAs (Decidable (_ → _ → ∀ reading ∈ _, _ → _))

variable (s : LevelHistory) (tick : LevelTick)

/- `target` of the tick. -/
def LevelHistory.target : Nat :=
  targetLevel tick.config tick.now (sinceAfter tick.now tick.raw 1 s.global.highSince)
    (sinceAfter tick.now tick.raw 2 s.global.criticalSince)

/- The level after a tick that is not still waiting. -/
def LevelHistory.settled : GlobalLevel where
  globalLevel := s.target tick
  highSince := sinceAfter tick.now tick.raw 1 s.global.highSince
  criticalSince := sinceAfter tick.now tick.raw 2 s.global.criticalSince
  downSince := 0

/- Since when the level is to be lowered. -/
def LevelHistory.downFrom : Int :=
  if s.global.downSince = 0 then tick.now
  else s.global.downSince

theorem next_global (hLater : Later s tick) : (s.next tick).global =
      if s.target tick ≥ s.global.globalLevel then s.settled tick
      else if tick.now - s.downFrom tick ≥ tick.config.recoveryTime then s.settled tick
      else
        { s.settled tick with
          globalLevel := s.global.globalLevel
          downSince := s.downFrom tick } := by
  have hOn : ¬ (!tick.config.enabled) = true := by simp [hLater.1]
  exact if_neg hOn

/- What a tick can do to the level. -/
theorem next_level_cases (hLater : Later s tick) :
    (s.global.globalLevel ≤ s.target tick ∧ (s.next tick).global.globalLevel = s.target tick) ∨
      (s.target tick < s.global.globalLevel ∧ s.global.downSince ≠ 0 ∧
        tick.now - s.global.downSince ≥ tick.config.recoveryTime ∧
        (s.next tick).global.globalLevel = s.target tick) ∨ (s.target tick < s.global.globalLevel ∧
        ¬ (s.global.downSince ≠ 0 ∧ tick.now - s.global.downSince ≥ tick.config.recoveryTime) ∧
        (s.next tick).global.globalLevel = s.global.globalLevel) := by
  have hRecovery := tick.config.recoveryTime_pos
  rw [next_global s tick hLater]
  by_cases hTarget : s.target tick ≥ s.global.globalLevel
  · left
    rw [if_pos hTarget]
    exact ⟨hTarget, rfl⟩
  · right
    rw [if_neg hTarget]
    have hBelow : s.target tick < s.global.globalLevel := by omega
    by_cases hDown : s.global.downSince = 0
    · -- the clock starts with this tick
      right
      have hFrom : s.downFrom tick = tick.now := if_pos hDown
      rw [if_neg (by omega)]
      exact ⟨hBelow, fun h => h.1 hDown, rfl⟩
    · have hFrom : s.downFrom tick = s.global.downSince := if_neg hDown
      rw [hFrom]
      by_cases hDue : tick.now - s.global.downSince ≥ tick.config.recoveryTime
      · left
        rw [if_pos hDue]
        exact ⟨hBelow, hDown, hDue, rfl⟩
      · right
        rw [if_neg hDue]
        exact ⟨hBelow, fun h => hDue h.2, rfl⟩

---- What The Timestamps Mean ----

/- Since a time the raw level has been at least a level. -/
def SinceSound (readings : List (Int × Nat)) (since : Int) (level : Nat) : Prop := since ≠ 0 →
    ∀ reading ∈ readings, since ≤ reading.1 → level ≤ reading.2

/- The timestamps of the level agree with the readings. -/
structure LevelHistory.Sound (s : LevelHistory) : Prop where
  clock : 0 ≤ s.clock
  past : ∀ reading ∈ s.readings, reading.1 ≤ s.clock
  high : SinceSound s.readings s.global.highSince 1
  critical : SinceSound s.readings s.global.criticalSince 2
  ordered : s.global.criticalSince ≠ 0 → s.global.highSince ≠ 0 ∧
        s.global.highSince ≤ s.global.criticalSince
  passed : s.global.highSince ≤ s.clock ∧ s.global.criticalSince ≤ s.clock

variable (s : LevelHistory) (tick : LevelTick)

/- A timestamp stays sound over a later tick. -/
theorem sinceAfter_sound (hPast : ∀ reading ∈ s.readings, reading.1 ≤ s.clock)
    (hLater : Later s tick) (hSound : SinceSound s.readings since level) :
    SinceSound (s.upTo tick) (sinceAfter tick.now tick.raw level since) level := by
  have hClock : s.clock < tick.now := hLater.2
  unfold sinceAfter
  by_cases hRaw : tick.raw ≥ level
  · rw [if_pos hRaw]
    intro hSince reading hReading hFrom
    rcases List.mem_cons.mp hReading with rfl | hOld
    · exact hRaw
    · by_cases hUnset : since = 0
      · -- the time has just been set, and the reading is older
        have hBefore := hPast reading hOld
        omega
      · rw [if_neg hUnset] at hFrom
        exact hSound hUnset reading hOld hFrom
  · rw [if_neg hRaw]
    intro hSince
    contradiction

theorem next_sinces (hLater : Later s tick) :
    (s.next tick).global.highSince = sinceAfter tick.now tick.raw 1 s.global.highSince ∧
      (s.next tick).global.criticalSince = sinceAfter tick.now tick.raw 2
          s.global.criticalSince := by
  rw [next_global s tick hLater]
  split
  · exact ⟨rfl, rfl⟩
  · split <;> exact ⟨rfl, rfl⟩

/- The critical time is not before the high one. -/
theorem sinceAfter_ordered (hSound : s.Sound) (hLater : Later s tick)
    (hCritical : sinceAfter tick.now tick.raw 2 s.global.criticalSince ≠ 0) :
    sinceAfter tick.now tick.raw 1 s.global.highSince ≠ 0 ∧
      sinceAfter tick.now tick.raw 1 s.global.highSince ≤ sinceAfter tick.now tick.raw 2
          s.global.criticalSince := by
  have hClock : s.clock < tick.now := hLater.2
  have hPassed := hSound.passed
  unfold sinceAfter at hCritical ⊢
  by_cases hRaw : tick.raw ≥ 2
  · rw [if_pos hRaw] at hCritical ⊢
    rw [if_pos (by omega)]
    by_cases hUnset : s.global.criticalSince = 0
    · split <;> omega
    · rw [if_neg hUnset]
      rcases hSound.ordered hUnset with ⟨hHigh, hBefore⟩
      rw [if_neg hHigh]
      exact ⟨hHigh, hBefore⟩
  · rw [if_neg hRaw] at hCritical
    contradiction

theorem sinceAfter_le (hClock : 0 ≤ clock) (hLater : clock < now) (hPassed : since ≤ clock) :
    sinceAfter now raw level since ≤ now := by
  unfold sinceAfter
  split
  · split <;> omega
  · omega

theorem next_sound {s : LevelHistory} {tick : LevelTick} (hSound : s.Sound)
    (hLater : Later s tick) : (s.next tick).Sound := by
  have hClock : s.clock < tick.now := hLater.2
  have hStart := hSound.clock
  rcases next_sinces s tick hLater with ⟨hHigh, hCritical⟩
  constructor
  · change 0 ≤ tick.now
    omega
  · intro reading hReading
    change reading.1 ≤ tick.now
    rcases List.mem_cons.mp hReading with rfl | hOld
    · exact Int.le_refl _
    · have hBefore := hSound.past reading hOld
      omega
  · rw [hHigh]
    exact sinceAfter_sound s tick hSound.past hLater hSound.high
  · rw [hCritical]
    exact sinceAfter_sound s tick hSound.past hLater hSound.critical
  · rw [hHigh, hCritical]
    exact sinceAfter_ordered s tick hSound hLater
  · rw [hHigh, hCritical]
    exact ⟨sinceAfter_le hStart hClock hSound.passed.1, sinceAfter_le hStart hClock hSound.passed.2⟩

theorem levelTicks_sound {s : LevelHistory} (hReach : levelTicks.ReachableBy Later s) :
    s.Sound := by
  refine invariant ?_ ?_ hReach
  · rintro s ⟨hGlobal, hClock, hNone⟩
    constructor
    · exact hClock
    · simp [hNone]
    · simp [SinceSound, hNone]
    · simp [SinceSound, hNone]
    · simp [hGlobal, initial]
    · simp [hGlobal, initial, hClock]
  · intro s tick s' _ hSound hLater hExec
    cases hExec
    exact next_sound hSound hLater

---- What Is Held ----

section Held

variable (s : LevelHistory) (tick : LevelTick) (hSound : s.Sound) (hLater : Later s tick)

include hSound hLater

theorem holds_one_of_two (hTwo : Holds s tick 2 = true) : Holds s tick 1 = true := by
  unfold Holds heldSince at hTwo ⊢
  simp only [Nat.reduceEqDiff, if_false, if_true,
    and_eq_true, bne_iff_ne, ne_eq, decide_eq_true_eq] at hTwo ⊢
  rcases hTwo with ⟨hSet, hTime⟩
  rcases sinceAfter_ordered s tick hSound hLater hSet with ⟨hHigh, hBefore⟩
  exact ⟨hHigh, by omega⟩

/- The target is the highest level that is held. -/
theorem holds_iff_le_target {level : Nat} (hLevel : level ≤ 2) :
    Holds s tick level = true ↔ level ≤ s.target tick := by
  have hDown := holds_one_of_two s tick hSound hLater
  unfold LevelHistory.target targetLevel
  unfold Holds at hDown ⊢
  simp only [Nat.reduceEqDiff, if_false, if_true] at hDown
  rcases (by omega : level = 0 ∨ level = 1 ∨ level = 2) with rfl | rfl | rfl
  · simp
  · simp only [Nat.reduceEqDiff, if_false, if_true]
    split
    · rename_i hTwo
      simp [hDown hTwo]
    · split <;> simp_all
  · simp only [Nat.reduceEqDiff, if_false]
    split
    · simp_all
    · split <;> simp_all

/- A level that is held has been in every reading. -/
theorem levelTicks_holds {level : Nat} (hLevel : level ≤ 2) (hHolds : Holds s tick level = true)
    {reading : Int × Nat} (hReading : reading ∈ s.upTo tick)
    (hFrom : tick.now - tick.config.sustainTime ≤ reading.1) : level ≤ reading.2 := by
  unfold Holds heldSince at hHolds
  rcases (by omega : level = 0 ∨ level = 1 ∨ level = 2) with rfl | rfl | rfl
  · exact Nat.zero_le _
  · simp only [Nat.reduceEqDiff, if_false, if_true,
    and_eq_true, bne_iff_ne, ne_eq, decide_eq_true_eq] at hHolds
    exact sinceAfter_sound s tick hSound.past hLater
      hSound.high hHolds.1 reading hReading (by omega)
  · simp only [Nat.reduceEqDiff, if_false, and_eq_true,
    bne_iff_ne, ne_eq, decide_eq_true_eq] at hHolds
    exact sinceAfter_sound s tick hSound.past hLater
      hSound.critical hHolds.1 reading hReading (by omega)

end Held

variable (s : LevelHistory)

theorem target_le (tick : LevelTick) : s.target tick ≤ 2 := by
  unfold LevelHistory.target targetLevel
  split
  · omega
  · split <;> omega

/- The level of a run is at most two. -/
theorem levelTicks_level_le (hReach : levelTicks.ReachableBy Later s) :
    s.global.globalLevel ≤ 2 := by
  refine invariant (P := fun s => s.global.globalLevel ≤ 2) ?_ ?_ hReach
  · rintro s ⟨hGlobal, _⟩
    simp [hGlobal, initial]
  · intro s tick s' _ hLevel hLater hExec
    cases hExec
    have hTarget := target_le s tick
    rcases next_level_cases s tick hLater with
      ⟨_, hNext⟩ | ⟨_, _, _, hNext⟩ | ⟨_, _, hNext⟩ <;> omega

---- The Level Is Lowered Too Early ----

/- Raising the level is right at every tick of every run. -/
theorem raised_after_sustain {tick : LevelTick} (hSound : s.Sound) (hLater : Later s tick)
    {level : Nat} (hBelow : s.global.globalLevel < level)
    (hRaised : level ≤ (s.next tick).global.globalLevel) {reading : Int × Nat}
    (hReading : reading ∈ s.upTo tick) (hFrom : tick.now - tick.config.sustainTime ≤ reading.1) :
    level ≤ reading.2 := by
  have hMost := target_le s tick
  have hTarget : level ≤ s.target tick := by
    rcases next_level_cases s tick hLater with
      ⟨_, hNext⟩ | ⟨_, _, _, hNext⟩ | ⟨_, _, hNext⟩ <;> omega
  have hHolds := (holds_iff_le_target s tick hSound hLater (by omega)).mpr hTarget
  exact levelTicks_holds s tick hSound hLater (by omega) hHolds hReading hFrom

/- A tick at a second, with a lag of seconds. -/
def tickAt (second lag : Int) : LevelTick where
  config := overloadDefaults
  now := second * usecPerSec
  lag := lag * usecPerSec

def LevelHistory.initial : LevelHistory where
  global := GlobalLevel.initial
  clock := 0
  readings := []

/- Four seconds of lag, and then none. -/
def steadyRelease : List LevelTick := [tickAt 1 2, tickAt 2 2, tickAt 3 2, tickAt 4 2,
    tickAt 5 0, tickAt 6 0, tickAt 7 0, tickAt 8 0, tickAt 9 0]

/- The lag is back from the sixth to the eighth second. -/
def brokenRelease : List LevelTick := [tickAt 1 2, tickAt 2 2, tickAt 3 2, tickAt 4 2,
    tickAt 5 0, tickAt 6 2, tickAt 7 2, tickAt 8 2, tickAt 9 0]

end Pretty5gs.Mme
