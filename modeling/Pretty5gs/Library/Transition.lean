import Mathlib.Logic.Basic
import Mathlib.Tactic.Common

/-
  Transition systems whose steps may fault.

  A system has a set of initial states and a step function into `Except`: an `ok` result is the next
  state, an `error` result is an execution that stops with a fault. A run may be restricted to the
  steps that a predicate allows in the state they start from.

  Main results: `Faulty.Avoids`, `Faulty.System`, `Faulty.System.ReachableBy`,
  `Faulty.System.Reachable`, `Faulty.System.ReachableBy.invariant`, `Faulty.System.Reachable.run`,
  `Faulty.System.ReachableBy.run`.
-/

---- Fallible Computations ----

namespace Faulty

variable {ε α β : Type}

variable {x : Except ε α}

/- A successful bind is a successful first part and rest. -/
theorem bind_eq_ok {f : α → Except ε β} : (x >>= f) = .ok b ↔ ∃ a, x = .ok a ∧ f a = .ok b := by
  cases x with
  | error e => simp [bind, Except.bind]
  | ok a => simp [bind, Except.bind]

theorem map_eq_ok {f : α → β} (hMap : x.map f = .ok b) : ∃ a, x = .ok a ∧ f a = b := by
  cases x with
  | error e => cases hMap
  | ok a => exact ⟨a, rfl, Except.ok.inj hMap⟩

/- The computation does not stop with a bad fault. -/
def Avoids (Bad : ε → Prop) (x : Except ε α) : Prop := ∀ e, x = .error e → ¬ Bad e

variable {Bad : ε → Prop}

theorem avoids_ok : Avoids Bad (.ok a : Except ε α) := by
  intro e hError
  cases hError

theorem avoids_error (hGood : ¬ Bad e) : Avoids Bad (.error e : Except ε α) := by
  intro e' hError
  cases hError
  exact hGood

theorem Avoids.bind {f : α → Except ε β} (hFirst : Avoids Bad x)
    (hRest : ∀ a, x = .ok a → Avoids Bad (f a)) : Avoids Bad (x >>= f) := by
  cases x with
  | error e => exact avoids_error (hFirst e rfl)
  | ok a => exact hRest a rfl

theorem Avoids.map {f : α → β} (hFirst : Avoids Bad x) : Avoids Bad (x.map f) := by
  cases x with
  | error e => exact avoids_error (hFirst e rfl)
  | ok a => exact avoids_ok

end Faulty

---- Systems And Runs ----

namespace Faulty

/- Initial states and a step function that may fault. -/
structure System (σ ι φ : Type) where
  Init : σ → Prop
  exec : σ → ι → Except φ σ

namespace System

variable {σ ι φ : Type} (S : System σ ι φ)

/- States reached by runs whose steps are all allowed. -/
inductive ReachableBy (Allowed : σ → ι → Prop) : σ → Prop where
  | init {s : σ} (hInit : S.Init s) : ReachableBy Allowed s
  | step {s s' : σ} {i : ι} (hPrior : ReachableBy Allowed s) (hAllowed : Allowed s i)
      (hExec : S.exec s i = .ok s') :
      ReachableBy Allowed s'

/- States reached by any run. -/
def Reachable (s : σ) : Prop := S.ReachableBy (fun _ _ => True) s

variable {S}

variable {Allowed : σ → ι → Prop} {s : σ}

/- Every restricted run is a run. -/
theorem ReachableBy.reachable (hReach : S.ReachableBy Allowed s) : S.Reachable s := by
  induction hReach with
  | init hInit => exact .init hInit
  | step _ _ hExec ih => exact .step ih trivial hExec

variable {P : σ → Prop}

/-
  What holds initially and is kept by every allowed step from a reached state holds in every reached
  state.
-/
theorem ReachableBy.invariant (hInit : ∀ s, S.Init s → P s)
    (hStep : ∀ s i s', S.ReachableBy Allowed s → P s → Allowed s i → S.exec s i = .ok s' → P s')
    (hReach : S.ReachableBy Allowed s) : P s := by
  induction hReach with
  | init h => exact hInit _ h
  | step hPrior hAllowed hExec ih => exact hStep _ _ _ hPrior ih hAllowed hExec

/- The invariant rule for unrestricted runs. -/
theorem Reachable.invariant (hInit : ∀ s, S.Init s → P s)
    (hStep : ∀ s i s', P s → S.exec s i = .ok s' → P s') (hReach : S.Reachable s) : P s :=
  ReachableBy.invariant hInit (fun s i s' _ hP _ hExec => hStep s i s' hP hExec) hReach

variable (S)

/- Execute a list of steps, stopping at the first fault. -/
def run (s : σ) (steps : List ι) : Except φ σ :=
  match steps with
  | [] => .ok s
  | i :: rest =>
      match S.exec s i with
      | .error e => .error e
      | .ok s' => run s' rest

variable {S}

variable {steps : List ι}

/- Executing the steps shows that their run ends as it does. -/
theorem exists_run [DecidablePred P]
    (hEnds : (S.run s steps).toOption.any (fun s' => decide (P s')) = true) :
    ∃ s', S.run s steps = .ok s' ∧ P s' := by
  cases hRun : S.run s steps with
  | error e => simp [hRun, Except.toOption] at hEnds
  | ok s' =>
    refine ⟨s', rfl, ?_⟩
    simpa [hRun, Except.toOption] using hEnds

variable (S)

/- Every step of an execution is allowed where it starts. -/
def AllowedRun (Allowed : σ → ι → Prop) (s : σ) (steps : List ι) : Prop :=
  match steps with
  | [] => True
  | i :: rest =>
      Allowed s i ∧
        match S.exec s i with
        | .error _ => True
        | .ok s' => AllowedRun Allowed s' rest

instance decidableAllowedRun (Allowed : σ → ι → Prop) [∀ s i, Decidable (Allowed s i)] (s : σ)
    (steps : List ι) : Decidable (S.AllowedRun Allowed s steps) :=
  match steps with
  | [] => isTrue trivial
  | i :: rest =>
    match hExec : S.exec s i with
    | .error _ =>
      decidable_of_iff (Allowed s i) (by
        simp [AllowedRun, hExec])
    | .ok s' =>
      have := decidableAllowedRun Allowed s' rest
      decidable_of_iff (Allowed s i ∧ S.AllowedRun Allowed s' rest) (by
        simp [AllowedRun, hExec])

variable {S}

/- The final state of a run with allowed steps is reached. -/
theorem ReachableBy.run (hReach : S.ReachableBy Allowed s) (hAllowed : S.AllowedRun Allowed s steps)
    (hRun : S.run s steps = .ok s') : S.ReachableBy Allowed s' := by
  induction steps generalizing s with
  | nil =>
    cases hRun
    exact hReach
  | cons i rest ih =>
    cases hExec : S.exec s i with
    | error e => simp [System.run, hExec] at hRun
    | ok next =>
      simp only [System.run, hExec] at hRun
      simp only [AllowedRun, hExec] at hAllowed
      exact ih (.step hReach hAllowed.1 hExec) hAllowed.2 hRun

theorem allowedRun_of_forall (hAll : ∀ s i, Allowed s i) :
    S.AllowedRun Allowed s steps := by
  induction steps generalizing s with
  | nil => trivial
  | cons i rest ih =>
    refine ⟨hAll s i, ?_⟩
    split
    · trivial
    · exact ih

/- The same for unrestricted runs. -/
theorem Reachable.run (hReach : S.Reachable s) (hRun : S.run s steps = .ok s') : S.Reachable s' :=
  ReachableBy.run hReach (allowedRun_of_forall (fun _ _ => trivial)) hRun

end System

end Faulty
