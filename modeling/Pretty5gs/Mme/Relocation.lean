import Mathlib.Data.List.Nodup
import Mathlib.Data.List.Perm.Basic
import Mathlib.Logic.Equiv.Defs
import Mathlib.Logic.Function.Basic
import Pretty5gs.Core.Types

/-
  The plan of an SGW relocation.

  The second loop of the plan overwrites the arrays that its own test for a context that is kept
  reads. A PDN that moves has a group or a context to join at every point of the loop, so the test
  sees the PDNs that stay.

  Main results: `placePdns_placed`, `relocation_plan_meets`.
-/

---- The Plan ----

namespace Pretty5gs.Mme

open List

/- The inputs of `mme_gtpc_sgw_relocation_plan`. -/
structure Relocation where
  n : Int
  cur : Nat → Int
  want : Nat → Int
  nctx : Int
  ctxSgw : Nat → Int
  ctxReady : Nat → Bool

/- Its output arrays. -/
structure Plan where
  join : Nat → Int
  group : Nat → Int

namespace Relocation

/- The PDN wants an SGW other than that of its context. -/
def Moves (input : Relocation) (i : Nat) : Prop := 0 ≤ input.want i ∧ 0 ≤ input.cur i ∧
    input.cur i < input.nctx ∧ input.want i ≠ input.ctxSgw (input.cur i).toNat

instance (input : Relocation) (i : Nat) : Decidable (input.Moves i) :=
  inferInstanceAs (Decidable (_ ∧ _ ∧ _ ∧ _))

end Relocation

/- The body of the first loop. -/
def initPdn (input : Relocation) (plan : Plan) (i : Nat) : Plan :=
  let plan : Plan :=
    { join := Function.update plan.join i (-1)
      group := Function.update plan.group i (-1) }
  if input.Moves i then { plan with group := Function.update plan.group i (input.want i) }
  else plan

/- The first loop, up to a PDN. -/
def initPdns (input : Relocation) (plan : Plan) (count : Nat) : Plan :=
  match count with
  | 0 => plan
  | i + 1 => initPdn input (initPdns input plan i) i

/- The inner loop over the PDNs. -/
def keeps (input : Relocation) (plan : Plan) (c : Nat) : Bool :=
  (List.range input.n.toNat).any (fun j =>
    decide (input.cur j = c) && decide (plan.group j < 0) && decide (plan.join j < 0))

/- The loop over the contexts, with the one it stops at. -/
def findContext (input : Relocation) (plan : Plan) (sgw : Int) : Option Nat :=
  (List.range input.nctx.toNat).find? (fun c =>
    decide (input.ctxSgw c = sgw) && input.ctxReady c && keeps input plan c)

/- The PDN moves into a context. -/
def Plan.joins (plan : Plan) (i c : Nat) : Plan where
  join := Function.update plan.join i c
  group := Function.update plan.group i (-1)

/- The body of the second loop. -/
def placePdn (input : Relocation) (moving : Nat) (plan : Plan) (i : Nat) : Nat × Plan :=
  if plan.group i < 0 then (moving, plan)
  else (moving + 1, ((findContext input plan (input.want i)).map (plan.joins i)).getD plan)

/- The second loop, up to a PDN. -/
def placePdns (input : Relocation) (plan : Plan) (count : Nat) : Nat × Plan :=
  match count with
  | 0 => (0, plan)
  | i + 1 => placePdn input (placePdns input plan i).1 (placePdns input plan i).2 i

/- `mme_gtpc_sgw_relocation_plan` on arrays with any content. -/
def relocationPlan (input : Relocation) (plan : Plan) : Nat × Plan :=
  placePdns input (initPdns input plan input.n.toNat) input.n.toNat

---- The Decision For Each PDN ----

namespace Relocation

variable (input : Relocation)

/- A PDN that does not move is on the context. -/
def kept (c : Nat) : Bool := (List.range input.n.toNat).any (fun j =>
    decide (input.cur j = c) && !decide (input.Moves j))

/- The first context that a PDN can join for an SGW. -/
def target (sgw : Int) : Option Nat := (List.range input.nctx.toNat).find? (fun c =>
    decide (input.ctxSgw c = sgw) && input.ctxReady c && input.kept c)

def joinOf (i : Nat) : Int :=
  if input.Moves i then (input.target (input.want i)).elim (-1) (fun c => c)
  else -1

def groupOf (i : Nat) : Int :=
  if input.Moves i ∧ input.target (input.want i) = none then input.want i
  else -1

/- The decision of a PDN that moves is its SGW or a context. -/
theorem decided_of_moves (hMoves : input.Moves i) :
    (input.target (input.want i) = none ∧ input.joinOf i = -1 ∧ input.groupOf i = input.want i) ∨
      ∃ c, input.target (input.want i) = some c ∧ input.joinOf i = c ∧ input.groupOf i = -1 := by
  unfold joinOf groupOf
  cases hTarget : input.target (input.want i) with
  | none => simp [hMoves]
  | some c => simp [hMoves]

theorem decided_of_stays (hStays : ¬ input.Moves i) :
    input.joinOf i = -1 ∧ input.groupOf i = -1 := by
  simp [joinOf, groupOf, hStays]

/- What is known of the context that is joined. -/
theorem target_some (hTarget : input.target sgw = some c) :
    (c : Int) < input.nctx ∧ input.ctxSgw c = sgw ∧ input.ctxReady c = true ∧ ∃ j : Nat,
        (j : Int) < input.n ∧ ¬ input.Moves j ∧ input.cur j = c := by
  have hBelow := List.mem_of_find?_eq_some hTarget
  have hFound := List.find?_some hTarget
  rw [mem_range] at hBelow
  simp only [kept, Bool.and_eq_true, decide_eq_true_eq,
    any_eq_true, mem_range, Bool.not_eq_true', decide_eq_false_iff_not] at hFound
  rcases hFound with ⟨⟨hSgw, hReady⟩, j, hJ, hCur, hStays⟩
  exact ⟨by omega, hSgw, hReady, j, by omega, hStays, hCur⟩

end Relocation

---- The First Loop ----

variable (input : Relocation) (plan : Plan)

/- The arrays as the first loop leaves them at a PDN. -/
def InitializedAt (i : Nat) : Prop := plan.join i = -1 ∧ plan.group i =
      if input.Moves i then input.want i else -1

theorem initPdn_self : InitializedAt input (initPdn input plan i) i := by
  unfold InitializedAt initPdn
  by_cases hMoves : input.Moves i
  · simp [hMoves]
  · simp [hMoves]

theorem initPdn_of_ne (hNe : k ≠ i) :
    (initPdn input plan i).join k = plan.join k ∧
      (initPdn input plan i).group k = plan.group k := by
  unfold initPdn
  split
  · simp [hNe]
  · simp [hNe]

theorem initPdns_initialized (count i : Nat) (hBelow : i < count) :
    InitializedAt input (initPdns input plan count) i := by
  induction count with
  | zero => omega
  | succ count ih =>
    by_cases hLast : i = count
    · subst hLast
      exact initPdn_self input _
    · have hBefore := ih (by omega)
      have hKept := initPdn_of_ne input (initPdns input plan count) hLast
      unfold InitializedAt
      rw [initPdns, hKept.1, hKept.2]
      exact hBefore

---- The Second Loop ----

/- The second loop has decided on the first PDNs only. -/
structure Placed (input : Relocation) (plan : Plan) (count : Nat) : Prop where
  decided : ∀ i, i < count → i < input.n.toNat → plan.join i = input.joinOf i ∧
        plan.group i = input.groupOf i
  initialized : ∀ i, count ≤ i → i < input.n.toNat → InitializedAt input plan i

variable {count : Nat} {input : Relocation} {plan : Plan}

/- At every point of the loop the negative PDNs stay. -/
theorem Placed.negative_iff (hPlaced : Placed input plan count) (hBelow : i < input.n.toNat) :
    (plan.group i < 0 ∧ plan.join i < 0) ↔ ¬ input.Moves i := by
  by_cases hMoves : input.Moves i
  · have hWant : 0 ≤ input.want i := hMoves.1
    simp only [hMoves, not_true, iff_false]
    by_cases hDone : i < count
    · rcases hPlaced.decided i hDone hBelow with ⟨hJ, hG⟩
      rcases input.decided_of_moves hMoves with ⟨_, _, hNew⟩ | ⟨c, _, hContext, _⟩
      · omega
      · omega
    · have hInit := (hPlaced.initialized i (by omega) hBelow).2
      rw [if_pos hMoves] at hInit
      omega
  · simp only [hMoves, not_false_iff, iff_true]
    by_cases hDone : i < count
    · rcases hPlaced.decided i hDone hBelow with ⟨hJ, hG⟩
      rcases input.decided_of_stays hMoves with ⟨hJoin, hGroup⟩
      omega
    · rcases hPlaced.initialized i (by omega) hBelow with ⟨hJoin, hGroup⟩
      rw [if_neg hMoves] at hGroup
      omega

open Relocation

theorem Placed.keeps_eq (hPlaced : Placed input plan count) :
    keeps input plan c = input.kept c := by
  rw [Bool.eq_iff_iff]
  unfold keeps kept
  simp only [any_eq_true, mem_range, Bool.and_eq_true,
    decide_eq_true_eq, Bool.not_eq_true', decide_eq_false_iff_not]
  constructor
  · rintro ⟨j, hJ, ⟨hCur, hGroup⟩, hJoin⟩
    exact ⟨j, hJ, hCur, (hPlaced.negative_iff hJ).mp ⟨hGroup, hJoin⟩⟩
  · rintro ⟨j, hJ, hCur, hStays⟩
    rcases (hPlaced.negative_iff hJ).mpr hStays with ⟨hGroup, hJoin⟩
    exact ⟨j, hJ, ⟨hCur, hGroup⟩, hJoin⟩

theorem Placed.findContext_eq (hPlaced : Placed input plan count) :
    findContext input plan sgw = input.target sgw := by
  unfold findContext target
  simp only [hPlaced.keeps_eq]

variable (input : Relocation)

/- What one PDN adds to the count. -/
def Relocation.movingOne (i : Nat) : Nat := if input.Moves i then 1 else 0

/- One iteration decides on its PDN and no other. -/
theorem placePdn_placed (hPlaced : Placed input plan i) (hBelow : i < input.n.toNat) :
    (placePdn input moving plan i).1 = moving + input.movingOne i ∧
      Placed input (placePdn input moving plan i).2 (i + 1) := by
  rcases hPlaced.initialized i (Nat.le_refl i) hBelow with ⟨hJoin, hGroup⟩
  -- the entries of the other PDNs are those of before
  have hOthers : ∀ plan' : Plan, (∀ k, k ≠ i → plan'.join k = plan.join k ∧
    plan'.group k = plan.group k) → plan'.join i = input.joinOf i →
    plan'.group i = input.groupOf i → Placed input plan' (i + 1) := by
    intro plan' hSame hJoin' hGroup'
    constructor
    · intro k hDone hK
      by_cases hLast : k = i
      · subst hLast
        exact ⟨hJoin', hGroup'⟩
      · rw [(hSame k hLast).1, (hSame k hLast).2]
        exact hPlaced.decided k (by omega) hK
    · intro k hLater hK
      unfold InitializedAt
      rw [(hSame k (by omega)).1, (hSame k (by omega)).2]
      exact hPlaced.initialized k (by omega) hK
  by_cases hMoves : input.Moves i
  · have hWant : 0 ≤ input.want i := hMoves.1
    rw [if_pos hMoves] at hGroup
    have hCount : input.movingOne i = 1 := if_pos hMoves
    unfold placePdn
    rw [if_neg (by omega), hPlaced.findContext_eq, hCount]
    refine ⟨rfl, ?_⟩
    rcases input.decided_of_moves hMoves with ⟨hTarget, hJ, hG⟩ | ⟨c, hTarget, hJ, hG⟩
    · rw [hTarget]
      apply hOthers plan (fun k _ => ⟨rfl, rfl⟩)
      · rw [hJ, hJoin]
      · rw [hG, hGroup]
    · rw [hTarget]
      apply hOthers (plan.joins i c)
      · intro k hNe
        simp [Plan.joins, hNe]
      · simp [Plan.joins, hJ]
      · simp [Plan.joins, hG]
  · rw [if_neg hMoves] at hGroup
    have hCount : input.movingOne i = 0 := if_neg hMoves
    rcases input.decided_of_stays hMoves with ⟨hJ, hG⟩
    unfold placePdn
    rw [if_pos (by omega), hCount]
    refine ⟨rfl, ?_⟩
    apply hOthers plan (fun k _ => ⟨rfl, rfl⟩)
    · rw [hJ, hJoin]
    · rw [hG, hGroup]

/- Every iteration, by induction on the PDNs decided on. -/
theorem placePdns_placed (hInit : ∀ i, i < input.n.toNat → InitializedAt input plan i) (hBelow : count ≤ input.n.toNat) :
    (placePdns input plan count).1 = (List.range count).countP (fun i => decide (input.Moves i)) ∧
      Placed input (placePdns input plan count).2 count := by
  induction count with
  | zero =>
    refine ⟨rfl, ?_, ?_⟩
    · intro i hNone
      omega
    · intro i _ hI
      exact hInit i hI
  | succ count ih =>
    rcases ih (by omega) with ⟨hMoving, hPlaced⟩
    rcases placePdn_placed input hPlaced (by omega) with ⟨hOne, hNext⟩
    refine ⟨?_, hNext⟩
    rw [placePdns, hOne, hMoving, range_succ, countP_append, countP_singleton]
    simp only [movingOne, decide_eq_true_eq]

/- What the plan returns and leaves in its arrays. -/
theorem relocationPlan_eq :
    (relocationPlan input plan).1 = (List.range input.n.toNat).countP
          (fun i => decide (input.Moves i)) ∧ ∀ i : Nat, (i : Int) < input.n →
        (relocationPlan input plan).2.join i = input.joinOf i ∧
          (relocationPlan input plan).2.group i = input.groupOf i := by
  rcases placePdns_placed input
    (initPdns_initialized input plan input.n.toNat) (Nat.le_refl _) with
    ⟨hMoving, hPlaced⟩
  refine ⟨hMoving, ?_⟩
  intro i hI
  exact hPlaced.decided i (by omega) (by omega)

---- Order Of The PDNs ----

/- The same PDNs in another order. -/
def Relocation.reorder (order : Equiv.Perm Nat) : Relocation :=
  { input with
    cur := fun i => input.cur (order i)
    want := fun i => input.want (order i) }

section Reorder

variable {input : Relocation} {order : Equiv.Perm Nat}

@[simp] theorem reorder_moves : (input.reorder order).Moves i ↔ input.Moves (order i) := Iff.rfl

variable
  (hOrder :
    ∀ i : Nat, (order i : Int) < input.n ↔ (i : Int) < input.n)

include hOrder

theorem map_range_perm :
    ((List.range input.n.toNat).map order).Perm (List.range input.n.toNat) := by
  have hNodup : ((List.range input.n.toNat).map order).Nodup :=
    List.Nodup.map order.injective nodup_range
  rw [perm_ext_iff_of_nodup hNodup nodup_range]
  intro i
  simp only [mem_map, mem_range]
  constructor
  · rintro ⟨k, hK, rfl⟩
    have hBelow := (hOrder k).mpr (by omega)
    omega
  · intro hI
    have hBelow := hOrder (order.symm i)
    rw [Equiv.apply_symm_apply] at hBelow
    exact ⟨order.symm i, by omega, Equiv.apply_symm_apply _ _⟩

theorem kept_reorder : (input.reorder order).kept c = input.kept c := by
  have hPerm := map_range_perm hOrder
  unfold kept
  rw [← hPerm.any_eq, any_map]
  rfl

theorem target_reorder : (input.reorder order).target sgw = input.target sgw := by
  unfold target
  simp only [kept_reorder hOrder]
  rfl

theorem decided_reorder :
    (input.reorder order).joinOf i = input.joinOf (order i) ∧ (input.reorder order).groupOf i =
        input.groupOf (order i) := by
  unfold joinOf groupOf
  simp only [target_reorder hOrder, reorder_moves]
  exact ⟨rfl, rfl⟩

theorem moving_reorder :
    (List.range (input.reorder order).n.toNat).countP
        (fun i => decide ((input.reorder order).Moves i)) = (List.range input.n.toNat).countP
        (fun i => decide (input.Moves i)) := by
  have hPerm := map_range_perm hOrder
  rw [← hPerm.countP_eq, countP_map]
  rfl

end Reorder

---- The Plan Meets Its Purpose ----

/- What a plan is for. -/
structure Relocation.Meets (input : Relocation) (moving : Nat) (plan : Plan) : Prop where
  count : moving = (List.range input.n.toNat).countP (fun i => decide (input.Moves i))
  moves : ∀ i : Nat, (i : Int) < input.n → input.Moves i → (0 ≤ plan.join i ∧ plan.group i = -1) ∨
        (plan.join i = -1 ∧ plan.group i = input.want i)
  stays : ∀ i : Nat, (i : Int) < input.n → ¬ input.Moves i → plan.join i = -1 ∧ plan.group i = -1
  joined : ∀ i : Nat, (i : Int) < input.n → 0 ≤ plan.join i → ∃ c : Nat,
        plan.join i = c ∧ (c : Int) < input.nctx ∧ input.ctxReady c = true ∧
          input.ctxSgw c = input.want i ∧
          ∃ j : Nat, (j : Int) < input.n ∧ ¬ input.Moves j ∧ input.cur j = c
  shared : ∀ i j : Nat, (i : Int) < input.n → (j : Int) < input.n → input.Moves i → input.Moves j →
      input.want i = input.want j → plan.join i = plan.join j ∧ plan.group i = plan.group j

/-
  The plan counts the PDNs that move, gives each a context that is kept or a group, and does not
  depend on the order of the PDNs or on what the arrays held.
-/
theorem relocation_plan_meets (input : Relocation) (plan : Plan) :
    input.Meets (relocationPlan input plan).1 (relocationPlan input plan).2 ∧
      ∀ (order : Equiv.Perm Nat) (other : Plan), (∀ i : Nat, (order i : Int) < input.n ↔
          (i : Int) < input.n) → (relocationPlan (input.reorder order) other).1 =
            (relocationPlan input plan).1 ∧ ∀ i : Nat, (i : Int) < input.n →
            (relocationPlan (input.reorder order) other).2.join i =
                (relocationPlan input plan).2.join (order i) ∧
              (relocationPlan (input.reorder order) other).2.group i =
                (relocationPlan input plan).2.group (order i) := by
  rcases relocationPlan_eq input with ⟨hMoving, hDecided⟩
  refine ⟨⟨hMoving, ?_, ?_, ?_, ?_⟩, ?_⟩
  · intro i hI hMoves
    rw [(hDecided i hI).1, (hDecided i hI).2]
    rcases input.decided_of_moves hMoves with ⟨_, hJoin, hGroup⟩ | ⟨c, _, hJoin, hGroup⟩
    · exact .inr ⟨hJoin, hGroup⟩
    · exact .inl ⟨by omega, hGroup⟩
  · intro i hI hStays
    rw [(hDecided i hI).1, (hDecided i hI).2]
    exact input.decided_of_stays hStays
  · intro i hI hJoins
    rw [(hDecided i hI).1] at hJoins ⊢
    have hMoves : input.Moves i := by
      by_contra hStays
      have hNone := (input.decided_of_stays hStays).1
      omega
    rcases input.decided_of_moves hMoves with ⟨_, hJoin, _⟩ | ⟨c, hTarget, hJoin, _⟩
    · omega
    · rcases input.target_some hTarget with ⟨hBelow, hSgw, hReady, hStayer⟩
      exact ⟨c, hJoin, hBelow, hReady, hSgw, hStayer⟩
  · intro i j hI hJ hMovesI hMovesJ hWant
    rw [(hDecided i hI).1, (hDecided i hI).2, (hDecided j hJ).1, (hDecided j hJ).2]
    unfold joinOf groupOf
    simp only [hMovesI, hMovesJ, hWant, true_and, if_true, and_self]
  · intro order other hOrder
    rcases relocationPlan_eq (input.reorder order) with ⟨hMoving', hDecided'⟩
    refine ⟨?_, ?_⟩
    · rw [hMoving', hMoving]
      exact moving_reorder hOrder
    · intro i hI
      have hThere := hDecided (order i) ((hOrder i).mpr hI)
      have hHere := hDecided' i hI
      rw [hThere.1, hThere.2, hHere.1, hHere.2]
      exact decided_reorder hOrder

end Pretty5gs.Mme
