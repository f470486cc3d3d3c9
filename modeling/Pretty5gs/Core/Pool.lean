import Pretty5gs.Core.Types
import Pretty5gs.Library.NodeRing

/-
  The node pools of `ogs-pool.h`.

  The `free` array of a pool is a ring of node pointers. The `index` array and the peak are not part
  of the model.

  Main results: `ogsPoolAlloc_cases`, `ogsPoolRandomIdGenerate_perm`.
-/

namespace Pretty5gs

variable {α : Type}

def ogsPoolInit (array : List α) : NodeRing α := NodeRing.full array

/- A NULL node has no place in the array of the pool. -/
def ogsPoolAlloc (pool : NodeRing α) : Except Fault (Option α × NodeRing α) :=
  match pool.take with
  | none => .ok (none, pool)
  | some (none, _) => .error (.outOfBounds (-1))
  | some (some node, behind) => .ok (some node, behind)

def ogsPoolFree (pool : NodeRing α) (node : α) : NodeRing α := pool.put node

/- The pool is exhausted, or a node is taken from it. -/
theorem ogsPoolAlloc_cases {pool : NodeRing α} (hPool : pool.Pooled taken nodes) :
    (pool.avail = 0 ∧ ogsPoolAlloc pool = .ok (none, pool)) ∨ ∃ node behind,
        ogsPoolAlloc pool = .ok (some node, behind) ∧ behind.Pooled (node :: taken) nodes := by
  unfold ogsPoolAlloc
  rcases hPool.take_cases with ⟨hNone, hTake⟩ | ⟨node, behind, hTake, hBehind⟩
  · left
    rw [hTake]
    exact ⟨hNone, rfl⟩
  · right
    rw [hTake]
    exact ⟨node, behind, rfl, hBehind⟩

---- Identifiers ----

/- One turn of xorshift64. -/
def xorshift (seed : BitVec 64) : BitVec 64 :=
  let first := seed ^^^ (seed <<< 13)
  let second := first ^^^ (first >>> 7)
  second ^^^ (second <<< 17)

/- The loop of the shuffle from an index down to 1. -/
def shuffle : Nat → BitVec 64 → List Nat → List Nat
  | 0, _, array => array
  | i + 1, seed, array =>
      shuffle i (xorshift seed) (array.swap (i + 1) ((xorshift seed).toNat % (i + 2)))

/- `ogs_pool_random_id_generate` from a random seed. -/
def ogsPoolRandomIdGenerate (seed : BitVec 64) (size : Nat) : List Nat :=
  shuffle (size - 1) (seed ||| 1) (List.range' 1 size)

theorem shuffle_perm :
    (shuffle i seed array).Perm array := by
  induction i generalizing seed array with
  | zero => exact .refl _
  | succ i ih => exact (ih).trans (List.swap_perm _ _ _)

theorem ogsPoolRandomIdGenerate_perm (seed : BitVec 64) (size : Nat) :
    (ogsPoolRandomIdGenerate seed size).Perm (List.range' 1 size) := shuffle_perm

end Pretty5gs
