import Mathlib.Data.List.Basic
import Mathlib.Data.List.Nodup
import Mathlib.Data.List.Perm.Basic
import Mathlib.Data.Nat.ModEq

/-
  Pools of nodes that are handed out and given back through a ring.

  The ring is an array of slots with a head to take from and a tail to put to, of which only the
  first `size` slots are in use. The nodes that can be taken are a queue.

  Main results: `NodeRing.Represents.take_cons` and `NodeRing.Represents.put`,
  `NodeRing.Pooled.take_cases` and `NodeRing.Pooled.put`, `NodeRing.perm_taken_eraseIdx`.
-/

---- Rings ----

structure NodeRing (α : Type) where
  slots : List (Option α)
  size : Nat
  head : Nat
  tail : Nat
  avail : Nat
deriving DecidableEq, Repr

namespace NodeRing

open List

variable {α : Type}

/- A ring that holds as many nodes as it has slots. -/
def full (nodes : List α) : NodeRing α where
  slots := nodes.map some
  size := nodes.length
  head := 0
  tail := 0
  avail := nodes.length

variable (ring : NodeRing α)

/- Only the first slots are used from now on. -/
def shrink (size : Nat) : NodeRing α := { ring with size := size, avail := size }

/- The ring behind its head. -/
def advance : NodeRing α :=
  { ring with
    avail := ring.avail - 1
    slots := ring.slots.set ring.head none
    head := (ring.head + 1) % ring.size }

/- What the slot at the head holds, and the ring behind it. -/
def take : Option (Option α × NodeRing α) :=
  if 0 < ring.avail then some ((ring.slots[ring.head]?).join, ring.advance)
  else none

/- A full ring stays as it is. -/
def put (node : α) : NodeRing α :=
  if ring.avail < ring.size then
    { ring with
      avail := ring.avail + 1
      slots := ring.slots.set ring.tail (some node)
      tail := (ring.tail + 1) % ring.size }
  else ring

@[simp] theorem put_size : (ring.put node).size = ring.size := by
  unfold put
  split <;> rfl

---- The Queue Of A NodeRing ----

/- From the head on, the slots hold the queue. -/
structure Represents (ring : NodeRing α) (queue : List α) : Prop where
  avail : ring.avail = queue.length
  fits : queue.length ≤ ring.size
  room : ring.size ≤ ring.slots.length
  tail : ring.tail = (ring.head + queue.length) % ring.size
  head : 0 < ring.size → ring.head < ring.size
  holds : ∀ i, i < queue.length → ring.slots[(ring.head + i) % ring.size]? = some queue[i]?

/- Places of a ring less than a turn apart are different. -/
theorem add_mod_inj {size start i j : Nat} (hI : i < size) (hJ : j < size)
    (hSame : (start + i) % size = (start + j) % size) : i = j := by
  have hCancel : i ≡ j [MOD size] := Nat.ModEq.add_left_cancel' start hSame
  exact hCancel.eq_of_lt_of_lt hI hJ

theorem represents_shrink_full {size : Nat} (hSize : size ≤ nodes.length) :
    ((full nodes).shrink size).Represents (nodes.take size) where
  avail := by
    rw [length_take, Nat.min_eq_left hSize]
    rfl
  fits := by
    rw [length_take, Nat.min_eq_left hSize]
    exact Nat.le_refl _
  room := by
    show size ≤ (nodes.map some).length
    rwa [length_map]
  tail := by
    rw [length_take, Nat.min_eq_left hSize]
    show 0 = (0 + size) % size
    rw [Nat.zero_add, Nat.mod_self]
  head hPositive := hPositive
  holds i hLess := by
    rw [length_take, Nat.min_eq_left hSize] at hLess
    show (nodes.map some)[(0 + i) % size]? = _
    rw [Nat.zero_add, Nat.mod_eq_of_lt hLess, List.getElem?_map, List.getElem?_take_of_lt hLess,
      List.getElem?_eq_getElem (Nat.lt_of_lt_of_le hLess hSize)]
    rfl

namespace Represents

variable {ring : NodeRing α} {queue : List α} {node : α}

theorem take_nil (hRing : ring.Represents []) : ring.take = none := by
  have hNone := hRing.avail
  rw [length_nil] at hNone
  rw [take, hNone, if_neg (Nat.lt_irrefl 0)]

/- Taking gives the node in front. -/
theorem take_cons (hRing : ring.Represents (node :: queue)) :
    ∃ behind, ring.take = some (some node, behind) ∧ behind.Represents queue ∧
      behind.size = ring.size := by
  have hAvail := hRing.avail
  have hFits := hRing.fits
  rw [length_cons] at hAvail hFits
  have hHead := hRing.head (by omega)
  have hFront : ring.slots[ring.head]? = some (some node) := by
    have hHolds := hRing.holds 0 (by
      rw [length_cons]
      omega)
    rwa [Nat.add_zero, Nat.mod_eq_of_lt hHead, List.getElem?_cons_zero] at hHolds
  refine ⟨ring.advance, ?_, ?_, rfl⟩
  · rw [take, if_pos (by omega), hFront]
    rfl
  · constructor
    · show ring.avail - 1 = _
      omega
    · show queue.length ≤ ring.size
      omega
    · show ring.size ≤ (ring.slots.set ring.head none).length
      rw [length_set]
      exact hRing.room
    · show ring.tail = ((ring.head + 1) % ring.size + queue.length) % ring.size
      rw [Nat.mod_add_mod, hRing.tail, length_cons, Nat.add_assoc, Nat.add_comm 1]
    · exact fun hPositive => Nat.mod_lt _ hPositive
    · intro i hLess
      show (ring.slots.set ring.head none)[ ((ring.head + 1) % ring.size + i) % ring.size]? = _
      have hHolds := hRing.holds (i + 1) (by
        rw [length_cons]
        omega)
      -- the slot that was emptied is behind the queue
      have hOther : ring.head ≠ (ring.head + (i + 1)) % ring.size := by
        intro hSame
        have hZero : (ring.head + 0) % ring.size = (ring.head + (i + 1)) % ring.size := by
          rw [← hSame, Nat.add_zero, Nat.mod_eq_of_lt hHead]
        have hNever := add_mod_inj (by omega) (by omega) hZero
        omega
      rw [Nat.mod_add_mod, Nat.add_assoc, Nat.add_comm 1, List.getElem?_set_ne hOther, hHolds,
        List.getElem?_cons_succ]

/- What is put comes behind the queue. -/
theorem put (hRing : ring.Represents queue) (hRoom : queue.length < ring.size) :
    (ring.put node).Represents (queue ++ [node]) := by
  have hAvail := hRing.avail
  have hLength := hRing.room
  have hTail : ring.tail < ring.slots.length := by
    have hLess := Nat.mod_lt (ring.head + queue.length) (show ring.size > 0 by omega)
    rw [← hRing.tail] at hLess
    omega
  rw [NodeRing.put, if_pos (by omega)]
  constructor
  · rw [length_append, length_singleton, hAvail]
  · rw [length_append]
    exact hRoom
  · rw [length_set]
    exact hLength
  · rw [hRing.tail, Nat.mod_add_mod, length_append]
    rfl
  · exact hRing.head
  · intro i hLess
    rw [length_append, length_singleton] at hLess
    by_cases hLast : i = queue.length
    · rw [hLast, ← hRing.tail, List.getElem?_set_self hTail, List.getElem?_concat_length]
    · have hOther : ring.tail ≠ (ring.head + i) % ring.size := by
        intro hSame
        rw [hRing.tail] at hSame
        have hNever := add_mod_inj hRoom (by omega) hSame
        omega
      rw [List.getElem?_set_ne hOther, hRing.holds i (by omega),
        List.getElem?_append_left (by omega)]

end Represents

---- Pools ----

/- Each node is either in the ring or taken. -/
def Pooled (ring : NodeRing α) (taken nodes : List α) : Prop :=
  ring.size = nodes.length ∧ ∃ queue, ring.Represents queue ∧ (queue ++ taken).Perm nodes

theorem pooled_shrink_full (nodes : List α) {size : Nat} (hSize : size ≤ nodes.length) :
    ((full nodes).shrink size).Pooled [] (nodes.take size) := by
  refine ⟨?_, nodes.take size, represents_shrink_full hSize, ?_⟩
  · rw [length_take, Nat.min_eq_left hSize]
    rfl
  · rw [append_nil]

theorem pooled_full : (full nodes).Pooled [] nodes := by
  have hPool := pooled_shrink_full nodes (Nat.le_refl _)
  rw [take_length] at hPool
  exact hPool

namespace Pooled

variable {ring : NodeRing α} {taken nodes : List α} {node : α}

theorem perm (hPool : ring.Pooled taken nodes) (hPerm : taken.Perm others) :
    ring.Pooled others nodes := by
  rcases hPool with ⟨hSize, queue, hRing, hAll⟩
  exact ⟨hSize, queue, hRing, (List.Perm.append_left queue hPerm.symm).trans hAll⟩

theorem mem_of_taken (hPool : ring.Pooled taken nodes) (hTaken : node ∈ taken) : node ∈ nodes := by
  rcases hPool with ⟨_, queue, _, hAll⟩
  exact hAll.subset (mem_append_right queue hTaken)

theorem nodup_taken (hPool : ring.Pooled taken nodes) (hNodup : nodes.Nodup) : taken.Nodup := by
  rcases hPool with ⟨_, queue, _, hAll⟩
  exact (nodup_append.mp (hAll.nodup_iff.mpr hNodup)).2.1

/- With no node in the ring, all are taken. -/
theorem taken_of_avail (hPool : ring.Pooled taken nodes) (hNone : ring.avail = 0)
    (hMem : node ∈ nodes) : node ∈ taken := by
  rcases hPool with ⟨_, queue, hRing, hAll⟩
  have hEmpty : queue = [] := by
    apply eq_nil_of_length_eq_zero
    rw [← hRing.avail, hNone]
  rw [hEmpty] at hAll
  exact hAll.symm.subset hMem

/- Nothing can be taken, or a node comes out that was not taken before. -/
theorem take_cases (hPool : ring.Pooled taken nodes) :
    (ring.avail = 0 ∧ ring.take = none) ∨ ∃ node behind, ring.take = some (some node, behind) ∧
        behind.Pooled (node :: taken) nodes := by
  rcases hPool with ⟨hSize, queue, hRing, hAll⟩
  cases queue with
  | nil => exact .inl ⟨hRing.avail, hRing.take_nil⟩
  | cons node queue =>
    rcases hRing.take_cons with ⟨behind, hTake, hBehind, hSame⟩
    refine .inr ⟨node, behind, hTake, hSame.trans hSize, queue, hBehind, ?_⟩
    exact perm_middle.trans hAll

/- A taken node that is put back can be taken again. -/
theorem put (hPool : ring.Pooled (node :: taken) nodes) : (ring.put node).Pooled taken nodes := by
  rcases hPool with ⟨hSize, queue, hRing, hAll⟩
  have hLength := hAll.length_eq
  rw [length_append, length_cons] at hLength
  refine ⟨(put_size ring).trans hSize, queue ++ [node], hRing.put (by omega), ?_⟩
  rwa [append_assoc]

end Pooled

---- Holders ----

section Holders

variable {β : Type} {owner : β → Nat} {node : β → α}

/- The nodes of one pool that the holders have. -/
variable (owner node) in
def taken (holders : List β) (pool : Nat) : List α :=
  (holders.filter (fun holder => owner holder = pool)).map node

variable {holders : List β}

theorem mem_taken :
    value ∈ taken owner node holders pool ↔ ∃ holder ∈ holders,
        owner holder = pool ∧ node holder = value := by
  unfold taken
  rw [mem_map]
  simp only [mem_filter, decide_eq_true_iff, and_assoc]

theorem taken_concat :
    taken owner node (holders ++ [holder]) pool = taken owner node holders pool ++
        if owner holder = pool then [node holder] else [] := by
  unfold taken
  by_cases hSame : owner holder = pool
  · simp [hSame]
  · simp [hSame]

variable (owner node) in
theorem perm_taken_eraseIdx (hAt : holders[place]? = some holder) (pool : Nat) :
    ((if owner holder = pool then [node holder] else []) ++
        taken owner node (holders.eraseIdx place) pool).Perm (taken owner node holders pool) := by
  rcases List.getElem?_eq_some_iff.mp hAt with ⟨hLess, rfl⟩
  have hPerm := ((getElem_cons_eraseIdx_perm hLess).filter
    (fun holder => decide (owner holder = pool))).map node
  rw [filter_cons] at hPerm
  by_cases hSame : owner holders[place] = pool
  · rw [if_pos (decide_eq_true hSame)] at hPerm
    rwa [if_pos hSame]
  · rw [if_neg (by simpa using hSame)] at hPerm
    rwa [if_neg hSame]

/- A holder may change in what is not about the pools. -/
theorem taken_set (hAt : holders[place]? = some holder) (hOwner : owner other = owner holder)
    (hNode : node other = node holder) :
    taken owner node (holders.set place other) pool = taken owner node holders pool := by
  induction holders generalizing place with
  | nil => rfl
  | cons first rest ih =>
    cases place with
    | zero =>
      cases hAt
      rw [set_cons_zero]
      unfold taken
      rw [filter_cons, filter_cons, hOwner]
      split
      · rw [map_cons, map_cons, hNode]
      · rfl
    | succ place =>
      have hRest := ih hAt
      unfold taken at hRest ⊢
      rw [set_cons_succ, filter_cons, filter_cons]
      split
      · rw [map_cons, map_cons, hRest]
      · exact hRest

end Holders

end NodeRing
