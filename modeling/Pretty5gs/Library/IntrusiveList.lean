import Mathlib.Data.List.Basic
import Mathlib.Data.List.Nodup
import Mathlib.Logic.Function.Basic
import Pretty5gs.Library.FirstIndex

/-
  Intrusive doubly linked lists over a heap of link pairs.

  A list head and a list node are the same pair of optional pointers: a head's `next` is the first
  node and its `prev` the last one. The operations write only link fields, so a heap is a function
  from nodes to link pairs.

  Main results: `Intrusive.IsList.add`, `Intrusive.IsList.remove`, `Intrusive.IsList.walk`,
  `Intrusive.Woven.add`, `Intrusive.Woven.remove`, `Intrusive.remove_add`.
-/

---- Link Operations ----

namespace Intrusive

/- The pair of pointers of a list head or of a list node. -/
@[ext] structure Links (α : Type) where
  prev : Option α
  next : Option α
deriving DecidableEq, Repr

variable {α : Type}

/- The zeroed pair. -/
def Links.null : Links α := { prev := none, next := none }

variable [DecidableEq α]

/- Append a node at the tail of a list. -/
def add (heap : α → Links α) (list : Links α) (x : α) : (α → Links α) × Links α :=
  let heap := Function.update heap x { prev := list.prev, next := none }
  match list.prev with
  | some last =>
      (Function.update heap last { heap last with next := some x }, { list with prev := some x })
  | none => (heap, { prev := some x, next := some x })

/- Unlink a node by the pointers it holds. -/
def remove (heap : α → Links α) (list : Links α) (x : α) : (α → Links α) × Links α :=
  let prev := (heap x).prev
  let next := (heap x).next
  let step : (α → Links α) × Links α :=
    match prev with
    | some p => (Function.update heap p { heap p with next := next }, list)
    | none => (heap, { list with next := next })
  match next with
  | some n => (Function.update step.1 n { step.1 n with prev := prev }, step.2)
  | none => (step.1, { step.2 with prev := prev })

/- The nodes met by following `next` for at most `fuel` links. -/
def walk (heap : α → Links α) (fuel : Nat) (start : Option α) : List α :=
  match fuel, start with
  | 0, _ => []
  | _, none => []
  | fuel + 1, some x => x :: walk heap fuel (heap x).next

/- The links of all nodes and of the head once a node is appended. -/
theorem add_eq {heap : α → Links α} {list : Links α} {x : α} : add heap list x = (fun y =>
        { prev := if y = x then list.prev else (heap y).prev
          next := if list.prev = some y then some x
            else if y = x then none else (heap y).next },
        { prev := some x
          next := if list.prev = none then some x else list.next }) := by
  cases hPrev : list.prev with
  | none =>
    refine Prod.ext (funext fun y => ?_) (by simp [add, hPrev])
    by_cases hNew : y = x <;> simp [add, hPrev, hNew]
  | some last =>
    refine Prod.ext (funext fun y => ?_) (by simp [add, hPrev])
    by_cases hLast : y = last
    · by_cases hNew : last = x <;> simp [add, hPrev, hLast, hNew]
    · by_cases hNew : y = x
      · subst hNew
        simp [add, hPrev, hLast, Ne.symm hLast]
      · simp [add, hPrev, hLast, hNew, Ne.symm hLast]

/- The same once a node is unlinked: only its neighbours are written. -/
theorem remove_eq {heap : α → Links α} {list : Links α} {x : α} : remove heap list x = (fun y =>
        { prev := if (heap x).next = some y then (heap x).prev else (heap y).prev
          next := if (heap x).prev = some y then (heap x).next else (heap y).next },
        { prev := if (heap x).next = none then (heap x).prev else list.prev
          next := if (heap x).prev = none then (heap x).next else list.next }) := by
  cases hPrev : (heap x).prev with
  | none =>
    cases hNext : (heap x).next with
    | none => simp [remove, hPrev, hNext]
    | some n =>
      refine Prod.ext (funext fun y => ?_) (by simp [remove, hPrev, hNext])
      by_cases hN : n = y <;> simp [remove, hPrev, hNext, hN, eq_comm]
  | some p =>
    cases hNext : (heap x).next with
    | none =>
      refine Prod.ext (funext fun y => ?_) (by simp [remove, hPrev, hNext])
      by_cases hP : p = y <;> simp [remove, hPrev, hNext, hP, eq_comm]
    | some n =>
      refine Prod.ext (funext fun y => ?_) (by simp [remove, hPrev, hNext])
      by_cases hN : n = y <;> by_cases hP : p = y <;>
        simp [remove, hPrev, hNext, hN, hP, Function.update_apply, eq_comm]

end Intrusive

---- Represented Lists ----

namespace Intrusive

variable {α : Type}

/-
  Consecutive nodes point at each other; the first one's `prev` is `before` and the last one's
  `next` is `after`.
-/
def Chain (heap : α → Links α) (before : Option α) (nodes : List α) (after : Option α) : Prop :=
  match nodes with
  | [] => True
  | x :: rest =>
      heap x = { prev := before, next := rest.head?.or after } ∧ Chain heap (some x) rest after

/- The head and the heap represent the list `nodes`. -/
structure IsList (heap : α → Links α) (list : Links α) (nodes : List α) : Prop where
  head : list = { prev := nodes.getLast?, next := nodes.head? }
  chain : Chain heap none nodes none
  nodup : nodes.Nodup

/- A chain depends on the links of its own nodes only. -/
theorem Chain.congr {heap heap' : α → Links α} (hSame : ∀ x ∈ nodes, heap' x = heap x)
    (hChain : Chain heap before nodes after) : Chain heap' before nodes after := by
  induction nodes generalizing before with
  | nil => trivial
  | cons x rest ih =>
    refine ⟨?_, ?_⟩
    · rw [hSame x List.mem_cons_self]
      exact hChain.1
    · exact ih (fun y hy => hSame y (List.mem_cons_of_mem x hy)) hChain.2

/- A chain splits at every position. -/
theorem chain_append {heap : α → Links α} :
    Chain heap before (left ++ right) after ↔ Chain heap before left (right.head?.or after) ∧
        Chain heap (left.getLast?.or before) right after := by
  induction left generalizing before with
  | nil => simp [Chain]
  | cons x rest ih =>
    have hHead : (rest ++ right).head?.or after = rest.head?.or (right.head?.or after) := by
      cases rest <;> simp
    have hLast : (x :: rest).getLast?.or before = rest.getLast?.or (some x) := by
      cases rest <;> simp [List.getLast?_cons]
    simp only [List.cons_append, Chain, hHead, hLast]
    rw [ih, and_assoc]

/- Each node of a chain points at its neighbours. -/
theorem chain_iff {heap : α → Links α} :
    Chain heap before nodes after ↔ ∀ left x right, nodes = left ++ x :: right →
      heap x = { prev := left.getLast?.or before, next := right.head?.or after } := by
  constructor
  · rintro hChain left x right rfl
    exact (chain_append.mp hChain).2.1
  · intro hAll
    induction nodes generalizing before with
    | nil => trivial
    | cons x rest ih =>
      refine ⟨hAll [] x rest rfl, ih fun left y right hSplit => ?_⟩
      rw [hAll (x :: left) y right (by rw [hSplit, List.cons_append])]
      cases left <;> simp [List.getLast?_cons]

/- A represented list survives writes to other nodes. -/
theorem IsList.congr {heap heap' : α → Links α} (hSame : ∀ x ∈ nodes, heap' x = heap x)
    (hList : IsList heap list nodes) : IsList heap' list nodes where
  head := hList.head
  chain := hList.chain.congr hSame
  nodup := hList.nodup

/- The null head represents the empty list. -/
theorem isList_null : IsList heap Links.null [] where
  head := rfl
  chain := trivial
  nodup := List.nodup_nil

end Intrusive

---- Operations On Represented Lists ----

namespace Intrusive

variable {α : Type} [DecidableEq α]

variable {heap : α → Links α} {list : Links α}

omit [DecidableEq α] in
theorem getLast?_eq_some_iff (hNodup : (left ++ x :: right : List α).Nodup) :
    (left ++ x :: right).getLast? = some x ↔ right = [] := by
  rcases right.eq_nil_or_concat' with rfl | ⟨front, last, rfl⟩
  · simp
  · rw [← List.cons_append, ← List.append_assoc, List.getLast?_concat] at *
    simp only [Option.some.injEq, List.append_eq_nil_iff, List.cons_ne_nil, and_false, iff_false]
    rintro rfl
    simp [List.nodup_append] at hNodup

omit [DecidableEq α] in
theorem head?_eq_some_iff (hNodup : (left ++ x :: right : List α).Nodup) :
    (left ++ x :: right).head? = some x ↔ left = [] := by
  cases left with
  | nil => simp
  | cons first left =>
    simp only [List.cons_append, List.head?_cons, Option.some.injEq, List.cons_ne_nil, iff_false]
    rintro rfl
    simp at hNodup

open Intrusive

/- Appending an absent node extends the represented list. -/
theorem IsList.add (hList : IsList heap list nodes) (hFresh : x ∉ nodes) :
    IsList (add heap list x).1 (add heap list x).2 (nodes ++ [x]) := by
  have hPrev : list.prev = nodes.getLast? := by rw [hList.head]
  have hNext : list.next = nodes.head? := by rw [hList.head]
  rw [add_eq, hPrev, hNext]
  refine ⟨?_, chain_iff.mpr fun left y right hSplit => ?_, ?_⟩
  · rw [List.getLast?_concat]
    cases nodes <;> simp
  · rcases right.eq_nil_or_concat' with rfl | ⟨front, last, rfl⟩
    · -- the new node
      rcases List.append_inj' hSplit rfl with ⟨rfl, hNew⟩
      cases hNew
      have hLast : nodes.getLast? ≠ some x := fun hSome => hFresh (List.mem_of_getLast? hSome)
      simp [hLast]
    · -- a node that was there: the last one gets a `next`
      rw [← List.cons_append, ← List.append_assoc] at hSplit
      rcases List.append_inj' hSplit rfl with ⟨rfl, hNew⟩
      cases hNew
      have hOld : y ≠ x := fun hSame => hFresh (by simp [hSame])
      have hNode := chain_iff.mp hList.chain left y front rfl
      have hTail := getLast?_eq_some_iff hList.nodup
      simp only [hTail, if_neg hOld, hNode]
      cases front <;> simp
  · rw [List.nodup_append]
    refine ⟨hList.nodup, List.nodup_singleton x, ?_⟩
    rintro a hMem b hLast rfl
    exact hFresh (List.mem_singleton.mp hLast ▸ hMem)

/- Walking a represented list meets exactly its nodes. -/
omit [DecidableEq α] in
theorem IsList.walk (hList : IsList heap list nodes) (hFuel : nodes.length ≤ fuel) :
    walk heap fuel list.next = nodes := by
  have hChain : ∀ (before : Option α) (rest : List α) (fuel : Nat), rest.length ≤ fuel →
    Chain heap before rest none → Intrusive.walk heap fuel rest.head? = rest := by
    intro before rest
    induction rest generalizing before with
    | nil =>
      intro fuel _ _
      cases fuel <;> rfl
    | cons x rest ih =>
      intro fuel hLength hChain
      cases fuel with
      | zero => simp at hLength
      | succ fuel =>
        have hNext : (heap x).next = rest.head? := by
          rw [hChain.1]
          simp
        simp only [List.head?_cons, Intrusive.walk, hNext]
        rw [ih (some x) fuel (by simpa using hLength) hChain.2]
  rw [hList.head]
  exact hChain none nodes fuel hFuel hList.chain

/- Unlinking a node of a represented list leaves the list without it. -/
theorem IsList.remove (hList : IsList heap list (left ++ x :: right)) :
    IsList (remove heap list x).1 (remove heap list x).2 (left ++ right) := by
  have hNodup := hList.nodup
  have hNode : heap x = { prev := left.getLast?, next := right.head? } := by
    simpa using chain_iff.mp hList.chain left x right rfl
  rw [remove_eq, hNode, hList.head]
  refine ⟨?_, chain_iff.mpr fun l y r hSplit => ?_,
    hNodup.sublist ((List.sublist_cons_self x right).append_left left)⟩
  · rcases left.eq_nil_or_concat' with rfl | ⟨front, last, rfl⟩ <;> cases right <;>
      simp [List.getLast?_cons]
  · have hCases : (∃ mid, l = left ++ mid ∧ right = mid ++ y :: r) ∨
      ∃ mid, left = l ++ y :: mid ∧ r = mid ++ right := by
      rcases List.append_eq_append_iff.mp hSplit with hBehind | ⟨mid, rfl, hRest⟩
      · exact .inl hBehind
      · cases mid with
        | nil => exact .inl ⟨[], by simp, hRest.symm⟩
        | cons z mid =>
          cases hRest
          exact .inr ⟨mid, rfl, rfl⟩
    have hAcross := (List.nodup_append.mp hNodup).2.2
    rcases hCases with ⟨mid, rfl, rfl⟩ | ⟨mid, rfl, rfl⟩
    · have hOld := chain_iff.mp hList.chain (left ++ x :: mid) y r (by simp)
      have hFirst := head?_eq_some_iff (List.nodup_cons.mp (List.nodup_append.mp hNodup).2.1).2
      have hLast : left.getLast? ≠ some y := fun hSome =>
        hAcross y (List.mem_of_getLast? hSome) y (by simp) rfl
      simp only [hFirst, if_neg hLast, hOld]
      cases mid <;> simp [List.getLast?_cons]
    · have hOld := chain_iff.mp hList.chain l y (mid ++ x :: right) (by simp)
      have hLast := getLast?_eq_some_iff (List.nodup_append.mp hNodup).1
      have hFirst : right.head? ≠ some y := fun hSome =>
        hAcross y (by simp) y (List.mem_cons_of_mem x (List.mem_of_head? hSome)) rfl
      simp only [hLast, if_neg hFirst, hOld]
      cases mid <;> simp

end Intrusive

---- Link Consistency Without Represented Lists ----

namespace Intrusive

variable {α η : Type}

/-
  The links that remain consistent even when a head has been overwritten. `home` names the list of
  every linked node; links stay inside one list, agree in both directions, and a head points only at
  a node with no neighbour on its side.
-/
structure Woven (home : α → Option η) (heap : α → Links α) (heads : η → Links α) : Prop where
  next : ∀ {x y h}, home x = some h → (heap x).next = some y →
      home y = some h ∧ (heap y).prev = some x
  prev : ∀ {x y h}, home x = some h → (heap x).prev = some y →
      home y = some h ∧ (heap y).next = some x
  first : ∀ {h x}, (heads h).next = some x → home x = some h ∧ (heap x).prev = none
  last : ∀ {h x}, (heads h).prev = some x → home x = some h ∧ (heap x).next = none

/- Nothing is linked where every head is null. -/
theorem woven_empty : Woven (fun _ => (none : Option η)) heap (fun _ => Links.null) :=
  ⟨nofun, nofun, nofun, nofun⟩

/- The pair seen from the other side. -/
def Links.flip (links : Links α) : Links α := { prev := links.next, next := links.prev }

/- Consistency is the same from both sides. -/
theorem Woven.flip {home : α → Option η} (hWoven : Woven home heap heads) :
    Woven home (fun x => (heap x).flip) (fun h => (heads h).flip) where
  next := hWoven.prev
  prev := hWoven.next
  first := hWoven.last
  last := hWoven.first

/- A walk from a linked node stays in that node's list. -/
theorem Woven.home_of_mem_walk {home : α → Option η} (hWoven : Woven home heap heads)
    (hStart : ∀ y, start = some y → home y = some h) (hMem : x ∈ walk heap fuel start) :
    home x = some h := by
  induction fuel generalizing start with
  | zero => simp [walk] at hMem
  | succ fuel ih =>
    cases start with
    | none => simp [walk] at hMem
    | some y =>
      have hHome := hStart y rfl
      rcases List.mem_cons.mp hMem with hEq | hRest
      · exact hEq ▸ hHome
      · exact ih (fun z hz => (hWoven.next hHome hz).1) hRest

/- What one side of the consistency says. -/
def Forward (home : α → Option η) (heap : α → Links α) (heads : η → Links α) : Prop :=
  (∀ x y h, home x = some h → (heap x).next = some y → home y = some h ∧ (heap y).prev = some x) ∧
    ∀ h x, (heads h).next = some x → home x = some h ∧ (heap x).prev = none

theorem Woven.of_forward {home : α → Option η} (hForward : Forward home heap heads)
    (hBackward : Forward home (fun x => (heap x).flip) (fun h => (heads h).flip)) :
    Woven home heap heads where
  next := hForward.1 _ _ _
  prev := hBackward.1 _ _ _
  first := hForward.2 _ _
  last := hBackward.2 _ _

/-
  Consistency survives the overwriting of heads with the null pair, and reads the links of linked
  nodes only.
-/
theorem Woven.weaken {home : α → Option η} (hWoven : Woven home heap heads)
    (hHeap : ∀ {x h}, home x = some h → heap' x = heap x)
    (hHeads : ∀ h, heads' h = heads h ∨ heads' h = Links.null) : Woven home heap' heads' := by
  have hSide : ∀ {heap heap' : α → Links α} {heads heads' : η → Links α},
    Woven home heap heads → (∀ {x h}, home x = some h → heap' x = heap x) →
      (∀ h, heads' h = heads h ∨ heads' h = Links.null) → Forward home heap' heads' := by
    intro heap heap' heads heads' hWoven hHeap hHeads
    constructor
    · intro x y h hHome hNext
      rw [hHeap hHome] at hNext
      have hTarget := hWoven.next hHome hNext
      rw [hHeap hTarget.1]
      exact hTarget
    · intro h x hNext
      rcases hHeads h with hSame | hNull
      · rw [hSame] at hNext
        have hTarget := hWoven.first hNext
        rw [hHeap hTarget.1]
        exact hTarget
      · rw [hNull] at hNext
        cases hNext
  refine .of_forward (hSide hWoven hHeap hHeads) (hSide hWoven.flip ?_ ?_)
  · exact fun hHome => by rw [hHeap hHome]
  · exact fun h => (hHeads h).imp (fun hSame => by rw [hSame]) fun hNull => by rw [hNull]; rfl

end Intrusive

---- Written Link Fields ----

namespace Intrusive

variable {α : Type} [DecidableEq α]

/- Appending writes the new node and the old last node. -/
theorem add_heap_of_ne {heap : α → Links α} {list : Links α} (hNew : y ≠ x)
    (hLast : list.prev ≠ some y) : (add heap list x).1 y = heap y := by
  simp [add_eq, hNew, hLast]

/- Unlinking writes the neighbours of the node only. -/
theorem remove_heap_of_ne {heap : α → Links α} {list : Links α} (hPrev : (heap x).prev ≠ some y)
    (hNext : (heap x).next ≠ some y) : (remove heap list x).1 y = heap y := by
  simp [remove_eq, hPrev, hNext]

/- A node that holds no links empties the head it is given. -/
theorem remove_unlinked {heap : α → Links α} (list : Links α) (hNull : heap x = Links.null) :
    remove heap list x = (heap, Links.null) := by
  simp [remove, hNull, Links.null]

/-
  Removing the node that was just appended restores the other links; a head without a last node
  becomes null.
-/
theorem remove_add {heap : α → Links α} {list : Links α} (hFresh : list.prev ≠ some x)
    (hLast : ∀ last, list.prev = some last → (heap last).next = none) :
    (remove (add heap list x).1 (add heap list x).2 x).2 =
        (if list.prev = none then Links.null else list) ∧ ∀ y, y ≠ x →
        (remove (add heap list x).1 (add heap list x).2 x).1 y = heap y := by
  simp only [remove_eq, add_eq, if_neg hFresh, if_true, reduceCtorEq, if_false]
  constructor
  · by_cases hNone : list.prev = none
    · simp [hNone, Links.null]
    · simp [hNone]
  · intro y hy
    by_cases hOwner : list.prev = some y
    · simp only [if_pos hOwner, if_neg hy, ← hLast y hOwner]
    · simp only [if_neg hOwner, if_neg hy]

/- Unlinking does the same on both sides. -/
theorem remove_flip {heap : α → Links α} {list : Links α} {x : α} :
    remove (fun y => (heap y).flip) list.flip x =
      (fun y => ((remove heap list x).1 y).flip, (remove heap list x).2.flip) := by
  rw [remove_eq, remove_eq]
  rfl

end Intrusive

---- Operations Keep Links Consistent ----

namespace Intrusive

open Function

variable {α η : Type} [DecidableEq α] [DecidableEq η]

/- Appending an unlinked node keeps consistency. -/
theorem Woven.add {home : α → Option η} (hWoven : Woven home heap heads) (hFresh : home x = none) :
    Woven (Function.update home x (some h)) (add heap (heads h) x).1
      (Function.update heads h (add heap (heads h) x).2) := by
  -- linked nodes are old nodes
  have hOld : ∀ {y k}, home y = some k → y ≠ x := by
    rintro y k hHome rfl
    rw [hFresh] at hHome
    cases hHome
  have hHome : ∀ {y k}, home y = some k → Function.update home x (some h) y = some k := by
    intro y k hy
    rw [update_of_ne (hOld hy), hy]
  have hNotLast : (heads h).prev ≠ some x := fun hLast => hOld (hWoven.last hLast).1 rfl
  have hFirst : ∀ {k y}, (heads k).next = some y → Function.update home x (some h) y = some k ∧
    (if y = x then (heads h).prev else (heap y).prev) = none := by
    intro k y hNext
    rw [if_neg (hOld (hWoven.first hNext).1)]
    exact ⟨hHome (hWoven.first hNext).1, (hWoven.first hNext).2⟩
  rw [add_eq]
  refine ⟨?_, ?_, ?_, ?_⟩
  · intro y z k hy hNext
    rcases Table.set_cases hy with ⟨rfl, rfl⟩ | ⟨hNe, hy⟩
    · simp [hNotLast] at hNext
    · dsimp only at hNext
      split at hNext
      · rename_i hLast
        cases hNext
        have hk : k = h := Option.some.inj (hy.symm.trans (hWoven.last hLast).1)
        exact ⟨by simp [hk], by simp [hLast]⟩
      · have hPair := hWoven.next hy hNext
        exact ⟨hHome hPair.1, by simp [hOld hPair.1, hPair.2]⟩
  · intro y z k hy hPrev
    rcases Table.set_cases hy with ⟨rfl, rfl⟩ | ⟨hNe, hy⟩
    · have hLast : (heads k).prev = some z := by simpa using hPrev
      exact ⟨hHome (hWoven.last hLast).1, by simp [hLast]⟩
    · have hPair := hWoven.prev hy (show (heap y).prev = some z by simpa [hNe] using hPrev)
      have hNot : (heads h).prev ≠ some z := by
        intro hLast
        rw [(hWoven.last hLast).2] at hPair
        cases hPair.2
      exact ⟨hHome hPair.1, by simp [hNot, hOld hPair.1, hPair.2]⟩
  · intro k y hNext
    by_cases hEq : k = h
    · subst hEq
      rw [update_self] at hNext
      split at hNext
      · rename_i hNone
        cases hNext
        exact ⟨by simp, by simp [hNone]⟩
      · exact hFirst hNext
    · rw [update_of_ne hEq] at hNext
      exact hFirst hNext
  · intro k y hPrev
    by_cases hEq : k = h
    · subst hEq
      rw [update_self] at hPrev
      cases hPrev
      exact ⟨by simp, by simp [hNotLast]⟩
    · rw [update_of_ne hEq] at hPrev
      have hLast := hWoven.last hPrev
      have hNot : (heads h).prev ≠ some y := fun hOther =>
        hEq (Option.some.inj (hLast.1.symm.trans (hWoven.last hOther).1))
      exact ⟨hHome hLast.1, by simp [hNot, hLast.2]⟩

/- One side of the consistency when a linked node is unlinked. -/
theorem Woven.remove_forward {home : α → Option η} (hWoven : Woven home heap heads)
    (hLinked : home x = some h) :
    Forward (Function.update home x none) (remove heap (heads h) x).1
      (Function.update heads h (remove heap (heads h) x).2) := by
  have hKeep : ∀ {y k}, y ≠ x → home y = some k → Function.update home x none y = some k := by
    intro y k hNe hy
    rw [update_of_ne hNe, hy]
  -- the head of a list does not get a predecessor
  have hFirst : ∀ {k y}, (heads k).next = some y → y ≠ x → Function.update home x none y = some k ∧
      (if (heap x).next = some y then (heap x).prev else (heap y).prev) = none := by
    intro k y hNext hNe
    refine ⟨hKeep hNe (hWoven.first hNext).1, ?_⟩
    rw [if_neg, (hWoven.first hNext).2]
    intro hToY
    have hBack := (hWoven.next hLinked hToY).2
    rw [(hWoven.first hNext).2] at hBack
    cases hBack
  rw [remove_eq]
  constructor
  · intro y z k hy hNext
    rcases Table.free_cases hy with ⟨hNe, hHome⟩
    dsimp only at hNext
    split at hNext
    · -- the predecessor of `x` now points past it
      rename_i hPrev
      have hAhead := hWoven.next hLinked hNext
      have hk : k = h := Option.some.inj (hHome.symm.trans (hWoven.prev hLinked hPrev).1)
      have hzNe : z ≠ x := by
        rintro rfl
        exact hNe (Option.some.inj (hPrev.symm.trans hAhead.2))
      exact ⟨hKeep hzNe (hk ▸ hAhead.1), by simp [hNext, hPrev]⟩
    · rename_i hNotPrev
      have hPair := hWoven.next hHome hNext
      have hzNe : z ≠ x := by
        rintro rfl
        exact hNotPrev hPair.2
      have hNot : (heap x).next ≠ some z := fun hToZ =>
        hNe (Option.some.inj (hPair.2.symm.trans (hWoven.next hLinked hToZ).2))
      exact ⟨hKeep hzNe hPair.1, by simp [hNot, hPair.2]⟩
  · intro k y hNext
    by_cases hEq : k = h
    · subst hEq
      rw [update_self] at hNext
      dsimp only at hNext
      split at hNext
      · rename_i hNone
        have hAhead := hWoven.next hLinked hNext
        have hyNe : y ≠ x := by
          rintro rfl
          rw [hNone] at hAhead
          cases hAhead.2
        exact ⟨hKeep hyNe hAhead.1, by simp [hNext, hNone]⟩
      · rename_i hSome
        refine hFirst hNext ?_
        rintro rfl
        exact hSome (hWoven.first hNext).2
    · rw [update_of_ne hEq] at hNext
      refine hFirst hNext ?_
      rintro rfl
      exact hEq (Option.some.inj ((hWoven.first hNext).1.symm.trans hLinked))

/- Unlinking a linked node keeps consistency. -/
theorem Woven.remove {home : α → Option η} (hWoven : Woven home heap heads)
    (hLinked : home x = some h) :
    Woven (Function.update home x none) (remove heap (heads h) x).1
      (Function.update heads h (remove heap (heads h) x).2) := by
  have hBackward := hWoven.flip.remove_forward hLinked
  rw [remove_flip] at hBackward
  refine .of_forward (hWoven.remove_forward hLinked) ?_
  convert hBackward using 1
  exact comp_update Links.flip heads h _

end Intrusive
