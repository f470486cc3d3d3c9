import Mathlib.Data.List.Find
import Mathlib.Data.List.Nodup
import Mathlib.Logic.Function.Basic

/-
  An index that keeps the first owner of a key.

  The index holds at most one element per key. An insertion fills the slot of a key only when it is
  free, and a deletion frees the slot only when the deleted element owns it. The list of elements
  may hold several of one key.
-/

---- Tables ----

namespace Table

open Function

variable {α ρ : Type} [DecidableEq α] {f : α → Option ρ} {x y : α} {r q : ρ}

theorem map_update {η : Type} (g : ρ → η) (v : Option ρ) :
    (fun y => (Function.update f x v y).map g) =
      Function.update (fun y => (f y).map g) x (v.map g) :=
  funext (apply_update (fun _ => Option.map g) f x v)

/- The records after one of them was written. -/
theorem set_cases (hLive : Function.update f x (some r) y = some q) :
    (y = x ∧ q = r) ∨ (y ≠ x ∧ f y = some q) := by
  by_cases hEq : y = x
  · subst hEq
    rw [update_self] at hLive
    exact Or.inl ⟨rfl, (Option.some.inj hLive).symm⟩
  · rw [update_of_ne hEq] at hLive
    exact Or.inr ⟨hEq, hLive⟩

/- The records after one of them was freed. -/
theorem free_cases (hLive : Function.update f x none y = some q) : y ≠ x ∧ f y = some q := by
  by_cases hEq : y = x
  · subst hEq
    rw [update_self] at hLive
    cases hLive
  · rw [update_of_ne hEq] at hLive
    exact ⟨hEq, hLive⟩

end Table

---- Index Operations ----

namespace FirstIndex

open Function

variable {α κ : Type}

/- Every slot in `domain` holds the first element of its key in `nodes`. -/
def Agrees [DecidableEq κ] (index : κ → Option α) (key : α → κ) (domain : κ → Prop)
    (nodes : List α) : Prop :=
  ∀ k x, domain k → index k = some x → nodes.find? (fun y => key y = k) = some x

variable [DecidableEq κ]

/- Fill the slot of a key unless it is taken. -/
def insert (index : κ → Option α) (k : κ) (x : α) : κ → Option α :=
  if (index k).isSome then index
  else Function.update index k (some x)

/- Free the slot of a key if the element owns it. -/
def erase [DecidableEq α] (index : κ → Option α) (k : κ) (x : α) : κ → Option α :=
  if index k = some x then Function.update index k none
  else index

variable {k k' : κ}

theorem insert_of_ne (hNe : k' ≠ k) :
    insert index k x k' = index k' := by
  unfold insert
  split
  · rfl
  · rw [update_of_ne hNe]

variable {index : κ → Option α}

theorem insert_self (hFree : index k = none) : insert index k x k = some x := by
  simp [insert, hFree]

theorem insert_of_some (hTaken : index k' = some y) : insert index k x k' = some y := by
  by_cases hEq : k' = k
  · subst hEq
    simp [insert, hTaken]
  · rw [insert_of_ne hEq, hTaken]

/- A filled slot was filled before or holds the insertion. -/
theorem eq_of_insert_eq_some (hSlot : insert index k x k' = some y) :
    index k' = some y ∨ (k' = k ∧ y = x ∧ index k = none) := by
  by_cases hEq : k' = k
  · subst hEq
    cases hOld : index k' with
    | none =>
      rw [insert_self hOld] at hSlot
      exact Or.inr ⟨rfl, (Option.some.inj hSlot).symm, rfl⟩
    | some z =>
      rw [insert_of_some hOld] at hSlot
      exact Or.inl hSlot
  · rw [insert_of_ne hEq] at hSlot
    exact Or.inl hSlot

variable [DecidableEq α]

theorem erase_of_ne (hNe : k' ≠ k) : erase index k x k' = index k' := by
  unfold erase
  split
  · rw [update_of_ne hNe]
  · rfl

/- A slot left filled was filled and has another owner. -/
theorem eq_of_erase_eq_some (hSlot : erase index k x k' = some y) :
    index k' = some y ∧ ¬ (k' = k ∧ y = x) := by
  by_cases hEq : k' = k
  · subst hEq
    by_cases hOwner : index k' = some x
    · simp [erase, hOwner] at hSlot
    · rw [erase, if_neg hOwner] at hSlot
      refine ⟨hSlot, ?_⟩
      rintro ⟨-, rfl⟩
      exact hOwner hSlot
  · rw [erase_of_ne hEq] at hSlot
    exact ⟨hSlot, fun hBoth => hEq hBoth.1⟩

/- A slot of another owner stays filled. -/
theorem erase_of_owner_ne (hSlot : index k' = some y) (hNe : y ≠ x) :
    erase index k x k' = some y := by
  by_cases hEq : k' = k
  · subst hEq
    rw [erase, if_neg, hSlot]
    rw [hSlot]
    exact fun hSame => hNe (Option.some.inj hSame)
  · rw [erase_of_ne hEq, hSlot]

/- Erasing an element that owns nothing changes nothing. -/
theorem erase_of_not_owner (hNone : index k ≠ some x) : erase index k x = index := by
  rw [erase, if_neg hNone]

/- An insertion followed by its deletion restores the index. -/
theorem erase_insert (hNone : index k ≠ some x) : erase (insert index k x) k x = index := by
  cases hSlot : index k with
  | none =>
    funext k'
    by_cases hEq : k' = k
    · subst hEq
      simp [erase, insert, hSlot]
    · rw [erase_of_ne hEq, insert_of_ne hEq]
  | some y =>
    have hInsert : insert index k x = index := by simp [insert, hSlot]
    rw [hInsert, erase_of_not_owner hNone]

end FirstIndex

---- Agreement With A Scan ----

namespace FirstIndex

variable {α κ : Type} [DecidableEq κ]

variable {domain : κ → Prop}

/-
  Appending keeps agreement unless it fills the free slot of a key that an earlier element still
  has.
-/
theorem Agrees.insert {index : κ → Option α} (hAgrees : Agrees index key domain nodes)
    (hCovered : (index (key x)).isSome ∨ ∀ y ∈ nodes, key y ≠ key x) :
    Agrees (FirstIndex.insert index (key x) x) key domain (nodes ++ [x]) := by
  intro k y hDomain hSlot
  rcases eq_of_insert_eq_some hSlot with hOld | ⟨rfl, rfl, hFree⟩
  · rw [List.find?_append, hAgrees k y hDomain hOld]
    rfl
  · have hAbsent : ∀ z ∈ nodes, key z ≠ key y := by
      rcases hCovered with hTaken | hAbsent
      · rw [hFree] at hTaken
        cases hTaken
      · exact hAbsent
    have hNone : nodes.find? (fun z => key z = key y) = none := by
      rw [List.find?_eq_none]
      intro z hz
      simpa using hAbsent z hz
    rw [List.find?_append, hNone]
    simp

/- Deleting an element keeps agreement. -/
theorem Agrees.erase [DecidableEq α] {index : κ → Option α} {key : α → κ} {left right : List α}
    {x : α} (hAgrees : Agrees index key domain (left ++ x :: right)) :
    Agrees (FirstIndex.erase index (key x) x) key domain (left ++ right) := by
  intro k y hDomain hSlot
  rcases eq_of_erase_eq_some hSlot with ⟨hOld, hOther⟩
  have hFound := hAgrees k y hDomain hOld
  have hKey : key y = k := by simpa using List.find?_some hFound
  have hNe : y ≠ x := by
    rintro rfl
    exact hOther ⟨hKey.symm, rfl⟩
  rw [List.find?_append] at hFound ⊢
  cases hLeft : left.find? (fun z => key z = k) with
  | some z =>
    rw [hLeft] at hFound
    exact hFound
  | none =>
    rw [hLeft] at hFound
    simp only [Option.none_or, List.find?_cons] at hFound ⊢
    split at hFound
    · exact absurd (Option.some.inj hFound).symm hNe
    · exact hFound

/- Agreement only reads the slots of its domain. -/
theorem Agrees.congr {index index' : κ → Option α} (hAgrees : Agrees index key domain nodes)
    (hIndex : ∀ k, domain k → index' k = index k) (hKey : ∀ y ∈ nodes, key' y = key y) :
    Agrees index' key' domain nodes := by
  intro k y hDomain hSlot
  rw [hIndex k hDomain] at hSlot
  rw [← hAgrees k y hDomain hSlot]
  exact List.find?_congr (fun z hz => by rw [hKey z hz])

end FirstIndex

---- Owners Of The Slots ----

namespace FirstIndex

open Function

variable {α κ ν ρ : Type} {hash hash' : ν → κ → Option α} {table : α → Option ρ} {node : ρ → ν}
  {key : ρ → κ} {x : α} {r r' : ρ}

/- Every filled slot leads to a record of its node and key. -/
def Owned (hash : ν → κ → Option α) (table : α → Option ρ) (node : ρ → ν) (key : ρ → κ) : Prop :=
  ∀ n k x, hash n k = some x → ∃ r, table x = some r ∧ node r = n ∧ key r = k

variable [DecidableEq α]

/- Rewriting a record that keeps its node and key. -/
theorem Owned.set (hOwned : Owned hash table node key) (hLive : table x = some r)
    (hNode : node r' = node r) (hKey : key r' = key r) :
    Owned hash (Function.update table x (some r')) node key := by
  intro n k y hSlot
  rcases hOwned n k y hSlot with ⟨q, hq, hAt, hNamed⟩
  by_cases hEq : y = x
  · subst hEq
    cases hLive.symm.trans hq
    exact ⟨r', update_self .., hNode.trans hAt, hKey.trans hNamed⟩
  · exact ⟨q, (update_of_ne hEq ..).trans hq, hAt, hNamed⟩

variable [DecidableEq κ]

/- A new record enters the index of its node. -/
theorem Owned.insert (hOwned : Owned hash table node key) (hFresh : table x = none)
    (hHere : hash' (node r) = FirstIndex.insert (hash (node r)) (key r) x)
    (hOther : ∀ n, n ≠ node r → hash' n = hash n) :
    Owned hash' (Function.update table x (some r)) node key := by
  intro n k y hSlot
  have hCases : hash n k = some y ∨ (node r = n ∧ key r = k ∧ y = x) := by
    by_cases hNode : n = node r
    · subst hNode
      rw [hHere] at hSlot
      rcases eq_of_insert_eq_some hSlot with hOld | ⟨hKey, hEq, -⟩
      · exact Or.inl hOld
      · exact Or.inr ⟨rfl, hKey.symm, hEq⟩
    · rw [hOther n hNode] at hSlot
      exact Or.inl hSlot
  rcases hCases with hOld | ⟨hNode, hKey, rfl⟩
  · rcases hOwned n k y hOld with ⟨q, hq, hRest⟩
    have hNe : y ≠ x := by
      rintro rfl
      rw [hFresh] at hq
      cases hq
    exact ⟨q, (update_of_ne hNe ..).trans hq, hRest⟩
  · exact ⟨r, update_self .., hNode, hKey⟩

/- A record leaves the index of its node and is freed. -/
theorem Owned.erase (hOwned : Owned hash table node key) (hLive : table x = some r)
    (hHere : hash' (node r) = FirstIndex.erase (hash (node r)) (key r) x)
    (hOther : ∀ n, n ≠ node r → hash' n = hash n) :
    Owned hash' (Function.update table x none) node key := by
  intro n k y hSlot
  -- A slot that still held the record would have its node and key.
  have hOld : hash n k = some y ∧ y ≠ x := by
    by_cases hNode : n = node r
    · subst hNode
      rw [hHere] at hSlot
      rcases eq_of_erase_eq_some hSlot with ⟨hOld, hNot⟩
      refine ⟨hOld, ?_⟩
      rintro rfl
      rcases hOwned _ k y hOld with ⟨q, hq, -, hKey⟩
      cases hLive.symm.trans hq
      exact hNot ⟨hKey.symm, rfl⟩
    · rw [hOther n hNode] at hSlot
      refine ⟨hSlot, ?_⟩
      rintro rfl
      rcases hOwned n k y hSlot with ⟨q, hq, hOwn, -⟩
      cases hLive.symm.trans hq
      exact hNode hOwn.symm
  rcases hOwned n k y hOld.1 with ⟨q, hq, hRest⟩
  exact ⟨q, (update_of_ne hOld.2 ..).trans hq, hRest⟩

end FirstIndex
