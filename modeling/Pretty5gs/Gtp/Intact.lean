import Mathlib.Data.Finset.Interval
import Mathlib.Order.Interval.Finset.Nat
import Pretty5gs.Gtp.Outcome

/-
  Lists whose head has not been overwritten.

  Such a list holds exactly the transactions of its node and originator, in the order of their
  creation, and its counter is its length. An index hit for one of its keys is then the first
  transaction on the list that has the key.

  Main results: `Intact.link`, `Intact.unlink`, `Listed.scanXid`.
-/

---- Intact Lists ----

namespace Pretty5gs.Gtp

open Intrusive List Function Finset

/- The key of a transaction in use. -/
def keyOf (s : Store) (x : Nat) : Nat :=
  match s.xact x with
  | some r => r.key
  | none => 0

/- The keys of one originator. -/
def OrgKey (org : Originator) (k : Nat) : Prop := ∃ version xid, k = xactIndexKey org version xid

/- A list holds the transactions that belong on it. -/
structure Listed (s : Store) (n : Nat) (org : Originator) (nodes : List Nat) : Prop where
  list : IsList s.lnode (heads s (n, org)) nodes
  mem : ∀ x, x ∈ nodes ↔ home s x = some (n, org)
  count : (s.gnode n).count org = nodes.length

/- An index hit is also what a scan of the list finds. -/
structure ListIntact (s : Store) (n : Nat) (org : Originator) (nodes : List Nat) :
    Prop extends Listed s n org nodes where
  agrees : FirstIndex.Agrees (s.gnode n).xactHash (keyOf s) (OrgKey org) nodes

/- Every list is intact. -/
def Intact (s : Store) : Prop := ∀ n org, ∃ nodes, ListIntact s n org nodes

variable {s : Store} {x : Nat}

theorem keyOf_of_xact (hLive : s.xact x = some r) : keyOf s x = r.key := by simp [keyOf, hLive]

theorem orgKey_key {r : Xact} : OrgKey r.org r.key := ⟨r.gtpVersion, r.xid, rfl⟩

/- Keys of the two originators differ. -/
theorem OrgKey.unique (hKey : OrgKey org k) (hKey' : OrgKey org' k) : org = org' := by
  rcases hKey with ⟨version, xid, rfl⟩
  rcases hKey' with ⟨version', xid', hEq⟩
  exact (xactIndexKey_injective hEq).1

variable {n : Nat} {nodes : List Nat} {org : Originator}

/- The nodes of a list are in use. -/
theorem Listed.live (hListed : Listed s n org nodes) (hMem : x ∈ nodes) :
    ∃ r, s.xact x = some r ∧ r.gnode = n ∧ r.org = org := by
  rcases home_eq_some ((hListed.mem x).mp hMem) with ⟨r, hLive, hPair⟩
  cases hPair
  exact ⟨r, hLive, rfl, rfl⟩

theorem intact_empty : Intact
      { poolId := 0
        xact := fun _ => none
        lnode := fun _ => Links.null
        gnode := fun _ => Gnode.empty } := by
  intro n org
  refine ⟨[], ⟨?_, ?_, ?_⟩, ?_⟩
  · cases org <;> exact isList_null
  · intro x
    simp [home]
  · cases org <;> rfl
  · intro k x _ hSlot
    cases hSlot

---- Changes That Keep Lists Intact ----

/- An intact head is null already when it has no last node. -/
theorem ListIntact.heads_eq (hIntact : ListIntact s n org nodes) (hFrame : Reframed s s') :
    heads s' (n, org) = heads s (n, org) := by
  rcases hFrame.heads (n, org) with hSame | ⟨hNone, hNull⟩
  · exact hSame
  · have hEmpty : nodes = [] := by
      rw [hIntact.list.head] at hNone
      exact List.getLast?_eq_none_iff.mp hNone
    rw [hNull, hIntact.list.head, hEmpty]
    rfl

theorem Intact.reframed (hSound : Sound s) (hIntact : Intact s) (hFrame : Reframed s s') :
    Intact s' := by
  intro n org
  rcases hIntact n org with ⟨nodes, hNodes⟩
  refine ⟨nodes, ⟨?_, ?_, ?_⟩, ?_⟩
  · rw [hNodes.heads_eq hFrame]
    refine hNodes.list.congr ?_
    intro x hMem
    rcases hNodes.live hMem with ⟨r, hLive, -⟩
    exact hFrame.lnode x (hSound.bound hLive)
  · intro x
    rw [hNodes.mem x, home, home, hFrame.xact]
  · rw [hFrame.count]
    exact hNodes.count
  · refine hNodes.agrees.congr ?_ ?_
    · intro k _
      rw [hFrame.hash]
    · intro y _
      rw [keyOf, keyOf, hFrame.xact]

theorem Intact.setXact (hIntact : Intact s) (hLive : s.xact x = some r) (hSame : r.Same r') :
    Intact (s.setXact x r') := by
  intro n org
  rcases hIntact n org with ⟨nodes, hNodes⟩
  refine ⟨nodes, ⟨hNodes.list, ?_, hNodes.count⟩, ?_⟩
  · intro y
    rw [hNodes.mem y]
    by_cases hEq : y = x
    · subst hEq
      simp [home, Store.setXact, hLive, hSame.gnode, hSame.org]
    · simp [home, Store.setXact, update_of_ne hEq]
  · refine hNodes.agrees.congr (fun _ _ => rfl) ?_
    intro y _
    by_cases hEq : y = x
    · subst hEq
      simp [keyOf, Store.setXact, hLive, hSame.key]
    · simp [keyOf, Store.setXact, update_of_ne hEq]

/- Deleting a transaction takes it off its list. -/
theorem Intact.unlink (hSound : Sound s) (hIntact : Intact s) (hLive : s.xact x = some r) :
    Intact (unlinkXact s x r) := by
  intro n org
  rcases hIntact n org with ⟨nodes, hNodes⟩
  have hKeys : ∀ y, y ≠ x → keyOf (unlinkXact s x r) y = keyOf s y := by
    intro y hNe
    simp [keyOf, unlinkXact_xact, update_of_ne hNe]
  have hHome : ∀ y, y ≠ x → home (unlinkXact s x r) y = home s y := by
    intro y hNe
    simp [home, unlinkXact_xact, update_of_ne hNe]
  have hGone : home (unlinkXact s x r) x = none := by simp [home, unlinkXact_xact]
  by_cases hHere : (n, org) = (r.gnode, r.org)
  · -- The list that the transaction is on.
    have hMem : x ∈ nodes := by rw [hNodes.mem, home_of_xact hLive, hHere]
    rcases append_of_mem hMem with ⟨left, right, rfl⟩
    cases hHere
    have hNotMem : x ∉ left ++ right := by
      have hNodup := hNodes.list.nodup
      rw [nodup_middle, nodup_cons] at hNodup
      exact hNodup.1
    refine ⟨left ++ right, ⟨?_, ?_, ?_⟩, ?_⟩
    · rw [unlinkXact_heads, update_self, unlinkXact_lnode]
      exact hNodes.list.remove
    · intro y
      by_cases hEq : y = x
      · subst hEq
        simp only [hNotMem, hGone, reduceCtorEq]
      · rw [hHome y hEq, ← hNodes.mem y]
        simp [hEq]
    · rw [unlinkXact_count, hNodes.count, if_pos ⟨rfl, rfl⟩]
      simp only [length_append, length_cons]
      omega
    · rw [unlinkXact_hash, if_pos rfl, hSound.hashKey hLive, ← keyOf_of_xact hLive]
      refine hNodes.agrees.erase.congr (fun _ _ => rfl) ?_
      intro y hy
      refine hKeys y ?_
      rintro rfl
      exact hNotMem hy
  · -- Any other list.
    have hNotMem : x ∉ nodes := by
      rw [hNodes.mem, home_of_xact hLive]
      intro hEq
      exact hHere (Option.some.inj hEq).symm
    refine ⟨nodes, ⟨?_, ?_, ?_⟩, ?_⟩
    · rw [unlinkXact_heads, update_of_ne hHere, unlinkXact_lnode]
      refine hNodes.list.congr ?_
      intro y hy
      rcases hNodes.live hy with ⟨q, hq, rfl, rfl⟩
      -- Neighbours of `x` are on the list of `x`.
      refine remove_heap_of_ne ?_ ?_
      · intro hPrev
        have hNear := (hSound.woven.prev (home_of_xact hLive) hPrev).1
        rw [home_of_xact hq] at hNear
        exact hHere (Option.some.inj hNear)
      · intro hNext
        have hNear := (hSound.woven.next (home_of_xact hLive) hNext).1
        rw [home_of_xact hq] at hNear
        exact hHere (Option.some.inj hNear)
    · intro y
      by_cases hEq : y = x
      · subst hEq
        simp only [hNotMem, hGone, reduceCtorEq]
      · rw [hHome y hEq, hNodes.mem y]
    · rw [unlinkXact_count, hNodes.count, if_neg]
      · exact Int.add_zero _
      · rintro ⟨rfl, rfl⟩
        exact hHere rfl
    · refine hNodes.agrees.congr ?_ ?_
      · intro k hKey
        rw [unlinkXact_hash]
        split
        · rename_i hNode
          refine FirstIndex.erase_of_ne ?_
          rintro rfl
          rw [hSound.hashKey hLive] at hKey
          have hOrg := hKey.unique orgKey_key
          exact hHere (by rw [hNode, hOrg])
        · rfl
      · intro y hy
        refine hKeys y ?_
        rintro rfl
        exact hNotMem hy

/- Linking a new transaction appends it to its list. -/
theorem Listed.link (hSound : Sound s)
    (hListed : Listed s n org nodes) (r : Xact) : Listed (linkXact s.alloc (s.poolId + 1) r) n org
      (if (n, org) = (r.gnode, r.org)
        then nodes ++ [s.poolId + 1]
        else nodes) := by
  let x := s.poolId + 1
  have hOld : ∀ y ∈ nodes, y ≠ x := by
    intro y hy
    rcases hListed.live hy with ⟨q, hq, -⟩
    have hBound := hSound.bound hq
    omega
  have hHome : ∀ y, home (linkXact s.alloc x r) y =
    if y = x then some (r.gnode, r.org)
    else home s y := by
    intro y
    by_cases hEq : y = x
    · simp [home, linkXact_xact, hEq]
    · simp [home, linkXact_xact, hEq, Store.alloc]
  have hLinks : IsList s.alloc.lnode (heads s (n, org)) nodes := by
    refine hListed.list.congr ?_
    intro y hy
    exact s.alloc_lnode (hOld y hy)
  by_cases hHere : (n, org) = (r.gnode, r.org)
  · rw [if_pos hHere]
    cases hHere
    refine ⟨?_, ?_, ?_⟩
    · rw [linkXact_heads, update_self, linkXact_lnode]
      exact hLinks.add (fun hMem => hOld x hMem rfl)
    · intro y
      rw [hHome y]
      by_cases hEq : y = x
      · simp [hEq, x]
      · have hEq' : y ≠ s.poolId + 1 := hEq
        simp [hEq, hEq', hListed.mem y]
    · rw [linkXact_count, if_pos ⟨rfl, rfl⟩]
      change (s.gnode r.gnode).count r.org + 1 = _
      rw [hListed.count]
      simp
  · rw [if_neg hHere]
    refine ⟨?_, ?_, ?_⟩
    · rw [linkXact_heads, update_of_ne hHere, linkXact_lnode]
      refine hLinks.congr ?_
      intro y hy
      refine add_heap_of_ne (hOld y hy) ?_
      intro hLast
      have hNear := (hSound.woven.last hLast).1
      rw [(hListed.mem y).mp hy] at hNear
      exact hHere (Option.some.inj hNear)
    · intro y
      rw [hHome y, hListed.mem y]
      by_cases hEq : y = x
      · subst hEq
        have hNone : home s x = none := by simp [home, x, hSound.fresh]
        simp only [hNone, reduceCtorEq, ↓reduceIte, false_iff]
        intro hEq
        exact hHere (Option.some.inj hEq).symm
      · rw [if_neg hEq]
    · rw [linkXact_count, if_neg]
      · exact (Int.add_zero _).trans hListed.count
      · rintro ⟨rfl, rfl⟩
        exact hHere rfl

/- Linking leaves the keys of older transactions alone. -/
theorem keyOf_linkXact (hSound : Sound s) (r : Xact) (hLive : s.xact y = some q) :
    keyOf (linkXact s.alloc (s.poolId + 1) r) y = keyOf s y := by
  have hNe : y ≠ s.poolId + 1 := by
    have hBound := hSound.bound hLive
    omega
  simp [keyOf, linkXact_xact, update_of_ne hNe, Store.alloc]

theorem keyOf_linkXact_self (s : Store) (x : Nat) (r : Xact) :
    keyOf (linkXact s x r) x = r.key := by
  simp [keyOf, linkXact_xact]

/-
  A list stays intact when the slot of the new key is taken or no transaction of the node has the
  key.
-/
theorem Intact.link (hSound : Sound s) (hIntact : Intact s)
    (hCovered : ((s.gnode r.gnode).xactHash r.key).isSome ∨
        ∀ y q, s.xact y = some q → q.gnode = r.gnode → q.key ≠ r.key) :
    Intact (linkXact s.alloc (s.poolId + 1) r) := by
  intro n org
  rcases hIntact n org with ⟨nodes, hNodes⟩
  have hListed := hNodes.toListed.link hSound r
  have hKeys : ∀ y ∈ nodes, keyOf (linkXact s.alloc (s.poolId + 1) r) y = keyOf s y := by
    intro y hy
    rcases hNodes.live hy with ⟨q, hq, -⟩
    exact keyOf_linkXact hSound r hq
  by_cases hHere : (n, org) = (r.gnode, r.org)
  · rw [if_pos hHere] at hListed
    cases hHere
    refine ⟨_, hListed, ?_⟩
    have hSelf := keyOf_linkXact_self s.alloc (s.poolId + 1) r
    rw [linkXact_hash, if_pos rfl, ← hSelf]
    refine FirstIndex.Agrees.insert ?_ ?_
    · exact hNodes.agrees.congr (fun _ _ => rfl) hKeys
    · rw [hSelf]
      refine hCovered.imp_right ?_
      intro hAbsent y hy
      rcases hNodes.live hy with ⟨q, hq, hNode, -⟩
      rw [hKeys y hy, keyOf_of_xact hq]
      exact hAbsent y q hq hNode
  · rw [if_neg hHere] at hListed
    refine ⟨nodes, hListed, ?_⟩
    refine hNodes.agrees.congr ?_ hKeys
    intro k hKey
    rw [linkXact_hash]
    split
    · rename_i hNode
      refine FirstIndex.insert_of_ne ?_
      rintro rfl
      have hOrg := hKey.unique orgKey_key
      exact hHere (by rw [hNode, hOrg])
    · rfl

---- Visiting A List ----

/- A list is visited from its first to its last node. -/
theorem Listed.xactList (hSound : Sound s) (hListed : Listed s n org nodes) :
    Gtp.xactList s n org = nodes := by
  refine hListed.list.walk ?_
  have hSubset : nodes.toFinset ⊆ Finset.Icc 1 s.poolId := by
    intro x hx
    rcases hListed.live (mem_toFinset.mp hx) with ⟨r, hLive, -⟩
    exact mem_Icc.mpr ⟨hSound.pos hLive, hSound.bound hLive⟩
  have hCard := card_le_card hSubset
  rw [toFinset_card_of_nodup hListed.list.nodup, Nat.card_Icc] at hCard
  omega

/- The scan looks for the key of its originator. -/
theorem Listed.scanXid (hSound : Sound s) (hListed : Listed s n org nodes) :
    Gtp.scanXid s n org version xid = nodes.find? (fun y =>
        keyOf s y = xactIndexKey org version xid) := by
  rw [Gtp.scanXid, hListed.xactList hSound]
  refine List.find?_congr ?_
  intro y hy
  rcases hListed.live hy with ⟨r, hLive, -, rfl⟩
  rw [keyOf_of_xact hLive, matchesXid, hLive]
  simp [key_eq_xactIndexKey]

end Pretty5gs.Gtp
