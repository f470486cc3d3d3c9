import Mathlib.Logic.Relation
import Pretty5gs.Pfcp.Layer

/-
  The changes that the PFCP layer makes to its store, and what they preserve.

  Main results: `Linked.discarded`, `Run.sound`.
-/

---- Keys And Homes ----

namespace Pretty5gs.Pfcp

open Intrusive Function Option Table

/- The two parts of a key do not overlap. -/
theorem xactIndexKey_eq : xactIndexKey org xid = 2 ^ 40 * (match org with
          | .localOrg => 0
          | .remoteOrg => 1) + xid.toNat := by
  have hLow : xid.toNat < 2 ^ 40 := by omega
  rw [Nat.two_pow_add_eq_or_of_lt hLow]
  cases org with
  | localOrg => rfl
  | remoteOrg => rfl

/- A record has a key exactly when it has its two parts. -/
theorem key_eq_xactIndexKey {r : Xact} :
    r.key = xactIndexKey org xid ↔ r.org = org ∧ r.xid = xid := by
  constructor
  · intro hKey
    have hXid : r.xid.toNat = xid.toNat → r.xid = xid := BitVec.eq_of_toNat_eq
    rw [Xact.key, xactIndexKey_eq, xactIndexKey_eq] at hKey
    cases hOrg : r.org <;> cases org <;> simp only [hOrg] at hKey <;> first
      | exact ⟨rfl, hXid (by omega)⟩
      | omega
  · rintro ⟨rfl, rfl⟩
    rfl

/- The list of every transaction in use. -/
def home (s : Store) (x : Nat) : Option (Nat × Originator) := (s.xact x).map Xact.home

variable {s : Store}

theorem home_eq_some (hHome : home s x = some h) : ∃ r, s.xact x = some r ∧ r.home = h := by
  cases hLive : s.xact x with
  | none => simp [home, hLive] at hHome
  | some r =>
    refine ⟨r, rfl, ?_⟩
    simpa [home, hLive] using hHome

---- Changes Of The Store ----

/- The fields that stay fixed while a transaction is linked. -/
structure Xact.Same (r r' : Xact) : Prop where
  org : r'.org = r.org
  xid : r'.xid = r.xid
  hashKey : r'.hashKey = r.hashKey
  node : r'.node = r.node

theorem Xact.Same.refl {r : Xact} : r.Same r := ⟨rfl, rfl, rfl, rfl⟩

theorem Xact.Same.trans {r r' r'' : Xact} (hFirst : r.Same r') (hSecond : r'.Same r'') :
    r.Same r'' where
  org := hSecond.org.trans hFirst.org
  xid := hSecond.xid.trans hFirst.xid
  hashKey := hSecond.hashKey.trans hFirst.hashKey
  node := hSecond.node.trans hFirst.node

variable {r r' : Xact}

theorem Xact.Same.key (hSame : r.Same r') : r'.key = r.key := by
  rw [Xact.key, hSame.org, hSame.xid]
  rfl

theorem Xact.Same.home (hSame : r.Same r') : r'.home = r.home := by
  rw [Xact.home, hSame.node, hSame.org]
  rfl

/-
  The changes that the layer makes: a record is rewritten, a transaction is deleted, one is created,
  one is created and does not outlive its first message, and one is deleted before it was linked
  because a timer is missing.
-/
inductive Change (s s' : Store) : Prop where
  | updated {x : Nat} {r r' : Xact} (hLive : s.xact x = some r) (hSame : r.Same r')
      (hStep : r.step ≤ r'.step)
      (hStore : s' = s.setXact x r')
  | deleted {x : Nat} {r : Xact} (hLive : s.xact x = some r) (hStore : s' = unlinkXact s x r)
  | created {r : Xact} (hStep : r.org = .remoteOrg → 1 ≤ r.step)
      (hStore : s' = linkXact s.alloc (s.poolId + 1) r)
  | dropped {r : Xact} (hStore : s' = unlinkXact (linkXact s.alloc (s.poolId + 1) r)
          (s.poolId + 1) r.keyed)
  | discarded {r : Xact} (hStore : s' = unlinkXact (s.alloc.setXact (s.poolId + 1) r)
          (s.poolId + 1) r)

abbrev Run := Relation.ReflTransGen Change

---- Sound Stores ----

/- Every pointer leads to a transaction that belongs there. -/
structure Linked (s : Store) : Prop where
  bound : ∀ {x r}, s.xact x = some r → x ≤ s.poolId
  hashKey : ∀ {x r}, s.xact x = some r → r.hashKey = r.key
  owner : ∀ {n k x}, s.xactHash n k = some x → ∃ r, s.xact x = some r ∧ r.node = n ∧ r.key = k
  woven : Woven (home s) s.lnode s.list

/- A remote transaction has received its request. -/
structure Sound (s : Store) : Prop extends Linked s where
  remote : ∀ {x r}, s.xact x = some r → r.org = .remoteOrg → 1 ≤ r.step

/- The next id is not in use. -/
theorem Linked.fresh (hLinked : Linked s) : s.xact (s.poolId + 1) = none := by
  cases hLive : s.xact (s.poolId + 1) with
  | none => rfl
  | some r =>
    have hBound := hLinked.bound hLive
    omega

/- No slot holds the next id. -/
theorem Linked.hash_ne_fresh (hLinked : Linked s) : s.xactHash n k ≠ some (s.poolId + 1) := by
  intro hSlot
  rcases hLinked.owner hSlot with ⟨r, hLive, -⟩
  rw [hLinked.fresh] at hLive
  cases hLive

/- A list visits transactions of its node and originator. -/
theorem Linked.mem_xactList (hLinked : Linked s) (hMem : x ∈ xactList s n org) :
    ∃ r, s.xact x = some r ∧ r.node = n ∧ r.org = org := by
  have hHome := hLinked.woven.home_of_mem_walk (h := (n, org))
    (fun y hy => (hLinked.woven.first hy).1) hMem
  rcases home_eq_some hHome with ⟨r, hLive, hPair⟩
  cases hPair
  exact ⟨r, hLive, rfl, rfl⟩

/- The pointers of the index, as the library states them. -/
theorem Linked.owned (hLinked : Linked s) :
    FirstIndex.Owned s.xactHash s.xact Xact.node Xact.key := fun _ _ _ => hLinked.owner

theorem Linked.setXact (hLinked : Linked s) {x : Nat} (hLive : s.xact x = some r)
    (hSame : r.Same r') : Linked (s.setXact x r') where
  bound := by
    intro y q hq
    rcases set_cases hq with ⟨rfl, -⟩ | ⟨-, hOld⟩
    · exact hLinked.bound hLive
    · exact hLinked.bound hOld
  hashKey := by
    intro y q hq
    rcases set_cases hq with ⟨-, rfl⟩ | ⟨-, hOld⟩
    · rw [hSame.hashKey, hSame.key]
      exact hLinked.hashKey hLive
    · exact hLinked.hashKey hOld
  owner := hLinked.owned.set hLive hSame.node hSame.key _ _ _
  woven := by
    have hHome : home (s.setXact x r') = home s := by
      refine (map_update Xact.home (some r')).trans (update_eq_self_iff.mpr ?_)
      rw [hLive, map_some, map_some, hSame.home]
    rw [hHome]
    exact hLinked.woven

/- Linking a new transaction. -/
theorem Linked.link (hLinked : Linked s) : Linked (linkXact s.alloc (s.poolId + 1) r) where
  bound := by
    intro y q hq
    rcases set_cases (f := s.xact) hq with ⟨rfl, -⟩ | ⟨-, hOld⟩
    · exact le_rfl
    · exact (hLinked.bound hOld).trans (Nat.le_succ _)
  hashKey := by
    intro y q hq
    rcases set_cases (f := s.xact) hq with ⟨-, rfl⟩ | ⟨-, hOld⟩
    · rfl
    · exact hLinked.hashKey hOld
  owner := hLinked.owned.insert (r := r.keyed) hLinked.fresh (update_self ..)
    (fun _ hNe => update_of_ne hNe ..) _ _ _
  woven := by
    have hWoven : Woven (home s) s.alloc.lnode s.list := by
      apply hLinked.woven.weaken ?_ (fun h => Or.inl rfl)
      intro y h hHome
      rcases home_eq_some hHome with ⟨q, hLive, -⟩
      have hBound := hLinked.bound hLive
      apply update_of_ne
      omega
    have hNew : home s (s.poolId + 1) = none := by
      rw [home, hLinked.fresh]
      rfl
    have hHome : home (linkXact s.alloc (s.poolId + 1) r) =
        Function.update (home s) (s.poolId + 1) (some r.home) := map_update Xact.home (some r.keyed)
    rw [hHome]
    exact hWoven.add hNew

/- Unlinking a transaction that is in use. -/
theorem Linked.unlink (hLinked : Linked s) {x : Nat} {r : Xact} (hLive : s.xact x = some r) :
    Linked (unlinkXact s x r) where
  bound := fun hq => hLinked.bound (free_cases (f := s.xact) hq).2
  hashKey := fun hq => hLinked.hashKey (free_cases (f := s.xact) hq).2
  owner := by
    refine hLinked.owned.erase hLive ?_ (fun _ hNe => update_of_ne hNe ..) _ _ _
    rw [← hLinked.hashKey hLive]
    exact update_self ..
  woven := by
    have hHome : home (unlinkXact s x r) = Function.update (home s) x none :=
      map_update Xact.home none
    rw [hHome]
    exact hLinked.woven.remove (by rw [home, hLive, map_some])

/-
  A transaction is deleted before it was linked: the record and the index are as before, the head of
  its list is null.
-/
structure Discarded (s s' : Store) (h : Nat × Originator) : Prop where
  xact : s'.xact = s.xact
  poolId : s.poolId ≤ s'.poolId
  lnode : ∀ y, y ≤ s.poolId → s'.lnode y = s.lnode y
  list : s'.list = Function.update s.list h Links.null
  xactHash : s'.xactHash = s.xactHash

theorem Linked.discard (hLinked : Linked s) (r : Xact) :
    Discarded s (unlinkXact (s.alloc.setXact (s.poolId + 1) r) (s.poolId + 1) r) r.home := by
  let x := s.poolId + 1
  have hNull : s.alloc.lnode x = Links.null := update_self ..
  have hRemove := remove_unlinked (s.list r.home) hNull
  refine ⟨?_, Nat.le_succ _, ?_, ?_, ?_⟩
  · change Function.update (Function.update s.xact x _) x none = s.xact
    rw [update_idem, update_eq_self_iff]
    exact hLinked.fresh.symm
  · intro y hy
    change (remove s.alloc.lnode (s.list r.home) x).1 y = _
    rw [hRemove]
    apply update_of_ne
    omega
  · change Function.update s.list r.home (remove s.alloc.lnode (s.list r.home) x).2 = _
    rw [hRemove]
  · change Function.update s.xactHash r.node (FirstIndex.erase (s.xactHash r.node) r.hashKey x) = _
    rw [FirstIndex.erase_of_not_owner hLinked.hash_ne_fresh, update_eq_self]

theorem Linked.discarded (hLinked : Linked s) (hDiscarded : Discarded s s' h) : Linked s' where
  bound := by
    intro y q hq
    rw [hDiscarded.xact] at hq
    exact (hLinked.bound hq).trans hDiscarded.poolId
  hashKey := by
    intro y q hq
    rw [hDiscarded.xact] at hq
    exact hLinked.hashKey hq
  owner := by
    intro n k y hSlot
    rw [hDiscarded.xactHash] at hSlot
    rw [hDiscarded.xact]
    exact hLinked.owner hSlot
  woven := by
    have hHome : home s' = home s := by
      funext y
      rw [home, hDiscarded.xact]
      rfl
    rw [hHome]
    apply hLinked.woven.weaken
    · intro y h' hLive
      rcases home_eq_some hLive with ⟨q, hq, -⟩
      exact hDiscarded.lnode y (hLinked.bound hq)
    · intro h'
      rw [hDiscarded.list]
      by_cases hEq : h' = h
      · subst hEq
        exact Or.inr (update_self ..)
      · exact Or.inl (update_of_ne hEq _ _)

/- Every change of the layer keeps the store sound. -/
theorem Change.sound (hChange : Change s s') (hSound : Sound s) : Sound s' := by
  have hLinked := hSound.toLinked
  cases hChange with
  | updated hLive hSame hStep hStore =>
    subst hStore
    refine ⟨hLinked.setXact hLive hSame, ?_⟩
    intro y q hq hRemote
    rcases set_cases hq with ⟨-, rfl⟩ | ⟨-, hOld⟩
    · rw [hSame.org] at hRemote
      exact (hSound.remote hLive hRemote).trans hStep
    · exact hSound.remote hOld hRemote
  | deleted hLive hStore =>
    subst hStore
    refine ⟨hLinked.unlink hLive, ?_⟩
    intro y q hq hRemote
    exact hSound.remote (free_cases (f := s.xact) hq).2 hRemote
  | @created r hStep hStore =>
    subst hStore
    refine ⟨hLinked.link, ?_⟩
    intro y q hq hRemote
    rcases set_cases (f := s.xact) hq with ⟨-, rfl⟩ | ⟨-, hOld⟩
    · exact hStep hRemote
    · exact hSound.remote hOld hRemote
  | @dropped r hStore =>
    subst hStore
    have hLive : (linkXact s.alloc (s.poolId + 1) r).xact (s.poolId + 1) = some r.keyed :=
      update_self ..
    refine ⟨hLinked.link.unlink hLive, ?_⟩
    intro y q hq hRemote
    rcases free_cases hq with ⟨hNe, hOld⟩
    rcases set_cases (f := s.xact) hOld with ⟨hEq, -⟩ | ⟨-, hOlder⟩
    · exact absurd hEq hNe
    · exact hSound.remote hOlder hRemote
  | @discarded r hStore =>
    subst hStore
    have hDiscarded := hLinked.discard r
    refine ⟨hLinked.discarded hDiscarded, ?_⟩
    intro y q hq hRemote
    rw [hDiscarded.xact] at hq
    exact hSound.remote hq hRemote

theorem Run.sound (hRun : Run s s') (hSound : Sound s) : Sound s' := by
  induction hRun with
  | refl => exact hSound
  | tail _ hChange ih => exact hChange.sound ih

theorem sound_empty : Sound (initial 0 0 0).toStore where
  bound := by
    intro x r hLive
    cases hLive
  hashKey := by
    intro x r hLive
    cases hLive
  owner := by
    intro n k x hSlot
    cases hSlot
  woven := woven_empty
  remote := by
    intro x r hLive
    cases hLive

end Pretty5gs.Pfcp
