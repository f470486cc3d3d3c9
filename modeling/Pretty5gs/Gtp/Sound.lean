import Mathlib
import Pretty5gs.Gtp.Store
import Pretty5gs.Gtp.Record

/-
  The invariant of the store: every pointer in a list, a list node or an index slot leads to a
  transaction in use that belongs there, and every remote transaction owns the index slot of its
  key.

  It holds in every reachable state, also in those where a list head has been overwritten.

  Main results: `xactIndexKey_injective`, `Sound.setXact`, `Sound.link`, `Sound.unlink`,
  `Sound.unlink_link`, `Sound.unlink_unlinked`.
-/

---- Fields Of Updated Nodes ----

namespace Pretty5gs.Gtp

open Intrusive Function Option Table FirstIndex

namespace Gnode

variable {gnode : Gnode}

@[simp] theorem list_setList (org org' : Originator) (list : Links Nat) :
    (gnode.setList org list).list org' =
      if org' = org then list else gnode.list org' := by
  cases org <;> cases org' <;> rfl

@[simp] theorem list_addCount :
    (gnode.addCount org amount).list org' = gnode.list org' := by
  cases org <;> cases org' <;> rfl

@[simp] theorem xactHash_setList (org : Originator) (list : Links Nat) :
    (gnode.setList org list).xactHash = gnode.xactHash := by
  cases org <;> rfl

@[simp] theorem xactHash_addCount :
    (gnode.addCount org amount).xactHash = gnode.xactHash := by
  cases org <;> rfl

@[simp] theorem count_addCount :
    (gnode.addCount org amount).count org' =
      gnode.count org' + if org' = org then amount else 0 := by
  cases org <;> cases org' <;> simp [addCount, count]

@[simp] theorem count_setList (org org' : Originator) (list : Links Nat) :
    (gnode.setList org list).count org' = gnode.count org' := by
  cases org <;> cases org' <;> rfl

@[simp] theorem list_setHash (hash : Nat → Option Nat) (org : Originator) :
    Gnode.list { gnode with xactHash := hash } org = gnode.list org := by
  cases org <;> rfl

@[simp] theorem count_setHash (hash : Nat → Option Nat) (org : Originator) :
    Gnode.count { gnode with xactHash := hash } org = gnode.count org := by
  cases org <;> rfl

end Gnode

theorem Store.alloc_lnode (s : Store) (hy : y ≠ s.poolId + 1) : s.alloc.lnode y = s.lnode y :=
  update_of_ne hy _ _

/- The node and originator of the list a transaction is on. -/
def home (s : Store) (x : Nat) : Option (Nat × Originator) :=
  (s.xact x).map (fun r => (r.gnode, r.org))

/- The head of a list. -/
def heads (s : Store) (h : Nat × Originator) : Links Nat := (s.gnode h.1).list h.2

variable {s : Store} {x : Nat}

theorem home_eq_some (hHome : home s x = some h) :
    ∃ r, s.xact x = some r ∧ (r.gnode, r.org) = h := by
  simpa [home] using hHome

variable {r : Xact}

theorem home_of_xact (hLive : s.xact x = some r) : home s x = some (r.gnode, r.org) := by
  simp [home, hLive]

---- Fields Of Linked And Unlinked Stores ----

section Fields

variable {s : Store} {x : Nat} {r : Xact}

theorem linkXact_xact : (linkXact s x r).xact = Function.update s.xact x (some r.keyed) := rfl

theorem linkXact_lnode : (linkXact s x r).lnode =
      (add s.lnode (heads s (r.gnode, r.org)) x).1 := rfl

open Store

variable (s x r) in
theorem linkXact_hash : ((linkXact s x r).gnode n).xactHash =
      if n = r.gnode then insert (s.gnode n).xactHash r.key x
      else (s.gnode n).xactHash := by
  by_cases hn : n = r.gnode
  · subst hn
    simp [linkXact, xactIndexAdd, xactListAdd, setGnode, setXact]
  · simp [linkXact, xactIndexAdd, xactListAdd, setGnode, setXact, hn]

theorem linkXact_heads :
    heads (linkXact s x r) = Function.update (heads s) (r.gnode, r.org)
        (add s.lnode (heads s (r.gnode, r.org)) x).2 := by
  funext ⟨n, org⟩
  by_cases hn : n = r.gnode
  · subst hn
    by_cases hOrg : org = r.org
    · subst hOrg
      simp [heads, linkXact, xactIndexAdd, xactListAdd, setGnode, setXact]
    · simp [heads, linkXact, xactIndexAdd, xactListAdd, setGnode, setXact, hOrg]
  · simp [heads, linkXact, xactIndexAdd, xactListAdd, setGnode, setXact, hn]

theorem linkXact_count : ((linkXact s x r).gnode n).count org =
      (s.gnode n).count org +
        if n = r.gnode ∧ org = r.org then 1 else 0 := by
  by_cases hn : n = r.gnode
  · subst hn
    simp [linkXact, xactIndexAdd, xactListAdd, setGnode, setXact]
  · simp [linkXact, xactIndexAdd, xactListAdd, setGnode, setXact, hn]

theorem unlinkXact_xact : (unlinkXact s x r).xact = Function.update s.xact x none := rfl

theorem unlinkXact_heads :
    heads (unlinkXact s x r) = Function.update (heads s) (r.gnode, r.org)
        (remove s.lnode (heads s (r.gnode, r.org)) x).2 := by
  funext ⟨n, org⟩
  by_cases hn : n = r.gnode
  · subst hn
    by_cases hOrg : org = r.org
    · subst hOrg
      simp [heads, unlinkXact, xactIndexDel, xactListRemove, setGnode, free]
    · simp [heads, unlinkXact, xactIndexDel, xactListRemove, setGnode, free, hOrg]
  · simp [heads, unlinkXact, xactIndexDel, xactListRemove, setGnode, free, hn]

theorem unlinkXact_lnode :
    (unlinkXact s x r).lnode = (remove s.lnode (heads s (r.gnode, r.org)) x).1 := by
  simp [heads, unlinkXact, xactIndexDel, xactListRemove, setGnode, free]

theorem unlinkXact_hash : ((unlinkXact s x r).gnode n).xactHash =
      if n = r.gnode then erase (s.gnode n).xactHash r.hashKey x
      else (s.gnode n).xactHash := by
  by_cases hn : n = r.gnode
  · subst hn
    simp [unlinkXact, xactIndexDel, xactListRemove, setGnode, free]
  · simp [unlinkXact, xactIndexDel, xactListRemove, setGnode, free, hn]

theorem unlinkXact_count (n : Nat) (org : Originator) : ((unlinkXact s x r).gnode n).count org =
      (s.gnode n).count org +
        if n = r.gnode ∧ org = r.org then -1 else 0 := by
  by_cases hn : n = r.gnode
  · subst hn
    simp [unlinkXact, xactIndexDel, xactListRemove, setGnode, free]
  · simp [unlinkXact, xactIndexDel, xactListRemove, setGnode, free, hn]

/- Unlinking reads only the fields that stay fixed. -/
theorem unlinkXact_congr (hSame : r.Same r') : unlinkXact s x r' = unlinkXact s x r := by
  simp only [unlinkXact, xactIndexDel, xactListRemove, hSame.gnode, hSame.org, hSame.hashKey]

end Fields

---- Keys ----

/- The three parts of a key do not overlap. -/
theorem xactIndexKey_eq (org : Originator) (version : Version) (xid : U32) :
    xactIndexKey org version xid = 2 ^ 32 * ((match org with
          | .localOrg => 0
          | .remoteOrg => 256) +
        (match version with
          | .gtp1 => 1
          | .gtp2 => 2)) + xid.toNat := by
  have hLow : xid.toNat < 2 ^ 32 := xid.isLt
  rw [Nat.two_pow_add_eq_or_of_lt hLow]
  cases org <;> cases version <;> rfl

theorem xactIndexKey_injective
    (hKey : xactIndexKey org version xid = xactIndexKey org' version' xid') :
    org = org' ∧ version = version' ∧ xid = xid' := by
  have hXid : xid.toNat = xid'.toNat → xid = xid' := BitVec.eq_of_toNat_eq
  rw [xactIndexKey_eq, xactIndexKey_eq] at hKey
  cases org <;> cases org' <;> cases version <;> cases version' <;> simp only at hKey <;> first
    | exact ⟨rfl, rfl, hXid (by omega)⟩
    | omega

theorem Xact.Same.key (hSame : r.Same r') : r'.key = r.key := by
  rw [Xact.key, hSame.org, hSame.gtpVersion, hSame.xid]
  rfl

/- A record has a key exactly when it has its three parts. -/
theorem key_eq_xactIndexKey :
    r.key = xactIndexKey org version xid ↔ r.org = org ∧ r.gtpVersion = version ∧ r.xid = xid := by
  constructor
  · exact xactIndexKey_injective
  · rintro ⟨rfl, rfl, rfl⟩
    rfl

---- Sound Stores ----

/- Every pointer leads to a transaction that belongs there. -/
structure Sound (s : Store) : Prop where
  pos : ∀ {x r}, s.xact x = some r → 1 ≤ x
  bound : ∀ {x r}, s.xact x = some r → x ≤ s.poolId
  hashKey : ∀ {x r}, s.xact x = some r → r.hashKey = r.key
  owner : ∀ {n k x}, (s.gnode n).xactHash k = some x →
      ∃ r, s.xact x = some r ∧ r.gnode = n ∧ r.key = k
  remote : ∀ {x r}, s.xact x = some r → r.org = .remoteOrg →
      (s.gnode r.gnode).xactHash r.key = some x
  woven : Woven (home s) s.lnode (heads s)

/- The next id is not in use. -/
theorem Sound.fresh (hSound : Sound s) : s.xact (s.poolId + 1) = none := by
  cases hLive : s.xact (s.poolId + 1) with
  | none => rfl
  | some r =>
    have hBound := hSound.bound hLive
    omega

/- Freeing the next id changes nothing. -/
theorem Sound.free_fresh (hSound : Sound s) : Function.update s.xact (s.poolId + 1) none = s.xact :=
  update_eq_self_iff.mpr hSound.fresh.symm

/- No slot holds the next id. -/
theorem Sound.hash_ne_fresh (hSound : Sound s) (n k : Nat) :
    (s.gnode n).xactHash k ≠ some (s.poolId + 1) := by
  intro hSlot
  rcases hSound.owner hSlot with ⟨r, hLive, -⟩
  rw [hSound.fresh] at hLive
  cases hLive

/- No head points at the next id. -/
theorem Sound.last_ne_fresh (hSound : Sound s) (h : Nat × Originator) :
    (heads s h).prev ≠ some (s.poolId + 1) := by
  intro hLast
  have hHome := (hSound.woven.last hLast).1
  simp [home, hSound.fresh] at hHome

/- A list visits transactions of its node and originator. -/
theorem Sound.mem_xactList (hSound : Sound s) (hMem : x ∈ xactList s n org) :
    ∃ r, s.xact x = some r ∧ r.gnode = n ∧ r.org = org := by
  have hHome := hSound.woven.home_of_mem_walk (h := (n, org))
    (fun y hy => (hSound.woven.first hy).1) hMem
  rcases home_eq_some hHome with ⟨r, hLive, hPair⟩
  cases hPair
  exact ⟨r, hLive, rfl, rfl⟩

/- The records, their links and the index are the same. -/
structure SameRecords (s s' : Store) : Prop where
  xact : s'.xact = s.xact
  poolId : s.poolId ≤ s'.poolId
  lnode : ∀ y, y ≤ s.poolId → s'.lnode y = s.lnode y
  hash : ∀ n, (s'.gnode n).xactHash = (s.gnode n).xactHash

/-
  Ids may have been used up, and a head without a last node may have become null; such a head is
  null already unless it has been overwritten before.
-/
structure Reframed (s s' : Store) : Prop extends SameRecords s s' where
  count : ∀ n org, (s'.gnode n).count org = (s.gnode n).count org
  heads : ∀ h, heads s' h = heads s h ∨ ((heads s h).prev = none ∧ heads s' h = Links.null)

/- The head of a list was overwritten with the null pair. -/
structure Clobbered (s s' : Store) (h : Nat × Originator) : Prop extends SameRecords s s' where
  count : ∀ n org, (s'.gnode n).count org = (s.gnode n).count org +
        if n = h.1 ∧ org = h.2 then -1 else 0
  heads : heads s' = Function.update (heads s) h Links.null

theorem SameRecords.trans (hFirst : SameRecords s s') (hSecond : SameRecords s' s'') :
    SameRecords s s'' where
  xact := hSecond.xact.trans hFirst.xact
  poolId := hFirst.poolId.trans hSecond.poolId
  lnode := by
    intro y hy
    rw [hSecond.lnode y (hy.trans hFirst.poolId), hFirst.lnode y hy]
  hash := fun n => (hSecond.hash n).trans (hFirst.hash n)

theorem Reframed.refl : Reframed s s where
  xact := rfl
  poolId := le_rfl
  lnode := fun _ _ => rfl
  hash := fun _ => rfl
  count := fun _ _ => rfl
  heads := fun _ => Or.inl rfl

/- Soundness does not depend on heads that are not null. -/
theorem Sound.sameRecords (hSound : Sound s) (hSame : SameRecords s s')
    (hHeads : ∀ h, heads s' h = heads s h ∨ heads s' h = Links.null) : Sound s' where
  pos := by
    intro x r hLive
    rw [hSame.xact] at hLive
    exact hSound.pos hLive
  bound := by
    intro x r hLive
    rw [hSame.xact] at hLive
    exact (hSound.bound hLive).trans hSame.poolId
  hashKey := by
    intro x r hLive
    rw [hSame.xact] at hLive
    exact hSound.hashKey hLive
  owner := by
    intro n k x hSlot
    rw [hSame.hash] at hSlot
    rw [hSame.xact]
    exact hSound.owner hSlot
  remote := by
    intro x r hLive hRemote
    rw [hSame.xact] at hLive
    rw [hSame.hash]
    exact hSound.remote hLive hRemote
  woven := by
    have hHome : home s' = home s := by
      funext x
      rw [home, hSame.xact]
      rfl
    rw [hHome]
    refine hSound.woven.weaken ?_ hHeads
    intro x h hLinked
    rcases home_eq_some hLinked with ⟨r, hLive, -⟩
    exact hSame.lnode x (hSound.bound hLive)

theorem Sound.reframed (hSound : Sound s) (hFrame : Reframed s s') : Sound s' :=
  hSound.sameRecords hFrame.toSameRecords (fun h => (hFrame.heads h).imp_right And.right)

theorem Sound.clobbered (hSound : Sound s) (hClobbered : Clobbered s s' h) : Sound s' := by
  refine hSound.sameRecords hClobbered.toSameRecords ?_
  intro h'
  rw [hClobbered.heads]
  by_cases hEq : h' = h
  · exact Or.inr (by rw [hEq, update_self])
  · exact Or.inl (update_of_ne hEq _ _)

/- The pointers of the index, as the library states them. -/
theorem Sound.owned (hSound : Sound s) :
    Owned (fun n => (s.gnode n).xactHash) s.xact Xact.gnode Xact.key :=
  fun _ _ _ => hSound.owner

/- Rewriting a record that keeps its fixed fields. -/
theorem Sound.setXact (hSound : Sound s) {r r' : Xact} (hLive : s.xact x = some r)
    (hSame : r.Same r') : Sound (s.setXact x r') where
  pos := by
    intro y q hq
    rcases set_cases hq with ⟨rfl, -⟩ | ⟨-, hOld⟩
    · exact hSound.pos hLive
    · exact hSound.pos hOld
  bound := by
    intro y q hq
    rcases set_cases hq with ⟨rfl, -⟩ | ⟨-, hOld⟩
    · exact hSound.bound hLive
    · exact hSound.bound hOld
  hashKey := by
    intro y q hq
    rcases set_cases hq with ⟨-, rfl⟩ | ⟨-, hOld⟩
    · rw [hSame.hashKey, hSame.key]
      exact hSound.hashKey hLive
    · exact hSound.hashKey hOld
  owner := hSound.owned.set hLive hSame.gnode hSame.key _ _ _
  remote := by
    intro y q hq hRemote
    rcases set_cases hq with ⟨rfl, rfl⟩ | ⟨-, hOld⟩
    · rw [hSame.org] at hRemote
      rw [hSame.gnode, hSame.key]
      exact hSound.remote hLive hRemote
    · exact hSound.remote hOld hRemote
  woven := by
    have hHome : home (s.setXact x r') = home s := by
      refine (map_update _ (some r')).trans (update_eq_self_iff.mpr ?_)
      rw [hLive, map_some, map_some, hSame.gnode, hSame.org]
    rw [hHome]
    exact hSound.woven

/- Linking a new transaction; a remote one must find the slot of its key free. -/
theorem Sound.link (hSound : Sound s)
    (hFree : r.org = .remoteOrg → (s.gnode r.gnode).xactHash r.key = none) :
    Sound (linkXact s.alloc (s.poolId + 1) r) where
  pos := by
    intro y q hq
    rcases set_cases (f := s.xact) hq with ⟨rfl, -⟩ | ⟨-, hOld⟩
    · exact Nat.succ_pos _
    · exact hSound.pos hOld
  bound := by
    intro y q hq
    rcases set_cases (f := s.xact) hq with ⟨rfl, -⟩ | ⟨-, hOld⟩
    · exact le_rfl
    · exact (hSound.bound hOld).trans (Nat.le_succ _)
  hashKey := by
    intro y q hq
    rcases set_cases (f := s.xact) hq with ⟨-, rfl⟩ | ⟨-, hOld⟩
    · rfl
    · exact hSound.hashKey hOld
  owner := hSound.owned.insert (r := r.keyed) hSound.fresh
    ((linkXact_hash s.alloc (s.poolId + 1) r).trans (if_pos rfl))
    (fun n hNe => (linkXact_hash s.alloc (s.poolId + 1) r).trans (if_neg hNe)) _ _ _
  remote := by
    intro y q hq hRemote
    rcases set_cases (f := s.xact) hq with ⟨rfl, rfl⟩ | ⟨-, hOld⟩
    · rw [Xact.keyed_gnode, linkXact_hash, if_pos rfl]
      exact insert_self (hFree hRemote)
    · rw [linkXact_hash]
      split
      · exact insert_of_some (hSound.remote hOld hRemote)
      · exact hSound.remote hOld hRemote
  woven := by
    have hWoven : Woven (home s) s.alloc.lnode (heads s) := by
      refine hSound.woven.weaken ?_ (fun h => Or.inl rfl)
      intro y h hLinked
      rcases home_eq_some hLinked with ⟨q, hLive, -⟩
      have hBound := hSound.bound hLive
      exact s.alloc_lnode (by omega)
    have hHome : home (linkXact s.alloc (s.poolId + 1) r) =
        Function.update (home s) (s.poolId + 1) (some (r.gnode, r.org)) :=
      map_update _ (some r.keyed)
    rw [hHome, linkXact_heads]
    exact hWoven.add (by simp [home, hSound.fresh])

/- Unlinking a transaction that is in use. -/
theorem Sound.unlink (hSound : Sound s) (hLive : s.xact x = some r) : Sound (unlinkXact s x r) where
  pos := fun hq => hSound.pos (free_cases (f := s.xact) hq).2
  bound := fun hq => hSound.bound (free_cases (f := s.xact) hq).2
  hashKey := fun hq => hSound.hashKey (free_cases (f := s.xact) hq).2
  owner := by
    refine hSound.owned.erase hLive ?_ (fun n hNe => (unlinkXact_hash).trans (if_neg hNe)) _ _ _
    rw [← hSound.hashKey hLive]
    exact (unlinkXact_hash).trans (if_pos rfl)
  remote := by
    intro y q hq hRemote
    rcases free_cases (f := s.xact) hq with ⟨hNe, hOld⟩
    have hSlot := hSound.remote hOld hRemote
    rw [unlinkXact_hash]
    split
    · exact erase_of_owner_ne hSlot hNe
    · exact hSlot
  woven := by
    have hHome : home (unlinkXact s x r) = Function.update (home s) x none := map_update _ none
    rw [hHome, unlinkXact_heads, unlinkXact_lnode]
    exact hSound.woven.remove (home_of_xact hLive)

/- A store without transactions is sound. -/
theorem sound_empty : Sound
      { poolId := 0
        xact := fun _ => none
        lnode := fun _ => Links.null
        gnode := fun _ => Gnode.empty } where
  pos := nofun
  bound := nofun
  hashKey := nofun
  owner := nofun
  remote := nofun
  woven := by
    have hHeads : ∀ h : Nat × Originator, Gnode.empty.list h.2 = Links.null := by
      rintro ⟨n, org⟩
      cases org <;> rfl
    unfold heads
    simp only [hHeads]
    exact woven_empty

---- Transactions That Do Not Stay ----

/-
  A transaction that is linked and unlinked again leaves the lists, the index and the counters as
  they were.
-/
theorem Sound.unlink_link (hSound : Sound s) (hSame : r.keyed.Same r') :
    Reframed s (unlinkXact (linkXact s.alloc (s.poolId + 1) r) (s.poolId + 1) r') := by
  let x := s.poolId + 1
  let h := (r.gnode, r.org)
  rw [unlinkXact_congr hSame]
  have hLast : ∀ last, (heads s h).prev = some last → (s.alloc.lnode last).next = none := by
    intro last hPrev
    have hNe : last ≠ x := by
      rintro rfl
      exact hSound.last_ne_fresh h hPrev
    rw [s.alloc_lnode hNe]
    exact (hSound.woven.last hPrev).2
  have hRestore := remove_add (x := x) (hSound.last_ne_fresh h) hLast
  have hHead : heads (linkXact s.alloc x r) h = (add s.alloc.lnode (heads s h) x).2 := by
    rw [linkXact_heads, update_self]
    rfl
  exact
    { xact := by
        rw [unlinkXact_xact, linkXact_xact,
          update_idem]
        exact hSound.free_fresh
      poolId := Nat.le_succ _
      lnode := by
        intro y hy
        have hNe : y ≠ x := by omega
        rw [unlinkXact_lnode]
        change (remove (linkXact s.alloc x r).lnode
          (heads (linkXact s.alloc x r) h) x).1 y = _
        rw [hHead]
        exact (hRestore.2 y hNe).trans (s.alloc_lnode hNe)
      hash := by
        intro n
        rw [unlinkXact_hash, linkXact_hash,
          Xact.keyed_gnode]
        split
        · exact erase_insert
            (hSound.hash_ne_fresh n r.key)
        · rfl
      count := by
        intro n org
        rw [unlinkXact_count, linkXact_count,
          Xact.keyed_gnode, Xact.keyed_org]
        change (s.gnode n).count org + _ + _ = _
        split <;> omega
      heads := by
        intro h'
        rw [unlinkXact_heads, Xact.keyed_gnode,
          Xact.keyed_org]
        by_cases hEq : h' = h
        · subst hEq
          rw [update_self]
          rw [hHead]
          change (remove (add s.alloc.lnode (heads s h) x).1
              (add s.alloc.lnode (heads s h) x).2 x).2 =
                heads s h ∨
            _ ∧ (remove (add s.alloc.lnode (heads s h) x).1
              (add s.alloc.lnode (heads s h) x).2 x).2 = _
          rw [hRestore.1]
          by_cases hNone : (heads s h).prev = none
          · exact Or.inr ⟨hNone, if_pos hNone⟩
          · exact Or.inl (if_neg hNone)
        · refine Or.inl ?_
          rw [update_of_ne hEq, linkXact_heads,
            update_of_ne hEq]
          rfl }

/-
  A transaction that is unlinked without having been linked takes the whole list and one count with
  it.
-/
theorem Sound.unlink_unlinked (hSound : Sound s) (r : Xact) :
    Clobbered s (unlinkXact (s.alloc.setXact (s.poolId + 1) r) (s.poolId + 1) r)
      (r.gnode, r.org) := by
  let x := s.poolId + 1
  let h := (r.gnode, r.org)
  have hNull : (s.alloc.setXact x r).lnode x = Links.null := by simp [x, Store.setXact, Store.alloc]
  have hRemove := remove_unlinked (heads s h) hNull
  exact
    { xact := by
        rw [unlinkXact_xact, Store.setXact,
          update_idem]
        exact hSound.free_fresh
      poolId := Nat.le_succ _
      lnode := by
        intro y hy
        have hNe : y ≠ x := by omega
        rw [unlinkXact_lnode]
        change (remove _ (heads s h) x).1 y = _
        rw [hRemove]
        exact s.alloc_lnode hNe
      hash := by
        intro n
        rw [unlinkXact_hash]
        split
        · exact erase_of_not_owner
            (hSound.hash_ne_fresh n r.hashKey)
        · rfl
      count := unlinkXact_count
      heads := by
        rw [unlinkXact_heads]
        change Function.update (heads s) h
          (remove _ (heads s h) x).2 = _
        rw [hRemove] }

end Pretty5gs.Gtp
