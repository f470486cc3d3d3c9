import Pretty5gs.Pfcp.UeIpAlloc

/-
  Addresses of live allocations.

  A node of a pool is in its ring or held by one live allocation. Subnets that serve a DNN in common
  do not overlap, so that the addresses of its allocations are different.

  Main results: `findBest_some` and `findBest_none`, `sound_of_reachable`, `live_addresses_differ`,
  `ue_addresses_are_distinct`.
-/

---- Selection ----

namespace Pretty5gs.Pfcp.UeIp

open List NodeRing

section Selection

variable {eligible : Subnet → Bool} {subnets : List ActiveSubnet}

/- What is found is eligible and has an address left. -/
theorem findBest_some (hFound : findBest eligible subnets start best bestOrder = some found) :
    best = some found ∨ ∃ i subnet, found = start + i ∧ subnets[i]? = some subnet ∧
        eligible subnet.config = true ∧ subnet.pool.avail ≠ 0 := by
  induction subnets generalizing start best bestOrder with
  | nil => exact .inl hFound
  | cons subnet rest ih =>
    rw [findBest] at hFound
    split at hFound
    · next hTaken =>
      rw [Bool.and_eq_true, Bool.and_eq_true, bne_iff_ne] at hTaken
      right
      rcases ih hFound with hHere | ⟨i, other, rfl, hOther⟩
      · cases hHere
        exact ⟨0, subnet, rfl, rfl, hTaken.1⟩
      · exact ⟨i + 1, other, by omega, hOther⟩
    · rcases ih hFound with hBest | ⟨i, other, rfl, hOther⟩
      · exact .inl hBest
      · exact .inr ⟨i + 1, other, by omega, hOther⟩

/- Nothing is found if all that is eligible is exhausted. -/
theorem findBest_none (hNone : findBest eligible subnets start best bestOrder = none) :
    best = none ∧ ∀ subnet ∈ subnets, eligible subnet.config = true →
        subnet.config.selectionOrder < bestOrder → subnet.pool.avail = 0 := by
  induction subnets generalizing start best bestOrder with
  | nil => exact ⟨hNone, fun _ hMem => by cases hMem⟩
  | cons subnet rest ih =>
    rw [findBest] at hNone
    split at hNone
    · next hTaken => exact absurd (ih hNone).1 (by simp)
    · next hLeft =>
      rcases ih hNone with ⟨hBest, hRest⟩
      refine ⟨hBest, ?_⟩
      intro other hMem hEligible hOrder
      rcases mem_cons.mp hMem with rfl | hMem
      · by_contra hAvail
        apply hLeft
        rw [hEligible, Bool.true_and, Bool.and_eq_true, bne_iff_ne, decide_eq_true_iff]
        exact ⟨hAvail, hOrder⟩
      · exact hRest other hMem hEligible hOrder

end Selection

---- Overlapping Subnets ----

section Overlap

variable {config : List Subnet}

theorem overlaps_of_check (hAccepted : checkSubnetOverlapping config = true) :
    config.Pairwise (fun subnet next => overlaps subnet next = false) := by
  induction config with
  | nil => exact .nil
  | cons subnet rest ih =>
    rw [checkSubnetOverlapping, Bool.and_eq_true, all_eq_true] at hAccepted
    refine .cons ?_ (ih hAccepted.2)
    intro next hMem
    simpa using hAccepted.1 next hMem

/- Subnets with a DNN in common are not told apart by it. -/
theorem not_disjoint_of_serves (hServes : subnet.serves dnn = true)
    (hAgain : other.serves again = true) (hSame : sameDnn dnn again = true) :
    subnetDnnSetsDisjoint subnet other = false := by
  unfold subnetDnnSetsDisjoint
  by_cases hAny : (subnet.dnn.isEmpty || other.dnn.isEmpty) = true
  · rw [if_pos hAny]
  · rw [if_neg hAny]
    rw [Bool.or_eq_true, not_or, Bool.not_eq_true, Bool.not_eq_true] at hAny
    cases dnn with
    | none =>
      rw [Subnet.serves] at hServes
      rw [hServes] at hAny
      cases hAny.1
    | some dnn =>
      cases again with
      | none => cases hSame
      | some again =>
        rw [Subnet.serves, subnetMatchesUeDnn, hAny.1, Bool.false_or, any_eq_true] at hServes
        rw [Subnet.serves, subnetMatchesUeDnn, hAny.2, Bool.false_or, any_eq_true] at hAgain
        rcases hServes with ⟨name, hName, hFirst⟩
        rcases hAgain with ⟨title, hTitle, hSecond⟩
        rw [sameDnn, strcaseEq_iff] at hSame
        rw [strcaseEq_iff] at hFirst hSecond
        rw [all_eq_false]
        refine ⟨name, hName, ?_⟩
        rw [Bool.not_eq_true, all_eq_false]
        refine ⟨title, hTitle, ?_⟩
        rw [Bool.not_eq_true, Bool.not_eq_false', strcaseEq_iff, hFirst, hSame, hSecond]

theorem sameDnn_symm (hSame : sameDnn dnn again = true) : sameDnn again dnn = true := by
  cases dnn with
  | none =>
    cases again with
    | none => rfl
    | some again => cases hSame
  | some dnn =>
    cases again with
    | none => cases hSame
    | some again =>
      rw [sameDnn, strcaseEq_iff] at hSame ⊢
      exact hSame.symm

/- Two subnets that are let by have no address in common. -/
theorem not_contains_both (hLetBy : overlaps subnet other = false)
    (hFamily : subnet.gwFamily = other.gwFamily) (hDnn : subnetDnnSetsDisjoint subnet other = false)
    (hFirst : subnet.ip.Contains address) (hSecond : other.ip.Contains address) : False := by
  have hMasked : subnet.ip.sub &&& (subnet.ip.mask &&& other.ip.mask) =
    other.ip.sub &&& (subnet.ip.mask &&& other.ip.mask) := by
    rw [← and_mask_of_contains _ hFirst, ← and_mask_of_contains _ hSecond]
    grind
  simp [overlaps, hFamily, hDnn, hMasked] at hLetBy

end Overlap

---- Filled Pools ----

/- The increment of the filling loop does not overflow. -/
def Fillable (sess : BitVec 64) (subnet : Subnet) : Prop :=
  2 ≤ subnet.ip.prefixlen ∨ sess.toNat + 2 ≤ intMax

/- The nodes of a subnet that live allocations hold. -/
def taken (live : List Allocation) (index : Nat) : List Nat :=
  NodeRing.taken Allocation.subnet Allocation.node live index

/- The addresses of a pool are different ones of its subnet. -/
def ActiveSubnet.Filled (subnet : ActiveSubnet) : Prop := subnet.array.Nodup ∧
    ∀ word ∈ subnet.array, subnet.config.ip.Contains (be32toh word)

structure Sound (config : List Subnet) (s : State) : Prop where
  configs : s.subnets.map ActiveSubnet.config = config
  filled : ∀ subnet ∈ s.subnets, subnet.Filled
  pooled : ∀ (index : Nat) (subnet : ActiveSubnet), s.subnets[index]? = some subnet →
      subnet.pool.Pooled (taken s.live index) (List.range subnet.array.length)
  served : ∀ allocation ∈ s.live, ∃ subnet, s.subnets[allocation.subnet]? = some subnet ∧
        subnet.config.serves allocation.dnn = true

section Filling

variable {sess : BitVec 64}

theorem poolSize_of_fillable (hFillable : Fillable sess subnet) :
    0 ≤ poolSize sess subnet ∧ (2 ≤ subnet.ip.prefixlen ∨
        (poolSize sess subnet).toNat + 2 ≤ intMax) := by
  unfold poolSize
  dsimp only
  have hCapacity := network_add_capacity_le subnet.ip
  rcases hFillable with hPrefix | hSess
  · refine ⟨?_, .inl hPrefix⟩
    split
    · omega
    · next hNot =>
      rw [not_and] at hNot
      have hLarge := hNot hPrefix
      have hLow := BitVec.le_toInt (sess.setWidth 32)
      rw [BitVec.toNat_ofInt] at hLarge
      omega
  · have hNat : (sess.setWidth 32).toInt = sess.toNat := by
      unfold intMax at hSess
      rw [BitVec.toInt_eq_toNat_of_lt]
      · rw [BitVec.toNat_setWidth, Nat.mod_eq_of_lt (by omega)]
      · rw [BitVec.toNat_setWidth]
        omega
    rw [hNat]
    split
    · next hCut => exact ⟨by omega, .inl hCut.1⟩
    · refine ⟨by omega, .inr ?_⟩
      rwa [Int.toNat_natCast]

theorem activate_of_fillable (hFillable : Fillable sess subnet) :
    ∃ active, activate sess subnet = some active ∧ active.config = subnet ∧ active.Filled ∧
      active.pool.Pooled [] (List.range active.array.length) := by
  rcases poolSize_of_fillable hFillable with ⟨hSize, hDefined⟩
  rcases subnetPoolGenerate_of_network subnet.ip subnet.noRanges
    hDefined with ⟨array, hArray, hFits, hNodup, hContains⟩
  unfold activate
  rw [if_neg (by omega)]
  simp only [hArray]
  refine ⟨_, rfl, rfl, ⟨hNodup, hContains⟩, ?_⟩
  have hPool := pooled_shrink_full (List.range (poolSize sess subnet).toNat)
    (show array.length ≤ _ by rwa [length_range])
  rwa [take_range, Nat.min_eq_left hFits] at hPool

/- Each subnet of the configuration gets its pool. -/
theorem mapM_activate {config : List Subnet} (hFillable : ∀ subnet ∈ config, Fillable sess subnet) :
    ∃ subnets, config.mapM (activate sess) = some subnets ∧
      subnets.map ActiveSubnet.config = config ∧ ∀ subnet ∈ subnets, subnet.Filled ∧
          subnet.pool.Pooled [] (List.range subnet.array.length) := by
  induction config with
  | nil => exact ⟨[], rfl, rfl, fun _ hMem => by cases hMem⟩
  | cons subnet rest ih =>
    rcases activate_of_fillable (hFillable subnet mem_cons_self) with
      ⟨active, hActive, hConfig, hFresh⟩
    rcases ih (fun other hMem =>
      hFillable other (mem_cons_of_mem _ hMem)) with
      ⟨others, hOthers, hConfigs, hRest⟩
    refine ⟨active :: others, ?_, ?_, ?_⟩
    · rw [mapM_cons, hActive, hOthers]
      rfl
    · rw [map_cons, hConfig, hConfigs]
    · intro other hMem
      rcases mem_cons.mp hMem with rfl | hMem
      · exact hFresh
      · exact hRest other hMem

theorem initialState_sound (hFillable : ∀ subnet ∈ config, Fillable sess subnet) :
    ∃ s, initialState sess config = some s ∧ Sound config s := by
  rcases mapM_activate hFillable with ⟨subnets, hSubnets, hConfigs, hFresh⟩
  refine ⟨{ subnets := subnets, live := [] }, ?_, ?_⟩
  · rw [initialState, hSubnets]
    rfl
  · exact
    { configs := hConfigs
      filled := fun subnet hMem => (hFresh subnet hMem).1
      pooled := fun index subnet hAt => (hFresh subnet (mem_of_getElem? hAt)).2
      served := fun _ hMem => by cases hMem }

end Filling

---- Requests ----

section Requests

variable {config : List Subnet} {s : State} {dnn : Option Dnn}

/- The pools of all subnets for the DNN are exhausted. -/
def State.Exhausted (s : State) (dnn : Option Dnn) : Prop :=
  ∀ index subnet, s.subnets[index]? = some subnet → subnet.config.serves dnn = true →
    ∀ word ∈ subnet.array, ∃ allocation ∈ s.live, allocation.subnet = index ∧
          s.address allocation = some word

theorem exhausted_of_avail (hSound : Sound config s)
    (hAvail : ∀ subnet ∈ s.subnets, subnet.config.serves dnn = true → subnet.pool.avail = 0) :
    s.Exhausted dnn := by
  intro index subnet hAt hServes word hWord
  rcases List.getElem?_of_mem hWord with ⟨node, hNode⟩
  have hLess : node < subnet.array.length := (List.getElem?_eq_some_iff.mp hNode).1
  have hTaken := (hSound.pooled index subnet hAt).taken_of_avail
    (hAvail subnet (mem_of_getElem? hAt) hServes) (mem_range.mpr hLess)
  rcases NodeRing.mem_taken.mp hTaken with ⟨allocation, hLive, hSame, hHolds⟩
  refine ⟨allocation, hLive, hSame, ?_⟩
  rw [State.address, hSame, hAt, Option.bind_some, hHolds, hNode]

theorem findSubnetFor_eq :
    findSubnetFor subnets dnn = findBest (fun subnet => subnet.serves dnn) subnets 0 none
        intMax := by
  cases dnn with
  | none => rfl
  | some dnn => rfl

/- What the loops over the subnets find. -/
theorem findSubnetFor_cases
    (hOrder : ∀ subnet ∈ s.subnets, subnet.config.serves dnn = true →
        subnet.config.selectionOrder < intMax) :
    (findSubnetFor s.subnets dnn = none ∧ ∀ subnet ∈ s.subnets, subnet.config.serves dnn = true →
            subnet.pool.avail = 0) ∨ ∃ index subnet, findSubnetFor s.subnets dnn = some index ∧
        s.subnets[index]? = some subnet ∧ subnet.config.serves dnn = true ∧
        subnet.pool.avail ≠ 0 := by
  rw [findSubnetFor_eq]
  cases hBest : findBest (fun subnet => subnet.serves dnn) s.subnets 0 none intMax with
  | none =>
    left
    refine ⟨rfl, ?_⟩
    intro subnet hMem hServes
    exact (findBest_none hBest).2 subnet hMem hServes (hOrder subnet hMem hServes)
  | some index =>
    right
    rcases findBest_some hBest with hNever | ⟨i, subnet, hIndex, hAt, hServes, hAvail⟩
    · cases hNever
    · rw [Nat.zero_add] at hIndex
      exact ⟨index, subnet, rfl, hIndex ▸ hAt, hServes, hAvail⟩

/-
  A request fails only where all pools for it are exhausted; otherwise it takes a node that no live
  allocation holds.
-/
theorem ueIpAlloc_cases (hSound : Sound config s) (hAllowed : Allowed config s (.alloc dnn)) :
    (ueIpAlloc s dnn = .ok (none, s) ∧ s.Exhausted dnn) ∨ ∃ allocation subnet pool,
        ueIpAlloc s dnn = .ok (some allocation, s.update allocation.subnet subnet pool
                (s.live ++ [allocation])) ∧ allocation.dnn = dnn ∧
        s.subnets[allocation.subnet]? = some subnet ∧ subnet.config.serves dnn = true ∧ pool.Pooled
          (allocation.node :: taken s.live allocation.subnet) (List.range subnet.array.length) := by
  have hOrder : ∀ subnet ∈ s.subnets, subnet.config.serves dnn = true →
    subnet.config.selectionOrder < intMax := by
    intro subnet hMem
    refine hAllowed subnet.config ?_
    rw [← hSound.configs]
    exact mem_map_of_mem hMem
  rcases findSubnetFor_cases hOrder with ⟨hFound, hAvail⟩ |
    ⟨index, subnet, hFound, hAt, hServes, hAvail⟩
  · left
    refine ⟨?_, exhausted_of_avail hSound hAvail⟩
    simp only [ueIpAlloc, hFound]
  · right
    rcases ogsPoolAlloc_cases (hSound.pooled index subnet hAt)
      with ⟨hNone, _⟩ | ⟨node, pool, hAlloc, hPool⟩
    · exact absurd hNone hAvail
    · refine ⟨ { dnn := dnn, subnet := index, node := node },
      subnet, pool, ?_, rfl, hAt, hServes, hPool⟩
      simp only [ueIpAlloc, hFound, hAt, hAlloc]

end Requests

---- Runs ----

section Runs

variable {sess : BitVec 64} {config : List Subnet} {s : State}

/- The pool of one subnet changes with its allocations. -/
theorem Sound.update (hSound : Sound config s) (hAt : s.subnets[index]? = some subnet)
    (hPool : pool.Pooled (taken live index) (List.range subnet.array.length))
    (hOthers : ∀ other, other ≠ index → (taken s.live other).Perm (taken live other))
    (hServed : ∀ allocation ∈ live, ∃ subnet, s.subnets[allocation.subnet]? = some subnet ∧
          subnet.config.serves allocation.dnn = true) :
    Sound config (s.update index subnet pool live) := by
  have hLess : index < s.subnets.length := (List.getElem?_eq_some_iff.mp hAt).1
  have hSelf : (s.update index subnet pool live).subnets[index]? =
    some { subnet with pool := pool } := List.getElem?_set_self hLess
  have hRest : ∀ other, other ≠ index → (s.update index subnet pool live).subnets[other]? =
    s.subnets[other]? := fun _ hNe => List.getElem?_set_ne hNe.symm
  constructor
  · rw [← hSound.configs]
    apply ext_getElem?
    intro other
    rw [List.getElem?_map, List.getElem?_map]
    by_cases hSame : other = index
    · rw [hSame, hSelf, hAt]
      rfl
    · rw [hRest other hSame]
  · intro other hMem
    rcases mem_or_eq_of_mem_set hMem with hMem | rfl
    · exact hSound.filled other hMem
    · exact hSound.filled subnet (mem_of_getElem? hAt)
  · intro place other hPlace
    by_cases hSame : place = index
    · rw [hSame, hSelf] at hPlace
      cases hPlace
      rw [hSame]
      exact hPool
    · rw [hRest place hSame] at hPlace
      exact (hSound.pooled place other hPlace).perm (hOthers place hSame)
  · intro allocation hMem
    rcases hServed allocation hMem with ⟨held, hHeld, hFor⟩
    by_cases hSame : allocation.subnet = index
    · rw [hSame, hAt] at hHeld
      cases hHeld
      rw [hSame]
      exact ⟨_, hSelf, hFor⟩
    · rw [hRest _ hSame]
      exact ⟨held, hHeld, hFor⟩

theorem Sound.alloc (hSound : Sound config s) (hAllowed : Allowed config s (.alloc dnn))
    (hAlloc : ueIpAlloc s dnn = .ok (result, s')) : Sound config s' := by
  rcases ueIpAlloc_cases hSound hAllowed with ⟨hRefused, _⟩ |
    ⟨allocation, subnet, pool, hTaken, hDnn, hAt, hServes, hPool⟩
  · rw [hRefused] at hAlloc
    cases hAlloc
    exact hSound
  · rw [hTaken] at hAlloc
    cases hAlloc
    refine hSound.update hAt ?_ ?_ ?_
    · rw [taken, taken_concat, if_pos rfl]
      exact hPool.perm (perm_append_singleton _ _).symm
    · intro other hNe
      unfold taken
      rw [taken_concat, if_neg hNe.symm, append_nil]
    · intro holder hMem
      rcases mem_append.mp hMem with hMem | hMem
      · exact hSound.served holder hMem
      · rw [mem_singleton.mp hMem, hDnn]
        exact ⟨subnet, hAt, hServes⟩

theorem Sound.free (hSound : Sound config s) (hFree : ueIpFree s place = .ok s') :
    Sound config s' := by
  unfold ueIpFree at hFree
  cases hLive : s.live[place]? with
  | none =>
    simp only [hLive] at hFree
    cases hFree
    exact hSound
  | some allocation =>
    rcases hSound.served allocation (mem_of_getElem? hLive) with ⟨subnet, hAt, _⟩
    simp only [hLive, hAt] at hFree
    cases hFree
    refine hSound.update hAt ?_ ?_ ?_
    · have hPerm := perm_taken_eraseIdx Allocation.subnet Allocation.node hLive allocation.subnet
      rw [if_pos rfl] at hPerm
      exact ((hSound.pooled _ _ hAt).perm hPerm.symm).put
    · intro other hNe
      have hPerm := perm_taken_eraseIdx Allocation.subnet Allocation.node hLive other
      rw [if_neg hNe.symm] at hPerm
      exact hPerm.symm
    · intro holder hMem
      exact hSound.served holder (mem_of_mem_eraseIdx hMem)

theorem sound_of_reachable (hFillable : ∀ subnet ∈ config, Fillable sess subnet)
    (hReach : (ueIpSystem sess config).ReachableBy (Allowed config) s) : Sound config s := by
  refine Faulty.System.ReachableBy.invariant ?_ ?_ hReach
  · intro start hInit
    rcases initialState_sound hFillable with ⟨first, hFirst, hSound⟩
    have hSame : some first = some start := hFirst.symm.trans hInit
    cases hSame
    exact hSound
  · intro before op after _ hSound hAllowed hExec
    cases op with
    | alloc dnn =>
      rcases Faulty.map_eq_ok hExec with ⟨⟨result, next⟩, hAlloc, rfl⟩
      exact hSound.alloc hAllowed hAlloc
    | free place => exact hSound.free hExec

---- Addresses ----

/- A live allocation has an address of its subnet. -/
theorem Sound.address (hSound : Sound config s) (hLive : allocation ∈ s.live) :
    ∃ subnet word, s.subnets[allocation.subnet]? = some subnet ∧
      subnet.config.serves allocation.dnn = true ∧ subnet.array[allocation.node]? = some word ∧
      s.address allocation = some word ∧ subnet.config.ip.Contains (be32toh word) := by
  rcases hSound.served allocation hLive with ⟨subnet, hAt, hServes⟩
  have hHeld : allocation.node ∈ taken s.live allocation.subnet := NodeRing.mem_taken.mpr
    ⟨allocation, hLive, rfl, rfl⟩
  have hLess : allocation.node < subnet.array.length := mem_range.mp
    ((hSound.pooled _ _ hAt).mem_of_taken hHeld)
  have hNode := List.getElem?_eq_getElem hLess
  refine ⟨subnet, _, hAt, hServes, hNode, ?_, ?_⟩
  · rw [State.address, hAt, Option.bind_some, hNode]
  · exact (hSound.filled subnet (mem_of_getElem? hAt)).2 _ (getElem_mem hLess)

/- Live allocations from one subnet hold different nodes. -/
theorem Sound.node_ne (hSound : Sound config s) {i j : Nat} (hFirst : s.live[i]? = some first)
    (hSecond : s.live[j]? = some second) (hApart : i ≠ j) (hSubnet : first.subnet = second.subnet) :
    first.node ≠ second.node := by
  rcases hSound.served first (mem_of_getElem? hFirst) with ⟨subnet, hAt, _⟩
  have hNodup := (hSound.pooled _ _ hAt).nodup_taken nodup_range
  have hPerm := perm_taken_eraseIdx Allocation.subnet Allocation.node hFirst first.subnet
  rw [if_pos rfl] at hPerm
  have hOnce := (nodup_cons.mp (hPerm.nodup_iff.mpr hNodup)).1
  intro hSame
  apply hOnce
  rw [hSame]
  refine mem_taken.mpr ⟨second, ?_, hSubnet.symm, rfl⟩
  exact mem_eraseIdx_iff_getElem?.mpr ⟨j, hApart.symm, hSecond⟩

/- Subnets at different places do not overlap for a DNN. -/
theorem Sound.subnets_apart (hSound : Sound config s)
    (hAccepted : checkSubnetOverlapping config = true)
    (hFamily : ∀ subnet ∈ config, ∀ other ∈ config, subnet.gwFamily = other.gwFamily) {i j : Nat}
    (hFirst : s.subnets[i]? = some subnet) (hSecond : s.subnets[j]? = some other) (hApart : i ≠ j)
    (hServes : subnet.config.serves dnn = true) (hAgain : other.config.serves again = true)
    (hSame : sameDnn dnn again = true) {address : U32}
    (hContains : subnet.config.ip.Contains address) (hBoth : other.config.ip.Contains address) :
    False := by
  have hPlace : ∀ {k : Nat} {active : ActiveSubnet}, s.subnets[k]? = some active →
    config[k]? = some active.config := by
    intro k active hAt
    rw [← hSound.configs, List.getElem?_map, hAt]
    rfl
  have hFamilies : subnet.config.gwFamily = other.config.gwFamily :=
    hFamily _ (mem_of_getElem? (hPlace hFirst)) _ (mem_of_getElem? (hPlace hSecond))
  have hDnn := not_disjoint_of_serves hServes hAgain hSame
  have hPairs := pairwise_iff_getElem.mp (overlaps_of_check hAccepted)
  rcases List.getElem?_eq_some_iff.mp (hPlace hFirst) with ⟨hI, hFirstAt⟩
  rcases List.getElem?_eq_some_iff.mp (hPlace hSecond) with ⟨hJ, hSecondAt⟩
  rcases Nat.lt_or_gt_of_ne hApart with hLess | hGreater
  · have hLetBy := hPairs i j hI hJ hLess
    rw [hFirstAt, hSecondAt] at hLetBy
    exact not_contains_both hLetBy hFamilies hDnn hContains hBoth
  · have hLetBy := hPairs j i hJ hI hGreater
    rw [hFirstAt, hSecondAt] at hLetBy
    have hDnnBack : subnetDnnSetsDisjoint other.config subnet.config = false :=
      not_disjoint_of_serves hAgain hServes (sameDnn_symm hSame)
    exact not_contains_both hLetBy hFamilies.symm hDnnBack hBoth hContains

/- Any two live allocations for a DNN, each from its subnets. -/
def State.Distinct (config : List Subnet) (s : State) : Prop :=
  ∀ (i j : Nat) (first second : Allocation), s.live[i]? = some first → s.live[j]? = some second →
    i ≠ j → sameDnn first.dnn second.dnn = true → ∃ word other, s.address first = some word ∧
      s.address second = some other ∧ word ≠ other ∧ (∃ subnet ∈ config,
        subnet.serves first.dnn = true ∧ subnet.ip.Contains (be32toh word)) ∧ (∃ subnet ∈ config,
        subnet.serves second.dnn = true ∧ subnet.ip.Contains (be32toh other))

theorem live_addresses_differ (hSound : Sound config s)
    (hAccepted : checkSubnetOverlapping config = true)
    (hFamily : ∀ subnet ∈ config, ∀ other ∈ config, subnet.gwFamily = other.gwFamily) :
    s.Distinct config := by
  intro i j first second hFirst hSecond hApart hSame
  rcases hSound.address (mem_of_getElem? hFirst) with
    ⟨subnet, word, hAt, hServes, hNode, hAddress, hContains⟩
  rcases hSound.address (mem_of_getElem? hSecond) with
    ⟨other, again, hThere, hFor, hElse, hSecondAddress, hWithin⟩
  have hConfig : ∀ {k : Nat} {active : ActiveSubnet}, s.subnets[k]? = some active →
    active.config ∈ config := by
    intro k active hActive
    rw [← hSound.configs]
    exact mem_map_of_mem (mem_of_getElem? hActive)
  refine ⟨word, again, hAddress, hSecondAddress, ?_, ⟨_, hConfig hAt, hServes, hContains⟩,
    ⟨_, hConfig hThere, hFor, hWithin⟩⟩
  intro hWord
  by_cases hSubnet : first.subnet = second.subnet
  · rw [← hSubnet, hAt] at hThere
    cases hThere
    have hNodup := (hSound.filled subnet (mem_of_getElem? hAt)).1
    have hNe := hSound.node_ne hFirst hSecond hApart hSubnet
    rw [← hWord] at hElse
    have hLess := (List.getElem?_eq_some_iff.mp hNode).1
    exact hNe ((List.getElem?_inj hLess hNodup).mp (hNode.trans hElse.symm))
  · rw [← hWord] at hWithin
    exact hSound.subnets_apart hAccepted hFamily hAt hThere
      hSubnet hServes hFor hSame hContains hWithin

end Runs

/-
  In a run of requests whose DNNs have no subnet of the last selection order, addresses are never
  handed out twice for a DNN, and a request fails only for want of addresses.
-/
theorem ue_addresses_are_distinct (sess : BitVec 64) (config : List Subnet)
    (hAccepted : checkSubnetOverlapping config = true)
    (hFillable : ∀ subnet ∈ config, Fillable sess subnet)
    (hFamily : ∀ subnet ∈ config, ∀ other ∈ config, subnet.gwFamily = other.gwFamily) :
    (∃ s, initialState sess config = some s) ∧ ∀ s,
        (ueIpSystem sess config).ReachableBy (Allowed config) s → s.Distinct config ∧
            ∀ dnn, Allowed config s (.alloc dnn) → ∃ result s', ueIpAlloc s dnn = .ok (result, s') ∧
                  (result = none → s.Exhausted dnn) := by
  constructor
  · rcases initialState_sound hFillable with ⟨s, hInit, _⟩
    exact ⟨s, hInit⟩
  · intro s hReach
    have hSound := sound_of_reachable hFillable hReach
    refine ⟨live_addresses_differ hSound hAccepted hFamily, ?_⟩
    intro dnn hAllowed
    rcases ueIpAlloc_cases hSound hAllowed with ⟨hRefused, hExhausted⟩ |
      ⟨allocation, subnet, pool, hTaken, _⟩
    · exact ⟨none, s, hRefused, fun _ => hExhausted⟩
    · exact ⟨some allocation, _, hTaken, fun hNone => by cases hNone⟩

/- 10.45.0.0/29 with the gateway 10.45.0.1. -/
def smallSubnet (dnn : List Dnn) (order : Int) (hOrder : order ≤ intMax) : Subnet where
  ip :=
    { network := 0x0a2d0000
      prefixlen := 29
      prefixlen_pos := by decide
      prefixlen_le := by decide
      aligned := by decide
      gateway := 0x0a2d0001
      ranges := [] }
  noRanges := rfl
  gwFamily := .inet
  dnn := dnn
  selectionOrder := order
  selectionOrder_le := hOrder

/- The prefix is used once for `a` and once for `b`. -/
def sharedPrefix : List Subnet := [smallSubnet [[0x61]] 0 (by decide),
   smallSubnet [[0x62]] 10 (by decide)]

/- Two requests for `a`, one of them as `A`, and one for `b`. -/
def sharedRequests : List Op := [.alloc (some [0x61]), .alloc (some [0x62]),
   .alloc (some [0x41]), .free 1, .alloc (some [0x62])]

theorem ue_addresses_are_distinct_shared_prefix :
    checkSubnetOverlapping sharedPrefix = true ∧ ∃ s, (ueIpSystem 1000 sharedPrefix).ReachableBy
            (Allowed sharedPrefix) s ∧ s.live.length = 3 ∧ s.Distinct sharedPrefix := by
  have hAccepted : checkSubnetOverlapping sharedPrefix = true := by decide +kernel
  have hAllowed : ∀ s op, Allowed sharedPrefix s op := by
    intro s op
    cases op with
    | alloc dnn =>
      rintro subnet (_ | ⟨_, _ | ⟨_, hMem⟩⟩) _
      · decide
      · decide
      · cases hMem
    | free place => trivial
  have hRuns : (initialState 1000 sharedPrefix).any (fun s =>
    ((ueIpSystem 1000 sharedPrefix).run s sharedRequests).toOption.any (fun s' =>
      decide (s'.live.length = 3))) = true := by
    decide +kernel
  rcases (Option.any_eq_true _ _).mp hRuns with ⟨start, hInit, hEnds⟩
  rcases Faulty.System.exists_run hEnds with ⟨s, hRun, hLength⟩
  have hReach : (ueIpSystem 1000 sharedPrefix).ReachableBy (Allowed sharedPrefix) s :=
    Faulty.System.ReachableBy.run (.init hInit)
      (Faulty.System.allowedRun_of_forall hAllowed) hRun
  refine ⟨hAccepted, s, hReach, hLength, ?_⟩
  refine ((ue_addresses_are_distinct 1000 sharedPrefix hAccepted ?_ ?_).2 s hReach).1
  · rintro subnet (_ | ⟨_, _ | ⟨_, hMem⟩⟩)
    · exact .inl (by decide)
    · exact .inl (by decide)
    · cases hMem
  · decide +kernel

/-
  A subnet whose order is `INT_MAX` is never selected, and a request fails with all of its addresses
  free.
-/
theorem last_order_is_not_selected :
    checkSubnetOverlapping [smallSubnet [] intMax (Int.le_refl _)] = true ∧ ∃ s, initialState 1000
            [smallSubnet [] intMax (Int.le_refl _)] = some s ∧
        ueIpAlloc s (some [0x61]) = .ok (none, s) ∧ ¬ s.Exhausted (some [0x61]) := by
  have hRuns : (initialState 1000 [smallSubnet [] intMax (Int.le_refl _)]).any (fun s =>
    decide (s.live = []) && (findSubnetFor s.subnets (some [0x61])).isNone &&
      (s.subnets[0]?).any (fun subnet =>
        subnet.config.serves (some [0x61]) && !subnet.array.isEmpty)) = true := by
    decide +kernel
  rcases (Option.any_eq_true _ _).mp hRuns with ⟨s, hInit, hState⟩
  rw [Bool.and_eq_true, Bool.and_eq_true, decide_eq_true_iff, Option.isNone_iff_eq_none] at hState
  rcases hState with ⟨⟨hLive, hNone⟩, hFree⟩
  rcases (Option.any_eq_true _ _).mp hFree with ⟨subnet, hAt, hServes⟩
  rw [Bool.and_eq_true] at hServes
  refine ⟨by decide +kernel, s, hInit, ?_, ?_⟩
  · rw [ueIpAlloc, hNone]
  · intro hExhausted
    have hEmpty : subnet.array ≠ [] := by simpa using hServes.2
    rcases exists_mem_of_ne_nil _ hEmpty with ⟨word, hWord⟩
    rcases hExhausted 0 subnet hAt hServes.1 word hWord with ⟨allocation, hMem, _⟩
    rw [hLive] at hMem
    cases hMem

end Pretty5gs.Pfcp.UeIp
