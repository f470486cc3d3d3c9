import Mathlib.Data.List.Nodup
import Mathlib.Data.Set.Card
import Pretty5gs.Core.Types
import Pretty5gs.Library.ByteSwap

/-
  Filling the address pool of an IPv4 subnet.

  Addresses are kept in network byte order, and the source adds to the words as a little-endian host
  reads them. Here an address is the number that it stands for, and `htobe32` gives the word.

  Main results: `fillRange_cases` and `fillRange_of_stop`, `filled_of_segments`, `network_segment`.
-/

---- Subnets ----

namespace Pretty5gs.Pfcp.UeIp

/- A word of an address as a little-endian host reads it. -/
abbrev Word := BitVec 32

/- `htobe32` and `be32toh` where the host adds to the words. -/
def htobe32 (value : U32) : Word := ByteSwap.swap value

def be32toh (word : Word) : U32 := ByteSwap.swap word

@[simp] theorem be32toh_htobe32 : be32toh (htobe32 value) = value := ByteSwap.swap_swap value

@[simp] theorem htobe32_be32toh (word : Word) : htobe32 (be32toh word) = word :=
  ByteSwap.swap_swap word

theorem htobe32_injective : Function.Injective htobe32 := ByteSwap.swap_injective

theorem be32toh_injective : Function.Injective be32toh := ByteSwap.swap_injective

structure AddressRange where
  low : U32
  high : U32
  ordered : low.toNat ≤ high.toNat

def AddressRange.Contains (range : AddressRange) (address : U32) : Prop :=
  range.low.toNat ≤ address.toNat ∧ address.toNat ≤ range.high.toNat

instance (range : AddressRange) (address : U32) : Decidable (range.Contains address) :=
  inferInstanceAs (Decidable (_ ∧ _))

/-
  The part of `ogs_pfcp_subnet_t` that the pool is filled from. The network address has no bits
  behind the prefix (`fix_subnet`).
-/
structure Ipv4Subnet where
  network : U32
  prefixlen : Nat
  prefixlen_pos : 0 < prefixlen
  prefixlen_le : prefixlen ≤ 32
  aligned : 2 ^ (32 - prefixlen) ∣ network.toNat
  gateway : U32
  ranges : List AddressRange

namespace Ipv4Subnet

variable (subnet : Ipv4Subnet)

/- The number of addresses of the subnet. -/
def capacity : Nat := 2 ^ (32 - subnet.prefixlen)

/- `sub.mask`: as many leading bits as the prefix is long. -/
def mask : Word := htobe32 (~~~BitVec.ofNat 32 (subnet.capacity - 1))

def sub : Word := htobe32 subnet.network

def gw : Word := htobe32 subnet.gateway

def broadcast : Word := subnet.sub + ~~~subnet.mask

def Contains (address : U32) : Prop := subnet.network.toNat ≤ address.toNat ∧
    address.toNat < subnet.network.toNat + subnet.capacity

/-
  `start` and `end` of each range that is gone through. Where no ranges are configured there is a
  single one.
-/
def bounds : List (Word × Word) :=
  match subnet.ranges with
  | [] => [(subnet.sub, subnet.broadcast)]
  | range :: ranges =>
      (range :: ranges).map (fun range => (htobe32 range.low, htobe32 range.high + htobe32 1))

/- An address that is configured to be in the pool. -/
def Configured (address : U32) : Prop :=
  match subnet.ranges with
  | [] =>
      subnet.network.toNat ≤ address.toNat ∧ address.toNat + 1 <
          subnet.network.toNat + subnet.capacity
  | range :: ranges => ∃ entry ∈ range :: ranges, entry.Contains address

def Wants (address : U32) : Prop := subnet.Configured address ∧
    address ≠ subnet.network ∧ address ≠ subnet.gateway

/- The word is neither the network's nor the gateway's. -/
def keeps (word : Word) : Bool := word ≠ subnet.sub && word ≠ subnet.gw

end Ipv4Subnet

---- Filling ----

def intMax : Nat := 2147483647

/- `ue_ip->addr` for a value of `inc`. -/
def entry (start : Word) (inc : Nat) : Word := start + htobe32 (BitVec.ofNat 32 inc)

/-
  The `while` loop over one range. `inc` is an `int` that may be incremented `left` more times;
  beyond that the source has no defined behaviour. The pool is the entries in front of `poolindex`.
-/
def fillRange (subnet : Ipv4Subnet) (size : Nat) (start stop : Word) :
    (left inc : Nat) → List Word → Option (List Word)
  | 0, _, pool =>
      if pool.length < size then none
      else some pool
  | left + 1, inc, pool =>
      if pool.length < size then
        if entry start inc = stop then some pool
        else if entry start inc = subnet.sub then
          fillRange subnet size start stop left (inc + 1) pool
        else if entry start inc = subnet.gw then
          fillRange subnet size start stop left (inc + 1) pool
        else fillRange subnet size start stop left (inc + 1) (pool ++ [entry start inc])
      else some pool

/- `subnet_pool_generate` on a pool of the given size. -/
def subnetPoolGenerate (subnet : Ipv4Subnet) (size : Nat) : Option (List Word) :=
  subnet.bounds.foldlM (fun pool bound => fillRange subnet size bound.1 bound.2 intMax 0 pool) []

/- The pool holds the addresses that are wanted, each once, and no others. -/
def Filled (subnet : Ipv4Subnet) (size : Nat) : Prop := ∃ pool,
    subnetPoolGenerate subnet size = some pool ∧ pool.Nodup ∧
    ∀ address, htobe32 address ∈ pool ↔ subnet.Wants address

---- One Range ----

section Loop

variable {subnet : Ipv4Subnet} {size : Nat} {start stop : Word}

/- The entries of so many increments that are kept. -/
def kept (subnet : Ipv4Subnet) (start : Word) (inc count : Nat) : List Word :=
  ((List.range' inc count).map (entry start)).filter subnet.keeps

theorem kept_succ : kept subnet start inc (count + 1) =
      (if subnet.keeps (entry start inc) then [entry start inc]
      else []) ++ kept subnet start (inc + 1) count := by
  rw [kept, List.range'_succ, List.map_cons, List.filter_cons]
  split <;> rfl

open Ipv4Subnet

theorem mem_kept :
    word ∈ kept subnet start inc count ↔ (∃ i < count, entry start (inc + i) = word) ∧
        word ≠ subnet.sub ∧ word ≠ subnet.gw := by
  unfold kept keeps
  rw [List.mem_filter, List.mem_map, Bool.and_eq_true, decide_eq_true_iff, decide_eq_true_iff]
  refine and_congr_left fun _ => ?_
  constructor
  · rintro ⟨i, hMem, rfl⟩
    rcases List.mem_range'_1.mp hMem with ⟨hLow, hHigh⟩
    refine ⟨i - inc, by omega, ?_⟩
    rw [Nat.add_sub_cancel' hLow]
  · rintro ⟨i, hLess, rfl⟩
    exact ⟨inc + i, List.mem_range'_1.mpr ⟨by omega, by omega⟩, rfl⟩

theorem entry_inj (hI : i < 2 ^ 32) (hJ : j < 2 ^ 32) (hSame : entry start i = entry start j) :
    i = j := by
  have hWords := htobe32_injective ((BitVec.add_right_inj start).mp hSame)
  have hNat := congrArg BitVec.toNat hWords
  rw [BitVec.toNat_ofNat, BitVec.toNat_ofNat, Nat.mod_eq_of_lt hI, Nat.mod_eq_of_lt hJ] at hNat
  exact hNat

theorem nodup_kept (hCount : count ≤ 2 ^ 32) : (kept subnet start 0 count).Nodup := by
  refine List.Nodup.filter _ ?_
  refine List.Nodup.map_on ?_ List.nodup_range'
  intro i hI j hJ hSame
  rw [List.mem_range'_1] at hI hJ
  exact entry_inj (by omega) (by omega) hSame

/- One turn of the loop: the entry is kept or skipped. -/
theorem fillRange_succ : fillRange subnet size start stop (left + 1) inc pool =
      if pool.length < size then
        if entry start inc = stop then some pool
        else
          fillRange subnet size start stop left (inc + 1) (pool ++
              if subnet.keeps (entry start inc) then [entry start inc]
              else [])
      else some pool := by
  rw [fillRange]
  by_cases hSub : entry start inc = subnet.sub
  · have hSkip : subnet.keeps (entry start inc) = false := by
      simp [keeps, hSub]
    rw [hSkip, if_pos hSub, if_neg Bool.false_ne_true, List.append_nil]
  · rw [if_neg hSub]
    by_cases hGw : entry start inc = subnet.gw
    · have hSkip : subnet.keeps (entry start inc) = false := by
        simp [keeps, hGw]
      rw [hSkip, if_pos hGw, if_neg Bool.false_ne_true, List.append_nil]
    · have hKeep : subnet.keeps (entry start inc) = true := by
        simp [keeps, hSub, hGw]
      rw [hKeep, if_neg hGw, if_pos rfl]

variable (subnet size start stop) in
/-
  The loop keeps entries in front of the end until there is no more room, the end is come to or
  `inc` overflows.
-/
theorem fillRange_cases (left inc : Nat) (pool : List Word) :
    ∃ count ≤ left, (∀ i < count, entry start (inc + i) ≠ stop) ∧
      ((fillRange subnet size start stop left inc pool = none ∧ count = left ∧
          (pool ++ kept subnet start inc count).length < size) ∨
        (fillRange subnet size start stop left inc pool =
            some (pool ++ kept subnet start inc count) ∧ (pool.length ≤ size →
            (pool ++ kept subnet start inc count).length ≤ size) ∧
          (size ≤ (pool ++ kept subnet start inc count).length ∨ count < left ∧
              entry start (inc + count) = stop))) := by
  have hNone : kept subnet start inc 0 = [] := rfl
  induction left generalizing inc pool with
  | zero =>
    refine ⟨0, Nat.le_refl _, fun _ hLess => absurd hLess (Nat.not_lt_zero _), ?_⟩
    rw [hNone, List.append_nil, fillRange]
    split
    · next hRoom => exact .inl ⟨rfl, rfl, hRoom⟩
    · next hFull => exact .inr ⟨rfl, id, .inl (by omega)⟩
  | succ left ih =>
    rw [fillRange_succ]
    by_cases hRoom : pool.length < size
    · rw [if_pos hRoom]
      by_cases hStop : entry start inc = stop
      · refine ⟨0, Nat.zero_le _, fun _ hLess => absurd hLess (Nat.not_lt_zero _), .inr ?_⟩
        rw [hNone, List.append_nil, if_pos hStop]
        exact ⟨rfl, id, .inr ⟨Nat.succ_pos _, hStop⟩⟩
      · rw [if_neg hStop]
        rcases ih (inc + 1) (pool ++
          if subnet.keeps (entry start inc) then [entry start inc]
          else []) rfl with
          ⟨count, hCount, hBefore, hResult⟩
        rw [List.append_assoc, ← kept_succ] at hResult
        refine ⟨count + 1, by omega, ?_, ?_⟩
        · intro i hI
          cases i with
          | zero => exact hStop
          | succ i =>
            rw [Nat.add_comm i 1, ← Nat.add_assoc]
            exact hBefore i (by omega)
        · rcases hResult with ⟨hFill, hLeft, hShort⟩ | ⟨hFill, hFits, hEnd⟩
          · exact .inl ⟨hFill, by omega, hShort⟩
          · refine .inr ⟨hFill, fun _ => hFits ?_, ?_⟩
            · rw [List.length_append]
              split
              · rw [List.length_singleton]
                omega
              · omega
            · rcases hEnd with hFull | ⟨hLess, hAt⟩
              · exact .inl hFull
              · refine .inr ⟨by omega, ?_⟩
                rw [← hAt, Nat.add_comm count 1, Nat.add_assoc]
    · rw [if_neg hRoom]
      refine ⟨0, Nat.zero_le _, fun _ hLess => absurd hLess (Nat.not_lt_zero _), .inr ?_⟩
      rw [hNone, List.append_nil]
      exact ⟨rfl, id, .inl (by omega)⟩

/- The entries of more increments begin with those of fewer. -/
theorem kept_sublist (hLe : fewer ≤ more) :
    (kept subnet start inc fewer).Sublist (kept subnet start inc more) :=
  List.Sublist.filter _ (List.Sublist.map _ (List.range'_sublist_right.mpr hLe))

/- A range whose end is come to in time, and that there is room for, is appended. -/
theorem fillRange_of_stop (hBefore : ∀ i < count, entry start (inc + i) ≠ stop)
    (hStop : entry start (inc + count) = stop) (hLeft : count < left)
    (hRoom : pool.length + (kept subnet start inc count).length ≤ size) :
    fillRange subnet size start stop left inc pool =
      some (pool ++ kept subnet start inc count) := by
  rcases fillRange_cases subnet size start stop left inc pool with
    ⟨reached, hReached, hNotYet, hResult⟩
  have hLe : reached ≤ count := by
    by_contra hPassed
    exact hNotYet count (by omega) hStop
  rcases hResult with ⟨_, hAll, _⟩ | ⟨hFill, _, hEnd⟩
  · omega
  · rw [hFill]
    rcases hEnd with hFull | ⟨_, hAt⟩
    · -- there is only room for what is in front of the end
      rw [List.length_append] at hFull
      rw [(kept_sublist hLe).eq_of_length_le (by omega)]
    · have hSame : reached = count := by
        by_contra hOther
        exact hBefore reached (by omega) hAt
      rw [hSame]

end Loop

---- Several Ranges ----

/-
  The loop over a range comes to its end after `count` entries, and keeps the addresses that the
  range offers.
-/
structure Segment (subnet : Ipv4Subnet) (bound : Word × Word) (count : Nat)
    (Offers : U32 → Prop) : Prop where
  before : ∀ i < count, entry bound.1 i ≠ bound.2
  stop : entry bound.1 count = bound.2
  defined : count < intMax
  keeps : ∀ address, htobe32 address ∈ kept subnet bound.1 0 count ↔ Offers address ∧
        address ≠ subnet.network ∧ address ≠ subnet.gateway

section Segments

variable {subnet : Ipv4Subnet} {size : Nat}

theorem Segment.nodup (hSegment : Segment subnet bound count Offers) :
    (kept subnet bound.1 0 count).Nodup := by
  have hDefined := hSegment.defined
  unfold intMax at hDefined
  exact nodup_kept (by omega)

variable {pool : List Word}

theorem Segment.fillRange_eq (hSegment : Segment subnet bound count Offers)
    (hRoom : pool.length + (kept subnet bound.1 0 count).length ≤ size) :
    fillRange subnet size bound.1 bound.2 intMax 0 pool =
      some (pool ++ kept subnet bound.1 0 count) := by
  refine fillRange_of_stop ?_ ?_ hSegment.defined hRoom
  · intro i hLess
    rw [Nat.zero_add]
    exact hSegment.before i hLess
  · rw [Nat.zero_add]
    exact hSegment.stop

variable {α : Type} {bound : α → Word × Word} {count : α → Nat} {Offers : α → U32 → Prop}

theorem foldlM_fillRange {items : List α}
    (hSegments : ∀ item ∈ items, Segment subnet (bound item) (count item) (Offers item))
    (hRoom : pool.length + (items.flatMap (fun item =>
          kept subnet (bound item).1 0 (count item))).length ≤ size) :
    (items.map bound).foldlM (fun pool bound => fillRange subnet size bound.1 bound.2 intMax 0 pool)
        pool = some (pool ++ items.flatMap (fun item =>
        kept subnet (bound item).1 0 (count item))) := by
  induction items generalizing pool with
  | nil =>
    rw [List.flatMap_nil, List.append_nil]
    rfl
  | cons item items ih =>
    rw [List.flatMap_cons, List.length_append] at hRoom
    have hItem := (hSegments item List.mem_cons_self).fillRange_eq
      (show pool.length + _ ≤ size by omega)
    rw [List.map_cons, List.foldlM_cons, hItem]
    show (items.map bound).foldlM _ _ = _
    rw [ih (fun other hOther =>
      hSegments other (List.mem_cons_of_mem _ hOther))
      (by
        rw [List.length_append]
        omega),
      List.flatMap_cons, List.append_assoc]

/- A pool without duplicates is as long as what it holds. -/
theorem length_eq_ncard (hNodup : pool.Nodup)
    (hMem : ∀ address, htobe32 address ∈ pool ↔ subnet.Wants address) :
    pool.length = Set.ncard {address | subnet.Wants address} := by
  have hSet : {address | subnet.Wants address} = ((pool.map be32toh).toFinset : Set U32) := by
    ext address
    rw [Set.mem_ofPred_eq, ← hMem, Finset.mem_coe, List.mem_toFinset, List.mem_map]
    constructor
    · exact fun hWord => ⟨_, hWord, be32toh_htobe32⟩
    · rintro ⟨word, hWord, rfl⟩
      rwa [htobe32_be32toh]
  rw [hSet, Set.ncard_coe_finset, List.toFinset_card_of_nodup
    (hNodup.map be32toh_injective), List.length_map]

variable (bound count Offers)

/-
  Ranges that are gone through to their ends, and do not have an address in common, fill a pool that
  is large enough.
-/
theorem filled_of_segments {items : List α} (hBounds : subnet.bounds = items.map bound)
    (hSegments : ∀ item ∈ items, Segment subnet (bound item) (count item) (Offers item))
    (hDisjoint : items.Pairwise (fun item other =>
      ∀ address, ¬ (Offers item address ∧ Offers other address)))
    (hConfigured : ∀ address, subnet.Configured address ↔ ∃ item ∈ items, Offers item address)
    (hSize : Set.ncard {address | subnet.Wants address} ≤ size) : Filled subnet size := by
  have hMem : ∀ address, htobe32 address ∈ items.flatMap (fun item =>
    kept subnet (bound item).1 0 (count item)) ↔
    subnet.Wants address := by
    intro address
    rw [List.mem_flatMap, Ipv4Subnet.Wants, hConfigured]
    constructor
    · rintro ⟨item, hItem, hKept⟩
      rcases ((hSegments item hItem).keeps address).mp hKept with ⟨hOffers, hOthers⟩
      exact ⟨⟨item, hItem, hOffers⟩, hOthers⟩
    · rintro ⟨⟨item, hItem, hOffers⟩, hOthers⟩
      exact ⟨item, hItem, ((hSegments item hItem).keeps address).mpr ⟨hOffers, hOthers⟩⟩
  have hNodup : (items.flatMap (fun item =>
    kept subnet (bound item).1 0 (count item))).Nodup := by
    refine List.nodup_flatMap.mpr ⟨fun item hItem => (hSegments item hItem).nodup, ?_⟩
    refine hDisjoint.imp_of_mem ?_
    intro item other hItem hOther hApart word hWord hAgain
    rw [← htobe32_be32toh word] at hWord hAgain
    exact hApart _ ⟨(((hSegments item hItem).keeps _).mp hWord).1,
      (((hSegments other hOther).keeps _).mp hAgain).1⟩
  have hLength := length_eq_ncard hNodup hMem
  refine ⟨_, ?_, hNodup, hMem⟩
  rw [subnetPoolGenerate, hBounds, foldlM_fillRange hSegments (by
    rw [List.length_nil]
    omega)]
  rfl

end Segments

---- The Whole Subnet ----

section Network

variable (subnet : Ipv4Subnet)

theorem capacity_pos : 0 < subnet.capacity := Nat.pow_pos (by decide)

theorem network_add_capacity_le : subnet.network.toNat + subnet.capacity ≤ 2 ^ 32 := by
  have hLe := subnet.prefixlen_le
  have hSplit : 2 ^ 32 = subnet.capacity * 2 ^ subnet.prefixlen := by
    rw [Ipv4Subnet.capacity, ← Nat.pow_add, Nat.sub_add_cancel hLe]
  rcases subnet.aligned with ⟨block, hBlock⟩
  have hBound := subnet.network.isLt
  rw [hBlock, hSplit] at hBound
  have hLess := Nat.lt_of_mul_lt_mul_left hBound
  rw [hBlock, hSplit]
  calc 2 ^ (32 - subnet.prefixlen) * block + subnet.capacity
      = subnet.capacity * (block + 1) := by rfl
    _ ≤ subnet.capacity * 2 ^ subnet.prefixlen := Nat.mul_le_mul_left _ hLess

/- An offset has no bit in common with the network address. -/
theorem network_and_offset (hOffset : i < subnet.capacity) :
    subnet.network &&& BitVec.ofNat 32 i = 0 := by
  have hLe := network_add_capacity_le subnet
  rcases subnet.aligned with ⟨block, hBlock⟩
  apply BitVec.eq_of_toNat_eq
  rw [BitVec.toNat_and, BitVec.toNat_ofNat, Nat.mod_eq_of_lt (by omega), hBlock]
  apply Nat.eq_of_testBit_eq
  intro j
  rw [Nat.testBit_and, Nat.testBit_two_pow_mul]
  by_cases hLow : 32 - subnet.prefixlen ≤ j
  · rw [Nat.testBit_lt_two_pow (Nat.lt_of_lt_of_le hOffset (Nat.pow_le_pow_right (by decide) hLow))]
    simp
  · simp [hLow]

/- The entries of the whole subnet are its addresses. -/
theorem entry_sub (hOffset : i < subnet.capacity) :
    entry subnet.sub i = htobe32 (subnet.network + BitVec.ofNat 32 i) :=
  ByteSwap.swap_add_of_disjoint (network_and_offset subnet hOffset)

theorem toNat_network_add (hOffset : i < subnet.capacity) :
    (subnet.network + BitVec.ofNat 32 i).toNat = subnet.network.toNat + i := by
  have hLe := network_add_capacity_le subnet
  rw [BitVec.toNat_add, BitVec.toNat_ofNat]
  omega

theorem broadcast_eq : subnet.broadcast = entry subnet.sub (subnet.capacity - 1) := by
  have hMask : ~~~subnet.mask = htobe32 (BitVec.ofNat 32 (subnet.capacity - 1)) := by
    unfold Ipv4Subnet.mask htobe32
    rw [← ByteSwap.swap_not, BitVec.not_not]
  rw [Ipv4Subnet.broadcast, hMask, entry]

variable {count : Nat}

/- An address is the network address and an offset. -/
theorem exists_offset_iff (hCount : count ≤ subnet.capacity) :
    (∃ i < count, subnet.network + BitVec.ofNat 32 i = address) ↔
      subnet.network.toNat ≤ address.toNat ∧ address.toNat < subnet.network.toNat + count := by
  constructor
  · rintro ⟨i, hLess, rfl⟩
    rw [toNat_network_add subnet (by omega)]
    omega
  · rintro ⟨hLow, hHigh⟩
    refine ⟨address.toNat - subnet.network.toNat, by omega, ?_⟩
    apply BitVec.eq_of_toNat_eq
    rw [toNat_network_add subnet (by omega)]
    omega

theorem htobe32_mem_kept_sub (hCount : count ≤ subnet.capacity) :
    htobe32 address ∈ kept subnet subnet.sub 0 count ↔ (subnet.network.toNat ≤ address.toNat ∧
        address.toNat < subnet.network.toNat + count) ∧
      address ≠ subnet.network ∧ address ≠ subnet.gateway := by
  rw [mem_kept, ← exists_offset_iff subnet hCount]
  refine and_congr ?_ (and_congr ?_ ?_)
  · refine exists_congr fun i => and_congr_right fun hLess => ?_
    rw [Nat.zero_add, entry_sub subnet (by omega)]
    exact htobe32_injective.eq_iff
  · exact htobe32_injective.ne_iff
  · exact htobe32_injective.ne_iff

/- The single range of a subnet without configured ones. -/
theorem network_segment (hPrefix : 2 ≤ subnet.prefixlen) :
    Segment subnet (subnet.sub, subnet.broadcast) (subnet.capacity - 1) (fun address =>
        subnet.network.toNat ≤ address.toNat ∧ address.toNat + 1 <
            subnet.network.toNat + subnet.capacity) where
  before i hLess hStop := by
    rw [broadcast_eq] at hStop
    have hLe := network_add_capacity_le subnet
    have hSame := entry_inj (by omega) (by omega) hStop
    omega
  stop := (broadcast_eq subnet).symm
  defined := by
    have hPow : subnet.capacity ≤ 2 ^ 30 := Nat.pow_le_pow_right (by decide) (by omega)
    unfold intMax
    omega
  keeps address := by
    rw [htobe32_mem_kept_sub subnet (Nat.sub_le _ _)]
    refine and_congr_left fun _ => and_congr_right fun _ => ?_
    omega

/- At most the network and the gateway are left out. -/
theorem le_length_kept (start : Word) (hCount : count ≤ 2 ^ 32) :
    count ≤ (kept subnet start 0 count).length + 2 := by
  have hNodup : ((List.range' 0 count).map (entry start)).Nodup := by
    refine List.Nodup.map_on ?_ List.nodup_range'
    intro i hI j hJ hSame
    rw [List.mem_range'_1] at hI hJ
    exact entry_inj (by omega) (by omega) hSame
  have hDropped : (((List.range' 0 count).map (entry start)).filter
    (fun word => !subnet.keeps word)).length ≤ 2 := by
    have hOnly : ((List.range' 0 count).map (entry start)).filter (fun word => !subnet.keeps word) ⊆
      [subnet.sub, subnet.gw] := by
      intro word hWord
      have hNot := (List.mem_filter.mp hWord).2
      unfold Ipv4Subnet.keeps at hNot
      grind
    exact ((hNodup.filter _).subperm hOnly).length_le
  have hSplit := List.length_eq_length_filter_add (l := (List.range' 0 count).map (entry start))
    subnet.keeps
  rw [List.length_map, List.length_range'] at hSplit
  unfold kept
  omega

/-
  Whatever its size, the pool of a subnet without configured ranges gets different addresses of the
  subnet.
-/
theorem subnetPoolGenerate_of_network (hRanges : subnet.ranges = [])
    (hDefined : 2 ≤ subnet.prefixlen ∨ size + 2 ≤ intMax) :
    ∃ pool, subnetPoolGenerate subnet size = some pool ∧ pool.length ≤ size ∧ pool.Nodup ∧
      ∀ word ∈ pool, subnet.Contains (be32toh word) := by
  have hLe := network_add_capacity_le subnet
  have hGenerate : subnetPoolGenerate subnet size =
    fillRange subnet size subnet.sub subnet.broadcast intMax 0 [] := by
    rw [subnetPoolGenerate, Ipv4Subnet.bounds, hRanges]
    exact bind_pure _
  rw [hGenerate]
  rcases fillRange_cases subnet size subnet.sub subnet.broadcast intMax 0 [] with
    ⟨count, hCount, hBefore, hResult⟩
  have hWithin : count ≤ subnet.capacity - 1 := by
    by_contra hPassed
    refine hBefore (subnet.capacity - 1) (by omega) ?_
    rw [Nat.zero_add, broadcast_eq]
  rcases hResult with ⟨_, hAll, hShort⟩ | ⟨hFill, hFits, _⟩
  · unfold intMax at hAll
    rcases hDefined with hPrefix | hSize
    · have hPow : subnet.capacity ≤ 2 ^ 30 := Nat.pow_le_pow_right (by decide) (by omega)
      omega
    · have hMost := le_length_kept subnet subnet.sub (show count ≤ 2 ^ 32 by omega)
      rw [List.nil_append] at hShort
      unfold intMax at hSize
      omega
  · refine ⟨_, hFill, hFits (Nat.zero_le _), nodup_kept (by omega), ?_⟩
    intro word hWord
    rw [← htobe32_be32toh word] at hWord
    have hMem := (htobe32_mem_kept_sub subnet (by omega)).mp hWord
    exact ⟨hMem.1.1, by omega⟩

/- The bits in front of the host's are the network's. -/
theorem and_mask_of_contains (hContains : subnet.Contains address) :
    htobe32 address &&& subnet.mask = subnet.sub := by
  rcases (exists_offset_iff subnet (Nat.le_refl _)).mpr hContains with ⟨i, hLess, rfl⟩
  have hLe := network_add_capacity_le subnet
  have hHost : BitVec.ofNat 32 i &&& ~~~BitVec.ofNat 32 (subnet.capacity - 1) = 0 := by
    have hBelow : BitVec.ofNat 32 i &&& BitVec.ofNat 32 (subnet.capacity - 1) =
      BitVec.ofNat 32 i := by
      apply BitVec.eq_of_toNat_eq
      rw [BitVec.toNat_and, BitVec.toNat_ofNat, BitVec.toNat_ofNat, Nat.mod_eq_of_lt (by omega),
        Nat.mod_eq_of_lt (show subnet.capacity - 1 < _ by omega)]
      unfold Ipv4Subnet.capacity at hLess ⊢
      rw [Nat.and_two_pow_sub_one_eq_mod, Nat.mod_eq_of_lt hLess]
    rw [← hBelow, BitVec.and_assoc, BitVec.and_not_self]
    exact BitVec.and_zero
  have hNetwork : subnet.network &&& ~~~BitVec.ofNat 32 (subnet.capacity - 1) = subnet.network := by
    have hApart := network_and_offset subnet (show subnet.capacity - 1 < subnet.capacity by omega)
    apply BitVec.eq_of_getLsbD_eq
    intro j hBit
    have hNot := congrArg (fun word => word.getLsbD j) hApart
    grind
  have hOr : subnet.network + BitVec.ofNat 32 i = subnet.network ||| BitVec.ofNat 32 i :=
    BitVec.add_eq_or_of_and_eq_zero _ _ (network_and_offset subnet hLess)
  unfold Ipv4Subnet.mask Ipv4Subnet.sub htobe32
  rw [← ByteSwap.swap_and, hOr, BitVec.and_or_distrib_right, hHost, hNetwork]
  exact congrArg ByteSwap.swap BitVec.or_zero

end Network

end Pretty5gs.Pfcp.UeIp
