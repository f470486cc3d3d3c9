import Mathlib.Order.Interval.Finset.Nat
import Pretty5gs.Pfcp.SubnetPool

/-
  Which configured ranges fill the pool of a subnet.

  Increments are added octet by octet, without a carry from the last octet to the third, so a range
  that runs over the end of an octet is only gone through when it starts at a zero there. A range
  that ends in 255 is taken to end at the zero in front of it.

  Main results: `toNat_reached_of_regular`, `counted_segment`, `regular_of_filled` and
  `counted_of_filled`, `subnet_pool_filled_iff`.
-/

---- Entries As Addresses ----

namespace Pretty5gs.Pfcp.UeIp

open BitVec Finset

/- The address of the entry for a value of `inc`. -/
def reached (low : U32) (inc : Nat) : U32 := be32toh (entry (htobe32 low) inc)

theorem entry_eq : entry (htobe32 low) inc = htobe32 (reached low inc) := (htobe32_be32toh _).symm

theorem htobe32_mem_kept :
    htobe32 address ∈ kept subnet (htobe32 low) 0 count ↔ (∃ i < count, reached low i = address) ∧
        address ≠ subnet.network ∧ address ≠ subnet.gateway := by
  rw [mem_kept]
  refine and_congr ?_ (and_congr ?_ ?_)
  · refine exists_congr fun i => and_congr_right fun _ => ?_
    rw [Nat.zero_add, entry_eq]
    exact htobe32_injective.eq_iff
  · exact htobe32_injective.ne_iff
  · exact htobe32_injective.ne_iff

/- Octet by octet, with the carries as they are added. -/
theorem toNat_reached (hI : i < 2 ^ 32) :
    (reached low i).toNat = (low.toNat / 16777216 + i / 16777216) % 256 * 16777216 +
      (low.toNat / 65536 % 256 + i / 65536 % 256 +
        (low.toNat / 16777216 + i / 16777216) / 256) % 256 * 65536 +
      (low.toNat / 256 % 256 + i / 256 % 256 + (low.toNat / 65536 % 256 + i / 65536 % 256 +
          (low.toNat / 16777216 + i / 16777216) / 256) / 256) % 256 * 256 +
      (low.toNat % 256 + i % 256 + (low.toNat / 256 % 256 + i / 256 % 256 +
          (low.toNat / 65536 % 256 + i / 65536 % 256 +
            (low.toNat / 16777216 + i / 16777216) / 256) / 256) / 256) % 256 := by
  have hOffset : (BitVec.ofNat 32 i).toNat = i := by rw [toNat_ofNat, Nat.mod_eq_of_lt hI]
  have hByte : ∀ n : Nat, n % 256 < 256 := fun n => Nat.mod_lt n (by decide)
  have hInc := ByteSwap.word_bytes (BitVec.ofNat 32 i)
  rw [hOffset] at hInc
  have hSum := ByteSwap.swap_add_word (show low.toNat / 16777216 < 256 by omega)
    (hByte (low.toNat / 65536)) (hByte (low.toNat / 256)) (hByte low.toNat)
    (show i / 16777216 < 256 by omega) (hByte (i / 65536)) (hByte (i / 256)) (hByte i)
  rw [ByteSwap.word_bytes low, hInc] at hSum
  have hNat := congrArg BitVec.toNat hSum
  rw [ByteSwap.toNat_word (hByte _) (hByte _) (hByte _) (hByte _)] at hNat
  exact hNat

/- The first three octets of a number together. -/
theorem block_octets (n : Nat) :
    n / 256 = n / 16777216 * 65536 + n / 65536 % 256 * 256 + n / 256 % 256 := by
  omega

theorem half_octets (n : Nat) : n / 65536 = n / 16777216 * 256 + n / 65536 % 256 := by omega

/- Only the last octet may carry, and the carry is lost. -/
theorem toNat_reached_of_no_carry (low : U32) (hI : i < 2 ^ 32)
    (hFirst : low.toNat / 16777216 + i / 16777216 < 256)
    (hSecond : low.toNat / 65536 % 256 + i / 65536 % 256 < 256)
    (hThird : low.toNat / 256 % 256 + i / 256 % 256 < 256) :
    (reached low i).toNat = (low.toNat / 256 + i / 256) * 256 +
        (low.toNat % 256 + i % 256) % 256 := by
  rw [toNat_reached hI, Nat.mod_eq_of_lt hFirst, Nat.div_eq_of_lt hFirst, Nat.add_zero,
    Nat.mod_eq_of_lt hSecond, Nat.div_eq_of_lt hSecond, Nat.add_zero, Nat.mod_eq_of_lt hThird,
    Nat.div_eq_of_lt hThird, Nat.add_zero, block_octets low.toNat, block_octets i]
  omega

/- `end` of a range that ends at an address. -/
theorem toNat_stop :
    (be32toh (htobe32 high + htobe32 1)).toNat =
      high.toNat / 256 * 256 + (high.toNat % 256 + 1) % 256 := by
  have hOne := toNat_reached_of_no_carry high
    (show 1 < 2 ^ 32 by decide) (by omega) (by omega) (by omega)
  exact hOne

---- Ranges Without Carries ----

/-
  Between the two addresses none of the first three octets carries: an octet counts up from its
  value only where those in front of it stay the same, and else from zero.
-/
def Regular (low high : Nat) : Prop := low / 65536 = high / 65536 ∨ low / 256 % 256 = 0 ∧
      (low / 16777216 = high / 16777216 ∨ low / 65536 % 256 = 0)

instance (low high : Nat) : Decidable (Regular low high) := inferInstanceAs (Decidable (_ ∨ _))

/-
  A range that the pool gets all addresses of. The last octet counts up from its value where the
  others stay the same, and else from zero; it may also start at one if only the network and the
  gateway address are mistaken then.
-/
def AddressRange.Counted (subnet : Ipv4Subnet) (range : AddressRange) : Prop :=
  let low := range.low.toNat
  let high := range.high.toNat
  Regular low high ∧ high - low + 1 < intMax ∧ (low / 256 = high / 256 ∧
        ¬ (low % 256 = 0 ∧ high % 256 = 255) ∨ low / 256 ≠ high / 256 ∧
        low % 256 = 0 ∧ high % 256 ≠ 255 ∨ low / 256 ≠ high / 256 ∧ low % 256 = 1 ∧
        subnet.network.toNat = low - 1 ∧ subnet.gateway.toNat = high / 256 * 256)

instance (subnet : Ipv4Subnet) (range : AddressRange) : Decidable (range.Counted subnet) :=
  inferInstanceAs (Decidable (_ ∧ _))

/- All ranges are counted; a whole subnet if it is no half. -/
def Ipv4Subnet.Countable (subnet : Ipv4Subnet) : Prop :=
  (subnet.ranges = [] → 2 ≤ subnet.prefixlen) ∧ ∀ range ∈ subnet.ranges, range.Counted subnet

theorem Regular.no_carry (hRegular : Regular low high) (hHigh : high < 2 ^ 32)
    (hI : low / 256 + i / 256 ≤ high / 256) :
    low / 16777216 + i / 16777216 < 256 ∧ low / 65536 % 256 + i / 65536 % 256 < 256 ∧
      low / 256 % 256 + i / 256 % 256 < 256 := by
  have hOctet : ∀ n : Nat, n % 256 < 256 := fun n => Nat.mod_lt n (by decide)
  have hTop : high / 16777216 < 256 := by omega
  have hSecond := hOctet (low / 65536)
  have hSecond' := hOctet (i / 65536)
  have hThird' := hOctet (i / 256)
  have hSecond'' := hOctet (high / 65536)
  have hThird'' := hOctet (high / 256)
  unfold Regular at hRegular
  rw [half_octets low, half_octets high] at hRegular
  rw [block_octets low, block_octets i, block_octets high] at hI
  -- what is left is about nine octets
  generalize low / 16777216 = a at *
  generalize low / 65536 % 256 = b at *
  generalize low / 256 % 256 = c at *
  generalize i / 16777216 = a' at *
  generalize i / 65536 % 256 = b' at *
  generalize i / 256 % 256 = c' at *
  generalize high / 16777216 = a'' at *
  generalize high / 65536 % 256 = b'' at *
  generalize high / 256 % 256 = c'' at *
  omega

section Entries

variable {range : AddressRange}

theorem toNat_reached_of_regular (hRegular : Regular range.low.toNat range.high.toNat)
    (hI : range.low.toNat / 256 + i / 256 ≤ range.high.toNat / 256) :
    (reached range.low i).toNat = (range.low.toNat / 256 + i / 256) * 256 +
        (range.low.toNat % 256 + i % 256) % 256 := by
  have hHigh := range.high.isLt
  rcases hRegular.no_carry hHigh hI with ⟨hFirst, hSecond, hThird⟩
  exact toNat_reached_of_no_carry range.low (by omega) hFirst hSecond hThird

/-
  The increment at which an address is come to, in blocks of 256 addresses that each start at the
  last octet of `low`.
-/
def AddressRange.index (range : AddressRange) (address : Nat) : Nat :=
  (address / 256 - range.low.toNat / 256) * 256 +
    (address % 256 + (256 - range.low.toNat % 256)) % 256

/- The increment at which the loop comes to the end. -/
def AddressRange.stopAt (range : AddressRange) : Nat :=
  (range.high.toNat / 256 - range.low.toNat / 256) * 256 + (range.high.toNat % 256 + 1 +
      (256 - range.low.toNat % 256)) % 256

open AddressRange

theorem stopAt_lt (range : AddressRange) : range.stopAt < 2 ^ 32 := by
  unfold stopAt
  omega

theorem entry_stopAt (hRegular : Regular range.low.toNat range.high.toNat) :
    entry (htobe32 range.low) range.stopAt = htobe32 range.high + htobe32 1 := by
  have hOrdered := range.ordered
  have hReached := toNat_reached_of_regular hRegular
    (show range.low.toNat / 256 + range.stopAt / 256 ≤ range.high.toNat / 256 by
      unfold stopAt
      omega)
  apply be32toh_injective
  apply eq_of_toNat_eq
  rw [toNat_stop]
  refine hReached.trans ?_
  unfold stopAt
  omega

theorem entry_ne_stop (hRegular : Regular range.low.toNat range.high.toNat)
    (hI : i < range.stopAt) : entry (htobe32 range.low) i ≠ htobe32 range.high + htobe32 1 := by
  intro hSame
  have hStopAt := stopAt_lt range
  rw [← entry_stopAt hRegular] at hSame
  have hEq := entry_inj (by omega) hStopAt hSame
  omega

/- The addresses that are come to before the end. -/
theorem exists_reached_iff (hRegular : Regular range.low.toNat range.high.toNat) :
    (∃ i < range.stopAt, reached range.low i = address) ↔
      range.low.toNat / 256 ≤ address.toNat / 256 ∧ address.toNat / 256 ≤ range.high.toNat / 256 ∧
        range.index address.toNat < range.stopAt := by
  have hOrdered := range.ordered
  constructor
  · rintro ⟨i, hI, rfl⟩
    have hBlock : range.low.toNat / 256 + i / 256 ≤ range.high.toNat / 256 := by
      unfold stopAt at hI
      omega
    have hIndex : range.index (reached range.low i).toNat = i := by
      rw [toNat_reached_of_regular hRegular hBlock]
      unfold index
      omega
    rw [hIndex, toNat_reached_of_regular hRegular hBlock]
    omega
  · rintro ⟨hLow, hHigh, hIndex⟩
    refine ⟨_, hIndex, ?_⟩
    apply eq_of_toNat_eq
    rw [toNat_reached_of_regular hRegular]
    · unfold index
      omega
    · unfold index
      omega

end Entries

---- Counted Ranges ----

/-
  But for the network and the gateway address, the addresses that are come to are those of the
  range.
-/
def AddressRange.Meets (subnet : Ipv4Subnet) (range : AddressRange) : Prop := ∀ address < 2 ^ 32,
    address ≠ subnet.network.toNat → address ≠ subnet.gateway.toNat →
    ((range.low.toNat / 256 ≤ address / 256 ∧ address / 256 ≤ range.high.toNat / 256 ∧
        range.index address < range.stopAt) ↔ range.low.toNat ≤ address ∧
        address ≤ range.high.toNat)

section Counted

variable {subnet : Ipv4Subnet} {range : AddressRange}

theorem meets_of_counted (hCounted : range.Counted subnet) :
    range.Meets subnet ∧ range.stopAt < intMax := by
  have hOrdered := range.ordered
  rcases hCounted with ⟨_, hDefined, hCases⟩
  constructor
  · intro address _ hNetwork hGateway
    unfold AddressRange.index AddressRange.stopAt
    rcases hCases with hSame | hZero | hOne
    · omega
    · omega
    · omega
  · unfold AddressRange.stopAt
    rcases hCases with hSame | hZero | hOne
    · omega
    · omega
    · omega

/- Three addresses in a row are not all left out. -/
theorem exists_kept_of_three (subnet : Ipv4Subnet) (base : Nat) :
    ∃ address, base ≤ address ∧ address < base + 3 ∧ address ≠ subnet.network.toNat ∧
        address ≠ subnet.gateway.toNat := by
  by_cases hFirst : base ≠ subnet.network.toNat ∧ base ≠ subnet.gateway.toNat
  · exact ⟨base, by omega, by omega, hFirst.1, hFirst.2⟩
  by_cases hSecond : base + 1 ≠ subnet.network.toNat ∧ base + 1 ≠ subnet.gateway.toNat
  · exact ⟨base + 1, by omega, by omega, hSecond.1, hSecond.2⟩
  · exact ⟨base + 2, by omega, by omega, by omega, by omega⟩

/-
  A range over several blocks that starts at one or behind misses what is in front of it in its
  first block.
-/
theorem last_octet_of_meets (hBlocks : range.low.toNat / 256 ≠ range.high.toNat / 256)
    (hMeets : range.Meets subnet) : range.low.toNat % 256 ≤ 1 := by
  have hOrdered := range.ordered
  unfold AddressRange.Meets AddressRange.index AddressRange.stopAt at hMeets
  by_cases hTwo : range.low.toNat % 256 = 2
  · -- two addresses are mistaken in the first block
    have hZero := hMeets (range.low.toNat / 256 * 256) (by omega)
    have hOne := hMeets (range.low.toNat / 256 * 256 + 1) (by omega)
    by_cases hEnd : range.high.toNat % 256 = 0
    · have hThird := hMeets (range.high.toNat / 256 * 256 + 2) (by omega)
      omega
    · have hThird := hMeets (range.high.toNat / 256 * 256) (by omega)
      omega
  · rcases exists_kept_of_three subnet (range.low.toNat / 256 * 256) with
    ⟨address, hFrom, hTo, hNetwork, hGateway⟩
    have hReached := hMeets address (by omega) hNetwork hGateway
    omega

theorem counted_of_meets (hInside : subnet.network.toNat ≤ range.low.toNat)
    (hRegular : Regular range.low.toNat range.high.toNat) (hDefined : range.stopAt < intMax)
    (hMeets : range.Meets subnet) : range.Counted subnet := by
  have hOrdered := range.ordered
  have hBound := range.high.isLt
  have hLowest : range.low.toNat / 256 * 256 < 2 ^ 32 :=
    Nat.lt_of_le_of_lt (Nat.div_mul_le_self _ _) range.low.isLt
  have hHighest : range.high.toNat / 256 * 256 < 2 ^ 32 :=
    Nat.lt_of_le_of_lt (Nat.div_mul_le_self _ _) hBound
  have hLast := fun hBlocks => last_octet_of_meets hBlocks hMeets
  unfold AddressRange.Meets AddressRange.index AddressRange.stopAt at hMeets
  unfold AddressRange.stopAt at hDefined
  -- a range that ends in 255 is not taken for one block less
  have hWhole : ¬ (range.low.toNat % 256 = 0 ∧ range.high.toNat % 256 = 255) := by
    rcases exists_kept_of_three subnet (range.high.toNat - 2) with
      ⟨address, hFrom, hTo, hNetwork, hGateway⟩
    have hReached := hMeets address (by omega) hNetwork hGateway
    omega
  by_cases hBlocks : range.low.toNat / 256 = range.high.toNat / 256
  · refine ⟨hRegular, by omega, .inl ⟨hBlocks, hWhole⟩⟩
  by_cases hZero : range.low.toNat % 256 = 0
  · refine ⟨hRegular, by omega, .inr (.inl ⟨hBlocks, hZero, ?_⟩)⟩
    omega
  · have hFirst := hMeets _ hLowest
    have hSecond := hMeets _ hHighest
    refine ⟨hRegular, by omega, .inr (.inr ⟨hBlocks, by omega, by omega, by omega⟩)⟩

/- The loop over a counted range. -/
theorem counted_segment (hCounted : range.Counted subnet) :
    Segment subnet (htobe32 range.low, htobe32 range.high + htobe32 1)
      range.stopAt range.Contains := by
  rcases meets_of_counted hCounted with ⟨hMeets, hDefined⟩
  have hRegular := hCounted.1
  refine ⟨fun i hI => entry_ne_stop hRegular hI, entry_stopAt hRegular, hDefined, ?_⟩
  intro address
  rw [htobe32_mem_kept, exists_reached_iff hRegular]
  refine and_congr_left fun hOthers => ?_
  exact hMeets address.toNat address.isLt (fun hSame => hOthers.1 (eq_of_toNat_eq hSame))
    (fun hSame => hOthers.2 (eq_of_toNat_eq hSame))

end Counted

---- Ranges With Carries ----

/-
  The loop leaves the blocks of the range, for one in front of it, when the increments come to a
  multiple of 256.
-/
structure Strays (range : AddressRange) (blocks : Nat) : Prop where
  within : range.low.toNat / 256 + blocks ≤ range.high.toNat / 256
  before : ∀ i < blocks * 256, (reached range.low i).toNat / 256 = range.low.toNat / 256 + i / 256
  behind : ∀ last < 3, (reached range.low (blocks * 256 + last)).toNat / 256 < range.low.toNat / 256

section Strays

variable {range : AddressRange}

/- The third octet carries to the last one. -/
theorem strays_of_third_octet (hHalves : range.low.toNat / 65536 < range.high.toNat / 65536)
    (hThird : range.low.toNat / 256 % 256 ≠ 0) :
    Strays range (256 - range.low.toNat / 256 % 256) := by
  refine ⟨by omega, ?_, ?_⟩
  · intro i hI
    rw [toNat_reached_of_no_carry range.low (by omega) (by omega) (by omega) (by omega)]
    omega
  · intro last hLast
    generalize hI : (256 - range.low.toNat / 256 % 256) * 256 + last = i
    have hFirst : i / 16777216 = 0 := by omega
    have hSecond : i / 65536 % 256 = 0 := by omega
    have hSum : range.low.toNat / 256 % 256 + i / 256 % 256 = 256 := by omega
    have hTop : range.low.toNat / 16777216 < 256 := by omega
    have hNext : range.low.toNat / 65536 % 256 < 256 := Nat.mod_lt _ (by decide)
    rw [toNat_reached (by omega), hFirst, hSecond,
      Nat.add_zero, Nat.add_zero, Nat.div_eq_of_lt hTop,
      Nat.add_zero, Nat.div_eq_of_lt hNext, Nat.add_zero, hSum,
      Nat.mod_eq_of_lt hTop, Nat.mod_eq_of_lt hNext, block_octets range.low.toNat]
    omega

/- The second octet carries to the third one. -/
theorem strays_of_second_octet
    (hQuarters : range.low.toNat / 16777216 < range.high.toNat / 16777216)
    (hSecond : range.low.toNat / 65536 % 256 ≠ 0) (hThird : range.low.toNat / 256 % 256 = 0) :
    Strays range ((256 - range.low.toNat / 65536 % 256) * 256) := by
  refine ⟨by omega, ?_, ?_⟩
  · intro i hI
    rw [toNat_reached_of_no_carry range.low (by omega) (by omega) (by omega) (by omega)]
    omega
  · intro last hLast
    generalize hI : (256 - range.low.toNat / 65536 % 256) * 256 * 256 + last = i
    have hFirst : i / 16777216 = 0 := by omega
    have hZero : i / 256 % 256 = 0 := by omega
    have hSum : range.low.toNat / 65536 % 256 + i / 65536 % 256 = 256 := by omega
    have hTop : range.low.toNat / 16777216 < 256 := by omega
    rw [toNat_reached (by omega), hFirst, hZero, hThird,
      Nat.add_zero, Nat.add_zero, Nat.div_eq_of_lt hTop, Nat.add_zero, hSum, Nat.mod_eq_of_lt hTop,
      block_octets range.low.toNat, hThird]
    omega

theorem strays_of_irregular (hIrregular : ¬ Regular range.low.toNat range.high.toNat) :
    ∃ blocks, Strays range blocks := by
  have hOrdered := range.ordered
  unfold Regular at hIrregular
  by_cases hThird : range.low.toNat / 256 % 256 = 0
  · exact ⟨_, strays_of_second_octet (by omega) (by omega) hThird⟩
  · exact ⟨_, strays_of_third_octet (by omega) hThird⟩

end Strays

---- Filled Pools ----

section Filled

variable {subnet : Ipv4Subnet} {size : Nat} {range : AddressRange}

/- The ranges lie in the subnet. -/
def Ipv4Subnet.Encloses (subnet : Ipv4Subnet) : Prop := ∀ range ∈ subnet.ranges,
    subnet.Contains range.low ∧ subnet.Contains range.high

open Ipv4Subnet

theorem contains_of_configured (hEncloses : subnet.Encloses)
    (hConfigured : subnet.Configured address) : subnet.Contains address := by
  unfold Configured at hConfigured
  split at hConfigured
  · exact ⟨hConfigured.1, by omega⟩
  · next first others hRanges =>
    rcases hConfigured with ⟨range, hMem, hLow, hHigh⟩
    rw [← hRanges] at hMem
    rcases hEncloses range hMem with ⟨hFrom, hTo⟩
    unfold Contains at hFrom hTo ⊢
    omega

theorem configured_singleton (hRanges : subnet.ranges = [range]) :
    subnet.Configured address ↔ range.Contains address := by
  rw [Configured, hRanges]
  constructor
  · rintro ⟨other, hOther, hContains⟩
    rwa [List.mem_singleton.mp hOther] at hContains
  · exact fun hContains => ⟨range, List.mem_singleton_self range, hContains⟩

/- A pool of all addresses of the subnet is large enough. -/
theorem ncard_wanted_lt_capacity (hEncloses : subnet.Encloses) :
    Set.ncard {address | subnet.Wants address} < subnet.capacity := by
  have hPositive := capacity_pos subnet
  have hSubset : {address | subnet.Wants address} ⊆ (fun i => subnet.network + BitVec.ofNat 32 i) ''
    (Finset.Ico 1 subnet.capacity : Set Nat) := by
    rintro address ⟨hConfigured, hNetwork, _⟩
    have hContains := contains_of_configured hEncloses hConfigured
    rcases (exists_offset_iff subnet (Nat.le_refl _)).mpr hContains with ⟨i, hI, rfl⟩
    refine ⟨i, ?_, rfl⟩
    rw [mem_coe, mem_Ico]
    refine ⟨Nat.pos_of_ne_zero ?_, hI⟩
    rintro rfl
    exact hNetwork (BitVec.add_zero _)
  have hLe := Set.ncard_le_ncard hSubset ((finite_toSet _).image _)
  have hImage := Set.ncard_image_le (f := fun i => subnet.network + BitVec.ofNat 32 i)
    (finite_toSet (Finset.Ico 1 subnet.capacity))
  rw [Set.ncard_coe_finset, Nat.card_Ico] at hImage
  omega

/- A pool that is larger than needed is filled by the end. -/
theorem kept_of_filled (hBounds : subnet.bounds = [bound])
    (hSize : Set.ncard {address | subnet.Wants address} < size) (hFilled : Filled subnet size) :
    ∃ count < intMax, (∀ i < count, entry bound.1 i ≠ bound.2) ∧ entry bound.1 count = bound.2 ∧
      ∀ address, htobe32 address ∈ kept subnet bound.1 0 count ↔ subnet.Wants address := by
  rcases hFilled with ⟨pool, hPool, hNodup, hMem⟩
  have hLength := length_eq_ncard hNodup hMem
  rw [subnetPoolGenerate, hBounds, List.foldlM_cons] at hPool
  have hFill : fillRange subnet size bound.1 bound.2 intMax 0 [] = some pool := by
    cases hRange : fillRange subnet size bound.1 bound.2 intMax 0 [] with
    | none =>
      rw [hRange] at hPool
      cases hPool
    | some result =>
      rw [hRange] at hPool
      exact hPool
  rcases fillRange_cases subnet size bound.1 bound.2 intMax 0 [] with
    ⟨count, _, hBefore, ⟨hNone, _⟩ | ⟨hSome, _, hEnd⟩⟩
  · rw [hNone] at hFill
    cases hFill
  · rw [hSome] at hFill
    cases hFill
    rcases hEnd with hFull | ⟨hCount, hStop⟩
    · omega
    · refine ⟨count, hCount, ?_, ?_, hMem⟩
      · intro i hI
        have hHere := hBefore i hI
        rwa [Nat.zero_add] at hHere
      · rwa [Nat.zero_add] at hStop

/- Three entries in front of the range are not all left out. -/
theorem regular_of_filled (hRanges : subnet.ranges = [range])
    (hStop : entry (htobe32 range.low) count = htobe32 range.high + htobe32 1)
    (hMem : ∀ address, htobe32 address ∈ kept subnet (htobe32 range.low) 0 count ↔
        subnet.Wants address) : Regular range.low.toNat range.high.toNat := by
  by_contra hIrregular
  rcases strays_of_irregular hIrregular with ⟨blocks, hStrays⟩
  have hWithin := hStrays.within
  have hEnd : (reached range.low count).toNat / 256 = range.high.toNat / 256 := by
    rw [reached, hStop, toNat_stop]
    omega
  have hLater : blocks * 256 + 2 < count := by
    by_contra hEarly
    by_cases hBefore : count < blocks * 256
    · have hBlock := hStrays.before count hBefore
      omega
    · have hBlock := hStrays.behind (count - blocks * 256) (by omega)
      rw [Nat.add_sub_cancel' (by omega)] at hBlock
      omega
  -- an entry in front of the range is the network or the gateway
  have hLeftOut : ∀ last < 3, entry (htobe32 range.low) (blocks * 256 + last) = subnet.sub ∨
    entry (htobe32 range.low) (blocks * 256 + last) = subnet.gw := by
    intro last hLast
    by_contra hOthers
    rcases not_or.mp hOthers with ⟨hSub, hGw⟩
    have hKept : htobe32 (reached range.low (blocks * 256 + last)) ∈
      kept subnet (htobe32 range.low) 0 count := by
      rw [← entry_eq]
      refine mem_kept.mpr ⟨⟨blocks * 256 + last, by omega, ?_⟩, hSub, hGw⟩
      rw [Nat.zero_add]
    have hContains := (configured_singleton hRanges).mp ((hMem _).mp hKept).1
    have hLow := hContains.1
    have hBehind := hStrays.behind last hLast
    omega
  have hDistinct : ∀ first < 3, ∀ second < 3, entry (htobe32 range.low) (blocks * 256 + first) =
    entry (htobe32 range.low) (blocks * 256 + second) → first = second := by
    intro first hFirst second hSecond hSame
    have hEq := entry_inj (by omega) (by omega) hSame
    omega
  have hZero := hLeftOut 0 (by decide)
  have hFirst := hDistinct 0 (by decide) 1 (by decide)
  have hSecond := hDistinct 0 (by decide) 2 (by decide)
  grind

/- A single range that fills the pool is counted. -/
theorem counted_of_filled (hRanges : subnet.ranges = [range]) (hEncloses : subnet.Encloses)
    (hSize : Set.ncard {address | subnet.Wants address} < size) (hFilled : Filled subnet size) :
    range.Counted subnet := by
  have hBounds : subnet.bounds = [(htobe32 range.low, htobe32 range.high + htobe32 1)] := by
    rw [bounds, hRanges]
    rfl
  rcases kept_of_filled hBounds hSize hFilled with ⟨count, hCount, hBefore, hStop, hMem⟩
  have hRegular := regular_of_filled hRanges hStop hMem
  have hStopAt : count = range.stopAt := by
    have hEntry := entry_stopAt hRegular
    have hLess := stopAt_lt range
    unfold intMax at hCount
    exact entry_inj (by omega) hLess (hStop.trans hEntry.symm)
  subst hStopAt
  have hInside := (hEncloses range (by rw [hRanges]; exact List.mem_cons_self)).1
  refine counted_of_meets hInside.1 hRegular hCount ?_
  intro address hAddress hNetwork hGateway
  have hNat : (BitVec.ofNat 32 address).toNat = address := by
    rw [toNat_ofNat, Nat.mod_eq_of_lt hAddress]
  have hOthers : BitVec.ofNat 32 address ≠ subnet.network ∧
    BitVec.ofNat 32 address ≠ subnet.gateway := by
    constructor
    · intro hSame
      exact hNetwork (by rw [← hSame, hNat])
    · intro hSame
      exact hGateway (by rw [← hSame, hNat])
  have hKept := hMem (BitVec.ofNat 32 address)
  rw [htobe32_mem_kept, and_iff_left hOthers, exists_reached_iff hRegular, Wants,
    and_iff_left hOthers, configured_singleton hRanges, AddressRange.Contains, hNat] at hKept
  exact hKept

/- Half of all addresses are more than `inc` can count. -/
theorem prefixlen_of_filled (hRanges : subnet.ranges = [])
    (hSize : Set.ncard {address | subnet.Wants address} < size) (hFilled : Filled subnet size) :
    2 ≤ subnet.prefixlen := by
  have hBounds : subnet.bounds = [(subnet.sub, subnet.broadcast)] := by rw [bounds, hRanges]
  rcases kept_of_filled hBounds hSize hFilled with ⟨count, hCount, _, hStop, _⟩
  have hLe := network_add_capacity_le subnet
  unfold intMax at hCount
  rw [broadcast_eq] at hStop
  have hSame := entry_inj (by omega) (by omega) hStop
  by_contra hHalf
  have hOne : subnet.prefixlen = 1 := by
    have hPositive := subnet.prefixlen_pos
    omega
  have hCapacity : subnet.capacity = 2147483648 := by
    rw [capacity, hOne]
    rfl
  omega

theorem filled_of_countable
    (hDisjoint : subnet.ranges.Pairwise (fun range other => ∀ address,
        ¬ (range.Contains address ∧ other.Contains address)))
    (hSize : Set.ncard {address | subnet.Wants address} ≤ size) (hCountable : subnet.Countable) :
    Filled subnet size := by
  cases hRanges : subnet.ranges with
  | nil =>
    have hSegment := network_segment subnet (hCountable.1 hRanges)
    have hBounds : subnet.bounds = [()].map (fun _ => (subnet.sub, subnet.broadcast)) := by
      rw [bounds, hRanges]
      rfl
    refine filled_of_segments _ (fun _ => subnet.capacity - 1) _ hBounds (fun _ _ => hSegment)
      (List.pairwise_singleton _ _) ?_ hSize
    intro address
    rw [Configured, hRanges]
    simp
  | cons first others =>
    have hBounds : subnet.bounds = subnet.ranges.map (fun range =>
      (htobe32 range.low, htobe32 range.high + htobe32 1)) := by
      rw [bounds, hRanges]
    refine filled_of_segments _ AddressRange.stopAt AddressRange.Contains hBounds (fun range hMem =>
      counted_segment (hCountable.2 range hMem))
      hDisjoint ?_ hSize
    intro address
    rw [Configured, hRanges]

end Filled

/-
  The pool gets exactly the addresses of the ranges if each of them is counted; for a single range,
  or none, only then.
-/
theorem subnet_pool_filled_iff (subnet : Ipv4Subnet) (size : Nat) (hEncloses : subnet.Encloses)
    (hDisjoint : subnet.ranges.Pairwise (fun range other => ∀ address,
        ¬ (range.Contains address ∧ other.Contains address)))
    (hSize : Set.ncard {address | subnet.Wants address} ≤ size) :
    (subnet.Countable → Filled subnet size) ∧ (subnet.ranges.length ≤ 1 →
        Set.ncard {address | subnet.Wants address} < size →
        (Filled subnet size ↔ subnet.Countable)) := by
  have hEnough := filled_of_countable hDisjoint hSize
  refine ⟨hEnough, ?_⟩
  intro hSingle hLarger
  refine ⟨fun hFilled => ?_, hEnough⟩
  cases hRanges : subnet.ranges with
  | nil =>
    refine ⟨fun _ => prefixlen_of_filled hRanges hLarger hFilled, ?_⟩
    intro range hMem
    rw [hRanges] at hMem
    cases hMem
  | cons range others =>
    have hOne : subnet.ranges = [range] := by
      rw [hRanges, List.length_cons] at hSingle
      have hNone : others = [] := List.eq_nil_of_length_eq_zero (by omega)
      rw [hRanges, hNone]
    refine ⟨fun hNone => ?_, ?_⟩
    · rw [hOne] at hNone
      cases hNone
    · intro other hMem
      rw [hOne] at hMem
      rw [List.mem_singleton.mp hMem]
      exact counted_of_filled hOne hEncloses hLarger hFilled

/- 10.45.0.0/16 with the gateway 10.45.0.1. -/
def testSubnet (ranges : List AddressRange) : Ipv4Subnet where
  network := 0x0a2d0000
  prefixlen := 16
  prefixlen_pos := by decide
  prefixlen_le := by decide
  aligned := by decide
  gateway := 0x0a2d0001
  ranges := ranges

/- 10.45.0.0 to 10.45.3.254, and 10.45.9.20 to 10.45.9.90. -/
def testRanges : List AddressRange :=
  [{ low := 0x0a2d0000
     high := 0x0a2d03fe
     ordered := by decide },
   { low := 0x0a2d0914
     high := 0x0a2d095a
     ordered := by decide }]

theorem testRanges_encloses : (testSubnet testRanges).Encloses := by
  rintro range (_ | ⟨_, _ | ⟨_, hMem⟩⟩)
  · exact ⟨⟨by decide, by decide⟩, ⟨by decide, by decide⟩⟩
  · exact ⟨⟨by decide, by decide⟩, ⟨by decide, by decide⟩⟩
  · cases hMem

theorem subnet_pool_filled_two_ranges : Filled (testSubnet testRanges) 65536 := by
  refine (subnet_pool_filled_iff _ _ testRanges_encloses ?_ ?_).1 ⟨?_, ?_⟩
  · refine List.Pairwise.cons ?_ (List.pairwise_singleton _ _)
    rintro other (_ | ⟨_, hMem⟩) address ⟨hFirst, hSecond⟩
    · have hHigh := hFirst.2
      have hLow := hSecond.1
      exact absurd (Nat.le_trans hLow hHigh) (by decide)
    · cases hMem
  · exact Nat.le_of_lt (ncard_wanted_lt_capacity testRanges_encloses)
  · intro hNone
    cases hNone
  · rintro range (_ | ⟨_, _ | ⟨_, hMem⟩⟩)
    · decide
    · decide
    · cases hMem

/- 10.45.0.0 to 10.45.0.255. -/
def wholeOctet : AddressRange where
  low := 0x0a2d0000
  high := 0x0a2d00ff
  ordered := by decide

/-
  A range of 256 addresses is taken to be empty, and behind 10.45.0.255 another one goes on with
  10.45.0.0.
-/
theorem subnet_pool_misses_ranges :
    subnetPoolGenerate (testSubnet [wholeOctet]) 65536 = some [] ∧
      ¬ Filled (testSubnet [wholeOctet]) 65536 ∧ reached 0x0a2d00fa 6 = 0x0a2d0000 := by
  have hEmpty : subnetPoolGenerate (testSubnet [wholeOctet]) 65536 = some [] := by
    have hStop : entry (htobe32 wholeOctet.low) (0 + 0) = htobe32 wholeOctet.high + htobe32 1 := by
      decide
    have hFill : fillRange (testSubnet [wholeOctet]) 65536 (htobe32 wholeOctet.low)
      (htobe32 wholeOctet.high + htobe32 1) intMax 0 [] = some [] := fillRange_of_stop
      (fun _ hLess => absurd hLess (Nat.not_lt_zero _)) hStop (by decide) (by decide)
    show List.foldlM _ [] [_] = _
    rfl
  refine ⟨hEmpty, ?_, by decide⟩
  rintro ⟨pool, hPool, _, hMem⟩
  cases hPool
  have hWanted : (testSubnet [wholeOctet]).Wants 0x0a2d0005 :=
    ⟨⟨wholeOctet, List.mem_singleton_self _, by decide⟩, by decide, by decide⟩
  exact List.not_mem_nil ((hMem _).mpr hWanted)

end Pretty5gs.Pfcp.UeIp
