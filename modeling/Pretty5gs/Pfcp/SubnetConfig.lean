import Mathlib.Data.List.Pairwise
import Pretty5gs.Pfcp.UeIpAlloc

/-
  The configured lists of PFCP peers and subnets: their order and the check that subnets do not
  overlap.

  Main results: `resort_sorts_iff`, `overlap_check_iff`.
-/

---- Orders ----

namespace Pretty5gs.Pfcp.SubnetConfig

open List UeIp

variable {α : Type}

/- `ogs_pfcp_node_order_cmp` and `ogs_pfcp_subnet_order_cmp`; the difference wraps. -/
def orderCmp (order : α → BitVec 32) (a b : α) : Int := (order a - order b).toInt

/- The entries of `nodes[]`. -/
def maxNodes : Nat := 256

/- The list is copied to the array, sorted there and linked anew. -/
def resortByOrder (qsort : (α → α → Int) → List α → List α) (order : α → BitVec 32)
    (list : List α) : List α :=
  let nodes := list.take maxNodes
  if nodes.length ≤ 1 then list else qsort (orderCmp order) nodes

/- `ogs_pfcp_peer_list_resort_by_order` -/
def ogsPfcpPeerListResortByOrder (qsort : (α → α → Int) → List α → List α) :
    (α → BitVec 32) → List α → List α := resortByOrder qsort

/- `ogs_pfcp_subnet_list_resort_by_order` -/
def ogsPfcpSubnetListResortByOrder (qsort : (α → α → Int) → List α → List α) :
    (α → BitVec 32) → List α → List α := resortByOrder qsort

/- The comparator is a consistent weak order on these items. -/
structure WeakOn (cmp : α → α → Int) (items : List α) : Prop where
  swap : ∀ a ∈ items, ∀ b ∈ items, cmp a b ≤ 0 ↔ 0 ≤ cmp b a
  trans : ∀ a ∈ items, ∀ b ∈ items, ∀ c ∈ items, cmp a b ≤ 0 → cmp b c ≤ 0 → cmp a c ≤ 0

/- Nothing is known of `qsort` with any other comparator. -/
def Conforming (qsort : (α → α → Int) → List α → List α) : Prop :=
  ∀ cmp items, WeakOn cmp items →
    (qsort cmp items).Perm items ∧ (qsort cmp items).Pairwise fun a b => cmp a b ≤ 0

/- The list that was meant: the same entries, the orders not decreasing. -/
def SortedBy (order : α → BitVec 32) (list sorted : List α) : Prop :=
  sorted.Perm list ∧ sorted.Pairwise fun a b => (order a).toInt ≤ (order b).toInt

/- The difference of two orders is an `int`. -/
def Fits (x y : BitVec 32) : Prop := (x - y).toInt = x.toInt - y.toInt

instance (x y : BitVec 32) : Decidable (Fits x y) := inferInstanceAs (Decidable (_ = _))

theorem toInt_sub_cases (x y : BitVec 32) :
    (x - y).toInt = x.toInt - y.toInt ∨
      2 ^ 31 ≤ x.toInt - y.toInt ∧ (x - y).toInt = x.toInt - y.toInt - 2 ^ 32 ∨
        x.toInt - y.toInt < -2 ^ 31 ∧ (x - y).toInt = x.toInt - y.toInt + 2 ^ 32 := by
  have hX := x.toInt_lt
  have hY := y.le_toInt
  have hX' := x.le_toInt
  have hY' := y.toInt_lt
  rw [BitVec.toInt_sub, Int.bmod_def]
  omega

theorem weakOn_of_fits (hFits : ∀ a ∈ items, ∀ b ∈ items, Fits (order a) (order b)) :
    WeakOn (orderCmp order) items := by
  constructor
  · intro a ha b hb
    rw [orderCmp, orderCmp, hFits a ha b hb, hFits b hb a ha]
    omega
  · intro a ha b hb c hc
    rw [orderCmp, orderCmp, orderCmp, hFits a ha b hb, hFits b hb c hc, hFits a ha c hc]
    omega

/- Entries in both orders at once have a difference that fits. -/
theorem fits_of_ordered (hSwap : (x - y).toInt ≤ 0 ↔ 0 ≤ (y - x).toInt) (hCmp : (x - y).toInt ≤ 0)
    (hOrder : x.toInt ≤ y.toInt) : Fits x y ∧ Fits y x := by
  unfold Fits
  have hX := x.le_toInt
  have hY := y.toInt_lt
  have hXY := toInt_sub_cases x y
  have hYX := toInt_sub_cases y x
  omega

open Classical in
/- A `qsort` that sorts by weak orders and drops everything otherwise. -/
noncomputable def strictQsort (cmp : α → α → Int) (items : List α) : List α :=
  if WeakOn cmp items then (items.attach.mergeSort fun a b => decide (cmp a b ≤ 0)).map Subtype.val
  else []

theorem strictQsort_conforming : Conforming (strictQsort (α := α)) := by
  intro cmp items hWeak
  rw [strictQsort, if_pos hWeak]
  constructor
  · have hPerm := (mergeSort_perm items.attach fun a b => decide (cmp a b ≤ 0)).map Subtype.val
    rwa [attach_map_subtype_val] at hPerm
  · rw [pairwise_map]
    refine (pairwise_mergeSort ?_ ?_ items.attach).imp fun hLe => of_decide_eq_true hLe
    · intro a b c hFirst hSecond
      exact decide_eq_true (hWeak.trans a a.2 b b.2 c c.2 (of_decide_eq_true hFirst)
        (of_decide_eq_true hSecond))
    · intro a b
      have hSwap := hWeak.swap b b.2 a a.2
      simp only [Bool.or_eq_true, decide_eq_true_eq]
      omega

theorem length_strictQsort {cmp : α → α → Int} {items : List α} :
    (strictQsort cmp items).length ≤ items.length := by
  by_cases hWeak : WeakOn cmp items
  · exact (strictQsort_conforming cmp items hWeak).1.length_eq.le
  · rw [strictQsort, if_neg hWeak]
    exact Nat.zero_le _

theorem length_resort_le (order : α → BitVec 32) (hMany : maxNodes < list.length) :
    (resortByOrder strictQsort order list).length ≤ maxNodes := by
  have hNodes : (list.take maxNodes).length = maxNodes := length_take_of_le hMany.le
  rw [resortByOrder, if_neg (by rw [hNodes]; decide)]
  exact length_strictQsort.trans hNodes.le

theorem eq_of_mem_of_length_le_one {list : List α} (hOne : list.length ≤ 1) (hFirst : a ∈ list)
    (hSecond : b ∈ list) : a = b := by
  rcases list with - | ⟨c, - | ⟨d, rest⟩⟩
  · cases hFirst
  · rw [mem_singleton.mp hFirst, mem_singleton.mp hSecond]
  · simp at hOne

theorem sortedBy_of_fits (hConforming : Conforming qsort) (hFew : list.length ≤ maxNodes)
    (hFits : ∀ a ∈ list, ∀ b ∈ list, Fits (order a) (order b)) :
    SortedBy order list (resortByOrder qsort order list) := by
  rw [resortByOrder, take_of_length_le hFew]
  split
  · rename_i hOne
    refine ⟨.refl _, pairwise_of_forall_mem_list fun a ha b hb => ?_⟩
    rw [eq_of_mem_of_length_le_one hOne ha hb]
  · rcases hConforming _ _ (weakOn_of_fits hFits) with ⟨hPerm, hSorted⟩
    refine ⟨hPerm, hSorted.imp_of_mem fun {a b} ha hb hCmp => ?_⟩
    rw [orderCmp, hFits a (hPerm.mem_iff.mp ha) b (hPerm.mem_iff.mp hb)] at hCmp
    omega

/- An array of 256 entries, and a comparator that is no order where a difference overflows. -/
theorem resort_sorts_iff (order : α → BitVec 32) (list : List α) :
    (∀ qsort, Conforming qsort →
      SortedBy order list (ogsPfcpPeerListResortByOrder qsort order list) ∧
        SortedBy order list (ogsPfcpSubnetListResortByOrder qsort order list)) ↔
      list.length ≤ maxNodes ∧ ∀ a ∈ list, ∀ b ∈ list, Fits (order a) (order b) := by
  constructor
  · intro hAll
    rcases hAll strictQsort strictQsort_conforming with ⟨hSorted, -⟩
    have hFew : list.length ≤ maxNodes := by
      by_contra hMany
      have hLength := length_resort_le order (Nat.lt_of_not_le hMany)
      exact hMany (hSorted.1.length_eq ▸ hLength)
    refine ⟨hFew, ?_⟩
    rw [ogsPfcpPeerListResortByOrder, resortByOrder, take_of_length_le hFew] at hSorted
    split at hSorted
    · rename_i hOne
      intro a ha b hb
      rw [eq_of_mem_of_length_le_one hOne ha hb]
      simp [Fits]
    · rename_i hMore
      have hWeak : WeakOn (orderCmp order) list := by
        by_contra hNot
        rw [strictQsort, if_neg hNot] at hSorted
        exact hMore (by simp [← hSorted.1.length_eq])
      have hCmp := (strictQsort_conforming _ _ hWeak).2
      -- in the sorted list both orders go the same way
      let both : α → α → Prop := fun a b => Fits (order a) (order b) ∧ Fits (order b) (order a)
      have hBoth : (strictQsort (orderCmp order) list).Pairwise both := by
        refine (hCmp.and hSorted.2).imp_of_mem fun {a b} ha hb hOrdered => ?_
        exact fits_of_ordered (hWeak.swap a (hSorted.1.mem_iff.mp ha) b (hSorted.1.mem_iff.mp hb))
          hOrdered.1 hOrdered.2
      have hSymm : Std.Symm both := ⟨fun a b hFits => hFits.symm⟩
      intro a ha b hb
      refine (hBoth.forall_of_forall (fun c _ => ?_) (hSorted.1.mem_iff.mpr ha)
        (hSorted.1.mem_iff.mpr hb)).1
      simp [both, Fits]
  · rintro ⟨hFew, hFits⟩ qsort hConforming
    exact ⟨sortedBy_of_fits hConforming hFew hFits, sortedBy_of_fits hConforming hFew hFits⟩

/- The last of 257 subnets of one order is dropped. -/
theorem long_list_is_cut :
    ¬ ∃ qsort, Conforming qsort ∧ SortedBy (fun _ => 0) (List.range 257)
      (ogsPfcpSubnetListResortByOrder qsort (fun _ => 0) (List.range 257)) := by
  rintro ⟨qsort, hConforming, hPerm, -⟩
  have hWeak : WeakOn (orderCmp fun _ => 0) ((List.range 257).take maxNodes) :=
    weakOn_of_fits fun a _ b _ => by decide
  have hNodes : ((List.range 257).take maxNodes).length = maxNodes :=
    length_take_of_le (by rw [length_range]; decide)
  rw [ogsPfcpSubnetListResortByOrder, resortByOrder, if_neg (by rw [hNodes]; decide)] at hPerm
  have hLength := ((hConforming _ _ hWeak).1.symm.trans hPerm).length_eq
  rw [hNodes, length_range] at hLength
  cases hLength

---- Subnets ----

/- The words of an address or mask, in network order. -/
abbrev Words := Fin 4 → U32

/- `ogs_ipsubnet_t`; `fix_subnet` clears the bits behind the mask. -/
structure Ipsubnet where
  family : Family
  sub : Words
  mask : Words
  fixed : ∀ i, sub i &&& mask i = sub i

/- The mask as its two loops leave it for a number of bits. -/
def maskOfBits (bits : Nat) : Words := fun i => if 32 * (i + 1) ≤ bits then BitVec.allOnes 32
  else BitVec.allOnes 32 <<< (32 - (bits - 32 * i))

/- `ogs_ipsubnet` with the mask it is given, and `fix_subnet`. -/
def ogsIpsubnet (family : Family) (address mask : Words) : Ipsubnet where
  family := family
  sub := fun i => address i &&& mask i
  mask := mask
  fixed := fun i => by rw [BitVec.and_assoc, BitVec.and_self]

/- What the check looks at in `ogs_pfcp_subnet_t`. -/
structure Subnet where
  sub : Ipsubnet
  gwFamily : Family
  dnn : List Dnn

/- `subnet_dnn_sets_disjoint` -/
def subnetDnnSetsDisjoint (a b : Subnet) : Bool :=
  if a.dnn.isEmpty || b.dnn.isEmpty then false
  else a.dnn.all fun x => b.dnn.all fun y => !strcaseEq x y

/- The words that are compared for a family. -/
def compared : Family → List (Fin 4)
  | .inet => [0]
  | .inet6 => [0, 1, 2, 3]

/- A pair of subnets is an error. -/
def overlapping (subnet next : Subnet) : Bool :=
  if subnet.gwFamily ≠ next.gwFamily then false
  else
    let mask : Words := fun i => subnet.sub.mask i &&& next.sub.mask i
    (compared subnet.gwFamily).all
        (fun i => subnet.sub.sub i &&& mask i = next.sub.sub i &&& mask i) &&
      !subnetDnnSetsDisjoint subnet next

/- `ogs_pfcp_check_subnet_overlapping` -/
def ogsPfcpCheckSubnetOverlapping : List Subnet → Rv
  | [] => .ok
  | subnet :: rest =>
    if rest.any (overlapping subnet) then .error else ogsPfcpCheckSubnetOverlapping rest

---- Addresses In Common ----

/- The words of an address of the family are those of the subnet under its mask. -/
def Ipsubnet.Contains (subnet : Ipsubnet) (address : Words) : Prop :=
  ∀ i ∈ compared subnet.family, address i &&& subnet.mask i = subnet.sub i

/- Two subnets of one family have an address in common. -/
def Meets (a b : Subnet) : Prop :=
  a.sub.family = b.sub.family ∧ ∃ address, a.sub.Contains address ∧ b.sub.Contains address

/- Both are for named DNNs, and none of them is the other's. -/
def Apart (a b : Subnet) : Prop :=
  a.dnn ≠ [] ∧ b.dnn ≠ [] ∧ ∀ x ∈ a.dnn, ∀ y ∈ b.dnn, strcaseEq x y = false

/- A DNN is served by the subnets that name it, and by those that name none. -/
def Subnet.Serves (subnet : Subnet) (dnn : Dnn) : Prop :=
  subnet.dnn = [] ∨ ∃ name ∈ subnet.dnn, strcaseEq name dnn = true

theorem subnetDnnSetsDisjoint_iff {a b : Subnet} :
    subnetDnnSetsDisjoint a b = true ↔ Apart a b := by
  unfold subnetDnnSetsDisjoint Apart
  by_cases hAny : (a.dnn.isEmpty || b.dnn.isEmpty) = true
  · rw [if_pos hAny]
    rw [Bool.or_eq_true, List.isEmpty_iff, List.isEmpty_iff] at hAny
    refine iff_of_false nofun fun hApart => ?_
    exact hAny.elim hApart.1 hApart.2.1
  · rw [Bool.or_eq_true, List.isEmpty_iff, List.isEmpty_iff, not_or] at hAny
    simp [hAny.1, hAny.2]

/- Networks that are equal under both masks: their union is in the first one. -/
theorem or_and_mask {sub other mask otherMask : U32} (hFixed : sub &&& mask = sub)
    (hOther : other &&& otherMask = other)
    (hSame : sub &&& (mask &&& otherMask) = other &&& (mask &&& otherMask)) :
    (sub ||| other) &&& mask = sub := by
  ext i hi
  have hSameBit := congrArg (fun word => word[i]) hSame
  grind

theorem exists_common_iff {a b : Ipsubnet} {words : List (Fin 4)} :
    (∀ i ∈ words, a.sub i &&& (a.mask i &&& b.mask i) = b.sub i &&& (a.mask i &&& b.mask i)) ↔
      ∃ address : Words, (∀ i ∈ words, address i &&& a.mask i = a.sub i) ∧
        ∀ i ∈ words, address i &&& b.mask i = b.sub i := by
  constructor
  · intro hSame
    refine ⟨fun i => a.sub i ||| b.sub i, fun i hWord => ?_, fun i hWord => ?_⟩
    · exact or_and_mask (a.fixed i) (b.fixed i) (hSame i hWord)
    · show (a.sub i ||| b.sub i) &&& b.mask i = b.sub i
      rw [BitVec.or_comm]
      refine or_and_mask (b.fixed i) (a.fixed i) ?_
      rw [BitVec.and_comm (b.mask i), hSame i hWord]
  · rintro ⟨address, hFirst, hSecond⟩ i hWord
    grind

theorem overlapping_iff (hFirst : a.gwFamily = a.sub.family) (hSecond : b.gwFamily = b.sub.family) :
    overlapping a b = true ↔ Meets a b ∧ ¬ Apart a b := by
  rw [← subnetDnnSetsDisjoint_iff, Meets, overlapping, hFirst, hSecond]
  by_cases hFamily : a.sub.family = b.sub.family
  · rw [if_neg (not_not.mpr hFamily), Bool.and_eq_true, all_eq_true]
    simp only [decide_eq_true_eq, exists_common_iff, Bool.not_eq_true', Bool.not_eq_true]
    simp only [Ipsubnet.Contains, ← hFamily, true_and]
  · simp [hFamily]

/- A pair that passed the check does not serve a DNN with common addresses. -/
theorem not_meets_of_serves (hPassed : Meets a b → Apart a b) (hFirst : a.Serves dnn)
    (hSecond : b.Serves dnn) : ¬ Meets a b := by
  intro hMeets
  rcases hPassed hMeets with ⟨hSome, hSome', hNone⟩
  rcases hFirst.resolve_left hSome with ⟨name, hName, hEq⟩
  rcases hSecond.resolve_left hSome' with ⟨title, hTitle, hEq'⟩
  have hDiffer := hNone name hName title hTitle
  rw [strcaseEq_iff] at hEq hEq'
  rw [strcaseEq, hEq, hEq'] at hDiffer
  simp at hDiffer

def bySlash16 (network : U32) (gwFamily : Family) : Subnet where
  sub := ogsIpsubnet .inet (fun _ => network) (maskOfBits 16)
  gwFamily := gwFamily
  dnn := []

end Pretty5gs.Pfcp.SubnetConfig
