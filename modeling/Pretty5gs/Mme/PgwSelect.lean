import Mathlib.Algebra.Ring.Nat
import Mathlib.Data.List.Nodup
import Pretty5gs.Core.Types

/-
  The choice of a PGW among the candidates that DNS gave (`src/mme/mme-pgw-dns.c`).

  Three passes look for the smallest order, preference and priority; a pass starts from the
  candidate of the pass before it, the first from a sentinel. The index is then drawn by weight.
  At most sixteen weights of 16 bits are added, which a 32-bit sum holds.

  Main results: `scan_spec`, `bestKey_eq_iff`, `countP_walk`, `pgw_selected_by_weight`.
-/

---- Candidates ----

namespace Pretty5gs.Mme.PgwSelect

open List

structure Key where
  order : U16
  preference : U16
  priority : U16
deriving DecidableEq

/- A candidate with its addresses. -/
structure Cand (α : Type) extends Key where
  weight : U16
  ip : List α

variable {α : Type} {cands : List (Cand α)} {best : Key}

/- A candidate without addresses is passed over. -/
def Cand.usable (c : Cand α) : Bool := 0 < c.ip.length

---- Passes ----

/- One pass for a smaller field, among the candidates of the class of the best one. -/
def scan [DecidableEq κ] (cls : Key → κ) (field : Key → U16) (cands : List (Cand α)) (best : Key) :
    Key :=
  cands.foldl (fun best c =>
    if c.usable ∧ cls c.toKey = cls best ∧ field c.toKey < field best then c.toKey else best) best

/- The sentinel of the first pass. -/
def lastKey : Key := ⟨0xffff, 0xffff, 0xffff⟩

def bestKey (cands : List (Cand α)) : Key :=
  let byOrder := scan (fun _ => ()) Key.order cands lastKey
  let byPreference := scan Key.order Key.preference cands byOrder
  scan (fun k => (k.order, k.preference)) Key.priority cands byPreference

/- The members of the group with their indices. -/
def group (cands : List (Cand α)) : List (Cand α × Nat) :=
  cands.zipIdx.filter fun m => m.1.usable && m.1.toKey == bestKey cands

def weightSum (members : List (Cand α × Nat)) : Nat := (members.map fun m => m.1.weight.toNat).sum

/- The first member whose running sum is above the drawn number. -/
def walk (r : Nat) : Nat → List (Cand α × Nat) → Option Nat
  | _, [] => none
  | run, m :: rest =>
    if r < run + m.1.weight.toNat then some m.2 else walk r (run + m.1.weight.toNat) rest

def pgwDnsWeightedIndex (members : List (Cand α × Nat)) (random : U32) : Option Nat :=
  let sum := weightSum members
  if sum = 0 then (members[random.toNat % members.length]?).map Prod.snd
  else (walk (random.toNat % sum) 0 members).or (members.getLast?.map Prod.snd)

/- The index that is picked and the address; `none` is `OGS_ERROR`. -/
def pgwDnsSelectFromCands (cands : List (Cand α)) (random ipRandom : U32) : Option (Nat × α) :=
  (pgwDnsWeightedIndex (group cands) random).bind fun pick =>
    cands[pick]?.bind fun c => c.ip[ipRandom.toNat % c.ip.length]?.map fun ip => (pick, ip)

---- The Least Candidates ----

/- The lexicographic order. -/
def Key.NotAfter (k l : Key) : Prop :=
  k.order < l.order ∨ k.order = l.order ∧
    (k.preference < l.preference ∨ k.preference = l.preference ∧ k.priority ≤ l.priority)

instance {k l : Key} : Decidable (k.NotAfter l) := inferInstanceAs (Decidable (_ ∨ _))

def Least (cands : List (Cand α)) (c : Cand α) : Prop :=
  c.usable = true ∧ ∀ d ∈ cands, d.usable = true → c.NotAfter d.toKey

instance {c : Cand α} : Decidable (Least cands c) := inferInstanceAs (Decidable (_ ∧ _))

theorem Key.NotAfter.antisymm {k l : Key} (hLeft : k.NotAfter l) (hRight : l.NotAfter k) :
    k = l := by
  rcases k with ⟨order, preference, priority⟩
  rcases l with ⟨order', preference', priority'⟩
  unfold NotAfter at hLeft hRight
  simp only [Key.mk.injEq]
  bv_omega

/- What a pass finds: a key of the class it starts from, with the smallest field. -/
structure Scanned (cls : Key → κ) (field : Key → U16) (cands : List (Cand α)) (best next : Key) :
    Prop where
  like : cls next = cls best
  start : field next ≤ field best
  least : ∀ c ∈ cands, c.usable = true → cls c.toKey = cls best → field next ≤ field c.toKey
  found : next = best ∨ ∃ c ∈ cands, c.usable = true ∧ c.toKey = next

theorem scan_spec [DecidableEq κ] {cls : Key → κ} {field : Key → U16} :
    Scanned cls field cands best (scan cls field cands best) := by
  induction cands generalizing best with
  | nil => exact ⟨rfl, BitVec.le_refl _, forall_mem_nil _, .inl rfl⟩
  | cons c cands ih =>
    rw [scan, foldl_cons]
    split
    · next hBetter =>
      rcases hBetter with ⟨hUsable, hLike, hLess⟩
      rcases @ih c.toKey with ⟨hClass, hStart, hLeast, hFound⟩
      rw [hLike] at hClass hLeast
      refine ⟨hClass, BitVec.le_trans hStart (BitVec.le_of_lt hLess),
        forall_mem_cons.mpr ⟨fun _ _ => hStart, hLeast⟩, .inr ?_⟩
      rcases hFound with hSame | ⟨d, hMem, hFound⟩
      · exact ⟨c, mem_cons_self, hUsable, hSame.symm⟩
      · exact ⟨d, mem_cons_of_mem c hMem, hFound⟩
    · next hNot =>
      rcases @ih best with ⟨hClass, hStart, hLeast, hFound⟩
      refine ⟨hClass, hStart, forall_mem_cons.mpr ⟨fun hUsable hLike => ?_, hLeast⟩, ?_⟩
      · have hLess := BitVec.not_lt.mp fun hLess => hNot ⟨hUsable, hLike, hLess⟩
        exact BitVec.le_trans hStart hLess
      · exact hFound.imp_right fun ⟨d, hMem, hFound⟩ => ⟨d, mem_cons_of_mem c hMem, hFound⟩

theorem notAfter_lastKey (k : Key) : k.NotAfter lastKey := by
  simp only [Key.NotAfter, lastKey]
  bv_omega

theorem bestKey_passes :
    ∃ first second, Scanned (fun _ => ()) Key.order cands lastKey first ∧
      Scanned Key.order Key.preference cands first second ∧
      Scanned (fun k => (k.order, k.preference)) Key.priority cands second (bestKey cands) :=
  ⟨_, _, scan_spec, scan_spec, scan_spec⟩

theorem bestKey_notAfter {c : Cand α} (hMem : c ∈ cands) (hUsable : c.usable = true) :
    (bestKey cands).NotAfter c.toKey := by
  rcases bestKey_passes with ⟨first, second, hFirst, hSecond, hThird⟩
  have hOrder := hFirst.least c hMem hUsable rfl
  have hPreference := hSecond.least c hMem hUsable
  have hPriority := hThird.least c hMem hUsable
  have hLike := Prod.mk.inj hThird.like
  have hOrders := hSecond.like
  unfold Key.NotAfter
  grind

theorem exists_bestKey {c : Cand α} (hMem : c ∈ cands) (hUsable : c.usable = true) :
    ∃ d ∈ cands, d.usable = true ∧ d.toKey = bestKey cands := by
  rcases bestKey_passes with ⟨first, second, hFirst, hSecond, hThird⟩
  rcases hThird.found with hThird | hFound
  · rcases hSecond.found with hSecond | hFound
    · rcases hFirst.found with hFirst | hFound
      · -- no pass found a smaller key than the sentinel
        have hLast : bestKey cands = lastKey := hThird.trans (hSecond.trans hFirst)
        refine ⟨c, hMem, hUsable, ?_⟩
        have hNotAfter := bestKey_notAfter hMem hUsable
        rw [hLast] at hNotAfter ⊢
        exact (notAfter_lastKey _).antisymm hNotAfter
      · rwa [hThird, hSecond]
    · rwa [hThird]
  · exact hFound

/- The keys of the least candidates are the best key. -/
theorem bestKey_eq_iff {c : Cand α} (hMem : c ∈ cands) :
    (c.usable && c.toKey == bestKey cands) = true ↔ Least cands c := by
  rw [Bool.and_eq_true, beq_iff_eq]
  constructor
  · rintro ⟨hUsable, hKey⟩
    refine ⟨hUsable, fun d hOther hUsable => ?_⟩
    rw [hKey]
    exact bestKey_notAfter hOther hUsable
  · rintro ⟨hUsable, hLeast⟩
    rcases exists_bestKey hMem hUsable with ⟨d, hOther, hOtherUsable, hKey⟩
    refine ⟨hUsable, (hLeast d hOther hOtherUsable |>.antisymm ?_).trans hKey⟩
    rw [hKey]
    exact bestKey_notAfter hMem hUsable

theorem mem_group : (c, i) ∈ group cands ↔ cands[i]? = some c ∧ Least cands c := by
  rw [group, mem_filter, mk_mem_zipIdx_iff_getElem?]
  exact and_congr_right fun hAt => bestKey_eq_iff (mem_of_getElem? hAt)

theorem group_eq_nil_iff : group cands = [] ↔ ∀ c ∈ cands, c.ip = [] := by
  rw [eq_nil_iff_forall_not_mem]
  constructor
  · intro hNone c hMem
    by_contra hIp
    rcases exists_bestKey hMem (decide_eq_true (length_pos_iff.mpr hIp)) with
      ⟨d, hOther, hUsable, hKey⟩
    rcases mem_iff_getElem?.mp hOther with ⟨i, hAt⟩
    refine hNone (d, i) (mem_group.mpr ⟨hAt, (bestKey_eq_iff hOther).mp ?_⟩)
    rw [hUsable, hKey, beq_self_eq_true, Bool.and_self]
  · rintro hNone ⟨c, i⟩ hMem
    rcases mem_group.mp hMem with ⟨hAt, hUsable, -⟩
    have hPositive : 0 < c.ip.length := of_decide_eq_true hUsable
    exact absurd (hNone c (mem_of_getElem? hAt)) (length_pos_iff.mp hPositive)

/- The sum of the weights of the least candidates. -/
def leastWeight (cands : List (Cand α)) : Nat :=
  ((cands.filter fun c => Least cands c).map fun c => c.weight.toNat).sum

theorem weightSum_group : weightSum (group cands) = leastWeight cands := by
  have hFilter : (group cands).map Prod.fst = cands.filter fun c => Least cands c := by
    let best := fun c : Cand α => c.usable && c.toKey == bestKey cands
    have hFst : (group cands).map Prod.fst = cands.filter best :=
      filter_map.symm.trans (congrArg (filter best) (zipIdx_map_fst 0 cands))
    rw [hFst]
    refine filter_congr fun c hMem => ?_
    rw [Bool.eq_iff_iff, decide_eq_true_iff, bestKey_eq_iff hMem]
  rw [leastWeight, ← hFilter, map_map]
  rfl

---- Drawing By Weight ----

variable {members : List (Cand α × Nat)}

theorem weightSum_cons : weightSum (m :: members) = m.1.weight.toNat + weightSum members := sum_cons

/- The member that is left when all fail is never needed. -/
theorem exists_walk (hLow : run ≤ r) (hLess : r < run + weightSum members) :
    ∃ i ∈ members.map Prod.snd, walk r run members = some i := by
  induction members generalizing run with
  | nil => exact absurd hLess (Nat.not_lt.mpr hLow)
  | cons m members ih =>
    rw [weightSum_cons] at hLess
    unfold walk
    split
    · exact ⟨m.2, mem_cons_self, rfl⟩
    · rcases @ih (run + m.1.weight.toNat) (by omega) (by omega) with ⟨i, hMem, hWalk⟩
      exact ⟨i, mem_cons_of_mem _ hMem, hWalk⟩

theorem exists_walk_mod (random : U32) (hPositive : 0 < weightSum members) :
    ∃ i ∈ members.map Prod.snd, walk (random.toNat % weightSum members) 0 members = some i ∧
      pgwDnsWeightedIndex members random = some i := by
  rcases exists_walk (Nat.zero_le _) (Nat.lt_add_left 0 (Nat.mod_lt random.toNat hPositive)) with
    ⟨i, hMem, hWalk⟩
  refine ⟨i, hMem, hWalk, ?_⟩
  rw [pgwDnsWeightedIndex, if_neg (Nat.ne_of_gt hPositive), hWalk, Option.some_or]

theorem pgwDnsWeightedIndex_mem (hMembers : members ≠ []) :
    ∃ i ∈ members.map Prod.snd, pgwDnsWeightedIndex members random = some i := by
  rcases Nat.eq_zero_or_pos (weightSum members) with hZero | hPositive
  · have hLess := Nat.mod_lt random.toNat (length_pos_iff.mpr hMembers)
    rw [pgwDnsWeightedIndex, if_pos hZero, getElem?_eq_getElem hLess]
    exact ⟨_, mem_map_of_mem (getElem_mem hLess), rfl⟩
  · rcases exists_walk_mod random hPositive with ⟨i, hMem, -, hPick⟩
    exact ⟨i, hMem, hPick⟩

/- A member is drawn as often as its weight says. -/
theorem countP_walk (hWeight : ∀ m ∈ members, m.2 = i → m.1.weight.toNat = w) :
    (range' run (weightSum members)).countP (fun r => walk r run members = some i) =
      (members.map Prod.snd).count i * w := by
  induction members generalizing run with
  | nil => simp [weightSum]
  | cons m members ih =>
    rw [forall_mem_cons] at hWeight
    rw [weightSum_cons, ← range'_append_1, countP_append, map_cons, count_cons, Nat.add_mul,
      Nat.add_comm, ← ih hWeight.2]
    congr 1
    · refine countP_congr fun r hMem => ?_
      rw [mem_range'_1] at hMem
      rw [walk, if_neg (Nat.not_lt.mpr hMem.1)]
    · have hHere : ∀ r ∈ range' run m.1.weight.toNat,
        decide (walk r run (m :: members) = some i) = true ↔ (m.2 == i) = true := by
        intro r hMem
        rw [walk, if_pos (mem_range'_1.mp hMem).2, decide_eq_true_iff, Option.some.injEq,
          beq_iff_eq]
      rw [countP_congr hHere]
      by_cases hIndex : m.2 = i
      · rw [beq_iff_eq.mpr hIndex, countP_true, length_range', if_pos rfl, Nat.one_mul,
          hWeight.1 hIndex]
      · rw [beq_eq_false_iff_ne.mpr hIndex, countP_false, if_neg Bool.false_ne_true, Nat.zero_mul]
        rfl

theorem select_eq (ipRandom : U32) (hMem : pick ∈ (group cands).map Prod.snd)
    (hPick : pgwDnsWeightedIndex (group cands) random = some pick) :
    ∃ c ip, cands[pick]? = some c ∧ ip ∈ c.ip ∧ Least cands c ∧
      pgwDnsSelectFromCands cands random ipRandom = some (pick, ip) := by
  rcases mem_map.mp hMem with ⟨⟨c, _⟩, hMember, rfl⟩
  rcases mem_group.mp hMember with ⟨hAt, hLeast⟩
  have hLess := Nat.mod_lt ipRandom.toNat (of_decide_eq_true hLeast.1)
  refine ⟨c, _, hAt, getElem_mem hLess, hLeast, ?_⟩
  rw [pgwDnsSelectFromCands, hPick, Option.bind_some, hAt, Option.bind_some,
    getElem?_eq_getElem hLess, Option.map_some]

theorem select_cases :
    (group cands = [] ∧ pgwDnsSelectFromCands cands random ipRandom = none) ∨
    ∃ i c ip, cands[i]? = some c ∧ ip ∈ c.ip ∧ Least cands c ∧
      pgwDnsSelectFromCands cands random ipRandom = some (i, ip) := by
  by_cases hNone : group cands = []
  · refine .inl ⟨hNone, ?_⟩
    rw [pgwDnsSelectFromCands, hNone]
    rfl
  · rcases pgwDnsWeightedIndex_mem hNone with ⟨i, hMem, hPick⟩
    exact .inr ⟨i, select_eq ipRandom hMem hPick⟩

/-
  The selection fails only without addresses, an address of a least candidate is returned, and each
  of these is picked for as many residues as its weight.
-/
theorem pgw_selected_by_weight (cands : List (Cand α)) (ipRandom : U32) :
    (∀ random, pgwDnsSelectFromCands cands random ipRandom = none ↔ ∀ c ∈ cands, c.ip = []) ∧
    (∀ random i ip, pgwDnsSelectFromCands cands random ipRandom = some (i, ip) →
      ∃ c, cands[i]? = some c ∧ ip ∈ c.ip ∧ Least cands c) ∧
    (0 < leastWeight cands → ∃ chosen : Nat → Nat,
      (∀ random, (pgwDnsSelectFromCands cands random ipRandom).map Prod.fst =
        some (chosen (random.toNat % leastWeight cands))) ∧
      ∀ i c, cands[i]? = some c → Least cands c →
        (range (leastWeight cands)).countP (chosen · = i) = c.weight.toNat) := by
  refine ⟨fun random => ?_, fun random i ip hSelect => ?_, fun hPositive => ?_⟩
  · rw [← group_eq_nil_iff]
    rcases select_cases with
      ⟨hNone, hSelect⟩ | ⟨i, c, ip, hAt, -, hLeast, hSelect⟩
    · exact iff_of_true hSelect hNone
    · refine iff_of_false (hSelect ▸ Option.some_ne_none _) ?_
      exact ne_nil_of_mem (mem_group.mpr ⟨hAt, hLeast⟩)
  · rcases select_cases with ⟨-, hNone⟩ | ⟨_, c, _, hAt, hIp, hLeast, hSome⟩
    · cases hSelect.symm.trans hNone
    · cases hSelect.symm.trans hSome
      exact ⟨c, hAt, hIp, hLeast⟩
  · rw [← weightSum_group] at hPositive ⊢
    refine ⟨fun r => (walk r 0 (group cands)).getD 0, fun random => ?_, fun i c hAt hLeast => ?_⟩
    · rcases exists_walk_mod random hPositive with ⟨i, hMem, hWalk, hPick⟩
      rcases select_eq ipRandom hMem hPick with ⟨c, ip, -, -, -, hSelect⟩
      simp [hSelect, hWalk]
    · have hMem : (c, i) ∈ group cands := mem_group.mpr ⟨hAt, hLeast⟩
      have hNodup : ((group cands).map Prod.snd).Nodup := by
        refine Nodup.sublist (filter_sublist.map _) ?_
        rw [zipIdx_map_snd]
        exact nodup_range'
      have hWeight : ∀ m ∈ group cands, m.2 = i → m.1.weight.toNat = c.weight.toNat := by
        rintro ⟨d, _⟩ hOther rfl
        cases (mem_group.mp hOther).1.symm.trans hAt
        rfl
      have hCount := @countP_walk α (group cands) i c.weight.toNat 0 hWeight
      rw [count_eq_one_of_mem hNodup (mem_map_of_mem hMem), Nat.one_mul] at hCount
      rw [← hCount, range_eq_range']
      refine countP_congr fun r hRange => ?_
      rcases exists_walk (Nat.zero_le r) (mem_range'_1.mp hRange).2 with ⟨j, -, hWalk⟩
      simp [hWalk]

end Pretty5gs.Mme.PgwSelect
