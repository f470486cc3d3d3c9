import Mathlib.Algebra.Ring.Nat
import Mathlib.Data.List.Lookmap
import Mathlib.Data.List.Nodup
import Pretty5gs.Core.Types

/-
  The targets of lawful interception (`lib/li/target.c`).

  A target is found by its IMSI when it is added and by its LIID when it is removed. A set is a list
  of targets beside the free places of its pool and the next correlation number; the calls on it are
  folded over a run. An argument that is asserted to be there and not empty is a `Text`, and an
  optional one that is empty is `none`.

  Main results: `Sound.step`, `removeByLiid_clears_iff`, `li_targets_unique`.
-/

---- Targets ----

namespace Pretty5gs.Li

open List

/- A string that is not empty, without the NUL that ends it. -/
structure Text where
  octets : List U8
  nonempty : octets ≠ []
  noNul : 0 ∉ octets

/- `ogs_cpystrn` into a buffer of so many octets, one for the NUL. -/
def ogsCpystrn (src : Text) (dstSize : Nat) : List U8 := src.octets.take (dstSize - 1)

/- The sizes of the buffers of a target. -/
def liidSize : Nat := 64 + 1

def imsiSize : Nat := 15 + 1

def msisdnSize : Nat := 24 + 1

structure Target where
  liid : List U8
  imsi : List U8
  msisdn : List U8
  cin : U32
  active : Bool

structure TargetSet where
  list : List Target
  avail : Nat
  nextCin : U32

def ogsLiTargetSetInit (maxTargets : Nat) : TargetSet where
  list := []
  avail := maxTargets
  nextCin := 1

def Target.hasImsi (imsi : Text) (target : Target) : Bool :=
  target.active && target.imsi == imsi.octets

def Target.hasLiid (liid : Text) (target : Target) : Bool := target.liid == liid.octets

def ogsLiTargetFindByImsi (set : TargetSet) (imsi : Text) : Option Target :=
  set.list.find? (Target.hasImsi imsi)

def ogsLiTargetFindByLiid (set : TargetSet) (liid : Text) : Option Target :=
  set.list.find? (Target.hasLiid liid)

def ogsLiTargetAllocCin (set : TargetSet) : U32 × TargetSet :=
  let nextCin := set.nextCin + 1
  (set.nextCin, { set with nextCin := if nextCin = 0 then 1 else nextCin })

/- The target that has the IMSI already, under the new LIID. -/
def Target.renew (liid : Text) (msisdn : Option Text) (target : Target) : Target :=
  { target with
    liid := ogsCpystrn liid liidSize
    msisdn := (msisdn.map (ogsCpystrn · msisdnSize)).getD target.msisdn
    active := true }

def ogsLiTargetAdd (set : TargetSet) (liid imsi : Text) (msisdn : Option Text) : TargetSet :=
  if (ogsLiTargetFindByImsi set imsi).isSome then
    { set with
      list := set.list.lookmap fun target =>
        if target.hasImsi imsi then some (target.renew liid msisdn) else none }
  else if set.avail = 0 then set
  else
    let (cin, counted) := ogsLiTargetAllocCin set
    { counted with
      avail := set.avail - 1
      list := set.list ++
        [{ liid := ogsCpystrn liid liidSize
           imsi := ogsCpystrn imsi imsiSize
           msisdn := (msisdn.map (ogsCpystrn · msisdnSize)).getD []
           cin := cin
           active := true }] }

/- Takes the first target of the kind out, if there is one. -/
def removeFirst (set : TargetSet) (kind : Target → Bool) : Bool × TargetSet :=
  match set.list.find? kind with
  | none => (false, set)
  | some _ => (true, { set with list := set.list.eraseP kind, avail := set.avail + 1 })

def ogsLiTargetRemoveByLiid (set : TargetSet) (liid : Text) : Bool × TargetSet :=
  removeFirst set (Target.hasLiid liid)

def ogsLiTargetRemoveByImsi (set : TargetSet) (imsi : Text) : Bool × TargetSet :=
  removeFirst set (Target.hasImsi imsi)

---- Runs ----

inductive Call where
  | add (liid imsi : Text) (msisdn : Option Text)
  | removeByLiid (liid : Text)
  | removeByImsi (imsi : Text)

def step (set : TargetSet) : Call → TargetSet
  | .add liid imsi msisdn => ogsLiTargetAdd set liid imsi msisdn
  | .removeByLiid liid => (ogsLiTargetRemoveByLiid set liid).2
  | .removeByImsi imsi => (ogsLiTargetRemoveByImsi set imsi).2

/- The set after a run on a new one. -/
def after (maxTargets : Nat) (calls : List Call) : TargetSet :=
  calls.foldl step (ogsLiTargetSetInit maxTargets)

def Call.isAdd : Call → Bool
  | .add .. => true
  | _ => false

/- An IMSI that is added fits in its buffer. -/
def Call.Fits : Call → Prop
  | .add _ imsi _ => imsi.octets.length < imsiSize
  | _ => True

---- The Invariant ----

/- What a call changes together: the key, the number and the flag of each target. -/
def TargetSet.keys (set : TargetSet) : List (List U8 × U32 × Bool) :=
  set.list.map fun target => (target.imsi, target.cin, target.active)

/- So many correlation numbers have been given out. -/
structure Sound (given : Nat) (set : TargetSet) : Prop where
  active : ∀ key ∈ set.keys, key.2.2 = true
  imsis : (set.keys.map fun key => key.1).Nodup
  cins : (set.keys.map fun key => key.2.1).Nodup
  used : ∀ key ∈ set.keys, key.2.1.toNat ≤ given
  next : given + 1 < 2 ^ 32 → set.nextCin.toNat = given + 1

theorem sound_init : Sound 0 (ogsLiTargetSetInit maxTargets) where
  active := forall_mem_nil _
  imsis := nodup_nil
  cins := nodup_nil
  used := forall_mem_nil _
  next := fun _ => rfl

variable {set : TargetSet}

/- Some of the targets of a sound set. -/
theorem Sound.of_sublist (hSound : Sound given set) (hKeys : kept.keys.Sublist set.keys)
    (hNext : kept.nextCin = set.nextCin) : Sound given kept where
  active := fun key hMem => hSound.active key (hKeys.subset hMem)
  imsis := hSound.imsis.sublist (hKeys.map _)
  cins := hSound.cins.sublist (hKeys.map _)
  used := fun key hMem => hSound.used key (hKeys.subset hMem)
  next := fun hBound => hNext ▸ hSound.next hBound

theorem Sound.removeFirst (hSound : Sound given set) : Sound given (removeFirst set kind).2 := by
  unfold Li.removeFirst
  split
  · exact hSound
  · exact hSound.of_sublist (eraseP_sublist.map _) rfl

theorem keys_renew (set : TargetSet) (liid imsi : Text) (msisdn : Option Text) :
    (set.list.lookmap fun target => if target.hasImsi imsi then some (target.renew liid msisdn)
      else none).map (fun target => (target.imsi, target.cin, target.active)) = set.keys := by
  refine lookmap_map_eq _ _ ?_ _
  intro target renewed hRenewed
  split at hRenewed
  · next hImsi =>
    cases hRenewed
    rw [(Bool.and_eq_true_iff.mp hImsi).1]
    rfl
  · cases hRenewed

/- A new target, with the next number. -/
theorem Sound.append (hSound : Sound given set) (hBound : given + 1 < 2 ^ 32)
    (hFresh : imsi ∉ set.keys.map fun key => key.1)
    (hKeys : grown.keys = set.keys ++ [(imsi, set.nextCin, true)])
    (hNext : grown.nextCin = (ogsLiTargetAllocCin set).2.nextCin) : Sound (given + 1) grown := by
  have hCin := hSound.next hBound
  have hUnused : set.nextCin ∉ set.keys.map fun key => key.2.1 := by
    intro hMem
    rcases mem_map.mp hMem with ⟨key, hKey, hSame⟩
    have hUsed := hSound.used key hKey
    rw [hSame] at hUsed
    omega
  constructor
  · rw [hKeys, forall_mem_append, forall_mem_singleton]
    exact ⟨hSound.active, rfl⟩
  · rw [hKeys, ← concat_eq_append, map_concat]
    exact hSound.imsis.concat hFresh
  · rw [hKeys, ← concat_eq_append, map_concat]
    exact hSound.cins.concat hUnused
  · rw [hKeys, forall_mem_append, forall_mem_singleton]
    exact ⟨fun key hMem => Nat.le_succ_of_le (hSound.used key hMem), Nat.le_of_eq hCin⟩
  · intro hRoom
    have hSum : (set.nextCin + 1).toNat = given + 1 + 1 := by
      rw [BitVec.toNat_add, hCin]
      exact Nat.mod_eq_of_lt hRoom
    have hWraps : set.nextCin + 1 ≠ 0 := by
      intro hZero
      rw [hZero] at hSum
      cases hSum
    rw [hNext, ogsLiTargetAllocCin, if_neg hWraps, hSum]

theorem Sound.add (hSound : Sound given set) (hFits : imsi.octets.length < imsiSize)
    (hBound : given + 1 < 2 ^ 32) :
    ∃ given' ≤ given + 1, Sound given' (ogsLiTargetAdd set liid imsi msisdn) := by
  unfold ogsLiTargetAdd
  split
  · exact ⟨given, Nat.le_succ given,
      hSound.of_sublist (keys_renew set liid imsi msisdn ▸ List.Sublist.refl _) rfl⟩
  · next hNone =>
    split
    · exact ⟨given, Nat.le_succ given, hSound⟩
    · have hImsi : ogsCpystrn imsi imsiSize = imsi.octets :=
        take_of_length_le (Nat.le_sub_one_of_lt hFits)
      have hFresh : imsi.octets ∉ set.keys.map fun key => key.1 := by
        intro hMem
        rcases mem_map.mp hMem with ⟨key, hKey, hSame⟩
        rcases mem_map.mp hKey with ⟨target, hTarget, rfl⟩
        have hActive : target.active = true := hSound.active _ hKey
        refine hNone (List.find?_isSome.mpr ⟨target, hTarget, ?_⟩)
        rw [Target.hasImsi, hActive]
        exact beq_iff_eq.mpr hSame
      refine ⟨given + 1, Nat.le_refl _, hSound.append hBound hFresh ?_ rfl⟩
      rw [← hImsi]
      exact map_append

theorem Sound.step (hSound : Sound given set) (hFits : call.Fits)
    (hBound : given + (if call.isAdd then 1 else 0) < 2 ^ 32) :
    ∃ given' ≤ given + (if call.isAdd then 1 else 0), Sound given' (step set call) := by
  cases call with
  | add liid imsi msisdn => exact hSound.add hFits hBound
  | removeByLiid liid => exact ⟨given, Nat.le_refl given, hSound.removeFirst⟩
  | removeByImsi imsi => exact ⟨given, Nat.le_refl given, hSound.removeFirst⟩

theorem Sound.run {calls : List Call} (hSound : Sound given set) (hFits : ∀ call ∈ calls, call.Fits)
    (hBound : given + calls.countP Call.isAdd < 2 ^ 32) :
    ∃ given', Sound given' (calls.foldl Li.step set) := by
  induction calls generalizing given set with
  | nil => exact ⟨given, hSound⟩
  | cons call calls ih =>
    rw [forall_mem_cons] at hFits
    rw [countP_cons] at hBound
    rcases hSound.step hFits.1 (by omega) with ⟨given', hGiven, hNext⟩
    exact ih hNext hFits.2 (by omega)

---- Removal By LIID ----

/- What is removed is the only target of its LIID. -/
theorem removeByLiid_clears_iff (hRemoved : (ogsLiTargetRemoveByLiid set liid).1 = true) :
    ogsLiTargetFindByLiid (ogsLiTargetRemoveByLiid set liid).2 liid = none ↔
      set.list.countP (Target.hasLiid liid) = 1 := by
  unfold ogsLiTargetRemoveByLiid removeFirst at *
  cases hFound : set.list.find? (Target.hasLiid liid) with
  | none =>
    rw [hFound] at hRemoved
    cases hRemoved
  | some _ =>
    rcases exists_of_eraseP (List.mem_of_find?_eq_some hFound) (List.find?_some hFound) with
      ⟨target, front, back, -, hLiid, hList, hErased⟩
    rw [ogsLiTargetFindByLiid, List.find?_eq_none, ← countP_eq_zero, hErased,
      hList, countP_append, countP_append, countP_cons, if_pos hLiid]
    omega

/-
  Targets stay unique as long as every IMSI fits in its buffer, and a removal by LIID leaves no
  target of that LIID iff there was only one.
-/
theorem li_targets_unique (hFits : ∀ call ∈ calls, call.Fits)
    (hCount : calls.countP Call.isAdd < 2 ^ 32) :
    (((after maxTargets calls).list.filter Target.active).map Target.imsi).Nodup ∧
    ((after maxTargets calls).list.map Target.cin).Nodup ∧
    ∀ liid, (ogsLiTargetRemoveByLiid (after maxTargets calls) liid).1 = true →
      (ogsLiTargetFindByLiid (ogsLiTargetRemoveByLiid (after maxTargets calls) liid).2 liid = none ↔
        (after maxTargets calls).list.countP (Target.hasLiid liid) = 1) := by
  rcases sound_init.run hFits (by rwa [Nat.zero_add]) with ⟨given, hSound⟩
  have hImsis := hSound.imsis
  have hCins := hSound.cins
  rw [TargetSet.keys, map_map] at hImsis hCins
  exact ⟨hImsis.sublist (filter_sublist.map _), hCins, fun liid => removeByLiid_clears_iff⟩

/- A text of one octet. -/
def letter (octet : U8) (hOctet : 0 ≠ octet) : Text where
  octets := [octet]
  nonempty := cons_ne_nil _ _
  noNul := not_mem_cons_of_ne_of_not_mem hOctet not_mem_nil

def sharedLiid : List Call :=
  [.add (letter 76 (by decide)) (letter 49 (by decide)) none,
    .add (letter 76 (by decide)) (letter 50 (by decide)) none]

theorem li_targets_unique_shared_liid :
    (((after 4 sharedLiid).list.filter Target.active).map Target.imsi).Nodup :=
  (li_targets_unique (by simp [sharedLiid, Call.Fits, letter, imsiSize]) (by decide)).1

/- One LIID for two IMSIs: the second target is still found. -/
theorem shared_liid_is_found :
    ¬ ∀ liid, (ogsLiTargetRemoveByLiid (after 4 sharedLiid) liid).1 = true →
      ogsLiTargetFindByLiid (ogsLiTargetRemoveByLiid (after 4 sharedLiid) liid).2 liid = none := by
  intro hNone
  have hFound := hNone (letter 76 (by decide)) rfl
  cases hFound

end Pretty5gs.Li
