import Mathlib.Data.List.Count
import Pretty5gs.Tlv.Format

/-
  Where the parser puts an element: the descriptor that it finds by name and count, and the place in
  its group.

  Main results: `tlvFindDescByTypeInst_slot`, `countP_named_eq_matched`, `placeOf_single` and
  `placeOf_group`.
-/

---- Finding A Descriptor ----

namespace Pretty5gs.Tlv

open Function

/- The descriptor has this type and instance. -/
def named (key : Nat × Nat) (desc : Desc) : Bool := desc.type = key.1 ∧ desc.inst = key.2

variable {desc : Desc} {key : Nat × Nat}

theorem not_hit {pos matchI : Nat} (hPass : named key desc → matchI ≠ pos) :
    ¬ (desc.type = key.1 ∧ desc.inst = key.2 ∧ matchI = pos) := by
  rintro ⟨hType, hInst, hPos⟩
  apply hPass _ hPos
  simp [named, hType, hInst]

theorem count_named : (if desc.type = key.1 ∧ desc.inst = key.2
        then matchI + 1 else matchI) =
      matchI + if named key desc then 1 else 0 := by
  by_cases hNamed : desc.type = key.1 ∧ desc.inst = key.2
  · simp [named, hNamed]
  · simp only [named, hNamed, decide_false, Bool.false_eq_true, if_false, Nat.add_zero]

variable {index offset matchI : Nat} {rest : List Desc}

/- One descriptor that is passed over. -/
theorem findDescFrom_pass (hPass : named key desc → matchI ≠ pos)
    (hPlain : desc.ctype ≠ .tlvMore) : findDescFrom key.1 key.2 pos (desc :: rest) prev index
        offset matchI = findDescFrom key.1 key.2 pos rest (some desc)
        (index + 1) (offset + desc.vsize) (matchI + if named key desc then 1 else 0) := by
  rw [findDescFrom]
  simp only [if_neg (not_hit hPass), count_named, if_neg hPlain]

/- A repetition mark that is passed over. -/
theorem findDescFrom_mark (hPass : named key (ogsTlvDescMore length) → matchI ≠ pos)
    (hPlain : desc.ctype ≠ .tlvMore) : findDescFrom key.1 key.2 pos
        (ogsTlvDescMore length :: rest) (some desc) index (offset + desc.vsize) matchI =
      findDescFrom key.1 key.2 pos rest (some (ogsTlvDescMore length)) (index + 1)
        (offset + desc.vsize * length) (matchI +
          if named key (ogsTlvDescMore length) then 1
          else 0) := by
  have hOffset : offset + desc.vsize + desc.vsize * (ogsTlvDescMore length).length - desc.vsize =
    offset + desc.vsize * length := by
    change offset + desc.vsize + desc.vsize * length - _ = _
    omega
  have hMark : (ogsTlvDescMore length).ctype = .tlvMore := rfl
  rw [findDescFrom]
  simp only [if_neg (not_hit hPass), count_named, if_pos hMark, if_neg hPlain, hOffset]

/-
  Behind the slots that hold the earlier descriptors of a name, the walk stops at the next one, at
  the offset where the slots end.
-/
theorem findDescFrom_slots {pos : Nat} {pre : List Slot} {prev : Option Desc}
    (hPlain : ∀ s ∈ pre, s.desc.ctype ≠ .tlvMore) (hNamed : named key desc)
    (hPos : matchI + (pre.flatMap Slot.descs).countP (named key) = pos) :
    findDescFrom key.1 key.2 pos (pre.flatMap Slot.descs ++ desc :: rest) prev index offset matchI =
      .ok (some ⟨desc, index + (pre.flatMap Slot.descs).length, offset + levelSize pre⟩) := by
  induction pre generalizing prev index offset matchI with
  | nil =>
    simp only [List.flatMap_nil, List.countP_nil] at hPos
    have hHit : desc.type = key.1 ∧ desc.inst = key.2 ∧ matchI = pos := by
      simp only [named, decide_eq_true_eq] at hNamed
      exact ⟨hNamed.1, hNamed.2, by omega⟩
    simp only [List.flatMap_nil, List.nil_append, findDescFrom, if_pos hHit]
    simp [levelSize]
  | cons s pre ih =>
    have hPlainHead := hPlain s List.mem_cons_self
    have hPlainTail : ∀ s' ∈ pre, s'.desc.ctype ≠ .tlvMore :=
      fun s' hMem => hPlain s' (List.mem_cons_of_mem _ hMem)
    rw [List.flatMap_cons, List.countP_append] at hPos
    cases hMore : s.more with
    | none =>
      have hDescs : s.descs = [s.desc] := by rw [Slot.descs, hMore]
      have hSize : s.size = s.desc.vsize := by
        rw [Slot.size, Slot.room, hMore]
        exact Nat.mul_one _
      rw [hDescs, List.countP_singleton] at hPos
      rw [List.flatMap_cons, hDescs, levelSize_cons, hSize, List.singleton_append, List.cons_append]
      rw [findDescFrom_pass ?_ hPlainHead, ih hPlainTail (by omega)]
      · simp only [List.length_cons]
        rw [Nat.add_assoc, Nat.add_assoc, Nat.add_comm 1]
      · intro hName
        rw [if_pos hName] at hPos
        omega
    | some length =>
      have hDescs : s.descs = [s.desc, ogsTlvDescMore length] := by rw [Slot.descs, hMore]
      have hSize : s.size = s.desc.vsize * length := by
        rw [Slot.size, Slot.room, hMore]
        rfl
      rw [hDescs, List.countP_cons, List.countP_singleton] at hPos
      rw [List.flatMap_cons, hDescs, levelSize_cons, hSize,
        List.cons_append, List.singleton_append, List.cons_append, List.cons_append]
      rw [findDescFrom_pass ?_ hPlainHead, findDescFrom_mark ?_ hPlainHead,
        ih hPlainTail (by omega)]
      · simp only [List.length_cons]
        rw [Nat.add_assoc, Nat.add_assoc, Nat.add_assoc]
        congr 4
        omega
      · intro hName
        rw [if_pos hName] at hPos
        omega
      · intro hName
        rw [if_pos hName] at hPos
        omega

variable {descs : List Desc} {pre suf : List Slot} {s : Slot}

/- A slot of a level is found by its name and rank. -/
theorem tlvFindDescByTypeInst_slot (hDescs : descs = (pre ++ s :: suf).flatMap Slot.descs)
    (hPlain : ∀ s ∈ pre, s.desc.ctype ≠ .tlvMore) :
    tlvFindDescByTypeInst descs s.desc.type s.desc.inst
        ((pre.flatMap Slot.descs).countP (named s.key)) = .ok (some
        ⟨s.desc, (pre.flatMap Slot.descs).length, levelSize pre⟩) := by
  have hSplit : ∃ rest, descs = pre.flatMap Slot.descs ++ s.desc :: rest := by
    rw [hDescs, List.flatMap_append, List.flatMap_cons, Slot.descs]
    cases s.more with
    | none => exact ⟨_, rfl⟩
    | some length => exact ⟨_, rfl⟩
  rcases hSplit with ⟨rest, hSplit⟩
  have hNamed : named s.key s.desc := by simp [named, Slot.key]
  have hFind : findDescFrom s.key.1 s.key.2 ((pre.flatMap Slot.descs).countP (named s.key))
    (pre.flatMap Slot.descs ++ s.desc :: rest) none 0 0 0 = _ :=
    findDescFrom_slots hPlain hNamed (Nat.zero_add _)
  simp only [Nat.zero_add] at hFind
  rw [tlvFindDescByTypeInst, hSplit]
  exact hFind

---- Counting Matches ----

/- The elements of a name that single slots have taken. -/
def matched (msg : Msg) (ss : List Slot) (base : Nat) (key : Nat × Nat) : Nat :=
  (placed ss base).countP (fun p => p.1.more.isNone && present msg p.2 && p.1.key == key)

variable {msg : Msg}

/-
  When no earlier slot catches the elements of a slot, the earlier descriptors of its name are as
  many as the elements that have been taken.
-/
theorem countP_named_eq_matched (hShown : q.1.shown msg q.2 ≠ [])
    (hPre : ∀ p ∈ placed pre base, Distinguished msg p q) :
    (pre.flatMap Slot.descs).countP (named q.1.key) = matched msg pre base q.1.key := by
  induction pre generalizing base with
  | nil => rfl
  | cons s pre ih =>
    rcases hPre (s, base) List.mem_cons_self hShown with ⟨hName, hMark⟩
    have hNamed : named q.1.key s.desc = (s.key == q.1.key) := by
      rw [Bool.eq_iff_iff, named, decide_eq_true_iff, beq_iff_eq, Prod.ext_iff]
      rfl
    have hHead : s.descs.countP (named q.1.key) =
      if (s.more.isNone && present msg base && s.key == q.1.key) then 1 else 0 := by
      by_cases hKey : s.key = q.1.key
      · rcases hName hKey with ⟨hSingle, hPresent⟩
        rw [Slot.descs, hSingle, List.countP_singleton, hNamed, hPresent]
        simp
      · have hOther : (s.key == q.1.key) = false := beq_eq_false_iff_ne.mpr hKey
        rw [hOther] at hNamed
        cases hMore : s.more with
        | none => simp [Slot.descs, hMore, hNamed, hOther]
        | some length =>
          have hZero : q.1.key ≠ (0, 0) := hMark (by
            rw [hMore]
            rfl)
          have hPlainMark : named q.1.key (ogsTlvDescMore length) = false := by
            rw [named, decide_eq_false_iff_not]
            rintro ⟨hType, hInst⟩
            exact hZero (Prod.ext hType.symm hInst.symm)
          simp [Slot.descs, hMore, hNamed, hPlainMark]
    rw [List.flatMap_cons, List.countP_append, hHead, ih (fun p hMem =>
      hPre p (List.mem_cons_of_mem _ hMem)),
      matched, matched, placed, List.countP_cons]
    exact Nat.add_comm _ _

theorem matched_append :
    matched msg (pre ++ [s]) base key = matched msg pre base key +
        if (s.more.isNone && present msg (base + levelSize pre) && s.key == key) then 1 else 0 := by
  simp only [matched, placed_append, List.countP_append, placed, List.countP_singleton]

/- A slot that takes no element, or is not counted. -/
theorem matched_append_skip (hSkip : s.more = none → present msg (base + levelSize pre) = false) :
    matched msg (pre ++ [s]) base = matched msg pre base := by
  funext key
  rw [matched_append]
  cases hMore : s.more with
  | none => rw [hSkip hMore]; rfl
  | some => rfl

/- The count nodes of a level after some of its elements. -/
structure Counted (ss : List Slot) (taken : Nat × Nat → Nat) (counts : Counts) : Prop where
  nodup : counts.keys.Nodup
  subset : counts.keys ⊆ ss.map Slot.key
  count : counts.count = taken
  fresh : ∀ key, key ∉ counts.keys → taken key = 0

theorem counted_empty : Counted ss (fun _ => 0) Counts.empty where
  nodup := List.nodup_nil
  subset := List.nil_subset _
  count := rfl
  fresh := fun _ _ => rfl

/- There is a count node for every slot of a level. -/
theorem Counted.find (hCounted : Counted ss taken counts) (hShort : ss.length < ogsTlvMaxChildDesc)
    (hKey : key ∈ ss.map Slot.key) :
    ∃ counts', tlvCountNodeFind counts key = some counts' ∧
      Counted ss taken counts' ∧ key ∈ counts'.keys := by
  by_cases hOld : key ∈ counts.keys
  · exact ⟨counts, if_pos hOld, hCounted, hOld⟩
  · -- The nodes in use have distinct names of the level.
    have hLength : counts.keys.length ≤ (ss.map Slot.key).length :=
      (List.subperm_of_subset hCounted.nodup hCounted.subset).length_le
    rw [List.length_map] at hLength
    have hRoom : ¬ counts.keys.length = ogsTlvMaxChildDesc := by omega
    refine ⟨{ keys := key :: counts.keys
              count := Function.update counts.count key 0 }, ?_, ?_, List.mem_cons_self⟩
    · rw [tlvCountNodeFind, if_neg hOld, if_neg hRoom]
    · refine ⟨?_, ?_, ?_, ?_⟩
      · exact List.nodup_cons.mpr ⟨hOld, hCounted.nodup⟩
      · intro key' hMem
        rcases List.mem_cons.mp hMem with rfl | hMem
        · exact hKey
        · exact hCounted.subset hMem
      · rw [hCounted.count, update_eq_self_iff]
        exact (hCounted.fresh key hOld).symm
      · intro key' hMem
        exact hCounted.fresh key' (fun hOld' => hMem (List.mem_cons_of_mem _ hOld'))

/- A single slot took its element. -/
theorem Counted.incr (hCounted : Counted ss taken counts) (hKey : key ∈ counts.keys) (hTaken :
      ∀ key', taken' key' = taken key' + if key == key' then 1 else 0) :
    Counted ss taken' (counts.incr key) where
  nodup := hCounted.nodup
  subset := hCounted.subset
  count := by
    funext key'
    rw [Counts.incr, hCounted.count, hTaken]
    by_cases hEq : key' = key
    · subst hEq
      simp
    · have hNe : (key == key') = false := beq_eq_false_iff_ne.mpr (Ne.symm hEq)
      simp [update_of_ne hEq, hNe]
  fresh := by
    intro key' hMem
    have hNe : (key == key') = false := by
      apply beq_eq_false_iff_ne.mpr
      rintro rfl
      exact hMem hKey
    rw [hTaken, hNe, hCounted.fresh key' hMem]
    rfl

---- Places ----

/- The descriptor behind that of a slot. -/
theorem getElem?_behind_slot (hDescs :
      descs = (pre ++ s :: suf).flatMap Slot.descs) : descs[(pre.flatMap Slot.descs).length + 1]? =
      match s.more with
      | some length => some (ogsTlvDescMore length)
      | none => (suf.flatMap Slot.descs)[0]? := by
  rw [hDescs, List.flatMap_append, List.flatMap_cons, List.getElem?_append_right (by omega),
    Nat.add_sub_cancel_left, Slot.descs]
  cases s.more with
  | none => rfl
  | some length => rfl

/- A single slot is its own place. -/
theorem placeOf_single (msg base) (hDescs : descs = (pre ++ s :: suf).flatMap Slot.descs)
    (hPlain : ∀ s ∈ suf, s.desc.ctype ≠ .tlvMore) (hSingle : s.more = none) :
    placeOf msg base descs ⟨s.desc, (pre.flatMap Slot.descs).length, levelSize pre⟩ =
      (false, some (base + levelSize pre)) := by
  have hNext := getElem?_behind_slot hDescs
  rw [hSingle] at hNext
  simp only [placeOf, hNext]
  cases suf with
  | nil => rfl
  | cons next suf =>
    have hHead : ((next :: suf).flatMap Slot.descs)[0]? = some next.desc := by
      rw [List.flatMap_cons, Slot.descs]
      cases next.more <;> rfl
    simp only [hHead, if_neg (hPlain next List.mem_cons_self)]

/- A group places an element at its first absent one. -/
theorem placeOf_group (msg base) (hDescs : descs = (pre ++ s :: suf).flatMap Slot.descs)
    (hGroup : s.more = some length) :
    placeOf msg base descs ⟨s.desc, (pre.flatMap Slot.descs).length, levelSize pre⟩ = (true,
        firstFree msg s.desc.vsize length (base + levelSize pre)) := by
  have hNext := getElem?_behind_slot hDescs
  rw [hGroup] at hNext
  simp only [placeOf, hNext]
  exact if_pos rfl

theorem firstFree_places {done rest : List Nat}
    (hPlaces : places vsize room addr = done ++ a :: rest) (hDone : ∀ d ∈ done, present msg d)
    (hFree : (msg a).presence = 0) : firstFree msg vsize room addr = some a := by
  induction done generalizing room addr with
  | nil =>
    cases room with
    | zero => cases hPlaces
    | succ room =>
      cases hPlaces
      rw [firstFree, if_pos hFree]
  | cons d done ih =>
    cases room with
    | zero => cases hPlaces
    | succ room =>
      rw [places, List.cons_append, List.cons.injEq] at hPlaces
      rcases hPlaces with ⟨rfl, hPlaces⟩
      have hTaken : ¬ (msg addr).presence = 0 := by
        have hPresent := hDone addr List.mem_cons_self
        simpa [present] using hPresent
      rw [firstFree, if_neg hTaken]
      exact ih hPlaces (fun d hMem => hDone d (List.mem_cons_of_mem _ hMem))

end Pretty5gs.Tlv
