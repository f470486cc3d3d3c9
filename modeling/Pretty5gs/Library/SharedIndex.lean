import Mathlib.Data.List.Basic
import Mathlib.Logic.Function.Basic

/-
  An index for entries that may share keys.

  The index has one slot for each key. The last entry that is registered with a key fills its slot
  with an object that leads to the entry, and an entry that is registered again or removed clears
  the slot of its former key.

  Main results: `SharedIndex.Sound.register` and `SharedIndex.Complete.register`,
  `SharedIndex.Sound.unregister` and `SharedIndex.Complete.unregister`, `SharedIndex.Sound.leave`.
-/

---- Index Operations ----

namespace SharedIndex

open List Function

variable {κ ω ρ : Type} [DecidableEq κ]

variable (index : κ → Option ω)

/- Fill the slot of a key. -/
def put (k : κ) (object : ω) : κ → Option ω := Function.update index k (some object)

/- Clear the slot of the key of an entry that has one. -/
def release : Option κ → κ → Option ω
  | none => index
  | some k => Function.update index k none

theorem put_self : put index k object k = some object := by rw [put, update_self]

theorem put_ne (hNe : other ≠ k) : put index k object other = index other := by
  rw [put, update_of_ne hNe]

theorem release_ne (hNe : key ≠ some k) : release index key k = index k := by
  cases key with
  | none => rfl
  | some other =>
    have hOther : k ≠ other := by
      intro hSame
      exact hNe (congrArg some hSame.symm)
    rw [release, update_of_ne hOther]

theorem release_eq_some {index : κ → Option ω} (hSlot : release index key k = some object) :
    key ≠ some k ∧ index k = some object := by
  have hNe : key ≠ some k := by
    intro hKey
    rw [hKey, release, update_self] at hSlot
    cases hSlot
  rw [release_ne index hNe] at hSlot
  exact ⟨hNe, hSlot⟩

---- What Is Found ----

/- The object in a slot leads to an entry with its key. -/
def Sound (key : ρ → Option κ) (Leads : ω → ρ → Prop) (index : κ → Option ω)
    (entries : List ρ) : Prop := ∀ k object, index k = some object →
    ∃ entry ∈ entries, key entry = some k ∧ Leads object entry

/- The slot of a key that an entry has is filled. -/
def Complete (key : ρ → Option κ) (index : κ → Option ω) (entries : List ρ) : Prop :=
  ∀ entry ∈ entries, ∀ k, key entry = some k → index k ≠ none

section Found

variable {key : ρ → Option κ} {Leads : ω → ρ → Prop} {index : κ → Option ω} {entries : List ρ}
variable {place : Nat} {entry changed : ρ}

omit [DecidableEq κ] in
theorem Sound.concat (hSound : Sound key Leads index entries) :
    Sound key Leads index (entries ++ [entry]) := by
  intro k object hSlot
  rcases hSound k object hSlot with ⟨found, hMem, hFound⟩
  exact ⟨found, mem_append_left _ hMem, hFound⟩

omit [DecidableEq κ] in
theorem Complete.concat (hComplete : Complete key index entries) (hKey : key entry = none) :
    Complete key index (entries ++ [entry]) := by
  intro other hMem k hOther
  rcases mem_append.mp hMem with hMem | hMem
  · exact hComplete other hMem k hOther
  · rw [mem_singleton.mp hMem, hKey] at hOther
    cases hOther

/- An entry changes in what is not about the index. -/
omit [DecidableEq κ] in
theorem Sound.set (hSound : Sound key Leads index entries) (hAt : entries[place]? = some entry)
    (hKey : key changed = key entry)
    (hLeads : ∀ object, Leads object entry → Leads object changed) :
    Sound key Leads index (entries.set place changed) := by
  intro k object hSlot
  rcases hSound k object hSlot with ⟨found, hMem, hFound, hLead⟩
  rcases List.getElem?_of_mem hMem with ⟨i, hI⟩
  by_cases hSame : place = i
  · rw [← hSame, hAt] at hI
    cases hI
    have hLess := (List.getElem?_eq_some_iff.mp hAt).1
    exact ⟨changed, mem_set hLess _, hKey.trans hFound, hLeads object hLead⟩
  · refine ⟨found, ?_, hFound, hLead⟩
    rw [← List.getElem?_set_ne hSame] at hI
    exact mem_of_getElem? hI

omit [DecidableEq κ] in
theorem Complete.set (hComplete : Complete key index entries) (hAt : entries[place]? = some entry)
    (hKey : key changed = key entry) : Complete key index (entries.set place changed) := by
  intro other hMem k hOther
  rcases mem_or_eq_of_mem_set hMem with hMem | rfl
  · exact hComplete other hMem k hOther
  · exact hComplete entry (mem_of_getElem? hAt) k (hKey.symm.trans hOther)

/- An entry gets a key. -/
theorem Sound.register (hSound : Sound key Leads index entries) (hAt : entries[place]? = some entry)
    (hKey : key changed = some k) (hLeads : Leads object changed) :
    Sound key Leads (put (release index (key entry)) k object) (entries.set place changed) := by
  intro slot found hSlot
  by_cases hSame : slot = k
  · rw [hSame, put_self] at hSlot
    cases hSlot
    have hLess := (List.getElem?_eq_some_iff.mp hAt).1
    exact ⟨changed, mem_set hLess _, hSame ▸ hKey, hLeads⟩
  · rw [put_ne _ hSame] at hSlot
    rcases release_eq_some hSlot with ⟨hFormer, hIndex⟩
    rcases hSound slot found hIndex with ⟨other, hMem, hOther, hLead⟩
    rcases List.getElem?_of_mem hMem with ⟨i, hI⟩
    have hPlace : place ≠ i := by
      rintro rfl
      rw [hAt] at hI
      cases hI
      exact hFormer hOther
    refine ⟨other, ?_, hOther, hLead⟩
    rw [← List.getElem?_set_ne hPlace] at hI
    exact mem_of_getElem? hI

/- No other entry may be left with the former key. -/
theorem Complete.register (hComplete : Complete key index entries) (hKey : key changed = some k)
    (hOthers : ∀ other ∈ entries.eraseIdx place, key other = key entry →
      key other = none ∨ key other = some k) :
    Complete key (put (release index (key entry)) k object) (entries.set place changed) := by
  intro other hMem slot hOther
  by_cases hSame : slot = k
  · rw [hSame, put_self]
    exact Option.some_ne_none object
  · rw [put_ne _ hSame]
    rcases List.getElem?_of_mem hMem with ⟨i, hI⟩
    by_cases hPlace : place = i
    · rw [← hPlace] at hI
      have hLess : place < entries.length := by
        have hSet := (List.getElem?_eq_some_iff.mp hI).1
        rwa [length_set] at hSet
      rw [List.getElem?_set_self hLess] at hI
      cases hI
      rw [hKey] at hOther
      exact absurd (Option.some.inj hOther).symm hSame
    · rw [List.getElem?_set_ne hPlace] at hI
      have hStays : other ∈ entries.eraseIdx place := mem_eraseIdx_iff_getElem?.mpr
        ⟨i, Ne.symm hPlace, hI⟩
      have hFormer : key entry ≠ some slot := by
        intro hShared
        rcases hOthers other hStays (hOther.trans hShared.symm) with hNone | hAgain
        · rw [hNone] at hOther
          cases hOther
        · rw [hOther] at hAgain
          exact hSame (Option.some.inj hAgain)
      rw [release_ne index hFormer]
      exact hComplete other (mem_of_getElem? hI) slot hOther

/- An entry is removed with its slot. -/
theorem Sound.unregister (hSound : Sound key Leads index entries)
    (hAt : entries[place]? = some entry) :
    Sound key Leads (release index (key entry)) (entries.eraseIdx place) := by
  intro slot object hSlot
  rcases release_eq_some hSlot with ⟨hFormer, hIndex⟩
  rcases hSound slot object hIndex with ⟨other, hMem, hOther, hLead⟩
  rcases List.getElem?_of_mem hMem with ⟨i, hI⟩
  have hPlace : i ≠ place := by
    rintro rfl
    rw [hAt] at hI
    cases hI
    exact hFormer hOther
  exact ⟨other, mem_eraseIdx_iff_getElem?.mpr ⟨i, hPlace, hI⟩, hOther, hLead⟩

theorem Complete.unregister (hComplete : Complete key index entries)
    (hOthers : ∀ other ∈ entries.eraseIdx place, key other = key entry → key other = none) :
    Complete key (release index (key entry)) (entries.eraseIdx place) := by
  intro other hMem slot hOther
  have hFormer : key entry ≠ some slot := by
    intro hShared
    rw [hOthers other hMem (hOther.trans hShared.symm)] at hOther
    cases hOther
  rw [release_ne index hFormer]
  exact hComplete other (mem_of_mem_eraseIdx hMem) slot hOther

/- An entry is removed while the slot leads to another one. -/
omit [DecidableEq κ] in
theorem Sound.leave (hSound : Sound key Leads index entries) (hAt : entries[place]? = some entry)
    (hStays : ∀ k object, key entry = some k → index k = some object →
      ∃ other ∈ entries.eraseIdx place, key other = some k ∧ Leads object other) :
    Sound key Leads index (entries.eraseIdx place) := by
  intro slot object hSlot
  rcases hSound slot object hSlot with ⟨other, hMem, hOther, hLead⟩
  rcases List.getElem?_of_mem hMem with ⟨i, hI⟩
  by_cases hPlace : i = place
  · rw [hPlace, hAt] at hI
    cases hI
    exact hStays slot object hOther hSlot
  · exact ⟨other, mem_eraseIdx_iff_getElem?.mpr ⟨i, hPlace, hI⟩, hOther, hLead⟩

omit [DecidableEq κ] in
theorem Complete.leave (hComplete : Complete key index entries) :
    Complete key index (entries.eraseIdx place) := by
  intro other hMem slot hOther
  exact hComplete other (mem_of_mem_eraseIdx hMem) slot hOther

end Found

end SharedIndex
