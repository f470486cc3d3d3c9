import Mathlib.Data.List.Basic
import Pretty5gs.Core.Types

/-
  The order of a session's PDRs (`lib/pfcp/context.c`, `lib/pfcp/handler.c`), and the scan for the
  PDR of a downlink packet (`src/upf/gtp-path.c`).

  A new PDR is put at the end of the list with precedence 0. Only a Precedence IE moves it.

  Main results: `create_ordered`, `select_eligible`, `pdrs_stay_ordered`.
-/

---- The List ----

namespace Pretty5gs.Pfcp.PdrOrder

open List

/- What the scan reads of a PDR beside its precedence. -/
structure Fields (ρ : Type) where
  srcIf : U8
  far : Option U32
  rules : List ρ
deriving DecidableEq

structure Pdr (ρ : Type) extends Fields ρ where
  id : U16
  precedence : U32
deriving DecidableEq

variable {ρ : Type}

/- `ogs_list_insert_sorted` with `precedence_compare` -/
def insertSorted (pdr : Pdr ρ) : List (Pdr ρ) → List (Pdr ρ)
  | [] => [pdr]
  | other :: rest =>
    if pdr.precedence < other.precedence then pdr :: other :: rest
    else other :: insertSorted pdr rest

def known (pdrs : List (Pdr ρ)) (id : U16) : Bool := pdrs.any fun pdr => pdr.id == id

/- `ogs_pfcp_pdr_find_or_add`; a PDR that is added is all zero. -/
def findOrAdd (pdrs : List (Pdr ρ)) (id : U16) : List (Pdr ρ) :=
  if known pdrs id then pdrs else pdrs ++ [⟨⟨255, none, []⟩, id, 0⟩]

def reorderByPrecedence (pdrs : List (Pdr ρ)) (id : U16) (precedence : U32) : List (Pdr ρ) :=
  match pdrs.find? fun pdr => pdr.id == id with
  | none => pdrs
  | some pdr => insertSorted { pdr with precedence := precedence } (pdrs.eraseP fun pdr => pdr.id == id)

def setFields (pdrs : List (Pdr ρ)) (id : U16) (fields : Fields ρ) : List (Pdr ρ) :=
  pdrs.map fun pdr => if pdr.id = id then { pdr with toFields := fields } else pdr

/-
  The IEs that reach a PDR, with its fields as the handler leaves them. An IE that is rejected
  before that changes nothing.
-/
inductive Ie (ρ : Type) where
  | create (id : U16) (precedence : Option U32) (fields : Fields ρ)
  | update (id : U16) (fields : Fields ρ)
  | remove (id : U16)

def handle (pdrs : List (Pdr ρ)) : Ie ρ → List (Pdr ρ)
  | .create id precedence fields =>
    let added := findOrAdd pdrs id
    setFields (precedence.elim added (reorderByPrecedence added id)) id fields
  | .update id fields => setFields pdrs id fields
  | .remove id => pdrs.eraseP fun pdr => pdr.id == id

def run (ies : List (Ie ρ)) : List (Pdr ρ) := ies.foldl handle []

---- The Scan ----

structure Far where
  dstIf : U8
  -- the flags ip4, ip6, udp4, udp6, gtpu4 and gtpu6
  outerHeaderCreation : BitVec 6

/- `OGS_PFCP_INTERFACE_ACCESS` and `OGS_PFCP_INTERFACE_CORE` -/
def interfaceAccess : U8 := 0

def interfaceCore : U8 := 1

/- The tests on a downlink PDR with its FAR, for a packet that fits some rules. -/
def passes (fits : ρ → Bool) (pdr : Pdr ρ) (far : Far) : Bool :=
  far.dstIf = interfaceAccess ∧ far.outerHeaderCreation ≠ 0 ∧ (pdr.rules.isEmpty || pdr.rules.any fits)

/- The PDR for the packet or else the last downlink PDR; a fault without a FAR. -/
def select (fars : U32 → Far) (fits : ρ → Bool) (fallback : Option (Pdr ρ)) :
    List (Pdr ρ) → Except Fault (Option (Pdr ρ))
  | [] => .ok fallback
  | pdr :: rest =>
    match pdr.far with
    | none => .error .assertion
    | some far =>
      if pdr.srcIf ≠ interfaceCore then select fars fits fallback rest
      else if passes fits pdr (fars far) then .ok (some pdr)
      else select fars fits (some pdr) rest

---- Order ----

def Ordered (pdrs : List (Pdr ρ)) : Prop :=
  pdrs.Pairwise fun pdr other => pdr.precedence ≤ other.precedence

variable {pdrs : List (Pdr ρ)} {id : U16}

theorem mem_insertSorted {pdr other : Pdr ρ} :
    other ∈ insertSorted pdr pdrs ↔ other = pdr ∨ other ∈ pdrs := by
  induction pdrs with
  | nil => simp [insertSorted]
  | cons first pdrs ih =>
    unfold insertSorted
    split
    · exact mem_cons
    · rw [mem_cons, mem_cons, ih, or_left_comm]

theorem Ordered.insertSorted {pdr : Pdr ρ} (hOrdered : Ordered pdrs) :
    Ordered (insertSorted pdr pdrs) := by
  induction pdrs with
  | nil => exact pairwise_singleton _ _
  | cons first pdrs ih =>
    have hFirst := pairwise_cons.mp hOrdered
    unfold PdrOrder.insertSorted
    split
    · next hLess =>
      refine pairwise_cons.mpr ⟨forall_mem_cons.mpr ⟨BitVec.le_of_lt hLess, ?_⟩, hOrdered⟩
      exact fun other hMem => BitVec.le_trans (BitVec.le_of_lt hLess) (hFirst.1 other hMem)
    · next hNot =>
      refine pairwise_cons.mpr ⟨fun other hMem => ?_, ih hFirst.2⟩
      rcases mem_insertSorted.mp hMem with rfl | hMem
      · exact BitVec.not_lt.mp hNot
      · exact hFirst.1 other hMem

theorem Ordered.setFields (hOrdered : Ordered pdrs) : Ordered (setFields pdrs id fields) := by
  refine pairwise_map.mpr (hOrdered.imp fun hLe => ?_)
  split <;> split <;> exact hLe

theorem eraseP_findOrAdd : ((findOrAdd pdrs id).eraseP fun pdr => pdr.id == id).Sublist pdrs := by
  unfold findOrAdd
  split
  · exact eraseP_sublist
  · next hNew =>
    rw [known, any_eq_true, not_exists] at hNew
    rw [eraseP_append_right _ fun pdr hMem hId => hNew pdr ⟨hMem, hId⟩]
    simp

/- A PDR that is new has to have its precedence. -/
def Ie.Placed (pdrs : List (Pdr ρ)) : Ie ρ → Prop
  | .create id precedence _ => precedence = none → known pdrs id = true
  | _ => True

theorem Ordered.handle (hOrdered : Ordered pdrs) (hPlaced : ie.Placed pdrs) :
    Ordered (handle pdrs ie) := by
  cases ie with
  | update id fields => exact hOrdered.setFields
  | remove id => exact hOrdered.sublist eraseP_sublist
  | create id precedence fields =>
    refine Ordered.setFields ?_
    cases precedence with
    | none =>
      rw [findOrAdd, if_pos (hPlaced rfl)]
      exact hOrdered
    | some precedence =>
      have hRest : Ordered ((findOrAdd pdrs id).eraseP fun pdr => pdr.id == id) :=
        hOrdered.sublist eraseP_findOrAdd
      rw [Option.elim_some, reorderByPrecedence]
      split
      · next hNone => rwa [eraseP_of_forall_not (find?_eq_none.mp hNone)] at hRest
      · exact hRest.insertSorted

/- Along a run, every PDR that is new has its precedence. -/
def AllPlaced : List (Pdr ρ) → List (Ie ρ) → Prop
  | _, [] => True
  | pdrs, ie :: ies => ie.Placed pdrs ∧ AllPlaced (handle pdrs ie) ies

theorem Ordered.run (hOrdered : Ordered pdrs) (hPlaced : AllPlaced pdrs ies) :
    Ordered (ies.foldl PdrOrder.handle pdrs) := by
  induction ies generalizing pdrs with
  | nil => exact hOrdered
  | cons ie ies ih => exact ih (hOrdered.handle hPlaced.1) hPlaced.2

/- A downlink PDR that the scan may stop at. -/
def Eligible (fars : U32 → Far) (fits : ρ → Bool) (pdr : Pdr ρ) : Prop :=
  pdr.srcIf = interfaceCore ∧ ∃ far, pdr.far = some far ∧ passes fits pdr (fars far) = true

theorem select_eligible (hOrdered : Ordered pdrs) (hFars : ∀ pdr ∈ pdrs, pdr.far ≠ none)
    (hSome : ∃ pdr ∈ pdrs, Eligible fars fits pdr) :
    ∃ pdr ∈ pdrs, select fars fits fallback pdrs = .ok (some pdr) ∧ Eligible fars fits pdr ∧
      ∀ other ∈ pdrs, Eligible fars fits other → pdr.precedence ≤ other.precedence := by
  induction pdrs generalizing fallback with
  | nil => rcases hSome with ⟨pdr, hMem, -⟩; cases hMem
  | cons first pdrs ih =>
    rcases Option.ne_none_iff_exists'.mp (hFars first mem_cons_self) with ⟨far, hFar⟩
    have hFirst := pairwise_cons.mp hOrdered
    by_cases hHere : Eligible fars fits first
    · rcases hHere with ⟨hCore, far', hFar', hPasses⟩
      cases hFar.symm.trans hFar'
      refine ⟨first, mem_cons_self, ?_, ⟨hCore, far, hFar, hPasses⟩, ?_⟩
      · simp [select, hFar, hCore, hPasses]
      · exact forall_mem_cons.mpr ⟨fun _ => BitVec.le_refl _, fun other hMem _ => hFirst.1 other hMem⟩
    · -- the scan goes on, perhaps with another fallback
      have hNext : ∃ next, select fars fits fallback (first :: pdrs) = select fars fits next pdrs := by
        simp only [select, hFar]
        split
        · exact ⟨_, rfl⟩
        · next hCore =>
          rw [if_neg fun hPasses => hHere ⟨not_not.mp hCore, far, hFar, hPasses⟩]
          exact ⟨_, rfl⟩
      rcases hNext with ⟨next, hNext⟩
      rcases hSome with ⟨pdr, hMem, hEligible⟩
      have hRest : pdr ∈ pdrs := (mem_cons.mp hMem).resolve_left (fun hEq => hHere (hEq ▸ hEligible))
      rcases @ih next hFirst.2 (fun pdr hMem => hFars pdr (mem_cons_of_mem _ hMem))
        ⟨pdr, hRest, hEligible⟩ with ⟨found, hFound, hSelect, hIs, hLeast⟩
      exact ⟨found, mem_cons_of_mem _ hFound, hNext.trans hSelect, hIs,
        forall_mem_cons.mpr ⟨fun hEligible => absurd hEligible hHere, hLeast⟩⟩

/-
  The PDRs stay in order if every new one has a precedence, and then the scan finds an eligible PDR
  of the smallest precedence, if there is one.
-/
theorem pdrs_stay_ordered (ies : List (Ie ρ)) (hPlaced : AllPlaced [] ies) :
    Ordered (run ies) ∧ ∀ fars fits, (∀ pdr ∈ run ies, pdr.far ≠ none) →
      (∃ pdr ∈ run ies, Eligible fars fits pdr) →
      ∃ pdr ∈ run ies, select fars fits none (run ies) = .ok (some pdr) ∧ Eligible fars fits pdr ∧
        ∀ other ∈ run ies, Eligible fars fits other → pdr.precedence ≤ other.precedence := by
  have hOrdered : Ordered (run ies) := Ordered.run Pairwise.nil hPlaced
  exact ⟨hOrdered, fun fars fits hFars hSome => select_eligible hOrdered hFars hSome⟩

/- A downlink PDR without rules. -/
def exampleFields : Fields Unit := ⟨interfaceCore, some 1, []⟩

theorem pdrs_stay_ordered_two :
    Ordered (run [.create 1 (some 10) exampleFields, .create 2 (some 5) exampleFields]) :=
  (pdrs_stay_ordered [.create 1 (some 10) exampleFields, .create 2 (some 5) exampleFields]
    ⟨nofun, nofun, trivial⟩).1

/- The second PDR has precedence 0 and is behind the first, which is found. -/
theorem unplaced_pdr_is_last :
    ∃ first second, run [.create 1 (some 10) exampleFields, .create 2 none exampleFields] =
        [first, second] ∧ second.precedence < first.precedence ∧
      select (fun _ => ⟨interfaceAccess, 1⟩) (fun _ => true) none [first, second] =
        .ok (some first) ∧ Eligible (fun _ => ⟨interfaceAccess, 1⟩) (fun _ => true) second :=
  ⟨_, _, rfl, by decide, rfl, rfl, 1, rfl, rfl⟩

end Pretty5gs.Pfcp.PdrOrder
