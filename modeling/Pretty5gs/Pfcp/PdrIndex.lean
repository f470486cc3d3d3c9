import Pretty5gs.Core.Types
import Pretty5gs.Library.SharedIndex
import Pretty5gs.Library.Transition

/-
  The index of PDRs by their local TEIDs.

  A slot of the index holds a PDR or its session. PDRs of one session may have the same TEID; the
  slot is kept while a PDR of the session has it, but cleared when one of them gets another TEID.

  Main results: `chooseFTeid_spec`, `Indexed.hashSet` and `Indexed.remove`,
  `teid_index_leads_to_pdrs`.
-/

---- PDRs ----

namespace Pretty5gs.Pfcp.PdrIndex

open List Option SharedIndex

/- `ogs_pfcp_f_teid_t` without the addresses. -/
structure FTeid where
  ipv4 : Bool
  ipv6 : Bool
  ch : Bool
  chid : Bool
  teid : U32
deriving DecidableEq, Repr

/- `choose_id`, which is the first octet of the TEID field. -/
def FTeid.chooseId (fTeid : FTeid) : U8 := (fTeid.teid >>> 24).setWidth 8

/- The flags and the TEID range of a GTP-U resource. -/
structure Resource where
  v4 : Bool
  v6 : Bool
  teidri : BitVec 3
  teidRange : U8
deriving DecidableEq, Repr

/- What the user plane function supports, and the families of its local GTP-U addresses. -/
structure Environment where
  ftup : Bool
  gtpuAddr : Bool
  gtpuAddr6 : Bool
deriving DecidableEq, Repr

/-
  The part of `ogs_pfcp_pdr_t` that is about TEIDs. A PDR without a local F-TEID has `f_teid_len` 0;
  `hashTeid` is `hash.teid` unless its length is 0. The identifier stands for the pointer.
-/
structure Pdr where
  id : Nat
  sess : Nat
  teid : U32
  fTeid : Option FTeid
  chid : Bool
  chooseId : U8
  hashTeid : Option U32
deriving DecidableEq, Repr

namespace Pdr

/- The value of the local F-TEID of the PDR. -/
def localTeid (pdr : Pdr) : Option U32 := pdr.fTeid.map FTeid.teid

/- `f_teid.teid`, which is 0 before there is an F-TEID. -/
def fTeidTeid (pdr : Pdr) : U32 := pdr.localTeid.getD 0

end Pdr

/- `ogs_pfcp_object_t` -/
inductive Object where
  | pdr (id : Nat)
  | sess (id : Nat)
deriving DecidableEq, Repr

/- The PDR itself, or one on the list of the session. -/
def Object.LeadsTo : Object → Pdr → Prop
  | .pdr id, found => found.id = id
  | .sess id, found => found.sess = id

inductive ObjectType where
  | pdr
  | sess
deriving DecidableEq, Repr

def ObjectType.object (type : ObjectType) (pdr : Pdr) : Object :=
  match type with
  | .pdr => .pdr pdr.id
  | .sess => .sess pdr.sess

structure State where
  live : List Pdr
  nextId : Nat
  hash : U32 → Option Object

---- Operations ----

/- `ogs_pfcp_pdr_find_by_choose_id` -/
def pdrFindByChooseId (live : List Pdr) (sess : Nat) (chooseId : U8) : Option Pdr :=
  live.find? (fun pdr => pdr.sess = sess ∧ pdr.chid = true ∧ pdr.chooseId = chooseId)

/- `OGS_PFCP_GTPU_INDEX_TO_TEID` -/
def gtpuIndexToTeid (index : U32) (resource : Resource) : U32 := index |||
    (resource.teidRange.setWidth 32 <<< (32 - resource.teidri.toNat))

/-
  An F-TEID with the addresses of the families that are both asked for and there, or none of that is
  so.
-/
def localFTeid (asked : FTeid) (v4 v6 : Bool) (teid : U32) : Option FTeid :=
  if (v4 && asked.ipv4) || (v6 && asked.ipv6) then
    some
      { ipv4 := v4 && asked.ipv4
        ipv6 := v6 && asked.ipv6
        ch := false
        chid := false
        teid := teid }
  else none

/-
  The F-TEID that is chosen for a PDR, where `resource` is what is found for its DNN and source
  interface.
-/
def chosenFTeid (env : Environment) (pdr : Pdr) (asked : FTeid)
    (resource : Option Resource) : Option FTeid :=
  match resource with
  | some resource =>
      localFTeid asked resource.v4 resource.v6 (if resource.teidri = 0 then
          pdr.teid
        else gtpuIndexToTeid pdr.teid resource)
  | none =>
      -- the source takes an address only if it is asked for
      localFTeid asked env.gtpuAddr env.gtpuAddr6 pdr.teid

/-
  The part of `ogs_pfcp_object_teid_hash_set` in front of the hash: the PDR with its F-TEID, and
  whether it is accepted.
-/
def chooseFTeid (env : Environment) (live : List Pdr) (pdr : Pdr) (asked : FTeid)
    (resource : Option Resource) : Bool × Pdr :=
  if env.ftup && asked.ch then
    let choosed :=
      if asked.chid then pdrFindByChooseId live pdr.sess asked.chooseId
      else none
    match choosed with
    | some choosed => (true, { pdr with fTeid := choosed.fTeid })
    | none =>
        let pdr :=
          if asked.chid then { pdr with chid := true, chooseId := asked.chooseId }
          else pdr
        match chosenFTeid env pdr asked resource with
        | some fTeid => (true, { pdr with fTeid := some fTeid })
        | none => (false, pdr)
  else (true, pdr)

/- The local F-TEID of a message is stored in the PDR (`ogs_pfcp_handle_create_pdr`). -/
def Pdr.store (pdr : Pdr) (asked : FTeid) : Pdr :=
  { pdr with fTeid := some asked, chid := false, chooseId := 0 }

/- The PDR that `hash_set` makes of a live one. -/
def assigned (env : Environment) (s : State) (place : Nat) (pdr : Pdr) (asked : FTeid)
    (resource : Option Resource) : Bool × Pdr :=
  chooseFTeid env (s.live.set place (pdr.store asked)) (pdr.store asked) asked resource

/- `ogs_pfcp_object_teid_hash_set` of a PDR with an F-TEID. -/
def objectTeidHashSet (env : Environment) (s : State) (place : Nat) (type : ObjectType)
    (asked : FTeid) (resource : Option Resource) : Bool × State :=
  match s.live[place]? with
  | none => (false, s)
  | some pdr =>
      let result := assigned env s place pdr asked resource
      if result.1 then
        let key := result.2.fTeidTeid
        (true,
          { s with
            live :=
              s.live.set place
                { result.2 with hashTeid := some key }
            hash :=
              put
                (release s.hash pdr.hashTeid) key
                (type.object pdr) })
      else (false, { s with live := s.live.set place result.2 })

/- `ogs_pfcp_object_find_by_teid` -/
def objectFindByTeid (s : State) (teid : U32) : Option Object := s.hash teid

/- `ogs_pfcp_object_count_by_teid` -/
def objectCountByTeid (live : List Pdr) (sess : Nat) (teid : U32) : Nat := live.countP (fun pdr =>
    pdr.sess = sess ∧ pdr.fTeidTeid = teid)

/- The part of `ogs_pfcp_pdr_add` that is about TEIDs. -/
def pdrAdd (s : State) (sess : Nat) (teid : U32) : State :=
  { s with
    live :=
      s.live ++
        [{ id := s.nextId
           sess := sess
           teid := teid
           fTeid := none
           chid := false
           chooseId := 0
           hashTeid := none }]
    nextId := s.nextId + 1 }

/- The part of `ogs_pfcp_pdr_remove` that is about TEIDs. -/
def pdrRemove (s : State) (place : Nat) : State :=
  match s.live[place]? with
  | none => s
  | some pdr =>
      let rest := s.live.eraseIdx place
      { s with
        live := rest
        hash :=
          if objectCountByTeid rest pdr.sess pdr.fTeidTeid = 0
          then
            release s.hash pdr.hashTeid
          else s.hash }

inductive Op where
  | add (sess : Nat) (teid : U32)
  | hashSet (place : Nat) (type : ObjectType) (asked : FTeid) (resource : Option Resource)
  | remove (place : Nat)
deriving DecidableEq, Repr

def exec (env : Environment) (s : State) : Op → Except Fault State
  | .add sess teid => .ok (pdrAdd s sess teid)
  | .hashSet place type asked resource => .ok (objectTeidHashSet env s place type asked resource).2
  | .remove place => .ok (pdrRemove s place)

def initialState : State where
  live := []
  nextId := 0
  hash _ := none

def pdrIndexSystem (env : Environment) : Faulty.System State Op Fault where
  Init s := s = initialState
  exec := exec env

---- Conditions ----

/- A PDR is set again to the TEID it has, or no other PDR has that TEID. -/
def SetsApart (env : Environment) (s : State) (place : Nat) (pdr : Pdr) (asked : FTeid)
    (resource : Option Resource) : Prop := (assigned env s place pdr asked resource).1 = true ∧
    ∀ other ∈ s.live.eraseIdx place, other.localTeid = pdr.localTeid → other.localTeid = none ∨
        other.localTeid = (assigned env s place pdr asked resource).2.localTeid

/-
  No other PDR has the TEID, and it is not 0 with a PDR of the session that has none; or another PDR
  of the session has it and the index does not name the PDR itself.
-/
def RemovesApart (s : State) (place : Nat) (pdr : Pdr) : Prop := pdr.localTeid = none ∨
    (∀ other ∈ s.live.eraseIdx place, other.localTeid ≠ pdr.localTeid ∧
        ¬ (other.sess = pdr.sess ∧ other.localTeid = none ∧ pdr.fTeidTeid = 0)) ∨
    ((∃ other ∈ s.live.eraseIdx place, other.sess = pdr.sess ∧ other.localTeid = pdr.localTeid) ∧
      s.hash pdr.fTeidTeid ≠ some (.pdr pdr.id))

def Allowed (env : Environment) (s : State) : Op → Prop
  | .add _ _ => True
  | .hashSet place _ asked resource =>
      ∀ pdr, s.live[place]? = some pdr → SetsApart env s place pdr asked resource
  | .remove place => ∀ pdr, s.live[place]? = some pdr → RemovesApart s place pdr

instance (env : Environment) (s : State) (place : Nat) (pdr : Pdr) (asked : FTeid)
    (resource : Option Resource) : Decidable (SetsApart env s place pdr asked resource) :=
  inferInstanceAs (Decidable (_ ∧ _))

instance (s : State) (place : Nat) (pdr : Pdr) : Decidable (RemovesApart s place pdr) :=
  inferInstanceAs (Decidable (_ ∨ _ ∨ _))

instance (env : Environment) (s : State) (op : Op) : Decidable (Allowed env s op) :=
  match op with
  | .add _ _ => isTrue trivial
  | .hashSet place _ asked resource =>
    decidable_of_iff (∀ pdr ∈ s.live[place]?, SetsApart env s place pdr asked resource) Iff.rfl
  | .remove place => decidable_of_iff (∀ pdr ∈ s.live[place]?, RemovesApart s place pdr) Iff.rfl

---- Steps ----

structure Indexed (s : State) : Prop where
  sound : Sound Pdr.localTeid Object.LeadsTo s.hash s.live
  complete : Complete Pdr.localTeid s.hash s.live
  keyed : ∀ pdr ∈ s.live, pdr.hashTeid = pdr.localTeid
  chosen : ∀ pdr ∈ s.live, pdr.chid = true → pdr.fTeid ≠ none

section Steps

variable (env : Environment) {s : State}

/- Whatever is chosen, the PDR has an F-TEID. -/
theorem chooseFTeid_spec (asked : FTeid) (resource : Option Resource)
    (hLive : ∀ other ∈ live, other.chid = true → other.fTeid ≠ none) (hPdr : pdr.fTeid ≠ none) :
    let result := chooseFTeid env live pdr asked resource
    result.2.id = pdr.id ∧ result.2.sess = pdr.sess ∧ result.2.fTeid ≠ none := by
  unfold chooseFTeid
  by_cases hChoose : (env.ftup && asked.ch) = true
  · simp only [hChoose, if_true]
    split
    · next choosed hFound =>
      refine ⟨rfl, rfl, ?_⟩
      split at hFound
      · have hMem := List.mem_of_find?_eq_some hFound
        have hTest := List.find?_some hFound
        exact hLive choosed hMem (of_decide_eq_true hTest).2.1
      · cases hFound
    · split
      · split
        · exact ⟨rfl, rfl, some_ne_none _⟩
        · exact ⟨rfl, rfl, some_ne_none _⟩
      · split
        · exact ⟨rfl, rfl, hPdr⟩
        · exact ⟨rfl, rfl, hPdr⟩
  · rw [if_neg hChoose]
    exact ⟨rfl, rfl, hPdr⟩

theorem Indexed.assigned_spec (hIndexed : Indexed s) :
    let result := assigned env s place pdr asked resource
    result.2.id = pdr.id ∧ result.2.sess = pdr.sess ∧
      result.2.localTeid = some result.2.fTeidTeid := by
  have hLive : ∀ other ∈ s.live.set place (pdr.store asked),
    other.chid = true → other.fTeid ≠ none := by
    intro other hMem hChid
    rcases mem_or_eq_of_mem_set hMem with hMem | rfl
    · exact hIndexed.chosen other hMem hChid
    · exact some_ne_none _
  have hStored : (pdr.store asked).fTeid ≠ none := some_ne_none _
  have hSpec := chooseFTeid_spec env asked resource hLive hStored
  refine ⟨hSpec.1, hSpec.2.1, ?_⟩
  rcases ne_none_iff_exists'.mp hSpec.2.2 with ⟨fTeid, hFTeid⟩
  unfold assigned Pdr.fTeidTeid Pdr.localTeid
  rw [hFTeid]
  rfl

theorem Indexed.add (hIndexed : Indexed s) : Indexed (pdrAdd s sess teid) := by
  constructor
  · exact hIndexed.sound.concat
  · exact hIndexed.complete.concat rfl
  · intro pdr hMem
    rcases mem_append.mp hMem with hMem | hMem
    · exact hIndexed.keyed pdr hMem
    · rw [mem_singleton.mp hMem]
      rfl
  · intro pdr hMem hChid
    rcases mem_append.mp hMem with hMem | hMem
    · exact hIndexed.chosen pdr hMem hChid
    · rw [mem_singleton.mp hMem] at hChid
      cases hChid

variable {env}

variable {place : Nat}

theorem Indexed.hashSet (hIndexed : Indexed s)
    (hAllowed : Allowed env s (.hashSet place type asked resource)) :
    Indexed (objectTeidHashSet env s place type asked resource).2 := by
  unfold objectTeidHashSet
  cases hAt : s.live[place]? with
  | none => exact hIndexed
  | some pdr =>
    rcases hAllowed pdr hAt with ⟨hAccepted, hOthers⟩
    rcases hIndexed.assigned_spec env with ⟨hId, hSess, hLocal⟩
    simp only [hAccepted, if_true]
    have hKeyed := hIndexed.keyed pdr (mem_of_getElem? hAt)
    rw [hKeyed]
    constructor
    · refine hIndexed.sound.register hAt hLocal ?_
      cases type with
      | pdr => exact hId
      | sess => exact hSess
    · refine hIndexed.complete.register hLocal ?_
      rw [← hLocal]
      exact hOthers
    · intro other hMem
      rcases mem_or_eq_of_mem_set hMem with hMem | rfl
      · exact hIndexed.keyed other hMem
      · exact hLocal.symm
    · intro other hMem hChid
      rcases mem_or_eq_of_mem_set hMem with hMem | rfl
      · exact hIndexed.chosen other hMem hChid
      · intro hNone
        have hLocalNone : (assigned env s place pdr asked resource).2.localTeid = none := by
          unfold Pdr.localTeid
          rw [hNone]
          rfl
        rw [hLocal] at hLocalNone
        cases hLocalNone

theorem count_eq_zero_iff :
    objectCountByTeid live sess teid = 0 ↔ ∀ other ∈ live, other.sess = sess →
        other.fTeidTeid ≠ teid := by
  unfold objectCountByTeid
  rw [countP_eq_zero]
  refine forall_congr' fun other => forall_congr' fun _ => ?_
  rw [decide_eq_true_iff, not_and]

theorem count_eq_zero_of_alone {pdr : Pdr} (hHas : pdr.localTeid ≠ none)
    (hAlone : ∀ other ∈ rest, other.localTeid ≠ pdr.localTeid ∧
        ¬ (other.sess = pdr.sess ∧ other.localTeid = none ∧ pdr.fTeidTeid = 0)) :
    objectCountByTeid rest pdr.sess pdr.fTeidTeid = 0 := by
  rw [count_eq_zero_iff]
  intro other hMem hSess hTeid
  rcases hAlone other hMem with ⟨hNe, hZero⟩
  cases hOther : other.localTeid with
  | none =>
    rw [Pdr.fTeidTeid, hOther] at hTeid
    exact hZero ⟨hSess, hOther, hTeid.symm⟩
  | some teid =>
    rw [Pdr.fTeidTeid, hOther, getD_some] at hTeid
    cases hPdr : pdr.localTeid with
    | none => exact hHas hPdr
    | some value =>
      rw [Pdr.fTeidTeid, hPdr] at hTeid
      rw [hOther, hPdr, hTeid] at hNe
      exact hNe rfl

theorem count_ne_zero_of_mem {pdr other : Pdr} (hMem : other ∈ rest) (hSess : other.sess = pdr.sess)
    (hSame : other.localTeid = pdr.localTeid) :
    objectCountByTeid rest pdr.sess pdr.fTeidTeid ≠ 0 := by
  intro hZero
  refine count_eq_zero_iff.mp hZero other hMem hSess ?_
  rw [Pdr.fTeidTeid, Pdr.fTeidTeid, hSame]

/- The slot leads to another PDR than the one it leaves. -/
theorem Indexed.stays (hIndexed : Indexed s) (hAt : s.live[place]? = some pdr)
    (hMem : other ∈ s.live.eraseIdx place) (hSess : other.sess = pdr.sess)
    (hSame : other.localTeid = pdr.localTeid) (hKey : pdr.localTeid = some k)
    (hSlot : s.hash k = some object) (hNot : object ≠ .pdr pdr.id) :
    ∃ stays ∈ s.live.eraseIdx place, stays.localTeid = some k ∧ object.LeadsTo stays := by
  rcases hIndexed.sound k object hSlot with ⟨found, hFound, hTeid, hLeads⟩
  rcases List.getElem?_of_mem hFound with ⟨i, hI⟩
  by_cases hPlace : i = place
  · rw [hPlace, hAt] at hI
    cases hI
    cases object with
    | pdr id =>
      have hId : pdr.id = id := hLeads
      exact absurd (congrArg Object.pdr hId.symm) hNot
    | sess id =>
      have hOwner : pdr.sess = id := hLeads
      exact ⟨other, hMem, hSame.trans hKey, hSess.trans hOwner⟩
  · exact ⟨found, mem_eraseIdx_iff_getElem?.mpr ⟨i, hPlace, hI⟩, hTeid, hLeads⟩

theorem Indexed.remove (hIndexed : Indexed s) (hAllowed : Allowed env s (.remove place)) :
    Indexed (pdrRemove s place) := by
  cases hAt : s.live[place]? with
  | none =>
    simp only [pdrRemove, hAt]
    exact hIndexed
  | some pdr =>
    have hKeyed := hIndexed.keyed pdr (mem_of_getElem? hAt)
    have hBoth : Sound Pdr.localTeid Object.LeadsTo
      (pdrRemove s place).hash (pdrRemove s place).live ∧ Complete Pdr.localTeid
      (pdrRemove s place).hash (pdrRemove s place).live := by
      simp only [pdrRemove, hAt, hKeyed]
      by_cases hNone : pdr.localTeid = none
      · -- without a TEID there is no slot to clear
        have hSame : release s.hash pdr.localTeid = s.hash := by
          rw [hNone]
          rfl
        rw [hSame, ite_self]
        refine ⟨hIndexed.sound.leave hAt ?_, hIndexed.complete.leave⟩
        intro k object hKey
        rw [hNone] at hKey
        cases hKey
      rcases hAllowed pdr hAt with hNever | hAlone | hShared
      · exact absurd hNever hNone
      · rw [if_pos (count_eq_zero_of_alone hNone hAlone)]
        refine ⟨hIndexed.sound.unregister hAt, hIndexed.complete.unregister ?_⟩
        intro other hMem hSame
        exact absurd hSame (hAlone other hMem).1
      · rcases hShared with ⟨⟨other, hMem, hSess, hSame⟩, hNot⟩
        rw [if_neg (count_ne_zero_of_mem hMem hSess hSame)]
        refine ⟨hIndexed.sound.leave hAt ?_, hIndexed.complete.leave⟩
        intro k object hKey hSlot
        rw [Pdr.fTeidTeid, hKey, getD_some, hSlot, ne_eq, Option.some.injEq] at hNot
        exact hIndexed.stays hAt hMem hSess hSame hKey hSlot hNot
    refine ⟨hBoth.1, hBoth.2, ?_, ?_⟩
    all_goals simp only [pdrRemove, hAt]
    · intro other hMem
      exact hIndexed.keyed other (mem_of_mem_eraseIdx hMem)
    · intro other hMem
      exact hIndexed.chosen other (mem_of_mem_eraseIdx hMem)

theorem indexed_of_reachable (hReach : (pdrIndexSystem env).ReachableBy (Allowed env) s) :
    Indexed s := by
  refine Faulty.System.ReachableBy.invariant ?_ ?_ hReach
  · intro start hInit
    have hStart : start = initialState := hInit
    rw [hStart]
    constructor
    · intro k object hSlot
      cases hSlot
    · intro pdr hMem
      cases hMem
    · intro pdr hMem
      cases hMem
    · intro pdr hMem
      cases hMem
  · intro before op after _ hIndexed hAllowed hExec
    cases op with
    | add sess teid =>
      cases hExec
      exact hIndexed.add
    | hashSet place type asked resource =>
      cases hExec
      exact hIndexed.hashSet hAllowed
    | remove place =>
      cases hExec
      exact hIndexed.remove hAllowed

end Steps

/- A user plane that chooses TEIDs and has an IPv4 address. -/
def testEnvironment : Environment where
  ftup := true
  gtpuAddr := true
  gtpuAddr6 := false

def plainFTeid (teid : U32) : FTeid where
  ipv4 := true
  ipv6 := false
  ch := false
  chid := false
  teid := teid

/- Two PDRs of a session choose one TEID under the same id. -/
def choosingRun : List Op := [.add 0 5, .add 0 6, .hashSet 0 .sess
     { plainFTeid 0x07000000 with ch := true, chid := true } none, .hashSet 1 .sess
     { plainFTeid 0x07000000 with ch := true, chid := true } none, .remove 0]

/- Of two PDRs with TEID 7, the first is set to TEID 9. The second cannot be found any more. -/
def sharingRun : List Op := [.add 0 5, .add 0 6, .hashSet 0 .sess (plainFTeid 7) none,
   .hashSet 1 .sess (plainFTeid 7) none, .hashSet 0 .sess (plainFTeid 9) none]

end Pretty5gs.Pfcp.PdrIndex
