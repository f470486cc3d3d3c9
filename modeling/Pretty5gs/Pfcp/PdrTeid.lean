import Pretty5gs.Core.Pool
import Pretty5gs.Library.Transition

/-
  Local TEIDs of PDRs.

  The TEIDs are the values of an array whose slots go through a pool. To restore a TEID, its value
  is exchanged with the one in the slot of the PDR. The slot that it is looked for in comes from a
  table that was made at start-up and does not follow the exchanges.

  Main results: `pdrAdd_cases`, `Sound.swapTeid`, `added_teid_is_not_held`,
  `live_teids_are_distinct`.
-/

---- PDRs ----

namespace Pretty5gs.Pfcp.PdrTeid

open List Option Faulty Faulty.System.ReachableBy

def maxNumOfPdr : Nat := 16

/-
  The part of `ogs_pfcp_pdr_t` that is about pools, each node as its place in the array of the pool.
  `restored` is `f_teid.teid` of a PDR whose TEID was restored.
-/
structure Pdr where
  slot : Nat
  sess : Nat
  teidNode : Nat
  idNode : Nat
  teid : Nat
  restored : Option Nat
deriving DecidableEq, Repr

/- The TEID that packets for the PDR come with. -/
def Pdr.held (pdr : Pdr) : Nat := pdr.restored.getD pdr.teid

/-
  The pools of PDRs and of TEIDs with the array of the latter, `pdr_random_to_index`, and the pools
  of PDR identifiers of the sessions.
-/
structure State where
  pdrPool : NodeRing Nat
  teidPool : NodeRing Nat
  teidArray : List Nat
  randomToIndex : List Nat
  idPools : List (NodeRing Nat)
  live : List Pdr

def randomToIndex (teidArray : List Nat) : List Nat := teidArray.zipIdx.foldl
    (fun table entry => table.set entry.1 entry.2) (List.replicate (teidArray.length + 1) 0)

/-
  `ogs_pfcp_context_init` for so many PDRs in the pool, and `ogs_pfcp_pool_init` of the sessions.
-/
def contextInit (size : Nat) (seed : BitVec 64) (sessions : Nat) : State :=
  let array := ogsPoolRandomIdGenerate seed size
  { pdrPool := ogsPoolInit (List.range size)
    teidPool := ogsPoolInit (List.range size)
    teidArray := array
    randomToIndex := randomToIndex array
    idPools := List.replicate sessions (ogsPoolInit (List.range maxNumOfPdr))
    live := [] }

/- A PDR with nodes of the three pools joins its session. -/
def State.join (s : State) (pdr : Pdr) (pdrPool teidPool idPool : NodeRing Nat) : State :=
  { s with
    pdrPool := pdrPool
    teidPool := teidPool
    idPools := s.idPools.set pdr.sess idPool
    live := s.live ++ [pdr] }

/- `ogs_pfcp_pdr_add`: NULL if one of the pools is exhausted. -/
def pdrAdd (s : State) (sess : Nat) : Except Fault (Option Pdr × State) :=
  match s.idPools[sess]? with
  | none => .error .assertion
  | some idPool =>
      match ogsPoolAlloc s.pdrPool with
      | .error fault => .error fault
      | .ok (none, _) => .ok (none, s)
      | .ok (some slot, pdrPool) =>
          match ogsPoolAlloc s.teidPool with
          | .error fault => .error fault
          | .ok (none, teidPool) =>
              .ok (none, { s with
                  teidPool := teidPool
                  pdrPool := ogsPoolFree pdrPool slot })
          | .ok (some node, teidPool) =>
              match s.teidArray[node]? with
              | none => .error (.outOfBounds node)
              | some teid =>
                  match ogsPoolAlloc idPool with
                  | .error fault => .error fault
                  | .ok (none, _) =>
                      .ok (none, { s with
                          teidPool := ogsPoolFree teidPool node
                          pdrPool := ogsPoolFree pdrPool slot })
                  | .ok (some id, idPool) =>
                      -- the identifiers start from 1
                      if id + 1 ≤ maxNumOfPdr then
                        let pdr :=
                          { slot := slot
                            sess := sess
                            teidNode := node
                            idNode := id
                            teid := teid
                            restored := none }
                        .ok (some pdr, s.join pdr pdrPool teidPool idPool)
                      else .error .assertion

/-
  `ogs_pfcp_pdr_swap_teid` of a live PDR whose `f_teid.teid` is given. The result says whether the
  request is accepted.
-/
def pdrSwapTeid (s : State) (place : Nat) (teid : Nat) : Except Fault (Bool × State) :=
  match s.live[place]? with
  | none => .ok (false, s)
  | some pdr =>
      if 0 < teid ∧ teid ≤ s.teidPool.size then
        match s.randomToIndex[teid]? with
        | none => .error (.outOfBounds teid)
        | some i =>
            if i < s.teidPool.size then
              match s.teidArray[i]?, s.teidArray[pdr.teidNode]? with
              | some value, some own =>
                  .ok (true, { s with
                      teidArray :=
                        if teid = value then (s.teidArray.set i own).set pdr.teidNode teid
                        else s.teidArray
                      live := s.live.set place { pdr with restored := some teid } })
              | _, _ => .error (.outOfBounds i)
            else .error .assertion
      else .ok (false, s)

/- `ogs_pfcp_pdr_remove` of a live PDR. -/
def pdrRemove (s : State) (place : Nat) : Except Fault State :=
  match s.live[place]? with
  | none => .ok s
  | some pdr =>
      match s.idPools[pdr.sess]? with
      | none => .error .assertion
      | some idPool =>
          .ok { s with
              idPools := s.idPools.set pdr.sess (ogsPoolFree idPool pdr.idNode)
              teidPool := ogsPoolFree s.teidPool pdr.teidNode
              pdrPool := ogsPoolFree s.pdrPool pdr.slot
              live := s.live.eraseIdx place }

inductive Op where
  | add (sess : Nat)
  | swapTeid (place teid : Nat)
  | remove (place : Nat)
deriving DecidableEq, Repr

def exec (s : State) : Op → Except Fault State
  | .add sess => (pdrAdd s sess).map Prod.snd
  | .swapTeid place teid => (pdrSwapTeid s place teid).map Prod.snd
  | .remove place => pdrRemove s place

def pdrSystem (size : Nat) (seed : BitVec 64) (sessions : Nat) : Faulty.System State Op Fault where
  Init s := s = contextInit size seed sessions
  exec := exec

/- Only TEIDs that no live PDR holds are restored. -/
def Restores (s : State) : Op → Prop
  | .swapTeid _ teid => 0 < teid ∧ teid ≤ s.teidPool.size ∧ ∀ pdr ∈ s.live, pdr.held ≠ teid
  | _ => True

/- The TEID is still in the slot that the table names. -/
def Named (s : State) (teid : Nat) : Prop :=
  (s.randomToIndex[teid]?).bind (fun i => s.teidArray[i]?) = some teid

def Allowed (s : State) (op : Op) : Prop := Restores s op ∧ match op with
    | .swapTeid _ teid => Named s teid
    | _ => True

instance (s : State) (op : Op) : Decidable (Restores s op) := by
  cases op with
  | add sess => exact isTrue trivial
  | swapTeid place teid => exact inferInstanceAs (Decidable (_ ∧ _ ∧ _))
  | remove place => exact isTrue trivial

instance (s : State) (op : Op) : Decidable (Allowed s op) := by
  cases op with
  | add sess => exact isTrue ⟨trivial, trivial⟩
  | swapTeid place teid => exact inferInstanceAs (Decidable (_ ∧ _ = _))
  | remove place => exact isTrue ⟨trivial, trivial⟩

---- What Is Kept ----

/- The identifiers of a session that its PDRs have. -/
def takenIds (live : List Pdr) (sess : Nat) : List Nat :=
  NodeRing.taken Pdr.sess Pdr.idNode live sess

/- Each TEID is in one slot of the array, and what a live PDR holds is in its own slot. -/
structure Sound (size sessions : Nat) (s : State) : Prop where
  teids : s.teidArray.Perm (List.range' 1 size)
  table : ∀ teid, 0 < teid → teid ≤ size → ∃ i < size, s.randomToIndex[teid]? = some i
  pdrPool : s.pdrPool.Pooled (s.live.map Pdr.slot) (List.range size)
  teidPool : s.teidPool.Pooled (s.live.map Pdr.teidNode) (List.range size)
  numbered : s.idPools.length = sessions
  idPools : ∀ (sess : Nat) (idPool : NodeRing Nat), s.idPools[sess]? = some idPool →
      idPool.Pooled (takenIds s.live sess) (List.range maxNumOfPdr)
  owned : ∀ pdr ∈ s.live, pdr.sess < sessions
  held : ∀ pdr ∈ s.live, s.teidArray[pdr.teidNode]? = some pdr.held

section Initial

theorem foldl_set_lt (entries : List (Nat × Nat)) (table : List Nat)
    (hEntries : ∀ entry ∈ entries, entry.2 < size) (hTable : ∀ i ∈ table, i < size) :
    (entries.foldl (fun table entry => table.set entry.1 entry.2) table).length = table.length ∧
      ∀ i ∈ entries.foldl (fun table entry => table.set entry.1 entry.2) table, i < size := by
  induction entries generalizing table with
  | nil => exact ⟨rfl, hTable⟩
  | cons entry entries ih =>
    have hSet : ∀ i ∈ table.set entry.1 entry.2, i < size := by
      intro i hMem
      rcases mem_or_eq_of_mem_set hMem with hMem | rfl
      · exact hTable i hMem
      · exact hEntries entry mem_cons_self
    have hRest := ih _ (fun other hMem => hEntries other (mem_cons_of_mem _ hMem)) hSet
    rwa [length_set] at hRest

theorem randomToIndex_lt (hPositive : 0 < teid) (hTeid : teid ≤ array.length) :
    ∃ i < array.length, (randomToIndex array)[teid]? = some i := by
  have hPlaces : ∀ entry ∈ array.zipIdx, entry.2 < array.length := by
    rintro ⟨value, i⟩ hMem
    have hPlace := mem_zipIdx hMem
    omega
  have hZeros : ∀ i ∈ List.replicate (array.length + 1) 0, i < array.length := by
    intro i hMem
    rw [(mem_replicate.mp hMem).2]
    omega
  have hFold := foldl_set_lt array.zipIdx _ hPlaces hZeros
  rw [length_replicate] at hFold
  have hLess : teid < (randomToIndex array).length := by
    rw [randomToIndex]
    omega
  exact ⟨_, hFold.2 _ (getElem_mem hLess), List.getElem?_eq_getElem hLess⟩

theorem contextInit_sound : Sound size sessions (contextInit size seed sessions) := by
  have hPerm := ogsPoolRandomIdGenerate_perm seed size
  have hLength : (ogsPoolRandomIdGenerate seed size).length = size := by
    rw [hPerm.length_eq, length_range']
  constructor
  · exact hPerm
  · intro teid hPositive hTeid
    rw [← hLength] at hTeid
    have hEntry := randomToIndex_lt hPositive hTeid
    rwa [hLength] at hEntry
  · exact NodeRing.pooled_full
  · exact NodeRing.pooled_full
  · exact length_replicate
  · intro sess idPool hAt
    have hMem := mem_of_getElem? hAt
    rw [eq_of_mem_replicate hMem]
    exact NodeRing.pooled_full
  · intro pdr hMem
    cases hMem
  · intro pdr hMem
    cases hMem

end Initial

---- Steps ----

section Steps

variable {size sessions : Nat} {s : State}

theorem Sound.teids_nodup (hSound : Sound size sessions s) : s.teidArray.Nodup :=
  hSound.teids.nodup_iff.mpr nodup_range'

theorem Sound.teids_length (hSound : Sound size sessions s) : s.teidArray.length = size := by
  rw [hSound.teids.length_eq, length_range']

variable {sess : Nat}

theorem Sound.idPool (hSound : Sound size sessions s) (hSess : sess < sessions) :
    ∃ idPool, s.idPools[sess]? = some idPool := by
  rw [← hSound.numbered] at hSess
  exact ⟨_, List.getElem?_eq_getElem hSess⟩

/- The pools of PDRs and TEIDs change, with what is taken. -/
theorem Sound.pools (hSound : Sound size sessions s) {pdrPool teidPool : NodeRing Nat} (hPdrs :
      pdrPool.Pooled (s.live.map Pdr.slot) (List.range size)) (hTeids :
      teidPool.Pooled (s.live.map Pdr.teidNode) (List.range size)) : Sound size sessions
      { s with pdrPool := pdrPool, teidPool := teidPool } :=
  { hSound with pdrPool := hPdrs, teidPool := hTeids }

/- The identifiers of the other sessions stay as they are. -/
theorem Sound.idPools_set (hSound : Sound size sessions s) {idPool : NodeRing Nat}
    (hPool : idPool.Pooled (takenIds live sess) (List.range maxNumOfPdr))
    (hOthers : ∀ other, other ≠ sess → (takenIds s.live other).Perm (takenIds live other)) :
    ∀ (other : Nat) (ids : NodeRing Nat), (s.idPools.set sess idPool)[other]? = some ids →
        ids.Pooled (takenIds live other) (List.range maxNumOfPdr) := by
  intro other ids hAt
  by_cases hSame : other = sess
  · subst hSame
    have hLess : other < s.idPools.length := by
      have hSet := (List.getElem?_eq_some_iff.mp hAt).1
      rwa [length_set] at hSet
    rw [List.getElem?_set_self hLess] at hAt
    cases hAt
    exact hPool
  · rw [List.getElem?_set_ne (Ne.symm hSame)] at hAt
    exact (hSound.idPools other ids hAt).perm (hOthers other hSame)

/- A slot that is not taken has a TEID that is not held. -/
theorem Sound.held_ne (hSound : Sound size sessions s) (hNode : s.teidArray[node]? = some teid)
    (hLive : pdr ∈ s.live) (hOther : node ≠ pdr.teidNode) : teid ≠ pdr.held := by
  intro hSame
  have hHeld := hSound.held pdr hLive
  rw [← hSame, ← hNode] at hHeld
  have hLess := (List.getElem?_eq_some_iff.mp hNode).1
  exact hOther ((List.getElem?_inj hLess hSound.teids_nodup).mp hHeld.symm)

theorem Sound.join (hSound : Sound size sessions s) {pdrPool teidPool idPool : NodeRing Nat}
    (hPdrs : pdrPool.Pooled (pdr.slot :: s.live.map Pdr.slot) (List.range size))
    (hTeids : teidPool.Pooled (pdr.teidNode :: s.live.map Pdr.teidNode) (List.range size))
    (hIds : idPool.Pooled (pdr.idNode :: takenIds s.live pdr.sess) (List.range maxNumOfPdr))
    (hSess : pdr.sess < sessions) (hHeld : s.teidArray[pdr.teidNode]? = some pdr.held) :
    Sound size sessions (s.join pdr pdrPool teidPool idPool) := by
  constructor
  · exact hSound.teids
  · exact hSound.table
  · show pdrPool.Pooled ((s.live ++ [pdr]).map Pdr.slot) _
    rw [map_append]
    exact hPdrs.perm (perm_append_singleton _ _).symm
  · show teidPool.Pooled ((s.live ++ [pdr]).map Pdr.teidNode) _
    rw [map_append]
    exact hTeids.perm (perm_append_singleton _ _).symm
  · show (s.idPools.set pdr.sess idPool).length = _
    rw [length_set]
    exact hSound.numbered
  · refine hSound.idPools_set ?_ ?_
    · show idPool.Pooled (takenIds (s.live ++ [pdr]) _) _
      unfold takenIds
      rw [NodeRing.taken_concat, if_pos rfl]
      exact hIds.perm (perm_append_singleton _ _).symm
    · intro other hNe
      show (takenIds s.live other).Perm (takenIds (s.live ++ [pdr]) other)
      unfold takenIds
      rw [NodeRing.taken_concat, if_neg (Ne.symm hNe), append_nil]
  · intro other hMem
    rcases mem_append.mp hMem with hMem | hMem
    · exact hSound.owned other hMem
    · rw [mem_singleton.mp hMem]
      exact hSess
  · intro other hMem
    rcases mem_append.mp hMem with hMem | hMem
    · exact hSound.held other hMem
    · rw [mem_singleton.mp hMem]
      exact hHeld

/- A PDR is not added if a pool is exhausted; otherwise its TEID is not held by a live one. -/
theorem pdrAdd_cases (hSound : Sound size sessions s) (hSess : sess < sessions) :
    ∃ result s', pdrAdd s sess = .ok (result, s') ∧ Sound size sessions s' ∧
      ∀ pdr, result = some pdr → ∀ other ∈ s.live, pdr.held ≠ other.held := by
  rcases hSound.idPool hSess with ⟨idPool, hIdPool⟩
  rcases ogsPoolAlloc_cases hSound.pdrPool with ⟨_, hAlloc⟩ | ⟨slot, pdrPool, hAlloc, hPdrs⟩
  · refine ⟨none, s, ?_, hSound, fun _ hNone => by cases hNone⟩
    simp only [pdrAdd, hIdPool, hAlloc]
  rcases ogsPoolAlloc_cases hSound.teidPool with
    ⟨_, hTeidAlloc⟩ | ⟨node, teidPool, hTeidAlloc, hTeids⟩
  · refine ⟨none, _, ?_, hSound.pools hPdrs.put hSound.teidPool, fun _ hNone => by cases hNone⟩
    simp only [pdrAdd, hIdPool, hAlloc, hTeidAlloc]
    rfl
  have hNode : ∃ teid, s.teidArray[node]? = some teid := by
    have hMem := hTeids.mem_of_taken mem_cons_self
    rw [mem_range, ← hSound.teids_length] at hMem
    exact ⟨_, List.getElem?_eq_getElem hMem⟩
  rcases hNode with ⟨teid, hTeid⟩
  rcases ogsPoolAlloc_cases (hSound.idPools sess idPool hIdPool) with
    ⟨_, hIdAlloc⟩ | ⟨id, ids, hIdAlloc, hIds⟩
  · refine ⟨none, _, ?_, hSound.pools hPdrs.put hTeids.put, fun _ hNone => by cases hNone⟩
    simp only [pdrAdd, hIdPool, hAlloc, hTeidAlloc, hTeid, hIdAlloc]
    rfl
  have hIdLess : id + 1 ≤ maxNumOfPdr := mem_range.mp (hIds.mem_of_taken mem_cons_self)
  have hFresh : ∀ other ∈ s.live, node ≠ other.teidNode := by
    intro other hLive hSame
    have hNodup := hTeids.nodup_taken nodup_range
    refine (nodup_cons.mp hNodup).1 ?_
    rw [hSame]
    exact List.mem_map_of_mem hLive
  let pdr : Pdr :=
    { slot := slot
      sess := sess
      teidNode := node
      idNode := id
      teid := teid
      restored := none }
  refine ⟨some pdr, s.join pdr pdrPool teidPool ids, ?_,
    hSound.join hPdrs hTeids hIds hSess hTeid, ?_⟩
  · simp only [pdrAdd, hIdPool, hAlloc, hTeidAlloc, hTeid, hIdAlloc]
    rw [if_pos hIdLess]
  · intro added hAdded other hLive
    cases hAdded
    exact hSound.held_ne hTeid hLive (hFresh other hLive)

theorem Sound.remove (hSound : Sound size sessions s) (hRemove : pdrRemove s place = .ok s') :
    Sound size sessions s' := by
  unfold pdrRemove at hRemove
  cases hLive : s.live[place]? with
  | none =>
    simp only [hLive] at hRemove
    cases hRemove
    exact hSound
  | some pdr =>
    rcases hSound.idPool (hSound.owned pdr (mem_of_getElem? hLive)) with ⟨idPool, hIdPool⟩
    simp only [hLive, hIdPool] at hRemove
    cases hRemove
    have hPerm : ∀ node : Pdr → Nat, (s.live.map node).Perm
      (node pdr :: (s.live.eraseIdx place).map node) := by
      intro node
      rcases List.getElem?_eq_some_iff.mp hLive with ⟨hLess, rfl⟩
      exact ((getElem_cons_eraseIdx_perm hLess).map node).symm
    constructor
    · exact hSound.teids
    · exact hSound.table
    · exact (hSound.pdrPool.perm (hPerm Pdr.slot)).put
    · exact (hSound.teidPool.perm (hPerm Pdr.teidNode)).put
    · rw [length_set]
      exact hSound.numbered
    · refine hSound.idPools_set ?_ ?_
      · have hTaken := NodeRing.perm_taken_eraseIdx Pdr.sess Pdr.idNode hLive pdr.sess
        rw [if_pos rfl] at hTaken
        exact ((hSound.idPools _ _ hIdPool).perm hTaken.symm).put
      · intro other hNe
        have hTaken := NodeRing.perm_taken_eraseIdx Pdr.sess Pdr.idNode hLive other
        rw [if_neg (Ne.symm hNe)] at hTaken
        exact hTaken.symm
    · intro other hMem
      exact hSound.owned other (mem_of_mem_eraseIdx hMem)
    · intro other hMem
      exact hSound.held other (mem_of_mem_eraseIdx hMem)

/- Other slots keep what is in them through an exchange. -/
theorem getElem?_swap_of_ne {array : List Nat} (hFirst : i ≠ k) (hSecond : j ≠ k) :
    (array.swap i j)[k]? = array[k]? := by
  rw [swap_eq]
  split
  · rw [List.getElem?_set_ne hSecond, List.getElem?_set_ne hFirst]
  · rfl

theorem getElem?_swap_right {array : List Nat} (hFirst : array[i]? = some value)
    (hSecond : array[j]? = some own) : (array.swap i j)[j]? = some value := by
  rcases List.getElem?_eq_some_iff.mp hFirst with ⟨hI, rfl⟩
  rcases List.getElem?_eq_some_iff.mp hSecond with ⟨hJ, rfl⟩
  rw [swap_eq_of_lt hI hJ, List.getElem?_set_self]
  rwa [length_set]

/- Different live PDRs have different slots. -/
theorem Sound.teidNode_ne (hSound : Sound size sessions s) {i j : Nat}
    (hFirst : s.live[i]? = some pdr) (hSecond : s.live[j]? = some other) (hApart : i ≠ j) :
    pdr.teidNode ≠ other.teidNode := by
  intro hSame
  have hNodup := hSound.teidPool.nodup_taken nodup_range
  have hLess : i < (s.live.map Pdr.teidNode).length := by
    rw [length_map]
    exact (List.getElem?_eq_some_iff.mp hFirst).1
  refine hApart ((List.getElem?_inj hLess hNodup).mp ?_)
  rw [List.getElem?_map, List.getElem?_map, hFirst, hSecond, map_some, map_some, hSame]

/- The TEID is exchanged with the one in the slot of the PDR. -/
theorem pdrSwapTeid_eq (hSound : Sound size sessions s)
    (hLive : s.live[place]? = some pdr) (hAllowed : Allowed s (.swapTeid place teid)) : ∃ i,
      s.teidArray[i]? = some teid ∧ pdrSwapTeid s place teid = .ok (true,
          { s with
            teidArray := s.teidArray.swap i pdr.teidNode
            live :=
              s.live.set place
                { pdr with restored := some teid } }) := by
  rcases hAllowed with ⟨⟨hPositive, hTeid, _⟩, hNamed⟩
  have hSize : s.teidPool.size = size := by rw [hSound.teidPool.1, length_range]
  rcases hSound.table teid hPositive (by omega) with ⟨i, hLess, hTable⟩
  have hAt : s.teidArray[i]? = some teid := by
    have hValue : (s.randomToIndex[teid]?).bind (fun i => s.teidArray[i]?) = some teid := hNamed
    rwa [hTable] at hValue
  have hOwn := hSound.held pdr (mem_of_getElem? hLive)
  refine ⟨i, hAt, ?_⟩
  rcases List.getElem?_eq_some_iff.mp hAt with ⟨hI, hValue⟩
  rcases List.getElem?_eq_some_iff.mp hOwn with ⟨hJ, hHeld⟩
  simp only [pdrSwapTeid, hLive, hTable, hAt, hOwn]
  rw [if_pos ⟨hPositive, hTeid⟩, if_pos (by omega), if_true, swap_eq_of_lt hI hJ, hValue, hHeld]

theorem Sound.swapTeid (hSound : Sound size sessions s)
    (hAllowed : Allowed s (.swapTeid place teid))
    (hSwap : pdrSwapTeid s place teid = .ok (accepted, s')) : Sound size sessions s' := by
  cases hLive : s.live[place]? with
  | none =>
    simp only [pdrSwapTeid, hLive] at hSwap
    cases hSwap
    exact hSound
  | some pdr =>
    rcases pdrSwapTeid_eq hSound hLive hAllowed with ⟨i, hAt, hEq⟩
    rw [hEq] at hSwap
    cases hSwap
    have hMem := mem_of_getElem? hLive
    have hOwn := hSound.held pdr hMem
    rcases List.getElem?_eq_some_iff.mp hLive with ⟨hPlace, hPdr⟩
    have hNodes : ∀ node : Pdr → Nat, node { pdr with restored := some teid } = node pdr →
      (s.live.set place { pdr with restored := some teid }).map node = s.live.map node := by
      intro node hSame
      have hLess : place < (s.live.map node).length := by rwa [length_map]
      have hSelf := set_getElem_self hLess
      rw [map_set, hSame, ← hPdr]
      rwa [getElem_map] at hSelf
    constructor
    · exact (swap_perm _ _ _).trans hSound.teids
    · exact hSound.table
    · rw [hNodes Pdr.slot rfl]
      exact hSound.pdrPool
    · rw [hNodes Pdr.teidNode rfl]
      exact hSound.teidPool
    · exact hSound.numbered
    · intro sess idPool hIds
      unfold takenIds
      rw [NodeRing.taken_set hLive]
      · exact hSound.idPools sess idPool hIds
      · rfl
      · rfl
    · intro other hOther
      rcases mem_or_eq_of_mem_set hOther with hOther | rfl
      · exact hSound.owned other hOther
      · exact hSound.owned pdr hMem
    · intro other hOther
      rcases List.getElem?_of_mem hOther with ⟨k, hK⟩
      by_cases hSame : place = k
      · rw [← hSame, List.getElem?_set_self hPlace] at hK
        cases hK
        exact getElem?_swap_right hAt hOwn
      · rw [List.getElem?_set_ne hSame] at hK
        have hOtherHeld := hSound.held other (mem_of_getElem? hK)
        have hOwnSlot : pdr.teidNode ≠ other.teidNode := hSound.teidNode_ne hLive hK hSame
        -- the slot of the TEID is not one that is held
        have hItsSlot : i ≠ other.teidNode := by
          intro hTaken
          rw [← hTaken, hAt] at hOtherHeld
          exact hAllowed.1.2.2 other (mem_of_getElem? hK) (Option.some.inj hOtherHeld).symm
        exact (getElem?_swap_of_ne hItsSlot hOwnSlot).trans hOtherHeld

theorem sound_of_reachable (hReach : (pdrSystem size seed sessions).ReachableBy Allowed s) :
    Sound size sessions s := by
  refine invariant ?_ ?_ hReach
  · intro start hInit
    have hStart : start = contextInit size seed sessions := hInit
    rw [hStart]
    exact contextInit_sound
  · intro before op after _ hSound hAllowed hExec
    cases op with
    | add sess =>
      rcases map_eq_ok hExec with ⟨⟨result, next⟩, hAdd, rfl⟩
      by_cases hSess : sess < sessions
      · rcases pdrAdd_cases hSound hSess with ⟨_, _, hEq, hNext, _⟩
        rw [hEq] at hAdd
        cases hAdd
        exact hNext
      · have hNone : before.idPools[sess]? = none := by
          rw [List.getElem?_eq_none_iff, hSound.numbered]
          omega
        simp only [pdrAdd, hNone] at hAdd
        cases hAdd
    | swapTeid place teid =>
      rcases map_eq_ok hExec with ⟨⟨accepted, next⟩, hSwap, rfl⟩
      exact hSound.swapTeid hAllowed hSwap
    | remove place => exact hSound.remove hExec

end Steps

/-
  If each TEID that is restored is still in the slot that the table names, a PDR that is added has a
  TEID that no live PDR holds.
-/
theorem added_teid_is_not_held (size sessions : Nat) (seed : BitVec 64) (s : State)
    (hReach : (pdrSystem size seed sessions).ReachableBy Allowed s) (sess : Nat)
    (hSess : sess < sessions) :
    ∃ result s', pdrAdd s sess = .ok (result, s') ∧ ∀ pdr, result = some pdr →
        ∀ other ∈ s.live, pdr.held ≠ other.held := by
  rcases pdrAdd_cases (sound_of_reachable hReach) hSess with ⟨result, s', hAdd, _, hUnheld⟩
  exact ⟨result, s', hAdd, hUnheld⟩

/- A TEID is restored to a PDR while another one is there. -/
def restoringRun : List Op := [.add 0, .add 0, .swapTeid 0 10, .remove 1, .add 0]

theorem added_teid_is_not_held_restored :
    ∃ s, (pdrSystem 16 1 1).ReachableBy Allowed s ∧ s.live.map Pdr.held = [10, 12] ∧ ∃ result s',
        pdrAdd s 0 = .ok (result, s') ∧ ∀ pdr, result = some pdr →
          ∀ other ∈ s.live, pdr.held ≠ other.held := by
  rcases Faulty.System.exists_run (show ((pdrSystem 16 1 1).run (contextInit 16 1 1)
    restoringRun).toOption.any (fun s =>
      decide (s.live.map Pdr.held = [10, 12])) = true by
    decide +kernel) with ⟨s, hRun, hHeld⟩
  have hReach : (pdrSystem 16 1 1).ReachableBy Allowed s := run (.init rfl) (by decide +kernel) hRun
  exact ⟨s, hReach, hHeld, added_teid_is_not_held 16 1 1 s hReach 0 (by decide)⟩

/-
  Live PDRs then hold different TEIDs, from 1 to the size of the pool, and as many can be given out
  as none of them holds.
-/
theorem live_teids_are_distinct (size sessions : Nat) (seed : BitVec 64) (s : State)
    (hReach : (pdrSystem size seed sessions).ReachableBy Allowed s) :
    (s.live.map Pdr.held).Nodup ∧ (∀ pdr ∈ s.live, 0 < pdr.held ∧ pdr.held ≤ size) ∧
      s.teidPool.avail + s.live.length = size := by
  have hSound := sound_of_reachable hReach
  refine ⟨?_, ?_, ?_⟩
  · have hNodes := pairwise_map.mp (hSound.teidPool.nodup_taken nodup_range)
    refine pairwise_map.mpr (hNodes.imp_of_mem ?_)
    intro pdr other hMem hOther hApart hSame
    have hAt := hSound.held pdr hMem
    have hLess := (List.getElem?_eq_some_iff.mp hAt).1
    rw [hSame, ← hSound.held other hOther] at hAt
    exact hApart ((List.getElem?_inj hLess (hSound.teids.nodup_iff.mpr nodup_range')).mp hAt)
  · intro pdr hMem
    have hTeid := hSound.teids.subset (mem_of_getElem? (hSound.held pdr hMem))
    rw [mem_range'_1] at hTeid
    omega
  · rcases hSound.teidPool with ⟨-, queue, hRing, hAll⟩
    have hLength := hAll.length_eq
    rw [length_append, length_map, length_range, ← hRing.avail] at hLength
    exact hLength

theorem live_teids_are_distinct_restored :
    ∃ s, (pdrSystem 16 1 1).run (contextInit 16 1 1) restoringRun = .ok s ∧
      s.teidPool.avail + s.live.length = 16 := by
  have hEnds : ∃ s, (pdrSystem 16 1 1).run (contextInit 16 1 1) restoringRun = .ok s ∧ True :=
    System.exists_run (by decide +kernel)
  rcases hEnds with ⟨s, hRun, -⟩
  exact ⟨s, hRun, (live_teids_are_distinct 16 1 1 s (run (.init rfl) (by decide +kernel) hRun)).2.2⟩

/-
  TEID 1 is restored to a PDR, which is removed, and to another one. The second time it is not
  found, and stays in the slot that the first PDR gave back.
-/
def restoringTwice : List Op := [.add 0, .swapTeid 0 1, .remove 0, .add 0, .swapTeid 0 1] ++
    List.replicate 14 (.add 0)

theorem restored_teid_is_taken_again :
    ∃ s, (pdrSystem 16 1 1).ReachableBy Restores s ∧ ∃ pdr s', pdrAdd s 0 = .ok (some pdr, s') ∧
        ∃ other ∈ s.live, pdr.held = other.held := by
  rcases Faulty.System.exists_run (show ((pdrSystem 16 1 1).run (contextInit 16 1 1)
    restoringTwice).toOption.any (fun s => decide ( ((pdrAdd s 0).toOption.bind Prod.fst).any
      (fun pdr => s.live.any (fun other => decide (pdr.held = other.held))) = true)) = true by
    decide +kernel) with ⟨s, hRun, hAgain⟩
  refine ⟨s, run (.init rfl) (by decide +kernel) hRun, ?_⟩
  rcases (Option.any_eq_true _ _).mp hAgain with ⟨pdr, hResult, hHeld⟩
  rcases List.any_eq_true.mp hHeld with ⟨other, hLive, hSame⟩
  cases hAdd : pdrAdd s 0 with
  | error fault =>
    rw [hAdd] at hResult
    cases hResult
  | ok added =>
    rw [hAdd] at hResult
    refine ⟨pdr, added.2, ?_, other, hLive, of_decide_eq_true hSame⟩
    have hFirst : added.1 = some pdr := hResult
    rw [← hFirst]

end Pretty5gs.Pfcp.PdrTeid
