import Pretty5gs.Core.Types
import Pretty5gs.Library.SharedIndex
import Pretty5gs.Library.Transition

/-
  The indexes of FARs by remote F-TEID and by TEID.

  Each index has one slot for a key, which several FARs may have. A slot never holds a removed FAR,
  but it is cleared when one of the FARs with its key is removed or gets another one.

  Main results: `sound_of_reachable`, `complete_of_reachable`, `far_indexes_find_live_fars`.
-/

---- FARs ----

namespace Pretty5gs.Pfcp.FarIndex

open SharedIndex

/- The address of a peer, by the family of its socket. -/
inductive SockAddr where
  | inet (addr : U32)
  | inet6 (addr : BitVec 128)
  | other
deriving DecidableEq, Repr

/-
  `ogs_pfcp_far_hash_f_teid_t`, of which as many octets are compared as the family of the address
  has.
-/
inductive FTeidKey where
  | inet (teid : U32) (addr : U32)
  | inet6 (teid : U32) (addr : BitVec 128)
deriving DecidableEq, Repr

/-
  The part of `ogs_pfcp_far_t` that is about keys. The TEID is that of the outer header creation; a
  key of `hash` is there unless its length is 0. The identifier stands for the pointer.
-/
structure Far where
  id : Nat
  teid : U32
  gnode : Option SockAddr
  hashTeid : Option U32
  hashFTeid : Option FTeidKey
deriving DecidableEq, Repr

structure State where
  live : List Far
  nextId : Nat
  farTeidHash : U32 → Option Nat
  farFTeidHash : FTeidKey → Option Nat

def initialState : State where
  live := []
  nextId := 0
  farTeidHash _ := none
  farFTeidHash _ := none

---- Operations ----

/- The part of `ogs_pfcp_far_add` that is about keys. -/
def farAdd (s : State) : State :=
  { s with
    live :=
      s.live ++
        [{ id := s.nextId
           teid := 0
           gnode := none
           hashTeid := none
           hashFTeid := none }]
    nextId := s.nextId + 1 }

/- The TEID and the peer of a FAR change. -/
def farUpdate (s : State) (place : Nat) (teid : U32) (gnode : Option SockAddr) : State :=
  match s.live[place]? with
  | none => s
  | some far =>
      { s with
        live :=
          s.live.set place
            { far with teid := teid, gnode := gnode } }

/- The key of the TEID and the address of the peer. -/
def fTeidKey (teid : U32) : SockAddr → Option FTeidKey
  | .inet addr => some (.inet teid addr)
  | .inet6 addr => some (.inet6 teid addr)
  | .other => none

variable (s : State) (place : Nat)

/-
  `ogs_pfcp_far_f_teid_hash_set`, which does not return without a peer, or if the family of its
  address is unknown.
-/
def farFTeidHashSet : Except Fault State :=
  match s.live[place]? with
  | none => .ok s
  | some far =>
      match far.gnode with
      | none => .error .assertion
      | some addr =>
          match fTeidKey far.teid addr with
          | none => .error .assertion
          | some key =>
              .ok
                { s with
                  live :=
                    s.live.set place
                      { far with hashFTeid := some key }
                  farFTeidHash :=
                    put
                      (release s.farFTeidHash
                        far.hashFTeid) key far.id }

/- `ogs_pfcp_far_teid_hash_set` -/
def farTeidHashSet : State :=
  match s.live[place]? with
  | none => s
  | some far =>
      { s with
        live := s.live.set place { far with hashTeid := some far.teid }
        farTeidHash :=
          put
            (release s.farTeidHash far.hashTeid)
            far.teid far.id }

/- The part of `ogs_pfcp_far_remove` that is about keys. -/
def farRemove : State :=
  match s.live[place]? with
  | none => s
  | some far =>
      { s with
        live := s.live.eraseIdx place
        farTeidHash := release s.farTeidHash far.hashTeid
        farFTeidHash := release s.farFTeidHash far.hashFTeid }

/-
  The lookup of `ogs_pfcp_far_find_by_gtpu_error_indication` with the key that was read from the
  message.
-/
def farFindByFTeid (s : State) (key : FTeidKey) : Option Nat := s.farFTeidHash key

/- `ogs_pfcp_far_find_by_teid` -/
def farFindByTeid (s : State) (teid : U32) : Option Nat := s.farTeidHash teid

inductive Op where
  | add
  | update (place : Nat) (teid : U32) (gnode : Option SockAddr)
  | fTeidHashSet (place : Nat)
  | teidHashSet (place : Nat)
  | remove (place : Nat)
deriving DecidableEq, Repr

def exec (s : State) : Op → Except Fault State
  | .add => .ok (farAdd s)
  | .update place teid gnode => .ok (farUpdate s place teid gnode)
  | .fTeidHashSet place => farFTeidHashSet s place
  | .teidHashSet place => .ok (farTeidHashSet s place)
  | .remove place => .ok (farRemove s place)

def farIndexSystem : Faulty.System State Op Fault where
  Init s := s = initialState
  exec := exec

---- Conditions ----

/- No other FAR is left with the key that a FAR gives up for another one, or for none. -/
def LeavesNone {κ : Type} (key : Far → Option κ) (live : List Far) (place : Nat) (far : Far)
    (next : Option κ) : Prop := ∀ other ∈ live.eraseIdx place, key other = key far →
    key other = none ∨ key other = next

instance {κ : Type} [DecidableEq κ] (key : Far → Option κ) (live : List Far) (place : Nat)
    (far : Far) (next : Option κ) : Decidable (LeavesNone key live place far next) :=
  inferInstanceAs (Decidable (∀ other ∈ _, _))

def Allowed (s : State) : Op → Prop
  | .add => True
  | .update _ _ _ => True
  | .fTeidHashSet place =>
      ∀ far ∈ s.live[place]?, LeavesNone Far.hashFTeid s.live place far
          (far.gnode.bind (fTeidKey far.teid))
  | .teidHashSet place =>
      ∀ far ∈ s.live[place]?, LeavesNone Far.hashTeid s.live place far (some far.teid)
  | .remove place =>
      ∀ far ∈ s.live[place]?, LeavesNone Far.hashFTeid s.live place far none ∧
          LeavesNone Far.hashTeid s.live place far none

instance (s : State) (op : Op) : Decidable (Allowed s op) :=
  match op with
  | .add => isTrue trivial
  | .update _ _ _ => isTrue trivial
  | .fTeidHashSet _ => inferInstanceAs (Decidable (∀ far ∈ _, _))
  | .teidHashSet _ => inferInstanceAs (Decidable (∀ far ∈ _, _))
  | .remove _ => inferInstanceAs (Decidable (∀ far ∈ _, _))

---- Steps ----

def NamedBy (id : Nat) (far : Far) : Prop := far.id = id

/- What is in a slot is a live FAR with its key. -/
structure Sound (s : State) : Prop where
  teid : SharedIndex.Sound Far.hashTeid NamedBy s.farTeidHash s.live
  fTeid : SharedIndex.Sound Far.hashFTeid NamedBy s.farFTeidHash s.live

/- The slot of a key that a live FAR has is filled. -/
structure Complete (s : State) : Prop where
  teid : SharedIndex.Complete Far.hashTeid s.farTeidHash s.live
  fTeid : SharedIndex.Complete Far.hashFTeid s.farFTeidHash s.live

section Steps

variable {s s' : State}

/- What a step does, by the FAR that it is about; other steps leave the state as it is. -/
theorem exec_cases (hExec : exec s op = .ok s') : s' = s ∨ (op = .add ∧ s' = farAdd s) ∨
      ∃ place far, s.live[place]? = some far ∧ ((∃ teid gnode, op = .update place teid gnode ∧ s' =
              { s with
                live :=
                  s.live.set place
                    { far with
                      teid := teid, gnode := gnode } }) ∨ (∃ key, op = .fTeidHashSet place ∧
            far.gnode.bind (fTeidKey far.teid) = some key ∧ s' =
              { s with
                live :=
                  s.live.set place
                    { far with hashFTeid := some key }
                farFTeidHash :=
                  put
                    (release s.farFTeidHash
                      far.hashFTeid) key far.id }) ∨ (op = .teidHashSet place ∧ s' =
              { s with
                live :=
                  s.live.set place
                    { far with hashTeid := some far.teid }
                farTeidHash :=
                  put
                    (release s.farTeidHash
                      far.hashTeid) far.teid far.id }) ∨ (op = .remove place ∧ s' =
              { s with
                live := s.live.eraseIdx place
                farTeidHash :=
                  release s.farTeidHash
                    far.hashTeid
                farFTeidHash :=
                  release s.farFTeidHash
                    far.hashFTeid })) := by
  cases op with
  | add =>
    cases hExec
    exact .inr (.inl ⟨rfl, rfl⟩)
  | update place teid gnode =>
    cases hExec
    unfold farUpdate
    cases hAt : s.live[place]? with
    | none => exact .inl rfl
    | some far => exact .inr (.inr ⟨place, far, hAt, .inl ⟨teid, gnode, rfl, rfl⟩⟩)
  | fTeidHashSet place =>
    have hSet : farFTeidHashSet s place = .ok s' := hExec
    unfold farFTeidHashSet at hSet
    cases hAt : s.live[place]? with
    | none =>
      simp only [hAt] at hSet
      cases hSet
      exact .inl rfl
    | some far =>
      refine .inr (.inr ⟨place, far, hAt, .inr (.inl ?_)⟩)
      cases hNode : far.gnode with
      | none =>
        simp only [hAt, hNode] at hSet
        cases hSet
      | some addr =>
        cases hKey : fTeidKey far.teid addr with
        | none =>
          simp only [hAt, hNode, hKey] at hSet
          cases hSet
        | some key =>
          simp only [hAt, hNode, hKey] at hSet
          cases hSet
          exact ⟨key, rfl, hKey, rfl⟩
  | teidHashSet place =>
    cases hExec
    unfold farTeidHashSet
    cases hAt : s.live[place]? with
    | none => exact .inl rfl
    | some far => exact .inr (.inr ⟨place, far, hAt, .inr (.inr (.inl ⟨rfl, rfl⟩))⟩)
  | remove place =>
    cases hExec
    unfold farRemove
    cases hAt : s.live[place]? with
    | none => exact .inl rfl
    | some far => exact .inr (.inr ⟨place, far, hAt, .inr (.inr (.inr ⟨rfl, rfl⟩))⟩)

theorem Sound.exec (hSound : Sound s) (hExec : exec s op = .ok s') : Sound s' := by
  rcases exec_cases hExec with rfl | ⟨_, rfl⟩ | ⟨place, far, hAt, hCases⟩
  · exact hSound
  · exact ⟨hSound.teid.concat, hSound.fTeid.concat⟩
  · rcases hCases with ⟨teid, gnode, _, rfl⟩ | ⟨key, _, _, rfl⟩ | ⟨_, rfl⟩ | ⟨_, rfl⟩
    · exact ⟨hSound.teid.set hAt rfl (fun _ hNamed => hNamed),
        hSound.fTeid.set hAt rfl (fun _ hNamed => hNamed)⟩
    · exact ⟨hSound.teid.set hAt rfl (fun _ hNamed => hNamed), hSound.fTeid.register hAt rfl rfl⟩
    · exact ⟨hSound.teid.register hAt rfl rfl, hSound.fTeid.set hAt rfl (fun _ hNamed => hNamed)⟩
    · exact ⟨hSound.teid.unregister hAt, hSound.fTeid.unregister hAt⟩

theorem Complete.exec (hComplete : Complete s) (hAllowed : Allowed s op)
    (hExec : exec s op = .ok s') : Complete s' := by
  rcases exec_cases hExec with rfl | ⟨_, rfl⟩ | ⟨place, far, hAt, hCases⟩
  · exact hComplete
  · exact ⟨hComplete.teid.concat rfl, hComplete.fTeid.concat rfl⟩
  · rcases hCases with ⟨teid, gnode, _, rfl⟩ | ⟨key, rfl, hKey, rfl⟩ | ⟨rfl, rfl⟩ | ⟨rfl, rfl⟩
    · exact ⟨hComplete.teid.set hAt rfl, hComplete.fTeid.set hAt rfl⟩
    · have hLeaves := hAllowed far hAt
      rw [hKey] at hLeaves
      exact ⟨hComplete.teid.set hAt rfl, hComplete.fTeid.register rfl hLeaves⟩
    · exact ⟨hComplete.teid.register rfl (hAllowed far hAt), hComplete.fTeid.set hAt rfl⟩
    · rcases hAllowed far hAt with ⟨hFTeid, hTeid⟩
      refine ⟨hComplete.teid.unregister ?_, hComplete.fTeid.unregister ?_⟩
      · intro other hMem hSame
        exact (hTeid other hMem hSame).elim id id
      · intro other hMem hSame
        exact (hFTeid other hMem hSame).elim id id

theorem sound_of_reachable (hReach : farIndexSystem.Reachable s) : Sound s := by
  refine Faulty.System.Reachable.invariant ?_ ?_ hReach
  · intro start hInit
    have hStart : start = initialState := hInit
    rw [hStart]
    constructor
    · intro k object hSlot
      cases hSlot
    · intro k object hSlot
      cases hSlot
  · intro before op after hSound hExec
    exact hSound.exec hExec

theorem complete_of_reachable (hReach : farIndexSystem.ReachableBy Allowed s) : Complete s := by
  refine Faulty.System.ReachableBy.invariant ?_ ?_ hReach
  · intro start hInit
    have hStart : start = initialState := hInit
    rw [hStart]
    constructor
    · intro far hMem
      cases hMem
    · intro far hMem
      cases hMem
  · intro before op after _ hComplete hAllowed hExec
    exact hComplete.exec hAllowed hExec

end Steps

/-
  What a lookup finds is a live FAR with the key in every run. A key that a live FAR has is found in
  the runs in which no FAR gives up a key that another one has.
-/
theorem far_indexes_find_live_fars (s : State) (hReach : farIndexSystem.Reachable s) :
    ((∀ key id, farFindByFTeid s key = some id → ∃ far ∈ s.live,
            far.id = id ∧ far.hashFTeid = some key) ∧ ∀ teid id, farFindByTeid s teid = some id →
          ∃ far ∈ s.live, far.id = id ∧ far.hashTeid = some teid) ∧
      (farIndexSystem.ReachableBy Allowed s → (∀ far ∈ s.live, ∀ key, far.hashFTeid = some key →
            farFindByFTeid s key ≠ none) ∧ ∀ far ∈ s.live, ∀ teid, far.hashTeid = some teid →
            farFindByTeid s teid ≠ none) := by
  have hSound := sound_of_reachable hReach
  refine ⟨⟨?_, ?_⟩, ?_⟩
  · intro key id hFound
    rcases hSound.fTeid key id hFound with ⟨far, hMem, hKey, hId⟩
    exact ⟨far, hMem, hId, hKey⟩
  · intro teid id hFound
    rcases hSound.teid teid id hFound with ⟨far, hMem, hTeid, hId⟩
    exact ⟨far, hMem, hId, hTeid⟩
  · intro hAllowed
    have hComplete := complete_of_reachable hAllowed
    exact ⟨hComplete.fTeid, hComplete.teid⟩

/- Two FARs, of which one moves to another peer. -/
def movingRun : List Op := [.add, .update 0 7 (some (.inet 0x0a000001)),
   .fTeidHashSet 0, .teidHashSet 0, .add, .update 1 8 (some (.inet 0x0a000001)), .fTeidHashSet 1,
   .teidHashSet 1, .update 0 9 (some (.inet 0x0a000002)), .fTeidHashSet 0, .remove 1]

theorem far_indexes_find_live_fars_moved :
    ∃ s, farIndexSystem.ReachableBy Allowed s ∧ farFindByFTeid s (.inet 9 0x0a000002) ≠ none ∧
        ∀ id, farFindByFTeid s (.inet 9 0x0a000002) = some id → ∃ far ∈ s.live, far.id = id := by
  rcases Faulty.System.exists_run (show (farIndexSystem.run initialState
    movingRun).toOption.any (fun s => decide ( ∃ far ∈ s.live,
      far.hashFTeid = some (.inet 9 0x0a000002))) = true by
    decide +kernel) with ⟨s, hRun, far, hLive, hKey⟩
  have hReach : farIndexSystem.ReachableBy Allowed s := Faulty.System.ReachableBy.run (.init rfl)
    (by decide +kernel) hRun
  have hIndexes := far_indexes_find_live_fars s hReach.reachable
  refine ⟨s, hReach, (hIndexes.2 hReach).1 far hLive _ hKey, ?_⟩
  intro id hFound
  rcases hIndexes.1.1 _ id hFound with ⟨found, hMem, hId, _⟩
  exact ⟨found, hMem, hId⟩

/-
  Two FARs have TEID 7 at one peer. When the second is removed the first cannot be found any more by
  either key.
-/
def sharingRun : List Op := [.add, .update 0 7 (some (.inet 0x0a000001)),
   .fTeidHashSet 0, .teidHashSet 0, .add, .update 1 7 (some (.inet 0x0a000001)), .fTeidHashSet 1,
   .teidHashSet 1, .remove 1]

theorem shared_far_key_is_lost :
    ∃ s, farIndexSystem.Reachable s ∧ farFindByFTeid s (.inet 7 0x0a000001) = none ∧
        farFindByTeid s 7 = none ∧ ∃ far ∈ s.live, far.hashFTeid = some (.inet 7 0x0a000001) ∧
            far.hashTeid = some 7 := by
  rcases Faulty.System.exists_run (show (farIndexSystem.run initialState
    sharingRun).toOption.any (fun s => decide ( farFindByFTeid s (.inet 7 0x0a000001) = none ∧
      farFindByTeid s 7 = none ∧ ∃ far ∈ s.live, far.hashFTeid = some (.inet 7 0x0a000001) ∧
        far.hashTeid = some 7)) = true by
    decide +kernel) with ⟨s, hRun, hLost⟩
  exact ⟨s, Faulty.System.Reachable.run (.init rfl) hRun, hLost⟩

end Pretty5gs.Pfcp.FarIndex
