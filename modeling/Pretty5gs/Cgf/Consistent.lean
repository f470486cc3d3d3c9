import Mathlib.Algebra.BigOperators.Fin
import Pretty5gs.Cgf.Simulation

/-
  The open files of a drain and its requests: every request is for an open file, and a file counts
  the requests for it.

  A file is closed while requests for it wait when its next record cannot be staged. A file that is
  rewound counts from zero, whatever other peers still hold, and a reload drops requests without
  counting them.

  Main results: `Consistent.step`, `requests_match_open_files`.
-/

---- Requests For A File ----

namespace Pretty5gs.Cgf

open Finset List Function Option SlotTable Pipeline

/- The peer has a request for the file. -/
def Ledger.Holds (c : Ledger) (i : Slot) (f : FileId) : Prop :=
  ∃ r, some r ∈ c.requests i ∧ r.file = some f

/- The requests for a file, over all peers. -/
def inflight (requests : Slot → List (Option Request)) (f : FileId) : Nat :=
  ∑ i, count (Peer.refersTo f) (requests i)

variable {f : FileId}

theorem refersTo_iff : Peer.refersTo f r = true ↔ r.file = some f := by simp [Peer.refersTo]

variable {c : Ledger}

open Ledger

theorem Ledger.holds_iff : 0 < count (Peer.refersTo f) (c.requests i) ↔ c.Holds i f := by
  simp [count_pos_iff, refersTo_iff, Holds]

instance (c : Ledger) (i : Slot) (f : FileId) : Decidable (c.Holds i f) :=
  decidable_of_iff _ holds_iff

theorem Ledger.count_eq_zero (hFree : ¬ c.Holds i f) :
    count (Peer.refersTo f) (c.requests i) = 0 := by
  apply Nat.eq_zero_of_not_pos
  rw [holds_iff]
  exact hFree

theorem Ledger.mem_heldFiles : f ∈ heldFiles (c.requests i) ↔ c.Holds i f := by
  simp only [heldFiles, List.mem_filterMap, Holds, bind_eq_some_iff]
  constructor
  · rintro ⟨slot, hMem, r, rfl, hFile⟩
    exact ⟨r, hMem, hFile⟩
  · rintro ⟨r, hMem, hFile⟩
    exact ⟨some r, hMem, r, rfl, hFile⟩

theorem inflight_eq_zero (hFree : ∀ i, ¬ c.Holds i f) : inflight c.requests f = 0 := by
  apply Finset.sum_eq_zero
  intro i _
  exact count_eq_zero (hFree i)

theorem not_holds_of_inflight (hZero : inflight c.requests f = 0) (i : Slot) : ¬ c.Holds i f := by
  intro hHolds
  have hTerm := (Finset.sum_eq_zero_iff.mp hZero) i (mem_univ i)
  rw [← holds_iff, hTerm] at hHolds
  exact Nat.lt_irrefl 0 hHolds

/- The table of one peer changes. -/
theorem inflight_update (requests : Slot → List (Option Request)) (i : Slot)
    (table : List (Option Request)) (f : FileId) :
    inflight (Function.update requests i table) f + count (Peer.refersTo f) (requests i) =
      inflight requests f + count (Peer.refersTo f) table := by
  have hSum : ∀ slots : List (Option Request), inflight (Function.update requests i slots) f =
    count (Peer.refersTo f) slots + ∑ j ∈ univ \ {i}, count (Peer.refersTo f) (requests j) := by
    intro slots
    unfold inflight
    have hApply : (fun j =>
      count (Peer.refersTo f) (Function.update requests i slots j)) =
      Function.update (fun j =>
        count (Peer.refersTo f) (requests j)) i
        (count (Peer.refersTo f) slots) := by
      funext j
      exact apply_update (fun _ => count (Peer.refersTo f)) _ _ _ _
    rw [hApply]
    exact sum_update_of_mem (mem_univ i) _ _
  have hOld := hSum (requests i)
  rw [update_eq_self] at hOld
  have hNew := hSum table
  omega

/- Requests move to other slots, and none for the file is lost. -/
theorem inflight_moved (hOnce : ∀ i i' j, origin i = some j → origin i' = some j → i = i')
    (hKept : ∀ j, c.Holds j f → ∃ i, origin i = some j) :
    inflight (moved origin c.requests) f = inflight c.requests f := by
  have hOrigin : ∀ i, count (Peer.refersTo f) (moved origin c.requests i) ≠ 0 →
    ∃ j, origin i = some j := by
    intro i hHeld
    cases hFrom : origin i with
    | some j => exact ⟨j, rfl⟩
    | none => simp [moved, hFrom, SlotTable.count] at hHeld
  refine sum_bij_ne_zero (fun i _ _ => (origin i).getD i) ?_ ?_ ?_ ?_
  · intro i _ _
    exact mem_univ _
  · intro i _ hHeld i' _ hHeld' hSame
    rcases hOrigin i hHeld with ⟨j, hFrom⟩
    rcases hOrigin i' hHeld' with ⟨j', hFrom'⟩
    simp only [hFrom, hFrom', getD_some] at hSame
    rw [← hSame] at hFrom'
    exact hOnce i i' j hFrom hFrom'
  · intro j _ hHeld
    have hHolds : c.Holds j f := holds_iff.mp (Nat.pos_of_ne_zero hHeld)
    rcases hKept j hHolds with ⟨i, hFrom⟩
    refine ⟨i, mem_univ i, ?_, ?_⟩
    · simpa [moved, hFrom] using hHeld
    · simp [hFrom]
  · intro i _ hHeld
    rcases hOrigin i hHeld with ⟨j, hFrom⟩
    simp [moved, hFrom]

---- Consistent Ledgers ----

/- Requests and open files agree, the counter and the state of one file apart. -/
structure ConsistentBut (f : FileId) (c : Ledger) : Prop where
  live : ∀ i g, g ≠ f → c.Holds i g → g ∈ c.files
  counted : ∀ g ∈ c.files, g ≠ f → (c.heap g).inflightBatches = inflight c.requests g
  fresh : ∀ g ∈ c.files, g < c.nextFile

/- Requests and open files agree. -/
structure Consistent (c : Ledger) : Prop where
  live : ∀ i g, c.Holds i g → g ∈ c.files
  counted : ∀ g ∈ c.files, (c.heap g).inflightBatches = inflight c.requests g
  fresh : ∀ g ∈ c.files, g < c.nextFile

theorem Consistent.but (hCons : Consistent c) (f : FileId) : ConsistentBut f c where
  live := fun i g _ => hCons.live i g
  counted := fun g hOpen _ => hCons.counted g hOpen
  fresh := hCons.fresh

/- The file that was left apart agrees as well. -/
theorem ConsistentBut.close (hBut : ConsistentBut f c) (hLive : ∀ i, c.Holds i f → f ∈ c.files)
    (hCounted : f ∈ c.files → (c.heap f).inflightBatches = inflight c.requests f) :
    Consistent c where
  live := by
    intro i g hHolds
    by_cases hHere : g = f
    · subst hHere
      exact hLive i hHolds
    · exact hBut.live i g hHere hHolds
  counted := by
    intro g hOpen
    by_cases hHere : g = f
    · subst hHere
      exact hCounted hOpen
    · exact hBut.counted g hOpen hHere
  fresh := hBut.fresh

namespace ConsistentBut

variable {f : FileId} {c : Ledger}

theorem setFile (hBut : ConsistentBut f c) (file : SpoolFile) :
    ConsistentBut f (c.setFile f file) where
  live := hBut.live
  counted := by
    intro g hOpen hOther
    simp only [Ledger.setFile, update_of_ne hOther]
    exact hBut.counted g hOpen hOther
  fresh := hBut.fresh

/- Only requests for the file change. -/
theorem update (hBut : ConsistentBut f c) (hTable : ∀ g, g ≠ f → count (Peer.refersTo g) table =
          count (Peer.refersTo g) (c.requests i)) : ConsistentBut f
      { c with requests := Function.update c.requests i table }
    where
  live := by
    intro j g hOther hHolds
    apply hBut.live j g hOther
    rw [← holds_iff] at hHolds ⊢
    by_cases hHere : j = i
    · subst hHere
      simp only [update_self, hTable g hOther] at hHolds
      exact hHolds
    · simp only [update_of_ne hHere] at hHolds
      exact hHolds
  counted := by
    intro g hOpen hOther
    have hCount := hBut.counted g hOpen hOther
    have hUpdate := inflight_update c.requests i table g
    rw [hTable g hOther] at hUpdate
    simp only
    omega
  fresh := hBut.fresh

theorem drop (hBut : ConsistentBut f c) (i : Slot) :
    ConsistentBut f (c.drop i (Peer.refersTo f)) := by
  apply hBut.update
  intro g hOther
  apply count_clearAll_of_disjoint
  intro r hRefers
  rw [refersTo_iff] at hRefers
  simpa [Peer.refersTo, hRefers] using hOther

theorem free (hBut : ConsistentBut f c) (hSlot : (c.requests i)[k]? = some (some r))
    (hFile : r.file = some f) : ConsistentBut f (c.free i k) := by
  apply hBut.update
  intro g hOther
  have hCount := count_set_none (Peer.refersTo g) hSlot
  have hNot : ¬ Peer.refersTo g r = true := by
    rw [refersTo_iff, hFile]
    intro hSame
    exact hOther (Option.some.inj hSame).symm
  rw [if_neg hNot] at hCount
  exact hCount

/- Nothing of the file is left at the peer, or elsewhere. -/
theorem rewind (hBut : ConsistentBut f c) (hAlone : ∀ j, j ≠ i → ¬ c.Holds j f) (uncertain : Bool) :
    Consistent (c.rewind i f uncertain) := by
  have hFree : ∀ j, ¬ (c.rewind i f uncertain).Holds j f := by
    intro j hHolds
    rw [← holds_iff] at hHolds
    by_cases hHere : j = i
    · subst hHere
      have hTable : (c.rewind j f uncertain).requests j = clearAll (Peer.refersTo f)
        (c.requests j) := update_self _ _ _
      rw [hTable, count_clearAll_self] at hHolds
      exact Nat.lt_irrefl 0 hHolds
    · have hTable : (c.rewind i f uncertain).requests j = c.requests j :=
      update_of_ne hHere _ _
      rw [hTable, holds_iff] at hHolds
      exact hAlone j hHere hHolds
  have hDropped := (hBut.drop i).setFile (rewound uncertain (c.heap f))
  have hNext : ConsistentBut f (c.rewind i f uncertain) :=
    ⟨hDropped.live, hDropped.counted, hDropped.fresh⟩
  apply hNext.close
  · intro j hHolds
    exact absurd hHolds (hFree j)
  · intro _
    rw [inflight_eq_zero hFree]
    simp only [Ledger.rewind, Ledger.noteAll, Ledger.setFile, Ledger.drop, update_self]
    cases uncertain <;> rfl

end ConsistentBut

namespace Consistent

variable {c : Ledger}

variable {f : FileId}

/- The counter of the file stays. -/
theorem setFile (hCons : Consistent c) (hSame : file.inflightBatches = (c.heap f).inflightBatches) :
    Consistent (c.setFile f file) := by
  apply ((hCons.but f).setFile file).close
  · exact fun i => hCons.live i f
  · intro hOpen
    simp only [Ledger.setFile, update_self, hSame]
    exact hCons.counted f hOpen

theorem stage (hCons : Consistent c) (hStages : c.Stages f staged) :
    Consistent (c.setFile f staged) := by
  rcases hStages with ⟨_, start, records, rfl⟩
  exact hCons.setFile rfl

/- A new file has a new name, so nothing refers to it. -/
theorem openFile (hCons : Consistent c) (data : List UInt8) :
    Consistent (c.openFile (SpoolFile.opened data)) where
  live := by
    intro i g hHolds
    exact mem_append_left _ (hCons.live i g hHolds)
  counted := by
    intro g hOpen
    by_cases hNew : g = c.nextFile
    · subst hNew
      have hFree : ∀ i, ¬ c.Holds i c.nextFile := by
        intro i hHolds
        have hOld := hCons.fresh _ (hCons.live i _ hHolds)
        exact Nat.lt_irrefl _ hOld
      simp only [Ledger.openFile, update_self, inflight_eq_zero hFree]
      rfl
    · have hOld : g ∈ c.files := by
        simpa [Ledger.openFile, hNew] using hOpen
      simp only [Ledger.openFile, update_of_ne hNew]
      exact hCons.counted g hOld
  fresh := by
    intro g hOpen
    rcases mem_append.mp hOpen with hOld | hNew
    · exact Nat.lt_succ_of_lt (hCons.fresh g hOld)
    · rw [List.mem_singleton.mp hNew]
      exact Nat.lt_succ_self _

/- A file that nothing refers to is closed. -/
theorem quarantine (hCons : Consistent c) (hFree : ∀ i, ¬ c.Holds i f) :
    Consistent (c.quarantine f) where
  live := by
    intro i g hHolds
    have hOther : g ≠ f := by
      rintro rfl
      exact hFree i hHolds
    exact (mem_erase_of_ne hOther).mpr (hCons.live i g hHolds)
  counted := by
    intro g hOpen
    exact hCons.counted g (List.mem_of_mem_erase hOpen)
  fresh := by
    intro g hOpen
    exact hCons.fresh g (List.mem_of_mem_erase hOpen)

variable {i : Slot}

/- A table changes, and no count of it. -/
theorem update (hCons : Consistent c) (hTable : ∀ g, count (Peer.refersTo g) table =
          count (Peer.refersTo g) (c.requests i)) : Consistent
      { c with requests := Function.update c.requests i table }
    where
  live := by
    intro j g hHolds
    -- Any other file may be the one that is left apart.
    exact ((hCons.but (g + 1)).update (fun g _ => hTable g)).live
      j g (Nat.ne_of_lt (Nat.lt_succ_self g)) hHolds
  counted := by
    intro g hOpen
    exact ((hCons.but (g + 1)).update (fun g _ => hTable g)).counted g hOpen
      (Nat.ne_of_lt (Nat.lt_succ_self g))
  fresh := hCons.fresh

variable {r : Request}

theorem release (hCons : Consistent c) (hFree : none ∈ c.requests i) (hRelease : r.file = none) :
    Consistent (c.put i r) := by
  apply hCons.update
  intro g
  rw [count_put hFree]
  simp [Peer.refersTo, hRelease]

theorem freeRelease (hCons : Consistent c) (hSlot : (c.requests i)[k]? = some (some r))
    (hRelease : r.file = none) : Consistent (c.free i k) := by
  apply hCons.update
  intro g
  have hCount := count_set_none (Peer.refersTo g) hSlot
  simpa [Peer.refersTo, hRelease] using hCount

theorem send (hCons : Consistent c) (hOpen : f ∈ c.files) (hFree : none ∈ c.requests i)
    (hFile : r.file = some f) : Consistent (c.send i f r) := by
  have hTable : ∀ g, g ≠ f → count (Peer.refersTo g) (put r (c.requests i)) =
    count (Peer.refersTo g) (c.requests i) := by
    intro g hOther
    rw [count_put hFree]
    simpa [Peer.refersTo, hFile] using Ne.symm hOther
  have hPut := ((hCons.but f).update hTable).setFile
    (commitSend (c.heap f) r.batchStart r.recordsInBatch)
  have hNext : ConsistentBut f (c.send i f r) := ⟨hPut.live, hPut.counted, hPut.fresh⟩
  apply hNext.close
  · exact fun _ _ => hOpen
  · intro _
    have hUpdate := inflight_update c.requests i (put r (c.requests i)) f
    rw [count_put hFree, if_pos (refersTo_iff.mpr hFile)] at hUpdate
    have hCount := hCons.counted f hOpen
    simp only [Ledger.send, Ledger.note, Ledger.setFile, Ledger.put, update_self, commitSend]
    omega

/- One request less, and one batch less in flight. -/
theorem inflight_free (hCons : Consistent c) (hOpen : f ∈ c.files)
    (hSlot : (c.requests i)[k]? = some (some r)) (hFile : r.file = some f) :
    inflight (c.free i k).requests f = (c.heap f).inflightBatches - 1 := by
  have hUpdate := inflight_update c.requests i ((c.requests i).set k none) f
  have hCount := count_set_none (Peer.refersTo f) hSlot
  rw [if_pos (refersTo_iff.mpr hFile)] at hCount
  rw [hCons.counted f hOpen]
  simp only [free]
  omega

/- A batch is confirmed, and the file perhaps done. -/
theorem confirm (hCons : Consistent c) (hOpen : f ∈ c.files)
    (hSlot : (c.requests i)[k]? = some (some r)) (hFile : r.file = some f) (seq : U16)
    (arrivedOn : Endpoint) : Consistent (c.confirm i k f r seq arrivedOn) := by
  have hBut := ((hCons.but f).free hSlot hFile).setFile
    (ackBatchEx (c.heap f) r.batchStart r.recordsInBatch).file
  have hCount := hCons.inflight_free hOpen hSlot hFile
  have hFreed : Consistent ((c.free i k).setFile f (ackBatchEx (c.heap f) r.batchStart
    r.recordsInBatch).file) := by
    apply hBut.close
    · exact fun _ _ => hOpen
    · intro _
      simp only [Ledger.setFile, update_self, ackBatchEx_inflight]
      exact hCount.symm
  cases hDone : (ackBatchEx (c.heap f) r.batchStart r.recordsInBatch).freed with
  | false =>
    simp only [Ledger.confirm, hDone]
    exact ⟨hFreed.live, hFreed.counted, hFreed.fresh⟩
  | true =>
    -- Nothing of the file is in flight, so it may go.
    have hFinish := maybeFinishFile_iff.mp (ackBatchEx_freed _ _ _ hDone)
    rw [ackBatchEx_inflight] at hFinish
    have hClosed := hFreed.quarantine (not_holds_of_inflight (hCount.trans hFinish.2))
    simp only [Ledger.confirm, hDone, if_true]
    exact ⟨hClosed.live, hClosed.counted, hClosed.fresh⟩

/- No other peer has requests for the files of the peer. -/
theorem abort (hCons : Consistent c)
    (hAlone : ∀ f ∈ heldFiles (c.requests i), ∀ j, j ≠ i → ¬ c.Holds j f) :
    Consistent (c.abort i) where
  live := by
    rintro j g ⟨r, hMem, hFile⟩
    exact hCons.live j g ⟨r, mem_drop hMem, hFile⟩
  counted := by
    intro g hOpen
    have hUpdate := inflight_update c.requests i (clearAll (fun _ => true) (c.requests i)) g
    have hEmpty : count (Peer.refersTo g) (clearAll (fun _ => true) (c.requests i)) = 0 := by
      apply Nat.eq_zero_of_not_pos
      rw [count_pos_iff]
      rintro ⟨r, hMem, _⟩
      cases (mem_clearAll.mp hMem).2
    have hCount := hCons.counted g hOpen
    simp only [Ledger.abort, Ledger.noteAll, Ledger.drop]
    by_cases hHeld : g ∈ heldFiles (c.requests i)
    · have hAll : inflight c.requests g = count (Peer.refersTo g) (c.requests i) := by
        apply sum_eq_single_of_mem i (mem_univ i)
        intro j _ hOther
        exact count_eq_zero (hAlone g hHeld j hOther)
      rw [if_pos hHeld]
      simp only [rewound, if_true, markPossiblyDup, nackBatch]
      omega
    · have hNone := count_eq_zero (mt mem_heldFiles.mpr hHeld)
      rw [if_neg hHeld]
      omega
  fresh := hCons.fresh

/- Every peer with batches in flight is kept. -/
theorem reload (hCons : Consistent c)
    (hOnce : ∀ i i' j, origin i = some j → origin i' = some j → i = i')
    (hKept : ∀ j f, c.Holds j f → ∃ i, origin i = some j) (socks : Slot → Option Endpoint) :
    Consistent (c.reload origin socks) where
  live := by
    rintro i g ⟨r, hMem, hFile⟩
    rcases mem_moved hMem with ⟨j, _, hOld⟩
    exact hCons.live j g ⟨r, hOld, hFile⟩
  counted := by
    intro g hOpen
    exact (hCons.counted g hOpen).trans (inflight_moved hOnce (fun j => hKept j g)).symm
  fresh := hCons.fresh

theorem restart (c : Ledger) (socks : Slot → Option Endpoint) : Consistent (c.restart socks) where
  live := by
    rintro i g ⟨r, hMem, _⟩
    simp [Ledger.restart, Ledger.reload, Ledger.moved] at hMem
  counted := nofun
  fresh := nofun

end Consistent

---- Runs ----

/-
  The action leaves no request behind: a file is closed with none in flight, rewound with none at
  another peer, and a reload keeps every peer that has some.
-/
def Action.Exclusive (action : Action) (c : Ledger) : Prop :=
  match action with
  | .quarantine f _ => ∀ i, ¬ c.Holds i f
  | .fail i f _ => ∀ j, j ≠ i → ¬ c.Holds j f
  | .refuse i _ f _ => ∀ j, j ≠ i → ¬ c.Holds j f
  | .rewind i f => ∀ j, j ≠ i → ¬ c.Holds j f
  | .abort i => ∀ f ∈ heldFiles (c.requests i), ∀ j, j ≠ i → ¬ c.Holds j f
  | .redial i _ => ∀ f ∈ heldFiles (c.requests i), ∀ j, j ≠ i → ¬ c.Holds j f
  | .reload origin _ => ∀ j, heldFiles (c.requests j) ≠ [] → ∃ i, origin i = some j
  | _ => True

instance (action : Action) (c : Ledger) : Decidable (action.Exclusive c) :=
  match action with
  | .quarantine f _ => inferInstanceAs (Decidable (∀ i, ¬ c.Holds i f))
  | .fail i f _ => inferInstanceAs (Decidable (∀ j, j ≠ i → ¬ c.Holds j f))
  | .refuse i _ f _ => inferInstanceAs (Decidable (∀ j, j ≠ i → ¬ c.Holds j f))
  | .rewind i f => inferInstanceAs (Decidable (∀ j, j ≠ i → ¬ c.Holds j f))
  | .abort i =>
    inferInstanceAs (Decidable (∀ f ∈ heldFiles (c.requests i), ∀ j, j ≠ i → ¬ c.Holds j f))
  | .redial i _ =>
    inferInstanceAs (Decidable (∀ f ∈ heldFiles (c.requests i), ∀ j, j ≠ i → ¬ c.Holds j f))
  | .reload origin _ =>
    inferInstanceAs (Decidable (∀ j, heldFiles (c.requests j) ≠ [] → ∃ i, origin i = some j))
  | .keep => isTrue trivial
  | .openFile _ => isTrue trivial
  | .stage _ _ => isTrue trivial
  | .send _ _ _ _ => isTrue trivial
  | .release _ _ => isTrue trivial
  | .free _ _ => isTrue trivial
  | .confirm _ _ _ _ _ _ => isTrue trivial
  | .dial _ _ => isTrue trivial
  | .restart _ => isTrue trivial

namespace Consistent

theorem blank (hBlank : c.Blank) : Consistent c where
  live := by
    rintro i g ⟨r, hMem, _⟩
    exact absurd hMem hBlank.not_mem
  counted := by simp [hBlank.2.1]
  fresh := by simp [hBlank.2.1]

/- What an exclusive action keeps. -/
theorem step {action : Action} (hCons : Consistent c) (hExclusive : action.Exclusive c)
    (hEnabled : action.Enabled c) : Consistent (action.apply c) := by
  cases action with
  | keep => exact hCons
  | openFile file =>
    rcases hEnabled with ⟨data, rfl⟩
    exact hCons.openFile data
  | stage f staged => exact hCons.stage hEnabled
  | quarantine f staged => exact (hCons.stage hEnabled).quarantine hExclusive
  | send i f staged r =>
    rcases hEnabled with ⟨hStages, hFree, hFile, _⟩
    exact (hCons.stage hStages).send hStages.1 hFree hFile
  | fail i f staged => exact ((hCons.stage hEnabled).but f).rewind hExclusive true
  | release i r => exact hCons.release hEnabled.1 hEnabled.2.1
  | free i k =>
    rcases hEnabled with ⟨r, hSlot, hRelease⟩
    exact hCons.freeRelease hSlot hRelease
  | confirm i k f r seq arrivedOn =>
    rcases hEnabled with ⟨hOpen, hSlot, hFile, _⟩
    exact hCons.confirm hOpen hSlot hFile seq arrivedOn
  | refuse i k f uncertain =>
    rcases hEnabled with ⟨_, r, hSlot, hFile⟩
    apply ((hCons.but f).free hSlot hFile).rewind
    rintro j hOther ⟨left, hMem, hLeft⟩
    exact hExclusive j hOther ⟨left, mem_free hMem, hLeft⟩
  | rewind i f => exact (hCons.but f).rewind hExclusive true
  | abort i => exact hCons.abort hExclusive
  | dial i sock => exact ⟨hCons.live, hCons.counted, hCons.fresh⟩
  | redial i sock =>
    have hAborted := hCons.abort hExclusive
    exact ⟨hAborted.live, hAborted.counted, hAborted.fresh⟩
  | reload origin socks =>
    apply hCons.reload hEnabled.1
    intro j f hHolds
    apply hExclusive j
    exact ne_nil_of_mem (mem_heldFiles.mpr hHolds)
  | restart socks => exact restart c socks

end Consistent

/- The steps of a run that take exclusive actions. -/
def ExclusiveSteps (kind : Kind) (s : Pipeline) (op : Op) : Prop :=
  (s.act kind op).Exclusive s.ledger

instance (kind : Kind) (s : Pipeline) (op : Op) : Decidable (ExclusiveSteps kind s op) :=
  inferInstanceAs (Decidable ((s.act kind op).Exclusive s.ledger))

theorem Peer.mem_requests {p : Peer} (hMem : some x ∈ p.xacts) : some x.toRequest ∈ p.requests :=
  List.mem_map_of_mem (f := Option.map Xact.toRequest) hMem

open Peer

theorem Peer.count_requests (p : Peer) (f : FileId) :
    count (refersTo f) p.requests = p.xacts.countP (fun slot =>
        slot.any (fun x => x.file == some f)) := by
  simp only [SlotTable.count, requests, countP_map]
  apply countP_congr
  intro slot _
  cases slot <;> rfl

/- Every active transaction is for an open file, and an open file counts the transactions for it. -/
theorem requests_match_open_files (kind : Kind) (s : Pipeline)
    (hReach : (cgfSystem kind).ReachableBy (ExclusiveSteps kind) s) :
    (∀ i x f, some x ∈ (s.peers i).xacts → x.file = some f → f ∈ s.files) ∧ ∀ f ∈ s.files,
      (s.heap f).inflightBatches = ∑ i, (s.peers i).xacts.countP (fun slot =>
          slot.any (fun x => x.file == some f)) := by
  have hCons : Consistent s.ledger := by
    apply ledger_invariant (fun c => Consistent.blank) ?_ hReach
    intro before op hPrior hExclusive hEnabled
    exact hPrior.step hExclusive hEnabled
  constructor
  · intro i x f hMem hFile
    exact hCons.live i f ⟨x.toRequest, mem_requests hMem, hFile⟩
  · intro f hOpen
    apply (hCons.counted f hOpen).trans
    apply sum_congr rfl
    intro i _
    exact count_requests (s.peers i) f

/- A file with a sound second record or with a torn one. -/
def spoolPairSteps (rest : List UInt8) : List Op :=
  [.spoolTick, sampleSpool (sampleFrame ++ rest), sampleWork, sampleWork, sampleWork]

/- Both records are in flight. -/
theorem requests_match_open_files_pair :
    ∃ s, (cgfSystem .main).run (sampleDrain .failover 4 1) (spoolPairSteps sampleFrame) = .ok s ∧
        s.files = [0] ∧ (s.heap 0).inflightBatches = 2 ∧ (∀ f ∈ s.files,
          (s.heap f).inflightBatches = ∑ i, (s.peers i).xacts.countP (fun slot =>
              slot.any (fun x => x.file == some f))) := by
  refine ⟨_, rfl, by decide, by decide, ?_⟩
  apply (requests_match_open_files .main _ _).2
  have hAllowed : (cgfSystem .main).AllowedRun (ExclusiveSteps .main)
    (sampleDrain .failover 4 1) (spoolPairSteps sampleFrame) := by
    decide
  exact .run (.init ⟨_, _, _, _, rfl⟩) hAllowed rfl

/- The file is closed over the request for its first record. -/
theorem request_outlives_its_file :
    ∃ s, (cgfSystem .main).Reachable s ∧ s.files = [] ∧ (s.peers 0).xacts.countP (fun slot =>
          slot.any (fun x => x.file == some 0)) = 1 := by
  have hRun : ∃ s, (cgfSystem .main).run (sampleDrain .failover 4 1) (spoolPairSteps [0]) = .ok s ∧
    s.files = [] ∧ (s.peers 0).xacts.countP (fun slot =>
      slot.any (fun x => x.file == some 0)) = 1 :=
    ⟨_, rfl, by decide, by decide⟩
  rcases hRun with ⟨s, hRun, hState⟩
  exact ⟨s, .run (.init ⟨_, _, _, _, rfl⟩) hRun, hState⟩

end Pretty5gs.Cgf
