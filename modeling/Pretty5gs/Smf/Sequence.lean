import Mathlib
import Pretty5gs.Library.Transition
import Pretty5gs.Smf.Writer

/-
  The local sequence numbers of charging records over crashes and restarts of the session manager.

  A run interleaves emissions, the file operations that they leave to do, and crashes. A new process
  reads its counter from `.seq`, which is rewritten after the files of a rotation are renamed into
  `ready/`.

  Main results: `beginEmit_performAll`, `Numbered.step`, `ready_numbers_are_unique`.
-/

---- Emissions Up To Their Rotation ----

namespace Pretty5gs.Smf

open List Bool Option

/- The end of `write_record`, up to the first operation. -/
def beginRotate (cfg : Config) (now : Int) (w : Writer) (written : Bool) : Writer × List FileOp :=
  if written && shouldRotate cfg now w && w.fp.isSome then (w, rotateOps)
  else (w, [])

/- `emit` up to `rotate_locked`, and what is left to do. -/
def beginEmit (cfg : Config) (env : Env) (owner : Nat) (isStop : Bool) (sess : Session)
    (w : Writer) : Writer × List FileOp :=
  if cfg.enabled && w.initialized then
    let built := buildPgwRecord env.encoding owner isStop sess w
    match built.2 with
    | none => (built.1, [])
    | some record =>
        let appended := appendRecord env.now env.openOk env.writeOk record built.1
        beginRotate cfg env.now appended.1 appended.2
  else (w, [])

/- Without a crash, this is the emission as a whole. -/
theorem beginEmit_performAll :
    performAll ((beginEmit cfg env owner isStop sess w).2.zip
          [true, env.renameOk, env.seqOpenOk, env.seqWriteOk])
        (beginEmit cfg env owner isStop sess w).1 = (emit cfg env owner isStop sess w).2 := by
  unfold beginEmit emit
  split
  · cases hBuilt : (buildPgwRecord env.encoding owner isStop sess w).2 with
    | none => simp [performAll, hBuilt]
    | some record =>
      simp only [hBuilt, writeRecord, rotateLocked, beginRotate]
      generalize appendRecord env.now env.openOk env.writeOk record
        (buildPgwRecord env.encoding owner isStop sess w).1 = appended
      by_cases hRotate : (appended.2 && shouldRotate cfg env.now appended.1) = true
      · cases hFp : appended.1.fp.isSome with
        | true => simp [hRotate, performAll, rotateOps, persistOps, persistLocalSeq]
        | false => simp [hRotate, performAll]
      · simp [hRotate, performAll]
  · rfl

---- Runs With Crashes ----

/- The writer and the file operations that it is in. -/
structure WriterRun where
  writer : Writer
  todo : List FileOp
deriving DecidableEq, Repr

/-
  What happens to the writer. The configuration may change at runtime, and what a crash leaves in
  `current/` depends on the buffers of libc.
-/
inductive SequenceOp where
  | emit (cfg : Config) (env : Env) (owner : Nat) (isStop : Bool) (sess : Session)
  | work (ok : Bool)
  | close
  | «open» (cfg : Config) (mkdirOk : Bool)
  | crash (left : List (List CdrRecord))

/- The writer of the next process on the spool. -/
def Writer.restart (left : List (List CdrRecord)) (w : Writer) : Writer :=
  { Writer.fresh with
    ready := w.ready
    stranded := left
    seqFile := w.seqFile }

/-
  The lock of the writer is held until all file operations of a call are done; a crash may come
  before any of them.
-/
def sequenceExec (s : WriterRun) (op : SequenceOp) : Except Fault WriterRun :=
  match op, s.todo with
  | .emit cfg env owner isStop sess, [] =>
      let begun := beginEmit cfg env owner isStop sess s.writer
      .ok { writer := begun.1, todo := begun.2 }
  | .work ok, fileOp :: rest => .ok { writer := perform fileOp ok s.writer, todo := rest }
  | .close, [] => .ok { s with todo := closeOps s.writer }
  | .open cfg mkdirOk, [] =>
      if s.writer.initialized then .ok s
      else .ok { s with writer := gaWriterOpenLocked cfg mkdirOk s.writer }
  | .crash left, _ => .ok { writer := s.writer.restart left, todo := [] }
  | _, _ => .ok s

/- The first process starts on an empty spool. -/
def sequenceSystem : Faulty.System WriterRun SequenceOp Fault where
  Init := fun s => s = ⟨Writer.fresh, []⟩
  exec := sequenceExec

/-
  No record in `ready/` has a number above the one in `.seq`, or above the counter of the process if
  there is none.
-/
def Covered (w : Writer) : Prop := ∀ record ∈ w.ready.flatten, record.localSeq.toNat ≤
      match w.seqFile with
      | .value v => v.toNat
      | .absent => w.localSeq.toNat
      | .truncated => w.localSeq.toNat

instance (w : Writer) : Decidable (Covered w) := inferInstanceAs (Decidable (∀ _ ∈ _, _))

/- The writer is opened on a covered spool only, and the counter does not wrap around. -/
def CoveredOpens (s : WriterRun) (op : SequenceOp) : Prop :=
  match op with
  | .emit _ _ _ _ _ => s.writer.localSeq.toNat + 1 < 2 ^ 32
  | .open _ _ => Covered s.writer
  | _ => True

instance (s : WriterRun) (op : SequenceOp) : Decidable (CoveredOpens s op) :=
  match op with
  | .emit _ _ _ _ _ => inferInstanceAs (Decidable (_ < _))
  | .open _ _ => inferInstanceAs (Decidable (Covered _))
  | .work _ => isTrue trivial
  | .close => isTrue trivial
  | .crash _ => isTrue trivial

---- Numbers ----

/- The records that are in `ready/` or may still get there. -/
def promotable (w : Writer) : List CdrRecord := w.ready.flatten ++ w.closed.getD [] ++ w.fp.getD []

/- Numbers that differ and do not exceed the counter. -/
structure Unique (bound : Nat) (records : List CdrRecord) : Prop where
  nodup : (records.map CdrRecord.localSeq).Nodup
  below : ∀ record ∈ records, record.localSeq.toNat ≤ bound

namespace Unique

variable {bound : Nat} {records records' : List CdrRecord}

theorem mono (hUnique : Unique bound records) (hSub : records'.Sublist records)
    (hBound : bound ≤ bound') : Unique bound' records' where
  nodup := hUnique.nodup.sublist (hSub.map _)
  below := fun record hMem => (hUnique.below record (hSub.subset hMem)).trans hBound

/- A record with the next number. -/
theorem append (hUnique : Unique bound records) (hNext : record.localSeq.toNat = bound + 1) :
    Unique (bound + 1) (records ++ [record]) where
  nodup := by
    rw [map_append, nodup_append]
    refine ⟨hUnique.nodup, nodup_singleton _, ?_⟩
    intro number hOld number' hNew hSame
    rcases List.mem_map.mp hOld with ⟨older, hMem, rfl⟩
    have hBelow := hUnique.below older hMem
    rw [map_singleton, mem_singleton] at hNew
    rw [hSame, hNew] at hBelow
    omega
  below := by
    intro other hMem
    rw [mem_append, mem_singleton] at hMem
    rcases hMem with hMem | rfl
    · exact (hUnique.below other hMem).trans (Nat.le_succ _)
    · exact hNext.le

end Unique

/-
  The operations left to do have renamed or given up the open file when the writer is marked closed,
  and at their end no file waits for its name.
-/
def Empties (todo : List FileOp) (fp closed : Bool) : Prop :=
  match todo with
  | [] => closed = false
  | .flushClose :: rest => Empties rest false fp
  | .rename :: rest => Empties rest fp false
  | .seqOpen :: rest => Empties rest fp closed
  | .seqWrite :: rest => Empties rest fp closed
  | .finish :: rest => fp = false ∧ closed = false ∧ Empties rest fp closed

theorem empties_rotateOps : Empties rotateOps fp closed := rfl

theorem empties_closeOps (hClosed : w.closed = none) :
    Empties (closeOps w) w.fp.isSome w.closed.isSome := by
  unfold closeOps
  rw [hClosed]
  cases w.fp with
  | none => exact ⟨rfl, rfl, rfl⟩
  | some file => exact ⟨rfl, rfl, rfl⟩

/- The numbers of a run, and the files of a closed writer. -/
structure Numbered (s : WriterRun) : Prop where
  nodup : ((promotable s.writer).map CdrRecord.localSeq).Nodup
  below : s.writer.initialized = true → ∀ record ∈ promotable s.writer,
        record.localSeq.toNat ≤ s.writer.localSeq.toNat
  idle : s.writer.initialized = false → s.writer.fp = none ∧ s.writer.closed = none
  empties : Empties s.todo s.writer.fp.isSome s.writer.closed.isSome

namespace Numbered

variable {s : WriterRun}

theorem init (hInit : sequenceSystem.Init s) : Numbered s := by
  cases hInit
  exact ⟨nodup_nil, nofun, fun _ => ⟨rfl, rfl⟩, rfl⟩

theorem unique (hNumbered : Numbered s) (hLive : s.writer.initialized = true) :
    Unique s.writer.localSeq.toNat (promotable s.writer) := ⟨hNumbered.nodup, hNumbered.below hLive⟩

/- An open writer whose numbers are unique. -/
theorem of_unique (hLive : s.writer.initialized = true)
    (hUnique : Unique s.writer.localSeq.toNat (promotable s.writer))
    (hEmpties : Empties s.todo s.writer.fp.isSome s.writer.closed.isSome) : Numbered s where
  nodup := hUnique.nodup
  below := fun _ => hUnique.below
  idle := fun hOff => by
    rw [hLive] at hOff
    cases hOff
  empties := hEmpties

/- File operations give no new numbers. -/
theorem perform_promotable (fileOp : FileOp) (ok : Bool) (w : Writer) :
    (promotable (perform fileOp ok w)).Sublist (promotable w) := by
  cases fileOp with
  | flushClose =>
    simp only [promotable, perform, getD_none, append_nil]
    exact (sublist_append_left _ _).append (.refl _)
  | rename =>
    cases ok with
    | true => simp [promotable, perform, flatten_toList]
    | false =>
      simp only [promotable, perform, false_eq_true, if_false, getD_none, append_nil]
      exact (sublist_append_left _ _).append (.refl _)
  | seqOpen =>
    rcases perform_seq (Or.inl rfl) with ⟨_, _, hSeq⟩
    rw [hSeq]
    exact .refl _
  | seqWrite =>
    rcases perform_seq (Or.inr rfl) with ⟨_, _, hSeq⟩
    rw [hSeq]
    exact .refl _
  | finish => exact .refl _

/- They keep the counter, and none opens the writer. -/
theorem perform_counter :
    (perform fileOp ok w).localSeq = w.localSeq ∧ ((perform fileOp ok w).initialized = true →
        w.initialized = true) := by
  cases fileOp with
  | flushClose => exact ⟨rfl, id⟩
  | rename => exact ⟨rfl, id⟩
  | seqOpen =>
    rcases perform_seq (Or.inl rfl) with ⟨_, _, hSeq⟩
    rw [hSeq]
    exact ⟨rfl, id⟩
  | seqWrite =>
    rcases perform_seq (Or.inr rfl) with ⟨_, _, hSeq⟩
    rw [hSeq]
    exact ⟨rfl, id⟩
  | finish => exact ⟨rfl, nofun⟩

/- The files after an operation that was left to do. -/
theorem perform_files (hIdle : w.initialized = false → w.fp = none ∧ w.closed = none)
    (hEmpties : Empties (fileOp :: rest) w.fp.isSome w.closed.isSome) :
    ((perform fileOp ok w).initialized = false → (perform fileOp ok w).fp = none ∧
          (perform fileOp ok w).closed = none) ∧ Empties rest (perform fileOp ok w).fp.isSome
        (perform fileOp ok w).closed.isSome := by
  cases fileOp with
  | flushClose => exact ⟨fun hOff => ⟨rfl, (hIdle hOff).1⟩, hEmpties⟩
  | rename => exact ⟨fun hOff => ⟨(hIdle hOff).1, rfl⟩, hEmpties⟩
  | seqOpen =>
    rcases perform_seq (Or.inl rfl) with ⟨_, _, hSeq⟩
    rw [hSeq]
    exact ⟨hIdle, hEmpties⟩
  | seqWrite =>
    rcases perform_seq (Or.inr rfl) with ⟨_, _, hSeq⟩
    rw [hSeq]
    exact ⟨hIdle, hEmpties⟩
  | finish =>
    rcases hEmpties with ⟨hFp, hClosed, hRest⟩
    refine ⟨fun _ => ⟨?_, ?_⟩, hRest⟩
    · exact not_isSome_iff_eq_none.mp (ne_true_of_eq_false hFp)
    · exact not_isSome_iff_eq_none.mp (ne_true_of_eq_false hClosed)

theorem work (hNumbered : Numbered s) (hTodo : s.todo = fileOp :: rest) :
    Numbered { writer := perform fileOp ok s.writer, todo := rest } := by
  have hSub := perform_promotable fileOp ok s.writer
  have hEmpties := hNumbered.empties
  rw [hTodo] at hEmpties
  rcases perform_files hNumbered.idle hEmpties with ⟨hIdle, hRest⟩
  refine ⟨hNumbered.nodup.sublist (hSub.map _), ?_, hIdle, hRest⟩
  intro hLive record hMem
  rcases perform_counter with ⟨hSeq, hBefore⟩
  rw [hSeq]
  exact hNumbered.below (hBefore hLive) record (hSub.subset hMem)

theorem close (hNumbered : Numbered s) (hTodo : s.todo = []) :
    Numbered { s with todo := closeOps s.writer } := by
  have hEmpties := hNumbered.empties
  rw [hTodo] at hEmpties
  have hClosed : s.writer.closed = none := not_isSome_iff_eq_none.mp (ne_true_of_eq_false hEmpties)
  exact
    { nodup := hNumbered.nodup
      below := hNumbered.below
      idle := hNumbered.idle
      empties := empties_closeOps hClosed }

/- The counter that is loaded from a covered spool. -/
theorem loadLocalSeq_covered (hCovered : Covered w) : ∃ v,
      loadLocalSeq w = { w with localSeq := v } ∧ ∀ record ∈ w.ready.flatten,
          record.localSeq.toNat ≤ v.toNat := by
  unfold Covered at hCovered
  unfold loadLocalSeq
  split
  case h_1 v hSeq =>
    rw [hSeq] at hCovered
    exact ⟨v, rfl, hCovered⟩
  case h_2 hSeq =>
    rw [hSeq] at hCovered
    exact ⟨w.localSeq, rfl, hCovered⟩
  case h_3 hSeq =>
    rw [hSeq] at hCovered
    exact ⟨w.localSeq, rfl, hCovered⟩

/- A writer that is opened on a covered spool. -/
theorem «open» (hNumbered : Numbered s) (hCovered : Covered s.writer)
    (hOff : s.writer.initialized = false) : Numbered
      { s with writer := gaWriterOpenLocked cfg mkdirOk s.writer } := by
  rcases hNumbered.idle hOff with ⟨hFp, hClosed⟩
  rcases loadLocalSeq_covered hCovered with ⟨v, hLoad, hBelow⟩
  unfold gaWriterOpenLocked
  rw [hLoad]
  split
  · refine of_unique rfl ⟨hNumbered.nodup, ?_⟩ hNumbered.empties
    simpa [promotable, hFp, hClosed] using hBelow
  · exact hNumbered

theorem crash (hNumbered : Numbered s) :
    Numbered { writer := s.writer.restart left, todo := [] } where
  nodup := by
    refine hNumbered.nodup.sublist (List.Sublist.map _ ?_)
    simp only [promotable, Writer.restart, Writer.fresh, getD_none, append_nil, append_assoc]
    exact sublist_append_left _ _
  below := nofun
  idle := fun _ => ⟨rfl, rfl⟩
  empties := rfl

/- A record that is written, or given up with its file. -/
theorem append (now : Int) (openOk writeOk : Bool) (record : CdrRecord) (w : Writer)
    (hUnique : Unique w.localSeq.toNat (promotable w)) (hLive : w.initialized = true)
    (hSome : 1 ≤ record.len) (hFits : record.len ≤ Cdr.gaRecordMax)
    (hNext : record.localSeq = w.localSeq + 1) (hBound : w.localSeq.toNat + 1 < 2 ^ 32) (hAppend : w' = (appendRecord now openOk writeOk record
          { w with localSeq := w.localSeq + 1 }).1) : w'.initialized = true ∧ w'.closed = w.closed ∧
      Unique w'.localSeq.toNat (promotable w') := by
  have hSucc : (w.localSeq + 1).toNat = w.localSeq.toNat + 1 := by exact Nat.mod_eq_of_lt hBound
  rcases appendRecord_eq now openOk writeOk record
    { w with localSeq := w.localSeq + 1 } hLive hSome hFits with ⟨_, _, _, hEq⟩
  rw [hEq] at hAppend
  split at hAppend
  · split at hAppend
    · subst hAppend
      refine ⟨hLive, rfl, ?_⟩
      simp only [promotable, getD_some, hSucc]
      rw [← append_assoc]
      apply hUnique.append
      rw [hNext, hSucc]
    · subst hAppend
      refine ⟨hLive, rfl, ?_⟩
      apply hUnique.mono _ (hSucc.symm ▸ Nat.le_succ _)
      simp only [promotable, getD_none, append_nil]
      exact sublist_append_left _ _
  · subst hAppend
    refine ⟨hLive, rfl, ?_⟩
    exact hUnique.mono (.refl _) (hSucc.symm ▸ Nat.le_succ _)

theorem rotate (hLive : w.initialized = true)
    (hUnique : Unique w.localSeq.toNat (promotable w)) (hClosed : w.closed.isSome = false) : Numbered
      { writer := (beginRotate cfg now w written).1
        todo := (beginRotate cfg now w written).2 } := by
  by_cases hRotate : (written && shouldRotate cfg now w && w.fp.isSome) = true
  · simp only [beginRotate, hRotate, if_true]
    exact of_unique hLive hUnique empties_rotateOps
  · simp only [beginRotate, hRotate]
    exact of_unique hLive hUnique hClosed

theorem emit (hNumbered : Numbered s) (hTodo : s.todo = []) (hBound : s.writer.localSeq.toNat + 1 < 2 ^ 32) : Numbered
      { writer :=
          (beginEmit cfg env owner isStop sess s.writer).1
        todo :=
          (beginEmit cfg env owner isStop sess s.writer).2 } := by
  have hEmpties := hNumbered.empties
  rw [hTodo] at hEmpties
  unfold beginEmit
  by_cases hOn : (cfg.enabled && s.writer.initialized) = true
  · simp only [hOn, if_true]
    have hLive : s.writer.initialized = true := (and_eq_true_iff.mp hOn).2
    have hUnique := hNumbered.unique hLive
    cases hEncoding : env.encoding with
    | noUe => exact of_unique hLive hUnique hEmpties
    | overflow =>
        have hSucc : (s.writer.localSeq + 1).toNat = s.writer.localSeq.toNat + 1 := by
          exact Nat.mod_eq_of_lt hBound
        refine of_unique hLive ?_ hEmpties
        exact hUnique.mono (.refl _) (hSucc.symm ▸ Nat.le_succ _)
    | done len =>
        simp only [buildPgwRecord]
        generalize hRecord : (CdrRecord.mk owner isStop sess.recordSeq
            (s.writer.localSeq + 1) (sess.gy.since sess.last) (len + 1)) = record
        have hAppend := append env.now env.openOk env.writeOk record s.writer hUnique hLive (by
            rw [← hRecord]
            exact Nat.le_add_left 1 len)
          (by
            rw [← hRecord]
            exact len.isLt)
          (by rw [← hRecord]) hBound rfl
        rcases hAppend with ⟨hOpen, hClosed, hNext⟩
        apply rotate hOpen hNext
        rw [hClosed]
        exact hEmpties
  · simp only [hOn]
    exact
      { nodup := hNumbered.nodup
        below := hNumbered.below
        idle := hNumbered.idle
        empties := hEmpties }

/- One step of a run keeps the numbers unique. -/
theorem step (hNumbered : Numbered s) (hCovered : CoveredOpens s op)
    (hExec : sequenceExec s op = .ok s') : Numbered s' := by
  unfold sequenceExec at hExec
  split at hExec
  case h_1 cfg env owner isStop sess hTodo =>
    cases hExec
    exact hNumbered.emit hTodo hCovered
  case h_2 ok fileOp rest hTodo =>
    cases hExec
    exact hNumbered.work hTodo
  case h_3 hTodo =>
    cases hExec
    exact hNumbered.close hTodo
  case h_4 cfg mkdirOk hTodo =>
    split at hExec
    · cases hExec
      exact hNumbered
    case isFalse hOff =>
      cases hExec
      exact hNumbered.open hCovered (eq_false_of_ne_true hOff)
  case h_5 =>
    cases hExec
    exact hNumbered.crash
  case h_6 =>
    cases hExec
    exact hNumbered

end Numbered

/-
  In a run that opens the writer on covered spools only, the records in `ready/` have different
  numbers.
-/
theorem ready_numbers_are_unique (s : WriterRun)
    (hReach : sequenceSystem.ReachableBy CoveredOpens s) :
    (s.writer.ready.flatten.map CdrRecord.localSeq).Nodup := by
  have hNumbered : Numbered s := by
    apply hReach.invariant
    · intro start hInit
      exact Numbered.init hInit
    · intro before op after _ hPrior hCovered hExec
      exact hPrior.step hCovered hExec
  refine hNumbered.nodup.sublist (List.Sublist.map _ ?_)
  unfold promotable
  rw [append_assoc]
  exact sublist_append_left _ _

/- Every record fills its file. -/
def sequenceConfig : Config where
  enabled := true
  trigStart := true
  trigInterim := true
  trigStop := true
  rotateMaxRecords := 1
  rotateMaxBytes := 0
  rotateMaxSeconds := 0

/- The emission of a record of 100 octets. -/
def sequenceEmit : SequenceOp := .emit sequenceConfig
    { encoding := .done sampleLen
      now := 0
      openOk := true
      writeOk := true
      renameOk := true
      seqOpenOk := true
      seqWriteOk := true } 0 false Session.clear

/-
  Two processes rotate a record each; the first one crashes after so many file operations of its
  rotation.
-/
def sequenceSteps (done : Nat) : List SequenceOp := [.open sequenceConfig true, sequenceEmit] ++
    List.replicate done (.work true) ++ [.crash [], .open sequenceConfig true, sequenceEmit,
      .work true, .work true]

theorem ready_numbers_are_unique_restart :
    ∃ s, sequenceSystem.run ⟨Writer.fresh, []⟩ (sequenceSteps 4) = .ok s ∧
        s.writer.ready.flatten.map CdrRecord.localSeq = [1, 2] ∧ (s.writer.ready.flatten.map
          CdrRecord.localSeq).Nodup := by
  refine ⟨_, rfl, by decide, ?_⟩
  apply ready_numbers_are_unique
  have hAllowed : sequenceSystem.AllowedRun CoveredOpens
    ⟨Writer.fresh, []⟩ (sequenceSteps 4) := by decide
  exact .run (.init rfl) hAllowed rfl

/- The crash after the rename and before `.seq` is written. -/
theorem ready_numbers_are_reused :
    ∃ s, sequenceSystem.run ⟨Writer.fresh, []⟩ (sequenceSteps 2) = .ok s ∧
        s.writer.ready.flatten.map CdrRecord.localSeq = [1, 1] := by
  exact ⟨_, rfl, by decide⟩

end Pretty5gs.Smf
