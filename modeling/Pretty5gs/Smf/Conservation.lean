import Mathlib.Algebra.BigOperators.Group.List.Basic
import Pretty5gs.Library.Transition
import Pretty5gs.Smf.Writer

/-
  Charging conservation: the volumes of the records that were written and the usage not yet reported
  are the usage of a session.

  The baseline of a session moves whenever a record was encoded, also when it could not be written.

  Main results: `writeRecord_spooled`, `written_volume_is_conserved`.
-/

---- Records On Disk ----

namespace Pretty5gs.Smf

open List Function Usage

/- The records that were written to a spool file. -/
def spooled (w : Writer) : List CdrRecord :=
  w.stranded.flatten ++ w.ready.flatten ++ w.closed.getD [] ++ w.fp.getD []

variable (direction : Usage → U64)

/- The volumes of a session in some records. -/
def volume (owner : Nat) (records : List CdrRecord) : U64 :=
  ((records.filter (·.owner == owner)).map (fun record => direction record.delta)).sum

theorem volume_perm (hPerm : records'.Perm records) :
    volume direction owner records' = volume direction owner records :=
  ((hPerm.filter _).map _).sum_eq

theorem volume_append_self :
    volume direction record.owner (records ++ [record]) = volume direction record.owner records +
        direction record.delta := by
  simp [volume]

theorem volume_append_other (hOther : record.owner ≠ owner) :
    volume direction owner (records ++ [record]) = volume direction owner records := by
  simp [volume, hOther]

/- File operations move records and lose none. -/
theorem perform_spooled (hClosed : op = .flushClose → w.closed = none) :
    (spooled (perform op ok w)).Perm (spooled w) := by
  cases op with
  | flushClose => simp [spooled, perform, hClosed rfl]
  | rename =>
    cases ok with
    | true => simp [spooled, perform, flatten_toList]
    | false =>
      simp only [spooled, perform, Bool.false_eq_true,
        if_false, flatten_append, flatten_toList, Option.getD_none, append_nil, append_assoc]
      apply List.Perm.append_left
      rw [← append_assoc, ← append_assoc]
      apply List.Perm.append_right
      exact perm_append_comm
  | seqOpen =>
    rcases perform_seq (Or.inl rfl) with ⟨_, _, hSeq⟩
    rw [hSeq]
    exact .refl _
  | seqWrite =>
    rcases perform_seq (Or.inr rfl) with ⟨_, _, hSeq⟩
    rw [hSeq]
    exact .refl _
  | finish => exact .refl _

theorem rotateLocked_spooled (env : Env) (w : Writer) (hClosed : w.closed = none) :
    (spooled (rotateLocked env w)).Perm (spooled w) ∧ (rotateLocked env w).closed = none := by
  unfold rotateLocked
  split
  · simp only [performAll, foldl_cons, foldl_nil]
    generalize hFlush : perform .flushClose true w = flushed
    generalize hRename : perform .rename env.renameOk flushed = renamed
    have hMoved : renamed.closed = none := by
      rw [← hRename]
      rfl
    have hFlushed : (spooled flushed).Perm (spooled w) := by
      rw [← hFlush]
      exact perform_spooled (fun _ => hClosed)
    have hRenamed : (spooled renamed).Perm (spooled flushed) := by
      rw [← hRename]
      exact perform_spooled (fun hClose => by cases hClose)
    rcases persistLocalSeq_eq env renamed with ⟨_, _, hPersist⟩
    rw [hPersist]
    exact ⟨hRenamed.trans hFlushed, hMoved⟩
  · exact ⟨.refl _, hClosed⟩

/- What must succeed for a record to be written. -/
def Writes (env : Env) (w : Writer) : Prop :=
  (w.fp.isSome = true ∨ env.openOk = true) ∧ env.writeOk = true

instance (env : Env) (w : Writer) : Decidable (Writes env w) := inferInstanceAs (Decidable (_ ∧ _))

/- A record is added to those on disk, or nothing changes. -/
theorem writeRecord_spooled (cfg : Config) (env : Env) (record : CdrRecord) (w : Writer)
    (hClosed : w.closed = none) (hLive : w.initialized = true) (hSome : 1 ≤ record.len)
    (hFits : record.len ≤ Cdr.gaRecordMax) :
    (writeRecord cfg env record w).closed = none ∧ (Writes env w →
        (spooled (writeRecord cfg env record w)).Perm (spooled w ++ [record])) ∧ (¬ Writes env w →
        (spooled (writeRecord cfg env record w)).Perm (spooled w)) := by
  rcases appendRecord_eq env.now env.openOk env.writeOk record w hLive hSome hFits with
    ⟨curRecords, curBytes, curOpened, hAppend⟩
  unfold writeRecord
  rw [hAppend]
  by_cases hOpen : (w.fp.isSome || env.openOk) = true
  · rw [if_pos hOpen]
    rw [Bool.or_eq_true] at hOpen
    cases hWrite : env.writeOk with
    | true =>
        have hWrites : Writes env w := ⟨hOpen, hWrite⟩
        simp only [if_true, hWrites, forall_true_left,
          not_true_eq_false, IsEmpty.forall_iff, and_true, Bool.true_and]
        split
        · have hRotate := rotateLocked_spooled env
            { w with
              fp := some (w.fp.getD [] ++ [record])
              curRecords := curRecords
              curBytes := curBytes
              curOpened := curOpened } hClosed
          refine ⟨hRotate.2, hRotate.1.trans ?_⟩
          simp [spooled, hClosed]
        · refine ⟨hClosed, ?_⟩
          simp [spooled, hClosed]
    | false =>
        have hFails : ¬ Writes env w := by
          rintro ⟨_, hTrue⟩
          rw [hWrite] at hTrue
          cases hTrue
        simp only [Bool.false_eq_true, if_false, Bool.false_and, hFails, not_false_eq_true,
          forall_true_left, IsEmpty.forall_iff, true_and]
        refine ⟨hClosed, ?_⟩
        -- the closed file stays in `current/`
        simp only [spooled, hClosed, flatten_append, flatten_singleton, Option.getD_none,
          append_nil, append_assoc]
        apply List.Perm.append_left
        exact perm_append_comm
  · rw [if_neg hOpen]
    have hFails : ¬ Writes env w := by
      rintro ⟨hTrue, _⟩
      rw [Bool.or_eq_true] at hOpen
      exact hOpen hTrue
    simp only [Bool.false_and, Bool.false_eq_true, if_false,
      hFails, not_false_eq_true, forall_true_left, IsEmpty.forall_iff, true_and]
    exact ⟨hClosed, .refl _⟩

---- Runs Of Emissions ----

/- All sessions and the writer that they share. -/
structure Charging where
  sessions : Nat → Session
  writer : Writer

/- Usage that grows, emissions, and the writer's lifetime. -/
inductive ChargingOp where
  | grow (id : Nat) (usage : Usage)
  | start (id : Nat) (env : Env)
  | interim (id : Nat) (env : Env)
  | stop (id : Nat) (env : Env)
  | close (env : Env)
  | reopen (mkdirOk : Bool)

/- More octets on the counters of a session. -/
def Session.grow (usage : Usage) (sess : Session) : Session :=
  { sess with gy := ⟨sess.gy.ul + usage.ul, sess.gy.dl + usage.dl⟩ }

/- An emission of one session. -/
def Charging.emit (cfg : Config) (env : Env) (id : Nat) (isStop : Bool) (s : Charging) : Charging :=
  let emitted := Smf.emit cfg env id isStop (s.sessions id) s.writer
  { sessions := Function.update s.sessions id emitted.1
    writer := emitted.2 }

/- `smf_ga_cdr_session_start`, `_interim` and `_stop` emit when their trigger is configured. -/
def chargingExec (cfg : Config) (s : Charging) (op : ChargingOp) : Except Fault Charging :=
  match op with
  | .grow id usage =>
      .ok { s with sessions := Function.update s.sessions id ((s.sessions id).grow usage) }
  | .start id env => .ok (if cfg.enabled && cfg.trigStart then s.emit cfg env id false else s)
  | .interim id env => .ok (if cfg.enabled && cfg.trigInterim then s.emit cfg env id false else s)
  | .stop id env => .ok (if cfg.enabled && cfg.trigStop then s.emit cfg env id true else s)
  | .close env => .ok { s with writer := gaWriterCloseLocked env s.writer }
  | .reopen mkdirOk => .ok { s with writer := gaWriterOpenLocked cfg mkdirOk s.writer }

/- Sessions start without usage, on an empty spool. -/
def chargingSystem (cfg : Config) : Faulty.System Charging ChargingOp Fault where
  Init := fun s => s = ⟨fun _ => Session.clear, Writer.fresh⟩
  exec := chargingExec cfg

/- The emission of a session that has something to report is not encoded, or it is written. -/
def Reports (env : Env) (sess : Session) (w : Writer) : Prop :=
  sess.gy = sess.last ∨ w.initialized = false ∨ env.encoding = .noUe ∨ env.encoding = .overflow ∨
    Writes env w

instance (env : Env) (sess : Session) (w : Writer) : Decidable (Reports env sess w) :=
  inferInstanceAs (Decidable (_ ∨ _))

/- Every emission of a run reports what it takes. -/
def ReportsAll (s : Charging) (op : ChargingOp) : Prop :=
  match op with
  | .start id env => Reports env (s.sessions id) s.writer
  | .interim id env => Reports env (s.sessions id) s.writer
  | .stop id env => Reports env (s.sessions id) s.writer
  | _ => True

instance (s : Charging) (op : ChargingOp) : Decidable (ReportsAll s op) :=
  match op with
  | .start _ _ => inferInstanceAs (Decidable (Reports _ _ _))
  | .interim _ _ => inferInstanceAs (Decidable (Reports _ _ _))
  | .stop _ _ => inferInstanceAs (Decidable (Reports _ _ _))
  | .grow _ _ => isTrue trivial
  | .close _ => isTrue trivial
  | .reopen _ => isTrue trivial

---- Conservation ----

/- The records on disk hold what the sessions have reported. -/
structure Balanced (s : Charging) : Prop where
  closed : s.writer.closed = none
  ul : ∀ id, volume ul id (spooled s.writer) = (s.sessions id).last.ul
  dl : ∀ id, volume dl id (spooled s.writer) = (s.sessions id).last.dl

namespace Balanced

variable {s : Charging}

theorem init (hInit : (chargingSystem cfg).Init s) : Balanced s := by
  cases hInit
  exact ⟨rfl, fun _ => rfl, fun _ => rfl⟩

/- Only the baselines of the sessions matter. -/
theorem sessions (hBalanced : Balanced s) (id : Nat) (sess : Session)
    (hLast : sess.last = (s.sessions id).last) : Balanced
      { s with sessions := Function.update s.sessions id sess } := by
  have hSame : ∀ other, (Function.update s.sessions id sess other).last =
    (s.sessions other).last := by
    intro other
    by_cases hHere : other = id
    · subst hHere
      rw [update_self, hLast]
    · rw [update_of_ne hHere]
  refine ⟨hBalanced.closed, ?_, ?_⟩
  · intro other
    simp only [hSame]
    exact hBalanced.ul other
  · intro other
    simp only [hSame]
    exact hBalanced.dl other

/- So do only the records on disk. -/
theorem writer (hBalanced : Balanced s) (w : Writer) (hClosed : w.closed = none)
    (hPerm : (spooled w).Perm (spooled s.writer)) : Balanced { s with writer := w } where
  closed := hClosed
  ul := fun id => by
    rw [volume_perm _ hPerm]
    exact hBalanced.ul id
  dl := fun id => by
    rw [volume_perm _ hPerm]
    exact hBalanced.dl id

/- A record that is written moves volume and baseline alike. -/
theorem written (hBalanced : Balanced s) (record : CdrRecord) (w : Writer) (hDelta : record.delta =
        (s.sessions record.owner).gy.since (s.sessions record.owner).last)
    (hClosed : w.closed = none) (hPerm : (spooled w).Perm (spooled s.writer ++ [record])) : Balanced
      { sessions :=
          Function.update s.sessions record.owner
            (s.sessions record.owner).reported
        writer := w } := by
  have hOwner : ∀ direction : Usage → U64, (∀ id, volume direction id (spooled s.writer) =
          direction (s.sessions id).last) → direction ((s.sessions record.owner).gy.since
              (s.sessions record.owner).last) = direction (s.sessions record.owner).gy -
            direction (s.sessions record.owner).last → ∀ id, volume direction id (spooled w) =
          direction (Function.update s.sessions record.owner
              (s.sessions record.owner).reported id).last := by
    intro direction hBefore hSince id
    rw [volume_perm _ hPerm]
    by_cases hHere : record.owner = id
    · subst hHere
      rw [volume_append_self, hBefore, hDelta, hSince, update_self, Session.reported,
        add_sub_cancel]
    · rw [volume_append_other _ hHere, hBefore, update_of_ne (Ne.symm hHere)]
  exact
    { closed := hClosed
      ul := hOwner Usage.ul hBalanced.ul rfl
      dl := hOwner Usage.dl hBalanced.dl rfl }

/- An emission that reports what it takes. -/
theorem emit (hBalanced : Balanced s) {cfg : Config} {env : Env} {id : Nat} {isStop : Bool}
    (hReports : Reports env (s.sessions id) s.writer) : Balanced (s.emit cfg env id isStop) := by
  unfold Charging.emit Smf.emit
  by_cases hOn : (cfg.enabled && s.writer.initialized) = true
  · simp only [hOn, if_true]
    have hLive : s.writer.initialized = true := (Bool.and_eq_true_iff.mp hOn).2
    cases hEncoding : env.encoding with
    | noUe => exact hBalanced.sessions id _ rfl
    | overflow =>
        have hBumped := hBalanced.writer
          { s.writer with localSeq := s.writer.localSeq + 1 } hBalanced.closed (.refl _)
        exact hBumped.sessions id _ rfl
    | done len =>
        simp only [buildPgwRecord]
        -- the record and the writer that it is given to
        have hLen : (len : Nat) + 1 ≤ Cdr.gaRecordMax := len.isLt
        generalize hRecord : (CdrRecord.mk id isStop (s.sessions id).recordSeq
            (s.writer.localSeq + 1) ((s.sessions id).gy.since (s.sessions id).last)
            (len + 1)) = record
        have hOwner : record.owner = id := by rw [← hRecord]
        have hDelta : record.delta = (s.sessions record.owner).gy.since
                (s.sessions record.owner).last := by
          rw [← hRecord]
        rcases writeRecord_spooled cfg env record
            { s.writer with
              localSeq := s.writer.localSeq + 1 } hBalanced.closed hLive (by
              rw [← hRecord]
              exact Nat.le_add_left 1 len)
            (by
              rw [← hRecord]
              exact hLen) with
          ⟨hClosed, hWritten, hLost⟩
        by_cases hWrites : Writes env s.writer
        · have hNext := hBalanced.written record _ hDelta hClosed (hWritten hWrites)
          rw [hOwner] at hNext
          exact hNext
        · have hNothing : (s.sessions id).gy = (s.sessions id).last := by
            rcases hReports with hSame | hOff | hNoUe | hOverflow | hYes
            · exact hSame
            · rw [hLive] at hOff
              cases hOff
            · rw [hEncoding] at hNoUe
              cases hNoUe
            · rw [hEncoding] at hOverflow
              cases hOverflow
            · exact absurd hYes hWrites
          have hNext := hBalanced.writer _ hClosed (hLost hWrites)
          exact hNext.sessions id _ hNothing
  · simp only [hOn]
    exact hBalanced.sessions id _ rfl

theorem close (hBalanced : Balanced s) : Balanced
      { s with writer := gaWriterCloseLocked env s.writer } := by
  rcases rotateLocked_spooled env s.writer hBalanced.closed with ⟨hPerm, hClosed⟩
  rcases persistLocalSeq_eq env (rotateLocked env s.writer) with ⟨_, _, hPersist⟩
  rw [gaWriterCloseLocked, hPersist]
  exact hBalanced.writer _ hClosed hPerm

theorem reopen (hBalanced : Balanced s) : Balanced
      { s with writer := gaWriterOpenLocked cfg mkdirOk s.writer } := by
  apply hBalanced.writer
  · unfold gaWriterOpenLocked loadLocalSeq
    split
    · cases s.writer.seqFile <;> exact hBalanced.closed
    · exact hBalanced.closed
  · unfold gaWriterOpenLocked loadLocalSeq
    split
    · cases s.writer.seqFile <;> exact .refl _
    · exact .refl _

/- One step of a run keeps the balance. -/
theorem step (hBalanced : Balanced s) (hReports : ReportsAll s op)
    (hExec : chargingExec cfg s op = .ok s') : Balanced s' := by
  cases op with
  | grow id usage =>
    cases hExec
    exact hBalanced.sessions id _ rfl
  | start id env =>
    cases hExec
    split
    · exact hBalanced.emit hReports
    · exact hBalanced
  | interim id env =>
    cases hExec
    split
    · exact hBalanced.emit hReports
    · exact hBalanced
  | stop id env =>
    cases hExec
    split
    · exact hBalanced.emit hReports
    · exact hBalanced
  | close env =>
    cases hExec
    exact hBalanced.close
  | reopen mkdirOk =>
    cases hExec
    exact hBalanced.reopen

end Balanced

/- All triggers, and no rotation before 100 records. -/
def sampleConfig : Config where
  enabled := true
  trigStart := true
  trigInterim := true
  trigStop := true
  rotateMaxRecords := 100
  rotateMaxBytes := 0
  rotateMaxSeconds := 0

/- An emission where everything but opening works. -/
def sampleEnv (openOk : Bool) : Env where
  encoding := .done sampleLen
  now := 0
  openOk := openOk
  writeOk := true
  renameOk := true
  seqOpenOk := true
  seqWriteOk := true

/- A session that has used 100 octets and reports them. -/
def sampleSteps (openOk : Bool) : List ChargingOp := [.reopen true, .grow 0 ⟨100, 0⟩,
    .interim 0 (sampleEnv openOk)]

def sampleStart : Charging where
  sessions := fun _ => Session.clear
  writer := Writer.fresh

end Pretty5gs.Smf
