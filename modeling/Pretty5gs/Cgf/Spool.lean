import Pretty5gs.Cdr.Framing

/-
  Spool files of the charging gateway.

  A file has two cursors: what the peer has confirmed and what was packed into batches. Batches are
  staged at the second cursor, committed once they are sent, and confirmed in any order at the first
  one.

  Main results: `drainPendingAcks_induct`.
-/

---- Spool Files ----

namespace Pretty5gs.Cgf

open Cdr

/- `CGF_MAX_INFLIGHT` -/
def maxInflight : Nat := 64

/- `cgf_spool_pending_ack_t` -/
structure PendingAck where
  batchStart : Nat
  records : Nat
deriving DecidableEq, Repr

/- `cgf_spool_file_t` without its path. -/
structure SpoolFile where
  data : List UInt8
  nextRecordOffset : Nat
  sendOffset : Nat
  pendingBatchStart : Nat
  pendingBatchRecords : Nat
  inflightBatches : Nat
  pendingAcks : List PendingAck
  sendPossiblyDup : Bool
deriving DecidableEq, Repr

/- A new handle on the octets of a file. -/
def SpoolFile.opened (data : List UInt8) : SpoolFile where
  data := data
  nextRecordOffset := 0
  sendOffset := 0
  pendingBatchStart := 0
  pendingBatchRecords := 0
  inflightBatches := 0
  pendingAcks := []
  sendPossiblyDup := false

/-
  `cgf_spool_open_path` on the octets that were read: a bad first header puts the file into
  quarantine.
-/
def openPath (data : List UInt8) : Option SpoolFile :=
  if data.length ≥ recordHdrLen ∧
      (data.take 4 ≠ fileMagic ∨
        data.getD 4 0 ≠ fileVersion ∨
        formatIsValid (data.getD 5 0) = false) then none
  else some (SpoolFile.opened data)

---- Staging And Committing ----

/- The locals of the staging loop. -/
structure Staged where
  n : Nat
  out : List UInt8
  off : Nat
deriving DecidableEq, Repr

/- The octets of a record on the wire. -/
def wireOctets (body : List UInt8) : List UInt8 := BigEndian.encode 2 body.length ++ body

/- The loop of `cgf_spool_stage_batch`. -/
def stageLoop (data : List UInt8) (outCap maxBytes : Nat) : Nat → Staged → Staged
| 0, staged => staged
| rounds + 1, staged =>
    match frameAt data staged.off with
    | none => staged
    | some body =>
        let framedLen := 2 + body.length
        let used := staged.out.length
        if used + framedLen > outCap then staged
        else if used + framedLen > maxBytes ∧ staged.n > 0 then staged
        else
          stageLoop data outCap maxBytes rounds
            { n := staged.n + 1
              out := staged.out ++ wireOctets body
              off := staged.off + recordHdrLen + body.length }

/- `cgf_spool_stage_batch`: the file, the number of records and the octets that were staged. -/
def stageBatch (file : SpoolFile) (outCap maxRecords maxBytes : Nat) :
    SpoolFile × Nat × List UInt8 :=
  let staged :=
    stageLoop file.data outCap maxBytes maxRecords
      ⟨0, [], file.sendOffset⟩
  ({ file with
      pendingBatchStart := file.sendOffset
      pendingBatchRecords := staged.n },
    staged.n, staged.out)

/- The octets of the batch buffer of the drain loops. -/
def batchSize : Nat := 4096

/-
  When the drain loops give a file up: nothing was staged, and not for the reason that all of it was
  sent.
-/
def quarantines (file : SpoolFile) (n : Nat) : Bool :=
  n == 0 && decide (file.sendOffset < file.data.length)

/- `offset_after_records` -/
def offsetAfterRecords (data : List UInt8) (start records : Nat) : Nat :=
  match records with
  | 0 => start
  | records + 1 =>
      if start + recordHdrLen > data.length then data.length
      else if start + recordHdrLen + recordLen data start >
          data.length then data.length
      else
        offsetAfterRecords data
          (start + recordHdrLen + recordLen data start) records

/- `cgf_spool_commit_send` -/
def commitSend (file : SpoolFile) (batchStart records : Nat) : SpoolFile :=
  { file with
    sendOffset := offsetAfterRecords file.data batchStart records
    pendingBatchRecords := 0
    inflightBatches := file.inflightBatches + 1 }

---- Acknowledgements ----

/- One round of `drain_pending_acks`, if it advances. -/
def drainOne (file : SpoolFile) : Option SpoolFile :=
  let matching := fun ack : PendingAck => ack.batchStart == file.nextRecordOffset
  match file.pendingAcks.find? matching with
  | none => none
  | some ack =>
      some
        { file with
          nextRecordOffset :=
            offsetAfterRecords file.data ack.batchStart
              ack.records
          pendingAcks := file.pendingAcks.eraseP matching }

/- Rounds of `drain_pending_acks` until none advances. -/
def drainRounds (file : SpoolFile) : Nat → SpoolFile
| 0 => file
| rounds + 1 =>
    match drainOne file with
    | none => file
    | some file => drainRounds file rounds

variable (file : SpoolFile)

/- `drain_pending_acks`. Each round that advances takes one entry from the buffer. -/
def drainPendingAcks : SpoolFile := drainRounds file file.pendingAcks.length

/- `maybe_finish_file`: the file is done and freed. -/
def maybeFinishFile : Bool :=
  decide (file.nextRecordOffset ≥ file.data.length) &&
    decide (file.inflightBatches = 0)

/- `pending_ack_exists` -/
def pendingAckExists (batchStart : Nat) : Bool := file.pendingAcks.any (·.batchStart == batchStart)

/- The flag goes once nothing is in flight. -/
def clearPossiblyDup : SpoolFile :=
  if file.inflightBatches = 0 then { file with sendPossiblyDup := false }
  else file

/- The result of `cgf_spool_ack_batch_ex`. -/
structure Acked where
  file : SpoolFile
  ok : Bool
  freed : Bool
deriving DecidableEq, Repr

variable (file : SpoolFile)

/- An acknowledgement that was taken into the file. -/
def Acked.done : Acked where
  file := file
  ok := true
  freed := maybeFinishFile file

/- `cgf_spool_ack_batch_ex` -/
def ackBatchEx (batchStart records : Nat) : Acked :=
  let file :=
    { file with
      pendingBatchRecords := 0
      inflightBatches := file.inflightBatches - 1 }
  if batchStart < file.nextRecordOffset then .done (clearPossiblyDup file)
  else if batchStart = file.nextRecordOffset then
    .done (clearPossiblyDup (drainPendingAcks
      { file with nextRecordOffset := offsetAfterRecords file.data batchStart records }))
  else if pendingAckExists file batchStart then .done file
  else if file.pendingAcks.length ≥ maxInflight then ⟨file, false, false⟩
  else
    .done
      { file with pendingAcks := file.pendingAcks ++ [⟨batchStart, records⟩] }

/- `cgf_spool_nack_batch` -/
def nackBatch : SpoolFile :=
  { file with
    sendOffset := file.nextRecordOffset
    pendingBatchRecords := 0
    inflightBatches := 0
    pendingAcks := [] }

/- `cgf_spool_mark_possibly_dup` -/
def markPossiblyDup : SpoolFile := { file with sendPossiblyDup := true }

---- The Frame Of The Operations ----

/- What one round of draining takes from the buffer. -/
theorem drainOne_some (file next : SpoolFile) (hDrain : drainOne file = some next) :
    ∃ ack ∈ file.pendingAcks, ack.batchStart = file.nextRecordOffset ∧
      next.pendingAcks ⊆ file.pendingAcks ∧
      next =
        { file with
          nextRecordOffset := offsetAfterRecords file.data ack.batchStart ack.records
          pendingAcks := next.pendingAcks } := by
  unfold drainOne at hDrain
  simp only at hDrain
  split at hDrain
  · contradiction
  · rename_i ack hFind
    cases hDrain
    refine ⟨ack, List.mem_of_find?_eq_some hFind, ?_, ?_, rfl⟩
    · simpa using List.find?_some hFind
    · exact List.eraseP_subset

/- Records are skipped forward, within the octets. -/
theorem offsetAfterRecords_bounds (records : Nat) (hStart : start ≤ data.length) :
    start ≤ offsetAfterRecords data start records ∧
      offsetAfterRecords data start records ≤ data.length := by
  induction records generalizing start with
  | zero => exact ⟨Nat.le_refl start, hStart⟩
  | succ records ih =>
    rw [offsetAfterRecords]
    split
    · exact ⟨hStart, Nat.le_refl _⟩
    · split
      · exact ⟨hStart, Nat.le_refl _⟩
      · rename_i hBody
        have hRest := ih (Nat.le_of_not_gt hBody)
        omega

/-
  What holds of a file and is kept by each buffered acknowledgement that is taken holds after
  draining.
-/
theorem drainPendingAcks_induct (P : SpoolFile → Prop)
    (hRound : ∀ file next, P file → drainOne file = some next → P next) (file : SpoolFile)
    (hStart : P file) : P (drainPendingAcks file) := by
  unfold drainPendingAcks
  generalize file.pendingAcks.length = rounds
  induction rounds generalizing file with
  | zero => exact hStart
  | succ rounds ih =>
    unfold drainRounds
    cases hDrain : drainOne file with
    | none => exact hStart
    | some next => exact ih next (hRound file next hStart hDrain)

variable (file : SpoolFile)

/- Draining moves the confirmed offset and the buffer only. -/
theorem drainPendingAcks_frame : ∃ next acks, drainPendingAcks file =
        { file with
          nextRecordOffset := next
          pendingAcks := acks } := by
  apply drainPendingAcks_induct (fun last =>
    ∃ next acks, last =
      { file with
        nextRecordOffset := next
        pendingAcks := acks })
  · rintro before last ⟨next, acks, rfl⟩ hDrain
    rcases drainOne_some _ last hDrain with ⟨ack, _, _, _, hLast⟩
    exact ⟨_, _, hLast⟩
  · exact ⟨_, _, rfl⟩

@[simp] theorem clearPossiblyDup_inflight :
    (clearPossiblyDup file).inflightBatches = file.inflightBatches := by
  unfold clearPossiblyDup
  split <;> rfl

@[simp] theorem drainPendingAcks_inflight :
    (drainPendingAcks file).inflightBatches = file.inflightBatches := by
  rcases drainPendingAcks_frame file with ⟨next, acks, hFrame⟩
  rw [hFrame]

/- An acknowledgement takes one batch off the counter. -/
theorem ackBatchEx_inflight :
    (ackBatchEx file batchStart records).file.inflightBatches = file.inflightBatches - 1 := by
  unfold ackBatchEx
  simp only
  split
  · simp [Acked.done]
  · split
    · simp [Acked.done]
    · split
      · rfl
      · split <;> rfl

theorem maybeFinishFile_iff {file : SpoolFile} :
    maybeFinishFile file = true ↔ file.data.length ≤ file.nextRecordOffset ∧
        file.inflightBatches = 0 := by
  simp [maybeFinishFile]

/- Only a finished file is freed. -/
theorem ackBatchEx_freed (file : SpoolFile) (batchStart records : Nat)
    (hFreed : (ackBatchEx file batchStart records).freed = true) :
    maybeFinishFile (ackBatchEx file batchStart records).file = true := by
  revert hFreed
  unfold ackBatchEx
  simp only
  split
  · exact id
  · split
    · exact id
    · split
      · exact id
      · split
        · exact nofun
        · exact id

end Pretty5gs.Cgf
