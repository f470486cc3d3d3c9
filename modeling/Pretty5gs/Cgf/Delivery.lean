import Pretty5gs.Cgf.Spool
import Pretty5gs.Library.Transition

/-
  Delivery of the records of one spool file.

  On a file of framed records every cursor that the operations compute is a record boundary. A run
  stages, commits, confirms and rewinds batches in any order; what it has confirmed is a prefix of
  the records of the file.

  Main results: `writable_record_is_staged`, `delivered_records_are_acknowledged`.
-/

---- Offsets On Record Boundaries ----

namespace Pretty5gs.Cgf

open Cdr List

variable {records : List Record}

theorem offsetAfterRecords_boundary (hLe : k + n ≤ records.length) :
    offsetAfterRecords (spoolData records) (boundary records k) n = boundary records (k + n) := by
  induction n generalizing k with
  | zero => rfl
  | succ n ih =>
    have hLt : k < records.length := by omega
    have hNext : records[k]? = some records[k] := List.getElem?_eq_getElem hLt
    have hLen := recordLen_boundary records k _ hNext
    have hSucc := boundary_succ records k _ hNext
    have hEnd := boundary_le_length records (k + 1)
    unfold offsetAfterRecords
    rw [hLen, if_neg (by omega), if_neg (by omega), ← hSucc, ih (by omega)]
    congr 1
    omega

/- The octets of some records on the wire. -/
def wireData (records : List Record) : List UInt8 := records.flatMap Record.wire

/- Staging takes the next records of the file, one by one. -/
theorem stageLoop_boundary (outCap maxBytes rounds k n : Nat) (out : List UInt8)
    (hLe : k ≤ records.length) :
    ∃ m, k + m ≤ records.length ∧ stageLoop (spoolData records) outCap maxBytes rounds
          ⟨n, out, boundary records k⟩ = ⟨n + m, out ++ wireData ((records.drop k).take m),
          boundary records (k + m)⟩ := by
  induction rounds generalizing k n out with
  | zero =>
    refine ⟨0, hLe, ?_⟩
    simp [stageLoop, wireData]
  | succ rounds ih =>
    have hStop : ∃ m, k + m ≤ records.length ∧ (⟨n, out, boundary records k⟩ : Staged) = ⟨n + m,
      out ++ wireData ((records.drop k).take m), boundary records (k + m)⟩ :=
      ⟨0, hLe, by simp [wireData]⟩
    by_cases hEnd : k = records.length
    · -- the loop stops at the end of the file
      subst hEnd
      unfold stageLoop
      simp only [boundary_length, frameAt_end]
      rw [boundary_length] at hStop
      exact hStop
    · have hLt : k < records.length := by omega
      have hNext : records[k]? = some records[k] := List.getElem?_eq_getElem hLt
      unfold stageLoop
      simp only [frameAt_boundary records k _ hNext]
      split
      · exact hStop
      · split
        · exact hStop
        · rw [← boundary_succ records k _ hNext]
          rcases ih (k + 1) (n + 1) (out ++ wireOctets records[k].body) (by omega)
            with ⟨m, hMore, hLoop⟩
          refine ⟨m + 1, by omega, ?_⟩
          rw [hLoop, drop_eq_getElem_cons hLt, take_succ_cons]
          simp [wireData, wireOctets, Record.wire, Nat.add_assoc, Nat.add_comm 1 m]

/- A staged batch is made of the next records of the file. -/
theorem stageBatch_boundary (file : SpoolFile) (outCap maxRecords maxBytes k : Nat)
    (hData : file.data = spoolData records) (hSend : file.sendOffset = boundary records k)
    (hLe : k ≤ records.length) : ∃ n, k + n ≤ records.length ∧
      stageBatch file outCap maxRecords maxBytes =
        ({ file with
            pendingBatchStart := boundary records k
            pendingBatchRecords := n }, n, wireData ((records.drop k).take n)) := by
  rcases stageLoop_boundary outCap maxBytes maxRecords k 0 [] hLe with ⟨n, hMore, hLoop⟩
  refine ⟨n, hMore, ?_⟩
  simp [stageBatch, hData, hSend, hLoop]

theorem stageLoop_n_le (data : List UInt8) (outCap maxBytes rounds : Nat) (staged : Staged) :
    staged.n ≤ (stageLoop data outCap maxBytes rounds staged).n := by
  induction rounds generalizing staged with
  | zero => exact le_rfl
  | succ rounds ih =>
    unfold stageLoop
    split
    · exact le_rfl
    · simp only
      split
      · exact le_rfl
      · split
        · exact le_rfl
        · rename_i body _ _ _
          have hMore := ih
            { n := staged.n + 1
              out := staged.out ++ wireOctets body
              off := staged.off + recordHdrLen + body.length }
          exact (Nat.le_succ staged.n).trans hMore

/- Only the batch buffer can stop the first record. -/
theorem stageBatch_eq_zero_iff (file : SpoolFile) (outCap maxRecords maxBytes k : Nat)
    (record : Record) (hData : file.data = spoolData records)
    (hSend : file.sendOffset = boundary records k) (hNext : records[k]? = some record)
    (hSome : 1 ≤ maxRecords) :
    (stageBatch file outCap maxRecords maxBytes).2.1 = 0 ↔ outCap < 2 + record.body.length := by
  rcases maxRecords with _ | rounds
  · contradiction
  · unfold stageBatch
    simp only [hData, hSend, stageLoop, frameAt_boundary records k record hNext,
      length_nil, Nat.zero_add]
    split
    · rename_i hFull
      simpa using hFull
    · rw [if_neg (by simp)]
      have hOne := stageLoop_n_le (spoolData records) outCap maxBytes rounds
        ⟨1, [] ++ wireOctets record.body, boundary records k + recordHdrLen + record.body.length⟩
      simp only at hOne
      constructor
      · intro hZero
        omega
      · intro hFull
        omega

/- The lengths that the writers append. -/
def Writable (record : Record) : Prop := 1 ≤ record.body.length ∧ record.body.length ≤ gaRecordMax

/-
  The drain stages the next record of a file of framed records, and with it a run of records as they
  go on the wire, exactly when the record leaves room for its length in the batch buffer.
-/
theorem writable_record_is_staged (records : List Record) (k maxRecords maxBytes : Nat)
    (record : Record) (file : SpoolFile) (hData : file.data = spoolData records)
    (hSend : file.sendOffset = boundary records k) (hNext : records[k]? = some record)
    (hSome : 1 ≤ maxRecords) :
    (∃ staged n out, stageBatch file batchSize maxRecords maxBytes = (staged, n, out) ∧
        1 ≤ n ∧ k + n ≤ records.length ∧ quarantines staged n = false ∧
        out = wireData ((records.drop k).take n)) ↔ record.body.length ≤ 4094 := by
  have hLt : k < records.length := (List.getElem?_eq_some_iff.mp hNext).1
  have hZero := stageBatch_eq_zero_iff file batchSize
    maxRecords maxBytes k record hData hSend hNext hSome
  have hSize : batchSize = 4096 := rfl
  rcases stageBatch_boundary file batchSize maxRecords
    maxBytes k hData hSend (by omega) with ⟨n, hMore, hStage⟩
  rw [hStage] at hZero ⊢
  simp only at hZero
  constructor
  · rintro ⟨_, _, _, hEq, hOne, _⟩
    cases hEq
    omega
  · intro hFits
    refine ⟨_, n, _, rfl, by omega, hMore, ?_, rfl⟩
    have hPos : (n == 0) = false := by
      simp only [beq_eq_false_iff_ne]
      omega
    rw [quarantines, hPos, Bool.false_and]

/- A record of a given length. -/
def sampleRecord (len : Nat) (hLen : len < 65536) : Record where
  format := .berPgw
  body := List.replicate len 0
  fits := by rwa [length_replicate]

@[simp] theorem length_sampleRecord (hLen : len < 65536) :
    (sampleRecord len hLen).body.length = len :=
  length_replicate

theorem writable_record_is_staged_short :
    ∃ staged n out, stageBatch (.opened (spoolData [sampleRecord 3 (by decide)]))
          batchSize 1 100 = (staged, n, out) ∧ 1 ≤ n ∧ 0 + n ≤ 1 ∧ quarantines staged n = false ∧
        out = wireData (([sampleRecord 3 (by decide)].drop 0).take n) :=
  (writable_record_is_staged [sampleRecord 3 (by decide)] 0 1 100
    (sampleRecord 3 (by decide)) _ rfl rfl rfl le_rfl).mpr (by
      decide)

/- A record that the writers append and the drain gives up. -/
theorem writable_record_is_quarantined :
    Writable (sampleRecord 4095 (by decide)) ∧ ∀ maxRecords maxBytes, 1 ≤ maxRecords → ∃ staged,
          stageBatch (.opened (spoolData [sampleRecord 4095 (by decide)]))
              batchSize maxRecords maxBytes = (staged, 0, []) ∧ quarantines staged 0 = true := by
  constructor
  · rw [Writable, length_sampleRecord]
    decide
  · intro maxRecords maxBytes hSome
    have hZero := (stageBatch_eq_zero_iff
      (.opened (spoolData [sampleRecord 4095 (by decide)])) batchSize maxRecords maxBytes 0
      (sampleRecord 4095 (by decide)) rfl rfl rfl hSome).mpr (by
        rw [length_sampleRecord]
        decide)
    rcases stageBatch_boundary (.opened (spoolData [sampleRecord 4095 (by decide)]))
      batchSize maxRecords maxBytes 0 rfl rfl (by simp) with ⟨n, _, hStage⟩
    rw [hStage] at hZero ⊢
    subst hZero
    refine ⟨_, rfl, ?_⟩
    have hFrame : (spoolData [sampleRecord 4095 (by decide)]).length = recordHdrLen + 4095 := by
      rw [spoolData, flatMap_singleton, Record.length_frame, length_sampleRecord]
    unfold quarantines SpoolFile.opened
    simp only [beq_self_eq_true, Bool.true_and, hFrame]
    decide

---- Runs On One File ----

/- The place of a batch in its file. -/
variable (records) in
structure Batch where
  start : Nat
  records : Nat
deriving DecidableEq, Repr

/- A batch of whole records of the file. -/
def Batch.Cut (records : List Record) (batch : Batch) : Prop :=
  ∃ k, batch.start = boundary records k ∧ k + batch.records ≤ records.length

/- The record of some index is in the batch. -/
def Batch.Covers (records : List Record) (batch : Batch) (i : Nat) : Prop :=
  ∃ k, batch.start = boundary records k ∧ k ≤ i ∧ i < k + batch.records

/- A file with all batches that were staged, sent, and
  acknowledged, and whether it was moved away. -/
structure Delivery where
  file : SpoolFile
  staged : List Batch
  committed : List Batch
  acked : List Batch
  finished : Bool
deriving DecidableEq, Repr

inductive DeliveryOp where
  | stage (outCap maxRecords maxBytes : Nat)
  | commit (batch : Batch)
  | ack (batch : Batch)
  | nack
deriving DecidableEq, Repr

/- A finished file is freed. -/
def deliveryExec (s : Delivery) (op : DeliveryOp) : Except Fault Delivery :=
  if s.finished then .error .useAfterFree
  else
    match op with
    | .stage outCap maxRecords maxBytes =>
        let (file, n, _) := stageBatch s.file outCap maxRecords maxBytes
        .ok { s with
            file := file
            staged := ⟨file.pendingBatchStart, n⟩ :: s.staged }
    | .commit batch =>
        .ok { s with
            file := commitSend s.file batch.start batch.records
            committed := batch :: s.committed }
    | .ack batch =>
        let acked := ackBatchEx s.file batch.start batch.records
        .ok { s with
            file := acked.file
            acked := batch :: s.acked
            finished := acked.freed }
    | .nack => .ok { s with file := nackBatch s.file }

/- Batches are staged, then committed, then acknowledged. -/
def Permitted (s : Delivery) (op : DeliveryOp) : Prop :=
  match op with
  | .commit batch => batch ∈ s.staged
  | .ack batch => batch ∈ s.committed
  | _ => True

instance (s : Delivery) (op : DeliveryOp) : Decidable (Permitted s op) :=
  match op with
  | .commit batch => inferInstanceAs (Decidable (batch ∈ s.staged))
  | .ack batch => inferInstanceAs (Decidable (batch ∈ s.committed))
  | .stage _ _ _ => isTrue trivial
  | .nack => isTrue trivial

/- Delivery of a file of framed records, from its opening. -/
def deliverySystem (records : List Record) : Faulty.System Delivery DeliveryOp Fault where
  Init := fun s => s = ⟨.opened (spoolData records), [], [], [], false⟩
  exec := deliveryExec

---- Acknowledged Prefixes ----

/- The first records of the file are in the batches. -/
def Acknowledged (records : List Record) (acked : List Batch) (k : Nat) : Prop :=
  ∀ i < k, ∃ batch ∈ acked, batch.Covers records i

/- The confirmed cursor is behind acknowledged records. -/
def Confirmed (records : List Record) (acked : List Batch) (file : SpoolFile) : Prop :=
  ∃ k ≤ records.length, file.nextRecordOffset = boundary records k ∧ Acknowledged records acked k

/- The acknowledgements in the buffer are for batches. -/
def Buffered (acked : List Batch) (file : SpoolFile) : Prop :=
  ∀ ack ∈ file.pendingAcks, (⟨ack.batchStart, ack.records⟩ : Batch) ∈ acked

theorem Acknowledged.mono {records : List Record} (hAcked : Acknowledged records acked k) :
    Acknowledged records (batch :: acked) k := by
  intro i hLt
  rcases hAcked i hLt with ⟨earlier, hMem, hCovers⟩
  exact ⟨earlier, mem_cons_of_mem batch hMem, hCovers⟩

/- A batch at the confirmed cursor extends the prefix. -/
theorem Confirmed.advance {records : List Record} (hData : file.data = spoolData records)
    (hConfirmed : Confirmed records acked file) (hMem : batch ∈ acked) (hCut : batch.Cut records)
    (hStart : batch.start = file.nextRecordOffset) : Confirmed records acked
      { file with
        nextRecordOffset :=
          offsetAfterRecords file.data batch.start
            batch.records } := by
  rcases hConfirmed with ⟨k, hK, hNext, hAcked⟩
  rcases hCut with ⟨j, hBoundary, hLe⟩
  have hSame : boundary records j = boundary records k := by rw [← hBoundary, hStart, hNext]
  have hIndex := boundary_inj records (by omega) hK hSame
  subst hIndex
  refine ⟨j + batch.records, hLe, ?_, ?_⟩
  · simp only [hData, hBoundary]
    exact offsetAfterRecords_boundary hLe
  · intro i hLt
    by_cases hEarlier : i < j
    · exact hAcked i hEarlier
    · exact ⟨batch, hMem, j, hBoundary, by omega, hLt⟩

/- What acknowledgements keep of a file. -/
structure Tracked (records : List Record) (acked : List Batch) (file : SpoolFile) : Prop where
  data : file.data = spoolData records
  send : ∃ k ≤ records.length, file.sendOffset = boundary records k
  buffered : Buffered acked file
  confirmed : Confirmed records acked file

namespace Tracked

variable {records : List Record} {acked : List Batch} {file : SpoolFile}

theorem mono (hTracked : Tracked records acked file) : Tracked records (batch :: acked) file where
  data := hTracked.data
  send := hTracked.send
  buffered := fun ack hMem => mem_cons_of_mem batch (hTracked.buffered ack hMem)
  confirmed := by
    rcases hTracked.confirmed with ⟨k, hLe, hNext, hAcked⟩
    exact ⟨k, hLe, hNext, hAcked.mono⟩

theorem drainPendingAcks (hCut : ∀ batch ∈ acked, batch.Cut records)
    (hTracked : Tracked records acked file) : Tracked records acked (drainPendingAcks file) := by
  apply drainPendingAcks_induct (Tracked records acked)
  · intro before next hBefore hDrain
    rcases drainOne_some before next hDrain with ⟨ack, hAck, hStart, hSubset, hNext⟩
    have hMem := hBefore.buffered ack hAck
    rw [hNext]
    refine ⟨hBefore.data, hBefore.send, ?_, ?_⟩
    · intro left hLeft
      exact hBefore.buffered left (hSubset hLeft)
    · exact hBefore.confirmed.advance hBefore.data hMem (hCut _ hMem) hStart
  · exact hTracked

theorem clearPossiblyDup (hTracked : Tracked records acked file) :
    Tracked records acked (clearPossiblyDup file) := by
  unfold Cgf.clearPossiblyDup
  split
  · exact ⟨hTracked.data, hTracked.send, hTracked.buffered, hTracked.confirmed⟩
  · exact hTracked

/- Any acknowledgement of a batch, early, late or repeated. -/
theorem ackBatchEx (hCut : ∀ batch ∈ acked, batch.Cut records) (hMem : batch ∈ acked)
    (hTracked : Tracked records acked file) :
    Tracked records acked (ackBatchEx file batch.start batch.records).file := by
  have hCounted : Tracked records acked
    { file with
      pendingBatchRecords := 0
      inflightBatches := file.inflightBatches - 1 } :=
    ⟨hTracked.data, hTracked.send, hTracked.buffered, hTracked.confirmed⟩
  unfold Cgf.ackBatchEx
  simp only
  split
  · exact hCounted.clearPossiblyDup
  · split
    · rename_i hStart
      apply clearPossiblyDup
      apply drainPendingAcks hCut
      exact ⟨hTracked.data, hTracked.send, hTracked.buffered,
        hCounted.confirmed.advance hTracked.data hMem (hCut batch hMem) hStart⟩
    · split
      · exact hCounted
      · split
        · exact hCounted
        · refine ⟨hTracked.data, hTracked.send, ?_, hTracked.confirmed⟩
          intro ack hAck
          rcases mem_append.mp hAck with hOld | hNew
          · exact hTracked.buffered ack hOld
          · rw [mem_singleton.mp hNew]
            exact hMem

end Tracked

---- No Record Is Lost ----

/- What holds of every state of a run. -/
structure Accounted (records : List Record) (s : Delivery) : Prop where
  tracked : Tracked records s.acked s.file
  staged : ∀ batch ∈ s.staged, batch.Cut records
  committed : ∀ batch ∈ s.committed, batch.Cut records
  acked : ∀ batch ∈ s.acked, batch.Cut records
  finished : s.finished = true → s.file.data.length ≤ s.file.nextRecordOffset

namespace Accounted

variable {records : List Record} {s s' : Delivery}

theorem init (hInit : (deliverySystem records).Init s) : Accounted records s := by
  cases hInit
  exact
    { tracked :=
        { data := rfl
          send := ⟨0, Nat.zero_le _, rfl⟩
          buffered := nofun
          confirmed := ⟨0, Nat.zero_le _, rfl, nofun⟩ }
      staged := nofun
      committed := nofun
      acked := nofun
      finished := nofun }

theorem stage (hPrior : Accounted records s)
    (hExec : deliveryExec s (.stage outCap maxRecords maxBytes) = .ok s') :
    Accounted records s' := by
  rcases hPrior.tracked.send with ⟨k, hLe, hSend⟩
  rcases stageBatch_boundary s.file outCap maxRecords
    maxBytes k hPrior.tracked.data hSend hLe with ⟨n, hMore, hStage⟩
  unfold deliveryExec at hExec
  split at hExec
  · contradiction
  simp only [hStage] at hExec
  cases hExec
  refine ⟨⟨hPrior.tracked.data, hPrior.tracked.send,
    hPrior.tracked.buffered, hPrior.tracked.confirmed⟩, ?_,
    hPrior.committed, hPrior.acked, hPrior.finished⟩
  intro batch hMem
  rcases mem_cons.mp hMem with rfl | hOld
  · exact ⟨k, rfl, hMore⟩
  · exact hPrior.staged batch hOld

theorem commit (hPrior : Accounted records s) (hStaged : batch ∈ s.staged)
    (hExec : deliveryExec s (.commit batch) = .ok s') : Accounted records s' := by
  unfold deliveryExec at hExec
  split at hExec
  · contradiction
  cases hExec
  refine ⟨⟨hPrior.tracked.data, ?_, hPrior.tracked.buffered,
    hPrior.tracked.confirmed⟩, hPrior.staged, ?_, hPrior.acked, hPrior.finished⟩
  · rcases hPrior.staged batch hStaged with ⟨k, hStart, hLe⟩
    refine ⟨k + batch.records, hLe, ?_⟩
    simp only [commitSend, hPrior.tracked.data, hStart]
    exact offsetAfterRecords_boundary hLe
  · intro sent hMem
    rcases mem_cons.mp hMem with rfl | hOld
    · exact hPrior.staged sent hStaged
    · exact hPrior.committed sent hOld

theorem ack (hPrior : Accounted records s) (hCommitted : batch ∈ s.committed)
    (hExec : deliveryExec s (.ack batch) = .ok s') : Accounted records s' := by
  unfold deliveryExec at hExec
  split at hExec
  · contradiction
  cases hExec
  have hCut : ∀ b ∈ batch :: s.acked, b.Cut records := by
    intro acked hMem
    rcases mem_cons.mp hMem with rfl | hOld
    · exact hPrior.committed acked hCommitted
    · exact hPrior.acked acked hOld
  exact
    { tracked :=
        hPrior.tracked.mono.ackBatchEx hCut
          mem_cons_self
      staged := hPrior.staged
      committed := hPrior.committed
      acked := hCut
      finished := fun hFreed =>
        (maybeFinishFile_iff.mp
          (ackBatchEx_freed s.file _ _ hFreed)).1 }

theorem nack (hPrior : Accounted records s) (hExec : deliveryExec s .nack = .ok s') :
    Accounted records s' := by
  unfold deliveryExec at hExec
  split at hExec
  · contradiction
  cases hExec
  rcases hPrior.tracked.confirmed with ⟨k, hLe, hNext, _⟩
  exact
    { tracked :=
        { data := hPrior.tracked.data
          send := ⟨k, hLe, hNext⟩
          buffered := nofun
          confirmed := hPrior.tracked.confirmed }
      staged := hPrior.staged
      committed := hPrior.committed
      acked := hPrior.acked
      finished := hPrior.finished }

/- One step of a run keeps the records accounted for. -/
theorem step (hPrior : Accounted records s) (hPermitted : Permitted s op)
    (hExec : deliveryExec s op = .ok s') : Accounted records s' := by
  cases op with
  | stage outCap maxRecords maxBytes => exact hPrior.stage hExec
  | commit batch => exact hPrior.commit hPermitted hExec
  | ack batch => exact hPrior.ack hPermitted hExec
  | nack => exact hPrior.nack hExec

end Accounted

/-
  In every run on a file of framed records, the confirmed cursor is a record boundary behind
  acknowledged records, and a file that is moved away has no other records.
-/
theorem delivered_records_are_acknowledged (records : List Record) (s : Delivery)
    (hReach : (deliverySystem records).ReachableBy Permitted s) :
    (∃ k ≤ records.length, s.file.nextRecordOffset = boundary records k ∧
        ∀ i < k, ∃ batch ∈ s.acked, batch.Covers records i) ∧ (s.finished = true →
        ∀ i < records.length, ∃ batch ∈ s.acked, batch.Covers records i) := by
  have hAccounted : Accounted records s := by
    apply hReach.invariant
    · intro start hInit
      exact Accounted.init hInit
    · intro before op after _ hPrior hPermitted hExec
      exact hPrior.step hPermitted hExec
  rcases hAccounted.tracked.confirmed with ⟨k, hLe, hNext, hAcked⟩
  refine ⟨⟨k, hLe, hNext, hAcked⟩, ?_⟩
  intro hFinished
  have hEnd := hAccounted.finished hFinished
  rw [hAccounted.tracked.data, hNext] at hEnd
  have hAll := eq_length_of_boundary records hLe hEnd
  rw [← hAll]
  exact hAcked

/- A file of two records, acknowledged in reverse order. -/
def pairRecords : List Record := [sampleRecord 1 (by decide), sampleRecord 2 (by decide)]

def pairDelivered : Delivery where
  file :=
    { SpoolFile.opened (spoolData pairRecords) with
      nextRecordOffset := 19
      sendOffset := 19
      pendingBatchStart := 9 }
  staged := [⟨9, 1⟩, ⟨0, 1⟩]
  committed := [⟨9, 1⟩, ⟨0, 1⟩]
  acked := [⟨0, 1⟩, ⟨9, 1⟩]
  finished := true

def pairSteps : List DeliveryOp :=
  [.stage batchSize 1 100, .commit ⟨0, 1⟩, .stage batchSize 1 100, .commit ⟨9, 1⟩, .ack ⟨9, 1⟩,
    .ack ⟨0, 1⟩]

theorem delivered_records_are_acknowledged_pair :
    (∃ k ≤ pairRecords.length, pairDelivered.file.nextRecordOffset = boundary pairRecords k ∧
        ∀ i < k, ∃ batch ∈ pairDelivered.acked, batch.Covers pairRecords i) ∧
      (pairDelivered.finished = true → ∀ i < pairRecords.length, ∃ batch ∈ pairDelivered.acked,
            batch.Covers pairRecords i) := by
  apply delivered_records_are_acknowledged
  have hRun : (deliverySystem pairRecords).run ⟨.opened (spoolData pairRecords), [], [], [], false⟩
    pairSteps = .ok pairDelivered := rfl
  exact .run (.init rfl) (by decide) hRun

end Pretty5gs.Cgf
