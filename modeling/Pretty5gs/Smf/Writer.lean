import Mathlib.Data.BitVec
import Pretty5gs.Cdr.Framing

/-
  The writer of charging records in the session manager.

  A record is encoded with the usage since the last one and the next local sequence number, and
  appended to a file in `current/`. Full files are renamed into `ready/`, and then the sequence
  number is written to `.seq`. Closing a file is a list of file operations, so that a crash can come
  between any two of them. What libc holds back in its buffers is left out: a record is written when
  `fwrite` says so.
-/

---- Sessions And Records ----

namespace Pretty5gs.Smf

open List

abbrev U64 := BitVec 64

/- Uplink and downlink octets. -/
structure Usage where
  ul : U64
  dl : U64
deriving DecidableEq, Repr

def Usage.zero : Usage where
  ul := 0
  dl := 0

/- The usage since a baseline, as uint64_t. -/
def Usage.since (usage base : Usage) : Usage where
  ul := usage.ul - base.ul
  dl := usage.dl - base.dl

/-
  `gy.ul_octets` and `gy.dl_octets`, the baseline `cdr.last_*_octets` and `cdr.record_seq` of
  `smf_sess_t`.
-/
structure Session where
  gy : Usage
  last : Usage
  recordSeq : U32
deriving DecidableEq, Repr

/- A session after `smf_ga_sess_clear`, without usage. -/
def Session.clear : Session where
  gy := Usage.zero
  last := Usage.zero
  recordSeq := 0

/- What is tracked of an encoded record. -/
structure CdrRecord where
  owner : Nat
  isStop : Bool
  recordSeq : U32
  localSeq : U32
  delta : Usage
  len : Nat
deriving DecidableEq, Repr

/- How the BER encoding of a record ends. -/
inductive Encoding where
  -- the UE context is gone
  | noUe
  -- the record does not fit its buffer
  | overflow
  | done (len : Fin Cdr.gaRecordMax)
deriving DecidableEq, Repr

/- The length of a record in a sample run. -/
def sampleLen : Fin Cdr.gaRecordMax := ⟨99, by decide⟩

---- The Writer ----

/- `.seq` may be missing, or truncated and not yet written. -/
inductive SeqFile where
  | absent
  | truncated
  | value (v : U32)
deriving DecidableEq, Repr

/-
  The writer and its spool directory. A file is the list of its records; `closed` is the file that
  is closed and not yet renamed, `stranded` holds those that stay in `current/`.
-/
structure Writer where
  initialized : Bool
  localSeq : U32
  fp : Option (List CdrRecord)
  closed : Option (List CdrRecord)
  seqFp : Bool
  curRecords : U32
  curBytes : U32
  curOpened : Int
  ready : List (List CdrRecord)
  stranded : List (List CdrRecord)
  seqFile : SeqFile
deriving DecidableEq, Repr

/- The writer of a new process on an empty spool. -/
def Writer.fresh : Writer where
  initialized := false
  localSeq := 0
  fp := none
  closed := none
  seqFp := false
  curRecords := 0
  curBytes := 0
  curOpened := 0
  ready := []
  stranded := []
  seqFile := .absent

/- `smf_cdr_config_t`; a limit of zero is no limit. -/
structure Config where
  enabled : Bool
  trigStart : Bool
  trigInterim : Bool
  trigStop : Bool
  rotateMaxRecords : U32
  rotateMaxBytes : U32
  rotateMaxSeconds : U32
deriving DecidableEq, Repr

/- What the system answers during one emission. -/
structure Env where
  encoding : Encoding
  now : Int
  openOk : Bool
  writeOk : Bool
  renameOk : Bool
  seqOpenOk : Bool
  seqWriteOk : Bool
deriving DecidableEq, Repr

/- `build_pgw_record`: the number is taken before encoding. -/
def buildPgwRecord (encoding : Encoding) (owner : Nat) (isStop : Bool) (sess : Session)
    (w : Writer) : Writer × Option CdrRecord :=
  match encoding with
  | .noUe => (w, none)
  | .overflow => ({ w with localSeq := w.localSeq + 1 }, none)
  | .done len =>
      ({ w with localSeq := w.localSeq + 1 }, some
          { owner := owner
            isStop := isStop
            recordSeq := sess.recordSeq
            localSeq := w.localSeq + 1
            delta := sess.gy.since sess.last
            len := len + 1 })

/- `open_current_file` -/
def openCurrentFile (now : Int) (openOk : Bool) (w : Writer) : Writer × Bool :=
  if w.fp.isSome then (w, true)
  else if openOk then
    ({ w with
        fp := some []
        curRecords := 0
        curBytes := 0
        curOpened := now }, true)
  else (w, false)

/-
  `write_record` up to the rotation, and whether the record was written. A short write leaves the
  file in `current/`.
-/
def appendRecord (now : Int) (openOk writeOk : Bool) (record : CdrRecord)
    (w : Writer) : Writer × Bool :=
  if ¬ w.initialized ∨ record.len = 0 ∨ record.len > 0xffff then (w, false)
  else
    let opened := openCurrentFile now openOk w
    match opened.2, opened.1.fp with
    | true, some records =>
        if writeOk then
          ({ opened.1 with
              fp := some (records ++ [record])
              curRecords := opened.1.curRecords + 1
              curBytes :=
                opened.1.curBytes +
                  BitVec.ofNat 32 (record.len + 8) }, true)
        else
          ({ opened.1 with
              fp := none
              stranded := opened.1.stranded ++ [records] }, false)
    | _, _ => (opened.1, false)

/-
  A record that can be framed is appended when the file is open or can be opened, and the write
  succeeds.
-/
theorem appendRecord_eq (now : Int) (openOk writeOk : Bool) (record : CdrRecord) (w : Writer)
    (hLive : w.initialized = true) (hSome : 1 ≤ record.len) (hFits : record.len ≤ Cdr.gaRecordMax) :
    ∃ curRecords curBytes curOpened, appendRecord now openOk writeOk record w =
        if w.fp.isSome || openOk then
          if writeOk then
            ({ w with
                fp := some (w.fp.getD [] ++ [record])
                curRecords := curRecords
                curBytes := curBytes
                curOpened := curOpened }, true)
          else
            ({ w with
                fp := none
                stranded := w.stranded ++ [w.fp.getD []]
                curRecords := curRecords
                curBytes := curBytes
                curOpened := curOpened }, false)
        else (w, false) := by
  have hMax : Cdr.gaRecordMax = 4096 := rfl
  have hGuard : ¬ (¬ w.initialized = true ∨ record.len = 0 ∨ record.len > 0xffff) := by
    rintro (hOff | hZero | hLong)
    · exact hOff hLive
    · omega
    · omega
  unfold appendRecord openCurrentFile
  rw [if_neg hGuard]
  cases hFp : w.fp with
  | some records =>
    cases writeOk with
    | true =>
      refine ⟨w.curRecords + 1, w.curBytes + BitVec.ofNat 32 (record.len + 8), w.curOpened, ?_⟩
      simp [hFp]
    | false =>
      refine ⟨w.curRecords, w.curBytes, w.curOpened, ?_⟩
      simp [hFp]
  | none =>
    cases openOk with
    | false => exact ⟨0, 0, 0, by simp [hFp]⟩
    | true =>
      cases writeOk with
      | true => exact ⟨0 + 1, 0 + BitVec.ofNat 32 (record.len + 8), now, by simp⟩
      | false => exact ⟨0, 0, now, by simp⟩

/- `should_rotate` -/
def shouldRotate (cfg : Config) (now : Int) (w : Writer) : Bool := (cfg.rotateMaxRecords != 0 &&
      decide (w.curRecords ≥ cfg.rotateMaxRecords)) || (cfg.rotateMaxBytes != 0 &&
      decide (w.curBytes ≥ cfg.rotateMaxBytes)) || (cfg.rotateMaxSeconds != 0 &&
      decide (now - w.curOpened ≥ 1000000 * (cfg.rotateMaxSeconds.toNat : Int)))

---- File Operations ----

/- The steps of `rotate_locked` and `ga_writer_close_locked`. -/
inductive FileOp where
  -- `fflush`, `fsync` and `fclose` of the spool file
  | flushClose
  | rename
  -- `fopen` of `.seq` for writing, which truncates it
  | seqOpen
  -- `fprintf` and `fclose` of `.seq`
  | seqWrite
  | finish
deriving DecidableEq, Repr

/- One file operation and whether it succeeds. -/
def perform (op : FileOp) (ok : Bool) (w : Writer) : Writer :=
  match op with
  | .flushClose => { w with fp := none, closed := w.fp }
  | .rename =>
      let file := w.closed.toList
      { w with
        closed := none
        curRecords := 0
        curBytes := 0
        ready := if ok then w.ready ++ file else w.ready
        stranded := if ok then w.stranded else w.stranded ++ file }
  | .seqOpen =>
      if w.initialized && ok then { w with seqFp := true, seqFile := .truncated }
      else w
  | .seqWrite =>
      if w.seqFp then
        { w with
          seqFp := false
          seqFile := if ok then .value w.localSeq else .truncated }
      else w
  | .finish => { w with initialized := false }

/- The file that waits for its new name, as a list. -/
theorem flatten_toList {file : Option (List CdrRecord)} : file.toList.flatten = file.getD [] := by
  cases file <;> simp

/- Writing `.seq` touches nothing else. -/
theorem perform_seq (hSeq : op = .seqOpen ∨ op = .seqWrite) :
    ∃ seqFp seqFile, perform op ok w = { w with seqFp := seqFp, seqFile := seqFile } := by
  rcases hSeq with rfl | rfl
  · simp only [perform]
    split
    · exact ⟨_, _, rfl⟩
    · exact ⟨w.seqFp, w.seqFile, rfl⟩
  · simp only [perform]
    split
    · exact ⟨_, _, rfl⟩
    · exact ⟨w.seqFp, w.seqFile, rfl⟩

/- `persist_local_seq` -/
def persistOps : List FileOp := [.seqOpen, .seqWrite]

/- `rotate_locked` on an open file. -/
def rotateOps : List FileOp := [.flushClose, .rename] ++ persistOps

/- `ga_writer_close_locked` -/
def closeOps (w : Writer) : List FileOp := (if w.fp.isSome then rotateOps else []) ++ persistOps ++
    [.finish]

/- Several file operations in a row. -/
def performAll (ops : List (FileOp × Bool)) (w : Writer) : Writer :=
  ops.foldl (fun w op => perform op.1 op.2 w) w

variable (env : Env) (w : Writer)

/- `persist_local_seq` without a crash. -/
def persistLocalSeq : Writer := performAll (persistOps.zip [env.seqOpenOk, env.seqWriteOk]) w

theorem persistLocalSeq_eq : ∃ seqFp seqFile, persistLocalSeq env w =
        { w with seqFp := seqFp, seqFile := seqFile } := by
  simp only [persistLocalSeq, performAll, persistOps,
    zip_cons_cons, zip_nil_right, foldl_cons, foldl_nil]
  rcases perform_seq (Or.inl rfl) with ⟨seqFp, seqFile, hOpen⟩
  rw [hOpen]
  exact perform_seq (Or.inr rfl)

/- `rotate_locked` without a crash. -/
def rotateLocked : Writer :=
  if w.fp.isSome then
    persistLocalSeq env (performAll [(.flushClose, true), (.rename, env.renameOk)] w)
  else w

/- `ga_writer_close_locked` without a crash. -/
def gaWriterCloseLocked : Writer := perform .finish true (persistLocalSeq env (rotateLocked env w))

/- `load_local_seq` -/
def loadLocalSeq (w : Writer) : Writer :=
  match w.seqFile with
  | .value v => { w with localSeq := v }
  | .absent => w
  | .truncated => w

/- `ga_writer_open_locked`, where directories may fail. -/
def gaWriterOpenLocked (cfg : Config) (mkdirOk : Bool) (w : Writer) : Writer :=
  if cfg.enabled && mkdirOk then { loadLocalSeq w with initialized := true }
  else w

/- `write_record` -/
def writeRecord (cfg : Config) (env : Env) (record : CdrRecord) (w : Writer) : Writer :=
  let appended := appendRecord env.now env.openOk env.writeOk record w
  if appended.2 && shouldRotate cfg env.now appended.1 then rotateLocked env appended.1
  else appended.1

---- Emissions ----

/- The end of `emit`, whatever became of the record. -/
def Session.reported (sess : Session) : Session :=
  { sess with
    last := sess.gy
    recordSeq := sess.recordSeq + 1 }

/- `emit` -/
def emit (cfg : Config) (env : Env) (owner : Nat) (isStop : Bool) (sess : Session)
    (w : Writer) : Session × Writer :=
  if cfg.enabled && w.initialized then
    let built := buildPgwRecord env.encoding owner isStop sess w
    match built.2 with
    | none => (sess, built.1)
    | some record => (sess.reported, writeRecord cfg env record built.1)
  else (sess, w)

end Pretty5gs.Smf
