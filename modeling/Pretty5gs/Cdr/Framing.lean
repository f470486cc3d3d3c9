import Pretty5gs.Core.Types
import Pretty5gs.Library.BigEndian

/-
  The framing of charging records in spool files, which the writers and the charging gateway share.

  Main results: `frameAt_boundary`, `frameAt_end`.
-/

---- Records And Frames ----

namespace Pretty5gs.Cdr

open List BigEndian

/- `OGS_CDR_FILE_MAGIC` -/
def fileMagic : List UInt8 := [0x4f, 0x35, 0x43, 0x44]

/- `OGS_CDR_FILE_VERSION` -/
def fileVersion : UInt8 := 0x01

/- `OGS_CDR_RECORD_HDR_LEN` -/
abbrev recordHdrLen : Nat := 8

/- `SMF_GA_RECORD_MAX` and `SGWC_GA_RECORD_MAX` -/
def gaRecordMax : Nat := 4096

/- `OGS_CDR_FORMAT_BER_PGW` and `OGS_CDR_FORMAT_BER_SGW`. -/
inductive Format where
  | berPgw
  | berSgw
deriving DecidableEq, Repr

def Format.code : Format → UInt8
| .berPgw => 0x01
| .berSgw => 0x02

/- `ogs_cdr_format_is_valid` -/
def formatIsValid (format : UInt8) : Bool :=
  format == Format.berPgw.code || format == Format.berSgw.code

/- A record whose length fits the field of its header. -/
structure Record where
  format : Format
  body : List UInt8
  fits : body.length < 65536
deriving DecidableEq, Repr

namespace Record

variable (record : Record)

def header : List UInt8 := fileMagic ++ [fileVersion, record.format.code] ++
    encode 2 record.body.length

def frame : List UInt8 := record.header ++ record.body

/- The length and the body, as a record is sent. -/
def wire : List UInt8 := encode 2 record.body.length ++ record.body

@[simp] theorem length_header : record.header.length = recordHdrLen := by simp [header, fileMagic]

@[simp] theorem length_frame : record.frame.length = recordHdrLen + record.body.length := by
  simp [frame]

end Record

variable (records : List Record)

/- The octets of a file that holds the records. -/
def spoolData : List UInt8 := records.flatMap Record.frame

/- The offset behind the first records of a file. -/
def boundary (k : Nat) : Nat := (spoolData (records.take k)).length

theorem boundary_length : boundary records records.length = (spoolData records).length := by
  rw [boundary, take_length]

theorem boundary_succ (k : Nat) (record : Record) (hNext : records[k]? = some record) :
    boundary records (k + 1) = boundary records k + recordHdrLen + record.body.length := by
  rw [boundary, boundary, take_add_one, hNext, spoolData, flatMap_append]
  simp [spoolData]
  omega

/- The octets of a file around its record of some index. -/
theorem spoolData_split {k : Nat} {record : Record} (hNext : records[k]? = some record) :
    spoolData records = spoolData (records.take k) ++ record.frame ++
        spoolData (records.drop (k + 1)) := by
  have hSplit : records = records.take k ++ record :: records.drop (k + 1) := by
    rcases List.getElem?_eq_some_iff.mp hNext with ⟨hLt, rfl⟩
    rw [getElem_cons_drop, take_append_drop]
  conv_lhs => rw [hSplit]
  simp [spoolData]

theorem boundary_le_length (k : Nat) : boundary records k ≤ (spoolData records).length := by
  rw [boundary]
  conv_rhs => rw [← take_append_drop k records]
  rw [spoolData, spoolData, flatMap_append, length_append]
  apply Nat.le_add_right

/- A record takes octets, so boundaries go up. -/
theorem boundary_lt (j k : Nat) (hLt : j < k) (hLe : k ≤ records.length) :
    boundary records j < boundary records k := by
  have hHdr : recordHdrLen = 8 := rfl
  induction k with
  | zero => contradiction
  | succ k ih =>
    have hSucc := boundary_succ records k _ (List.getElem?_eq_getElem (by omega))
    rcases Nat.lt_succ_iff_lt_or_eq.mp hLt with hBelow | rfl
    · omega
    · omega

theorem boundary_inj (hJ : j ≤ records.length) (hK : k ≤ records.length)
    (hEq : boundary records j = boundary records k) : j = k := by
  rcases Nat.lt_trichotomy j k with hLt | hSame | hGt
  · have hAbove := boundary_lt records j k hLt hK
    omega
  · exact hSame
  · have hBelow := boundary_lt records k j hGt hJ
    omega

/- A boundary behind no record of the file is its end. -/
theorem eq_length_of_boundary (hLe : k ≤ records.length)
    (hEnd : (spoolData records).length ≤ boundary records k) : k = records.length := by
  by_contra hNe
  have hLt := boundary_lt records k records.length (by omega) le_rfl
  rw [boundary_length] at hLt
  omega

---- Reading A Frame ----

/- The length field of the header at an offset. -/
def recordLen (data : List UInt8) (off : Nat) : Nat := decode (((data.drop off).drop 6).take 2)

/- The body of the frame at an offset, if it is well formed. -/
def frameAt (data : List UInt8) (off : Nat) : Option (List UInt8) :=
  if off + recordHdrLen > data.length then none
  else
    let h := data.drop off
    if h.take 4 ≠ fileMagic ∨ h.getD 4 0 ≠ fileVersion ∨
        formatIsValid (h.getD 5 0) = false then none
    else if off + recordHdrLen + recordLen data off > data.length then none
    else some ((h.drop recordHdrLen).take (recordLen data off))

theorem formatIsValid_code {format : Format} : formatIsValid format.code = true := by
  cases format <;> rfl

theorem recordLen_boundary (records : List Record) (k : Nat) (record : Record)
    (hNext : records[k]? = some record) :
    recordLen (spoolData records) (boundary records k) = record.body.length := by
  have hFits := record.fits
  have hField : (encode 2 record.body.length).length = 2 := length_encode
  rw [recordLen, spoolData_split records hNext, append_assoc, boundary, drop_left]
  simp only [Record.frame, Record.header, fileMagic,
    cons_append, nil_append, drop_succ_cons, drop_zero, append_assoc]
  rw [take_left' hField, decode_encode]
  omega

/- A reader finds each record at its boundary. -/
theorem frameAt_boundary (records : List Record) (k : Nat) (record : Record)
    (hNext : records[k]? = some record) :
    frameAt (spoolData records) (boundary records k) = some record.body := by
  have hLen := recordLen_boundary records k record hNext
  have hEnd : boundary records k + recordHdrLen + record.body.length ≤
    (spoolData records).length := by
    rw [← boundary_succ records k record hNext]
    apply boundary_le_length
  have hDrop : (spoolData records).drop (boundary records k) = record.header ++ (record.body ++
    spoolData (records.drop (k + 1))) := by
    rw [spoolData_split records hNext, append_assoc, boundary, drop_left,
      Record.frame, append_assoc]
  unfold frameAt
  rw [if_neg (by omega)]
  simp only [hLen, hDrop]
  rw [if_neg, if_neg (by omega)]
  · rw [drop_left' record.length_header, take_left]
  · simp [Record.header, fileMagic, formatIsValid_code]

/- No record is found at the end of a file. -/
theorem frameAt_end : frameAt data data.length = none := by
  have hHdr : recordHdrLen = 8 := rfl
  unfold frameAt
  rw [if_pos (by omega)]

end Pretty5gs.Cdr
