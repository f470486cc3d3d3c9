import Pretty5gs.Core.Types
import Pretty5gs.Library.OctetBuffer
import Pretty5gs.Library.OptionalField
import Pretty5gs.Library.Transition

/-
  IEs of flagged fields, as they are built and parsed.

  The octets of an IE are those of its pieces, one behind the other. The offset of a builder has 16
  bits and a sign, so a piece can be written if 15 bits can count the octets in front of it.

  Main results: `Ie.foldlM_ok` and `Ie.foldlM_inv`, `Ie.value_piece`.
-/

---- Building ----

namespace Pretty5gs.Pfcp.Ie

open List BitVec Faulty Reader

/- `ogs_tlv_octet_t` -/
structure Octet where
  data : Nat → U8
  len : U32

/- A number as `int16_t`. -/
def int16 (n : Int) : Int := (n + 2 ^ 15) % 2 ^ 16 - 2 ^ 15

/- What has been written, and `size`. -/
structure Writing where
  data : Nat → U8
  size : Int

/-
  The assertion that octets fit, and the copy. In a comparison with a `sizeof` a negative sum is a
  large number.
-/
def put (signed : Bool) (dataLen : Nat) (octets : List U8) (w : Writing) : Except Fault Writing :=
  if dataLen < w.size + octets.length ∨ (signed = false ∧ w.size + octets.length < 0) then
    .error .assertion
  else if w.size < 0 then .error (.outOfBounds w.size)
  else
    .ok
      { data := OctetBuffer.write w.data w.size.toNat octets
        size := int16 (w.size + octets.length) }

/- Octets that are written if a flag is set. -/
structure Piece where
  flag : Bool
  signed : Bool
  octets : List U8

def Piece.content (piece : Piece) : List U8 := if piece.flag then piece.octets else []

def putPiece (dataLen : Nat) (w : Writing) (piece : Piece) : Except Fault Writing :=
  if piece.flag then put piece.signed dataLen piece.octets w
  else .ok w

---- Parsing ----

/- Octets of the IE, or the parser returns 0. -/
def field (memory : Nat → U8) (len count : Nat) : Reader Unit (List.Vector U8 count) :=
  take memory (fun _ => ()) len count

def firstOctet (v : List.Vector U8 1) : U8 := v.get 0

/- A field of a number of octets. -/
def parseField {α : Type} (memory : Nat → U8) (len count : Nat)
    (decode : List.Vector U8 count → α) : Reader Unit α := do
  let v ← field memory len count
  return decode v

---- What Is Written ----

/- The octets of some pieces. -/
def contents (pieces : List Piece) : List U8 := pieces.flatMap Piece.content

/- Every piece that is written starts where 15 bits can count. -/
def Reaches : Nat → List Piece → Prop
  | _, [] => True
  | offset, piece :: pieces =>
      (piece.flag = true → offset < 2 ^ 15) ∧ Reaches (offset + piece.content.length) pieces

instance : ∀ offset pieces, Decidable (Reaches offset pieces)
  | _, [] => isTrue trivial
  | offset, piece :: pieces =>
      let _ := instDecidableReaches
        (offset + piece.content.length) pieces
      inferInstanceAs (Decidable (_ ∧ _))

theorem contents_cons : contents (piece :: pieces) = piece.content ++ contents pieces := rfl

theorem contents_append :
    contents (front ++ back) = contents front ++ contents back := flatMap_append

theorem content_of_flag {piece : Piece} (hFlag : piece.flag = true) :
    piece.content = piece.octets := if_pos hFlag

theorem length_content_le (piece : Piece) : piece.content.length ≤ piece.octets.length := by
  unfold Piece.content
  split
  · exact Nat.le_refl _
  · exact Nat.zero_le _

section Written

variable {dataLen offset : Nat} {piece : Piece} {pieces : List Piece} {pre : List U8}
variable {w w' : Writing}

/- Octets are in the buffer, and their number is the offset. -/
structure Written (w : Writing) (pre : List U8) : Prop where
  stored : Stored w.data 0 pre
  size : w.size = int16 pre.length

/- A short piece in reach ends where 16 bits can count. -/
theorem next_lt (hBound : offset < 2 ^ 16) (hReach : piece.flag = true → offset < 2 ^ 15)
    (hShort : piece.octets.length < 2 ^ 15) : offset + piece.content.length < 2 ^ 16 := by
  have hContent := length_content_le piece
  by_cases hFlag : piece.flag = true
  · have hLess := hReach hFlag
    omega
  · unfold Piece.content
    rw [if_neg hFlag]
    exact hBound

theorem Reaches.lt (hReach : Reaches offset pieces) (hBound : offset < 2 ^ 16)
    (hShort : ∀ piece ∈ pieces, piece.octets.length < 2 ^ 15) :
    offset + (contents pieces).length < 2 ^ 16 := by
  induction pieces generalizing offset with
  | nil => exact hBound
  | cons piece pieces ih =>
    have hNext := next_lt hBound hReach.1 (hShort piece mem_cons_self)
    have hRest := ih hReach.2 hNext (fun other hMem => hShort other (mem_cons_of_mem _ hMem))
    rw [contents_cons, length_append]
    omega

/- Pieces that end in reach are in reach. -/
theorem reaches_of_lt (hBound : offset + (contents pieces).length < 2 ^ 15) :
    Reaches offset pieces := by
  induction pieces generalizing offset with
  | nil => trivial
  | cons piece pieces ih =>
    rw [contents_cons, length_append] at hBound
    exact ⟨fun _ => by omega, ih (by omega)⟩

theorem written_start : Written { data := data, size := 0 } [] := ⟨trivial, rfl⟩

theorem putPiece_ok (hWritten : Written w pre) (hReach : piece.flag = true → pre.length < 2 ^ 15)
    (hRoom : pre.length + piece.content.length ≤ dataLen) :
    ∃ w', putPiece dataLen w piece = .ok w' ∧ Written w' (pre ++ piece.content) := by
  unfold putPiece Piece.content at *
  by_cases hFlag : piece.flag = true
  · have hLess := hReach hFlag
    have hSize : w.size = pre.length := by
      rw [hWritten.size]
      unfold int16
      omega
    rw [if_pos hFlag] at hRoom ⊢
    unfold put
    rw [if_pos hFlag, if_neg (by omega), hSize, Int.toNat_natCast]
    refine ⟨_, rfl, OctetBuffer.stored_append_write hWritten.stored, ?_⟩
    rw [length_append]
    rfl
  · rw [if_neg hFlag, if_neg hFlag, append_nil]
    exact ⟨w, rfl, hWritten⟩

/- A write that succeeds was in reach of the offset. -/
theorem putPiece_inv (hWritten : Written w pre) (hBound : pre.length < 2 ^ 16)
    (hPut : putPiece dataLen w piece = .ok w') :
    (piece.flag = true → pre.length < 2 ^ 15) ∧ Written w' (pre ++ piece.content) := by
  unfold putPiece at hPut
  unfold Piece.content
  by_cases hFlag : piece.flag = true
  · have hSize := hWritten.size
    unfold int16 at hSize
    unfold put at hPut
    rw [if_pos hFlag] at hPut ⊢
    split at hPut
    · cases hPut
    · by_cases hNegative : w.size < 0
      · rw [if_pos hNegative] at hPut
        cases hPut
      · rw [if_neg hNegative] at hPut
        cases hPut
        have hLess : pre.length < 2 ^ 15 := by omega
        have hPlace : w.size.toNat = pre.length := by omega
        refine ⟨fun _ => hLess, ?_, ?_⟩
        · rw [hPlace]
          exact OctetBuffer.stored_append_write hWritten.stored
        · rw [length_append]
          dsimp only
          congr 1
          omega
  · rw [if_neg hFlag] at hPut ⊢
    cases hPut
    rw [append_nil]
    exact ⟨fun hSet => absurd hSet hFlag, hWritten⟩

/- An offset that has wrapped to the front stays small. -/
theorem putPiece_small {bound : Nat} (hSize : 0 ≤ w.size ∧ w.size ≤ bound)
    (hBound : bound + piece.content.length < 2 ^ 15) (hPut : putPiece dataLen w piece = .ok w') :
    0 ≤ w'.size ∧ w'.size ≤ (bound + piece.content.length : Nat) := by
  unfold putPiece at hPut
  unfold Piece.content at hBound ⊢
  by_cases hFlag : piece.flag = true
  · unfold put at hPut
    rw [if_pos hFlag] at hPut hBound ⊢
    split at hPut
    · cases hPut
    · rw [if_neg (by omega)] at hPut
      cases hPut
      unfold int16
      dsimp only
      omega
  · rw [if_neg hFlag] at hPut ⊢
    cases hPut
    exact hSize

theorem foldlM_cons_eq_ok (hFold : (piece :: pieces).foldlM (putPiece dataLen) w = .ok w') :
    ∃ mid, putPiece dataLen w piece = .ok mid ∧ pieces.foldlM (putPiece dataLen) mid = .ok w' := by
  exact bind_eq_ok.mp hFold

/- By induction on the pieces, behind what has been written. -/
theorem foldlM_ok (hWritten : Written w pre) (hReach : Reaches pre.length pieces)
    (hRoom : pre.length + (contents pieces).length ≤ dataLen) :
    ∃ w', pieces.foldlM (putPiece dataLen) w = .ok w' ∧ Written w' (pre ++ contents pieces) := by
  induction pieces generalizing w pre with
  | nil =>
    refine ⟨w, rfl, ?_⟩
    rwa [contents, flatMap_nil, append_nil]
  | cons piece pieces ih =>
    rw [contents_cons, length_append] at hRoom
    rcases putPiece_ok hWritten hReach.1 (show pre.length + piece.content.length ≤ dataLen by
      omega) with ⟨mid, hPut, hMid⟩
    have hRest := hReach.2
    rw [← length_append] at hRest
    rcases ih hMid hRest (by rw [length_append]; omega) with ⟨w', hFold, hAll⟩
    rw [contents_cons, ← List.append_assoc]
    exact ⟨w', bind_eq_ok.mpr ⟨mid, hPut, hFold⟩, hAll⟩

/- Pieces that have been written were in reach. -/
theorem foldlM_inv (hWritten : Written w pre) (hBound : pre.length < 2 ^ 16)
    (hShort : ∀ piece ∈ pieces, piece.octets.length < 2 ^ 15)
    (hFold : pieces.foldlM (putPiece dataLen) w = .ok w') :
    Reaches pre.length pieces ∧ Written w' (pre ++ contents pieces) := by
  induction pieces generalizing w pre with
  | nil =>
    cases hFold
    rw [contents, flatMap_nil, append_nil]
    exact ⟨trivial, hWritten⟩
  | cons piece pieces ih =>
    rcases foldlM_cons_eq_ok hFold with ⟨mid, hPut, hRest⟩
    rcases putPiece_inv hWritten hBound hPut with ⟨hReach, hMid⟩
    have hNext := next_lt hBound hReach (hShort piece mem_cons_self)
    rw [← length_append] at hNext
    rcases ih hMid hNext (fun other hMem =>
      hShort other (mem_cons_of_mem _ hMem)) hRest with
      ⟨hReaches, hAll⟩
    rw [length_append] at hReaches
    rw [List.append_assoc] at hAll
    exact ⟨⟨hReach, hReaches⟩, hAll⟩

theorem foldlM_small {bound : Nat} (hSize : 0 ≤ w.size ∧ w.size ≤ bound)
    (hBound : bound + (contents pieces).length < 2 ^ 15)
    (hFold : pieces.foldlM (putPiece dataLen) w = .ok w') :
    0 ≤ w'.size ∧ w'.size ≤ (bound + (contents pieces).length : Nat) := by
  induction pieces generalizing w bound with
  | nil =>
    cases hFold
    exact hSize
  | cons piece pieces ih =>
    rw [contents_cons, length_append] at hBound ⊢
    rcases foldlM_cons_eq_ok hFold with ⟨mid, hPut, hRest⟩
    have hMid := putPiece_small hSize (by omega) hPut
    rw [← Nat.add_assoc]
    exact ih hMid (by omega) hRest

end Written

---- What Is Parsed ----

section Parsed

variable {memory : Nat → U8} {len count pos next : Nat}

variable {α : Type}

theorem confined_parseField : Confined len (parseField memory len count decode) :=
  Confined.take.bind fun _ => .pure

theorem value_parseField (hStored : Stored memory pos items.toList) (hRoom : pos + count ≤ len) :
    ((parseField memory len count decode).run pos).value = .ok (decode items, pos + count) := by
  unfold parseField field
  rw [value_bind_of_ok (value_take hStored hRoom)]
  rfl

/- A piece is read back where it has been written. -/
theorem value_piece {piece : Piece} (decode : List.Vector U8 count → α) (default : α)
    (hLength : piece.octets.length = count) (hStored : Stored memory pos piece.content)
    (hRoom : pos + piece.content.length ≤ len) : ((optional piece.flag
        (parseField memory len count decode) default).run pos).value = .ok
        (if piece.flag then decode ⟨piece.octets, hLength⟩
          else default,
          pos + piece.content.length) := by
  unfold Piece.content at *
  cases hFlag : piece.flag with
  | false => rfl
  | true =>
    rw [hFlag] at hStored hRoom
    rw [if_pos rfl, if_pos rfl, hLength]
    have hItems : Stored memory pos (List.Vector.toList ⟨piece.octets, hLength⟩) := hStored
    exact value_parseField hItems (hLength ▸ hRoom)

theorem value_parseOctet (hStored : memory pos = value) (hRoom : pos + 1 ≤ len) :
    ((parseField memory len 1 firstOctet).run pos).value = .ok (value, pos + 1) := by
  have hItems : Stored memory pos (List.Vector.toList ⟨[value], rfl⟩) := ⟨hStored, trivial⟩
  exact value_parseField hItems hRoom

theorem parseField_inv {decode : List.Vector U8 count → α}
    (hValue : ((parseField memory len count decode).run pos).value = .ok (a, next)) :
    next = pos + count ∧ next ≤ len := by
  rcases value_bind_eq_ok hValue with ⟨items, after, hTake, hPure⟩
  cases hPure
  rcases value_take_eq_ok hTake with ⟨hNext, hRoom⟩
  exact ⟨hNext, hNext ▸ hRoom⟩

variable {flag : Bool}

theorem optional_inv {a default : α}
    (hValue : ((optional flag (parseField memory len count decode) default).run
          pos).value = .ok (a, next)) :
    next = pos + (if flag then count else 0) ∧ (flag = true → next ≤ len) := by
  cases flag with
  | false =>
    cases hValue
    exact ⟨rfl, fun hFlag => nomatch hFlag⟩
  | true =>
    rcases parseField_inv hValue with ⟨hNext, hRoom⟩
    exact ⟨hNext, fun _ => hRoom⟩

theorem exists_optional {decode : List.Vector U8 count → α} {default : α}
    (hRoom : pos + (if flag then count else 0) ≤ len) : ∃ a, ((optional flag
        (parseField memory len count decode) default).run pos).value =
        .ok (a, pos + if flag then count else 0) := by
  cases flag with
  | false => exact ⟨default, rfl⟩
  | true =>
    rcases exists_stored memory pos count with ⟨items, hStored, hLength⟩
    have hItems : Stored memory pos (List.Vector.toList ⟨items, hLength⟩) := hStored
    exact ⟨_, value_parseField hItems hRoom⟩

theorem confined_optional {memory : Nat → U8} {decode : List.Vector U8 count → α} {default : α} :
    Confined len (optional flag (parseField memory len count decode) default) :=
  confined_parseField.optional

end Parsed

theorem toNat_int16 {count : Nat} (hBound : count < 2 ^ 15) :
    (BitVec.ofInt 32 (int16 count)).toNat = count := by
  rw [toNat_ofInt]
  unfold int16
  omega

/- The length of an IE is not below what has been written. -/
theorem le_toNat_int16 {count : Nat} (hBound : count < 2 ^ 16) :
    count ≤ (BitVec.ofInt 32 (int16 count)).toNat := by
  rw [toNat_ofInt]
  unfold int16
  omega

end Pretty5gs.Pfcp.Ie
