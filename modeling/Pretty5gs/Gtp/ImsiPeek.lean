import Pretty5gs.Core.Types
import Pretty5gs.Library.Reader
import Pretty5gs.Library.TracedLoop

/-
  The IMSI of a packet, as the routers of the shards peek it.

  An IMSI of eight octets whose last half octet is not a filler has 16 digits, and its string 17
  characters.

  Main results: `ogsBufferToBcd_meets`, `ieRound_meets`, `imsi_peeks_are_bounded`.
-/

---- Digits ----

namespace Pretty5gs.Gtp.ImsiPeek

open Traced List Reader

def lowDigit (octet : U8) : U8 := 0x30 + (octet &&& 0x0f)

def highDigit (octet : U8) : U8 := 0x30 + ((octet &&& 0xf0) >>> 4)

/- The upper half is a filler. -/
def IsFilled (octet : U8) : Prop := octet &&& 0xf0 = 0xf0

instance (octet : U8) : Decidable (IsFilled octet) := inferInstanceAs (Decidable (_ = _))

/- `ogs_buffer_to_bcd`: what is written from `out` on. -/
def ogsBufferToBcd (packet : Nat → U8) (place inLen : Nat) : Traced Nat (List U8) := do
  let front ← readList packet place (inLen - 1)
  let last ← read packet (place + (inLen - 1))
  let digits := front.flatMap fun octet => [lowDigit octet, highDigit octet]
  if IsFilled last then return digits ++ [lowDigit last, 0]
  else return digits ++ [lowDigit last, highDigit last, 0]

---- The Peeking Functions ----

/- The result, and what has been written from `bcd` on. -/
structure Peek where
  rv : Rv
  written : List U8
deriving DecidableEq, Repr

/- Nothing but the first NUL has been written. -/
def noImsi : Peek := { rv := .error, written := [0] }

/- `OGS_MAX_IMSI_BCD_LEN` -/
def maxImsiBcdLen : Nat := 15

/- `OGS_MAX_IMSI_LEN` -/
def maxImsiLen : Nat := 8

/- `OGS_GTP2_IMSI_TYPE` -/
def gtp2ImsiType : U8 := 1

/- `OGS_GTP1_IMSI_TYPE` -/
def gtp1ImsiType : U8 := 2

/- One round of the walk over the IEs of a GTPv2 message. -/
def ieRound (packet : Nat → U8) (len p : Nat) : Traced Nat (Flow Nat Peek) :=
  if p + 4 ≤ len then do
    let type ← read packet p
    let high ← read packet (p + 1)
    let low ← read packet (p + 2)
    let inst ← read packet (p + 3)
    let ieLen := (high ++ low : U16).toNat
    if len < p + 4 + ieLen then return .done noImsi
    else if type = gtp2ImsiType ∧ inst &&& 0x0f = 0 ∧ 0 < ieLen then do
      let bcd ← ogsBufferToBcd packet (p + 4) (min ieLen maxImsiLen)
      return .done { rv := .ok, written := bcd }
    else return .next (p + 4 + ieLen)
  else return .done noImsi

/- The TEID is present. -/
def gtpv2HeaderLen (flags : U8) : Nat := if flags.getLsbD 3 then 12 else 8

/- The IEs are searched for an IMSI. -/
def gtpv2Walk (packet : Nat → U8) (len : Nat) : Traced Nat Peek :=
  if len < 8 then return noImsi
  else do
    let flags ← read packet 0
    if len < gtpv2HeaderLen flags then return noImsi
    else do
      let found ← loop (ieRound packet len) (len + 1) (gtpv2HeaderLen flags)
      return found.getD noImsi

/- The buffer is asserted to have more than so many octets. -/
def peekImsiBcd (least : Nat) (search : Traced Nat Peek)
    (bcdSize : Nat) : Except Fault (Traced Nat Peek) :=
  if least < bcdSize then .ok search
  else .error .assertion

/- `smf_gtpv2_peek_imsi_bcd` -/
def smfGtpv2PeekImsiBcd (packet : Nat → U8) (len bcdSize : Nat) : Except Fault (Traced Nat Peek) :=
  peekImsiBcd maxImsiBcdLen (gtpv2Walk packet len) bcdSize

/- `mme_gtpv2_peek_imsi_bcd` -/
def mmeGtpv2PeekImsiBcd (packet : Nat → U8) (len bcdSize : Nat) : Except Fault (Traced Nat Peek) :=
  peekImsiBcd 0 (gtpv2Walk packet len) bcdSize

/- An extension header, a sequence number or an N-PDU number. -/
def gtpv1HeaderLen (flags : U8) : Nat :=
  if flags.getLsbD 2 ∨ flags.getLsbD 1 ∨ flags.getLsbD 0 then 12
  else 8

/- The IMSI is expected right behind the header. -/
def gtpv1Peek (packet : Nat → U8) (len : Nat) : Traced Nat Peek :=
  if len < 8 then return noImsi
  else do
    let flags ← read packet 0
    if flags.getLsbD 2 then return noImsi
    else if len < gtpv1HeaderLen flags + 1 + 8 then return noImsi
    else do
      let type ← read packet (gtpv1HeaderLen flags)
      if type ≠ gtp1ImsiType then return noImsi
      else do
        let bcd ← ogsBufferToBcd packet (gtpv1HeaderLen flags + 1) 8
        return { rv := .ok, written := bcd }

/- `smf_gtpv1_peek_imsi_bcd` -/
def smfGtpv1PeekImsiBcd (packet : Nat → U8) (len bcdSize : Nat) : Except Fault (Traced Nat Peek) :=
  peekImsiBcd maxImsiBcdLen (gtpv1Peek packet len) bcdSize

---- Characters That Are Written ----

variable {packet : Nat → U8} {len p : Nat}

theorem length_digits {front : List U8} :
    (front.flatMap fun octet => [lowDigit octet, highDigit octet]).length = 2 * front.length := by
  induction front with
  | nil => rfl
  | cons octet front ih =>
    rw [flatMap_cons, length_append]
    simp only [length_cons, length_nil]
    omega

/- Two characters an octet, and the NUL. -/
theorem ogsBufferToBcd_meets (hSome : 0 < inLen) (hRoom : place + inLen ≤ len) :
    Meets (· < len) (ogsBufferToBcd packet place inLen) (fun bcd =>
        bcd.length = 2 * inLen +
            if IsFilled (packet (place + (inLen - 1))) then 0
            else 1) := by
  rcases exists_stored packet place (inLen - 1) with ⟨front, hStored, hLength⟩
  have hFront := value_readList hStored
  rw [hLength] at hFront
  refine .bind_value (within_readList.mpr fun i hLess => by omega) ?_
  refine .bind_value (within_read.mpr (by omega)) ?_
  rw [hFront, value_read]
  refine .ite (fun hFilled => .pure ?_) (fun hFilled => .pure ?_)
  · rw [if_pos hFilled, length_append, length_digits]
    simp only [length_cons, length_nil]
    omega
  · rw [if_neg hFilled, length_append, length_digits]
    simp only [length_cons, length_nil]
    omega

---- The Walk ----

/- The length of the IE at a place. -/
def ieLen (packet : Nat → U8) (p : Nat) : Nat := (packet (p + 1) ++ packet (p + 2) : U16).toNat

/- An IMSI that is taken: instance zero, and not empty. -/
def IsImsi (packet : Nat → U8) (p : Nat) : Prop :=
  packet p = gtp2ImsiType ∧ packet (p + 3) &&& 0x0f = 0 ∧ 0 < ieLen packet p

/- The IE at a place is in the packet. -/
def Complete (packet : Nat → U8) (len p : Nat) : Prop := p + 4 ≤ len ∧ p + 4 + ieLen packet p ≤ len

/- An IE is passed, to the next one. -/
def Steps (packet : Nat → U8) (len p next : Nat) : Prop :=
  Complete packet len p ∧ ¬ IsImsi packet p ∧ next = p + 4 + ieLen packet p

/- The IE at a place is the IMSI that is taken. -/
def ImsiAt (packet : Nat → U8) (len p : Nat) : Prop := Complete packet len p ∧ IsImsi packet p

theorem steps_rightUnique : Relator.RightUnique (Steps packet len) := by
  intro p first second hFirst hSecond
  rw [hFirst.2.2, hSecond.2.2]

/- What is written for an IMSI is too long for 16 characters. -/
def TooLong (packet : Nat → U8) (p : Nat) : Prop :=
  maxImsiLen ≤ ieLen packet p ∧ ¬ IsFilled (packet (p + 4 + 7))

/- What a walk that ends at a place gives. -/
structure EndsWith (packet : Nat → U8) (len p : Nat) (peek : Peek) : Prop where
  last : ∀ next, ¬ Steps packet len p next
  bounded : peek.written.length ≤ 16 ↔ ¬ (ImsiAt packet len p ∧ TooLong packet p)

theorem endsWith_noImsi (hIncomplete : ¬ Complete packet len p) : EndsWith packet len p noImsi where
  last _ hStep := hIncomplete hStep.1
  bounded := iff_of_true (by decide) fun hLong => hIncomplete hLong.1.1

/- The clamp leaves eight octets of a long IMSI. -/
theorem endsWith_imsi (hImsi : ImsiAt packet len p) (hLength : bcd.length =
        2 * min (ieLen packet p) maxImsiLen +
          if IsFilled (packet (p + 4 + (min (ieLen packet p) maxImsiLen - 1))) then 0
          else 1) :
    EndsWith packet len p { rv := .ok, written := bcd } where
  last _ hStep := hStep.2.1 hImsi.2
  bounded := by
    rw [and_iff_right hImsi]
    unfold TooLong
    unfold maxImsiLen at *
    by_cases hLong : 8 ≤ ieLen packet p
    · rw [Nat.min_eq_right hLong] at hLength
      rw [and_iff_right hLong, not_not, hLength]
      by_cases hFilled : IsFilled (packet (p + 4 + 7))
      · rw [if_pos hFilled]
        exact iff_of_true (Nat.le_refl _) hFilled
      · rw [if_neg hFilled]
        exact iff_of_false (by decide) hFilled
    · refine iff_of_true ?_ fun hBoth => hLong hBoth.1
      rw [hLength]
      split
      · omega
      · omega

theorem ieRound_meets :
    Meets (· < len) (ieRound packet len p)
      (Flow.Ends (Steps packet len p) (EndsWith packet len p)) := by
  refine .ite (fun hHeader => ?_) (fun hShort => ?_)
  · refine .bind_value (within_read.mpr (by omega)) ?_
    refine .bind_value (within_read.mpr (by omega)) ?_
    refine .bind_value (within_read.mpr (by omega)) ?_
    refine .bind_value (within_read.mpr (by omega)) ?_
    refine .ite (fun hBeyond => .pure ?_) (fun hRoom => ?_)
    · exact endsWith_noImsi fun hComplete => Nat.not_le_of_lt hBeyond hComplete.2
    · have hComplete : Complete packet len p := ⟨hHeader, Nat.le_of_not_lt hRoom⟩
      refine .ite (fun hImsi => ?_) (fun hOther => .pure ?_)
      · refine (ogsBufferToBcd_meets (Nat.lt_min.mpr ⟨hImsi.2.2, by decide⟩)
        (by omega)).bind fun bcd hLength => .pure ?_
        exact endsWith_imsi ⟨hComplete, hImsi⟩ hLength
      · exact ⟨hComplete, hOther, rfl⟩
  · exact .pure (endsWith_noImsi fun hComplete => hShort hComplete.1)

/- The IMSI that a walk finds, if it is too long. -/
def Gtpv2TooLong (packet : Nat → U8) (len : Nat) : Prop :=
  8 ≤ len ∧ gtpv2HeaderLen (packet 0) ≤ len ∧ ∃ p, Relation.ReflTransGen (Steps packet len)
      (gtpv2HeaderLen (packet 0)) p ∧
    ImsiAt packet len p ∧ TooLong packet p

/- A walk ends at one place, which decides what is written. -/
theorem loop_meets :
    Meets (· < len) (loop (ieRound packet len) (len + 1) start)
      (fun found => ∃ peek, found = some peek ∧ (peek.written.length ≤ 16 ↔
          ¬ ∃ p, Relation.ReflTransGen (Steps packet len) start p ∧
            ImsiAt packet len p ∧ TooLong packet p)) := by
  have hBody (p : Nat) (hWalk : Relation.ReflTransGen (Steps packet len) start p) :
    Meets (· < len) (ieRound packet len p) (Flow.Ends (fun next =>
      Relation.ReflTransGen (Steps packet len) start next ∧ len - next < len - p)
      (fun peek => ∃ p, Relation.ReflTransGen (Steps packet len) start p ∧
        EndsWith packet len p peek)) := by
    refine ieRound_meets.mono fun flow hEnds => ?_
    cases flow with
    | next next =>
      have hHeader := hEnds.1.1
      have hNext := hEnds.2.2
      exact ⟨hWalk.tail hEnds, by omega⟩
    | done peek => exact ⟨p, hWalk, hEnds⟩
  refine (Meets.loop hBody .refl (by omega)).mono ?_
  rintro found ⟨peek, hFound, p, hWalk, hEnds⟩
  refine ⟨peek, hFound, hEnds.bounded.trans (not_congr ?_)⟩
  constructor
  · exact fun hLong => ⟨p, hWalk, hLong⟩
  · rintro ⟨q, hOther, hImsi, hLong⟩
    have hSame := walk_end_unique steps_rightUnique
      hWalk hOther hEnds.last fun next hStep => hStep.2.1 hImsi.2
    rw [hSame]
    exact ⟨hImsi, hLong⟩

theorem gtpv2Walk_meets :
    Meets (· < len) (gtpv2Walk packet len) (fun peek =>
        peek.written.length ≤ 16 ↔ ¬ Gtpv2TooLong packet len) := by
  have hNone : noImsi.written.length ≤ 16 := by decide
  refine .ite (fun hShort => .pure ?_) (fun hEnough => ?_)
  · exact iff_of_true hNone fun hLong => by
      have hHeader := hLong.1
      omega
  · refine .bind_value (within_read.mpr (by omega)) ?_
    rw [value_read]
    refine .ite (fun hShort => .pure ?_) (fun hHeader => ?_)
    · exact iff_of_true hNone fun hLong => Nat.not_le_of_lt hShort hLong.2.1
    · refine loop_meets.bind ?_
      rintro found ⟨peek, rfl, hBounded⟩
      refine .pure (hBounded.trans (not_congr ?_))
      exact ⟨fun hImsi => ⟨by omega, by omega, hImsi⟩, fun hLong => hLong.2.2⟩

/- The IMSI of a GTPv1 message has eight octets. -/
def Gtpv1TooLong (packet : Nat → U8) (len : Nat) : Prop :=
  8 ≤ len ∧ ¬ (packet 0).getLsbD 2 = true ∧ gtpv1HeaderLen (packet 0) + 1 + 8 ≤ len ∧
  packet (gtpv1HeaderLen (packet 0)) = gtp1ImsiType ∧
  ¬ IsFilled (packet (gtpv1HeaderLen (packet 0) + 1 + 7))

theorem gtpv1Peek_meets :
    Meets (· < len) (gtpv1Peek packet len) (fun peek =>
        peek.written.length ≤ 16 ↔ ¬ Gtpv1TooLong packet len) := by
  unfold gtpv1Peek Gtpv1TooLong
  have hNone : noImsi.written.length ≤ 16 := by decide
  refine .ite (fun hShort => .pure ?_) (fun hEnough => ?_)
  · exact iff_of_true hNone fun hLong => by omega
  refine .bind_value (within_read.mpr (by omega)) ?_
  rw [value_read]
  refine .ite (fun hExtension => .pure ?_) (fun hPlain => ?_)
  · exact iff_of_true hNone fun hLong => hLong.2.1 hExtension
  refine .ite (fun hShort => .pure ?_) (fun hRoom => ?_)
  · exact iff_of_true hNone fun hLong => Nat.not_le_of_lt hShort hLong.2.2.1
  refine .bind_value (within_read.mpr (by omega)) ?_
  rw [value_read]
  refine .ite (fun hOther => .pure ?_) (fun hImsi => ?_)
  · exact iff_of_true hNone fun hLong => hOther hLong.2.2.2.1
  refine (ogsBufferToBcd_meets (by decide)
    (Nat.le_of_not_lt hRoom)).bind fun bcd hLength => .pure ?_
  rw [and_iff_right (Nat.le_of_not_lt hEnough),
    and_iff_right hPlain, and_iff_right (Nat.le_of_not_lt hRoom),
    and_iff_right (not_not.mp hImsi), not_not]
  rw [hLength]
  by_cases hFilled : IsFilled (packet (gtpv1HeaderLen (packet 0) + 1 + 7))
  · rw [if_pos hFilled]
    exact iff_of_true (Nat.le_refl _) hFilled
  · rw [if_neg hFilled]
    exact iff_of_false (by decide) hFilled

---- Buffers Of The Callers ----

inductive Peeker where
  | smfGtpv2
  | smfGtpv1
  | mmeGtpv2
deriving DecidableEq, Repr

def peek : Peeker → (Nat → U8) → Nat → Nat → Except Fault (Traced Nat Peek)
  | .smfGtpv2 => smfGtpv2PeekImsiBcd
  | .smfGtpv1 => smfGtpv1PeekImsiBcd
  | .mmeGtpv2 => mmeGtpv2PeekImsiBcd

/- The IMSI that is taken has 16 digits. -/
def SixteenDigits : Peeker → (Nat → U8) → Nat → Prop
  | .smfGtpv2 | .mmeGtpv2 => Gtpv2TooLong
  | .smfGtpv1 => Gtpv1TooLong

/- `sizeof(imsi_bcd)` -/
def callerSize : Nat := maxImsiBcdLen + 1

/-
  Octets of the packet are read, and the buffer of the caller is left if and only if the IMSI has 16
  digits.
-/
theorem imsi_peeks_are_bounded (peeker : Peeker) (packet : Nat → U8) (len : Nat) :
    ∃ result, peek peeker packet len callerSize = .ok result ∧ result.Within (· < len) ∧
      (result.value.written.length ≤ callerSize ↔ ¬ SixteenDigits peeker packet len) := by
  cases peeker with
  | smfGtpv2 => exact ⟨_, rfl, gtpv2Walk_meets⟩
  | smfGtpv1 => exact ⟨_, rfl, gtpv1Peek_meets⟩
  | mmeGtpv2 => exact ⟨_, rfl, gtpv2Walk_meets⟩

/- A header without a TEID, and an IMSI of 16 digits. -/
def longImsiPacket : List U8 :=
  [0x40, 0x20, 0x00, 0x10, 0x00, 0x00, 0x00, 0x00, 0x01, 0x00, 0x08, 0x00,
   0x00, 0x11, 0x22, 0x33, 0x44, 0x55, 0x66, 0x77]

theorem imsi_of_sixteen_digits_overflows :
    ∃ result, peek .smfGtpv2 (fun i => longImsiPacket.getD i 0) 20 callerSize = .ok result ∧
      result.value.written.length = 17 :=
  ⟨_, rfl, by decide⟩

end Pretty5gs.Gtp.ImsiPeek
