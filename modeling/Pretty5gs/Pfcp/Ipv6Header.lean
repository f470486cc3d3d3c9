import Pretty5gs.Core.Types
import Pretty5gs.Library.TracedLoop

/-
  The headers of an IPv6 packet.

  The extension headers are followed up to the header of the upper layer. The end of the packet is
  given by the payload length, or by the jumbo payload option if that is 0.

  Main results: `jumboBody_meets` and `extensionBody_meets`, `decodeIpv6Header_meets`,
  `ipv6_headers_are_walked`.
-/

---- Fields ----

namespace Pretty5gs.Pfcp.RuleMatch

open Traced

/- The octets from `pkbuf->data` on. -/
abbrev Memory := Nat → U8

/- A field of two octets in network byte order. -/
def readBe16 (memory : Memory) (place : Nat) : Traced Nat U16 := do
  let high ← read memory place
  let low ← read memory (place + 1)
  return high ++ low

/- A field of four octets in network byte order. -/
def readBe32 (memory : Memory) (place : Nat) : Traced Nat U32 := do
  let high ← readBe16 memory place
  let low ← readBe16 memory (place + 2)
  return high ++ low

/- `sizeof(struct ip6_hdr)` -/
def ip6HdrSize : Nat := 40

/- `sizeof(struct ip6_ext)`, and of `ip6_hbh` and `ip6_opt` -/
def ip6ExtSize : Nat := 2

/- `sizeof(struct ip6_frag)` -/
def ip6FragSize : Nat := 8

/- `IP6OPT_JUMBO` -/
def ip6OptJumbo : U8 := 0xc2

/- `IPPROTO_HOPOPTS` -/
def ipprotoHopopts : U8 := 0

/- `IPPROTO_ROUTING` -/
def ipprotoRouting : U8 := 43

/- `IPPROTO_FRAGMENT` -/
def ipprotoFragment : U8 := 44

/- `IPPROTO_AH` -/
def ipprotoAh : U8 := 51

/- `IPPROTO_DSTOPTS` -/
def ipprotoDstopts : U8 := 60

/- The next headers whose length is in units of 8 octets. -/
def optionsHeaders : List U8 := [ipprotoHopopts, ipprotoRouting, ipprotoDstopts, 135, 139,
   140, 253, 254]

/- The extension headers that are told apart. -/
inductive ExtensionKind where
  | options
  | fragment
  | authentication
deriving DecidableEq, Repr

/- The cases of the next header; the others are upper layers. -/
def extensionKind (nxt : U8) : Option ExtensionKind :=
  if nxt ∈ optionsHeaders then some .options
  else if nxt = ipprotoFragment then some .fragment
  else if nxt = ipprotoAh then some .authentication
  else none

---- The Walk ----

/-
  One round of the loop over the options of the hop-by-hop header that starts at `p`. The result is
  the end of the packet, if it is accepted.
-/
def jumboBody (memory : Memory) (bufend p optend : Nat)
    (jp : Nat) : Traced Nat (Flow Nat (Option Nat)) :=
  if optend ≤ jp then return .done none
  else do
    let optType ← read memory jp
    -- Pad1 is the one option without a length.
    if optType = 0 then return .next (jp + 1)
    else if optend - jp < ip6ExtSize then return .done none
    else do
      let len ← read memory (jp + 1)
      if optend - jp < ip6ExtSize + len.toNat then return .done none
      else if optType = ip6OptJumbo then
        if len ≠ 4 then return .done none
        else do
          let jpLen ← readBe32 memory (jp + 2)
          if jpLen.toNat ≤ 0xffff then return .done none
          else if bufend - p < jpLen.toNat then return .done none
          else return .done (some (p + jpLen.toNat))
      else return .next (jp + (ip6ExtSize + len.toNat))

/-
  An extension header with its length in the second octet: the place behind it and the next header,
  if it fits.
-/
def sizedExtension (memory : Memory) (size : Nat → Nat) (endp p : Nat) :
    Traced Nat (Flow (Nat × U8) (Option (Nat × U8))) :=
  if endp - p < ip6ExtSize then return .done none
  else do
    let len ← read memory (p + 1)
    if endp - p < size len.toNat then return .done none
    else do
      let nxt ← read memory p
      return .next (p + size len.toNat, nxt)

/- The octets of an extension header with options. -/
def optionsSize (len : Nat) : Nat := len <<< 3 + 8

/- The octets of an authentication header. -/
def authenticationSize (len : Nat) : Nat := (len + 2) <<< 2

/-
  One round of the loop over the extension headers. The result is the place of the upper layer and
  its protocol.
-/
def extensionBody (memory : Memory) (endp : Nat) (walk : Nat × U8) :
    Traced Nat (Flow (Nat × U8) (Option (Nat × U8))) :=
  if endp ≤ walk.1 then return .done (some walk)
  else
    match extensionKind walk.2 with
    | none => return .done (some walk)
    | some .options => sizedExtension memory optionsSize endp walk.1
    | some .authentication => sizedExtension memory authenticationSize endp walk.1
    | some .fragment =>
        if endp - walk.1 < ip6FragSize then return .done none
        else do
          let nxt ← read memory walk.1
          return .next (walk.1 + ip6FragSize, nxt)

/- What `decode_ipv6_header` stores if it succeeds. -/
structure Decoded where
  proto : U8
  hlen : Nat
  plen : Nat
deriving DecidableEq, Repr

/- How `decode_ipv6_header` ends. -/
inductive Decoding where
  | running
  | error
  | ok (decoded : Decoded)
deriving DecidableEq, Repr

/- The loop over the extension headers, and what is stored. -/
def extensionWalk (memory : Memory) (buflen endp : Nat) (nxt : U8) : Traced Nat Decoding := do
  match ← loop (extensionBody memory endp) buflen (ip6HdrSize, nxt) with
  | none => return .running
  | some none => return .error
  | some (some (p, proto)) =>
      if 0xffff < p then return .error
      else return .ok { proto := proto, hlen := p, plen := endp }

/- The end of a packet with the payload length 0, by the options of its first extension header. -/
def jumboWalk (memory : Memory) (buflen : Nat) (nxt : U8) : Traced Nat (Option (Option Nat)) :=
  if nxt ≠ ipprotoHopopts then return some none
  else if buflen - ip6HdrSize < ip6ExtSize then return some none
  else do
    let len ← read memory (ip6HdrSize + 1)
    if buflen - ip6HdrSize < optionsSize len.toNat then return some none
    else
      loop (jumboBody memory buflen ip6HdrSize (ip6HdrSize + optionsSize len.toNat))
        buflen (ip6HdrSize + ip6ExtSize)

/- `decode_ipv6_header`. The rounds of its loops are as many as the buffer has octets. -/
def decodeIpv6Header (memory : Memory) (buflen : Nat) : Traced Nat Decoding :=
  if buflen < ip6HdrSize then return .error
  else do
    let nxt ← read memory 6
    let plen ← readBe16 memory 4
    if plen = 0 then do
      match ← jumboWalk memory buflen nxt with
      | none => return .running
      | some none => return .error
      | some (some endp) => extensionWalk memory buflen endp nxt
    else if buflen - ip6HdrSize < plen.toNat then return .error
    else extensionWalk memory buflen (ip6HdrSize + plen.toNat) nxt

---- Places And Ends ----

section Places

variable {memory : Memory} {P : Nat → Prop}

@[simp] theorem within_readBe16 : (readBe16 memory place).Within P ↔ P place ∧ P (place + 1) := by
  simp [readBe16]

@[simp] theorem within_readBe32 :
    (readBe32 memory place).Within P ↔
      (P place ∧ P (place + 1)) ∧ P (place + 2) ∧ P (place + 3) := by
  simp [readBe32]

/- The end of a packet, if it was found, is in the buffer. -/
def EndWithin (p bufend : Nat) (endp : Option Nat) : Prop := ∀ stop ∈ endp, p ≤ stop ∧ stop ≤ bufend

theorem endWithin_none (p bufend : Nat) : EndWithin p bufend none := by
  intro stop hStop
  cases hStop

/-
  A round of the loop over options reads in front of their end and goes on behind an option that
  fits.
-/
theorem jumboBody_meets (hStart : p ≤ bufend) (hEnd : optend ≤ bufend) :
    Meets (· < bufend) (jumboBody memory bufend p optend jp) (Flow.Ends
        (fun jp' => True ∧ optend - jp' < optend - jp) (EndWithin p bufend)) := by
  have hNone := endWithin_none p bufend
  unfold jumboBody ip6ExtSize
  refine .ite (fun _ => .pure hNone) (fun hInside => ?_)
  refine .bind_value (within_read.mpr (by omega)) ?_
  refine .ite (fun _ => .pure ⟨trivial, ?_⟩) (fun _ => ?_)
  · omega
  refine .ite (fun _ => .pure hNone) (fun hRoom => ?_)
  refine .bind_value (within_read.mpr (by omega)) ?_
  refine .ite (fun _ => .pure hNone) (fun hFits => ?_)
  rw [value_read] at hFits ⊢
  refine .ite (fun _ => ?_) (fun _ => .pure ⟨trivial, ?_⟩)
  · refine .ite (fun _ => .pure hNone) (fun hLen => ?_)
    have hFour : (memory (jp + 1)).toNat = 4 := congrArg BitVec.toNat (not_not.mp hLen)
    refine .bind_value (within_readBe32.mpr (by omega)) ?_
    refine .ite (fun _ => .pure hNone) (fun _ => ?_)
    refine .ite (fun _ => .pure hNone) (fun hJumbo => .pure ?_)
    intro stop hStop
    cases hStop
    omega
  · omega

/- An extension header that fits is left behind. -/
theorem sizedExtension_meets (hSize : ∀ len, 0 < size len) (hEnd : endp ≤ buflen)
    (hInside : p < endp) :
    Meets (· < buflen) (sizedExtension memory size endp p) (Flow.Ends
        (fun walk => p < walk.1 ∧ walk.1 ≤ endp) (fun result => result = none)) := by
  unfold sizedExtension ip6ExtSize
  refine .ite (fun _ => .pure rfl) (fun _ => ?_)
  refine .bind_value (within_read.mpr (by omega)) ?_
  refine .ite (fun _ => .pure rfl) (fun hFits => ?_)
  refine .bind_value (within_read.mpr (by omega)) ?_
  have hPos := hSize (read memory (p + 1)).value.toNat
  refine .pure ?_
  constructor
  · omega
  · omega

theorem optionsSize_pos (len : Nat) : 0 < optionsSize len := by
  unfold optionsSize
  omega

theorem authenticationSize_pos (len : Nat) : 0 < authenticationSize len := by
  unfold authenticationSize
  omega

/- The walk stays between the fixed header and the end. -/
def Between (endp : Nat) (walk : Nat × U8) : Prop := ip6HdrSize ≤ walk.1 ∧ walk.1 ≤ endp

theorem extensionBody_meets (hEnd : endp ≤ buflen) (hBetween : Between endp walk) :
    Meets (· < buflen) (extensionBody memory endp walk) (Flow.Ends (fun walk' =>
          Between endp walk' ∧ endp - walk'.1 < endp - walk.1)
        (fun result => ∀ stop ∈ result, Between endp stop)) := by
  have hStop : ∀ stop ∈ some walk, Between endp stop := by
    intro stop hStop
    cases hStop
    exact hBetween
  have hNone : ∀ stop ∈ (none : Option (Nat × U8)), Between endp stop := by
    intro stop hStop
    cases hStop
  refine .ite (fun _ => .pure hStop) (fun hInside => ?_)
  have hLess : walk.1 < endp := Nat.lt_of_not_le hInside
  -- Behind a header the walk is still behind the first one.
  have hMoved (x : Traced Nat (Flow (Nat × U8) (Option (Nat × U8)))) (hMeets : Meets (· < buflen) x
    (Flow.Ends (fun walk' => walk.1 < walk'.1 ∧ walk'.1 ≤ endp)
      (fun result => result = none))) : Meets (· < buflen) x (Flow.Ends (fun walk' =>
      Between endp walk' ∧ endp - walk'.1 < endp - walk.1)
    (fun result => ∀ stop ∈ result, Between endp stop)) := by
    refine hMeets.mono ?_
    intro flow hEnds
    cases flow with
    | next walk' =>
      have hFirst := hBetween.1
      have hBehind : walk.1 < walk'.1 := hEnds.1
      exact ⟨⟨by omega, hEnds.2⟩, by omega⟩
    | done result =>
      have hResult : result = none := hEnds
      rw [hResult]
      exact hNone
  cases extensionKind walk.2 with
  | none => exact .pure hStop
  | some kind =>
    cases kind with
    | options => exact hMoved _ (sizedExtension_meets optionsSize_pos hEnd hLess)
    | authentication => exact hMoved _ (sizedExtension_meets authenticationSize_pos hEnd hLess)
    | fragment =>
      refine hMoved _ ?_
      unfold ip6FragSize
      refine .ite (fun _ => .pure rfl) (fun hFits => ?_)
      refine .bind_value (within_read.mpr (by omega)) ?_
      refine .pure ?_
      constructor
      · omega
      · omega

/- What holds of the offsets that are stored. -/
def Bounded (buflen : Nat) (decoding : Decoding) : Prop := decoding ≠ .running ∧
    ∀ decoded, decoding = .ok decoded → ip6HdrSize ≤ decoded.hlen ∧
        decoded.hlen ≤ decoded.plen ∧ decoded.plen ≤ buflen

theorem bounded_error : Bounded buflen .error := ⟨nofun, nofun⟩

theorem extensionWalk_meets (hFirst : ip6HdrSize ≤ endp) (hEnd : endp ≤ buflen) :
    Meets (· < buflen) (extensionWalk memory buflen endp nxt) (Bounded buflen) := by
  have hPos : 0 < ip6HdrSize := by decide
  refine .bind (Meets.loop (fun _ => extensionBody_meets hEnd) ⟨Nat.le_refl _, hFirst⟩
    (show endp - ip6HdrSize < buflen by omega)) ?_
  rintro result ⟨stop, rfl, hStop⟩
  cases stop with
  | none => exact .pure (bounded_error)
  | some walk =>
    have hBetween := hStop walk rfl
    refine .ite (fun _ => .pure (bounded_error)) (fun _ => .pure ⟨nofun, ?_⟩)
    intro decoded hDecoded
    cases hDecoded
    exact ⟨hBetween.1, hBetween.2, hEnd⟩

theorem jumboWalk_meets (hFirst : ip6HdrSize ≤ buflen) :
    Meets (· < buflen) (jumboWalk memory buflen nxt) (fun result => ∃ endp, result = some endp ∧
        EndWithin ip6HdrSize buflen endp) := by
  have hNone := endWithin_none ip6HdrSize buflen
  unfold jumboWalk ip6ExtSize
  refine .ite (fun _ => .pure ⟨none, rfl, hNone⟩) (fun _ => ?_)
  refine .ite (fun _ => .pure ⟨none, rfl, hNone⟩) (fun hRoom => ?_)
  refine .bind_value (within_read.mpr (by omega)) ?_
  refine .ite (fun _ => .pure ⟨none, rfl, hNone⟩) (fun hFits => ?_)
  exact Meets.loop (fun jp _ => jumboBody_meets hFirst (by omega)) trivial (by omega)

theorem decodeIpv6Header_meets :
    Meets (· < buflen) (decodeIpv6Header memory buflen) (Bounded buflen) := by
  have hSize : ip6HdrSize = 40 := rfl
  refine .ite (fun _ => .pure (bounded_error)) (fun hShort => ?_)
  refine .bind_value (within_read.mpr (by omega)) ?_
  refine .bind_value (within_readBe16.mpr (by omega)) ?_
  refine .ite (fun _ => ?_) (fun _ => ?_)
  · refine .bind (jumboWalk_meets (by omega)) ?_
    rintro result ⟨endp, rfl, hEnd⟩
    cases endp with
    | none => exact .pure (bounded_error)
    | some stop =>
      rcases hEnd stop rfl with ⟨hFirst, hLast⟩
      exact extensionWalk_meets hFirst hLast
  · refine .ite (fun _ => .pure (bounded_error)) (fun hFits => ?_)
    exact extensionWalk_meets (Nat.le_add_right _ _) (by omega)

end Places

/-
  Whatever the buffer holds, the walk over the headers ends, reads octets of the buffer only, and
  stores offsets in it.
-/
theorem ipv6_headers_are_walked (memory : Memory) (buflen : Nat) :
    (decodeIpv6Header memory buflen).Within (· < buflen) ∧
      (decodeIpv6Header memory buflen).value ≠ .running ∧ ∀ decoded,
        (decodeIpv6Header memory buflen).value = .ok decoded →
          40 ≤ decoded.hlen ∧ decoded.hlen ≤ decoded.plen ∧ decoded.plen ≤ buflen := by
  rcases decodeIpv6Header_meets with ⟨hWithin, hEnds, hBounded⟩
  exact ⟨hWithin, hEnds, hBounded⟩

end Pretty5gs.Pfcp.RuleMatch
