import Mathlib
import Pretty5gs.Library.NetOctets
import Pretty5gs.Library.Reader
import Pretty5gs.Pfcp.Ipv6Header

/-
  IPv4 and IPv6 packets and their octets.

  A packet is described by its fields, with its extension headers as a list. The headers that are
  found in the octets of a packet are those it is made of.

  Main results: `value_loop_chain`, `value_loop_options`, `decodeIpv6Header_packet`.
-/

---- IPv4 Packets ----

namespace Pretty5gs.Pfcp.RuleMatch

open NetOctets

/- An IPv4 packet. The field `fragment` has the flags and the fragment offset. -/
structure Ipv4Packet where
  tos : U8
  ident : U16
  fragment : U16
  ttl : U8
  proto : U8
  checksum : U16
  src : U32
  dst : U32
  options : List U32
  payload : List U8
  options_fit : options.length ≤ 10
  length_fits : 20 + 4 * options.length + payload.length < 2 ^ 16

namespace Ipv4Packet

variable (p : Ipv4Packet)

def headerLength : Nat := 20 + 4 * p.options.length

def totalLength : Nat := p.headerLength + p.payload.length

/- The version, and the length of the header in words. -/
def firstOctet : U8 := (4 : BitVec 4) ++ BitVec.ofNat 4 (5 + p.options.length)

def octets : List U8 := p.firstOctet :: p.tos ::
    (be16 (BitVec.ofNat 16 p.totalLength) ++ (be16 p.ident ++ (be16 p.fragment ++
        p.ttl :: p.proto :: (be16 p.checksum ++ (be32 p.src ++ (be32 p.dst ++
            (p.options.flatMap be32 ++ p.payload)))))))

/- The packet is not the first fragment. -/
def isLater : Bool := p.fragment &&& 0x1fff != 0

end Ipv4Packet

---- IPv6 Packets ----

/- An extension header without its first octet, which is the kind of the header behind it. -/
inductive Extension where
  | options (kind : { nxt : U8 // nxt ∈ optionsHeaders }) (len : U8)
      (body : List.Vector U8 (8 * len.toNat + 6))
  | fragment (reserved : U8) (offset : U16) (ident : U32)
  | authentication (len : U8) (body : List.Vector U8 (4 * len.toNat + 6))

namespace Extension

def kind : Extension → U8
  | .options kind _ _ => kind.1
  | .fragment _ _ _ => ipprotoFragment
  | .authentication _ _ => ipprotoAh

def rest : Extension → List U8
  | .options _ len body => len :: body.toList
  | .fragment reserved offset ident => reserved :: (be16 offset ++ be32 ident)
  | .authentication len body => len :: body.toList

/- A fragment header with an offset. -/
def isLater : Extension → Bool
  | .fragment _ offset _ => offset >>> 3 != 0
  | _ => false

end Extension

/- The kind of the first of some headers. -/
def firstHeader : List Extension → U8 → U8
  | [], proto => proto
  | ext :: _, _ => ext.kind

def chainOctets : List Extension → U8 → List U8
  | [], _ => []
  | ext :: exts, proto => firstHeader exts proto :: (ext.rest ++ chainOctets exts proto)

/- A hop-by-hop option other than the jumbo payload. -/
inductive HopOption where
  | pad1
  | other (type : { type : U8 // type ≠ 0 ∧ type ≠ ip6OptJumbo }) (len : U8)
      (data : List.Vector U8 len.toNat)

def HopOption.octets : HopOption → List U8
  | .pad1 => [0]
  | .other type len data => type.1 :: len :: data.toList

open HopOption

/-
  The first extension header has the jumbo payload option with a payload length of more than 16
  bits.
-/
def Jumbo : List Extension → Nat → Prop
  | .options kind _ body :: _, length =>
      kind.1 = ipprotoHopopts ∧ 0xffff < length ∧ length < 2 ^ 32 ∧
        ∃ (before : List HopOption) (after : List U8), body.toList =
            before.flatMap octets ++ (ip6OptJumbo :: 4 ::
                (be32 (BitVec.ofNat 32 length) ++ after))
  | _, _ => False

def words (address : Fin 4 → U32) : List U8 := be32 (address 0) ++ (be32 (address 1) ++
    (be32 (address 2) ++ be32 (address 3)))

/- An IPv6 packet. The traffic class and the flow label are split where the first octet ends. -/
structure Ipv6Packet where
  classHigh : BitVec 4
  flow : List.Vector U8 3
  hopLimit : U8
  src : Fin 4 → U32
  dst : Fin 4 → U32
  extensions : List Extension
  proto : U8
  payload : List U8
  proto_upper : extensionKind proto = none
  length_fits : (chainOctets extensions proto).length + payload.length ≤ 0xffff ∨ Jumbo extensions
        ((chainOctets extensions proto).length + payload.length)

namespace Ipv6Packet

variable (p : Ipv6Packet)

def chain : List U8 := chainOctets p.extensions p.proto

def payloadLength : Nat := p.chain.length + p.payload.length

def headerLength : Nat := ip6HdrSize + p.chain.length

def totalLength : Nat := ip6HdrSize + p.payloadLength

/- The payload length, which is 0 if it takes more than 16 bits. -/
def lengthField : U16 :=
  if p.payloadLength ≤ 0xffff then BitVec.ofNat 16 p.payloadLength
  else 0

def octets : List U8 := ((6 : BitVec 4) ++ p.classHigh) ::
    (p.flow.toList ++ (be16 p.lengthField ++ firstHeader p.extensions p.proto :: p.hopLimit ::
        (words p.src ++ (words p.dst ++ (p.chain ++ p.payload)))))

/- The packet is not the first fragment. -/
def isLater : Bool := p.extensions.any Extension.isLater

end Ipv6Packet

---- Fields Of Stored Octets ----

section Fields

variable {memory : Memory} {place : Nat}

open Traced
open Reader (Stored stored_append)

theorem value_readBe16 {w : U16} (hStored : Stored memory place (be16 w)) :
    (readBe16 memory place).value = w := by
  rcases hStored with ⟨hHigh, hLow, _⟩
  show memory place ++ memory (place + 1) = w
  rw [hHigh, hLow, high_append_low16]

theorem value_readBe32 {w : U32} (hStored : Stored memory place (be32 w)) :
    (readBe32 memory place).value = w := by
  rcases stored_append.mp hStored with ⟨hHigh, hLow⟩
  rw [length_be16] at hLow
  show (readBe16 memory place).value ++ (readBe16 memory (place + 2)).value = w
  rw [value_readBe16 hHigh, value_readBe16 hLow, high_append_low32]

end Fields

---- The Chain Of Headers ----

section Chain

variable {memory : Memory} {place endp : Nat}

open Traced
open Reader (Stored stored_append)

/- A header with its length in the second octet is passed. -/
theorem value_sizedExtension (hStored : Stored memory place (nxt :: len :: body))
    (hSize : size len.toNat = body.length + 2) (hFits : place + size len.toNat ≤ endp) :
    (sizedExtension memory size endp place).value = .next (place + size len.toNat, nxt) := by
  rcases hStored with ⟨hNext, hLen, _⟩
  unfold sizedExtension ip6ExtSize
  rw [if_neg (by omega), value_bind, value_read, hLen,
    if_neg (by omega), value_bind, value_read, hNext]
  rfl

/- An extension header that is there is passed. -/
theorem value_extensionBody {ext : Extension} (hStored : Stored memory place (nxt :: ext.rest))
    (hFits : place + (ext.rest.length + 1) ≤ endp) :
    (extensionBody memory endp (place, ext.kind)).value =
      .next (place + (ext.rest.length + 1), nxt) := by
  have hInside : ¬ endp ≤ place := by omega
  unfold extensionBody
  rw [if_neg hInside]
  cases ext with
  | options kind len body =>
    have hKind : extensionKind (Extension.options kind len body).kind =
      some .options := if_pos kind.2
    have hSize : optionsSize len.toNat = body.toList.length + 2 := by
      rw [List.Vector.toList_length]
      unfold optionsSize
      omega
    have hLength : (Extension.options kind len body).rest.length + 1 =
      optionsSize len.toNat := hSize.symm
    simp only [hKind]
    rw [hLength] at hFits ⊢
    exact value_sizedExtension hStored hSize hFits
  | fragment reserved offset ident =>
    have hKind : extensionKind (Extension.fragment reserved offset ident).kind =
      some .fragment := rfl
    have hLength : (Extension.fragment reserved offset ident).rest.length + 1 = ip6FragSize := rfl
    simp only [hKind]
    rw [if_neg (by omega), value_bind, value_read, hStored.1]
    rfl
  | authentication len body =>
    have hSize : authenticationSize len.toNat = body.toList.length + 2 := by
      rw [List.Vector.toList_length]
      unfold authenticationSize
      omega
    have hLength : (Extension.authentication len body).rest.length + 1 =
      authenticationSize len.toNat := hSize.symm
    rw [hLength] at hFits ⊢
    exact value_sizedExtension hStored hSize hFits

/-
  By induction on the extension headers: the walk over them ends at the upper layer, which no case
  of the loop takes.
-/
theorem value_loop_chain (hUpper : extensionKind proto = none)
    (hStored : Stored memory place (chainOctets exts proto))
    (hFits : place + (chainOctets exts proto).length ≤ endp) (hRounds : exts.length < rounds) :
    (loop (extensionBody memory endp) rounds (place, firstHeader exts proto)).value = some (some
        (place + (chainOctets exts proto).length, proto)) := by
  induction exts generalizing place rounds with
  | nil =>
    cases rounds with
    | zero => cases hRounds
    | succ rounds =>
      refine value_loop_done ?_
      unfold extensionBody
      by_cases hEnd : endp ≤ place
      · rw [if_pos hEnd]
        rfl
      · rw [if_neg hEnd]
        simp only [firstHeader, hUpper]
        rfl
  | cons ext exts ih =>
    cases rounds with
    | zero => cases hRounds
    | succ rounds =>
      have hSplit : chainOctets (ext :: exts) proto = (firstHeader exts proto :: ext.rest) ++
        chainOctets exts proto := rfl
      rw [hSplit] at hStored hFits ⊢
      rw [List.length_append] at hFits ⊢
      rcases stored_append.mp hStored with ⟨hExt, hRest⟩
      rw [List.length_cons] at hFits hRest ⊢
      have hExtFits : place + (ext.rest.length + 1) ≤ endp := by omega
      have hBody := value_extensionBody hExt hExtFits
      rw [firstHeader, value_loop_next hBody, ih hRest (by omega) (Nat.lt_of_succ_lt_succ hRounds),
        Nat.add_assoc]

theorem length_le_chain (exts : List Extension) (proto : U8) :
    exts.length ≤ (chainOctets exts proto).length := by
  induction exts with
  | nil => exact Nat.le_refl _
  | cons ext exts ih =>
    rw [chainOctets, List.length_cons, List.length_cons, List.length_append]
    omega

end Chain

---- The Jumbo Payload ----

section Options

variable {memory : Memory} {bufend p optend jp : Nat}

open Traced
open Reader (Stored stored_append)

/- An option that is not the jumbo payload is passed. -/
theorem value_jumboBody_other {option : HopOption} (hStored : Stored memory jp option.octets)
    (hFits : jp + option.octets.length ≤ optend) :
    (jumboBody memory bufend p optend jp).value = .next (jp + option.octets.length) := by
  unfold jumboBody ip6ExtSize
  cases option with
  | pad1 =>
    have hLength : pad1.octets.length = 1 := rfl
    rw [if_neg (by omega), value_bind, value_read, hStored.1]
    rfl
  | other type len data =>
    have hLength : (other type len data).octets.length = 2 + len.toNat := by
      show data.toList.length + 1 + 1 = 2 + len.toNat
      rw [List.Vector.toList_length]
      omega
    rw [hLength] at hFits ⊢
    rcases hStored with ⟨hType, hLen, _⟩
    rw [if_neg (by omega), value_bind, value_read, hType,
      if_neg type.2.1, if_neg (by omega), value_bind,
      value_read, hLen, if_neg (by omega), if_neg type.2.2]
    rfl

/- The option with the payload length ends the loop. -/
theorem value_jumboBody_jumbo
    (hStored : Stored memory jp (ip6OptJumbo :: 4 :: (be32 (BitVec.ofNat 32 length) ++ after)))
    (hFits : jp + 6 ≤ optend) (hLarge : 0xffff < length) (hWord : length < 2 ^ 32)
    (hRoom : p + length ≤ bufend) :
    (jumboBody memory bufend p optend jp).value = .done (some (p + length)) := by
  rcases hStored with ⟨hType, hLen, hWords⟩
  have hValue := value_readBe32 (stored_append.mp hWords).1
  have hNat : (BitVec.ofNat 32 length).toNat = length := Nat.mod_eq_of_lt hWord
  have hFour : (4 : U8).toNat = 4 := rfl
  have hJumbo : ip6OptJumbo ≠ 0 := by decide
  unfold jumboBody ip6ExtSize
  rw [if_neg (by omega), value_bind, value_read, hType,
    if_neg hJumbo, if_neg (by omega), value_bind, value_read, hLen, if_neg (by omega), if_pos rfl,
    if_neg (not_not.mpr rfl), value_bind, hValue, hNat, if_neg (by omega), if_neg (by omega)]
  rfl

/- By induction on the options in front: the loop over the options finds the payload length. -/
theorem value_loop_options {before : List HopOption} {length : Nat} {after : List U8}
    (hStored : Stored memory jp (before.flatMap octets ++ (ip6OptJumbo :: 4 ::
            (be32 (BitVec.ofNat 32 length) ++ after))))
    (hFits : jp + (before.flatMap octets).length + 6 ≤ optend) (hLarge : 0xffff < length)
    (hWord : length < 2 ^ 32) (hRoom : p + length ≤ bufend) {rounds : Nat}
    (hRounds : before.length < rounds) :
    (loop (jumboBody memory bufend p optend) rounds jp).value = some (some (p + length)) := by
  induction before generalizing jp rounds with
  | nil =>
    cases rounds with
    | zero => cases hRounds
    | succ rounds => exact value_loop_done (value_jumboBody_jumbo hStored hFits hLarge hWord hRoom)
  | cons option before ih =>
    cases rounds with
    | zero => cases hRounds
    | succ rounds =>
      rw [List.flatMap_cons, List.append_assoc] at hStored
      rw [List.flatMap_cons, List.length_append] at hFits
      rcases stored_append.mp hStored with ⟨hOption, hRest⟩
      rw [value_loop_next (value_jumboBody_other hOption (by omega))]
      exact ih hRest (by omega) (Nat.lt_of_succ_lt_succ hRounds)

theorem length_le_options (before : List HopOption) :
    before.length ≤ (before.flatMap octets).length := by
  induction before with
  | nil => exact Nat.le_refl _
  | cons option before ih =>
    have hPos : 1 ≤ option.octets.length := by
      cases option with
      | pad1 => exact Nat.le_refl _
      | other type len data => exact Nat.le_add_left _ _
    rw [List.flatMap_cons, List.length_append, List.length_cons]
    omega

end Options

---- Stored Packets ----

/- Where the fields of an IPv4 packet are. -/
structure Ipv4Packet.Placed (p : Ipv4Packet) (memory : Memory) : Prop where
  first : memory 0 = p.firstOctet
  length : Reader.Stored memory 2 (be16 (BitVec.ofNat 16 p.totalLength))
  proto : memory 9 = p.proto
  src : Reader.Stored memory 12 (be32 p.src)
  dst : Reader.Stored memory 16 (be32 p.dst)
  payload : Reader.Stored memory p.headerLength p.payload

/- Where the fields of an IPv6 packet are. -/
structure Ipv6Packet.Placed (p : Ipv6Packet) (memory : Memory) : Prop where
  first : memory 0 = (6 : BitVec 4) ++ p.classHigh
  length : Reader.Stored memory 4 (be16 p.lengthField)
  next : memory 6 = firstHeader p.extensions p.proto
  src : Reader.Stored memory 8 (words p.src)
  dst : Reader.Stored memory 24 (words p.dst)
  chain : Reader.Stored memory ip6HdrSize p.chain
  payload : Reader.Stored memory p.headerLength p.payload

section Placed

variable {memory : Memory}

open Reader (Stored stored_append stored_cons)

theorem length_flatMap_be32 {options : List U32} :
    (options.flatMap be32).length = 4 * options.length := by
  induction options with
  | nil => rfl
  | cons word options ih =>
    rw [List.flatMap_cons, List.length_append, length_be32, List.length_cons]
    omega

theorem Ipv4Packet.length_octets (p : Ipv4Packet) : p.octets.length = p.totalLength := by
  unfold Ipv4Packet.octets Ipv4Packet.totalLength Ipv4Packet.headerLength
  simp only [List.length_cons, List.length_append, length_be16, length_be32, length_flatMap_be32]
  omega

theorem Ipv4Packet.placed {p : Ipv4Packet} (hStored : Stored memory 0 p.octets) :
    p.Placed memory := by
  unfold Ipv4Packet.octets at hStored
  simp only [stored_cons, stored_append, length_be16,
    length_be32, length_flatMap_be32, Nat.zero_add, Nat.reduceAdd] at hStored
  rcases hStored with ⟨hFirst, _, hLength, _, _, _, hProto, _, hSrc, hDst, _, hPayload⟩
  exact ⟨hFirst, hLength, hProto, hSrc, hDst, hPayload⟩

theorem length_words {address : Fin 4 → U32} : (words address).length = 16 := rfl

open Ipv6Packet

theorem Ipv6Packet.length_octets (p : Ipv6Packet) : p.octets.length = p.totalLength := by
  have hSize : ip6HdrSize = 40 := rfl
  unfold octets totalLength payloadLength
  simp only [List.length_cons, List.length_append, length_be16,
    length_words, List.Vector.toList_length]
  omega

theorem Ipv6Packet.placed {p : Ipv6Packet} (hStored : Stored memory 0 p.octets) :
    p.Placed memory := by
  unfold octets at hStored
  simp only [stored_cons, stored_append, length_be16,
    length_words, List.Vector.toList_length, Nat.zero_add, Nat.reduceAdd] at hStored
  rcases hStored with ⟨hFirst, _, hLength, hNext, _, hSrc, hDst, hChain, hPayload⟩
  exact ⟨hFirst, hLength, hNext, hSrc, hDst, hChain, hPayload⟩

end Placed

---- The Headers Of A Packet ----

section Decode

variable {memory : Memory} {p : Ipv6Packet} {buflen : Nat}

open Traced

theorem value_extensionWalk (hPlaced : p.Placed memory) (hFits : p.totalLength ≤ buflen) :
    (extensionWalk memory buflen p.totalLength (firstHeader p.extensions p.proto)).value =
      if 0xffff < p.headerLength then .error
      else
        .ok
          { proto := p.proto
            hlen := p.headerLength
            plen := p.totalLength } := by
  have hLength : p.totalLength = ip6HdrSize + (p.chain.length + p.payload.length) := rfl
  have hSize : ip6HdrSize = 40 := rfl
  have hCount : p.extensions.length ≤ p.chain.length := length_le_chain p.extensions p.proto
  have hLoop := value_loop_chain p.proto_upper hPlaced.chain
    (show ip6HdrSize + p.chain.length ≤ p.totalLength by
      omega)
    (show p.extensions.length < buflen by omega)
  unfold extensionWalk
  rw [value_bind, hLoop]
  by_cases hLarge : 0xffff < p.headerLength
  · rw [if_pos hLarge]
    exact congrArg Traced.value (if_pos hLarge)
  · rw [if_neg hLarge]
    exact congrArg Traced.value (if_neg hLarge)

theorem value_jumboWalk (hPlaced : p.Placed memory) (hFits : p.totalLength ≤ buflen)
    (hJumbo : Jumbo p.extensions p.payloadLength) :
    (jumboWalk memory buflen (firstHeader p.extensions p.proto)).value =
      some (some p.totalLength) := by
  cases hExts : p.extensions with
  | nil =>
    rw [hExts] at hJumbo
    exact hJumbo.elim
  | cons ext exts =>
    rw [hExts] at hJumbo
    cases ext with
    | fragment reserved offset ident => exact hJumbo.elim
    | authentication len body => exact hJumbo.elim
    | options kind len body =>
      rcases hJumbo with ⟨hKind, hLarge, hWord, before, after, hBody⟩
      have hChain : p.chain = firstHeader exts p.proto :: ((len :: body.toList) ++
        chainOctets exts p.proto) := by
        unfold Ipv6Packet.chain
        rw [hExts]
        rfl
      have hTotal : p.totalLength = ip6HdrSize + p.payloadLength := rfl
      have hStored := hPlaced.chain
      rw [hChain] at hStored
      rcases hStored with ⟨_, hStored⟩
      rcases (Reader.stored_append.mp hStored).1 with ⟨hLen, hOptions⟩
      have hLength := congrArg List.length hBody
      simp only [List.Vector.toList_length, List.length_append,
        List.length_cons, length_be32] at hLength
      have hOptionsSize : optionsSize len.toNat = 8 * len.toNat + 8 := by
        unfold optionsSize
        omega
      have hCount := length_le_options before
      rw [hBody] at hOptions
      have hLoop : (loop (jumboBody memory buflen ip6HdrSize
        (ip6HdrSize + optionsSize len.toNat)) buflen (ip6HdrSize + ip6ExtSize)).value =
        some (some (ip6HdrSize + p.payloadLength)) :=
        value_loop_options hOptions (by omega) hLarge hWord (by omega) (by omega)
      have hFirst : firstHeader (.options kind len body :: exts) p.proto = ipprotoHopopts := hKind
      unfold jumboWalk
      rw [hFirst, if_neg (not_not.mpr rfl), if_neg (show ¬ buflen - ip6HdrSize < ip6ExtSize by
        have hTwo : ip6ExtSize = 2 := rfl
        omega),
        value_bind, value_read, hLen, if_neg (by omega), hLoop,
        hTotal]

theorem payloadLength_eq_zero (hEmpty : p.payloadLength = 0) :
    firstHeader p.extensions p.proto = p.proto := by
  have hCount := length_le_chain p.extensions p.proto
  have hSum : (chainOctets p.extensions p.proto).length + p.payload.length = 0 := hEmpty
  rw [List.eq_nil_of_length_eq_zero (show p.extensions.length = 0 by omega)]
  rfl

/- A packet without a payload is taken for a jumbo packet. -/
theorem value_jumboWalk_empty (hEmpty : p.payloadLength = 0) :
    (jumboWalk memory buflen (firstHeader p.extensions p.proto)).value = some none := by
  have hUpper : p.proto ≠ ipprotoHopopts := by
    intro hSame
    have hNone := p.proto_upper
    rw [hSame] at hNone
    cases hNone
  rw [payloadLength_eq_zero hEmpty]
  unfold jumboWalk
  rw [if_pos hUpper]
  rfl

/-
  The headers of a packet are found, unless it has no payload or its headers take more than 16 bits
  to count.
-/
theorem decodeIpv6Header_packet (hPlaced : p.Placed memory) (hFits : p.totalLength ≤ buflen) :
    (decodeIpv6Header memory buflen).value =
      if p.payloadLength = 0 ∨ 0xffff < p.headerLength then .error
      else
        .ok
          { proto := p.proto
            hlen := p.headerLength
            plen := p.totalLength } := by
  have hTotal : p.totalLength = ip6HdrSize + p.payloadLength := rfl
  have hNext := hPlaced.next
  have hField := value_readBe16 hPlaced.length
  have hWalk := value_extensionWalk hPlaced hFits
  unfold decodeIpv6Header
  rw [if_neg (by omega), value_bind, value_read, hNext, value_bind, hField]
  unfold Ipv6Packet.lengthField
  by_cases hSmall : p.payloadLength ≤ 0xffff
  · rw [if_pos hSmall]
    have hNat : (BitVec.ofNat 16 p.payloadLength).toNat = p.payloadLength :=
      Nat.mod_eq_of_lt (by omega)
    by_cases hEmpty : p.payloadLength = 0
    · have hZero : BitVec.ofNat 16 p.payloadLength = 0 := by
        rw [hEmpty]
        rfl
      rw [if_pos hZero, value_bind, value_jumboWalk_empty hEmpty, if_pos (.inl hEmpty)]
      rfl
    · have hSome : BitVec.ofNat 16 p.payloadLength ≠ 0 := by
        intro hZero
        rw [hZero] at hNat
        exact hEmpty hNat.symm
      rw [if_neg hSome, hNat, if_neg (by omega), ← hTotal, hWalk]
      simp only [hEmpty, false_or]
  · rw [if_neg hSmall, if_pos rfl, value_bind, value_jumboWalk hPlaced hFits
        (p.length_fits.resolve_left hSmall)]
    have hEmpty : p.payloadLength ≠ 0 := by omega
    simp only [hEmpty, false_or]
    exact hWalk

end Decode

end Pretty5gs.Pfcp.RuleMatch
