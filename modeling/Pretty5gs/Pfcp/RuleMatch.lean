import Mathlib.Data.Fintype.Basic
import Mathlib.Data.List.Find
import Pretty5gs.Pfcp.IpPacket

/-
  The rule of a PDR that a packet matches.

  The addresses of both families are compared as words under the masks of a rule. The family that a
  rule names is not looked at, and neither are its ports unless it is for TCP or UDP.

  Main results: `findIdx?_eq_iff`, `value_pdrRuleFindByPacket`, `first_matching_rule_is_found`.
-/

---- Rules ----

namespace Pretty5gs.Pfcp.RuleMatch

open Traced NetOctets

/- `IPPROTO_TCP` -/
def ipprotoTcp : U8 := 6

/- `IPPROTO_UDP` -/
def ipprotoUdp : U8 := 17

/- An address and its mask, each of four words. -/
structure Net where
  addr : Fin 4 → U32
  mask : Fin 4 → U32

structure PortRange where
  low : U16
  high : U16
deriving DecidableEq, Repr

/- The part of `ogs_ipfw_rule_t` that is about IP packets. -/
structure IpfwRule where
  proto : U8
  ipv4Src : Bool
  ipv4Dst : Bool
  ipv6Src : Bool
  ipv6Dst : Bool
  src : Net
  dst : Net
  srcPort : PortRange
  dstPort : PortRange

---- The Search ----

/- What is read from the headers of a packet. -/
structure Info where
  src : Fin 4 → U32
  dst : Fin 4 → U32
  addrLen : Nat
  proto : U8
  ipHlen : Nat
  pktLen : Nat

/- What keeps the search from an answer. -/
inductive Stop where
  | assertion
  | running
deriving DecidableEq, Repr

/- The first word of the four is the address. -/
def inetWords (address : U32) : Fin 4 → U32 := fun k => if k = 0 then address else 0

variable (memory : Memory)

def ipv4Info (len : Nat) : Traced Nat (Except Stop (Option Info)) :=
  if len < 20 then return .ok none
  else do
    let first ← read memory 0
    let ipHlen := (first.extractLsb' 0 4).toNat * 4
    let ipLen ← readBe16 memory 2
    if ipHlen < 20 ∨ ipLen.toNat < ipHlen then return .ok none
    else if len < ipLen.toNat then return .ok none
    else do
      let proto ← read memory 9
      let src ← readBe32 memory 12
      let dst ← readBe32 memory 16
      return .ok (some
        { src := inetWords src
          dst := inetWords dst
          addrLen := 4
          proto := proto
          ipHlen := ipHlen
          pktLen := ipLen.toNat })

/- The four words of an address. -/
def readWords (place : Nat) : Traced Nat (Fin 4 → U32) := do
  let first ← readBe32 memory place
  let second ← readBe32 memory (place + 4)
  let third ← readBe32 memory (place + 8)
  let fourth ← readBe32 memory (place + 12)
  return fun k =>
    match k with
    | 0 => first
    | 1 => second
    | 2 => third
    | 3 => fourth

def ipv6Info (len : Nat) : Traced Nat (Except Stop (Option Info)) :=
  if len < ip6HdrSize then return .ok none
  else do
    match ← decodeIpv6Header memory len with
    | .running => return .error .running
    | .error => return .ok none
    | .ok decoded =>
        let src ← readWords memory 8
        let dst ← readWords memory 24
        return .ok (some
          { src := src
            dst := dst
            addrLen := 16
            proto := decoded.proto
            ipHlen := decoded.hlen
            pktLen := decoded.plen })

def ipInfo (len : Nat) : Traced Nat (Except Stop (Option Info)) :=
  if len = 0 then return .error .assertion
  else do
    let first ← read memory 0
    if first >>> 4 = 4 then ipv4Info memory len
    else if first >>> 4 = 6 then ipv6Info memory len
    else return .ok none

/- The octets of the header of TCP or UDP. -/
def transportSize (proto : U8) : Nat :=
  if proto = ipprotoTcp then 20
  else if proto = ipprotoUdp then 8
  else 0

/- The header of TCP or UDP is not truncated. -/
def transportFits (info : Info) : Bool := transportSize info.proto = 0 ∨
    (info.ipHlen ≤ info.pktLen ∧ transportSize info.proto ≤ info.pktLen - info.ipHlen)

/- The masked address is that of the rule, by `memcmp`. -/
def wordsAgree (net : Net) (address : Fin 4 → U32) (addrLen : Nat) : Prop :=
  ∀ k : Fin 4, 4 * k.val < addrLen → address k &&& net.mask k = net.addr k

instance (net : Net) (address : Fin 4 → U32) (addrLen : Nat) :
    Decidable (wordsAgree net address addrLen) := inferInstanceAs (Decidable (∀ _ : Fin 4, _ → _))

/- A bound of the range that is 0 is not set. -/
def PortRange.Admits (range : PortRange) (port : U16) : Prop :=
  ¬ (range.low ≠ 0 ∧ port < range.low) ∧ ¬ (range.high ≠ 0 ∧ range.high < port)

instance (range : PortRange) (port : U16) : Decidable (range.Admits port) :=
  inferInstanceAs (Decidable (_ ∧ _))

/- The ports are at the same place for TCP and for UDP. -/
def portsAdmitted (memory : Memory) (info : Info) (rule : IpfwRule) : Traced Nat Bool := do
  let sport ← readBe16 memory info.ipHlen
  let dport ← readBe16 memory (info.ipHlen + 2)
  return decide (rule.srcPort.Admits sport ∧ rule.dstPort.Admits dport)

/- One round of the loop over the rules. -/
def ruleTakes (memory : Memory) (info : Info) (rule : IpfwRule) : Traced Nat Bool :=
  if wordsAgree rule.src info.src info.addrLen ∧ wordsAgree rule.dst info.dst info.addrLen then
    if rule.proto = 0 then return true
    else if rule.proto = info.proto then
      if rule.proto = ipprotoTcp then portsAdmitted memory info rule
      else if rule.proto = ipprotoUdp then portsAdmitted memory info rule
      else return true
    else return false
  else return false

/- The place of the first rule that takes the packet. -/
def findRule (memory : Memory) (info : Info) : List IpfwRule → Nat → Traced Nat (Option Nat)
  | [], _ => return none
  | rule :: rules, place => do
      if ← ruleTakes memory info rule then return some place
      else findRule memory info rules (place + 1)

/- `ogs_pfcp_pdr_rule_find_by_packet`, with the rule as its place in the list. -/
def pdrRuleFindByPacket (memory : Memory) (len : Nat) (rules : List IpfwRule) :
    Traced Nat (Except Stop (Option Nat)) := do
  match ← ipInfo memory len with
  | .error stop => return .error stop
  | .ok none => return .ok none
  | .ok (some info) =>
      if transportFits info then do
        let found ← findRule memory info rules 0
        return .ok found
      else return .ok none

---- What A Rule Asks For ----

/- The addresses of a packet are of one family. -/
inductive Addresses where
  | inet (src dst : U32)
  | inet6 (src dst : Fin 4 → U32)

/- What is in a packet; `later` if it is a fragment other than the first. -/
structure Content where
  addresses : Addresses
  proto : U8
  later : Bool
  payload : List U8

def HasTransport (proto : U8) : Prop := proto = ipprotoTcp ∨ proto = ipprotoUdp

instance (proto : U8) : Decidable (HasTransport proto) := inferInstanceAs (Decidable (_ ∨ _))

/- The first two words of 16 bits. -/
def firstPorts : List U8 → Option (U16 × U16)
  | a :: b :: c :: d :: _ => some (a ++ b, c ++ d)
  | _ => none

/- The ports of a packet, which only a first fragment has. -/
def Content.ports (c : Content) : Option (U16 × U16) :=
  if HasTransport c.proto ∧ c.later = false then firstPorts c.payload
  else none

/- The address is in the network of the rule. -/
def Net.Covers (net : Net) (address : U32) : Prop := address &&& net.mask 0 = net.addr 0

def Net.Covers6 (net : Net) (address : Fin 4 → U32) : Prop :=
  ∀ k, address k &&& net.mask k = net.addr k

/- Both addresses are in the networks of the rule. -/
def Covers (rule : IpfwRule) : Addresses → Prop
  | .inet src dst => rule.src.Covers src ∧ rule.dst.Covers dst
  | .inet6 src dst => rule.src.Covers6 src ∧ rule.dst.Covers6 dst

/- The rule does not name an address of the other family. -/
def SameFamily (rule : IpfwRule) : Addresses → Prop
  | .inet _ _ => rule.ipv6Src = false ∧ rule.ipv6Dst = false
  | .inet6 _ _ => rule.ipv4Src = false ∧ rule.ipv4Dst = false

def PortRange.Unset (range : PortRange) : Prop := range.low = 0 ∧ range.high = 0

/- The ports are in the ranges of the rule, if they are set. -/
def PortsMatch (rule : IpfwRule) : Option (U16 × U16) → Prop
  | none => rule.srcPort.Unset ∧ rule.dstPort.Unset
  | some ports => rule.srcPort.Admits ports.1 ∧ rule.dstPort.Admits ports.2

/- The rule is for packets of this kind. -/
def Matches (rule : IpfwRule) (c : Content) : Prop := (rule.proto = 0 ∨ rule.proto = c.proto) ∧
    SameFamily rule c.addresses ∧ Covers rule c.addresses ∧ PortsMatch rule c.ports

/-
  The words of the addresses and the protocol are those of the rule, and the ports are if the rule
  is for TCP or UDP.
-/
def Fits (rule : IpfwRule) (c : Content) : Prop := (rule.proto = 0 ∨ rule.proto = c.proto) ∧
    Covers rule c.addresses ∧ (HasTransport rule.proto → ∀ ports ∈ firstPorts c.payload,
        rule.srcPort.Admits ports.1 ∧ rule.dstPort.Admits ports.2)

instance (rule : IpfwRule) (addresses : Addresses) : Decidable (Covers rule addresses) :=
  match addresses with
  | .inet _ _ => inferInstanceAs (Decidable (_ = _ ∧ _ = _))
  | .inet6 _ _ => inferInstanceAs (Decidable ((∀ _ : Fin 4, _ = _) ∧ ∀ _ : Fin 4, _ = _))

instance (rule : IpfwRule) (addresses : Addresses) : Decidable (SameFamily rule addresses) :=
  match addresses with
  | .inet _ _ => inferInstanceAs (Decidable (_ ∧ _))
  | .inet6 _ _ => inferInstanceAs (Decidable (_ ∧ _))

instance (rule : IpfwRule) (ports : Option (U16 × U16)) : Decidable (PortsMatch rule ports) :=
  match ports with
  | none => inferInstanceAs (Decidable ((_ = _ ∧ _ = _) ∧ _ = _ ∧ _ = _))
  | some _ => inferInstanceAs (Decidable (_ ∧ _))

instance (rule : IpfwRule) (c : Content) : Decidable (Matches rule c) :=
  inferInstanceAs (Decidable (_ ∧ _))

instance (rule : IpfwRule) (c : Content) : Decidable (Fits rule c) :=
  letI : Decidable (HasTransport rule.proto → ∀ ports ∈ firstPorts c.payload,
      rule.srcPort.Admits ports.1 ∧ rule.dstPort.Admits ports.2) :=
    @instDecidableForall _ _ _ (Option.decidableForallMem _)
  inferInstanceAs (Decidable (_ ∧ _ ∧ _))

---- Packets ----

inductive Packet where
  | inet (p : Ipv4Packet)
  | inet6 (p : Ipv6Packet)

namespace Packet

def octets : Packet → List U8
  | .inet p => p.octets
  | .inet6 p => p.octets

def content : Packet → Content
  | .inet p =>
      { addresses := .inet p.src p.dst
        proto := p.proto
        later := p.isLater
        payload := p.payload }
  | .inet6 p =>
      { addresses := .inet6 p.src p.dst
        proto := p.proto
        later := p.isLater
        payload := p.payload }

/-
  An IPv6 packet has a payload and headers that 16 bits can count, and the header of TCP or UDP is
  whole.
-/
def Readable (packet : Packet) : Prop := (match packet with
    | .inet _ => True
    | .inet6 p => p.payloadLength ≠ 0 ∧ p.headerLength ≤ 0xffff) ∧
    transportSize packet.content.proto ≤ packet.content.payload.length

instance (packet : Packet) : Decidable packet.Readable :=
  match packet with
  | .inet _ => inferInstanceAs (Decidable (True ∧ _))
  | .inet6 _ => inferInstanceAs (Decidable ((_ ∧ _) ∧ _))

end Packet

---- First Places ----

/- The first place by a condition is that by a weaker one unless only the weaker one is met before. -/
theorem findIdx?_eq_iff {α : Type} {p q : α → Bool} (hImp : ∀ a, p a = true → q a = true)
    {l : List α} :
    l.findIdx? q = l.findIdx? p ↔ ∀ (i : Nat) (a : α), l[i]? = some a → q a = true → p a = false →
          ∃ j < i, ∃ b, l[j]? = some b ∧ p b = true := by
  cases hFound : l.findIdx? q with
  | none =>
    have hNone := List.findIdx?_eq_none_iff.mp hFound
    have hNever : l.findIdx? p = none := List.findIdx?_eq_none_iff.mpr fun a hMem =>
      Bool.eq_false_of_not_eq_true fun hMeets => absurd (hNone a hMem) (by simp [hImp a hMeets])
    refine iff_of_true hNever.symm fun i a hAt hIn _ => ?_
    rw [hNone a (List.mem_of_getElem? hAt)] at hIn
    cases hIn
  | some i =>
    rcases List.findIdx?_eq_some_iff_getElem.mp hFound with ⟨hLt, hHere, hBefore⟩
    constructor
    · intro hSame k a hAt hIn hNot
      rcases List.findIdx?_eq_some_iff_getElem.mp hSame.symm with ⟨_, hMeets, _⟩
      refine ⟨i, ?_, _, List.getElem?_eq_getElem hLt, hMeets⟩
      grind
    · intro hAll
      refine (List.findIdx?_eq_some_iff_getElem.mpr ⟨hLt, ?_, ?_⟩).symm
      · have hFirst := hAll i _ (List.getElem?_eq_getElem hLt) hHere
        grind
      · exact fun j hLess hMeets => hBefore j hLess (hImp _ hMeets)

---- Rules And Contents ----

/- What is read from the headers of a packet is its content. -/
structure Info.Describes (info : Info) (memory : Memory) (c : Content) : Prop where
  covers : ∀ rule : IpfwRule, (wordsAgree rule.src info.src info.addrLen ∧
          wordsAgree rule.dst info.dst info.addrLen) ↔
        Covers rule c.addresses
  proto : info.proto = c.proto
  payload : Reader.Stored memory info.ipHlen c.payload
  length : info.pktLen = info.ipHlen + c.payload.length

section Contents

variable {memory : Memory} {info : Info} {c : Content}

theorem Matches.fits (hMatches : Matches rule c) : Fits rule c := by
  rcases hMatches with ⟨hProto, _, hCovers, hPorts⟩
  refine ⟨hProto, hCovers, ?_⟩
  intro hTransport ports hFirst
  have hSame : rule.proto = c.proto := by
    refine hProto.resolve_left ?_
    intro hZero
    rw [hZero] at hTransport
    exact absurd hTransport (by decide)
  rw [hSame] at hTransport
  unfold Content.ports at hPorts
  by_cases hLater : c.later = false
  · rw [if_pos ⟨hTransport, hLater⟩, hFirst] at hPorts
    exact hPorts
  · rw [if_neg (fun hBoth => hLater hBoth.2)] at hPorts
    rcases hPorts with ⟨⟨hLow, hHigh⟩, hLow', hHigh'⟩
    exact ⟨⟨fun hSet => hSet.1 hLow, fun hSet => hSet.1 hHigh⟩,
      fun hSet => hSet.1 hLow', fun hSet => hSet.1 hHigh'⟩

theorem transportSize_pos (hTransport : HasTransport proto) : 4 ≤ transportSize proto := by
  rcases hTransport with rfl | rfl
  · decide
  · decide

/- The ports are the first words of the payload. -/
theorem value_portsAdmitted (hDescribes : info.Describes memory c) (hRoom : 4 ≤ c.payload.length)
    (rule : IpfwRule) :
    (portsAdmitted memory info rule).value = decide (∀ ports ∈ firstPorts c.payload,
        rule.srcPort.Admits ports.1 ∧ rule.dstPort.Admits ports.2) := by
  have hStored := hDescribes.payload
  match hPayload : c.payload with
  | [] | [_] | [_, _] | [_, _, _] =>
    rw [hPayload] at hRoom
    simp at hRoom
  | first :: second :: third :: fourth :: rest =>
    rw [hPayload] at hStored
    rcases hStored with ⟨hFirst, hSecond, hThird, hFourth, _⟩
    show decide (rule.srcPort.Admits (memory info.ipHlen ++ memory (info.ipHlen + 1)) ∧
      rule.dstPort.Admits (memory (info.ipHlen + 2) ++ memory (info.ipHlen + 3))) = _
    rw [hFirst, hSecond, hThird, hFourth]
    simp only [firstPorts, Option.mem_some_iff, forall_eq']

theorem value_ruleTakes (hDescribes : info.Describes memory c)
    (hTransport : transportSize c.proto ≤ c.payload.length) {rule : IpfwRule} :
    (ruleTakes memory info rule).value = decide (Fits rule c) := by
  unfold ruleTakes
  simp only [hDescribes.covers rule, hDescribes.proto]
  by_cases hCovers : Covers rule c.addresses
  · rw [if_pos hCovers]
    by_cases hAny : rule.proto = 0
    · have hNone : ¬ HasTransport rule.proto := by
        rw [hAny]
        decide
      rw [if_pos hAny]
      exact (decide_eq_true ⟨.inl hAny, hCovers, fun hSet => absurd hSet hNone⟩).symm
    · rw [if_neg hAny]
      by_cases hSame : rule.proto = c.proto
      · rw [if_pos hSame]
        by_cases hSet : HasTransport rule.proto
        · have hRoom : 4 ≤ c.payload.length := by
            have hSize := transportSize_pos (hSame ▸ hSet)
            omega
          have hPorts := value_portsAdmitted hDescribes hRoom rule
          have hFits : decide (Fits rule c) = decide (∀ ports ∈ firstPorts c.payload,
                  rule.srcPort.Admits ports.1 ∧ rule.dstPort.Admits ports.2) := decide_eq_decide.mpr
              ⟨fun hAll => hAll.2.2 hSet, fun hAll => ⟨.inr hSame, hCovers, fun _ => hAll⟩⟩
          rw [hFits, ← hPorts]
          by_cases hTcp : rule.proto = ipprotoTcp
          · rw [if_pos hTcp]
          · rw [if_neg hTcp, if_pos (hSet.resolve_left hTcp)]
        · rw [if_neg (fun hTcp => hSet (.inl hTcp)), if_neg (fun hUdp => hSet (.inr hUdp))]
          exact (decide_eq_true ⟨.inr hSame, hCovers, fun hOther => absurd hOther hSet⟩).symm
      · rw [if_neg hSame]
        exact (decide_eq_false (fun hFits => hFits.1.elim hAny hSame)).symm
  · rw [if_neg hCovers]
    exact (decide_eq_false (fun hFits => hCovers hFits.2.1)).symm

/- By induction on the rules, from any place. -/
theorem value_findRule (hDescribes : info.Describes memory c)
    (hTransport : transportSize c.proto ≤ c.payload.length) {rules : List IpfwRule} {place : Nat} :
    (findRule memory info rules place).value =
      (rules.findIdx? (fun rule => decide (Fits rule c))).map (· + place) := by
  induction rules generalizing place with
  | nil => rfl
  | cons rule rules ih =>
    rw [findRule, value_bind, value_ruleTakes hDescribes hTransport, List.findIdx?_cons]
    by_cases hFits : Fits rule c
    · rw [if_pos (decide_eq_true hFits), if_pos (decide_eq_true hFits), Option.map_some,
      Nat.zero_add]
      rfl
    · rw [if_neg (by simpa using hFits), if_neg (by simpa using hFits), ih, Option.map_map]
      congr 1
      funext i
      simp only [Function.comp_apply]
      omega

theorem transportFits_iff (hDescribes : info.Describes memory c) :
    transportFits info = true ↔ transportSize c.proto ≤ c.payload.length := by
  have hLength := hDescribes.length
  unfold transportFits
  rw [decide_eq_true_iff, hDescribes.proto]
  omega

end Contents

---- The Headers That Are Read ----

section Headers

variable {memory : Memory} {len : Nat}

theorem value_readWords (hStored : Reader.Stored memory place (words address)) :
    (readWords memory place).value = address := by
  unfold words at hStored
  simp only [Reader.stored_append, length_be32, Nat.add_assoc, Nat.reduceAdd] at hStored
  rcases hStored with ⟨hFirst, hSecond, hThird, hFourth⟩
  funext k
  match k with
  | 0 => exact value_readBe32 hFirst
  | 1 => exact value_readBe32 hSecond
  | 2 => exact value_readBe32 hThird
  | 3 => exact value_readBe32 hFourth

/- One word is compared for IPv4. -/
theorem wordsAgree_inet {net : Net} {address : U32} :
    wordsAgree net (inetWords address) 4 ↔ net.Covers address := by
  constructor
  · intro hAll
    exact hAll 0 (by decide)
  · intro hCovers k hLess
    have hFirst : k = 0 := Fin.ext (by omega)
    rw [hFirst]
    exact hCovers

/- All words are compared for IPv6. -/
theorem wordsAgree_inet6 {net : Net} {address : Fin 4 → U32} :
    wordsAgree net address 16 ↔ net.Covers6 address := by
  constructor
  · intro hAll k
    exact hAll k (by omega)
  · intro hCovers k _
    exact hCovers k

theorem firstOctet_version {p : Ipv4Packet} :
    p.firstOctet >>> 4 = 4 ∧ (p.firstOctet.extractLsb' 0 4).toNat = 5 + p.options.length := by
  have hNibble : ∀ n : BitVec 4, ((4 : BitVec 4) ++ n : U8) >>> 4 = 4 ∧
    ((4 : BitVec 4) ++ n : U8).extractLsb' 0 4 = n := by
    decide
  have hFits := p.options_fit
  rcases hNibble (BitVec.ofNat 4 (5 + p.options.length)) with ⟨hVersion, hLow⟩
  refine ⟨hVersion, ?_⟩
  unfold Ipv4Packet.firstOctet
  rw [hLow]
  exact Nat.mod_eq_of_lt (by omega)

theorem ipInfo_inet (hPlaced : p.Placed memory) (hFits : p.totalLength ≤ len) :
    ∃ info : Info, (ipInfo memory len).value = .ok (some info) ∧
        info.Describes memory (Packet.inet p).content := by
  rcases firstOctet_version with ⟨hVersion, hLow⟩
  have hTotal : p.totalLength = 20 + 4 * p.options.length + p.payload.length := rfl
  have hBound := p.length_fits
  have hNat : (BitVec.ofNat 16 p.totalLength).toNat = p.totalLength := Nat.mod_eq_of_lt (by omega)
  have hLength := value_readBe16 hPlaced.length
  refine ⟨
    { src := inetWords p.src
      dst := inetWords p.dst
      addrLen := 4
      proto := p.proto
      ipHlen := p.headerLength
      pktLen := p.totalLength }, ?_, ?_⟩
  · have hSum : p.headerLength = 20 + 4 * p.options.length := rfl
    have hHeader : (5 + p.options.length) * 4 = p.headerLength := by omega
    unfold ipInfo ipv4Info
    rw [if_neg (by omega), value_bind, value_read,
      hPlaced.first, if_pos hVersion, if_neg (by omega), value_bind, value_read, hPlaced.first]
    simp only [value_bind, hLow, hHeader, hLength, hNat]
    rw [if_neg (by omega), if_neg (by omega)]
    simp only [value_bind, value_read, hPlaced.proto,
      value_readBe32 hPlaced.src, value_readBe32 hPlaced.dst]
    rfl
  · constructor
    case covers =>
      intro rule
      exact and_congr wordsAgree_inet wordsAgree_inet
    case proto => rfl
    case payload => exact hPlaced.payload
    case length => rfl

theorem ipInfo_inet6 {p : Ipv6Packet} (hPlaced : p.Placed memory) (hFits : p.totalLength ≤ len) :
    (ipInfo memory len).value = .ok (if p.payloadLength = 0 ∨ 0xffff < p.headerLength then
          none
        else
          some
            { src := p.src
              dst := p.dst
              addrLen := 16
              proto := p.proto
              ipHlen := p.headerLength
              pktLen := p.totalLength }) := by
  have hTotal : p.totalLength = ip6HdrSize + p.payloadLength := rfl
  have hSize : ip6HdrSize = 40 := rfl
  have hNibble : ∀ n : BitVec 4, ((6 : BitVec 4) ++ n : U8) >>> 4 ≠ 4 ∧
    ((6 : BitVec 4) ++ n : U8) >>> 4 = 6 := by
    decide
  rcases hNibble p.classHigh with ⟨hOther, hVersion⟩
  unfold ipInfo ipv6Info
  rw [if_neg (by omega), value_bind, value_read, hPlaced.first, if_neg hOther, if_pos hVersion,
    if_neg (by omega), value_bind, decodeIpv6Header_packet hPlaced hFits]
  by_cases hError : p.payloadLength = 0 ∨ 0xffff < p.headerLength
  · rw [if_pos hError, if_pos hError]
    rfl
  · rw [if_neg hError, if_neg hError]
    simp only [value_bind, value_readWords hPlaced.src, value_readWords hPlaced.dst]
    rfl

end Headers

---- The Rule That Is Found ----

section Found

variable {memory : Memory} {len : Nat}

/- The rest of the search, once the headers have been read. -/
theorem value_find_of_describes
    (hInfo : (ipInfo memory len).value = .ok (some info)) (hDescribes : info.Describes memory c)
    {rules : List IpfwRule} : (pdrRuleFindByPacket memory len rules).value = .ok
        (if transportSize c.proto ≤ c.payload.length then
          rules.findIdx? (fun rule => decide (Fits rule c))
        else none) := by
  unfold pdrRuleFindByPacket
  rw [value_bind, hInfo]
  by_cases hTransport : transportSize c.proto ≤ c.payload.length
  · simp only [if_pos ((transportFits_iff hDescribes).mpr
    hTransport), if_pos hTransport, value_bind,
    value_findRule hDescribes hTransport, Nat.add_zero, Option.map_id']
    rfl
  · have hTruncated : ¬ transportFits info = true := fun hFits =>
    hTransport ((transportFits_iff hDescribes).mp hFits)
    simp only [if_neg hTruncated, if_neg hTransport]
    rfl

/- The first rule that fits is found in a readable packet. -/
theorem value_pdrRuleFindByPacket {packet : Packet} (hStored : Reader.Stored memory 0 packet.octets)
    (hFits : packet.octets.length ≤ len) {rules : List IpfwRule} :
    (pdrRuleFindByPacket memory len rules).value = .ok (if packet.Readable then
          rules.findIdx? (fun rule => decide (Fits rule packet.content))
        else none) := by
  cases packet with
  | inet p =>
    rcases ipInfo_inet (Ipv4Packet.placed hStored) (le_of_eq_of_le p.length_octets.symm hFits) with
      ⟨info, hInfo, hDescribes⟩
    rw [value_find_of_describes hInfo hDescribes]
    simp only [Packet.Readable, true_and]
  | inet6 p =>
    have hPlaced := Ipv6Packet.placed hStored
    have hInfo := ipInfo_inet6 hPlaced (le_of_eq_of_le p.length_octets.symm hFits)
    by_cases hError : p.payloadLength = 0 ∨ 0xffff < p.headerLength
    · have hUnread : ¬ (Packet.inet6 p).Readable := by
        intro hReadable
        rcases hReadable.1 with ⟨hSome, hSmall⟩
        exact hError.elim hSome (Nat.not_lt.mpr hSmall)
      rw [if_pos hError] at hInfo
      rw [if_neg hUnread]
      unfold pdrRuleFindByPacket
      rw [value_bind, hInfo]
      rfl
    · rw [if_neg hError] at hInfo
      have hDescribes : Info.Describes
            { src := p.src
              dst := p.dst
              addrLen := 16
              proto := p.proto
              ipHlen := p.headerLength
              pktLen := p.totalLength } memory (Packet.inet6 p).content := by
        constructor
        case covers =>
          intro rule
          exact and_congr wordsAgree_inet6 wordsAgree_inet6
        case proto => rfl
        case payload => exact hPlaced.payload
        case length => exact (Nat.add_assoc _ _ _).symm
      have hRead : p.payloadLength ≠ 0 ∧ p.headerLength ≤ 0xffff := by omega
      rw [value_find_of_describes hInfo hDescribes]
      simp only [Packet.Readable, hRead, true_and, ne_eq, not_false_eq_true]

end Found

/-
  The search gives the first rule that matches a readable packet unless a rule stands before it, or
  there is none, that only fits: one that names the other family, or ports that were not compared. A
  packet that is not readable must not match any rule.
-/
theorem first_matching_rule_is_found (memory : Memory) (len : Nat) (packet : Packet)
    (hStored : Reader.Stored memory 0 packet.octets) (hFits : packet.octets.length ≤ len)
    (rules : List IpfwRule) : (pdrRuleFindByPacket memory len rules).value = .ok (rules.findIdx?
          (fun rule => decide (Matches rule packet.content))) ↔
      if packet.Readable then
        ∀ (place : Nat) (rule : IpfwRule), rules[place]? = some rule → Fits rule packet.content →
            ¬ Matches rule packet.content → ∃ earlier < place, ∃ other,
              rules[earlier]? = some other ∧ Matches other packet.content
      else ∀ rule ∈ rules, ¬ Matches rule packet.content := by
  rw [value_pdrRuleFindByPacket hStored hFits]
  by_cases hReadable : packet.Readable
  · rw [if_pos hReadable, if_pos hReadable, Except.ok.injEq, findIdx?_eq_iff]
    · simp only [decide_eq_true_iff, decide_eq_false_iff_not]
    · intro rule hMatches
      exact decide_eq_true (of_decide_eq_true hMatches).fits
  · rw [if_neg hReadable, if_neg hReadable, Except.ok.injEq, eq_comm, List.findIdx?_eq_none_iff]
    simp only [decide_eq_false_iff_not]

/- The address 2001:db8::host. -/
def hostWords (host : U32) : Fin 4 → U32 := fun k =>
    if k = 0 then 0x20010db8 else if k = 3 then host else 0

/- A DNS query over UDP. -/
def queryPacket : Ipv6Packet where
  classHigh := 0
  flow := ⟨[0, 0, 0], rfl⟩
  hopLimit := 64
  src := hostWords 1
  dst := hostWords 2
  extensions := [.fragment 0 0 7]
  proto := ipprotoUdp
  payload := [0x1f, 0x90, 0, 53, 0, 8, 0, 0]
  proto_upper := by decide
  length_fits := .inl (by decide)

def anyNet : Net where
  addr _ := 0
  mask _ := 0

/- A rule for any address and port. -/
def anyRule : IpfwRule where
  proto := 0
  ipv4Src := false
  ipv4Dst := false
  ipv6Src := false
  ipv6Dst := false
  src := anyNet
  dst := anyNet
  srcPort := { low := 0, high := 0 }
  dstPort := { low := 0, high := 0 }

/- A rule for TCP, and one for queries to 2001:db8::/32. -/
def queryRules : List IpfwRule :=
  [{ anyRule with proto := ipprotoTcp },
   { anyRule with
     proto := ipprotoUdp
     ipv6Dst := true
     dst :=
       { addr := hostWords 0
         mask := fun k => if k = 0 then 0xffffffff else 0 }
     dstPort := { low := 53, high := 53 } }]

theorem first_matching_rule_is_found_query :
    (pdrRuleFindByPacket (fun i => queryPacket.octets.getD i 0)
        queryPacket.octets.length queryRules).value = .ok (some 1) := by
  have hFound := (first_matching_rule_is_found (fun i => queryPacket.octets.getD i 0)
    queryPacket.octets.length (.inet6 queryPacket)
    (Reader.stored_getD _ _) (Nat.le_refl _) queryRules).mpr
  have hExact : ∀ rule ∈ queryRules, Fits rule (Packet.inet6 queryPacket).content →
    Matches rule (Packet.inet6 queryPacket).content := by
    decide +kernel
  refine hFound ?_
  intro place rule hAt hFits hNot
  exact absurd (hExact rule (List.mem_of_getElem? hAt) hFits) hNot

/-
  The rule names the IPv4 network 32.1.0.0/16 as its source, and is found for a packet from
  2001:db8::1.
-/
def inetRule : IpfwRule :=
  { anyRule with
    ipv4Src := true
    src :=
      { addr := inetWords 0x20010000
        mask := inetWords 0xffff0000 } }

theorem ipv4_rule_takes_ipv6_packet :
    inetRule.ipv4Src = true ∧ (pdrRuleFindByPacket (fun i => queryPacket.octets.getD i 0)
          queryPacket.octets.length [inetRule]).value = .ok (some 0) ∧ [inetRule].findIdx?
          (fun rule => decide (Matches rule (Packet.inet6 queryPacket).content)) = none := by
  refine ⟨rfl, ?_, ?_⟩
  · rfl
  · decide +kernel

end Pretty5gs.Pfcp.RuleMatch
