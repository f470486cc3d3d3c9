import Pretty5gs.Core.Types
import Pretty5gs.Library.Reader

/-
  QoS rules of 5GS session management: what is built and how it is parsed.

  The builder looks at the operation code of the first rule only. The parser checks the packet
  filters of a rule against the length that the rule declares, and everything else against the
  length of the rules.
-/

---- Packet Filters ----

namespace Pretty5gs.Nas

open Reader

/- The component types that builder and parser know. -/
inductive ComponentType where
  | matchAll
  | protocolIdentifierNextHeader
  | ipv4RemoteAddress
  | ipv4LocalAddress
  | ipv6RemoteAddress
  | ipv6RemoteAddressPrefixLength
  | ipv6LocalAddress
  | ipv6LocalAddressPrefixLength
  | singleLocalPort
  | localPortRange
  | singleRemotePort
  | remotePortRange
deriving DecidableEq, Repr

namespace ComponentType

def code : ComponentType → U8
  | .matchAll => 1
  | .protocolIdentifierNextHeader => 48
  | .ipv4RemoteAddress => 16
  | .ipv4LocalAddress => 17
  | .ipv6RemoteAddress => 32
  | .ipv6RemoteAddressPrefixLength => 33
  | .ipv6LocalAddress => 34
  | .ipv6LocalAddressPrefixLength => 35
  | .singleLocalPort => 64
  | .localPortRange => 65
  | .singleRemotePort => 80
  | .remotePortRange => 81

def all : List ComponentType := [.matchAll, .protocolIdentifierNextHeader,
    .ipv4RemoteAddress, .ipv4LocalAddress, .ipv6RemoteAddress, .ipv6RemoteAddressPrefixLength,
    .ipv6LocalAddress, .ipv6LocalAddressPrefixLength, .singleLocalPort, .localPortRange,
    .singleRemotePort, .remotePortRange]

/- The branch of the `switch` over the type octet. -/
def ofCode (octet : U8) : Option ComponentType := all.find? (fun type => type.code = octet)

/- The sizes of the fields behind the type octet, in order. -/
def fieldSizes : ComponentType → List Nat
  | .matchAll => []
  | .protocolIdentifierNextHeader => [1]
  | .ipv4RemoteAddress | .ipv4LocalAddress => [4, 4]
  | .ipv6RemoteAddress | .ipv6LocalAddress => [16, 16]
  | .ipv6RemoteAddressPrefixLength
  | .ipv6LocalAddressPrefixLength => [16, 1]
  | .singleLocalPort | .singleRemotePort => [2]
  | .localPortRange | .remotePortRange => [2, 2]

end ComponentType

/-
  A component of a packet filter: its fields one behind the other. A port is kept as its two octets
  in network order.
-/
structure Component where
  type : ComponentType
  fields : List.Vector U8 type.fieldSizes.sum
deriving DecidableEq

def Component.size (component : Component) : Nat := 1 + component.type.fieldSizes.sum

/- `pf` of a rule, with its `ogs_pf_content_t`. -/
structure PacketFilter where
  flags : U8
  contentLength : U8
  components : List Component
deriving DecidableEq

def PacketFilter.contentSize (filter : PacketFilter) : Nat :=
  (filter.components.map Component.size).sum

---- Rules ----

abbrev OperationCode := BitVec 3

namespace OperationCode

def createNew : OperationCode := 1

def deleteExisting : OperationCode := 2

def modifyAndDeletePacketFilters : OperationCode := 5

def modifyWithoutPacketFilters : OperationCode := 6

/- Operations whose rule has no packet filters. -/
def forbidsFilters (code : OperationCode) : Bool :=
  code = deleteExisting || code = modifyWithoutPacketFilters

/- Operations for which precedence and flow are built. -/
def carriesFlow (code : OperationCode) : Bool := code ≠ deleteExisting &&
    code ≠ modifyAndDeletePacketFilters && code ≠ modifyWithoutPacketFilters

/- 0 and 7 are reserved. -/
def reserved (code : OperationCode) : Bool := code = 0 || code = 7

end OperationCode

/- `ogs_nas_qos_rule_t`, with the filters that are in use. -/
structure QosRule where
  identifier : U8
  code : OperationCode
  dqr : Bool
  filters : List PacketFilter
  precedence : U8
  flow : U8
deriving DecidableEq

def maxNumOfQosRule : Nat := 8

def maxNumOfPacketFilterComponent : Nat := 16

def maxNumOfFlowInNas : Nat := 15

def maxQosRulesLen : Nat := 65535

/- Operation code, DQR bit and number of filters in an octet. -/
def flagsOctet (code : OperationCode) (dqr : Bool) (count : Nat) : U8 :=
  BitVec.ofNat 8 (code.toNat * 32 + dqr.toNat * 16 + count)

---- Building ----

def buildComponent (component : Component) : List U8 :=
  component.type.code :: component.fields.toList

/- One packet filter under the code that the builder looks at. -/
def buildPacketFilter (code : OperationCode) (filter : PacketFilter) : List U8 := filter.flags ::
    if code = .modifyAndDeletePacketFilters then [] else
      filter.contentLength :: filter.components.flatMap buildComponent

/- The octets of a rule behind its length. -/
def buildBody (code : OperationCode) (rule : QosRule) : List U8 :=
  flagsOctet rule.code rule.dqr rule.filters.length ::
    ((rule.filters.take maxNumOfFlowInNas).flatMap (buildPacketFilter code) ++
      if code.carriesFlow then [rule.precedence, rule.flow]
      else [])

def buildRule (code : OperationCode) (rule : QosRule) : List U8 :=
  let body := buildBody code rule
  rule.identifier :: BitVec.ofNat 8 (body.length / 256) :: BitVec.ofNat 8 body.length :: body

/-
  `ogs_nas_build_qos_rules`. The pointer to the first rule is never moved, so its code decides for
  all of them.
-/
def ogsNasBuildQosRules : List QosRule → Except Fault (List U8)
  | [] => .error .assertion
  | first :: others =>
      let rules := first :: others
      if first.code.forbidsFilters && rules.any (fun rule => rule.filters ≠ []) then
        .error .assertion
      else
        let octets := rules.flatMap (buildRule first.code)
        if octets.length ≤ maxQosRulesLen then .ok octets
        else .error .assertion

---- Parsing Packet Filters ----

/- Why rules are rejected. -/
inductive QosReject where
  -- an octet of a rule lies behind the rules
  | overflow
  | tooManyRules
  | zeroLength
  | reservedCode
  | filtersForbidden
  | tooManyFilters
  -- the filters would go to `stop` behind the rule's length
  | noRoom (stop : Nat)
  -- a component ends behind its content
  | contentRoom
  | emptyContent
  | tooManyComponents
  | unknownType
  | lengthMismatch
  | precedencePresent
  | precedenceMissing
  | flowMissing
deriving DecidableEq, Repr

variable (memory : Nat → U8)

/-
  `CHECK_PF_CONTENT_ROOM` and the copy behind it: the octets end inside the content and inside the
  filters of the rule.
-/
def takeContent (contentEnd listEnd count : Nat) : Reader QosReject (List.Vector U8 count) := do
  let pos ← position
  if contentEnd < pos + count then reject .contentRoom
  else take memory .noRoom listEnd count

def parseFields (contentEnd listEnd : Nat) : (sizes : List Nat) →
      Reader QosReject (List.Vector U8 sizes.sum)
  | [] => return ⟨[], rfl⟩
  | size :: sizes => do
      let field ← takeContent memory contentEnd listEnd size
      let fields ← parseFields contentEnd listEnd sizes
      return ⟨field.toList ++ fields.toList, by simp⟩

def parseComponent (contentEnd listEnd : Nat) : Reader QosReject Component := do
  let octet ← takeContent memory contentEnd listEnd 1
  match ComponentType.ofCode octet.head with
  | none => reject .unknownType
  | some type =>
      let fields ←
        parseFields memory contentEnd listEnd type.fieldSizes
      return { type := type, fields := fields }

/- The loop over the components, with room for `left` of them. -/
def parseComponents (contentEnd listEnd : Nat) : (left : Nat) → Reader QosReject (List Component)
  | 0 => do
      let pos ← position
      if contentEnd ≤ pos then return []
      else reject .tooManyComponents
  | left + 1 => do
      let pos ← position
      if contentEnd ≤ pos then return []
      else
        let component ← parseComponent memory contentEnd listEnd
        let rest ← parseComponents contentEnd listEnd left
        return component :: rest

def parseContent (listEnd : Nat) (flags : U8) : Reader QosReject PacketFilter := do
  let length ← take memory .noRoom listEnd 1
  if length.head = 0 then reject .emptyContent
  else
    let pos ← position
    let components ←
      parseComponents memory (pos + length.head.toNat) listEnd maxNumOfPacketFilterComponent
    return {
      flags := flags
      contentLength := length.head
      components := components
    }

def parsePacketFilter (code : OperationCode) (listEnd : Nat) : Reader QosReject PacketFilter := do
  let flags ← take memory .noRoom listEnd 1
  if code = .modifyAndDeletePacketFilters then
    return {
      flags := flags.head
      contentLength := 0
      components := []
    }
  else parseContent memory listEnd flags.head

def parseFilterLoop (code : OperationCode) (listEnd : Nat) :
    (count : Nat) → Reader QosReject (List PacketFilter)
  | 0 => return []
  | count + 1 => do
      let filter ← parsePacketFilter memory code listEnd
      let rest ← parseFilterLoop code listEnd count
      return filter :: rest

/- `parse_qos_rules_packet_filter_list` -/
def parsePacketFilters (code : OperationCode) (listEnd count : Nat) :
    Reader QosReject (List PacketFilter) :=
  if maxNumOfFlowInNas < count then reject .tooManyFilters
  else parseFilterLoop memory code listEnd count

---- Parsing Rules ----

/- What stands in front of the packet filters of a rule. -/
structure RuleHeader where
  identifier : U8
  length : Nat
  code : OperationCode
  dqr : Bool
  count : Nat
deriving DecidableEq

/- An octet or two of a rule, checked against all the rules. -/
def takeRule (length count : Nat) : Reader QosReject (List.Vector U8 count) :=
  take memory (fun _ => .overflow) length count

variable (length : Nat)

def parseFlags (identifier : U8) (ruleLength : Nat) : Reader QosReject RuleHeader := do
  let flags ← takeRule memory length 1
  let octet := flags.head.toNat
  let code : OperationCode := BitVec.ofNat 3 (octet / 32)
  if code.reserved then reject .reservedCode
  else if code.forbidsFilters && octet % 16 ≠ 0 then reject .filtersForbidden
  else
    return {
      identifier := identifier
      length := ruleLength
      code := code
      dqr := octet / 16 % 2 = 1
      count := octet % 16
    }

def parseHeader : Reader QosReject RuleHeader := do
  let identifier ← takeRule memory length 1
  let octets ← takeRule memory length 2
  let ruleLength := octets.head.toNat * 256 + octets.tail.head.toNat
  if ruleLength = 0 then reject .zeroLength
  else parseFlags memory length identifier.head ruleLength

/- The flow octet, which the code may require. -/
def parseFlow (code : OperationCode) (present : Bool) : Reader QosReject U8 :=
  if present then do
    let flow ← takeRule memory length 1
    if code = .deleteExisting then reject .precedencePresent
    else return flow.head
  else if code = .createNew then reject .flowMissing
  else return 0

/- Precedence and flow, as far as the rule's length has them. -/
def parseTrailer (code : OperationCode) (octets : Nat) : Reader QosReject (U8 × U8) :=
  if octets = 0 then
    if code = .createNew then reject .precedenceMissing
    else return (0, 0)
  else do
    let precedence ← takeRule memory length 1
    if code = .deleteExisting then reject .precedencePresent
    else
      let flow ← parseFlow memory length code (octets = 2)
      return (precedence.head, flow)

/-
  The rule behind a header. What is left of the declared length behind flags and filters is the
  trailer.
-/
def parseRest (header : RuleHeader) : Reader QosReject QosRule := do
  let start ← position
  let filters ←
    parsePacketFilters memory header.code (start + (header.length - 1)) header.count
  let stop ← position
  let parsed := 1 + (stop - start)
  if header.length < parsed ∨ parsed + 2 < header.length then reject .lengthMismatch
  else
    let trailer ←
      parseTrailer memory length header.code (header.length - parsed)
    return {
      identifier := header.identifier
      code := header.code
      dqr := header.dqr
      filters := filters
      precedence := trailer.1
      flow := trailer.2
    }

def parseRule : Reader QosReject QosRule := do
  let header ← parseHeader memory length
  parseRest memory length header

/-
  The loop over the rules, with room for `left` of them. The running `size` has 16 bits; eight rules
  of at most 3861 octets do not take it that far.
-/
def parseRules (length : Nat) : (left : Nat) → Reader QosReject (List QosRule)
  | 0 => do
      let pos ← position
      if length ≤ pos then return []
      else reject .tooManyRules
  | left + 1 => do
      let pos ← position
      if length ≤ pos then return []
      else
        let rule ← parseRule memory length
        let rest ← parseRules length left
        return rule :: rest

/- The rules that are returned: none when they are rejected. -/
def returned : Except QosReject (List QosRule × Nat) → List QosRule
  | .error _ => []
  | .ok (rules, _) => rules

/- `ogs_nas_parse_qos_rules` on a buffer that is not NULL. -/
def ogsNasParseQosRules (length : U16) : Traced Nat (List QosRule) :=
  if length = 0 then return []
  else do
    let result ←
      (parseRules memory length.toNat maxNumOfQosRule).run 0
    return returned result

end Pretty5gs.Nas
