import Mathlib
import Pretty5gs.Library.ByteSwap
import Pretty5gs.Library.NetOctets
import Pretty5gs.Pfcp.Ie

/-
  The SDF filter IE.

  The traffic class is converted as a word of four octets when it is parsed, and the flow label is
  written by the first three octets of its word. The offset of the builder has 16 bits and a sign.
  Words are those of a little-endian host.

  Main results: `SdfFilter.parseSdfFilter_confined`.
-/

---- Filters ----

namespace Pretty5gs.Pfcp.SdfFilter

open NetOctets Ie Reader

/- `ogs_pfcp_sdf_filter_t`, with what is pointed to. -/
structure Filter where
  flags : U8
  spare2 : U8
  flowDescription : List U8
  tosTrafficClass : U16
  securityParameterIndex : U32
  flowLabel : U32
  sdfFilterId : U32
  length_fits : flowDescription.length < 2 ^ 16

variable (flags : U8)

def fd : Bool := flags.getLsbD 0

def ttc : Bool := flags.getLsbD 1

def spi : Bool := flags.getLsbD 2

def fl : Bool := flags.getLsbD 3

def bid : Bool := flags.getLsbD 4

---- The Builder ----

variable (f : Filter)

def lengthPiece : Piece :=
  { flag := fd f.flags
    signed := false
    octets := be16 (BitVec.ofNat 16 f.flowDescription.length) }

def flowPiece : Piece :=
  { flag := fd f.flags
    signed := true
    octets := f.flowDescription }

def tosPiece : Piece :=
  { flag := ttc f.flags
    signed := false
    octets := be16 f.tosTrafficClass }

def indexPiece : Piece :=
  { flag := spi f.flags
    signed := false
    octets := be32 f.securityParameterIndex }

/- `bit24_len` octets of the word. -/
def labelPiece : Piece :=
  { flag := fl f.flags
    signed := true
    octets := (be32 f.flowLabel).take 3 }

def idPiece : Piece :=
  { flag := bid f.flags
    signed := false
    octets := be32 f.sdfFilterId }

/- The pieces of a filter up to its flow description. -/
def flowPieces : List Piece := [{ flag := true, signed := false, octets := [f.flags] },
   { flag := true, signed := false, octets := [f.spare2] }, lengthPiece f, flowPiece f]

/- The pieces behind the flow description. -/
def laterPieces : List Piece := [tosPiece f, indexPiece f, labelPiece f, idPiece f]

/- `ogs_pfcp_build_sdf_filter` -/
def buildSdfFilter (data : Nat → U8) (dataLen : Nat) : Except Fault Octet := do
  let w ← (flowPieces f).foldlM (putPiece dataLen)
    { data := data, size := 0 }
  let w ← (laterPieces f).foldlM (putPiece dataLen) w
  return { data := w.data, len := BitVec.ofInt 32 w.size }

---- The Parser ----

/- A flow description is a place in the IE. -/
structure ParsedSdf where
  flags : U8
  spare2 : U8
  flowDescriptionLen : U16
  flowDescription : Nat
  tosTrafficClass : U16
  securityParameterIndex : U32
  flowLabel : U32
  sdfFilterId : U32
deriving DecidableEq, Repr

/- `be16toh` of two octets. -/
def decode16 (v : List.Vector U8 2) : U16 := v.get 0 ++ v.get 1

/- `be32toh` of four octets. -/
def decode32 (v : List.Vector U8 4) : U32 :=
  (v.get 0 ++ v.get 1 : U16) ++ (v.get 2 ++ v.get 3 : U16)

/- The traffic class: `be32toh` of a word of 16 bits, whose first octet is the lower one. -/
def decodeTos (v : List.Vector U8 2) : U16 :=
  (ByteSwap.swap ((v.get 1 ++ v.get 0 : U16).setWidth 32)).setWidth 16

/- The flow label: `be32toh` of a word of which the first three octets have been filled. -/
def decodeLabel (v : List.Vector U8 3) : U32 := ByteSwap.swap
    (((0 : U8) ++ v.get 2 : U16) ++ (v.get 1 ++ v.get 0 : U16))

/- The length of the flow description and its place. -/
structure FlowPlace where
  len : U16
  place : Nat

variable (memory : Nat → U8) (len : Nat)

/- The flow description itself is passed without a check. -/
def parseFlow : Reader Unit FlowPlace := do
  let v ← field memory len 2
  let place ← position
  skip (decode16 v).toNat
  return { len := decode16 v, place := place }

/- `ogs_pfcp_parse_sdf_filter` -/
def parseSdfFilter : Reader Unit ParsedSdf := do
  let flags ← parseField memory len 1 firstOctet
  let spare2 ← parseField memory len 1 firstOctet
  let flow ← optional (fd flags)
    (parseFlow memory len) { len := 0, place := 0 }
  let tos ← optional (ttc flags)
    (parseField memory len 2 decodeTos) 0
  let index ← optional (spi flags)
    (parseField memory len 4 decode32) 0
  let label ← optional (fl flags)
    (parseField memory len 3 decodeLabel) 0
  let id ← optional (bid flags)
    (parseField memory len 4 decode32) 0
  pure
    { flags := flags
      spare2 := spare2
      flowDescriptionLen := flow.len
      flowDescription := flow.place
      tosTrafficClass := tos
      securityParameterIndex := index
      flowLabel := label
      sdfFilterId := id }

/- The parser reads inside the IE, whatever it holds. -/
theorem parseSdfFilter_confined : Confined len (parseSdfFilter memory len) := by
  have hFlow : Confined len (parseFlow memory len) := Confined.take.bind fun _ =>
      Confined.position.bind fun _ => Confined.skip.bind fun _ => .pure
  refine confined_parseField.bind fun flags => ?_
  refine confined_parseField.bind fun spare2 => ?_
  refine hFlow.optional.bind fun flow => ?_
  refine confined_optional.bind fun tos => ?_
  refine confined_optional.bind fun index => ?_
  refine confined_optional.bind fun label => ?_
  exact confined_optional.bind fun id => .pure

end Pretty5gs.Pfcp.SdfFilter
