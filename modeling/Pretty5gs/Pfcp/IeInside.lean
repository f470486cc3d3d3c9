import Pretty5gs.Pfcp.IpResource
import Pretty5gs.Pfcp.SdfFilter
import Pretty5gs.Pfcp.UserId

/-
  Where the parsers of PFCP IEs read.

  The parsers of a volume measurement and of a threshold of dropped traffic check nothing: the flags
  say how many octets they read.

  Main results: `Ie.ie_parsers_read_inside`.
-/

---- Volumes And Thresholds ----

namespace Pretty5gs.Pfcp.Ie

open Reader

abbrev U64 := BitVec 64

/- `be64toh` of eight octets. -/
def decode64 (v : List.Vector U8 8) : U64 :=
  v.toList.foldl (fun word octet => (word ++ octet).setWidth 64) 0

/- A word of eight octets, without a check. -/
def parseWord (memory : Nat → U8) : Reader Unit U64 := do
  let v ← octets memory 8
  return decode64 v

/- `ogs_pfcp_volume_measurement_t` -/
structure VolumeMeasurement where
  flags : U8
  totalVolume : U64
  uplinkVolume : U64
  downlinkVolume : U64
  totalNPackets : U64
  uplinkNPackets : U64
  downlinkNPackets : U64
deriving DecidableEq, Repr

/- `ogs_pfcp_parse_volume_measurement` -/
def parseVolumeMeasurement (memory : Nat → U8) : Reader Unit VolumeMeasurement := do
  let flags ← octet memory
  let total ← optional (flags.getLsbD 0)
    (parseWord memory) 0
  let uplink ← optional (flags.getLsbD 1)
    (parseWord memory) 0
  let downlink ← optional (flags.getLsbD 2)
    (parseWord memory) 0
  let totalPackets ← optional (flags.getLsbD 3)
    (parseWord memory) 0
  let uplinkPackets ← optional (flags.getLsbD 4)
    (parseWord memory) 0
  let downlinkPackets ← optional (flags.getLsbD 5)
    (parseWord memory) 0
  pure
    { flags := flags
      totalVolume := total
      uplinkVolume := uplink
      downlinkVolume := downlink
      totalNPackets := totalPackets
      uplinkNPackets := uplinkPackets
      downlinkNPackets := downlinkPackets }

/- `ogs_pfcp_dropped_dl_traffic_threshold_t` -/
structure DroppedDlTrafficThreshold where
  flags : U8
  downlinkPackets : U64
  numberOfBytesOfDownlinkData : U64
deriving DecidableEq, Repr

/- `ogs_pfcp_parse_dropped_dl_traffic_threshold` -/
def parseDroppedDlTrafficThreshold (memory : Nat → U8) : Reader Unit DroppedDlTrafficThreshold := do
  let flags ← octet memory
  let packets ← optional (flags.getLsbD 0)
    (parseWord memory) 0
  let bytes ← optional (flags.getLsbD 1)
    (parseWord memory) 0
  pure
    { flags := flags
      downlinkPackets := packets
      numberOfBytesOfDownlinkData := bytes }

---- Bit Rates ----

/- `ogs_pfcp_bitrate_t` -/
structure Bitrate where
  uplink : U64
  downlink : U64
deriving DecidableEq, Repr

/- `OGS_PFCP_BITRATE_LEN` -/
def bitrateLen : Nat := 10

/- `ogs_buffer_to_uint64` -/
def ogsBufferToUint64 (octets : List U8) : U64 := octets.zipIdx.foldl (fun (num : U64) item =>
      num ||| (item.1.setWidth 64 : U64) <<< ((octets.length - 1 - item.2) * 8)) 0

/- `ogs_pfcp_parse_bitrate` -/
def parseBitrate (memory : Nat → U8) (len : Nat) : Reader Unit Bitrate :=
  if len ≠ bitrateLen then reject ()
  else do
    let up ← octets memory 5
    let down ← octets memory 5
    pure
      { uplink := ogsBufferToUint64 up.toList * 1000
        downlink := ogsBufferToUint64 down.toList * 1000 }

---- Octets That The Flags Ask For ----

/- The octets of a word, if it is there. -/
def wordSize (flag : Bool) : Nat := if flag then 8 else 0

def volumeSize (flags : U8) : Nat := 1 + (wordSize (flags.getLsbD 0) + (wordSize (flags.getLsbD 1) +
    (wordSize (flags.getLsbD 2) + (wordSize (flags.getLsbD 3) + (wordSize (flags.getLsbD 4) +
      wordSize (flags.getLsbD 5))))))

def thresholdSize (flags : U8) : Nat :=
  1 + (wordSize (flags.getLsbD 0) + wordSize (flags.getLsbD 1))

theorem spans_word : Spans (optional flag (parseWord memory) 0) (wordSize flag) :=
  Spans.optional (Spans.octets.bind fun _ => .pure)

/- A reader of the flags that then checks nothing. -/
theorem within_flags_iff {rest : U8 → Reader Unit α} (hRest : Spans (rest (memory 0)) count) :
    ((octet memory >>= rest).run 0).Within (· < len) ↔ 1 + count ≤ len := by
  rw [within_bind, within_octet]
  constructor
  · rintro ⟨hFirst, hAll⟩
    exact (hRest.within_iff hFirst).mp (hAll _ _ value_octet)
  · intro hRoom
    refine ⟨by omega, ?_⟩
    intro flags next hFlags
    cases hFlags
    exact (hRest.within_iff (by omega)).mpr hRoom

variable {memory : Nat → U8} (len : Nat)

theorem parseVolumeMeasurement_within_iff :
    ((parseVolumeMeasurement memory).run 0).Within (· < len) ↔ volumeSize (memory 0) ≤ len := by
  refine within_flags_iff ?_
  refine spans_word.bind fun total => ?_
  refine spans_word.bind fun uplink => ?_
  refine spans_word.bind fun downlink => ?_
  refine spans_word.bind fun totalPackets => ?_
  refine spans_word.bind fun uplinkPackets => ?_
  exact spans_word.bind fun downlinkPackets => .pure

theorem parseDroppedDlTrafficThreshold_within_iff :
    ((parseDroppedDlTrafficThreshold memory).run 0).Within (· < len) ↔
      thresholdSize (memory 0) ≤ len := by
  refine within_flags_iff ?_
  refine spans_word.bind fun packets => ?_
  exact spans_word.bind fun bytes => .pure

theorem parseBitrate_within : ((parseBitrate memory len).run 0).Within (· < len) := by
  unfold parseBitrate
  by_cases hLen : len = bitrateLen
  · rw [if_neg (not_not_intro hLen)]
    have hSpans : Spans (do
      let up ← octets memory 5
      let down ← octets memory 5
      pure
        { uplink := ogsBufferToUint64 up.toList * 1000
          downlink := ogsBufferToUint64 down.toList * 1000 } : Reader Unit Bitrate) 10 :=
      Spans.octets.bind fun up => Spans.octets.bind fun down => .pure
    exact (hSpans.within_iff (Nat.zero_le _)).mpr (Nat.le_of_eq hLen.symm)
  · rw [if_pos hLen]
    exact within_reject

---- Parsers Of IEs ----

inductive Parser where
  | sdfFilter
  | volumeMeasurement
  | droppedDlTrafficThreshold
  | userPlaneIpResourceInfo
  | bitrate
  | userId
deriving DecidableEq, Repr

variable (parser : Parser) (data : Nat → U8) (len : U16)

/- The parser reads octets of the IE; its length has 16 bits. -/
def Inside : Prop :=
  match parser with
  | .sdfFilter => ((SdfFilter.parseSdfFilter data len.toNat).run 0).Within (· < len.toNat)
  | .volumeMeasurement => ((parseVolumeMeasurement data).run 0).Within (· < len.toNat)
  | .droppedDlTrafficThreshold =>
      ((parseDroppedDlTrafficThreshold data).run 0).Within (· < len.toNat)
  | .userPlaneIpResourceInfo => ((IpResource.parseInfo data len.toNat).run 0).Within (· < len.toNat)
  | .bitrate => ((parseBitrate data len.toNat).run 0).Within (· < len.toNat)
  | .userId => ((UserId.parseUserId data len.toNat).run 0).Within (· < len.toNat)

/- The IE has the octets that its parser takes for granted. -/
def Covers : Prop :=
  match parser with
  | .volumeMeasurement => volumeSize (data 0) ≤ len.toNat
  | .droppedDlTrafficThreshold => thresholdSize (data 0) ≤ len.toNat
  | .userPlaneIpResourceInfo => 0 < len.toNat ∧ ¬ IpResource.Overruns data len.toNat
  | .sdfFilter | .bitrate | .userId => True

/- A parser stays inside an IE if and only if the IE has the octets that it takes for granted. -/
theorem ie_parsers_read_inside : Inside parser data len ↔ Covers parser data len := by
  cases parser with
  | sdfFilter => exact iff_of_true (SdfFilter.parseSdfFilter_confined data len.toNat 0) trivial
  | volumeMeasurement => exact parseVolumeMeasurement_within_iff len.toNat
  | droppedDlTrafficThreshold => exact parseDroppedDlTrafficThreshold_within_iff len.toNat
  | userPlaneIpResourceInfo => exact IpResource.parseInfo_within_iff
  | bitrate => exact iff_of_true (parseBitrate_within len.toNat) trivial
  | userId => exact iff_of_true (UserId.parseUserId_confined data 0) trivial

/- A flag that asks for a volume, in an IE of one octet. -/
theorem volume_is_read_behind_ie : ¬ Inside .volumeMeasurement (fun _ => 1) 1 := by
  unfold Inside
  decide

/- A label, and a length of one that ends the IE. -/
example : ¬ Inside .userPlaneIpResourceInfo (fun i => [0x20, 0x01, 0x61, 0x01].getD i 0) 4 := by
  unfold Inside
  decide

end Pretty5gs.Pfcp.Ie
