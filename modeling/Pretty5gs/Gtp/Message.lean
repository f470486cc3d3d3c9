import Pretty5gs.Core.Xid

/-
  GTP headers, sequence numbers and message stages.

  The stage of a message is its place in a transaction: a request that opens one, a triggered
  message that expects a further reply, or the reply that ends it.
-/

---- Headers And Packets ----

namespace Pretty5gs.Gtp

/- `gtp_version` -/
inductive Version where
  | gtp1
  | gtp2
deriving DecidableEq, Repr

/- The fields of `ogs_gtp1_header_t` that the layer uses. -/
structure Gtp1Header where
  version : Nat
  s : Bool
  type : Nat
  length : U16
  teid : U32
  sqn : Be16
deriving DecidableEq, Repr

/-
  The fields of `ogs_gtp2_header_t` that the layer uses. The first word after the length is the TEID
  or, without one, the sequence number; the second word is the sequence number behind a TEID.
-/
structure Gtp2Header where
  version : Nat
  teidPresence : Bool
  type : Nat
  length : U16
  firstWord : Be32
  secondWord : Be32
deriving DecidableEq, Repr

/- The sequence number field that `teid_presence` selects. -/
def Gtp2Header.sqn (h : Gtp2Header) : Be32 := if h.teidPresence then h.secondWord else h.firstWord

/- The type and TEID that a caller asks to be sent. -/
structure HeaderDesc where
  type : Nat
  teid : U32
deriving DecidableEq, Repr

/- A packet whose GTP header has been written. -/
inductive Pkbuf where
  | gtp1 (h : Gtp1Header) (payload : List UInt8)
  | gtp2 (h : Gtp2Header) (payload : List UInt8)
deriving DecidableEq, Repr

---- Sequence Numbers ----

/- `OGS_GTP_MIN_XACT_ID` -/
abbrev ogsGtpMinXactId : U32 := 1

/- `OGS_GTP_CMD_XACT_ID` -/
abbrev ogsGtpCmdXactId : U32 := 0x800000

/- `OGS_GTP1_MIN_XACT_ID` -/
abbrev ogsGtp1MinXactId : U32 := 0

/- `OGS_GTP1_MAX_XACT_ID` -/
abbrev ogsGtp1MaxXactId : U32 := 65535

def ogsGtp1XidToSqn (xid : U32) : Be16 := htobe16 (xid.setWidth 16)

def ogsGtp1SqnToXid (sqn : Be16) : U32 := (be16toh sqn).setWidth 32

def ogsGtp2XidToSqn (xid : U32) : Be32 := htobe32 (xid <<< 8)

def ogsGtp2SqnToXid (sqn : Be32) : U32 := be32toh sqn >>> 8

/- `ogs_gtp2_sqn_key`: the low 24 bits of the field. -/
def ogsGtp2SqnKey (sqn : Be32) : U32 := be32toh sqn &&& 0xffffff

/- `xid & OGS_GTP_CMD_XACT_ID` -/
def isCommandXid (xid : U32) : Bool := xid &&& ogsGtpCmdXactId != 0

---- Stages ----

inductive Stage where
  | unknown
  | initial
  | intermediate
  | final
deriving DecidableEq, Repr

abbrev ogsGtp1SgsnContextAcknowledgeType : Nat := 52

abbrev ogsGtp1RanInformationRelayType : Nat := 70

def gtp1InitialTypes : List Nat :=
  -- Echo, Node Alive, Redirection
  [ 1, 4, 6,
  -- Create, Update, Delete PDP Context, PDP Activation
    16, 18, 20, 22,
  -- PDU Notification and its Reject
    27, 29,
  -- Routeing Information, Failure Report, MS Present
    32, 34, 36,
  -- Identification, SGSN Context, Forward Relocation
    48, 50, 53,
  -- Relocation Cancel, UE Registration Query
    56, 61, ogsGtp1RanInformationRelayType ]

/- SGSN Context Response -/
def gtp1IntermediateTypes : List Nat := [ 51 ]

def gtp1FinalTypes : List Nat :=
  -- Echo, Node Alive, Redirection
  [ 2, 5, 7,
  -- Create, Update, Delete PDP Context, PDP Activation
    17, 19, 21, 23,
  -- PDU Notification and its Reject
    28, 30,
  -- Routeing Information, Failure Report, MS Present
    33, 35, 37,
  -- Identification
    49, ogsGtp1SgsnContextAcknowledgeType,
  -- Forward Relocation, Relocation Cancel, Registration
    54, 57, 62 ]

/- `ogs_gtp1_xact_get_stage` ignores the identifier. -/
def ogsGtp1XactGetStage (type : Nat) (_xid : U32) : Stage :=
  if type ∈ gtp1InitialTypes then .initial
  else if type ∈ gtp1IntermediateTypes then .intermediate
  else if type ∈ gtp1FinalTypes then .final
  else .unknown

abbrev ogsGtp2VersionNotSupportedIndicationType : Nat := 3

abbrev ogsGtp2ModifyBearerCommandType : Nat := 64

abbrev ogsGtp2ModifyBearerFailureIndicationType : Nat := 65

abbrev ogsGtp2DeleteBearerCommandType : Nat := 66

abbrev ogsGtp2DeleteBearerFailureIndicationType : Nat := 67

abbrev ogsGtp2BearerResourceCommandType : Nat := 68

abbrev ogsGtp2BearerResourceFailureIndicationType : Nat := 69

def gtp2InitialTypes : List Nat :=
  -- Echo, Create Session, Modify Bearer, Delete Session
  [ 1, 32, 34, 36,
  -- Change Notification, Remote UE Report
    38, 40, ogsGtp2ModifyBearerCommandType, ogsGtp2DeleteBearerCommandType,
    ogsGtp2BearerResourceCommandType,
  -- Trace Activation and Deactivation, Stop Paging
    71, 72, 73,
  -- Delete PDN Connection Set, Downlink Triggering
    101, 103,
  -- Forwarding Tunnel, Suspend, Resume
    160, 162, 164,
  -- Create and Delete Indirect Data Forwarding Tunnel
    166, 168,
  -- Release Access Bearers, Downlink Data Notification
    170, 176,
  -- PGW Restart, Update PDN Set, Modify Access Bearers
    179, 200, 211 ]

/- Create, Update and Delete Bearer Request -/
def gtp2BearerRequestTypes : List Nat := [ 95, 97, 99 ]

def gtp2FinalTypes : List Nat :=
  -- Echo Response
  [ 2, ogsGtp2VersionNotSupportedIndicationType,
  -- Create Session, Modify Bearer, Delete Session
    33, 35, 37,
  -- Change Notification, Remote UE Report
    39, 41, ogsGtp2ModifyBearerFailureIndicationType, ogsGtp2DeleteBearerFailureIndicationType,
    ogsGtp2BearerResourceFailureIndicationType,
  -- Downlink Data Notification Failure Indication
    70,
  -- Create, Update and Delete Bearer Response
    96, 98, 100,
  -- Delete PDN Connection Set, Downlink Triggering
    102, 104,
  -- Forwarding Tunnel, Suspend, Resume
    161, 163, 165,
  -- Create and Delete Indirect Data Forwarding Tunnel
    167, 169,
  -- Release Access Bearers, Downlink Data Notification
    171, 177,
  -- PGW Restart, Update PDN Set, Modify Access Bearers
    180, 201, 212 ]

/-
  `ogs_gtp2_xact_get_stage`: a bearer request is triggered by a command exactly when its identifier
  has the command bit.
-/
def ogsGtp2XactGetStage (type : Nat) (xid : U32) : Stage :=
  if type ∈ gtp2InitialTypes then .initial
  else if type ∈ gtp2BearerRequestTypes then if isCommandXid xid then .intermediate else .initial
  else if type ∈ gtp2FinalTypes then .final
  else .unknown

/- The classification that the version of a message selects. -/
def getStage (version : Version) (type : Nat) (xid : U32) : Stage :=
  match version with
  | .gtp1 => ogsGtp1XactGetStage type xid
  | .gtp2 => ogsGtp2XactGetStage type xid

/- The three commands whose identifiers get the command bit. -/
def isGtp2Command (type : Nat) : Bool := type = ogsGtp2ModifyBearerCommandType ∨
    type = ogsGtp2DeleteBearerCommandType ∨ type = ogsGtp2BearerResourceCommandType

/- The three failure indications that answer a command. -/
def isGtp2FailureIndication (type : Nat) : Bool := type = ogsGtp2ModifyBearerFailureIndicationType ∨
    type = ogsGtp2DeleteBearerFailureIndicationType ∨
    type = ogsGtp2BearerResourceFailureIndicationType

---- Reply Routing ----

def ogsGtp2XactIsLocalReply (stage : Stage) (xid : U32) : Bool :=
  if stage = .intermediate then true
  else if stage = .final ∧ ¬ isCommandXid xid then true
  else false

/- `ogs_gtp2_rx_reply_shard` on a packet of `len` octets. -/
def ogsGtp2RxReplyShard (worker : Worker) (h : Gtp2Header) (len : Nat) : Int :=
  if ¬ worker.shardsActive then -1
  else if len < 8 then -1
  else if h.version ≠ 2 then -1
  else
    let xid := ogsGtp2SqnToXid h.sqn
    let stage := ogsGtp2XactGetStage h.type xid
    if ¬ ogsGtp2XactIsLocalReply stage xid then -1
    else ((xid >>> (23 - ogsWorkerIdBits)) &&& 15).toNat

/- `ogs_gtp1_rx_reply_shard` on a packet of `len` octets. -/
def ogsGtp1RxReplyShard (worker : Worker) (h : Gtp1Header) (len : Nat) : Int :=
  if ¬ worker.shardsActive then -1
  else if len < 12 then -1
  else if h.version ≠ 1 ∨ ¬ h.s then -1
  else
    let xid := ogsGtp1SqnToXid h.sqn
    let stage := ogsGtp1XactGetStage h.type xid
    if stage ≠ .intermediate ∧ stage ≠ .final then -1
    else ((xid >>> (16 - ogsWorkerIdBits)) &&& 15).toNat

end Pretty5gs.Gtp
