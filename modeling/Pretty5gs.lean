import Pretty5gs.Cgf.Authentic
import Pretty5gs.Cgf.Delivery
import Pretty5gs.Cgf.Marked
import Pretty5gs.Cgf.Pinned
import Pretty5gs.Core.Types
import Pretty5gs.Core.Xid
import Pretty5gs.FailedCreate
import Pretty5gs.Gtp.History
import Pretty5gs.Gtp.ImsiPeek
import Pretty5gs.Gtp.Index
import Pretty5gs.Gtp.Receive
import Pretty5gs.Library.FirstIndex
import Pretty5gs.Library.IntrusiveList
import Pretty5gs.Library.Precedence
import Pretty5gs.Library.Transition
import Pretty5gs.Li.Target
import Pretty5gs.Mme.AccessControl
import Pretty5gs.Mme.Ambr
import Pretty5gs.Mme.NasBounds
import Pretty5gs.Mme.NasCount
import Pretty5gs.Mme.OverloadLevel
import Pretty5gs.Mme.OverloadSignal
import Pretty5gs.Mme.Relocation
import Pretty5gs.Mme.PgwSelect
import Pretty5gs.Mme.S1apOnce
import Pretty5gs.Mme.S1apOrder
import Pretty5gs.Mme.S1apStranded
import Pretty5gs.Nas.ApnAmbr
import Pretty5gs.Nas.Bitrate
import Pretty5gs.Nas.Conv
import Pretty5gs.Nas.EpsQos
import Pretty5gs.Nas.Nssai
import Pretty5gs.Nas.QosRulesRoundTrip
import Pretty5gs.Nas.TaiListServing
import Pretty5gs.Pfcp.DownlinkRuns
import Pretty5gs.Pfcp.FarIndex
import Pretty5gs.Pfcp.IeInside
import Pretty5gs.Pfcp.IeRoundTrip
import Pretty5gs.Pfcp.PdrIndex
import Pretty5gs.Pfcp.PdrOrder
import Pretty5gs.Pfcp.PdrRules
import Pretty5gs.Pfcp.PdrTeid
import Pretty5gs.Pfcp.Receive
import Pretty5gs.Pfcp.RuleMatch
import Pretty5gs.Pfcp.SdfRoundTrip
import Pretty5gs.Pfcp.SubnetRanges
import Pretty5gs.Pfcp.UeIpUnique
import Pretty5gs.Proto.MediaFlow
import Pretty5gs.Proto.Pco
import Pretty5gs.Smf.Conservation
import Pretty5gs.Smf.RadiusOrder
import Pretty5gs.Smf.Sequence
import Pretty5gs.Tlv.Bounds
import Pretty5gs.Tlv.RoundTrip
import Pretty5gs.Tlv.Unknown
import Pretty5gs.Pfcp.SubnetConfig
