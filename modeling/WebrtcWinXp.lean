import WebrtcWinXp.Stun.RequestManager
import WebrtcWinXp.Stun.Framing
import WebrtcWinXp.Stun.IntegrityReads
import WebrtcWinXp.FileTransfer.Agreement
import WebrtcWinXp.FileTransfer.Sizes
import WebrtcWinXp.PseudoTcp.SafeParsing
import WebrtcWinXp.PseudoTcp.ByteStream
import WebrtcWinXp.DataChannel.ReceiveOrder
import WebrtcWinXp.DataChannel.LifeCycle
import WebrtcWinXp.DataChannel.OpenMessage
import WebrtcWinXp.DataChannel.StreamResets
import WebrtcWinXp.Bitrate.Allocation
import WebrtcWinXp.Bitrate.RateStatistics
import WebrtcWinXp.Bitrate.OveruseDetector
import WebrtcWinXp.Dtls.Gate
import WebrtcWinXp.Fec.ShiftInvariance
import WebrtcWinXp.Fec.Completeness
import WebrtcWinXp.Rtcp.InStep
import WebrtcWinXp.Turn.Relay
import WebrtcWinXp.Vp8.NoEmptyPackets
import WebrtcWinXp.NetEq.AverageIat
import WebrtcWinXp.NetEq.DelayRuns
import WebrtcWinXp.NetEq.ShiftedDelay
import WebrtcWinXp.NetEq.SyncBuffer
import WebrtcWinXp.NetEq.TimestampScaler
import WebrtcWinXp.NetEq.RedSplitting
import WebrtcWinXp.NetEq.AudioSplitting
import WebrtcWinXp.NetEq.PacketRuns
import WebrtcWinXp.NetEq.ShiftedDtmf
import WebrtcWinXp.Rtp.ExtensionReadBack
import WebrtcWinXp.Rtp.Rtx
import WebrtcWinXp.Tmmbr.Runs
import WebrtcWinXp.H264.RoundTrip
import WebrtcWinXp.StunTcp.Lossless
import WebrtcWinXp.Ice.Agreement
import WebrtcWinXp.Srtp.Rejected
import WebrtcWinXp.Messages.Delivery
import WebrtcWinXp.Relay.Forwarding
import WebrtcWinXp.MediaSession.StableIds
import WebrtcWinXp.MediaSession.StaysInside
import WebrtcWinXp.MediaSession.SharedCryptos
import WebrtcWinXp.P2p.Invariant
import WebrtcWinXp.P2p.ShiftedChannel
import WebrtcWinXp.P2pData.IpAddress
import WebrtcWinXp.P2pData.Descriptors
import WebrtcWinXp.P2pData.RenameFile
import WebrtcWinXp.P2pData.FileMd5
import WebrtcWinXp.H264.Reads
import WebrtcWinXp.Rtp.SafeHeader
import WebrtcWinXp.Fec.RedReadBack
import WebrtcWinXp.Fec.DecoderReads
import WebrtcWinXp.Fec.Batches
import WebrtcWinXp.P2pData.SignIn
import WebrtcWinXp.Rtp.HistoryLookup
import WebrtcWinXp.Rtp.ReportedLoss
import WebrtcWinXp.Rtcp.RateReadBack
import WebrtcWinXp.VideoCoding.Fragments
