import Streamhaul.AnnexB
import Streamhaul.AssocMap
import Streamhaul.Authorizer
import Streamhaul.BindCert
import Streamhaul.ByteStream
import Streamhaul.Bytes
import Streamhaul.ChannelAtomicity
import Streamhaul.ChannelCrypto
import Streamhaul.ChannelDelivery
import Streamhaul.ChannelFrame
import Streamhaul.ChannelKill
import Streamhaul.ChannelLive
import Streamhaul.ChannelNonce
import Streamhaul.ChannelReplay
import Streamhaul.ChannelSaturation
import Streamhaul.ChannelSession
import Streamhaul.ChannelSlots
import Streamhaul.Chunks
import Streamhaul.Clipboard
import Streamhaul.CodecNegotiation
import Streamhaul.ContentClassifier
import Streamhaul.ControlMessages
import Streamhaul.Credentials
import Streamhaul.CryptoPrimitives
import Streamhaul.Delimited
import Streamhaul.Dwell
import Streamhaul.EncoderSwitch
import Streamhaul.FileFrames
import Streamhaul.FileNames
import Streamhaul.FileResume
import Streamhaul.FileTransfer
import Streamhaul.GapDetector
import Streamhaul.HostStream
import Streamhaul.HostVideo
import Streamhaul.IceAgent
import Streamhaul.IceBookkeeping
import Streamhaul.IceCheckList
import Streamhaul.IceDatagrams
import Streamhaul.IceInterop
import Streamhaul.IceLedger
import Streamhaul.IceNomination
import Streamhaul.IceTrickle
import Streamhaul.InputEvents
import Streamhaul.InputFlood
import Streamhaul.InputInjector
import Streamhaul.InputSession
import Streamhaul.Interleave
import Streamhaul.JsString
import Streamhaul.LossRecovery
import Streamhaul.Machine
import Streamhaul.NoiseCompletion
import Streamhaul.NoiseHandshake
import Streamhaul.Notify
import Streamhaul.Packetize
import Streamhaul.PacketizeBuffers
import Streamhaul.PacketizeDelivery
import Streamhaul.PacketizeDuplicates
import Streamhaul.PacketizeFrames
import Streamhaul.Pake
import Streamhaul.PakeBinding
import Streamhaul.PeerAuth
import Streamhaul.PeerAuthRun
import Streamhaul.Pipeline
import Streamhaul.Ratchet
import Streamhaul.RawCodec
import Streamhaul.Record
import Streamhaul.ReliableChannel
import Streamhaul.ReliableDelivery
import Streamhaul.ReliableReceiver
import Streamhaul.ReplayWindow
import Streamhaul.SdpBridge
import Streamhaul.SdpPin
import Streamhaul.Semaphore
import Streamhaul.SessionEstablisher
import Streamhaul.ShpHeaders
import Streamhaul.SignalingClient
import Streamhaul.SignalingEnvelope
import Streamhaul.SignalingHandshake
import Streamhaul.SignalingInvariant
import Streamhaul.SignalingLifecycle
import Streamhaul.SignalingMoves
import Streamhaul.SignalingRelay
import Streamhaul.SignalingSecrecy
import Streamhaul.SignalingServer
import Streamhaul.SlidingWindow
import Streamhaul.Stun
import Streamhaul.StunCodec
import Streamhaul.StunFrame
import Streamhaul.StunIntegrity
import Streamhaul.Text
import Streamhaul.Tlv
import Streamhaul.TransportCaps
import Streamhaul.TrustStore
import Streamhaul.Turn
import Streamhaul.TurnAllocation
import Streamhaul.TurnChallenge
import Streamhaul.TurnCodec
import Streamhaul.TurnMoves
import Streamhaul.TurnReplay
import Streamhaul.TurnResponses
import Streamhaul.Ugc
import Streamhaul.Utf8Decoder
import Streamhaul.WebClient
import Streamhaul.WebEnvelope
import Streamhaul.WebFile
import Streamhaul.WebReassembler
import Streamhaul.WebRtcChannel
import Streamhaul.WebRtcDelivery
import Streamhaul.WebRtcWakeups
import Streamhaul.WebSession
import Streamhaul.WebVideo
