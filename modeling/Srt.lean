import Srt.Crypto.NonceReuse
import Srt.Crypto.Acknowledged
import Srt.Crypto.ReceivedData
import Srt.Crypto.Separation
import Srt.Crypto.SharedSchedule
import Srt.Handshake.FilterNegotiation
import Srt.Handshake.RendezvousSafety
import Srt.Handshake.Retransmission
import Srt.Handshake.Admission
import Srt.Handshake.Undisturbed
import Srt.PacketFormat
import Srt.Authentication.Replay
import Srt.Reliability.PeerDrop
import Srt.Reliability.SendForm
import Srt.Reliability.SendRetransmissions
import Srt.Reliability.ControlCodec
import Srt.Timing.Pacing
import Srt.Timing.StandbyRtt
import Srt.Timing.Tsbpd
import Srt.Compat.ListenerActor
import Srt.Compat.EpollReports
import Srt.Compat.RandomIdentity
import Srt.Compat.DispatchTransmit
import Srt.Compat.HandshakeInbox
