import DlmsProfile.Wrapper.TcpDelivery
import DlmsProfile.Wrapper.TcpIntegrity
import DlmsProfile.Wrapper.UdpRoundTrip
import DlmsProfile.Wrapper.TcpTrace
import DlmsProfile.Hdlc.Receiving
import DlmsProfile.Reference.Hdlc
import DlmsProfile.Reference.Laws
import DlmsProfile.Reference.Wrapper
import DlmsProfile.Contract
import DlmsProfile.Hdlc.Invariant
import DlmsProfile.Hdlc.Acknowledgement
import DlmsProfile.Hdlc.Handover
import DlmsProfile.Cutting
import DlmsProfile.Hdlc.Renewal
import DlmsProfile.Hdlc.Handshake
import DlmsProfile.Hdlc.Delivery
import DlmsProfile.Hdlc.Ordered
import DlmsProfile.Hdlc.Pieces
import DlmsProfile.Hdlc.Replies
import DlmsProfile.Hdlc.Consumption
import DlmsProfile.Hdlc.Retry
import DlmsProfile.Overloads
import DlmsProfile.Termination
import DlmsProfile.Hdlc.SizeLimit
import DlmsProfile.Hdlc.Outcomes
import DlmsProfile.ReadBuffer
import DlmsProfile.Exceptions
import DlmsProfile.Hdlc.Reset
import DlmsProfile.Hdlc.Silence
import DlmsProfile.Hdlc.Conservation
import DlmsProfile.Hdlc.Feeding
import DlmsProfile.Hdlc.Sequence
import DlmsProfile.Library.Runs
import DlmsProfile.Hdlc.Content
import DlmsProfile.Hdlc.Integrity
import DlmsProfile.Hdlc.Deadlock
import DlmsProfile.CApi.Interface
import DlmsProfile.Wrapper.TcpLink
import DlmsProfile.Hdlc.Progress
import DlmsProfile.Wrapper.UdpNetwork
import DlmsProfile.Hdlc.Greeting
import DlmsProfile.Wrapper.TcpReset
