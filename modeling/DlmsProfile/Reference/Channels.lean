import DlmsProfile.Hdlc.Receiving
import DlmsProfile.Reference.Hdlc
import DlmsProfile.Reference.Wrapper
import DlmsProfile.Wrapper.Tcp
import DlmsProfile.Wrapper.Udp

/-!
# Channels over the Reference Libraries

Channels just constructed, over a transport that answers the given reads and
lets every other call succeed.

## Main definitions

* `Reference.tcpChannel`, `Reference.udpChannel`, `Reference.hdlcChannel`: The
  three channels.
* `Reference.arrived`: A read that hands bytes over.
* `Reference.channelOver`: An HDLC channel over any library.
* `Reference.sessionOptions`, `Reference.serverOptions`: Both ends of a link in
  session mode, the other options the default ones.
* `Reference.toClient`, `Reference.toServer`: A frame on the wire.
-/

namespace DlmsProfile

namespace Reference

/-- A read that hands bytes over. -/
def arrived (bytes : List UInt8) : ReadEvent := ⟨.ok, bytes⟩

def tcpChannel (options : ApduChannelOptions) (reads : List ReadEvent) : Tcp.State wrapperLib :=
  { Tcp.newChannel wrapperLib options with
    opens := []
    closes := []
    reads := reads
    writes := []
    calls := []
    sink := [] }

def udpChannel (options : ApduChannelOptions) (reads : List ReadEvent) : Udp.State :=
  { Udp.newChannel wrapperLib options with
    opens := []
    closes := []
    reads := reads
    writes := []
    calls := [] }

/-- An HDLC channel over any library. -/
def channelOver (L : HdlcLib) (options : ApduChannelOptions) (reads : List ReadEvent) :
    Hdlc.State L :=
  { Hdlc.newChannel L options with
    opens := []
    closes := []
    isOpens := []
    reads := reads
    writes := []
    sleeps := []
    trace := [] }

def hdlcChannel (options : ApduChannelOptions) (reads : List ReadEvent) : Hdlc.State hdlcLib :=
  { Hdlc.newChannel hdlcLib options with
    opens := []
    closes := []
    isOpens := []
    reads := reads
    writes := []
    sleeps := []
    trace := [] }

/-- The default options in session mode. -/
def sessionOptions : ApduChannelOptions :=
  { defaultApduChannelOptions with hdlcUseSession := true }

/-- The same for the other end. -/
def serverOptions : ApduChannelOptions :=
  { sessionOptions with hdlcRole := .server, hdlcDirection := .serverToClient }

/-- A frame from server to client on the wire, the addresses the default ones. -/
def toClient (control : UInt8) (information : List UInt8) : List UInt8 :=
  frameBytes ⟨false, 0x21, 0x03, control, information⟩

/-- A frame from client to server. -/
def toServer (control : UInt8) (information : List UInt8) : List UInt8 :=
  frameBytes ⟨false, 0x03, 0x21, control, information⟩

/-- An RR frame from server to client that acknowledges the I-frames before the
    given one. -/
def receiveReady (next : Fin 8) : List UInt8 := toClient (UInt8.ofNat (next.val * 32 + 17)) []

end Reference

end DlmsProfile
