import DlmsProfile.CApi.Channel
import DlmsProfile.Library.Heap

/-!
# Handles

A handle is a pointer to a small object that points to a channel and, if the channel
was made from callbacks, to the adapter the channel talks to. All of them are made
by a creating call and deleted by the destroying one, and between the two nothing is
made or deleted. Every allocation of a creating call may throw, and then what was
made before it has to go.

A caller may pass any address for a handle. What happens with one that is none is
undefined, and is told apart from everything a call can answer.

## Main definitions

* `CApi.Handle`, `CApi.Cell`: What the library puts on the heap.
* `CApi.wrapChannelWithOwned`: A channel gets its handle.
* `CApi.creating`, `CApi.creatingFromCallbacks`: The creating calls.
* `CApi.dlmsProfileDestroyChannel`: The destroying call.
* `CApi.forwarding`: The calls that go to the channel.
* `CApi.Call`, `CApi.entry`: The interface.
* `CApi.World`, `CApi.execute`, `CApi.run`: A caller's use of it.
-/

namespace DlmsProfile

namespace CApi

/-- `dlms_profile_channel_t`. -/
structure Handle where
  impl : Option Nat
  ownedByteStream : Option Nat
  ownedDatagram : Option Nat
deriving DecidableEq, Repr

/-- An object on the heap. What the callbacks of an adapter will answer stands in the
    channel that asks it. A channel refers to its adapter, or to a transport of the
    caller's. -/
inductive Cell (W : WrapperLib) (L : HdlcLib) where
  | handle (handle : Handle)
  | channel (impl : Impl W L) (adapter : Option Nat)
  | byteStreamAdapter
  | datagramAdapter

variable {W : WrapperLib} {L : HdlcLib}

/-- A call of the interface, or a part of one. -/
abbrev Procedure (W : WrapperLib) (L : HdlcLib) (α : Type) : Type := Heap.Procedure (Cell W L) α

/-- `*channel`, which must be a handle. -/
def loadHandle (p : Nat) : Procedure W L Handle := do
  match ← Heap.load p with
  | .handle handle => pure handle
  | _ => Proc.fail (.status .badAddress)

/-- `*channel->impl`, which must be a channel. -/
def loadChannel (a : Nat) : Procedure W L (Impl W L × Option Nat) := do
  match ← Heap.load a with
  | .channel impl adapter => pure (impl, adapter)
  | _ => Proc.fail (.status .badAddress)

/-- The transport a channel calls, if it is an adapter, must be there. -/
def useAdapter : Option Nat → Procedure W L Unit
  | none => pure ()
  | some a => do
    match ← Heap.load a with
    | .byteStreamAdapter => pure ()
    | .datagramAdapter => pure ()
    | _ => Proc.fail (.status .badAddress)

/-- The sites in the constructors: the objects of the libraries, the read buffer and
    the queue of frames. The HDLC constructor makes the objects of the library once
    more if the options make a session. -/
def constructorSites (L : HdlcLib) (options : ApduChannelOptions) : Implementation → Nat
  | .wrapperTcp => 2
  | .wrapperUdp => 1
  | .hdlc => if (Hdlc.makeHdlcSessionOptions L options).1 = .ok then 8 else 5

/-- `new` of a channel. If its constructor throws, its memory is given back. -/
def newChannel (kind : Implementation) (transport : Transport) (options : ApduChannelOptions)
    (adapter : Option Nat) : Procedure W L Nat := do
  Heap.passing (constructorSites L options kind)
  Heap.new (.channel (newImpl W L options transport kind) adapter)

/-- `WrapChannelWithOwned`. -/
def wrapChannelWithOwned (impl ownedByteStream ownedDatagram : Option Nat) :
    Procedure W L (Option Nat) :=
  let drop : Procedure W L Unit := do
    Heap.delete ownedByteStream
    Heap.delete ownedDatagram
  match impl with
  | none => do
    drop
    pure none
  | some _ =>
    -- If the handle cannot be made, what it was to own is deleted.
    Heap.catching (do
      Heap.delete impl
      drop
      pure none) (do
      let channel ← Heap.new (.handle ⟨impl, ownedByteStream, ownedDatagram⟩)
      pure (some channel))

/-- `WrapChannel`. -/
def wrapChannel (impl : Option Nat) : Procedure W L (Option Nat) :=
  wrapChannelWithOwned impl none none

/-- The creating calls over a transport of the caller's. -/
def creating (kind : Implementation) (transport : Option Transport)
    (options : Option ChannelOptions) : Procedure W L (Option Nat) :=
  match transport with
  | none => pure none
  | some transport =>
    -- Whatever throws in between, the caller gets a null pointer.
    Heap.catching (pure none) (do
      let impl ← newChannel kind transport (toCppOptions options) none
      wrapChannel (some impl))

/-- `dlms_profile_create_wrapper_tcp_channel`. -/
def dlmsProfileCreateWrapperTcpChannel (byteStream : Option Transport)
    (options : Option ChannelOptions) : Procedure W L (Option Nat) :=
  creating .wrapperTcp byteStream options

/-- `dlms_profile_create_wrapper_udp_channel`. -/
def dlmsProfileCreateWrapperUdpChannel (datagramTransport : Option Transport)
    (options : Option ChannelOptions) : Procedure W L (Option Nat) :=
  creating .wrapperUdp datagramTransport options

/-- `dlms_profile_create_hdlc_channel`. -/
def dlmsProfileCreateHdlcChannel (byteStream : Option Transport)
    (options : Option ChannelOptions) : Procedure W L (Option Nat) :=
  creating .hdlc byteStream options

/-- Which member of the handle owns an adapter. -/
inductive Owner where
  | byteStream
  | datagram
deriving DecidableEq, Repr

/-- The adapter object. -/
def Owner.cell : Owner → Cell W L
  | .byteStream => .byteStreamAdapter
  | .datagram => .datagramAdapter

/-- `ownedByteStream`, for an adapter at an address. -/
def Owner.byteStream? : Owner → Nat → Option Nat
  | .byteStream, a => some a
  | .datagram, _ => none

/-- `ownedDatagram`. -/
def Owner.datagram? : Owner → Nat → Option Nat
  | .byteStream, _ => none
  | .datagram, a => some a

/-- The creating calls over callbacks, once these are found complete. -/
def creatingFromCallbacks (kind : Implementation) (owner : Owner) (transport : Transport)
    (options : Option ChannelOptions) : Procedure W L (Option Nat) :=
  Heap.catching (pure none) (do
    let adapter ← Heap.new owner.cell
    -- The adapter is held by a smart pointer until the handle takes it over.
    Heap.owning adapter (do
      let impl ← newChannel kind transport (toCppOptions options) (some adapter)
      wrapChannelWithOwned (some impl) (owner.byteStream? adapter) (owner.datagram? adapter)))

/-- `dlms_profile_create_wrapper_tcp_channel_from_callbacks`. -/
def dlmsProfileCreateWrapperTcpChannelFromCallbacks (callbacks : Option ByteStreamCallbacks)
    (options : Option ChannelOptions) : Procedure W L (Option Nat) :=
  match callbacks with
  | none => pure none
  | some given =>
    if validByteStreamCallbacks callbacks = false then pure none
    else creatingFromCallbacks .wrapperTcp .byteStream (byteStreamAdapter given []) options

/-- `dlms_profile_create_wrapper_udp_channel_from_callbacks`. -/
def dlmsProfileCreateWrapperUdpChannelFromCallbacks (callbacks : Option DatagramCallbacks)
    (options : Option ChannelOptions) : Procedure W L (Option Nat) :=
  match callbacks with
  | none => pure none
  | some given =>
    if validDatagramCallbacks callbacks = false then pure none
    else creatingFromCallbacks .wrapperUdp .datagram (datagramAdapter given) options

/-- `dlms_profile_create_hdlc_channel_from_callbacks`. The timer is the channel's own. -/
def dlmsProfileCreateHdlcChannelFromCallbacks (callbacks : Option ByteStreamCallbacks)
    (sleeps : List TransportStatus) (options : Option ChannelOptions) :
    Procedure W L (Option Nat) :=
  match callbacks with
  | none => pure none
  | some given =>
    if validByteStreamCallbacks callbacks = false then pure none
    else creatingFromCallbacks .hdlc .byteStream (byteStreamAdapter given sleeps) options

/-- `dlms_profile_destroy_channel`. -/
def dlmsProfileDestroyChannel : Option Nat → Procedure W L Unit
  | none => pure ()
  | some p => do
    let channel ← loadHandle p
    -- The channel goes before the adapter that it calls.
    Heap.delete channel.impl
    Heap.store p (.handle { channel with impl := none })
    Heap.delete channel.ownedByteStream
    Heap.store p (.handle { channel with impl := none, ownedByteStream := none })
    Heap.delete channel.ownedDatagram
    Heap.store p (.handle ⟨none, none, none⟩)
    Heap.delete (some p)

/-- What a call without a channel answers. -/
def refused : Request → Reply
  | .method _ => .status (toCStatus .invalidArgument)
  | .isOpen => .flag 0
  | .receiveApdu output => .received (toCStatus .invalidArgument) output

/-- The call of the channel at an address. -/
def serving (request : Request) (a : Nat) (impl : Impl W L) (adapter : Option Nat) :
    Procedure W L Reply := fun s =>
  let served := serve request s.faults impl
  (.done served.1, { s with state := s.state.write a (.channel served.2 adapter) })

/-- The calls that go to the channel of a handle. -/
def forwarding (request : Request) : Option Nat → Procedure W L Reply
  | none => pure (refused request)
  | some p => do
    let channel ← loadHandle p
    match channel.impl with
    -- A handle without a channel is answered like no handle at all.
    | none => pure (refused request)
    | some a => do
      let found ← loadChannel a
      useAdapter found.2
      serving request a found.1 found.2

/-- `dlms_profile_open`. -/
def dlmsProfileOpen (channel : Option Nat) : Procedure W L Reply :=
  forwarding (.method .open) channel

/-- `dlms_profile_close`. -/
def dlmsProfileClose (channel : Option Nat) : Procedure W L Reply :=
  forwarding (.method .close) channel

/-- `dlms_profile_is_open`. -/
def dlmsProfileIsOpen (channel : Option Nat) : Procedure W L Reply := forwarding .isOpen channel

/-- `dlms_profile_connect_data_link`. -/
def dlmsProfileConnectDataLink (channel : Option Nat) : Procedure W L Reply :=
  forwarding (.method .connectDataLink) channel

/-- `dlms_profile_accept_data_link`. -/
def dlmsProfileAcceptDataLink (channel : Option Nat) : Procedure W L Reply :=
  forwarding (.method .acceptDataLink) channel

/-- `dlms_profile_disconnect_data_link`. -/
def dlmsProfileDisconnectDataLink (channel : Option Nat) : Procedure W L Reply :=
  forwarding (.method .disconnectDataLink) channel

/-- `dlms_profile_send_apdu`. -/
def dlmsProfileSendApdu (channel : Option Nat) (apdu : ProfileByteView) : Procedure W L Reply :=
  forwarding (.method (.send apdu)) channel

/-- `dlms_profile_receive_apdu`. -/
def dlmsProfileReceiveApdu (channel : Option Nat) (output : ProfileMutableBuffer) :
    Procedure W L Reply :=
  forwarding (.receiveApdu output) channel

/-- A call of the interface. -/
inductive Call where
  | createWrapperTcp (byteStream : Option Transport) (options : Option ChannelOptions)
  | createWrapperUdp (datagramTransport : Option Transport) (options : Option ChannelOptions)
  | createHdlc (byteStream : Option Transport) (options : Option ChannelOptions)
  | createWrapperTcpFromCallbacks (callbacks : Option ByteStreamCallbacks)
    (options : Option ChannelOptions)
  | createWrapperUdpFromCallbacks (callbacks : Option DatagramCallbacks)
    (options : Option ChannelOptions)
  | createHdlcFromCallbacks (callbacks : Option ByteStreamCallbacks)
    (sleeps : List TransportStatus) (options : Option ChannelOptions)
  | destroy (channel : Option Nat)
  | request (channel : Option Nat) (request : Request)

/-- What a call of the interface gave back. -/
inductive Answer where
  | created (channel : Option Nat)
  | destroyed (channel : Option Nat)
  | replied (reply : Reply)
deriving DecidableEq, Repr

/-- The function behind a request. -/
def requested (channel : Option Nat) : Request → Procedure W L Reply
  | .method .open => dlmsProfileOpen channel
  | .method .close => dlmsProfileClose channel
  | .method .connectDataLink => dlmsProfileConnectDataLink channel
  | .method .acceptDataLink => dlmsProfileAcceptDataLink channel
  | .method .disconnectDataLink => dlmsProfileDisconnectDataLink channel
  | .method (.send apdu) => dlmsProfileSendApdu channel apdu
  | .isOpen => dlmsProfileIsOpen channel
  | .receiveApdu output => dlmsProfileReceiveApdu channel output

/-- Each of them forwards. -/
theorem requested_eq (channel : Option Nat) (request : Request) :
    (requested channel request : Procedure W L Reply) = forwarding request channel := by
  cases request with
  | method method => cases method <;> rfl
  | isOpen => rfl
  | receiveApdu output => rfl

/-- The function behind a call that creates a channel. -/
def creation : Call → Option (Procedure W L (Option Nat))
  | .createWrapperTcp byteStream options =>
    some (dlmsProfileCreateWrapperTcpChannel byteStream options)
  | .createWrapperUdp datagramTransport options =>
    some (dlmsProfileCreateWrapperUdpChannel datagramTransport options)
  | .createHdlc byteStream options => some (dlmsProfileCreateHdlcChannel byteStream options)
  | .createWrapperTcpFromCallbacks callbacks options =>
    some (dlmsProfileCreateWrapperTcpChannelFromCallbacks callbacks options)
  | .createWrapperUdpFromCallbacks callbacks options =>
    some (dlmsProfileCreateWrapperUdpChannelFromCallbacks callbacks options)
  | .createHdlcFromCallbacks callbacks sleeps options =>
    some (dlmsProfileCreateHdlcChannelFromCallbacks callbacks sleeps options)
  | .destroy _ => none
  | .request _ _ => none

/-- A call of the interface. -/
def entry : Call → Procedure W L Answer
  | .destroy channel => do
    dlmsProfileDestroyChannel channel
    pure (.destroyed channel)
  | .request channel request => do
    let reply ← requested channel request
    pure (.replied reply)
  | call =>
    match creation call with
    | some create => do
      let channel ← create
      pure (.created channel)
    | none => pure (.created none)

/-- The heap, and the handles a caller was given and has not destroyed. -/
structure World (W : WrapperLib) (L : HdlcLib) where
  heap : Heap (Cell W L)
  held : List Nat

/-- Nothing was called yet. -/
def World.initial : World W L := ⟨Heap.empty, []⟩

/-- The handles a caller has after a call. -/
def Answer.track : Answer → List Nat → List Nat
  | .created (some p), held => p :: held
  | .destroyed (some p), held => held.erase p
  | _, held => held

/-- A call with the faults on its way. -/
def execute (call : Call) (faults : List Bool) : Proc (World W L) (Exit Misuse) Answer := fun w =>
  match entry call ⟨w.heap, faults, []⟩ with
  | (.done answer, t) => (.done answer, ⟨t.state, answer.track w.held⟩)
  | (.fail e, t) => (.fail e, ⟨t.state, w.held⟩)
  | (.waiting, t) => (.waiting, ⟨t.state, w.held⟩)

/-- Calls in order. -/
def run : List (Call × List Bool) → Proc (World W L) (Exit Misuse) (List Answer)
  | [] => pure []
  | (call, faults) :: calls => do
    let answer ← execute call faults
    let answers ← run calls
    pure (answer :: answers)

end CApi

end DlmsProfile
