import DlmsProfile.Contract

/-!
# Two Overloads, one Receive

`ReceiveApdu` exists twice in each channel, once into a vector and once into a
caller's buffer, and the bodies are written out separately: six of them over
three kinds of receive loop. The vector overload clears its argument before it
does anything else, the buffer overload checks its argument and clears the size
behind it, and from there on they wait for the same thing and part only when the
APDU is there.

So a call has two ends to look at. If nothing is handed over, both report what
the loop reported and leave their argument cleared. If an APDU is, the vector
takes it whole, and the buffer takes it if it has room.

## Main definitions

* `PendingQueue.receiveVectorArgument`, `Udp.receiveVectorArgument`: The vector
  overload with its argument.
* `Implementation.receiveVectorArgument`: The same for each implementation.
* `answered`: What such a call answered.
* `Overloads`: What two calls from one state have in common.

## Theorems

* `PendingQueue.overloads`, `Udp.overloads`: The bodies of each kind.
* `Implementation.overloads_agree`: The overloads of each implementation.
-/

namespace DlmsProfile

/-- `apdu.clear()`. -/
def clear (_apdu : List UInt8) : List UInt8 := []

/-- The body of `ReceiveApdu` into a vector, with what the vector holds before
    and after. -/
def PendingQueue.receiveVectorArgument {σ : Type} (q : PendingQueue σ)
    (await : Proc σ ProfileStatus Unit) (apdu : List UInt8) (s : σ) :
    (Outcome ProfileStatus Unit × List UInt8) × σ :=
  match await s with
  | (.done (), s1) => ((.done (), (q.apdus s1).headD []), q.pop s1)
  | (.fail status, s1) => ((.fail status, clear apdu), s1)
  | (.waiting, s1) => ((.waiting, clear apdu), s1)

/-- The same for the datagram channel, where the frame is on the stack. -/
def Udp.receiveVectorArgument (W : WrapperLib) (apdu : List UInt8) (s : Udp.State) :
    (Outcome ProfileStatus Unit × List UInt8) × Udp.State :=
  match Udp.receiveFrame W s with
  | (.done frame, s1) => ((.done (), frame.data), s1)
  | (.fail status, s1) => ((.fail status, clear apdu), s1)
  | (.waiting, s1) => ((.waiting, clear apdu), s1)

/-- What a vector call answered: its status, and the vector if that is `Ok`. -/
def answered : Outcome ProfileStatus Unit × List UInt8 → Outcome ProfileStatus (List UInt8)
  | (.done (), apdu) => .done apdu
  | (.fail status, _) => .fail status
  | (.waiting, _) => .waiting

/-- The argument is all that was added. -/
theorem PendingQueue.receiveVector_eq {σ : Type} (q : PendingQueue σ)
    (await : Proc σ ProfileStatus Unit) (apdu : List UInt8) (s : σ) :
    q.receiveVector await s = (answered (q.receiveVectorArgument await apdu s).1,
      (q.receiveVectorArgument await apdu s).2) := by
  rw [receiveVectorArgument]
  rcases hw : await s with ⟨⟨⟩ | status | _, s1⟩
  · rw [receiveVector_of_done hw, answered]
  · exact Proc.bind_of_fail _ hw
  · exact Proc.bind_of_waiting _ hw

theorem Udp.receiveApdu_eq (W : WrapperLib) (apdu : List UInt8) (s : Udp.State) :
    receiveApdu W s = (answered (receiveVectorArgument W apdu s).1,
      (receiveVectorArgument W apdu s).2) := by
  rw [receiveVectorArgument]
  rcases hf : receiveFrame W s with ⟨frame | status | _, s1⟩
  · exact Proc.bind_of_done _ hf
  · exact Proc.bind_of_fail _ hf
  · exact Proc.bind_of_waiting _ hf

namespace ProfileMutableBuffer

/-- Copying leaves the bytes behind the copy alone. -/
theorem drop_copy (buffer : ProfileMutableBuffer) (apdu : List UInt8) :
    (buffer.copy apdu).data.data.drop apdu.length = buffer.data.data.drop apdu.length := by
  rcases buffer with ⟨_ | bytes, written⟩
  · rfl
  · simp only [copy, ProfileByteView.data, List.drop_left]

/-- The storage is as long as it was. -/
theorem size_copy {buffer : ProfileMutableBuffer} {apdu : List UInt8}
    (h : apdu.length ≤ buffer.size) : (buffer.copy apdu).size = buffer.size := by
  rcases buffer with ⟨_ | bytes, written⟩
  · rfl
  · simp only [size, ProfileByteView.size] at h
    simp only [copy, size, ProfileByteView.size, List.length_append, List.length_drop]
    omega

theorem writtenSize_copy (buffer : ProfileMutableBuffer) (apdu : List UInt8) :
    (buffer.copy apdu).writtenSize = buffer.writtenSize := by
  rcases buffer with ⟨_ | bytes, written⟩ <;> rfl

/-- A buffer that passed its check has a size to write to. -/
theorem writtenSize_setWritten {buffer : ProfileMutableBuffer} {n : Nat}
    (h : isValidMutableBuffer buffer = true) : (buffer.setWritten n).writtenSize = some n := by
  rcases buffer with ⟨data, _ | written⟩
  · cases h
  · rfl

end ProfileMutableBuffer

/-- What a vector call and a buffer call from one state have in common. The
    vector is long enough for every APDU, so with room in the buffer nothing can
    tell the calls apart; a call that is not `Ok` leaves its argument cleared, and
    `Ok` touches as many bytes of the buffer as it says. -/
structure Overloads {σ : Type} (output : ProfileMutableBuffer)
    (vector : (Outcome ProfileStatus Unit × List UInt8) × σ)
    (buffer : (Outcome ProfileStatus Unit × ProfileMutableBuffer) × σ) : Prop where
  agree : vector.1.2.length ≤ output.size →
    buffer.1.1 = vector.1.1 ∧ buffer.2 = vector.2 ∧
      (vector.1.1 = .done () → buffer.1.2.received = vector.1.2)
  emptied : vector.1.1 ≠ .done () → vector.1.2 = []
  untouched : buffer.1.1 ≠ .done () →
    buffer.1.2.writtenSize = some 0 ∧ buffer.1.2.data = output.data
  rest : buffer.1.1 = .done () → ∃ written,
    buffer.1.2.writtenSize = some written ∧ written ≤ output.size ∧
      buffer.1.2.size = output.size ∧
      buffer.1.2.data.data.drop written = output.data.data.drop written

namespace Overloads

variable {σ : Type} {output : ProfileMutableBuffer} {s : σ}

/-- Nothing was handed over. -/
theorem of_ended {o : Outcome ProfileStatus Unit} (hv : isValidMutableBuffer output = true)
    (ho : o ≠ .done ()) : Overloads output ((o, []), s) ((o, output.setWritten 0), s) where
  agree _ := ⟨rfl, rfl, fun h => absurd h ho⟩
  emptied _ := rfl
  untouched _ := ⟨ProfileMutableBuffer.writtenSize_setWritten hv, rfl⟩
  rest h := absurd h ho

/-- An APDU was handed over, and the buffer has room for it. -/
theorem of_fits {apdu : List UInt8} (hv : isValidMutableBuffer output = true)
    (hroom : apdu.length ≤ output.size) :
    Overloads output ((.done (), apdu), s)
      ((.done (), ((output.setWritten 0).copy apdu).setWritten apdu.length), s) := by
  have hv' : isValidMutableBuffer (output.setWritten 0) = true := isValidMutableBuffer_setWritten hv
  refine ⟨fun _ => ⟨rfl, rfl, fun _ => ?_⟩, fun h => absurd rfl h, fun h => absurd rfl h,
    fun _ => ?_⟩
  · exact ProfileMutableBuffer.received_copy _ _ hv' hroom
  · refine ⟨apdu.length, ?_, hroom, ProfileMutableBuffer.size_copy hroom, ?_⟩
    · rw [ProfileMutableBuffer.setWritten, ProfileMutableBuffer.writtenSize_copy,
        ProfileMutableBuffer.writtenSize_setWritten hv]
      rfl
    · exact ProfileMutableBuffer.drop_copy (output.setWritten 0) apdu

/-- An APDU was there, and the buffer has no room for it: the calls need not have
    anything in common. -/
theorem of_tooSmall {apdu : List UInt8} {s' : σ} (hv : isValidMutableBuffer output = true)
    (hsmall : output.size < apdu.length) :
    Overloads output ((.done (), apdu), s')
      ((.fail .outputBufferTooSmall, output.setWritten 0), s) where
  agree h := absurd h (Nat.not_le.mpr hsmall)
  emptied h := absurd rfl h
  untouched _ := ⟨ProfileMutableBuffer.writtenSize_setWritten hv, rfl⟩
  rest h := by cases h

end Overloads

/-- The two bodies in front of a pending queue. -/
theorem PendingQueue.overloads {σ : Type} (q : PendingQueue σ)
    (await : Proc σ ProfileStatus Unit) (apdu : List UInt8) {output : ProfileMutableBuffer}
    (hv : isValidMutableBuffer output = true) (s : σ) :
    Overloads output (q.receiveVectorArgument await apdu s) (q.receiveBuffer await output s) := by
  rw [receiveVectorArgument]
  -- Both wait first, and in the same way. What differs is what they do with the front.
  rcases hw : await s with ⟨⟨⟩ | status | _, s1⟩
  · rw [receiveBuffer_of_done hv hw]
    by_cases hroom : ((q.apdus s1).headD []).length ≤ (output.setWritten 0).size
    · rw [copyFirst_fits hroom, if_pos rfl]
      exact Overloads.of_fits hv hroom
    · rw [copyFirst_tooSmall (Nat.lt_of_not_le hroom)]
      exact Overloads.of_tooSmall hv (Nat.lt_of_not_le hroom)
  · rw [receiveBuffer_of_fail hv hw]
    exact Overloads.of_ended hv fun h => by cases h
  · rw [receiveBuffer_of_waiting hv hw]
    exact Overloads.of_ended hv fun h => by cases h

/-- The two bodies of the datagram channel. -/
theorem Udp.overloads (W : WrapperLib) (apdu : List UInt8) {output : ProfileMutableBuffer}
    (hv : isValidMutableBuffer output = true) (s : Udp.State) :
    Overloads output (receiveVectorArgument W apdu s) (receiveApduInto W output s) := by
  rw [receiveVectorArgument, receiveApduInto, hv, if_neg Bool.true_eq_false.mp]
  rcases receiveFrame W s with ⟨frame | status | _, s1⟩
  · simp only [copyFrameData]
    by_cases hroom : frame.data.length ≤ output.size
    · rw [if_neg (by exact Nat.not_lt.mpr hroom)]
      exact Overloads.of_fits hv hroom
    · rw [if_pos (by exact Nat.lt_of_not_le hroom)]
      exact Overloads.of_tooSmall hv (Nat.lt_of_not_le hroom)
  · exact Overloads.of_ended hv fun h => by cases h
  · exact Overloads.of_ended hv fun h => by cases h

namespace Implementation

/-- The vector overload of an implementation, with its argument. -/
def receiveVectorArgument (W : WrapperLib) (L : HdlcLib) : (i : Implementation) → List UInt8 →
    (i.channel W L).State → (Outcome ProfileStatus Unit × List UInt8) × (i.channel W L).State
  | .wrapperTcp => Tcp.pending.receiveVectorArgument Tcp.awaitFrame
  | .wrapperUdp => Udp.receiveVectorArgument W
  | .hdlc => Hdlc.pending.receiveVectorArgument Hdlc.awaitApdu

/-- Made from one state, the two overloads of an implementation differ only in
    where they put the APDU, given room for it, and what they leave of their
    argument is the same whichever way they end. -/
theorem overloads_agree (W : WrapperLib) (L : HdlcLib) (i : Implementation) (apdu : List UInt8)
    {output : ProfileMutableBuffer} (hv : isValidMutableBuffer output = true)
    (s : (i.channel W L).State) :
    Overloads output (i.receiveVectorArgument W L apdu s)
        ((i.channel W L).receiveApduInto output s) ∧
      (i.channel W L).receiveApdu s =
        (answered (i.receiveVectorArgument W L apdu s).1,
          (i.receiveVectorArgument W L apdu s).2) := by
  -- Two of them share the queue. The third has bodies of its own.
  cases i with
  | wrapperTcp =>
      exact ⟨Tcp.pending.overloads Tcp.awaitFrame apdu hv s,
        Tcp.pending.receiveVector_eq Tcp.awaitFrame apdu s⟩
  | wrapperUdp => exact ⟨Udp.overloads W apdu hv s, Udp.receiveApdu_eq W apdu s⟩
  | hdlc =>
      exact ⟨Hdlc.pending.overloads Hdlc.awaitApdu apdu hv s,
        Hdlc.pending.receiveVector_eq Hdlc.awaitApdu apdu s⟩

/-- A buffer of three bytes and an APDU of two. -/
theorem overloads_two_bytes :
    let s := Reference.udpChannel defaultApduChannelOptions
      [Reference.arrived [0x00, 0x01, 0x00, 0x10, 0x00, 0x01, 0x00, 0x02, 0xC0, 0x01]]
    let W := Reference.wrapperLib
    let L := Reference.hdlcLib
    Overloads ⟨.of [9, 9, 9], some 7⟩
        ((Implementation.wrapperUdp).receiveVectorArgument W L [5] s)
        (((Implementation.wrapperUdp).channel W L).receiveApduInto ⟨.of [9, 9, 9], some 7⟩ s) ∧
      ((Implementation.wrapperUdp).channel W L).receiveApdu s =
        (answered ((Implementation.wrapperUdp).receiveVectorArgument W L [5] s).1,
          ((Implementation.wrapperUdp).receiveVectorArgument W L [5] s).2) :=
  overloads_agree Reference.wrapperLib Reference.hdlcLib .wrapperUdp [5] (by decide) _

end Implementation

end DlmsProfile
