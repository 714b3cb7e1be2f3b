import DlmsProfile.Wrapper.TcpDelivery

/-!
# Failed Writes over Wrapper/TCP

A write that fails may have put a part of its WPDU on the stream. `SendApdu`
reports the status and forgets about it, and the next `SendApdu` writes a new
WPDU behind the part. To the receiving channel the stream is one run of bytes:
the length in the part's header covers the front of the next WPDU, and an APDU
that nobody sent comes out.

As long as nothing follows a part, the receiver waits for the rest of it and
hands over nothing but what was sent.

## Main definitions

* `Tcp.PipeWrite`: A write on a pipe and what the pipe passed on of it.
* `Tcp.carried`: The bytes on the pipe.
* `Tcp.Unbroken`: Nothing follows a part.
* `Tcp.sendEach`: Sending on, whatever the calls answer.

## Theorems

* `Tcp.sendEach_writes`: What is written are WPDUs of the APDUs.
* `Tcp.scan_carried`: An unbroken pipe carries whole WPDUs and at most a part
  behind them.
* `Tcp.integrity_kept`: Over an unbroken pipe every APDU received was sent.
* `Tcp.integrity_refuted`: An APDU made of two WPDUs.
-/

namespace DlmsProfile

namespace Tcp

variable {W : WrapperLib}

/-- A `WriteAll` on a pipe: the bytes it was given, its answer, and the bytes
    that reached the pipe, which are all of them if it succeeded and a strict
    prefix if it did not. -/
structure PipeWrite where
  bytes : List UInt8
  status : TransportStatus
  passed : List UInt8
  whole : status = .ok → passed = bytes
  part : status ≠ .ok → passed <+: bytes ∧ passed ≠ bytes

theorem take_ne {bytes : List UInt8} {n : Nat} (hn : n < bytes.length) : bytes.take n ≠ bytes := by
  intro h
  have hlen := congrArg List.length h
  rw [List.length_take] at hlen
  omega

namespace PipeWrite

/-- A write that succeeded. -/
def done (bytes : List UInt8) : PipeWrite where
  bytes := bytes
  status := .ok
  passed := bytes
  whole _ := rfl
  part h := absurd rfl h

/-- A write that failed after the given number of bytes. -/
def cut (bytes : List UInt8) (n : Nat) (status : TransportStatus) (hs : status ≠ .ok)
    (hn : n < bytes.length) : PipeWrite where
  bytes := bytes
  status := status
  passed := bytes.take n
  whole h := absurd h hs
  part _ := ⟨List.take_prefix n bytes, take_ne hn⟩

/-- The call as the channel recorded it. -/
def call (write : PipeWrite) : TransportCall := .write write.bytes write.status

end PipeWrite

/-- The bytes on the pipe. -/
def carried (pipe : List PipeWrite) : List UInt8 := pipe.flatMap (·.passed)

/-- Once a failed write has passed on some of its bytes, no later write passes
    on any. -/
def Unbroken (pipe : List PipeWrite) : Prop :=
  pipe.Pairwise fun write later => write.status = .ok ∨ write.passed = [] ∨ later.passed = []

instance (pipe : List PipeWrite) : Decidable (Unbroken pipe) :=
  inferInstanceAs (Decidable (pipe.Pairwise _))

/-- Sending a list of APDUs, going on after an error. -/
def sendEach : List ProfileByteView → State W → State W
  | [], s => s
  | apdu :: apdus, s => sendEach apdus (exec (.send apdu) s)

/-- What `SendApdu` does to the stream: nothing, or one `WriteAll` of a WPDU
    that carries the APDU. -/
theorem sendApdu_writes (apdu : ProfileByteView) (s : State W) :
    (sendApdu apdu s).2.calls = s.calls ∨
      ∃ frame wpdu status, W.encodeWpdu frame s.wrapperLimits = (.ok, wpdu) ∧
        frame.data = apdu.data ∧ (sendApdu apdu s).2.calls = s.calls ++ [.write wpdu status] := by
  -- It fails a check and writes nothing, or it writes the whole WPDU in one call.
  rw [sendApdu]
  split
  · exact Or.inl rfl
  split
  · exact Or.inl rfl
  simp only
  split
  · exact Or.inl rfl
  next henc =>
    rw [not_not, mapWrapperStatus_eq_ok] at henc
    rw [writeAll, check_snd]
    exact Or.inr ⟨_, _, _, Prod.ext henc rfl, rfl, rfl⟩

/-- What is written, whatever it is answered, are WPDUs of the APDUs. -/
theorem sendEach_writes {limits : WrapperCodecLimits} (apdus : List ProfileByteView) {s : State W}
    (hlimits : s.wrapperLimits = limits) :
    ∃ calls, (sendEach apdus s).calls = s.calls ++ calls ∧
      ∀ call ∈ calls, ∃ frame wpdu status, call = .write wpdu status ∧
        W.encodeWpdu frame limits = (.ok, wpdu) ∧ frame.data ∈ apdus.map (·.data) := by
  -- On the APDUs. A call may have failed, and the next is made all the same.
  induction apdus generalizing s with
  | nil => exact ⟨[], (List.append_nil _).symm, fun _ h => absurd h List.not_mem_nil⟩
  | cons apdu apdus ih =>
      have hsame : (exec (.send apdu) s).wrapperLimits = limits := by
        rw [exec, (sendApdu_frame apdu s).1, hlimits]
      rcases ih hsame with ⟨calls, hcalls, hall⟩
      have hlater : ∀ call ∈ calls, ∃ frame wpdu status, call = .write wpdu status ∧
          W.encodeWpdu frame limits = (.ok, wpdu) ∧
            frame.data ∈ (apdu :: apdus).map (·.data) := by
        intro call hmem
        rcases hall call hmem with ⟨frame, wpdu, status, hcall, henc, hdata⟩
        exact ⟨frame, wpdu, status, hcall, henc, List.mem_cons_of_mem _ hdata⟩
      -- The first of them has written its WPDU, or has written nothing.
      rcases sendApdu_writes apdu s with hnone | ⟨frame, wpdu, status, henc, hdata, hone⟩
      · refine ⟨calls, ?_, hlater⟩
        rw [sendEach, hcalls, exec, hnone]
      · refine ⟨.write wpdu status :: calls, ?_, ?_⟩
        · rw [sendEach, hcalls, exec, hone, List.append_assoc, List.singleton_append]
        · intro call hmem
          rcases List.mem_cons.mp hmem with rfl | hmem
          · refine ⟨frame, wpdu, status, rfl, hlimits ▸ henc, ?_⟩
            rw [hdata, List.map_cons]
            exact List.mem_cons_self
          · exact hlater call hmem

/-- An unbroken pipe carries whole WPDUs, and behind them at most a part of one. -/
theorem scan_carried {F : Framing.Framer UInt8 WrapperFrame WrapperStatus}
    {sent : List (List UInt8)} {pipe : List PipeWrite}
    (hall : ∀ write ∈ pipe, ∃ frame, F.Encodes write.bytes frame ∧ frame.data ∈ sent)
    (h : Unbroken pipe) :
    ∃ frames r, F.scan (carried pipe) = (frames, .rest r) ∧
      ∀ frame ∈ frames, frame.data ∈ sent := by
  induction pipe with
  | nil => exact ⟨[], [], Framing.Framer.scan_nil, fun _ h => absurd h List.not_mem_nil⟩
  | cons write pipe ih =>
      rcases hall write List.mem_cons_self with ⟨frame, henc, hdata⟩
      rcases List.pairwise_cons.mp h with ⟨hlater, hrest⟩
      rcases ih (fun w hw => hall w (List.mem_cons_of_mem _ hw)) hrest with
        ⟨frames, r, hscan, hframes⟩
      have hcarried : carried (write :: pipe) = write.passed ++ carried pipe := List.flatMap_cons
      by_cases hok : write.status = .ok
      · refine ⟨frame :: frames, r, ?_, ?_⟩
        · rw [hcarried, write.whole hok, Framing.Framer.scan_encodes_append henc, hscan]
        · intro f hf
          rcases List.mem_cons.mp hf with rfl | hf
          · exact hdata
          · exact hframes f hf
      by_cases hnone : write.passed = []
      · exact ⟨frames, r, by rw [hcarried, hnone, List.nil_append, hscan], hframes⟩
      -- A part of a WPDU is on the pipe, so nothing comes behind it.
      have hend : carried pipe = [] := by
        refine List.flatMap_eq_nil_iff.mpr fun later hmem => ?_
        exact ((hlater later hmem).resolve_left hok).resolve_left hnone
      rcases write.part hok with ⟨hpart, hne⟩
      rcases Framing.Framer.scan_part henc hpart hne with ⟨k, hk⟩
      refine ⟨[], k, ?_, fun _ h => absurd h List.not_mem_nil⟩
      rw [hcarried, hend, List.append_nil, hk]

/-- The sender goes on after errors, the pipe is unbroken, and what is written
    lies within the receiver's limits. Whatever part of the pipe has reached
    the receiver, wherever the reads fall and whichever receive calls were made,
    every APDU handed over is the APDU of a `SendApdu` call. -/
theorem integrity_kept {options : ApduChannelOptions}
    (law : WrapperStreamLaw W (makeWrapperLimits W options)) {apdus : List ProfileByteView}
    {sender receiver : State W} {pipe : List PipeWrite}
    (hpipe : (sendEach apdus sender).calls = sender.calls ++ pipe.map PipeWrite.call)
    (hunbroken : Unbroken pipe)
    (hfits : ∀ write ∈ pipe, ∀ frame, W.encodeWpdu frame sender.wrapperLimits = (.ok, write.bytes) →
      W.encodeWpdu frame (makeWrapperLimits W options) = (.ok, write.bytes))
    (hreach : Reachable W options receiver) (hempty : law.view receiver.decoder = [])
    (hpending : receiver.pendingFrames = [])
    (hwire : readBytes receiver.reads <+: carried pipe) (rs : List ReceiveCall) :
    ∀ apdu ∈ (channel W).delivered rs receiver, apdu ∈ apdus.map (·.data) := by
  have hall : ∀ write ∈ pipe, ∃ frame, law.framer.Encodes write.bytes frame ∧
      frame.data ∈ apdus.map (·.data) := by
    intro write hmem
    rcases sendEach_writes (s := sender) apdus rfl with ⟨calls, hcalls, hwpdus⟩
    obtain rfl := List.append_cancel_left (hcalls.symm.trans hpipe)
    rcases hwpdus _ (List.mem_map_of_mem hmem) with ⟨frame, wpdu, status, hcall, henc, hdata⟩
    obtain ⟨rfl, -⟩ := TransportCall.write.inj hcall
    exact ⟨frame, law.encodes (hfits write hmem frame henc), hdata⟩
  rcases scan_carried hall hunbroken with ⟨frames, r, hscan, hframes⟩
  rcases Framing.Framer.scan_prefix hwire hscan with ⟨arrived, k, hread, hpre⟩
  have halive := alive_of_reachable law hreach
  have hcome : toCome law receiver = (arrived, .rest k) := by
    rw [toCome, hempty, List.nil_append, hread]
  have hsound : Sound law receiver := by
    refine ⟨halive.live, halive.buffer, ?_, ⟨k, by rw [hcome]⟩⟩
    rw [hempty, Framing.Framer.scan_nil]
  have hqueue := (delivers law).delivered_append rs hsound
  rw [ahead, hpending, hcome, List.nil_append] at hqueue
  intro apdu hmem
  -- What is handed over is the front of the queue, which the pipe carried.
  have harrived : apdu ∈ arrived.map (·.data) := by
    rw [hqueue.1]
    exact List.mem_append_left _ hmem
  rcases List.mem_map.mp harrived with ⟨frame, hframe, rfl⟩
  exact hframes frame (hpre.subset hframe)

/-- Three APDUs: a timeout before the first byte of the first, the second whole,
    and a failure before the last byte of the third. -/
theorem integrity_kept_waiting :
    let sent : List ProfileByteView := [.of [0xC0, 0x01], .of [0xC1, 0x02], .of [0xC2, 0x03]]
    let receiver := Reference.tcpChannel defaultApduChannelOptions
      [Reference.arrived [0x00, 0x01, 0x00, 0x10, 0x00, 0x01, 0x00, 0x02, 0xC1, 0x02, 0x00],
        Reference.arrived [0x01, 0x00, 0x10, 0x00, 0x01, 0x00, 0x02, 0xC2]]
    ∀ apdu ∈ (channel Reference.wrapperLib).delivered [.vector, .vector] receiver,
      apdu ∈ sent.map (·.data) :=
  integrity_kept (Reference.wrapperStreamLaw _)
    (by decide +kernel :
      (sendEach [.of [0xC0, 0x01], .of [0xC1, 0x02], .of [0xC2, 0x03]]
          { Reference.tcpChannel defaultApduChannelOptions [] with
            writes := [.timeout, .ok, .writeFailed] }).calls =
        [] ++ [PipeWrite.cut [0x00, 0x01, 0x00, 0x10, 0x00, 0x01, 0x00, 0x02, 0xC0, 0x01] 0
            .timeout nofun (Nat.succ_pos _),
          PipeWrite.done [0x00, 0x01, 0x00, 0x10, 0x00, 0x01, 0x00, 0x02, 0xC1, 0x02],
          PipeWrite.cut [0x00, 0x01, 0x00, 0x10, 0x00, 0x01, 0x00, 0x02, 0xC2, 0x03] 9
            .writeFailed nofun (Nat.lt_succ_self _)].map PipeWrite.call)
    (by decide) (fun _ _ _ h => h) (Reachable.new rfl) rfl rfl (by decide +kernel) _

/-- The first write fails before the last byte of its WPDU, and the application
    goes on. The receiver takes the first byte of the second WPDU for the missing
    one, and hands over an APDU that was not sent. -/
theorem integrity_refuted :
    let sent : List ProfileByteView := [.of [0xC0, 0x01], .of [0xC1, 0x02]]
    let sender := { Reference.tcpChannel defaultApduChannelOptions [] with writes := [.timeout] }
    let receiver := Reference.tcpChannel defaultApduChannelOptions
      [Reference.arrived [0x00, 0x01, 0x00, 0x10, 0x00, 0x01, 0x00, 0x02, 0xC0, 0x00],
        Reference.arrived [0x01, 0x00, 0x10, 0x00, 0x01, 0x00, 0x02, 0xC1, 0x02]]
    ∃ pipe : List PipeWrite, (sendEach sent sender).calls = pipe.map PipeWrite.call ∧
      readBytes receiver.reads = carried pipe ∧
      (channel Reference.wrapperLib).delivered [.vector] receiver = [[0xC0, 0x00]] ∧
      [0xC0, 0x00] ∉ sent.map (·.data) :=
  ⟨[PipeWrite.cut [0x00, 0x01, 0x00, 0x10, 0x00, 0x01, 0x00, 0x02, 0xC0, 0x01] 9 .timeout nofun
      (by decide),
    PipeWrite.done [0x00, 0x01, 0x00, 0x10, 0x00, 0x01, 0x00, 0x02, 0xC1, 0x02]],
    by decide +kernel, by decide +kernel, by decide +kernel, by decide +kernel⟩

end Tcp

end DlmsProfile
