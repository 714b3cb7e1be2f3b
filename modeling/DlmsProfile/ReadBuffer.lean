import DlmsProfile.Hdlc.Handshake
import DlmsProfile.Termination
import DlmsProfile.Reference.Channels

/-!
# What Decoders are given of the Read Buffer

A channel hands its decoder the start of the read buffer, as many bytes of it as
the transport reported. None of the channels compares the report with the size of
the buffer, and neither do the adapters that make a transport out of callbacks:
they leave that to whoever reports. So a decoder is given what was reported,
no more and no less, and is kept within the buffer by the transport alone.

A stream decoder is watched by a recorder, a library that is another one but for the
lengths it notes beside each decoder. The datagram channel has no decoder to put the
notes beside, so there the recorder is the channel itself, once more, with the notes
beside it, and without them it is the channel.

## Main definitions

* `readSome`: What an adapter makes of the answer of a callback.
* `reported`: The lengths a decoder is given over a list of reads.
* `Passes`: Over a step, what was reported is what was given.
* `Tcp.recorded`, `Hdlc.recorded`: A library whose decoders note those lengths.
* `Udp.Recorder`: A datagram channel that notes them.

## Theorems

* `Tcp.exec_passes`, `Udp.Recorder.exec_passes`, `Hdlc.exec_reports`: Every call gives
  the decoder what its reads reported.
* `decoders_within`: Decoders are given what was reported, and stay within the buffer
  if the reports do.
-/

namespace DlmsProfile

/-- `ToTransportStatus`, where `none` is a value outside the enumeration. -/
def toTransportStatus : Option ProfileStatus → TransportStatus
  | some .ok => .ok
  | some .invalidArgument => .invalidArgument
  | some .notOpen => .notOpen
  | some .alreadyOpen => .alreadyOpen
  | some .openFailed => .openFailed
  | some .readFailed => .readFailed
  | some .writeFailed => .writeFailed
  | some .timeout => .timeout
  | some .connectionClosed => .connectionClosed
  | some .wouldBlock => .wouldBlock
  | some .outputBufferTooSmall => .outputBufferTooSmall
  | some .unsupportedFeature => .unsupportedFeature
  | _ => .internalError

/-- What a `read_some` or a `receive` callback answers: its status, the count it
    stores in `bytes_read`, and the memory from the start of the buffer on. -/
structure CallbackRead where
  status : Option ProfileStatus
  bytesRead : Nat
  memory : Nat → UInt8

/-- `CByteStreamAdapter::ReadSome` and `CDatagramAdapter::Receive`: the count is
    handed on as it is. -/
def readSome (c : CallbackRead) : ReadEvent where
  status := toTransportStatus c.status
  bytes := (List.range c.bytesRead).map c.memory

theorem readSome_length (c : CallbackRead) : (readSome c).bytes.length = c.bytesRead := by
  simp only [readSome, List.length_map, List.length_range]

theorem readSome_ok (c : CallbackRead) : (readSome c).status = .ok ↔ c.status = some .ok := by
  rcases c with ⟨_ | status, _, _⟩
  · simp only [readSome, toTransportStatus, reduceCtorEq]
  · cases status <;> simp [readSome, toTransportStatus]

/-- The lengths a decoder is given over a list of reads: those of the reads that
    succeeded and brought bytes. -/
def reported (reads : List ReadEvent) : List Nat :=
  (reads.filter (Productive ·)).map (·.bytes.length)

theorem reported_append (a b : List ReadEvent) :
    reported (a ++ b) = reported a ++ reported b := by
  unfold reported
  rw [List.filter_append, List.map_append]

theorem reported_one {e : ReadEvent} (h : Productive e) : reported [e] = [e.bytes.length] := by
  unfold reported
  rw [List.filter_cons_of_pos (by simpa using h), List.filter_nil]
  rfl

theorem reported_none {e : ReadEvent} (h : ¬ Productive e) : reported [e] = [] := by
  unfold reported
  rw [List.filter_cons_of_neg (by simpa using h), List.filter_nil]
  rfl

/-- Over a step, the decoder was given the lengths its reads reported, one by one and
    nothing else. -/
def Passes (reads reads' : List ReadEvent) (given given' : List Nat) : Prop :=
  ∃ made, reads' = reads ++ made ∧ given' = given ++ reported made

theorem Passes.refl (reads : List ReadEvent) (given : List Nat) :
    Passes reads reads given given :=
  ⟨[], (List.append_nil _).symm, (List.append_nil _).symm⟩

theorem Passes.trans {reads reads' reads'' : List ReadEvent} {given given' given'' : List Nat}
    (h : Passes reads reads' given given') (h' : Passes reads' reads'' given' given'') :
    Passes reads reads'' given given'' := by
  rcases h with ⟨made, rfl, rfl⟩
  rcases h' with ⟨made', rfl, rfl⟩
  refine ⟨made ++ made', ?_, ?_⟩
  · rw [List.append_assoc]
  · rw [reported_append, List.append_assoc]

/-- What a decoder was given since it was made is the last of what was reported. -/
def Noted (reads : List ReadEvent) (lengths : List Nat) : Prop :=
  ∃ earlier, reported reads = earlier ++ lengths

/-- A step that gives what was reported behind what was noted, or to a decoder made
    anew, leaves what was reported last. -/
theorem Noted.passes {reads reads' : List ReadEvent} {lengths lengths' kept : List Nat}
    (h : Noted reads lengths) (hkept : kept = lengths ∨ kept = [])
    (hpasses : Passes reads reads' kept lengths') : Noted reads' lengths' := by
  rcases h with ⟨earlier, hearlier⟩
  rcases hpasses with ⟨made, rfl, rfl⟩
  rcases hkept with rfl | rfl
  · exact ⟨earlier, by rw [reported_append, hearlier, List.append_assoc]⟩
  · exact ⟨reported reads, reported_append _ _⟩

/-- Reports within the buffer are lengths within it. -/
theorem Noted.within {reads : List ReadEvent} {lengths : List Nat} (h : Noted reads lengths)
    {size : Nat} (hreads : ∀ e ∈ reads, e.status = .ok → e.bytes.length ≤ size) :
    ∀ n ∈ lengths, n ≤ size := by
  intro n hn
  rcases h with ⟨earlier, hearlier⟩
  have hmem : n ∈ reported reads := by
    rw [hearlier]
    exact List.mem_append_right earlier hn
  rcases List.mem_map.mp hmem with ⟨e, he, rfl⟩
  rcases List.mem_filter.mp he with ⟨hread, hproductive⟩
  exact hreads e hread (of_decide_eq_true hproductive).1

namespace Tcp

/-- The library, its decoders noting what they are given. -/
@[reducible] def recorded (W : WrapperLib) : WrapperLib :=
  { W with
    Decoder := W.Decoder × List Nat
    newDecoder := fun limits => (W.newDecoder limits, [])
    push := fun d bytes =>
      ((W.push d.1 bytes).1, (W.push d.1 bytes).2.1,
        (W.push d.1 bytes).2.2, d.2 ++ [bytes.length])
    reset := fun d => (W.reset d.1, d.2) }

variable {W : WrapperLib}

/-- The reads a step made, and what the decoder has noted of them. -/
def Notes (s s' : State (recorded W)) : Prop :=
  Passes (readsOf s.calls) (readsOf s'.calls) s.decoder.2 s'.decoder.2

theorem notes_refl (s : State (recorded W)) : Notes s s := Passes.refl _ _

theorem notes_trans {a b c : State (recorded W)} (h : Notes a b) (h' : Notes b c) :
    Notes a c := Passes.trans h h'

theorem receiveNextFrameLoop_notes (reads : List ReadEvent) (s : State (recorded W)) :
    Notes s (receiveNextFrameLoop reads s).2 := by
  induction reads generalizing s with
  | nil => exact notes_refl s
  | cons e rest ih =>
      by_cases hok : e.status = .ok
      swap
      · have hlast : ¬ Productive e := fun h => hok h.1
        rw [loop_readFailed hok]
        exact ⟨[e], readsOf_append _ _, by rw [reported_none hlast, List.append_nil]; rfl⟩
      by_cases he : e.bytes = []
      · have hlast : ¬ Productive e := fun h => h.2 he
        rw [loop_readEmpty hok he]
        exact ⟨[e], readsOf_append _ _, by rw [reported_none hlast, List.append_nil]; rfl⟩
      -- From here on the decoder is given the bytes.
      have hone : reported [e] = [e.bytes.length] := reported_one ⟨hok, he⟩
      by_cases hp : mapWrapperStatus ((recorded W).push s.decoder e.bytes).1 = .ok
      · rw [loop_completed hok he hp]
        exact ⟨[e], readsOf_append _ _, by rw [hone]⟩
      by_cases hm : mapWrapperStatus ((recorded W).push s.decoder e.bytes).1 = .needMoreData
      · rw [loop_continued hok he hm]
        refine notes_trans ?_ (ih _)
        exact ⟨[e], readsOf_append _ _, by rw [hone]⟩
      · rw [loop_rejected hok he hp hm]
        exact ⟨[e], readsOf_append _ _, by rw [hone]⟩

theorem receiveNextFrame_notes : Proc.Within Notes (receiveNextFrame (W := recorded W)) := by
  intro s
  rw [receiveNextFrame]
  split
  · exact notes_refl s
  · exact receiveNextFrameLoop_notes s.reads s

/-- Every call gives the decoder what its reads reported. -/
theorem exec_passes (op : Operation) (s : State (recorded W)) : Notes s (exec op s) := by
  -- A step whose one event is no read.
  -- A call that reads nothing passes nothing on.
  have hquiet : ∀ {s' : State (recorded W)} {call : TransportCall},
      s'.calls = s.calls ++ [call] → readsOf [call] = [] → s'.decoder.2 = s.decoder.2 →
      Notes s s' := by
    intro s' call hcalls hread hdecoder
    refine ⟨[], ?_, hdecoder.trans (List.append_nil _).symm⟩
    rw [hcalls, readsOf_append, hread]
  cases op with
  | «open» =>
      rw [exec, openStream, check_snd]
      exact hquiet rfl rfl rfl
  | close =>
      rw [exec, closeStream, check_snd]
      exact hquiet rfl rfl rfl
  | send apdu =>
      rw [exec, sendApdu]
      split
      · exact notes_refl s
      split
      · exact notes_refl s
      simp only
      split
      · exact notes_refl s
      · rw [writeAll, check_snd]
        exact hquiet rfl rfl rfl
  | receive call =>
      have hawait : Proc.Within Notes (awaitFrame (W := recorded W)) :=
        PendingQueue.within_await notes_refl (fun _ _ _ => notes_trans) receiveNextFrame_notes
      exact PendingQueue.within_call notes_refl (fun _ _ _ => notes_trans) hawait
        (fun s => notes_refl s) call s

/-- What the decoder of a reachable channel was given is what was reported. -/
theorem recorded_of_reachable {options : ApduChannelOptions} {s : State (recorded W)}
    (h : Reachable (recorded W) options s) : Noted (readsOf s.calls) s.decoder.2 := by
  induction h with
  | @new s h =>
      have hnone : s.decoder.2 = [] := by rw [h]; rfl
      rw [hnone]
      exact ⟨_, (List.append_nil _).symm⟩
  | @step s op h ih => exact ih.passes (Or.inl rfl) (exec_passes op s)

end Tcp

namespace Udp

variable {W : WrapperLib}

/-- A channel in its surroundings, and the lengths `DecodeWpdu` was given. -/
structure Recorder extends State where
  given : List Nat
deriving DecidableEq, Repr

namespace Recorder

/-- `ReceiveFrame`, with a note of what `DecodeWpdu` is given where it is called. -/
def receiveFrame (W : WrapperLib) : Proc Recorder ProfileStatus WrapperFrame := fun r =>
  if r.readBufferSize = 0 then (.fail .invalidArgument, r)
  else
    match r.reads with
    | [] => (.waiting, r)
    | e :: rest =>
      let r := { r with reads := rest, calls := r.calls ++ [.read e] }
      if mapTransportStatus e.status ≠ .ok then (.fail (mapTransportStatus e.status), r)
      else if e.bytes = [] then (.fail .needMoreData, r)
      else
        let decoded := W.decodeWpdu e.bytes r.wrapperLimits
        let r := { r with given := r.given ++ [e.bytes.length] }
        let decodeStatus := mapWrapperStatus decoded.1
        if decodeStatus = .ok then (.done decoded.2, r)
        else if decodeStatus = .needMoreData then (.fail .invalidLength, r)
        else (.fail decodeStatus, r)

/-- The calls of the channel, of which only receiving comes to `DecodeWpdu`. -/
def exec (W : WrapperLib) : Operation → Recorder → Recorder
  | .receive .vector, r => (receiveFrame W r).2
  | .receive (.into output), r =>
    if isValidMutableBuffer output = false then r else (receiveFrame W r).2
  | op, r => { r with toState := Udp.exec W op r.toState }

/-- A channel that has been watched from its construction on. -/
inductive Reachable (W : WrapperLib) (options : ApduChannelOptions) : Recorder → Prop where
  | new {r : Recorder} (h : r.toChannel = newChannel W options) (hgiven : r.given = []) :
    Reachable W options r
  | step {r : Recorder} (op : Operation) (h : Reachable W options r) :
    Reachable W options (exec W op r)

/-- Without the notes, it is `ReceiveFrame`. -/
theorem receiveFrame_toState (r : Recorder) :
    ((receiveFrame W r).1, (receiveFrame W r).2.toState) = Udp.receiveFrame W r.toState := by
  rcases r with ⟨s, given⟩
  unfold receiveFrame Udp.receiveFrame
  -- The record is written beside the state, and no branch looks at it.
  by_cases hb : s.readBufferSize = 0
  · simp only [if_pos hb]
  simp only [if_neg hb]
  rcases s.reads with _ | ⟨e, rest⟩
  · rfl
  simp only
  split
  · rfl
  split
  · rfl
  split
  · rfl
  split <;> rfl

/-- Without the notes, a watched channel is the channel. -/
theorem exec_toState (op : Operation) (r : Recorder) :
    (exec W op r).toState = Udp.exec W op r.toState := by
  have hframe := congrArg Prod.snd (receiveFrame_toState (W := W) r)
  -- Only a call that receives has anything to record.
  cases op with
  | «open» => rfl
  | close => rfl
  | send apdu => rfl
  | receive call =>
      cases call with
      | vector =>
          refine hframe.trans ?_
          simp only [Udp.exec, ApduChannel.call, receiveApdu]
          rcases hr : Udp.receiveFrame W r.toState with ⟨frame | status | _, s1⟩
          · rw [Proc.bind_of_done _ hr]
            rfl
          · rw [Proc.bind_of_fail _ hr]
          · rw [Proc.bind_of_waiting _ hr]
      | into output =>
          simp only [exec, Udp.exec, ApduChannel.call, receiveApduInto]
          split
          · rfl
          · refine hframe.trans ?_
            rcases Udp.receiveFrame W r.toState with ⟨frame | status | _, s1⟩ <;> rfl

/-- The reads a step made, and what was noted of them. -/
def Notes (r r' : Recorder) : Prop := Passes (readsOf r.calls) (readsOf r'.calls) r.given r'.given

theorem receiveFrame_notes : Proc.Within Notes (receiveFrame W) := by
  intro r
  unfold receiveFrame
  split
  · exact Passes.refl _ _
  split
  · exact Passes.refl _ _
  next e rest _ =>
    -- The datagram is taken, whatever it brought.
    have hreads : readsOf (r.calls ++ [.read e]) = readsOf r.calls ++ [e] := readsOf_append _ _
    simp only
    split
    · next hne =>
        have hnone : reported [e] = [] :=
          reported_none fun h => hne (mapTransportStatus_eq_ok.mpr h.1)
        exact ⟨[e], hreads, by rw [hnone, List.append_nil]⟩
    next hok =>
      rw [not_not, mapTransportStatus_eq_ok] at hok
      split
      · next hempty =>
          have hnone : reported [e] = [] := reported_none fun h => h.2 hempty
          exact ⟨[e], hreads, by rw [hnone, List.append_nil]⟩
      next hbytes =>
        have hone : reported [e] = [e.bytes.length] := reported_one ⟨hok, hbytes⟩
        have hgiven : ∀ {r' : Recorder}, r'.calls = r.calls ++ [.read e] →
            r'.given = r.given ++ [e.bytes.length] → Notes r r' := fun hcalls hnoted =>
          ⟨[e], by rw [hcalls, hreads], by rw [hnoted, hone]⟩
        split
        · exact hgiven rfl rfl
        split <;> exact hgiven rfl rfl

/-- Every call gives `DecodeWpdu` what its read reported. -/
theorem exec_passes (op : Operation) (r : Recorder) : Notes r (exec W op r) := by
  have hquiet : ∀ {r' : Recorder} (call : TransportCall), r'.calls = r.calls ++ [call] →
      readsOf [call] = [] → r'.given = r.given → Notes r r' := by
    intro r' call hcalls hread hgiven
    refine ⟨[], ?_, hgiven.trans (List.append_nil _).symm⟩
    rw [hcalls, readsOf_append, hread]
  cases op with
  | «open» =>
      refine hquiet (.open (r.opens.headD .ok)) ?_ rfl rfl
      simp only [exec, Udp.exec, openDatagram, check_snd]
  | close =>
      refine hquiet (.close (r.closes.headD .ok)) ?_ rfl rfl
      simp only [exec, Udp.exec, closeDatagram, check_snd]
  | send apdu =>
      simp only [exec, Udp.exec, sendApdu]
      split
      · exact Passes.refl _ _
      split
      · exact Passes.refl _ _
      split
      · exact Passes.refl _ _
      · simp only [sendDatagram, check_snd]
        exact hquiet _ rfl rfl rfl
  | receive call =>
      cases call with
      | vector => exact receiveFrame_notes r
      | into output =>
          simp only [exec]
          split
          · exact Passes.refl _ _
          · exact receiveFrame_notes r

/-- A watched channel is a channel, and what was noted is what was reported. -/
theorem noted_of_reachable {options : ApduChannelOptions} {r : Recorder}
    (h : Reachable W options r) :
    Udp.Reachable W options r.toState ∧ Noted (readsOf r.calls) r.given := by
  induction h with
  | @new r h hgiven =>
      refine ⟨.new h, ?_⟩
      rw [hgiven]
      exact ⟨_, (List.append_nil _).symm⟩
  | @step r op h ih =>
      refine ⟨?_, ih.2.passes (Or.inl rfl) (exec_passes op r)⟩
      rw [exec_toState]
      exact .step op ih.1

end Recorder

end Udp

namespace Hdlc

/-- The library, its decoders noting what they are given. -/
@[reducible] def recorded (L : HdlcLib) : HdlcLib :=
  { L with
    Decoder := L.Decoder × List Nat
    newDecoder := fun limits => (L.newDecoder limits, [])
    push := fun d bytes =>
      ((L.push d.1 bytes).1, (L.push d.1 bytes).2.1,
        (L.push d.1 bytes).2.2, d.2 ++ [bytes.length])
    resetDecoder := fun d => (L.resetDecoder d.1, d.2) }

variable {L : HdlcLib}

/-- The reads a step made, and what the decoder has noted of them. -/
def Notes (s s' : State (recorded L)) : Prop :=
  Passes (readsMade s.trace) (readsMade s'.trace) s.decoder.2 s'.decoder.2

theorem notes_of_quiet {s s' : State (recorded L)} {events : List (Event (recorded L))}
    (htrace : s'.trace = s.trace ++ events) (hread : readsMade events = [])
    (hdecoder : s'.decoder.2 = s.decoder.2) : Notes s s' :=
  ⟨[], by rw [htrace, readsMade_append, hread], hdecoder.trans (List.append_nil _).symm⟩

theorem notes_of_same {s s' : State (recorded L)} (htrace : s'.trace = s.trace)
    (hdecoder : s'.decoder.2 = s.decoder.2) : Notes s s' :=
  notes_of_quiet (htrace.trans (List.append_nil _).symm) rfl hdecoder

theorem notes_trans {a b c : State (recorded L)} (h : Notes a b) (h' : Notes b c) :
    Notes a c := Passes.trans h h'

theorem receiveDecodedFrameLoop_notes (reads : List ReadEvent) (s : State (recorded L)) :
    Notes s (receiveDecodedFrameLoop reads s).2 := by
  induction reads generalizing s with
  | nil => exact notes_of_same rfl rfl
  | cons e rest ih =>
      -- One read, and what the decoder has noted of it.
      have hone : ∀ {s' : State (recorded L)}, s'.trace = s.trace ++ [.transport (.read e)] →
          s'.decoder.2 = s.decoder.2 ++ reported [e] → Notes s s' := fun htrace hnoted =>
        ⟨[e], by rw [htrace, readsMade_append]; rfl, hnoted⟩
      by_cases hok : e.status = .ok
      swap
      · have hlast : reported [e] = [] := reported_none fun h => hok h.1
        rw [loop_readFailed hok]
        exact hone rfl (by rw [hlast, List.append_nil]; rfl)
      by_cases he : e.bytes = []
      · have hlast : reported [e] = [] := reported_none fun h => h.2 he
        rw [loop_readEmpty hok he]
        exact hone rfl (by rw [hlast, List.append_nil]; rfl)
      have hlength : reported [e] = [e.bytes.length] := reported_one ⟨hok, he⟩
      by_cases hp : mapHdlcStatus ((recorded L).push s.decoder e.bytes).1 = .ok
      · rcases hf : ((recorded L).push s.decoder e.bytes).2.1 with _ | ⟨frame, frames⟩
        · rw [loop_noFrame hok he hp hf]
          exact hone rfl (by rw [hlength])
        · rw [loop_completed hok he hp hf]
          exact hone rfl (by rw [hlength])
      by_cases hm : mapHdlcStatus ((recorded L).push s.decoder e.bytes).1 = .needMoreData
      · rw [loop_continued hok he hm]
        exact notes_trans (hone rfl (by rw [hlength])) (ih _)
      · rw [loop_rejected hok he hp hm]
        exact hone rfl (by rw [hlength])

theorem notes_wait : WaitPrimitives (Notes (L := L)) where
  refl s := notes_of_same rfl rfl
  trans _ _ _ := notes_trans
  sessionReceive frame s := by
    rw [sessionReceive_snd]
    exact notes_of_quiet rfl rfl rfl
  writeFrameBytes bytes s := by
    rw [writeFrameBytes_snd]
    exact notes_of_quiet rfl rfl rfl
  sleepBeforeRetry s := by
    rw [sleepBeforeRetry]
    split
    · exact notes_of_same rfl rfl
    · rw [check_snd]
      exact notes_of_quiet rfl rfl rfl
  -- A frame in hand keeps the stream from being read, and so does an empty buffer.
  receiveDecodedFrame s := by
    rcases hp : s.pendingHdlcFrames with _ | ⟨frame, frames⟩
    · by_cases hb : s.readBufferSize = 0
      · rw [receiveDecodedFrame_of_noBuffer hp hb]
        exact notes_of_same rfl rfl
      · rw [receiveDecodedFrame_of_empty hp hb]
        exact receiveDecodedFrameLoop_notes s.reads s
    · rw [receiveDecodedFrame_of_pending hp]
      exact notes_of_same rfl rfl

theorem notes_send : SendPrimitives (Notes (L := L)) where
  toWaitPrimitives := notes_wait
  isOpen s := notes_of_quiet rfl rfl rfl
  sessionBuild build s := by
    rw [sessionBuild_snd]
    exact notes_of_same rfl rfl
  emit before bytes s := notes_of_quiet rfl rfl rfl
  limit s n := notes_of_same rfl rfl

theorem notes_intake : IntakePrimitives (Notes (L := L)) where
  toWaitPrimitives := notes_wait
  receiveReady _ := notes_send.sessionBuild _
  decodeComplete frame s := by
    simp only [decodeCompleteInformationToPendingApdu]
    split
    · exact notes_of_quiet rfl rfl rfl
    split <;> exact notes_of_quiet rfl rfl rfl
  reassembler s r := notes_of_same rfl rfl

/-- The same, but for a decoder made anew before the first of the reads, which has
    noted nothing of what was before. -/
def Reports (s s' : State (recorded L)) : Prop :=
  ∃ kept, (kept = s.decoder.2 ∨ kept = []) ∧
    Passes (readsMade s.trace) (readsMade s'.trace) kept s'.decoder.2

theorem Notes.reports {s s' : State (recorded L)} (h : Notes s s') : Reports s s' :=
  ⟨_, Or.inl rfl, h⟩

theorem reports_notes {a b c : State (recorded L)} (h : Reports a b) (h' : Notes b c) :
    Reports a c := by
  rcases h with ⟨kept, hkept, hpasses⟩
  exact ⟨kept, hkept, hpasses.trans h'⟩

theorem ensureSession_reports : Proc.Within Reports (ensureSession (L := recorded L)) := by
  intro s
  rw [ensureSession]
  simp only
  split
  · exact (notes_wait.refl s).reports
  split
  · exact ⟨[], Or.inr rfl, Passes.refl _ _⟩
  · exact (notes_wait.refl s).reports

/-- Nothing was read, and the decoder has noted nothing more. -/
def Idles (s s' : State (recorded L)) : Prop :=
  readsMade s'.trace = readsMade s.trace ∧ s'.decoder.2 = s.decoder.2

theorem Idles.reports {a b c : State (recorded L)} (h : Idles a b) (h' : Reports b c) :
    Reports a c := by
  rcases h' with ⟨kept, hkept, hpasses⟩
  rw [h.1, h.2] at *
  exact ⟨kept, hkept, hpasses⟩

theorem require_idles (condition : State (recorded L) → Bool) (status : ProfileStatus) :
    Proc.Within Idles (require condition status) := by
  intro s
  rw [require]
  split <;> exact ⟨rfl, rfl⟩

theorem requireOpen_idles : Proc.Within Idles (requireOpen (L := recorded L)) := by
  have hasked : Proc.Within Idles (isOpen (L := recorded L)) := fun s =>
    ⟨(readsMade_append _ _).trans (List.append_nil _), rfl⟩
  refine Proc.within_bind (fun _ _ _ h h' => ⟨h'.1.trans h.1, h'.2.trans h.2⟩) hasked
    fun opened => ?_
  cases opened with
  | true => exact fun s => ⟨rfl, rfl⟩
  | false => exact fun s => ⟨rfl, rfl⟩

/-- The decoder is made anew before anything is read, or not at all. -/
theorem establishing_reports (role : HdlcProfileRole) (rest : Call (recorded L) Unit)
    (hrest : Proc.Within Notes rest) : Proc.Within Reports (establishing role rest) := by
  have hidle : ∀ a b : State (recorded L), Idles a b → Reports a b := fun _ b h =>
    h.reports (notes_wait.refl b).reports
  have hcomp : ∀ a b c : State (recorded L), Idles a b → Reports b c → Reports a c :=
    fun _ _ _ h h' => h.reports h'
  refine Proc.within_bind_of hcomp hidle (require_idles _ _) fun _ => ?_
  refine Proc.within_bind_of hcomp hidle requireOpen_idles fun _ => ?_
  refine Proc.within_bind_of hcomp hidle (require_idles _ _) fun _ => ?_
  have hlast : ∀ a b c : State (recorded L), Reports a b → Notes b c → Reports a c :=
    fun _ _ _ => reports_notes
  exact Proc.within_bind_of hlast (fun _ _ h => h) ensureSession_reports fun _ => hrest

/-- Every call gives the decoder what its reads reported. -/
theorem exec_reports (op : Operation) (s : State (recorded L)) : Reports s (exec op s).2 := by
  -- By the calls. The two that establish a link may begin the record anew.
  cases op with
  | «open» =>
      have hopen : Notes s (exec .open s).2 := by
        simp only [exec, openStream, check_snd]
        exact notes_of_quiet rfl rfl rfl
      exact hopen.reports
  | close =>
      have hclose : Notes s (exec .close s).2 := by
        simp only [exec, closeStream, check_snd]
        exact notes_of_quiet rfl rfl rfl
      exact hclose.reports
  | isOpen => exact (notes_send.isOpen s).reports
  | connectDataLink =>
      refine establishing_reports .client requestConnection ?_ s
      refine Proc.within_bind notes_wait.trans (notes_send.sessionBuild _) fun bytes => ?_
      exact Proc.within_bind notes_wait.trans (notes_wait.writeFrameBytes bytes) fun _ =>
        notes_wait.within_controlWithRetry bytes
  | acceptDataLink =>
      refine establishing_reports .server (receiveSessionControlFrame >>= fun _ =>
        sessionBuild (recorded L).buildConnectResponse >>= writeFrameBytes) ?_ s
      refine Proc.within_bind notes_wait.trans notes_wait.within_control fun _ => ?_
      exact Proc.within_bind notes_wait.trans (notes_send.sessionBuild _) notes_wait.writeFrameBytes
  | disconnectDataLink => exact (notes_send.within_disconnectDataLink s).reports
  | send apdu => exact (notes_send.within_sendApdu apdu s).reports
  | receive call =>
      have hcall : Notes s ((channel (recorded L)).call call s).2 :=
        PendingQueue.within_call notes_wait.refl notes_wait.trans notes_intake.within_awaitApdu
          (fun s => notes_of_same rfl rfl) call s
      exact hcall.reports

/-- What the decoder of a reachable channel was given since it was made is the last
    of what was reported. -/
theorem recorded_of_reachable {options : ApduChannelOptions} {s : State (recorded L)}
    (h : Reachable (recorded L) options s) : Noted (readsMade s.trace) s.decoder.2 := by
  have hcall : ∀ op (s : State (recorded L)), Noted (readsMade s.trace) s.decoder.2 →
      Noted (readsMade (exec op s).2.trace) (exec op s).2.decoder.2 := by
    intro op s hs
    rcases exec_reports op s with ⟨kept, hkept, hpasses⟩
    exact hs.passes hkept hpasses
  have hnew : ∀ start : State (recorded L), start.toChannel = newChannel (recorded L) options →
      Noted (readsMade start.trace) start.decoder.2 := by
    intro start hnew
    have hfresh : start.decoder.2 = [] := by
      have hdecoder : start.decoder = (newChannel (recorded L) options).decoder := by rw [← hnew]
      rw [hdecoder]
      rfl
    rw [hfresh]
    exact ⟨_, (List.append_nil _).symm⟩
  exact h.preserves hnew hcall

end Hdlc

/-- Every call of every channel gives the decoder the lengths that were reported with
    `Ok`, by a callback or by any other transport, one by one and nothing else, however
    long. In a run in which no such report exceeds the read buffer, then, no decoder is
    given more than the read buffer. -/
theorem decoders_within (W : WrapperLib) (L : HdlcLib) (options : ApduChannelOptions) :
    (∀ c, (readSome c).bytes.length = c.bytesRead ∧
      ((readSome c).status = .ok ↔ c.status = some .ok)) ∧
    (∀ s, Tcp.Reachable (Tcp.recorded W) options s →
      (∀ op, Passes (readsOf s.calls) (readsOf (Tcp.exec op s).calls) s.decoder.2
        (Tcp.exec op s).decoder.2) ∧
      ((∀ e ∈ readsOf s.calls, e.status = .ok → e.bytes.length ≤ s.readBufferSize) →
        ∀ n ∈ s.decoder.2, n ≤ s.readBufferSize)) ∧
    (∀ r, Udp.Recorder.Reachable W options r → Udp.Reachable W options r.toState ∧
      (∀ op, (Udp.Recorder.exec W op r).toState = Udp.exec W op r.toState ∧
        Passes (readsOf r.calls) (readsOf (Udp.Recorder.exec W op r).calls) r.given
          (Udp.Recorder.exec W op r).given) ∧
      ((∀ e ∈ readsOf r.calls, e.status = .ok → e.bytes.length ≤ r.readBufferSize) →
        ∀ n ∈ r.given, n ≤ r.readBufferSize)) ∧
    (∀ s, Hdlc.Reachable (Hdlc.recorded L) options s →
      (∀ op, ∃ kept, (kept = s.decoder.2 ∨ kept = []) ∧
        Passes (Hdlc.readsMade s.trace) (Hdlc.readsMade (Hdlc.exec op s).2.trace) kept
          (Hdlc.exec op s).2.decoder.2) ∧
      ((∀ e ∈ Hdlc.readsMade s.trace, e.status = .ok → e.bytes.length ≤ s.readBufferSize) →
        ∀ n ∈ s.decoder.2, n ≤ s.readBufferSize)) := by
  refine ⟨fun c => ⟨readSome_length c, readSome_ok c⟩, fun s h => ⟨?_, ?_⟩, fun r h => ?_,
    fun s h => ⟨?_, ?_⟩⟩
  · exact fun op => Tcp.exec_passes op s
  · exact (Tcp.recorded_of_reachable h).within
  -- A datagram has no decoder, so the record is kept beside the channel.
  · rcases Udp.Recorder.noted_of_reachable h with ⟨hreachable, hnoted⟩
    refine ⟨hreachable, fun op => ?_, hnoted.within⟩
    exact ⟨Udp.Recorder.exec_toState op r, Udp.Recorder.exec_passes op r⟩
  · exact fun op => Hdlc.exec_reports op s
  · exact (Hdlc.recorded_of_reachable h).within

/-- Reports of eight bytes and of fewer, and channels whose buffer has eight: each
    decoder was given what was reported, and nothing beyond the buffer. -/
theorem decoders_within_split :
    let options := { defaultApduChannelOptions with scratchBufferSize := 8 }
    let reads := [Reference.arrived [0, 1, 0, 16, 0, 1, 0, 2], Reference.arrived [1, 2]]
    let stream : Tcp.State (Tcp.recorded Reference.wrapperLib) :=
      { Tcp.newChannel (Tcp.recorded Reference.wrapperLib) options with
        opens := [], closes := [], reads := reads, writes := [], calls := [], sink := [] }
    let received := Tcp.exec (.receive .vector) stream
    let datagram : Udp.Recorder := ⟨Reference.udpChannel options reads, []⟩
    let taken := Udp.Recorder.exec Reference.wrapperLib (.receive .vector) datagram
    let line := Reference.channelOver (Hdlc.recorded Reference.hdlcLib) options reads
    let heard := (Hdlc.run [.receive .vector] line).2
    received.decoder.2 = [8, 2] ∧ (∀ n ∈ received.decoder.2, n ≤ 8) ∧
      taken.given = [8] ∧ (∀ n ∈ taken.given, n ≤ 8) ∧
      heard.decoder.2 = [8, 2] ∧ ∀ n ∈ heard.decoder.2, n ≤ 8 := by
  intro options reads stream received datagram taken line heard
  have hwithin := decoders_within Reference.wrapperLib Reference.hdlcLib options
  have hreceived : Tcp.Reachable (Tcp.recorded Reference.wrapperLib) options received :=
    .step (.receive .vector) (.new rfl)
  have htaken : Udp.Recorder.Reachable Reference.wrapperLib options taken :=
    .step (.receive .vector) (.new rfl rfl)
  have hheard : Hdlc.Reachable (Hdlc.recorded Reference.hdlcLib) options heard :=
    ⟨line, [.receive .vector], rfl, rfl, rfl⟩
  have hstream : received.readBufferSize = 8 := by decide +kernel
  have hline : heard.readBufferSize = 8 := by decide +kernel
  refine ⟨by decide +kernel, ?_, by decide +kernel, ?_, by decide +kernel, ?_⟩
  · rw [← hstream]
    exact (hwithin.2.1 received hreceived).2 (by decide +kernel)
  · exact (hwithin.2.2.1 taken htaken).2.2 (by decide +kernel)
  · rw [← hline]
    exact (hwithin.2.2.2 heard hheard).2 (by decide +kernel)

/-- A callback that is offered eight bytes and reports sixteen of them, `Ok`. -/
def overlong : CallbackRead :=
  ⟨some .ok, 16, fun i => [0, 1, 0, 16, 0, 1, 0, 8, 1, 2, 3, 4, 5, 6, 7, 8].getD i 0⟩

/-- The decoder of a stream is given all sixteen, `DecodeWpdu` is given them as well,
    and both calls hand over an APDU that was never in the buffer. -/
theorem decoders_within_refuted :
    let options := { defaultApduChannelOptions with scratchBufferSize := 8 }
    let stream : Tcp.State (Tcp.recorded Reference.wrapperLib) :=
      { Tcp.newChannel (Tcp.recorded Reference.wrapperLib) options with
        opens := [], closes := [], reads := [readSome overlong], writes := [], calls := []
        sink := [] }
    let received := (Tcp.channel _).call .vector stream
    let datagram := Reference.udpChannel options [readSome overlong]
    let taken := Udp.Recorder.exec Reference.wrapperLib (.receive .vector) ⟨datagram, []⟩
    Tcp.Reachable (Tcp.recorded Reference.wrapperLib) options received.2 ∧
      received.2.readBufferSize = 8 ∧ received.2.decoder.2 = [16] ∧
      received.1 = .vector (.done [1, 2, 3, 4, 5, 6, 7, 8]) ∧
      Udp.Recorder.Reachable Reference.wrapperLib options taken ∧
      taken.readBufferSize = 8 ∧ taken.given = [16] ∧
      ((Udp.channel Reference.wrapperLib).call .vector datagram).1 =
        .vector (.done [1, 2, 3, 4, 5, 6, 7, 8]) := by
  refine ⟨Tcp.Reachable.step (.receive .vector) (Tcp.Reachable.new rfl), by decide +kernel,
    by decide +kernel, by decide +kernel, .step (.receive .vector) (.new rfl rfl), ?_⟩
  decide +kernel

end DlmsProfile
