import DlmsProfile.Contract
import DlmsProfile.Core.Reading
import DlmsProfile.Hdlc.Transmission

/-!
# Receive Calls come back

The receive call of the TCP channel goes round until a frame is complete, that of
the HDLC channel until a frame carries an APDU, and both go round again inside
while the bytes do not make a frame. None of these loops counts. What ends them
is that every read but the last brings bytes, so a transport that at some point
has none for the moment ends the call, whatever the decoders say.

The frames a state will hand out are those in its queue and those the reads to
come will complete. A turn takes the front of them and never puts a frame back,
so what a call handled and what is left after it make up what there was before.

## Main definitions

* `Tcp.incoming`: The frames a TCP channel will hand out.
* `Hdlc.Handles`: A run of `ReceiveNextApdu`, with the frames it decoded.
* `Tcp.Handled`, `Hdlc.Handled`: The frames a call handled.

## Theorems

* `Tcp.receiveNextFrame_takes`, `Hdlc.receiveNextApdu_takes`: What they read.
* `Tcp.call_incoming`, `Hdlc.call_incoming`: Every frame is handled once.
* `receive_bounded`: Receive calls of both channels are bounded.
-/

namespace DlmsProfile

namespace Tcp

variable {W : WrapperLib}

/-- The frames a decoder will complete over a script of reads. -/
def decodedAhead (W : WrapperLib) : W.Decoder → List ReadEvent → List WrapperFrame
  | _, [] => []
  | decoder, e :: rest =>
    if ¬ Productive e then decodedAhead W decoder rest
    else
      let pushed := W.push decoder e.bytes
      if mapWrapperStatus pushed.1 = .ok then pushed.2.1 ++ decodedAhead W pushed.2.2 rest
      else if mapWrapperStatus pushed.1 = .needMoreData then decodedAhead W pushed.2.2 rest
      else decodedAhead W (W.reset pushed.2.2) rest

/-- The frames a state will hand out: those decoded, then those to be decoded. -/
def incoming (s : State W) : List WrapperFrame :=
  s.pendingFrames ++ decodedAhead W s.decoder s.reads

/-- The loop reads on while its reads bring bytes, and moves frames from the
    reads to the queue. -/
theorem receiveNextFrameLoop_takes (reads : List ReadEvent) (s : State W)
    (hreads : s.reads = reads) :
    ∃ taken, readsOf (receiveNextFrameLoop reads s).2.calls = readsOf s.calls ++ taken ∧
      Took (receiveNextFrameLoop reads s).1 reads (receiveNextFrameLoop reads s).2.reads taken ∧
      incoming (receiveNextFrameLoop reads s).2 = incoming s := by
  -- On the reads. All but the last one taken were productive, or the loop had ended.
  induction reads generalizing s with
  | nil =>
      refine ⟨[], (List.append_nil _).symm, ⟨rfl, fun _ h => absurd h List.not_mem_nil,
        Or.inr fun _ h => absurd h List.not_mem_nil, fun _ => rfl⟩, ?_⟩
      rw [incoming, incoming, hreads]
      rfl
  | cons e rest ih =>
      by_cases hok : e.status = .ok
      swap
      · have hlast : ¬ Productive e := fun h => hok h.1
        rw [loop_readFailed hok]
        refine ⟨[e], readsOf_append _ _, Took.last, ?_⟩
        rw [incoming, incoming, hreads, decodedAhead, if_pos hlast]
        rfl
      by_cases he : e.bytes = []
      · have hlast : ¬ Productive e := fun h => h.2 he
        rw [loop_readEmpty hok he]
        refine ⟨[e], readsOf_append _ _, Took.last, ?_⟩
        rw [incoming, incoming, hreads, decodedAhead, if_pos hlast]
        rfl
      have hone : Productive e := ⟨hok, he⟩
      by_cases hp : mapWrapperStatus (W.push s.decoder e.bytes).1 = .ok
      · rw [loop_completed hok he hp]
        refine ⟨[e], readsOf_append _ _, Took.one (fun h => by cases h) hone, ?_⟩
        rw [incoming, incoming, hreads, decodedAhead, if_neg (not_not.mpr hone)]
        simp only [hp, if_true, List.append_assoc]
        rfl
      by_cases hm : mapWrapperStatus (W.push s.decoder e.bytes).1 = .needMoreData
      · rw [loop_continued hok he hm]
        rcases ih { afterRead e rest s with decoder := (W.push s.decoder e.bytes).2.2 } rfl with
          ⟨taken, hmade, htook, hframes⟩
        refine ⟨e :: taken, ?_, ?_, ?_⟩
        · rw [hmade, ← List.singleton_append, ← List.append_assoc]
          exact congrArg (· ++ taken) (readsOf_append _ _)
        · exact Took.append (fun x h => (List.mem_singleton.mp h) ▸ hone) rfl htook
        · rw [hframes, incoming, incoming, hreads, decodedAhead, if_neg (not_not.mpr hone)]
          simp only [if_neg hp, if_pos hm]
          rfl
      · rw [loop_rejected hok he hp hm]
        refine ⟨[e], readsOf_append _ _, Took.one (fun h => by cases h) hone, ?_⟩
        rw [incoming, incoming, hreads, decodedAhead, if_neg (not_not.mpr hone)]
        simp only [if_neg hp, if_neg hm]
        rfl

theorem receiveNextFrame_takes :
    Takes (·.reads) (fun s => readsOf s.calls) (receiveNextFrame (W := W)) := by
  intro s
  rw [receiveNextFrame]
  split
  · exact ⟨[], (List.append_nil _).symm, Took.nothing fun h => by cases h⟩
  · rcases receiveNextFrameLoop_takes s.reads s rfl with ⟨taken, hmade, htook, -⟩
    exact ⟨taken, hmade, htook⟩

theorem receiveNextFrame_incoming :
    Proc.Within (fun s s' : State W => incoming s' = incoming s) receiveNextFrame := by
  intro s
  rw [receiveNextFrame]
  split
  · rfl
  · exact (receiveNextFrameLoop_takes s.reads s rfl).choose_spec.2.2

theorem awaitFrame_incoming (s : State W) : incoming (awaitFrame s).2 = incoming s := by
  have hwithin : Proc.Within (fun s s' : State W => incoming s' = incoming s) awaitFrame :=
    PendingQueue.within_await (fun _ => rfl) (fun _ _ _ h h' => Eq.trans h' h)
      receiveNextFrame_incoming
  exact hwithin s

/-- The frames a call handled are those it handed over: at most one. -/
def Handled (r : ReceiveCall) (s : State W) (frames : List WrapperFrame) : Prop :=
  ((channel W).call r s).1.delivered.toList = frames.map (·.data)

/-- The front of the frames to come is handed over, or they are as they were. -/
theorem call_incoming (r : ReceiveCall) (s : State W) :
    ∃ frames, incoming s = frames ++ incoming ((channel W).call r s).2 ∧ Handled r s frames := by
  have hloop := awaitFrame_incoming s
  have hcall : (((channel W).call r s).1.delivered = none ∧
        (((channel W).call r s).2 = s ∨ ((channel W).call r s).2 = (awaitFrame s).2)) ∨
      ∃ s1, awaitFrame s = (.done (), s1) ∧
        ((channel W).call r s).1.delivered = some ((pending.apdus s1).headD []) ∧
        ((channel W).call r s).2 = pending.pop s1 := pending.call_cases r s
  -- A call that delivers has taken one frame off the front, and any other none.
  rcases hcall with ⟨hnone, hsame⟩ | ⟨s1, hw, hsome, hpop⟩
  · refine ⟨[], ?_, congrArg Option.toList hnone⟩
    rcases hsame with hs | hs
    · rw [hs, List.nil_append]
    · rw [hs, hloop, List.nil_append]
  · rw [hw] at hloop
    have hpending : pending.apdus s1 ≠ [] := PendingQueue.await_pending hw
    have hapdus : pending.apdus s1 = s1.pendingFrames.map (·.data) := rfl
    have hpopped : incoming (pending.pop s1) =
        s1.pendingFrames.tail ++ decodedAhead W s1.decoder s1.reads := rfl
    rcases hf : s1.pendingFrames with _ | ⟨frame, frames⟩
    · rw [hapdus, hf] at hpending
      exact absurd rfl hpending
    · refine ⟨[frame], ?_, ?_⟩
      · rw [← hloop, hpop, hpopped, incoming, hf]
        rfl
      · rw [Handled, hsome, hapdus, hf]
        rfl

end Tcp

namespace Hdlc

variable {L : HdlcLib}

/-- The reads in a trace. -/
def readsMade (events : List (Event L)) : List ReadEvent :=
  readsOf (events.filterMap fun
    | .transport call => some call
    | _ => none)

theorem readsMade_append (a b : List (Event L)) :
    readsMade (a ++ b) = readsMade a ++ readsMade b := by
  rw [readsMade, List.filterMap_append, readsOf_append]
  rfl

/-- The loop reads on while its reads bring bytes. -/
theorem receiveDecodedFrameLoop_takes (reads : List ReadEvent) (s : State L) :
    ∃ taken, readsMade (receiveDecodedFrameLoop reads s).2.trace = readsMade s.trace ++ taken ∧
      Took (receiveDecodedFrameLoop reads s).1 reads (receiveDecodedFrameLoop reads s).2.reads
        taken := by
  -- On the reads, as for TCP. A push without a frame ends the loop here.
  induction reads generalizing s with
  | nil =>
      exact ⟨[], (List.append_nil _).symm, ⟨rfl, fun _ h => absurd h List.not_mem_nil,
        Or.inr fun _ h => absurd h List.not_mem_nil, fun _ => rfl⟩⟩
  | cons e rest ih =>
      by_cases hok : e.status = .ok
      swap
      · rw [loop_readFailed hok]
        exact ⟨[e], readsMade_append _ _, Took.last⟩
      by_cases he : e.bytes = []
      · rw [loop_readEmpty hok he]
        exact ⟨[e], readsMade_append _ _, Took.last⟩
      have hone : Productive e := ⟨hok, he⟩
      by_cases hp : mapHdlcStatus (L.push s.decoder e.bytes).1 = .ok
      · rcases hf : (L.push s.decoder e.bytes).2.1 with _ | ⟨frame, frames⟩
        · rw [loop_noFrame hok he hp hf]
          exact ⟨[e], readsMade_append _ _, Took.one (fun h => by cases h) hone⟩
        · rw [loop_completed hok he hp hf]
          exact ⟨[e], readsMade_append _ _, Took.one (fun h => by cases h) hone⟩
      by_cases hm : mapHdlcStatus (L.push s.decoder e.bytes).1 = .needMoreData
      · rw [loop_continued hok he hm]
        rcases ih { afterRead e rest s with decoder := (L.push s.decoder e.bytes).2.2 } with
          ⟨taken, hmade, htook⟩
        refine ⟨e :: taken, ?_, ?_⟩
        · rw [hmade, ← List.singleton_append, ← List.append_assoc]
          exact congrArg (· ++ taken) (readsMade_append _ _)
        · exact Took.append (fun x h => (List.mem_singleton.mp h) ▸ hone) rfl htook
      · rw [loop_rejected hok he hp hm]
        exact ⟨[e], readsMade_append _ _, Took.one (fun h => by cases h) hone⟩

theorem receiveDecodedFrame_takes :
    Takes (·.reads) (fun s => readsMade s.trace) (receiveDecodedFrame (L := L)) := by
  intro s
  rcases hp : s.pendingHdlcFrames with _ | ⟨frame, frames⟩
  · by_cases hb : s.readBufferSize = 0
    · rw [receiveDecodedFrame_of_noBuffer hp hb]
      exact ⟨[], (List.append_nil _).symm, Took.nothing fun h => by cases h⟩
    · rw [receiveDecodedFrame_of_empty hp hb]
      exact receiveDecodedFrameLoop_takes s.reads s
  · rw [receiveDecodedFrame_of_pending hp]
    exact ⟨[], (List.append_nil _).symm, Took.nothing fun h => by cases h⟩

/-- A script and the record of it, before and after. -/
def Script (s s' : State L) : Prop :=
  ∃ taken, s.reads = taken ++ s'.reads ∧ readsMade s'.trace = readsMade s.trace ++ taken

/-- One event that is no read. -/
theorem script_of_event {s s' : State L} {event : Event L} (hreads : s'.reads = s.reads)
    (htrace : s'.trace = s.trace ++ [event]) (hevent : readsMade [event] = []) : Script s s' :=
  ⟨[], hreads.symm, by rw [htrace, readsMade_append, hevent]⟩

theorem script_intake : IntakePrimitives (Script (L := L)) where
  refl s := ⟨[], rfl, (List.append_nil _).symm⟩
  trans := by
    rintro a b c ⟨taken, hr, hm⟩ ⟨taken', hr', hm'⟩
    exact ⟨taken ++ taken', by rw [hr, hr', List.append_assoc], by
      rw [hm', hm, List.append_assoc]⟩
  sessionReceive frame s := by
    rw [sessionReceive_snd]
    exact script_of_event rfl rfl rfl
  writeFrameBytes bytes s := by
    rw [writeFrameBytes_snd]
    exact script_of_event rfl rfl rfl
  sleepBeforeRetry s := by
    rw [sleepBeforeRetry]
    split
    · exact ⟨[], rfl, (List.append_nil _).symm⟩
    · rw [check_snd]
      exact script_of_event rfl rfl rfl
  -- Of all steps this alone reads.
  receiveDecodedFrame s := by
    rcases receiveDecodedFrame_takes s with ⟨taken, hmade, htook⟩
    exact ⟨taken, htook.script, hmade⟩
  receiveReady _ s := by
    rw [sessionBuild_snd]
    exact ⟨[], rfl, (List.append_nil _).symm⟩
  decodeComplete frame s := by
    simp only [decodeCompleteInformationToPendingApdu]
    split
    · exact script_of_event rfl rfl rfl
    split <;> exact script_of_event rfl rfl rfl
  reassembler s r := ⟨[], rfl, (List.append_nil _).symm⟩

theorem sendSessionReceiveReady_ne_waiting (pollFinal : Bool) (s : State L) :
    (sendSessionReceiveReady pollFinal s).1 ≠ .waiting := by
  rcases sendSessionReceiveReady_cases pollFinal s with ⟨-, h⟩ | ⟨-, h⟩ <;> rw [h]
  · exact fun hc => by cases hc
  · exact fun hc => check_ne_waiting (Prod.ext hc rfl)

/-- Nothing that is done with a frame waits for the transport. -/
theorem decodeFrame_ne_waiting (frame : L.Frame) (s : State L) :
    (decodeFrameToPendingApdu frame s).1 ≠ .waiting := by
  -- Nothing on these paths reads, and a write does not wait.
  by_cases huse : s.options.hdlcUseSession = true
  · rcases decodeFrame_cases frame huse with ⟨-, h⟩ | ⟨-, -, h⟩ | ⟨-, h⟩ <;> rw [h]
    · exact fun h => by cases h
    · exact fun h => by cases h
    · rcases acceptCompleted_cases _ _ _ with ⟨-, h⟩ | ⟨-, -, h⟩ | ⟨-, -, -, _, -, h⟩ |
        ⟨-, -, -, _, -, h⟩ <;> rw [h]
      · exact fun h => by cases h
      · exact fun h => by cases h
      · exact fun h => by cases h
      · exact sendSessionReceiveReady_ne_waiting _ _
  · rcases decodeFrame_plain_cases frame huse with ⟨-, h⟩ | ⟨-, _, -, h⟩ | ⟨-, _, -, h⟩ <;> rw [h]
    · exact fun h => by cases h
    · exact fun h => by cases h
    · exact fun h => by cases h

theorem handleFrame_ne_waiting (frame : L.Frame) (s : State L) :
    (handleFrame frame s).1 ≠ .waiting := by
  rcases hd : decodeFrameToPendingApdu frame s with ⟨⟨⟩ | status | _, s1⟩
  · rw [handleFrame_of_done hd]
    exact fun h => by cases h
  · by_cases hmore : status = .needMoreData
    · rw [handleFrame_of_more (hmore ▸ hd)]
      exact fun h => by cases h
    · rw [handleFrame_of_fail hd hmore]
      exact fun h => by cases h
  · have hwait := decodeFrame_ne_waiting frame s
    rw [hd] at hwait
    exact absurd rfl hwait

/-- What is done with a frame makes no read. -/
theorem handleFrame_takes (frame : L.Frame) :
    Takes (·.reads) (fun s => readsMade s.trace) (handleFrame frame) := by
  have hreads : ∀ s, (handleFrame frame s).2.reads = s.reads := fun s => by
    rw [handleFrame_snd]
    exact (decodeFrame_sameIntake frame s).reads
  refine takes_of_unread (handleFrame_ne_waiting frame) hreads fun s => ?_
  rcases script_intake.within_decodeFrame frame s with ⟨taken, hscript, hmade⟩
  rw [← handleFrame_snd, hreads, List.self_eq_append_left] at hscript
  rw [← handleFrame_snd, hscript, List.append_nil] at hmade
  exact hmade

theorem receiveNextApdu_takes :
    Takes (·.reads) (fun s => readsMade s.trace) (receiveNextApdu (L := L)) :=
  takes_repeatUntil (takes_bind receiveDecodedFrame_takes handleFrame_takes)

/-- A run of `ReceiveNextApdu`, with the frames it passed on to be decoded. -/
inductive Handles : State L → List L.Frame → Outcome ProfileStatus Unit × State L → Prop
  | failed {s s1 : State L} {status : ProfileStatus}
    (h : receiveDecodedFrame s = (.fail status, s1)) : Handles s [] (.fail status, s1)
  | blocked {s s1 : State L} (h : receiveDecodedFrame s = (.waiting, s1)) :
    Handles s [] (.waiting, s1)
  | refused {s s1 s2 : State L} {frame : L.Frame} {status : ProfileStatus}
    (h : receiveDecodedFrame s = (.done frame, s1))
    (hframe : handleFrame frame s1 = (.fail status, s2)) : Handles s [frame] (.fail status, s2)
  | filled {s s1 s2 : State L} {frame : L.Frame} (h : receiveDecodedFrame s = (.done frame, s1))
    (hframe : handleFrame frame s1 = (.done true, s2)) : Handles s [frame] (.done (), s2)
  | more {s s1 s2 : State L} {frame : L.Frame} {frames : List L.Frame}
    {r : Outcome ProfileStatus Unit × State L} (h : receiveDecodedFrame s = (.done frame, s1))
    (hframe : handleFrame frame s1 = (.done false, s2)) (hrest : Handles s2 frames r) :
    Handles s (frame :: frames) r

theorem receiveNextApdu_handles (s : State L) : ∃ frames, Handles s frames (receiveNextApdu s) := by
  -- By the turns. A turn that goes on has handled one frame before the others.
  refine Proc.repeatUntil_induct (fun s o s' => ∃ frames, Handles s frames (o, s')) ?_ ?_ ?_ ?_ s
  · intro s s1 status hturn
    rcases Proc.bind_fail_iff.mp hturn with h | ⟨frame, s2, h, hframe⟩
    · exact ⟨[], Handles.failed h⟩
    · exact ⟨[frame], Handles.refused h hframe⟩
  · intro s s1 hturn
    rcases Proc.bind_waiting_iff.mp hturn with h | ⟨frame, s2, -, hframe⟩
    · exact ⟨[], Handles.blocked h⟩
    · exact absurd (congrArg Prod.fst hframe) (handleFrame_ne_waiting frame s2)
  · intro s s1 hturn
    rcases Proc.bind_done_iff.mp hturn with ⟨frame, s2, h, hframe⟩
    exact ⟨[frame], Handles.filled h hframe⟩
  · rintro s s1 o s2 hturn ⟨frames, hrest⟩
    rcases Proc.bind_done_iff.mp hturn with ⟨frame, s3, h, hframe⟩
    exact ⟨frame :: frames, Handles.more h hframe hrest⟩

/-- The frames of a run were the next to come, in order and each of them once. -/
theorem Handles.incoming {s : State L} {frames : List L.Frame}
    {r : Outcome ProfileStatus Unit × State L} (h : Handles s frames r) :
    incoming s = frames ++ Hdlc.incoming r.2 := by
  -- Decoding a frame does not touch the frames to come.
  have hsame : ∀ {frame : L.Frame} {s1 s2 : State L} {o : Outcome ProfileStatus Bool},
      handleFrame frame s1 = (o, s2) → Hdlc.incoming s2 = Hdlc.incoming s1 := by
    intro frame s1 s2 o hframe
    have hintake := decodeFrame_sameIntake frame s1
    rw [← handleFrame_snd, hframe] at hintake
    exact hintake.incoming
  induction h with
  | @failed s s1 status h =>
      have hnext := receiveDecodedFrame_incoming s
      rwa [h] at hnext
  | @blocked s s1 h =>
      have hnext := receiveDecodedFrame_incoming s
      rwa [h] at hnext
  | refused h hframe => rw [receiveDecodedFrame_done h, hsame hframe, List.singleton_append]
  | filled h hframe => rw [receiveDecodedFrame_done h, hsame hframe, List.singleton_append]
  | more h hframe hrest ih =>
      rw [receiveDecodedFrame_done h, ← hsame hframe, ih, List.cons_append]

/-- `ReceiveNextApdu` ends with an APDU pending, so the loop around it runs once. -/
theorem awaitApdu_of_empty {s : State L} (hnone : s.pendingApdus = []) :
    awaitApdu s = receiveNextApdu s := by
  have hq : pending.apdus s = [] := hnone
  rcases hr : receiveNextApdu s with ⟨⟨⟩ | status | _, s1⟩
  · rcases Proc.repeatUntil_done hr with ⟨s0, hturn⟩
    rcases Proc.bind_done_iff.mp hturn with ⟨frame, s2, -, hframe⟩
    -- The loop inside ends well only with something in the queue, so it runs once.
    have hpending : pending.apdus s1 ≠ [] := by
      intro hnil
      have hempty : s1.pendingApdus = [] := hnil
      rcases hd : decodeFrameToPendingApdu frame s2 with ⟨⟨⟩ | status | _, s3⟩
      · rw [handleFrame_of_done hd] at hframe
        obtain ⟨hfull, rfl⟩ := Prod.mk.inj hframe
        rw [hempty] at hfull
        cases hfull
      · by_cases hmore : status = .needMoreData
        · rw [handleFrame_of_more (hmore ▸ hd)] at hframe
          cases hframe
        · rw [handleFrame_of_fail hd hmore] at hframe
          cases hframe
      · rw [handleFrame_of_waiting hd] at hframe
        cases hframe
    exact PendingQueue.await_of_filled hq hr hpending
  · exact PendingQueue.await_of_fail hq hr
  · exact PendingQueue.await_of_waiting hq hr

theorem awaitApdu_takes :
    Takes (·.reads) (fun s => readsMade s.trace) (awaitApdu (L := L)) :=
  PendingQueue.takes_await receiveNextApdu_takes

/-- The call does not get to the stream: its buffer is refused, or an APDU is
    pending. -/
def Served (r : ReceiveCall) (s : State L) : Prop :=
  (∃ output, r = .into output ∧ isValidMutableBuffer output = false) ∨ s.pendingApdus ≠ []

/-- The frames a call handled are those of its run of `ReceiveNextApdu`, if there
    was one. -/
def Handled (r : ReceiveCall) (s : State L) (frames : List L.Frame) : Prop :=
  (Served r s ∧ frames = []) ∨ (¬ Served r s ∧ Handles s frames (receiveNextApdu s))

theorem call_incoming (r : ReceiveCall) (s : State L) :
    ∃ frames, incoming s = frames ++ incoming ((channel L).call r s).2 ∧ Handled r s frames := by
  by_cases hrefused : ∃ output, r = .into output ∧ isValidMutableBuffer output = false
  · rcases hrefused with ⟨output, rfl, hv⟩
    have hcall : (channel L).call (.into output) s = (.into (.fail .invalidArgument) output, s) :=
      PendingQueue.call_of_invalid hv s
    exact ⟨[], by rw [hcall, List.nil_append], Or.inl ⟨Or.inl ⟨output, rfl, hv⟩, rfl⟩⟩
  have hv : ∀ output, r = .into output → isValidMutableBuffer output = true := fun output h =>
    eq_true_of_ne_false fun hv => hrefused ⟨output, h, hv⟩
  -- Taking an APDU out of its queue does not touch the frames to come.
  have hloop : incoming ((channel L).call r s).2 = incoming (awaitApdu s).2 := by
    have hcall : ((channel L).call r s).2 = (awaitApdu s).2 ∨
        ((channel L).call r s).2 = pending.pop (awaitApdu s).2 := PendingQueue.call_snd hv s
    rcases hcall with h | h <;> rw [h]
    rfl
  rw [hloop]
  by_cases hnone : s.pendingApdus = []
  · rcases receiveNextApdu_handles s with ⟨frames, hframes⟩
    rw [awaitApdu_of_empty hnone]
    refine ⟨frames, hframes.incoming, Or.inr ⟨?_, hframes⟩⟩
    rintro (h | h)
    · exact hrefused h
    · exact h hnone
  · have hserved : awaitApdu s = (.done (), s) := PendingQueue.await_of_pending hnone
    rw [hserved]
    exact ⟨[], rfl, Or.inl ⟨Or.inr hnone, rfl⟩⟩

end Hdlc

/-- Whatever the bytes, the decoders, the reassembler and the session answer, a
    receive call of the TCP channel and of the HDLC channel in either mode comes
    back once the stream has nothing to bring, made at most one read more than
    brought bytes, and handled no frame twice. -/
theorem receive_bounded (W : WrapperLib) (L : HdlcLib) (r : ReceiveCall) :
    (∀ s : Tcp.State W, Bounded (Tcp.channel W) (fun s => readsOf s.calls) Tcp.pending.apdus
      Tcp.incoming Tcp.Handled r s) ∧
    (∀ s : Hdlc.State L, Bounded (Hdlc.channel L) (fun s => Hdlc.readsMade s.trace)
      Hdlc.pending.apdus Hdlc.incoming Hdlc.Handled r s) :=
  ⟨PendingQueue.bounded (PendingQueue.takes_await Tcp.receiveNextFrame_takes)
      (fun _ hp => PendingQueue.await_of_pending hp) (fun _ => rfl) (fun _ => rfl)
      Tcp.call_incoming r,
    PendingQueue.bounded Hdlc.awaitApdu_takes
      (fun _ hp => PendingQueue.await_of_pending hp) (fun _ => rfl) (fun _ => rfl)
      Hdlc.call_incoming r⟩

end DlmsProfile
