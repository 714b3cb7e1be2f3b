import DlmsProfile.Hdlc.Channel

/-!
# Receiving over HDLC

The receive loop is the other consumer of decoded frames. It passes a frame
through the reassembler first, shows the session only what the reassembler let
through, and keeps what that carried.

The loop may turn many times inside one call, since a segment, a supervisory
frame and a payload that is too short to decode all mean going on. It ends
because each turn takes a frame off `incoming`, the frames still to be handed
out, and the frames in a finite number of reads are finitely many.

## Main definitions

* `Hdlc.incoming`: The frames a state will hand out if nothing is reset.
* `Hdlc.decodeFrameToPendingApdu`: What becomes of a frame.
* `Hdlc.readInformation`, `Hdlc.Decodes`: What becomes of an information field.
* `Hdlc.receiveNextApdu`: `ReceiveNextApdu`.
* `Hdlc.receiveApdu`, `Hdlc.receiveApduInto`: The two overloads of `ReceiveApdu`.
* `Hdlc.exec`, `Hdlc.run`: One call of any kind, and any number of them.
* `Hdlc.Reachable`: A channel operated on in any order over any stream.

## Theorems

* `Hdlc.receiveDecodedFrame_done`: A frame handed out was the next to come.
* `Hdlc.acceptCompleted_cases`, `Hdlc.decodeFrame_cases`,
  `Hdlc.decodeFrame_plain_cases`: Everything that can become of a frame.
* `Hdlc.receiveTurn_incoming_lt`: The receive loop ends.
-/

namespace DlmsProfile

namespace Hdlc

variable {L : HdlcLib}

/-- The frames a decoder will complete over a script of reads, a rejected
    push completing none. -/
def decodedAhead (L : HdlcLib) : L.Decoder → List ReadEvent → List L.Frame
  | _, [] => []
  | decoder, e :: rest =>
    if e.status ≠ .ok ∨ e.bytes = [] then decodedAhead L decoder rest
    else
      let pushed := L.push decoder e.bytes
      if mapHdlcStatus pushed.1 = .ok then pushed.2.1 ++ decodedAhead L pushed.2.2 rest
      else if mapHdlcStatus pushed.1 = .needMoreData then decodedAhead L pushed.2.2 rest
      else decodedAhead L (L.resetDecoder pushed.2.2) rest

/-- The frames a state will hand out if nothing is reset: those decoded, then
    those to be decoded. -/
def incoming (s : State L) : List L.Frame :=
  s.pendingHdlcFrames ++ decodedAhead L s.decoder s.reads

section Ahead

variable {decoder : L.Decoder} {e : ReadEvent} {rest : List ReadEvent}

theorem decodedAhead_skip (h : e.status ≠ .ok ∨ e.bytes = []) :
    decodedAhead L decoder (e :: rest) = decodedAhead L decoder rest := by
  rw [decodedAhead, if_pos h]

theorem decodedAhead_completed (h : e.status = .ok) (he : e.bytes ≠ [])
    (hp : mapHdlcStatus (L.push decoder e.bytes).1 = .ok) :
    decodedAhead L decoder (e :: rest) =
      (L.push decoder e.bytes).2.1 ++ decodedAhead L (L.push decoder e.bytes).2.2 rest := by
  rw [decodedAhead, if_neg (not_or.mpr ⟨not_not.mpr h, he⟩)]
  exact if_pos hp

theorem decodedAhead_continued (h : e.status = .ok) (he : e.bytes ≠ [])
    (hm : mapHdlcStatus (L.push decoder e.bytes).1 = .needMoreData) :
    decodedAhead L decoder (e :: rest) = decodedAhead L (L.push decoder e.bytes).2.2 rest := by
  have hp : mapHdlcStatus (L.push decoder e.bytes).1 ≠ .ok := by
    rw [hm]
    simp only [ne_eq, reduceCtorEq, not_false_eq_true]
  rw [decodedAhead, if_neg (not_or.mpr ⟨not_not.mpr h, he⟩)]
  exact (if_neg hp).trans (if_pos hm)

theorem decodedAhead_rejected (h : e.status = .ok) (he : e.bytes ≠ [])
    (hp : mapHdlcStatus (L.push decoder e.bytes).1 ≠ .ok)
    (hm : mapHdlcStatus (L.push decoder e.bytes).1 ≠ .needMoreData) :
    decodedAhead L decoder (e :: rest) =
      decodedAhead L (L.resetDecoder (L.push decoder e.bytes).2.2) rest := by
  rw [decodedAhead, if_neg (not_or.mpr ⟨not_not.mpr h, he⟩)]
  exact (if_neg hp).trans (if_neg hm)

end Ahead

section Loop

variable {e : ReadEvent} {rest : List ReadEvent} {s : State L}

theorem loop_readFailed (h : e.status ≠ .ok) :
    receiveDecodedFrameLoop (e :: rest) s =
      (.fail (mapTransportStatus e.status), afterRead e rest s) := by
  have hne : mapTransportStatus e.status ≠ .ok := fun hc => h (mapTransportStatus_eq_ok.mp hc)
  simp only [receiveDecodedFrameLoop]
  rw [if_pos hne]

theorem loop_readEmpty (h : e.status = .ok) (he : e.bytes = []) :
    receiveDecodedFrameLoop (e :: rest) s = (.fail .needMoreData, afterRead e rest s) := by
  have hok : ¬ mapTransportStatus e.status ≠ .ok := fun hc => hc (mapTransportStatus_eq_ok.mpr h)
  simp only [receiveDecodedFrameLoop]
  rw [if_neg hok, if_pos he]

theorem loop_noFrame (h : e.status = .ok) (he : e.bytes ≠ [])
    (hp : mapHdlcStatus (L.push s.decoder e.bytes).1 = .ok)
    (hf : (L.push s.decoder e.bytes).2.1 = []) :
    receiveDecodedFrameLoop (e :: rest) s = (.fail .needMoreData,
      { afterRead e rest s with decoder := (L.push s.decoder e.bytes).2.2 }) := by
  have hok : ¬ mapTransportStatus e.status ≠ .ok := fun hc => hc (mapTransportStatus_eq_ok.mpr h)
  simp only [receiveDecodedFrameLoop]
  rw [if_neg hok, if_neg he, if_pos hp, hf]

theorem loop_completed {frame : L.Frame} {frames : List L.Frame} (h : e.status = .ok)
    (he : e.bytes ≠ []) (hp : mapHdlcStatus (L.push s.decoder e.bytes).1 = .ok)
    (hf : (L.push s.decoder e.bytes).2.1 = frame :: frames) :
    receiveDecodedFrameLoop (e :: rest) s = (.done frame, { afterRead e rest s with
      decoder := (L.push s.decoder e.bytes).2.2
      pendingHdlcFrames := s.pendingHdlcFrames ++ frames }) := by
  have hok : ¬ mapTransportStatus e.status ≠ .ok := fun hc => hc (mapTransportStatus_eq_ok.mpr h)
  simp only [receiveDecodedFrameLoop]
  rw [if_neg hok, if_neg he, if_pos hp, hf]

theorem loop_rejected (h : e.status = .ok) (he : e.bytes ≠ [])
    (hp : mapHdlcStatus (L.push s.decoder e.bytes).1 ≠ .ok)
    (hm : mapHdlcStatus (L.push s.decoder e.bytes).1 ≠ .needMoreData) :
    receiveDecodedFrameLoop (e :: rest) s =
      (.fail (mapHdlcStatus (L.push s.decoder e.bytes).1), { afterRead e rest s with
        decoder := L.resetDecoder (L.push s.decoder e.bytes).2.2 }) := by
  have hok : ¬ mapTransportStatus e.status ≠ .ok := fun hc => hc (mapTransportStatus_eq_ok.mpr h)
  simp only [receiveDecodedFrameLoop]
  rw [if_neg hok, if_neg he, if_neg hp, if_pos hm]

theorem loop_continued (h : e.status = .ok) (he : e.bytes ≠ [])
    (hm : mapHdlcStatus (L.push s.decoder e.bytes).1 = .needMoreData) :
    receiveDecodedFrameLoop (e :: rest) s = receiveDecodedFrameLoop rest
      { afterRead e rest s with decoder := (L.push s.decoder e.bytes).2.2 } := by
  have hok : ¬ mapTransportStatus e.status ≠ .ok := fun hc => hc (mapTransportStatus_eq_ok.mpr h)
  have hp : mapHdlcStatus (L.push s.decoder e.bytes).1 ≠ .ok := by
    rw [hm]
    simp only [ne_eq, reduceCtorEq, not_false_eq_true]
  conv_lhs => simp only [receiveDecodedFrameLoop]
  rw [if_neg hok, if_neg he, if_neg hp, if_neg (not_not.mpr hm)]

end Loop

/-- What a run of the loop does: it hands over the next frame to come, or the
    frames to come are as they were. -/
theorem receiveDecodedFrameLoop_incoming (reads : List ReadEvent) (s : State L)
    (hreads : s.reads = reads) (hp : s.pendingHdlcFrames = []) :
    incoming s = (receiveDecodedFrameLoop reads s).1.toList ++
      incoming (receiveDecodedFrameLoop reads s).2 := by
  -- On the reads, with `decodedAhead` following the loop from branch to branch.
  induction reads generalizing s with
  | nil => simp only [receiveDecodedFrameLoop, incoming, hreads, Outcome.toList, List.nil_append]
  | cons e rest ih =>
      by_cases hok : e.status = .ok
      swap
      · rw [loop_readFailed hok, incoming, hreads, decodedAhead_skip (Or.inl hok)]
        rfl
      by_cases he : e.bytes = []
      · rw [loop_readEmpty hok he, incoming, hreads, decodedAhead_skip (Or.inr he)]
        rfl
      by_cases hst : mapHdlcStatus (L.push s.decoder e.bytes).1 = .ok
      · rcases hf : (L.push s.decoder e.bytes).2.1 with _ | ⟨frame, frames⟩
        · rw [loop_noFrame hok he hst hf, incoming, hreads, decodedAhead_completed hok he hst, hf]
          rfl
        · rw [loop_completed hok he hst hf, incoming, hreads, decodedAhead_completed hok he hst, hf,
            hp]
          rfl
      by_cases hm : mapHdlcStatus (L.push s.decoder e.bytes).1 = .needMoreData
      · have hrest := ih
          { afterRead e rest s with decoder := (L.push s.decoder e.bytes).2.2 } rfl hp
        rw [loop_continued hok he hm, ← hrest, incoming, hreads, decodedAhead_continued hok he hm]
        rfl
      · rw [loop_rejected hok he hst hm, incoming, hreads, decodedAhead_rejected hok he hst hm]
        rfl

theorem receiveDecodedFrame_of_pending {s : State L} {frame : L.Frame} {frames : List L.Frame}
    (h : s.pendingHdlcFrames = frame :: frames) :
    receiveDecodedFrame s = (.done frame, { s with pendingHdlcFrames := frames }) := by
  rw [receiveDecodedFrame]
  split <;> simp_all only [List.cons.injEq, reduceCtorEq]

theorem receiveDecodedFrame_of_empty {s : State L} (h : s.pendingHdlcFrames = [])
    (hb : s.readBufferSize ≠ 0) : receiveDecodedFrame s = receiveDecodedFrameLoop s.reads s := by
  rw [receiveDecodedFrame]
  split
  · simp_all only [reduceCtorEq]
  · rw [if_neg hb]

theorem receiveDecodedFrame_of_noBuffer {s : State L} (h : s.pendingHdlcFrames = [])
    (hb : s.readBufferSize = 0) : receiveDecodedFrame s = (.fail .invalidArgument, s) := by
  rw [receiveDecodedFrame]
  split
  · simp_all only [reduceCtorEq]
  · rw [if_pos hb]

/-- A call of `ReceiveDecodedFrame` hands over the next frame to come, or the
    frames to come are as they were. -/
theorem receiveDecodedFrame_incoming (s : State L) :
    incoming s = (receiveDecodedFrame s).1.toList ++ incoming (receiveDecodedFrame s).2 := by
  rcases hp : s.pendingHdlcFrames with _ | ⟨frame, frames⟩
  · by_cases hb : s.readBufferSize = 0
    · rw [receiveDecodedFrame_of_noBuffer hp hb]
      rfl
    · rw [receiveDecodedFrame_of_empty hp hb]
      exact receiveDecodedFrameLoop_incoming s.reads s rfl hp
  · rw [receiveDecodedFrame_of_pending hp]
    simp only [incoming, hp, Outcome.toList, List.cons_append, List.nil_append]

/-- A frame handed out was the next to come. -/
theorem receiveDecodedFrame_done {s s' : State L} {frame : L.Frame}
    (h : receiveDecodedFrame s = (.done frame, s')) : incoming s = frame :: incoming s' := by
  have hs := receiveDecodedFrame_incoming s
  rwa [h] at hs

/-- `DecodeCompleteInformationToPendingApdu`. -/
def decodeCompleteInformationToPendingApdu (frame : L.Frame) : Call L Unit := fun s =>
  let decoded := L.decodeLpdu frame.information false
  let refused (status : ProfileStatus) : Outcome ProfileStatus Unit × State L :=
    (.fail status, { s with trace := s.trace ++ [.refuse frame.information status] })
  if mapLlcStatus decoded.1 ≠ .ok then refused (mapLlcStatus decoded.1)
  else if s.options.maximumApduSize ≠ 0 ∧ s.options.maximumApduSize < decoded.2.length then
    refused .payloadTooLarge
  else
    (.done (), { s with
      pendingApdus := s.pendingApdus ++ [decoded.2]
      trace := s.trace ++ [.queue frame.information decoded.2] })

/-- What `DecodeFrameToPendingApdu` does with a frame the reassembler has let
    through: the session judges it, and a payload is decoded and answered. -/
def acceptCompleted (completed : L.Frame) (hasCompleted : Bool) : Call L Unit := do
  sessionReceive completed
  if !hasCompleted || completed.information.isEmpty then pure ()
  else
    decodeCompleteInformationToPendingApdu completed
    sendSessionReceiveReady true

/-- `DecodeFrameToPendingApdu`. -/
def decodeFrameToPendingApdu (frame : L.Frame) : Call L Unit := fun s =>
  if s.options.hdlcUseSession = false then
    if frame.segmented then (.fail .unsupportedFeature, s)
    else decodeCompleteInformationToPendingApdu frame s
  else
    let pushed := L.pushFrame s.reassembler frame
    let status := mapHdlcStatus pushed.1
    if status = .needMoreData then
      (.fail .needMoreData, { s with reassembler := pushed.2.2 })
    else if status ≠ .ok then
      (.fail status, { s with reassembler := L.resetReassembler pushed.2.2 })
    else acceptCompleted pushed.2.1.1 pushed.2.1.2 { s with reassembler := pushed.2.2 }

/-- What the loop of `ReceiveNextApdu` does with a frame, and whether it was the
    last: `NeedMoreData` continues, whatever its reason. -/
def handleFrame (frame : L.Frame) : Call L Bool := fun s =>
  match decodeFrameToPendingApdu frame s with
  | (.done (), s1) => (.done (!s1.pendingApdus.isEmpty), s1)
  | (.waiting, s1) => (.waiting, s1)
  | (.fail status, s1) =>
    if status = .needMoreData then (.done false, s1) else (.fail status, s1)

section Handle

variable {frame : L.Frame} {s s1 : State L} {status : ProfileStatus}

theorem handleFrame_of_done (h : decodeFrameToPendingApdu frame s = (.done (), s1)) :
    handleFrame frame s = (.done (!s1.pendingApdus.isEmpty), s1) := by
  simp only [handleFrame, h]

theorem handleFrame_of_waiting (h : decodeFrameToPendingApdu frame s = (.waiting, s1)) :
    handleFrame frame s = (.waiting, s1) := by
  simp only [handleFrame, h]

theorem handleFrame_of_more (h : decodeFrameToPendingApdu frame s = (.fail .needMoreData, s1)) :
    handleFrame frame s = (.done false, s1) := by
  simp only [handleFrame, h, if_true]

theorem handleFrame_of_fail (h : decodeFrameToPendingApdu frame s = (.fail status, s1))
    (hne : status ≠ .needMoreData) : handleFrame frame s = (.fail status, s1) := by
  simp only [handleFrame, h, if_neg hne]

theorem handleFrame_snd (frame : L.Frame) (s : State L) :
    (handleFrame frame s).2 = (decodeFrameToPendingApdu frame s).2 := by
  rcases hd : decodeFrameToPendingApdu frame s with ⟨⟨⟩ | status | _, s1⟩
  · rw [handleFrame_of_done hd]
  · by_cases hne : status = .needMoreData
    · rw [handleFrame_of_more (hne ▸ hd)]
    · rw [handleFrame_of_fail hd hne]
  · rw [handleFrame_of_waiting hd]

end Handle

/-- One turn of the loop of `ReceiveNextApdu`. -/
def receiveTurn : Call L Bool := do
  let frame ← receiveDecodedFrame
  handleFrame frame

/-- The intake of a channel, from the stream to the frame queue, and what never
    changes about it, are as they were. -/
structure SameIntake (s s' : State L) : Prop where
  options : s'.options = s.options
  buffer : s'.readBufferSize = s.readBufferSize
  decoder : s'.decoder = s.decoder
  frames : s'.pendingHdlcFrames = s.pendingHdlcFrames
  reads : s'.reads = s.reads

namespace SameIntake

theorem refl (s : State L) : SameIntake s s := ⟨rfl, rfl, rfl, rfl, rfl⟩

theorem trans (a b c : State L) (h : SameIntake a b) (h' : SameIntake b c) : SameIntake a c :=
  ⟨h'.options.trans h.options, h'.buffer.trans h.buffer, h'.decoder.trans h.decoder,
    h'.frames.trans h.frames, h'.reads.trans h.reads⟩

theorem incoming {s s' : State L} (h : SameIntake s s') : incoming s' = incoming s := by
  rw [Hdlc.incoming, Hdlc.incoming, h.decoder, h.frames, h.reads]

end SameIntake

theorem checked_snd {α : Type} (result : HdlcStatus × α) (s : State L) :
    (checked result s).2 = s := by
  rw [checked]
  split <;> rfl

theorem checked_done {α : Type} {result : HdlcStatus × α} {s s' : State L} {a : α}
    (h : checked result s = (.done a, s')) : result = (.ok, a) ∧ s' = s := by
  rw [checked] at h
  split at h
  · next hok =>
      obtain ⟨ha, rfl⟩ := Prod.mk.inj h
      exact ⟨Prod.ext (mapHdlcStatus_eq_ok.mp hok) (Outcome.done.inj ha), rfl⟩
  · cases h

theorem sessionBuild_done {build : L.Session → HdlcStatus × List UInt8 × L.Session}
    {s s' : State L} {bytes : List UInt8} (h : sessionBuild build s = (.done bytes, s')) :
    ∃ σ', build s.session = (.ok, bytes, σ') ∧ s' = { s with session := σ' } := by
  rcases checked_done h with ⟨hresult, rfl⟩
  obtain ⟨hok, hbytes⟩ := Prod.mk.inj hresult
  exact ⟨_, Prod.ext hok (Prod.ext hbytes rfl), rfl⟩

theorem sessionBuild_snd (build : L.Session → HdlcStatus × List UInt8 × L.Session)
    (s : State L) :
    (sessionBuild build s).2 = { s with session := (build s.session).2.2 } := checked_snd _ _

/-- A frame the session builds. -/
theorem sessionBuild_of_ok {build : L.Session → HdlcStatus × List UInt8 × L.Session}
    {s : State L} (h : (build s.session).1 = .ok) : sessionBuild build s =
      (.done (build s.session).2.1, { s with session := (build s.session).2.2 }) :=
  if_pos (mapHdlcStatus_eq_ok.mpr h)

/-- A frame the session does not build. -/
theorem sessionBuild_of_ne {build : L.Session → HdlcStatus × List UInt8 × L.Session}
    {s : State L} (h : (build s.session).1 ≠ .ok) : sessionBuild build s =
      (.fail (mapHdlcStatus (build s.session).1),
        { s with session := (build s.session).2.2 }) :=
  if_neg fun hc => h (mapHdlcStatus_eq_ok.mp hc)

theorem sessionReceive_snd (frame : L.Frame) (s : State L) : (sessionReceive frame s).2 =
    { s with
      session := (L.receiveFrame s.session frame).2
      trace := s.trace ++
        [.receive s.session frame (L.receiveFrame s.session frame).1] } := check_snd _ _

theorem writeFrameBytes_snd (bytes : List UInt8) (s : State L) : (writeFrameBytes bytes s).2 =
    { s with
      writes := s.writes.tail
      trace := s.trace ++
        [.transport (.write bytes (s.writes.headD .ok))] } := check_snd _ _

theorem checked_sameIntake {α : Type} (result : HdlcStatus × α) :
    Proc.Within SameIntake (checked (L := L) result) := by
  intro s
  rw [checked_snd]
  exact SameIntake.refl s

theorem sessionBuild_sameIntake (build : L.Session → HdlcStatus × List UInt8 × L.Session) :
    Proc.Within SameIntake (sessionBuild build) := by
  intro s
  rw [sessionBuild_snd]
  exact ⟨rfl, rfl, rfl, rfl, rfl⟩

theorem sessionReceive_sameIntake (frame : L.Frame) :
    Proc.Within SameIntake (sessionReceive frame) := by
  intro s
  rw [sessionReceive_snd]
  exact ⟨rfl, rfl, rfl, rfl, rfl⟩

theorem writeFrameBytes_sameIntake (frameBytes : List UInt8) :
    Proc.Within SameIntake (writeFrameBytes (L := L) frameBytes) := by
  intro s
  rw [writeFrameBytes_snd]
  exact ⟨rfl, rfl, rfl, rfl, rfl⟩

theorem sleepBeforeRetry_sameIntake : Proc.Within SameIntake (sleepBeforeRetry (L := L)) := by
  intro s
  rw [sleepBeforeRetry]
  split
  · exact SameIntake.refl s
  · rw [check_snd]
    exact ⟨rfl, rfl, rfl, rfl, rfl⟩

theorem decodeComplete_sameIntake (frame : L.Frame) :
    Proc.Within SameIntake (decodeCompleteInformationToPendingApdu frame) := by
  intro s
  simp only [decodeCompleteInformationToPendingApdu]
  split
  · exact ⟨rfl, rfl, rfl, rfl, rfl⟩
  split <;> exact ⟨rfl, rfl, rfl, rfl, rfl⟩

/-- The RR as the session builds it is written, or the session does not build it. -/
theorem sendSessionReceiveReady_cases (pollFinal : Bool) (s : State L) :
    let built := L.buildReceiveReadyFrame s.session pollFinal
    (built.1 ≠ .ok ∧ sendSessionReceiveReady pollFinal s =
        (.fail (mapHdlcStatus built.1), { s with session := built.2.2 })) ∨
      (built.1 = .ok ∧ sendSessionReceiveReady pollFinal s =
        writeFrameBytes built.2.1 { s with session := built.2.2 }) := by
  intro built
  -- The RR is built and written, or could not be built.
  by_cases hok : built.1 = .ok
  · have hbuild : sessionBuild (fun session => L.buildReceiveReadyFrame session pollFinal) s =
        (.done built.2.1, { s with session := built.2.2 }) := sessionBuild_of_ok hok
    exact Or.inr ⟨hok, Proc.bind_of_done _ hbuild⟩
  · have hbuild : sessionBuild (fun session => L.buildReceiveReadyFrame session pollFinal) s =
        (.fail (mapHdlcStatus built.1), { s with session := built.2.2 }) := sessionBuild_of_ne hok
    exact Or.inl ⟨hok, Proc.bind_of_fail _ hbuild⟩

theorem sendSessionReceiveReady_of_built {pollFinal : Bool} {s : State L}
    (h : (L.buildReceiveReadyFrame s.session pollFinal).1 = .ok) :
    sendSessionReceiveReady pollFinal s =
      writeFrameBytes (L.buildReceiveReadyFrame s.session pollFinal).2.1
        { s with session := (L.buildReceiveReadyFrame s.session pollFinal).2.2 } := by
  rcases sendSessionReceiveReady_cases pollFinal s with ⟨hne, -⟩ | ⟨-, hwrite⟩
  · exact absurd h hne
  · exact hwrite

theorem sendSessionReceiveReady_sameIntake (pollFinal : Bool) :
    Proc.Within SameIntake (sendSessionReceiveReady (L := L) pollFinal) :=
  Proc.within_bind SameIntake.trans (sessionBuild_sameIntake _) writeFrameBytes_sameIntake

theorem acceptCompleted_sameIntake (completed : L.Frame) (hasCompleted : Bool) :
    Proc.Within SameIntake (acceptCompleted completed hasCompleted) := by
  refine Proc.within_bind SameIntake.trans (sessionReceive_sameIntake completed) fun _ => ?_
  split
  · exact Proc.within_pure SameIntake.refl ()
  · exact Proc.within_bind SameIntake.trans (decodeComplete_sameIntake completed) fun _ =>
      sendSessionReceiveReady_sameIntake true

theorem decodeFrame_sameIntake (frame : L.Frame) :
    Proc.Within SameIntake (decodeFrameToPendingApdu frame) := by
  intro s
  simp only [decodeFrameToPendingApdu]
  -- No branch reads, and none touches the decoder or the frames in hand.
  split
  · split
    · exact SameIntake.refl s
    · exact decodeComplete_sameIntake frame s
  split
  · exact ⟨rfl, rfl, rfl, rfl, rfl⟩
  split
  · exact ⟨rfl, rfl, rfl, rfl, rfl⟩
  · have hset : SameIntake s
        { s with reassembler := (L.pushFrame s.reassembler frame).2.2 } :=
      ⟨rfl, rfl, rfl, rfl, rfl⟩
    exact SameIntake.trans _ _ _ hset (acceptCompleted_sameIntake _ _ _)

/-- The state once the session has judged a frame. -/
def judged (frame : L.Frame) (s : State L) : State L :=
  { s with
    session := (L.receiveFrame s.session frame).2
    trace := s.trace ++ [.receive s.session frame (L.receiveFrame s.session frame).1] }

/-- The state once an information field was refused. -/
def refusing (information : List UInt8) (status : ProfileStatus) (s : State L) : State L :=
  { s with trace := s.trace ++ [.refuse information status] }

/-- The state once the APDU of an information field is in the queue. -/
def queueing (information apdu : List UInt8) (s : State L) : State L :=
  { s with
    pendingApdus := s.pendingApdus ++ [apdu]
    trace := s.trace ++ [.queue information apdu] }

/-- What a channel with the given options makes of an information field: the
    APDU in it, or why there is none. -/
def readInformation (L : HdlcLib) (options : ApduChannelOptions) (information : List UInt8) :
    Except ProfileStatus (List UInt8) :=
  let decoded := L.decodeLpdu information false
  if mapLlcStatus decoded.1 ≠ .ok then .error (mapLlcStatus decoded.1)
  else if options.maximumApduSize ≠ 0 ∧ options.maximumApduSize < decoded.2.length then
    .error .payloadTooLarge
  else .ok decoded.2

/-- Only an LPDU cut short leaves more to come. -/
theorem readInformation_needMoreData {options : ApduChannelOptions} {info : List UInt8} :
    readInformation L options info = .error .needMoreData ↔
      mapLlcStatus (L.decodeLpdu info false).1 = .needMoreData := by
  simp only [readInformation]
  constructor
  · intro h
    split at h
    · exact Except.error.inj h
    · -- What decodes may still be too large, which is another status.
      split at h <;> cases h
  · intro h
    have hne : mapLlcStatus (L.decodeLpdu info false).1 ≠ .ok := by
      rw [h]
      simp only [ne_eq, reduceCtorEq, not_false_eq_true]
    rw [if_pos hne, h]

/-- What is made of an information field is what the LLC library makes of it: the
    APDU it decodes to, or the status of the library, unless the APDU is too large. -/
def Decodes (L : HdlcLib) (information : List UInt8) :
    Except ProfileStatus (List UInt8) → Prop
  | .ok apdu => L.decodeLpdu information false = (.ok, apdu)
  | .error status => (L.decodeLpdu information false).1 ≠ .ok ∧
      status = mapLlcStatus (L.decodeLpdu information false).1 ∨
    (L.decodeLpdu information false).1 = .ok ∧ status = .payloadTooLarge

theorem decodes_of_read {options : ApduChannelOptions} {information : List UInt8}
    {made : Except ProfileStatus (List UInt8)}
    (h : readInformation L options information = made) : Decodes L information made := by
  rw [← h, readInformation]
  by_cases hllc : mapLlcStatus (L.decodeLpdu information false).1 = .ok
  · have hok := mapLlcStatus_eq_ok.mp hllc
    rw [if_neg (not_not.mpr hllc)]
    split
    · exact Or.inr ⟨hok, rfl⟩
    · exact Prod.ext hok rfl
  · rw [if_pos hllc]
    exact Or.inl ⟨fun hc => hllc (mapLlcStatus_eq_ok.mpr hc), rfl⟩

theorem sessionReceive_eq (frame : L.Frame) (s : State L) :
    sessionReceive frame s =
      check (mapHdlcStatus (L.receiveFrame s.session frame).1) (judged frame s) := rfl

theorem decodeComplete_of_error {frame : L.Frame} {s : State L} {status : ProfileStatus}
    (h : readInformation L s.options frame.information = .error status) :
    decodeCompleteInformationToPendingApdu frame s =
      (.fail status, refusing frame.information status s) := by
  simp only [readInformation] at h
  simp only [decodeCompleteInformationToPendingApdu]
  -- The LLC header is wrong, or the APDU is too large.
  split at h
  · next hllc =>
      rw [if_pos hllc, Except.error.inj h]
      rfl
  next hllc =>
  split at h
  · next hsize =>
      rw [if_neg hllc, if_pos hsize, Except.error.inj h]
      rfl
  · cases h

theorem decodeComplete_of_ok {frame : L.Frame} {s : State L} {apdu : List UInt8}
    (h : readInformation L s.options frame.information = .ok apdu) :
    decodeCompleteInformationToPendingApdu frame s =
      (.done (), queueing frame.information apdu s) := by
  simp only [readInformation] at h
  simp only [decodeCompleteInformationToPendingApdu]
  -- Both checks are passed.
  split at h
  · cases h
  next hllc =>
  split at h
  · cases h
  next hsize =>
    rw [if_neg hllc, if_neg hsize, Except.ok.inj h]
    rfl

/-- Everything that can become of a frame the reassembler has let through. -/
theorem acceptCompleted_cases (completed : L.Frame) (hasCompleted : Bool) (s : State L) :
    -- The session rejects it.
    ((L.receiveFrame s.session completed).1 ≠ .ok ∧
      acceptCompleted completed hasCompleted s =
        (.fail (mapHdlcStatus (L.receiveFrame s.session completed).1), judged completed s)) ∨
    -- It carries nothing.
    ((L.receiveFrame s.session completed).1 = .ok ∧
      (hasCompleted = false ∨ completed.information = []) ∧
      acceptCompleted completed hasCompleted s = (.done (), judged completed s)) ∨
    -- What it carries is refused.
    ((L.receiveFrame s.session completed).1 = .ok ∧ hasCompleted = true ∧
      completed.information ≠ [] ∧
      ∃ status, readInformation L s.options completed.information = .error status ∧
        acceptCompleted completed hasCompleted s =
          (.fail status, refusing completed.information status (judged completed s))) ∨
    -- What it carries is queued and acknowledged.
    ((L.receiveFrame s.session completed).1 = .ok ∧ hasCompleted = true ∧
      completed.information ≠ [] ∧
      ∃ apdu, readInformation L s.options completed.information = .ok apdu ∧
        acceptCompleted completed hasCompleted s =
          sendSessionReceiveReady true
            (queueing completed.information apdu (judged completed s))) := by
  by_cases hok : (L.receiveFrame s.session completed).1 = .ok
  swap
  · have hne : mapHdlcStatus (L.receiveFrame s.session completed).1 ≠ .ok := fun hc =>
      hok (mapHdlcStatus_eq_ok.mp hc)
    have hreceive := (sessionReceive_eq completed s).trans (check_of_ne hne _)
    exact Or.inl ⟨hok, Proc.bind_of_fail _ hreceive⟩
  have hreceive : sessionReceive completed s = (.done (), judged completed s) := by
    rw [sessionReceive_eq, mapHdlcStatus_eq_ok.mpr hok, check_ok]
  have hrest : acceptCompleted completed hasCompleted s =
      (if !hasCompleted || completed.information.isEmpty then pure ()
      else do
        decodeCompleteInformationToPendingApdu completed
        sendSessionReceiveReady true : Call L Unit) (judged completed s) :=
    Proc.bind_of_done _ hreceive
  by_cases hskip : hasCompleted = false ∨ completed.information = []
  · have hcond : (!hasCompleted || completed.information.isEmpty) = true := by
      simpa only [Bool.or_eq_true, Bool.not_eq_true', List.isEmpty_iff] using hskip
    rw [if_pos hcond] at hrest
    exact Or.inr (Or.inl ⟨hok, hskip, hrest⟩)
  have hcond : ¬ (!hasCompleted || completed.information.isEmpty) = true := by
    simpa only [Bool.or_eq_true, Bool.not_eq_true', List.isEmpty_iff] using hskip
  rw [if_neg hcond] at hrest
  rw [not_or, Bool.not_eq_false] at hskip
  refine Or.inr (Or.inr ?_)
  rcases hread : readInformation L s.options completed.information with status | apdu
  · exact Or.inl ⟨hok, hskip.1, hskip.2, status, rfl,
      hrest.trans (Proc.bind_of_fail _ (decodeComplete_of_error hread))⟩
  · exact Or.inr ⟨hok, hskip.1, hskip.2, apdu, rfl,
      hrest.trans (Proc.bind_of_done _ (decodeComplete_of_ok hread))⟩

/-- The state with another reassembler. -/
def reassembling (r : L.Reassembler) (s : State L) : State L := { s with reassembler := r }

/-- Everything that can become of a frame in session mode. -/
theorem decodeFrame_cases (frame : L.Frame) {s : State L} (huse : s.options.hdlcUseSession = true) :
    -- A segment is kept for the rest of its run.
    (mapHdlcStatus (L.pushFrame s.reassembler frame).1 = .needMoreData ∧
      decodeFrameToPendingApdu frame s =
        (.fail .needMoreData, reassembling (L.pushFrame s.reassembler frame).2.2 s)) ∨
    -- The reassembler refuses it and starts again.
    (mapHdlcStatus (L.pushFrame s.reassembler frame).1 ≠ .needMoreData ∧
      (L.pushFrame s.reassembler frame).1 ≠ .ok ∧
      decodeFrameToPendingApdu frame s =
        (.fail (mapHdlcStatus (L.pushFrame s.reassembler frame).1),
          reassembling (L.resetReassembler (L.pushFrame s.reassembler frame).2.2) s)) ∨
    -- It is let through, alone or with the segments before it.
    ((L.pushFrame s.reassembler frame).1 = .ok ∧
      decodeFrameToPendingApdu frame s =
        acceptCompleted (L.pushFrame s.reassembler frame).2.1.1
          (L.pushFrame s.reassembler frame).2.1.2
          (reassembling (L.pushFrame s.reassembler frame).2.2 s)) := by
  have huse' : ¬ s.options.hdlcUseSession = false := fun h => Bool.false_ne_true (h.symm.trans huse)
  simp only [decodeFrameToPendingApdu]
  rw [if_neg huse']
  by_cases hmore : mapHdlcStatus (L.pushFrame s.reassembler frame).1 = .needMoreData
  · rw [if_pos hmore]
    exact Or.inl ⟨hmore, rfl⟩
  rw [if_neg hmore]
  by_cases hok : (L.pushFrame s.reassembler frame).1 = .ok
  · rw [if_neg (not_not.mpr (mapHdlcStatus_eq_ok.mpr hok))]
    exact Or.inr (Or.inr ⟨hok, rfl⟩)
  · rw [if_pos fun hc => hok (mapHdlcStatus_eq_ok.mp hc)]
    exact Or.inr (Or.inl ⟨hmore, hok, rfl⟩)

section Pushed

variable {frame : L.Frame} {s : State L}

theorem decodeFrame_of_more (huse : s.options.hdlcUseSession = true)
    (hmore : mapHdlcStatus (L.pushFrame s.reassembler frame).1 = .needMoreData) :
    decodeFrameToPendingApdu frame s =
      (.fail .needMoreData, reassembling (L.pushFrame s.reassembler frame).2.2 s) := by
  rcases decodeFrame_cases frame huse with ⟨-, h⟩ | ⟨hne, -, -⟩ | ⟨hok, -⟩
  · exact h
  · exact absurd hmore hne
  · rw [hok] at hmore
    cases hmore

theorem decodeFrame_of_error {status : ProfileStatus} (huse : s.options.hdlcUseSession = true)
    (hstatus : mapHdlcStatus (L.pushFrame s.reassembler frame).1 = status)
    (hnot : status ≠ .ok) (hmore : status ≠ .needMoreData) :
    decodeFrameToPendingApdu frame s = (.fail status,
      reassembling (L.resetReassembler (L.pushFrame s.reassembler frame).2.2) s) := by
  rcases decodeFrame_cases frame huse with ⟨h, -⟩ | ⟨-, -, h⟩ | ⟨hok, -⟩
  · exact absurd (hstatus.symm.trans h) hmore
  · rw [h, hstatus]
  · exact absurd (hstatus.symm.trans (mapHdlcStatus_eq_ok.mpr hok)) hnot

theorem decodeFrame_of_ok (huse : s.options.hdlcUseSession = true)
    (hok : (L.pushFrame s.reassembler frame).1 = .ok) :
    decodeFrameToPendingApdu frame s =
      acceptCompleted (L.pushFrame s.reassembler frame).2.1.1
        (L.pushFrame s.reassembler frame).2.1.2
        (reassembling (L.pushFrame s.reassembler frame).2.2 s) := by
  rcases decodeFrame_cases frame huse with ⟨hmore, -⟩ | ⟨-, hne, -⟩ | ⟨-, h⟩
  · rw [hok] at hmore
    cases hmore
  · exact absurd hok hne
  · exact h

end Pushed

/-- Everything that can become of a frame without a session. -/
theorem decodeFrame_plain_cases (frame : L.Frame) {s : State L}
    (huse : ¬ s.options.hdlcUseSession = true) :
    -- There is nothing to put a segment together with.
    (frame.segmented = true ∧
      decodeFrameToPendingApdu frame s = (.fail .unsupportedFeature, s)) ∨
    -- What it carries is refused.
    (frame.segmented = false ∧ ∃ status,
      readInformation L s.options frame.information = .error status ∧
      decodeFrameToPendingApdu frame s = (.fail status, refusing frame.information status s)) ∨
    -- What it carries is queued.
    (frame.segmented = false ∧ ∃ apdu,
      readInformation L s.options frame.information = .ok apdu ∧
      decodeFrameToPendingApdu frame s = (.done (), queueing frame.information apdu s)) := by
  simp only [decodeFrameToPendingApdu]
  rw [if_pos (Bool.not_eq_true _ ▸ huse)]
  by_cases hseg : frame.segmented = true
  · rw [if_pos hseg]
    exact Or.inl ⟨hseg, rfl⟩
  rw [if_neg hseg]
  rcases hread : readInformation L s.options frame.information with status | apdu
  · exact Or.inr (Or.inl ⟨Bool.not_eq_true _ ▸ hseg, status, rfl, decodeComplete_of_error hread⟩)
  · exact Or.inr (Or.inr ⟨Bool.not_eq_true _ ▸ hseg, apdu, rfl, decodeComplete_of_ok hread⟩)

/-- A turn that does not end the call used up a frame to come. -/
theorem receiveTurn_incoming_lt {s s' : State L} {b : Bool}
    (h : receiveTurn s = (.done b, s')) : (incoming s').length < (incoming s).length := by
  rcases Proc.bind_done_iff.mp h with ⟨frame, s1, hframe, hrest⟩
  have hsame := decodeFrame_sameIntake frame s1
  rw [← handleFrame_snd, hrest] at hsame
  rw [receiveDecodedFrame_done hframe, List.length_cons, hsame.incoming]
  exact Nat.lt_succ_self _

/-- `ReceiveNextApdu`. -/
def receiveNextApdu : Call L Unit :=
  Proc.repeatUntil (fun s => (incoming s).length) receiveTurn fun _ _ => receiveTurn_incoming_lt

theorem receiveNextApdu_incoming_lt {s s' : State L}
    (h : receiveNextApdu s = (.done (), s')) : (incoming s').length < (incoming s).length := by
  have hall : (receiveNextApdu s).1 = .done () →
      (incoming (receiveNextApdu s).2).length < (incoming s).length :=
    Proc.repeatUntil_induct
      (fun s o s' => o = .done () → (incoming s').length < (incoming s).length)
      (fun _ _ _ _ ho => by cases ho) (fun _ _ _ ho => by cases ho)
      (fun _ _ hb _ => receiveTurn_incoming_lt hb)
      (fun _ _ _ _ hb ih ho => (ih ho).trans (receiveTurn_incoming_lt hb)) s
  rw [h] at hall
  exact hall rfl

/-- `pendingApdus_`, as the queue the receive calls take their APDUs from. -/
def pending : PendingQueue (State L) where
  apdus s := s.pendingApdus
  pop s := { s with pendingApdus := s.pendingApdus.tail }
  apdus_pop _ := rfl

/-- `while (pendingApdus_.empty())`, common to both overloads. -/
def awaitApdu : Call L Unit :=
  pending.await (fun s => (incoming s).length) receiveNextApdu
    fun _ _ => receiveNextApdu_incoming_lt

/-- `ReceiveApdu` into a vector. -/
def receiveApdu : Call L (List UInt8) := pending.receiveVector awaitApdu

/-- `CopyFirstPendingApdu`. -/
def copyFirstPendingApdu (output : ProfileMutableBuffer) (consume : Bool) (s : State L) :
    (Outcome ProfileStatus Unit × ProfileMutableBuffer) × State L :=
  pending.copyFirst output consume s

/-- `ReceiveApdu` into a caller's buffer. -/
def receiveApduInto (output : ProfileMutableBuffer) (s : State L) :
    (Outcome ProfileStatus Unit × ProfileMutableBuffer) × State L :=
  pending.receiveBuffer awaitApdu output s

/-- The receiving half of the channel. -/
@[reducible] def channel (L : HdlcLib) : ApduChannel where
  State := State L
  receiveApdu := receiveApdu
  receiveApduInto := receiveApduInto
  reads := fun s => s.reads

/-- A call of the channel. -/
inductive Operation where
  | open
  | close
  | isOpen
  | connectDataLink
  | acceptDataLink
  | disconnectDataLink
  | send (apdu : ProfileByteView)
  | receive (call : ReceiveCall)

/-- What a call gave back. -/
inductive Result where
  | status (outcome : Outcome ProfileStatus Unit)
  | flag (outcome : Outcome ProfileStatus Bool)
  | received (answer : Answer)
deriving DecidableEq, Repr

/-- One call of any kind. -/
def exec (op : Operation) (s : State L) : Result × State L :=
  match op with
  | .open => (.status (openStream s).1, (openStream s).2)
  | .close => (.status (closeStream s).1, (closeStream s).2)
  | .isOpen => (.flag (isOpen s).1, (isOpen s).2)
  | .connectDataLink => (.status (connectDataLink s).1, (connectDataLink s).2)
  | .acceptDataLink => (.status (acceptDataLink s).1, (acceptDataLink s).2)
  | .disconnectDataLink => (.status (disconnectDataLink s).1, (disconnectDataLink s).2)
  | .send apdu => (.status (sendApdu apdu s).1, (sendApdu apdu s).2)
  | .receive call => (.received ((channel L).call call s).1, ((channel L).call call s).2)

/-- The call has not returned. -/
def Result.isWaiting : Result → Bool
  | .status .waiting => true
  | .flag .waiting => true
  | .received answer => answer.isWaiting
  | _ => false

/-- Calls in order, and what each gave back. A call that does not return is the
    last. -/
def run : List Operation → State L → List Result × State L
  | [], s => ([], s)
  | op :: ops, s =>
    if (exec op s).1.isWaiting then ([(exec op s).1], (exec op s).2)
    else ((exec op s).1 :: (run ops (exec op s).2).1, (run ops (exec op s).2).2)

/-- A channel constructed with the options and operated on in any order over
    any stream and timer. -/
def Reachable (L : HdlcLib) (options : ApduChannelOptions) (s : State L) : Prop :=
  ∃ (start : State L) (ops : List Operation),
    start.toChannel = newChannel L options ∧ start.trace = [] ∧ (run ops start).2 = s

end Hdlc

end DlmsProfile
