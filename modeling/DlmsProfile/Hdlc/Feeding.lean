import DlmsProfile.Hdlc.Hearing

/-!
# Feeding a Peer

`ReceiveApdu` of a connected channel on the I-frames of one APDU, told turn by turn.
A segment is collected and nothing else comes of it. The frame that is no segment
completes the run, and the session is shown the whole under one number, so that
V(R) moves by one however many frames there were. That number is the first or the
last of the run, which is the expected one only if the peer was in step at that
place.

## Main definitions

* `Hdlc.Fed`: The frames a channel is handed one after the other.
* `Hdlc.Attends`, `Hdlc.Ready`: A connected channel between two APDUs.
* `Hdlc.Collects`: Segments were collected, and nothing else happened.
* `Hdlc.AcceptsEach`: Frames were shown to the session and accepted.
* `Hdlc.Proceeds`, `Hdlc.RepliesReady`: An APDU was taken, and its RR written.
* `Hdlc.Bears`: The frames of one LPDU, numbered from the first to the last.

## Theorems

* `Hdlc.receiveNextApdu_segments`: Segments are collected.
* `Hdlc.decodeFrame_completes`, `Hdlc.acceptCompleted_whole`: What becomes of the whole.
* `Hdlc.receiveApdu_fed`: What one call makes of the frames of one LPDU.
-/

namespace DlmsProfile

namespace Hdlc

variable {L : HdlcLib}

/-- What `ReceiveDecodedFrame` hands out depends on the intake alone. -/
theorem receiveDecodedFrameLoop_agree (reads : List ReadEvent) :
    Proc.Agree SameIntake (receiveDecodedFrameLoop (L := L) reads)
      (receiveDecodedFrameLoop reads) := by
  -- The branches test the read, the decoder and the limits only, on which the two states agree.
  induction reads with
  | nil =>
      intro s t h
      exact ⟨rfl, h.options, h.buffer, h.decoder, h.frames, rfl⟩
  | cons e rest ih =>
      intro s t h
      simp only [receiveDecodedFrameLoop, h.decoder, h.frames]
      split
      · exact ⟨rfl, h.options, h.buffer, h.decoder, h.frames, rfl⟩
      split
      · exact ⟨rfl, h.options, h.buffer, h.decoder, h.frames, rfl⟩
      split
      · split
        · exact ⟨rfl, h.options, h.buffer, rfl, h.frames, rfl⟩
        · exact ⟨rfl, h.options, h.buffer, rfl, rfl, rfl⟩
      split
      · exact ⟨rfl, h.options, h.buffer, rfl, h.frames, rfl⟩
      -- NeedMoreData: both loops read on, with the decoder they pushed the same bytes into.
      · exact ih _ _ ⟨h.options, h.buffer, rfl, h.frames, rfl⟩

theorem receiveDecodedFrame_agree :
    Proc.Agree SameIntake (receiveDecodedFrame (L := L)) receiveDecodedFrame := by
  intro s t h
  unfold receiveDecodedFrame
  -- A frame left over from an earlier read is taken first, in both states alike.
  rw [h.frames, h.reads]
  split
  · exact ⟨rfl, h.options, h.buffer, h.decoder, rfl, rfl⟩
  rw [h.buffer]
  split
  · exact ⟨rfl, h⟩
  · exact receiveDecodedFrameLoop_agree _ _ _ h

/-- Reading leaves the answers to writes alone. -/
theorem receiveDecodedFrameLoop_writes (reads : List ReadEvent) (s : State L) :
    (receiveDecodedFrameLoop reads s).2.writes = s.writes := by
  -- No branch of the loop writes: each stops, or reads the next bytes.
  induction reads generalizing s with
  | nil => rfl
  | cons e rest ih =>
      simp only [receiveDecodedFrameLoop]
      split
      · rfl
      split
      · rfl
      split
      · split <;> rfl
      split
      · rfl
      · exact ih _

theorem receiveDecodedFrame_writes (s : State L) :
    (receiveDecodedFrame s).2.writes = s.writes := by
  rw [receiveDecodedFrame]
  split
  · rfl
  split
  · rfl
  · exact receiveDecodedFrameLoop_writes _ s

/-- The frames are handed out one after the other, and then none is to come. -/
def Fed : List L.Frame → State L → Prop
  | [], s => incoming s = []
  | frame :: frames, s => ∃ s', receiveDecodedFrame s = (.done frame, s') ∧ Fed frames s'

theorem Fed.of_sameIntake {frames : List L.Frame} {s t : State L} (h : SameIntake s t)
    (hs : Fed frames s) : Fed frames t := by
  induction frames generalizing s t with
  | nil => exact h.incoming.trans hs
  | cons frame frames ih =>
      rcases hs with ⟨s', hframe, hrest⟩
      -- The frame comes off the shared intake, so `t` yields the same one and stays alike.
      rcases receiveDecodedFrame_agree s t h with ⟨hout, hafter⟩
      rw [hframe] at hout hafter
      exact ⟨(receiveDecodedFrame t).2, Prod.ext hout.symm rfl, ih hafter hrest⟩

/-- Frames that stand in the queue already, with nothing more to read. -/
theorem fed_pending {s : State L} (hreads : s.reads = []) : Fed s.pendingHdlcFrames s := by
  generalize hp : s.pendingHdlcFrames = frames
  induction frames generalizing s with
  | nil => rw [Fed, incoming, hp, hreads]; rfl
  | cons frame frames ih =>
      refine ⟨_, receiveDecodedFrame_of_pending hp, ?_⟩
      exact ih (s := { s with pendingHdlcFrames := frames }) hreads rfl

section Receive

variable {law : HdlcSessionLaw L} {collects : HdlcReassemblerLaw L}

/-- A connected channel with nothing outstanding and nothing queued, and a stream
    that takes what is written. -/
structure Attends (law : HdlcSessionLaw L) (s : State L) : Prop where
  session : s.options.hdlcUseSession = true
  connected : L.Connected s.session
  settled : law.va s.session = law.vs s.session
  pending : s.pendingApdus = []
  writes : ∀ status ∈ s.writes, status = .ok

/-- Such a channel between two APDUs: nothing is collected. -/
structure Ready (law : HdlcSessionLaw L) (collects : HdlcReassemblerLaw L) (s : State L) : Prop
    extends Attends law s where
  collected : collects.collected s.reassembler = []

/-- Segments were collected, and nothing else happened. -/
structure Collects (collects : HdlcReassemblerLaw L) (taken : List L.Frame) (s s' : State L) :
    Prop where
  options : s'.options = s.options
  session : s'.session = s.session
  apdus : s'.pendingApdus = s.pendingApdus
  writes : s'.writes = s.writes
  collected : collects.collected s'.reassembler = collects.collected s.reassembler ++ taken
  reads : ∃ reads : List ReadEvent, s'.trace = s.trace ++ reads.map fun e => .transport (.read e)

theorem Collects.refl (s : State L) : Collects collects [] s s :=
  ⟨rfl, rfl, rfl, rfl, (List.append_nil _).symm, [], (List.append_nil _).symm⟩

theorem Collects.trans {a b c : State L} {taken taken' : List L.Frame}
    (h : Collects collects taken a b) (h' : Collects collects taken' b c) :
    Collects collects (taken ++ taken') a c := by
  rcases h.reads with ⟨reads, htrace⟩
  rcases h'.reads with ⟨reads', htrace'⟩
  refine ⟨h'.options.trans h.options, h'.session.trans h.session, h'.apdus.trans h.apdus,
    h'.writes.trans h.writes, ?_, reads ++ reads', ?_⟩
  · rw [h'.collected, h.collected, List.append_assoc]
  · rw [htrace', htrace, List.map_append, List.append_assoc]

theorem Collects.events {s s' : State L} {taken : List L.Frame} (h : Collects collects taken s s') :
    ∃ events, s'.trace = s.trace ++ events ∧ ∀ e ∈ events, e.isAside := by
  rcases h.reads with ⟨reads, htrace⟩
  refine ⟨_, htrace, fun e he => ?_⟩
  rcases List.mem_map.mp he with ⟨read, -, rfl⟩
  trivial

/-- One segment is collected, and the loop goes on. -/
theorem receiveTurn_segment (collects : HdlcReassemblerLaw L) {frame : L.Frame} {s s1 : State L}
    (huse : s.options.hdlcUseSession = true) (hframe : receiveDecodedFrame s = (.done frame, s1))
    (hkind : L.frameKind frame.control = .information) (hseg : frame.segmented = true) :
    ∃ s', receiveTurn s = (.done false, s') ∧ SameIntake s1 s' ∧
      Collects collects [frame] s s' := by
  have haside := receiveDecodedFrame_aside s
  have hwrites := receiveDecodedFrame_writes s
  rw [hframe] at haside hwrites
  have huse' : s1.options.hdlcUseSession = true := haside.options ▸ huse
  -- The reassembler keeps a segmented frame and asks for more, so nothing is decoded yet.
  rcases collects.segment (r := s1.reassembler) hkind hseg with ⟨hmore, hcollected⟩
  refine ⟨reassembling (L.pushFrame s1.reassembler frame).2.2 s1, ?_,
    ⟨rfl, rfl, rfl, rfl, rfl⟩, ?_⟩
  · rw [receiveTurn, Proc.bind_of_done _ hframe]
    -- This is the turn that writes no RR: NeedMoreData leaves before the reply.
    exact handleFrame_of_more (decodeFrame_of_more huse' hmore)
  · refine ⟨haside.options, haside.session, haside.apdus, hwrites, ?_, ?_⟩
    · rw [← haside.reassembler]
      exact hcollected
    · rcases receiveDecodedFrame_readsOnly s with ⟨reads, -, htrace⟩
      rw [hframe] at htrace
      exact ⟨reads, htrace⟩

/-- Segments are collected, one turn each. -/
theorem receiveNextApdu_segments (collects : HdlcReassemblerLaw L)
    {segments rest : List L.Frame} {s : State L}
    (huse : s.options.hdlcUseSession = true) (hfed : Fed (segments ++ rest) s)
    (hall : ∀ frame ∈ segments, L.frameKind frame.control = .information ∧
      frame.segmented = true) :
    ∃ s', Collects collects segments s s' ∧ Fed rest s' ∧
      receiveNextApdu s = receiveNextApdu s' := by
  -- By induction on the segments: each is a turn that does not finish the loop.
  induction segments generalizing s with
  | nil => exact ⟨s, Collects.refl s, hfed, rfl⟩
  | cons frame segments ih =>
      rcases hfed with ⟨s1, hframe, hfed⟩
      rcases hall frame List.mem_cons_self with ⟨hkind, hseg⟩
      rcases receiveTurn_segment collects huse hframe hkind hseg with
        ⟨s2, hturn, hsame, hone⟩
      rcases ih (hone.options ▸ huse) (hfed.of_sameIntake hsame)
        (fun f hf => hall f (List.mem_cons_of_mem _ hf)) with ⟨s3, hmore, hrest, hloop⟩
      refine ⟨s3, hone.trans hmore, hrest, ?_⟩
      rw [← hloop, receiveNextApdu, Proc.repeatUntil_of_false hturn]

/-- The frames shown to the session, each by its control and information field, and
    what the session said of it. -/
def judgements (events : List (Event L)) : List (L.Control × List UInt8 × HdlcStatus) :=
  events.filterMap fun
    | .receive _ frame status => some (frame.control, frame.information, status)
    | _ => none

theorem judgements_append (a b : List (Event L)) :
    judgements (a ++ b) = judgements a ++ judgements b :=
  List.filterMap_append

theorem judgements_of_aside {events : List (Event L)} (h : ∀ e ∈ events, e.isAside) :
    judgements events = [] := by
  refine List.filterMap_eq_nil_iff.mpr fun e he => ?_
  have haside := h e he
  cases e <;> first | rfl | exact haside.elim

/-- The frames were shown to the session one after the other, no other was, and it
    accepted each of them. -/
def AcceptsEach (frames : List L.Frame) (s s' : State L) : Prop :=
  ∃ events, s'.trace = s.trace ++ events ∧
    judgements events = frames.map fun frame => (frame.control, frame.information, .ok)

/-- What came of a frame, or of a call, that took an APDU: the session accepted the whole,
    and V(R) has moved by one. -/
structure Proceeds (law : HdlcSessionLaw L) (whole : L.Frame) (s s' : State L) : Prop where
  options : s'.options = s.options
  connected : L.Connected s'.session
  settled : law.va s'.session = law.vs s'.session
  sent : law.vs s'.session = law.vs s.session
  received : law.vr s'.session = law.vr s.session + 1
  writes : ∀ status ∈ s'.writes, status = .ok
  accepted : AcceptsEach [whole] s s'

/-- The next write succeeds. -/
theorem headD_ok {writes : List TransportStatus} (h : ∀ status ∈ writes, status = .ok) :
    writes.headD .ok = .ok := by
  cases writes with
  | nil => rfl
  | cons status rest => exact h status List.mem_cons_self

theorem sendSessionReceiveReady_done (law : HdlcSessionLaw L) {s : State L}
    (hσ : L.Connected s.session) (hwrites : ∀ status ∈ s.writes, status = .ok) :
    ∃ s', sendSessionReceiveReady true s = (.done (), s') ∧ L.Connected s'.session ∧
      law.vs s'.session = law.vs s.session ∧ law.vr s'.session = law.vr s.session ∧
      law.va s'.session = law.va s.session ∧ s'.reassembler = s.reassembler ∧
      s'.pendingApdus = s.pendingApdus ∧ s'.writes = s.writes.tail ∧
      s'.trace = s.trace ++
        [.transport (.write (L.buildReceiveReadyFrame s.session true).2.1 .ok)] := by
  rcases law.receiveReady true hσ with ⟨hok, hσ', hvs, hvr, hva⟩
  -- The RR is one write, answered with the first status of the script.
  have hstatus : s.writes.headD .ok = .ok := headD_ok hwrites
  refine ⟨{ s with
      session := (L.buildReceiveReadyFrame s.session true).2.2
      writes := s.writes.tail
      trace := s.trace ++
        [.transport (.write (L.buildReceiveReadyFrame s.session true).2.1 .ok)] },
    ?_, hσ', hvs, hvr, hva, rfl, rfl, rfl, rfl⟩
  rw [sendSessionReceiveReady_of_built hok, writeFrameBytes, hstatus, check_done_iff]
  exact ⟨rfl, rfl⟩

/-- The stream takes the next write, and those after it. -/
theorem writes_tail {s : State L} (h : ∀ status ∈ s.writes, status = .ok) :
    ∀ status ∈ s.writes.tail, status = .ok := fun status hs => h status (List.mem_of_mem_tail hs)

/-- The RR of a session that expects `number` was written, and nothing else. -/
def RepliesReady (law : HdlcSessionLaw L) (number : Fin 8) (s s' : State L) : Prop :=
  ∃ σ events, L.Connected σ ∧ law.vr σ = number ∧ s'.trace = s.trace ++ events ∧
    written events = [((L.buildReceiveReadyFrame σ true).2.1, .ok)]

/-- What the session makes of a whole that acknowledges all there is to acknowledge:
    under the expected number its payload is queued and answered, under any other it
    is rejected. -/
theorem acceptCompleted_whole (law : HdlcSessionLaw L) {completed : L.Frame}
    {apdu : List UInt8} {s : State L} (hσ : L.Connected s.session)
    (hsettled : law.va s.session = law.vs s.session)
    (hwrites : ∀ status ∈ s.writes, status = .ok)
    (hkind : L.frameKind completed.control = .information)
    (hnr : law.receiveSequence completed.control = law.vs s.session)
    (hinfo : completed.information ≠ [])
    (hread : readInformation L s.options completed.information = .ok apdu) :
    (law.sendSequence completed.control = law.vr s.session ∧
      ∃ s', acceptCompleted completed true s = (.done (), s') ∧ Proceeds law completed s s' ∧
        s'.reassembler = s.reassembler ∧ s'.pendingApdus = s.pendingApdus ++ [apdu] ∧
        RepliesReady law (law.vr s.session + 1) s s') ∨
    (law.sendSequence completed.control ≠ law.vr s.session ∧
      (L.receiveFrame s.session completed).1 ≠ .ok ∧ acceptCompleted completed true s =
        (.fail (mapHdlcStatus (L.receiveFrame s.session completed).1), judged completed s)) := by
  -- With N(R) as expected and V(A) = V(S), acceptance is N(S) = V(R) and nothing else.
  have haccepts : (L.receiveFrame s.session completed).1 = .ok ↔
      law.sendSequence completed.control = law.vr s.session := by
    rw [law.accepts hσ (numbered_of_information hkind), hkind, hnr, hsettled]
    simp
  rcases acceptCompleted_cases completed true s with
    ⟨hne, h⟩ | ⟨-, hskip, -⟩ | ⟨-, -, -, status, herror, -⟩ | ⟨hok, -, -, apdu', hread', h⟩
  · exact Or.inr ⟨fun hnumber => hne (haccepts.mpr hnumber), hne, h⟩
  -- An empty field would be skipped; this one is not empty.
  · rcases hskip with hskip | hskip
    · cases hskip
    · exact absurd hskip hinfo
  · rw [hread] at herror
    cases herror
  rw [hread] at hread'
  obtain rfl := Except.ok.inj hread'
  have haccepted := law.accepted hσ (numbered_of_information hkind) (Prod.ext hok rfl)
  rw [if_pos hkind, hnr] at haccepted
  rcases haccepted with ⟨hσ', hvs, hva, hvr⟩
  have hqueued : L.Connected
      (queueing completed.information apdu (judged completed s)).session := hσ'
  have hwrites' : ∀ status ∈
      (queueing completed.information apdu (judged completed s)).writes, status = .ok := hwrites
  rcases sendSessionReceiveReady_done law hqueued hwrites' with
    ⟨s', hreply, hσ'', hvs', hvr', hva', hr, hp, hw, htrace⟩
  have hoptions : s'.options = s.options := by
    have hsame := sendSessionReceiveReady_sameIntake true
      (queueing completed.information apdu (judged completed s))
    rw [hreply] at hsame
    exact hsame.options
  -- What the branch does in order: judge, queue, answer.
  have hevents : s'.trace = s.trace ++
      [.receive s.session completed (L.receiveFrame s.session completed).1,
        .queue completed.information apdu, .transport (.write (L.buildReceiveReadyFrame
          (L.receiveFrame s.session completed).2 true).2.1 .ok)] := by
    rw [htrace]
    simp only [queueing, judged, List.append_assoc, List.cons_append, List.nil_append]
  refine Or.inl ⟨haccepts.mp hok, s', h.trans hreply, ⟨hoptions, hσ'', ?_, hvs'.trans hvs,
    hvr'.trans hvr, ?_, _, hevents, ?_⟩, hr, hp, _, _, hσ', hvr, hevents, rfl⟩
  · rw [hva', hvs']
    exact hva.trans hvs.symm
  · rw [hw]
    exact writes_tail hwrites'
  · rw [hok]
    rfl

/-- The frames of one LPDU: segments and one frame that is none, numbered from `k`
    on. -/
structure Bears (law : HdlcSessionLaw L) (k : Fin 8) (segments : List L.Frame)
    (last : L.Frame) : Prop where
  information : ∀ frame ∈ segments ++ [last], L.frameKind frame.control = .information
  segmented : ∀ frame ∈ segments, frame.segmented = true
  whole : last.segmented = false
  first : law.sendSequence (segments.headD last).control = k
  final : law.sendSequence last.control = k + Fin.ofNat 8 segments.length

variable {k : Fin 8} {segments rest : List L.Frame} {last : L.Frame} {apdu : List UInt8}
  {s : State L}

/-- A frame that is no segment completes the run, and the session is shown the whole,
    under the control field of the first or of the last frame. -/
theorem decodeFrame_completes (huse : s.options.hdlcUseSession = true)
    (hcollected : collects.collected s.reassembler = segments)
    (hkind : L.frameKind last.control = .information) (hwhole : last.segmented = false) :
    ∃ completed r, decodeFrameToPendingApdu last s =
        acceptCompleted completed true (reassembling r s) ∧
      completed.information = (segments ++ [last]).flatMap (·.information) ∧
      (completed.control = last.control ∨
        completed.control = (segments.headD last).control) ∧
      collects.collected r = [] := by
  -- The last frame completes what the reassembler had collected.
  have hlast := collects.last (r := s.reassembler) hkind hwhole
  rw [hcollected] at hlast
  rcases hlast with ⟨hok, hcompleted, hinfo, hcontrol, hempty⟩
  refine ⟨_, _, ?_, hinfo, hcontrol, hempty⟩
  have h := decodeFrame_of_ok huse hok
  rwa [hcompleted] at h

/-- What the session accepts of the frames of an LPDU: one of them alone as it is. -/
def WholeOf (segments : List L.Frame) (last whole : L.Frame) : Prop :=
  segments = [] → whole.control = last.control ∧ whole.information = last.information

/-- What becomes of the last frame of an LPDU. It is taken if the session expects the
    number of the first and of the last frame, and only if it expects one of them. -/
theorem decodeFrame_last (verdict : HdlcVerdictLaw L) (hs : Attends law s)
    (hcollected : collects.collected s.reassembler = segments)
    (hbears : Bears law k segments last)
    (hnr : ∀ frame ∈ segments ++ [last], law.receiveSequence frame.control = law.vs s.session)
    (hinfo : (segments ++ [last]).flatMap (·.information) ≠ [])
    (hread : readInformation L s.options ((segments ++ [last]).flatMap (·.information)) =
      .ok apdu) :
    (∃ whole s', decodeFrameToPendingApdu last s = (.done (), s') ∧ Proceeds law whole s s' ∧
        WholeOf segments last whole ∧
        collects.collected s'.reassembler = [] ∧ s'.pendingApdus = [apdu] ∧
        (law.vr s.session = k ∨ law.vr s.session = k + Fin.ofNat 8 segments.length)) ∨
      (∃ status s', decodeFrameToPendingApdu last s = (.fail status, s') ∧
          status ≠ .needMoreData) ∧
        ¬ (law.vr s.session = k ∧ law.vr s.session = k + Fin.ofNat 8 segments.length) := by
  have hmem : last ∈ segments ++ [last] := List.mem_append_right _ List.mem_cons_self
  have hcompletes := decodeFrame_completes hs.session hcollected
    (hbears.information last hmem) hbears.whole
  rcases hcompletes with ⟨completed, r, hdecode, hwhole, hcontrol, hempty⟩
  -- The whole bears the control field of the first or of the last frame.
  have hbearer : ∃ frame ∈ segments ++ [last], completed.control = frame.control ∧
      (law.sendSequence frame.control = k ∨
        law.sendSequence frame.control = k + Fin.ofNat 8 segments.length) := by
    rcases hcontrol with hc | hc
    · exact ⟨last, hmem, hc, Or.inr hbears.final⟩
    · refine ⟨segments.headD last, ?_, hc, Or.inl hbears.first⟩
      cases segments with
      | nil => exact List.mem_cons_self
      | cons first segments => exact List.mem_cons_self
  rcases hbearer with ⟨bearer, hbearer, hc, hnumber⟩
  have hkind : L.frameKind completed.control = .information := by
    rw [hc]
    exact hbears.information bearer hbearer
  have hnr' : law.receiveSequence completed.control = law.vs s.session := by
    rw [hc]
    exact hnr bearer hbearer
  have hread' : readInformation L s.options completed.information = .ok apdu := hwhole ▸ hread
  have hjudged := acceptCompleted_whole (s := reassembling r s) law hs.connected hs.settled
    hs.writes hkind hnr' (hwhole ▸ hinfo) hread'
  rw [hdecode]
  rcases hjudged with ⟨hexpected, s', hdone, hproceeds, hr, hp, -⟩ | ⟨hexpected, -, hfail⟩
  · refine Or.inl ⟨completed, s', hdone, ?_, ?_, ?_, ?_, ?_⟩
    · exact ⟨hproceeds.options, hproceeds.connected, hproceeds.settled, hproceeds.sent,
        hproceeds.received, hproceeds.writes, hproceeds.accepted⟩
    · rintro rfl
      exact ⟨hcontrol.elim id id, hwhole.trans (List.append_nil _)⟩
    · rw [hr]
      exact hempty
    · rw [hp]
      simp only [reassembling, hs.pending, List.nil_append]
    · rw [hc] at hexpected
      exact hnumber.imp hexpected.symm.trans hexpected.symm.trans
  · refine Or.inr ⟨⟨_, _, hfail, verdict.whole _ _⟩, fun hboth => hexpected ?_⟩
    rw [hc]
    rcases hnumber with hn | hn
    · exact hn.trans hboth.1.symm
    · exact hn.trans hboth.2.symm

/-- Reading a frame leaves a channel that attends attending. -/
theorem Attends.receiveDecodedFrame (hs : Attends law s) :
    Attends law (receiveDecodedFrame s).2 := by
  have haside := receiveDecodedFrame_aside s
  refine ⟨haside.options ▸ hs.session, haside.session ▸ hs.connected, ?_, ?_, ?_⟩
  · rw [haside.session]
    exact hs.settled
  · exact haside.apdus.trans hs.pending
  · rw [receiveDecodedFrame_writes]
    exact hs.writes

theorem Collects.attends {taken : List L.Frame} {s' : State L} (h : Collects collects taken s s')
    (hs : Attends law s) : Attends law s' := by
  refine ⟨h.options ▸ hs.session, h.session ▸ hs.connected, ?_, h.apdus.trans hs.pending, ?_⟩
  · rw [h.session]
    exact hs.settled
  · rw [h.writes]
    exact hs.writes

/-- What went before a frame was taken, the session looking on. -/
theorem Proceeds.after {whole : L.Frame} {s1 s' : State L} (h : Proceeds law whole s1 s')
    (ho : s1.options = s.options) (hσ : s1.session = s.session)
    (hev : ∃ events, s1.trace = s.trace ++ events ∧ ∀ e ∈ events, e.isAside) :
    Proceeds law whole s s' := by
  -- The events before are asides: they judge no frame, so the judgements are unchanged.
  rcases hev with ⟨before, hbefore, haside⟩
  rcases h.accepted with ⟨events, htrace, hall⟩
  refine ⟨h.options.trans ho, h.connected, h.settled, ?_, ?_, h.writes, before ++ events, ?_, ?_⟩
  · rw [h.sent, hσ]
  · rw [h.received, hσ]
  · rw [htrace, hbefore, List.append_assoc]
  · rw [judgements_append, judgements_of_aside haside, List.nil_append]
    exact hall

/-- What one call makes of the frames of one LPDU. It returns their APDU if the session
    expects the number of the first and of the last frame, and only if it expects one of
    them. -/
theorem receiveApdu_fed (verdict : HdlcVerdictLaw L) (hs : Ready law collects s)
    (hbears : Bears law k segments last)
    (hnr : ∀ frame ∈ segments ++ [last], law.receiveSequence frame.control = law.vs s.session)
    (hinfo : (segments ++ [last]).flatMap (·.information) ≠ [])
    (hread : readInformation L s.options ((segments ++ [last]).flatMap (·.information)) =
      .ok apdu)
    (hfed : Fed (segments ++ last :: rest) s) :
    (∃ whole s', receiveApdu s = (.done apdu, s') ∧ Proceeds law whole s s' ∧
        WholeOf segments last whole ∧ Ready law collects s' ∧ Fed rest s' ∧
        (law.vr s.session = k ∨ law.vr s.session = k + Fin.ofNat 8 segments.length)) ∨
      (∃ status s', receiveApdu s = (.fail status, s')) ∧
        ¬ (law.vr s.session = k ∧ law.vr s.session = k + Fin.ofNat 8 segments.length) := by
  have hall : ∀ frame ∈ segments, L.frameKind frame.control = .information ∧
      frame.segmented = true := fun frame hmem =>
    ⟨hbears.information frame (List.mem_append_left _ hmem), hbears.segmented frame hmem⟩
  -- The segments are taken in first; what is left of the call starts at the last frame.
  rcases receiveNextApdu_segments collects hs.session hfed hall with
    ⟨s1, hcollects, ⟨s2, hframe, hrest⟩, hloop⟩
  have hs1 : Attends law s1 := hcollects.attends hs.toAttends
  have haside := receiveDecodedFrame_aside s1
  have hs2 := hs1.receiveDecodedFrame
  rw [hframe] at haside hs2
  have hcollected : collects.collected s2.reassembler = segments := by
    rw [haside.reassembler, hcollects.collected, hs.collected, List.nil_append]
  have hσ : s2.session = s.session := haside.session.trans hcollects.session
  have ho : s2.options = s.options := haside.options.trans hcollects.options
  -- The whole frame is judged once, by the number of the first or of the last segment.
  have hlast := decodeFrame_last verdict hs2 hcollected hbears (hσ.symm ▸ hnr) hinfo
    (ho.symm ▸ hread)
  rw [hσ] at hlast
  rcases hlast with
    ⟨whole, s3, hdecode, hproceeds, hbearer, hempty, hqueue, hnumber⟩ |
    ⟨⟨status, s3, hdecode, hne⟩, hnot⟩
  -- Accepted: the queue holds the APDU, so the loop ends and the call pops it.
  · have hsome : (!s3.pendingApdus.isEmpty) = true := by
      rw [hqueue]
      rfl
    have hturn : receiveTurn s1 = (.done true, s3) := by
      rw [receiveTurn, Proc.bind_of_done _ hframe, handleFrame_of_done hdecode, hsome]
    have hnext : receiveNextApdu s = (.done (), s3) := by
      rw [hloop, receiveNextApdu, Proc.repeatUntil_of_true hturn]
    have hfilled : pending.apdus s3 ≠ [] := by
      have hq : pending.apdus s3 = [apdu] := hqueue
      rw [hq]
      exact List.cons_ne_nil _ _
    have hawait : awaitApdu s = (.done (), s3) :=
      PendingQueue.await_of_filled hs.pending hnext hfilled
    have hcall : receiveApdu s = (.done apdu, pending.pop s3) := by
      have hpopped : receiveApdu s = (.done ((pending.apdus s3).headD []), pending.pop s3) :=
        PendingQueue.receiveVector_of_done hawait
      have hq : pending.apdus s3 = [apdu] := hqueue
      rw [hpopped, hq]
      rfl
    have hsame := decodeFrame_sameIntake last s2
    rw [hdecode] at hsame
    rcases hcollects.events with ⟨ev, htrace, hasides⟩
    rcases haside.events with ⟨ev', htrace', hasides'⟩
    have hwhole := hproceeds.after ho hσ
      ⟨ev ++ ev', by rw [htrace', htrace, List.append_assoc],
        List.forall_mem_append.mpr ⟨hasides, hasides'⟩⟩
    refine Or.inl ⟨whole, pending.pop s3, hcall, ?_, hbearer, ?_, ?_, hnumber⟩
    · exact ⟨hwhole.options, hwhole.connected, hwhole.settled, hwhole.sent, hwhole.received,
        hwhole.writes, hwhole.accepted⟩
    · refine ⟨⟨hwhole.options ▸ hs.session, hwhole.connected, hwhole.settled, ?_, hwhole.writes⟩,
        hempty⟩
      simp only [pending, hqueue, List.tail_cons]
    · have hpop : SameIntake s3 (pending.pop s3) := ⟨rfl, rfl, rfl, rfl, rfl⟩
      exact (hrest.of_sameIntake hsame).of_sameIntake hpop
  -- Rejected: the status of the session is that of the turn, of the loop and of the call.
  · have hturn : receiveTurn s1 = (.fail status, s3) := by
      rw [receiveTurn, Proc.bind_of_done _ hframe, handleFrame_of_fail hdecode hne]
    have hnext : receiveNextApdu s = (.fail status, s3) := by
      rw [hloop, receiveNextApdu, Proc.repeatUntil_of_fail hturn]
    have hawait : awaitApdu s = (.fail status, s3) :=
      PendingQueue.await_of_fail hs.pending hnext
    exact Or.inr ⟨⟨status, s3, PendingQueue.receiveVector_of_fail hawait⟩, hnot⟩

/-- A call for which no frame comes does not return an APDU. -/
theorem receiveApdu_unfed (hp : s.pendingApdus = []) (hfed : Fed [] s) {s' : State L} :
    receiveApdu s ≠ (.done apdu, s') := by
  intro hcall
  rcases Proc.bind_done_iff.mp hcall with ⟨_, s1, hawait, -⟩
  have hin : incoming s = [] := hfed
  -- With an empty queue the loop must run; any status but the last takes a frame to come.
  rcases hnext : receiveNextApdu s with ⟨⟨⟩ | status | _, s2⟩
  · have hlt := receiveNextApdu_incoming_lt hnext
    rw [hin] at hlt
    exact absurd hlt (Nat.not_lt_zero _)
  · have hfail : awaitApdu s = (.fail status, s2) := PendingQueue.await_of_fail hp hnext
    rw [hfail] at hawait
    cases hawait
  · have hwait : awaitApdu s = (.waiting, s2) := PendingQueue.await_of_waiting hp hnext
    rw [hwait] at hawait
    cases hawait

end Receive

end Hdlc

end DlmsProfile
