import DlmsProfile.Hdlc.Link
import DlmsProfile.Hdlc.Sending
import DlmsProfile.Reference.Channels
import DlmsProfile.Reference.Laws
import DlmsProfile.Termination

/-!
# Acknowledged Sends

`SendApdu` writes an I-frame, waits for a frame the session accepts and goes on
to the next. A session accepts a frame that acknowledges nothing new, so a late
duplicate of an earlier reply ends the wait as well as the reply does, and a frame
that had been decoded before the I-frame went out does so too.

Which frame ends which wait can be told beforehand. A wait ends with the frame that
is shown to the session, accepted or not, so a completed call takes one frame for
each I-frame and one more where the window is full. Of the frames to come only those
that are the first of their read were not there when the wait began.

## Main definitions

* `Hdlc.upcoming`: The frames to come, and which of them are the first of a read.
* `Hdlc.lastReply`: The frame that ends the last wait.
* `Hdlc.Acknowledged`: Every I-frame of the call was acknowledged after it was sent.

## Theorems

* `Hdlc.sendChunks_ends`: What a completed call takes.
* `Hdlc.acknowledged_iff`: When the I-frames of a call were acknowledged.
-/

namespace DlmsProfile

namespace Hdlc

variable {L : HdlcLib}

/-- What one push completed, the first of them marked. -/
def marked (frames : List L.Frame) : List (L.Frame × Bool) :=
  match frames with
  | [] => []
  | frame :: frames => (frame, true) :: frames.map (·, false)

/-- The frames a decoder will complete over a script of reads, the first of each read
    marked. -/
def markedAhead (L : HdlcLib) : L.Decoder → List ReadEvent → List (L.Frame × Bool)
  | _, [] => []
  | decoder, e :: rest =>
    if e.status ≠ .ok ∨ e.bytes = [] then markedAhead L decoder rest
    else
      let pushed := L.push decoder e.bytes
      if mapHdlcStatus pushed.1 = .ok then marked pushed.2.1 ++ markedAhead L pushed.2.2 rest
      else if mapHdlcStatus pushed.1 = .needMoreData then markedAhead L pushed.2.2 rest
      else markedAhead L (L.resetDecoder pushed.2.2) rest

/-- The frames a state will hand out, those marked for which a read has to be made. -/
def upcoming (s : State L) : List (L.Frame × Bool) :=
  s.pendingHdlcFrames.map (·, false) ++ markedAhead L s.decoder s.reads

/-- The frames a channel would have in hand after the reads of a stretch of its trace,
    had it shown none of them to its session. -/
def inHand (s : State L) (events : List (Event L)) : List L.Frame :=
  incoming { s with reads := readsMade events }

section Ahead

variable {decoder : L.Decoder} {e : ReadEvent} {rest : List ReadEvent}

theorem markedAhead_skip (h : e.status ≠ .ok ∨ e.bytes = []) :
    markedAhead L decoder (e :: rest) = markedAhead L decoder rest := by
  rw [markedAhead, if_pos h]

theorem markedAhead_completed (h : e.status = .ok) (he : e.bytes ≠ [])
    (hp : mapHdlcStatus (L.push decoder e.bytes).1 = .ok) :
    markedAhead L decoder (e :: rest) = marked (L.push decoder e.bytes).2.1 ++
      markedAhead L (L.push decoder e.bytes).2.2 rest := by
  rw [markedAhead, if_neg (not_or.mpr ⟨not_not.mpr h, he⟩)]
  exact if_pos hp

theorem markedAhead_continued (h : e.status = .ok) (he : e.bytes ≠ [])
    (hm : mapHdlcStatus (L.push decoder e.bytes).1 = .needMoreData) :
    markedAhead L decoder (e :: rest) = markedAhead L (L.push decoder e.bytes).2.2 rest := by
  have hp : mapHdlcStatus (L.push decoder e.bytes).1 ≠ .ok := by
    rw [hm]
    exact ProfileStatus.noConfusion
  rw [markedAhead, if_neg (not_or.mpr ⟨not_not.mpr h, he⟩)]
  exact (if_neg hp).trans (if_pos hm)

theorem markedAhead_rejected (h : e.status = .ok) (he : e.bytes ≠ [])
    (hp : mapHdlcStatus (L.push decoder e.bytes).1 ≠ .ok)
    (hm : mapHdlcStatus (L.push decoder e.bytes).1 ≠ .needMoreData) :
    markedAhead L decoder (e :: rest) =
      markedAhead L (L.resetDecoder (L.push decoder e.bytes).2.2) rest := by
  rw [markedAhead, if_neg (not_or.mpr ⟨not_not.mpr h, he⟩)]
  exact (if_neg hp).trans (if_neg hm)

end Ahead

theorem marked_length (frames : List L.Frame) : (marked frames).length = frames.length := by
  cases frames with
  | nil => rfl
  | cons frame frames => simp only [marked, List.length_cons, List.length_map]

/-- The frames to come are told by the intake of the channel. -/
theorem upcoming_of_intake {s s' : State L} (h : SameIntake s s') (reads : List ReadEvent) :
    upcoming { s' with reads := reads } = upcoming { s with reads := reads } := by
  simp only [upcoming, h.decoder, h.frames]

/-- As many frames as are to come. -/
theorem upcoming_length (s : State L) : (upcoming s).length = (incoming s).length := by
  have hahead : ∀ (reads : List ReadEvent) (decoder : L.Decoder),
      (markedAhead L decoder reads).length = (decodedAhead L decoder reads).length := by
    intro reads
    -- On the reads. The marks change none of the frames.
    induction reads with
    | nil => exact fun _ => rfl
    | cons e rest ih =>
        intro decoder
        rw [markedAhead, decodedAhead]
        split
        · exact ih decoder
        simp only
        split
        · rw [List.length_append, List.length_append, marked_length, ih]
        split <;> exact ih _
  rw [upcoming, incoming, List.length_append, List.length_append, List.length_map, hahead]

/-- Without a frame in hand, the next to come is the first of a read. -/
theorem markedAhead_head {reads : List ReadEvent} {decoder : L.Decoder} {frame : L.Frame}
    {fresh : Bool} {rest : List (L.Frame × Bool)}
    (h : markedAhead L decoder reads = (frame, fresh) :: rest) : fresh = true := by
  -- On the reads. The first frame of a push that completes any is a fresh one.
  induction reads generalizing decoder with
  | nil => cases h
  | cons e reads ih =>
      rw [markedAhead] at h
      split at h
      · exact ih h
      simp only at h
      split at h
      · rcases hf : (L.push decoder e.bytes).2.1 with _ | ⟨first, frames⟩ <;> rw [hf] at h
        · exact ih h
        · exact (Prod.mk.inj (List.cons.inj h).1).2.symm
      split at h <;> exact ih h

/-- More reads bring more frames. -/
theorem inHand_le (s : State L) (events later : List (Event L)) :
    (inHand s events).length ≤ (inHand s (events ++ later)).length := by
  have hahead : ∀ (reads more : List ReadEvent) (decoder : L.Decoder),
      (decodedAhead L decoder reads).length ≤ (decodedAhead L decoder (reads ++ more)).length := by
    intro reads more
    -- On the reads made before. More reads come behind them.
    induction reads with
    | nil => exact fun _ => Nat.zero_le _
    | cons e rest ih =>
        intro decoder
        rw [List.cons_append, decodedAhead, decodedAhead]
        split
        · exact ih decoder
        simp only
        split
        · rw [List.length_append, List.length_append]
          exact Nat.add_le_add_left (ih _) _
        split <;> exact ih _
  rw [inHand, inHand, incoming, incoming, readsMade_append, List.length_append, List.length_append]
  exact Nat.add_le_add_left (hahead _ _ _) _

/-- The frames a stretch of a call took off those to come, whatever is read later, each
    of them shown to the session. -/
structure Draws (events : List (Event L)) (taken : List (L.Frame × Bool)) (s s' : State L) :
    Prop where
  trace : s'.trace = s.trace ++ events
  reads : s.reads = readsMade events ++ s'.reads
  shown : (shown events).length = taken.length
  upcoming : ∀ later, upcoming { s with reads := readsMade events ++ later } =
    taken ++ Hdlc.upcoming { s' with reads := later }

namespace Draws

variable {events events' : List (Event L)} {taken taken' : List (L.Frame × Bool)}
  {s s1 s' : State L}

theorem refl (s : State L) : Draws [] [] s s :=
  ⟨(List.append_nil _).symm, rfl, rfl, fun _ => rfl⟩

theorem trans (h : Draws events taken s s1) (h' : Draws events' taken' s1 s') :
    Draws (events ++ events') (taken ++ taken') s s' := by
  refine ⟨?_, ?_, ?_, fun later => ?_⟩
  · rw [h'.trace, h.trace, List.append_assoc]
  · rw [h.reads, h'.reads, readsMade_append, List.append_assoc]
  · rw [shown_append, List.length_append, List.length_append, h.shown, h'.shown]
  · rw [readsMade_append, List.append_assoc, h.upcoming, h'.upcoming, List.append_assoc]

/-- What is recorded without a read or a frame. -/
theorem of_intake (hsame : SameIntake s s') (htrace : s'.trace = s.trace ++ events)
    (hreads : readsMade events = []) (hshown : Hdlc.shown events = []) :
    Draws events [] s s' := by
  refine ⟨htrace, ?_, congrArg List.length hshown, fun later => ?_⟩
  · rw [hreads, hsame.reads]
    rfl
  · rw [hreads, upcoming_of_intake hsame]
    rfl

/-- All frames taken are among those to come. -/
theorem upcoming_eq (h : Draws events taken s s') :
    Hdlc.upcoming s = taken ++ Hdlc.upcoming s' := by
  have hnow := h.upcoming s'.reads
  rwa [← h.reads] at hnow

/-- What was in hand: the frames shown, and those left over. -/
theorem inHand_length (h : Draws events taken s s') :
    (inHand s events).length = taken.length + s'.pendingHdlcFrames.length := by
  have hnow := congrArg List.length (h.upcoming [])
  rw [List.append_nil, upcoming_length] at hnow
  rw [inHand, hnow, List.length_append]
  simp only [Hdlc.upcoming, markedAhead, List.append_nil, List.length_map]

/-- A frame is the first of its read if none was in hand. -/
theorem fresh_iff {frame : L.Frame} {fresh : Bool} (h : Draws events [(frame, fresh)] s s') :
    fresh = true ↔ s.pendingHdlcFrames = [] := by
  have hnow := h.upcoming []
  rw [Hdlc.upcoming] at hnow
  rcases hp : s.pendingHdlcFrames with _ | ⟨first, frames⟩ <;> rw [hp] at hnow
  · exact iff_of_true (markedAhead_head hnow) rfl
  · obtain ⟨hfirst, -⟩ := List.cons.inj hnow
    obtain ⟨-, rfl⟩ := Prod.mk.inj hfirst
    exact iff_of_false Bool.false_ne_true nofun

end Draws

/-- The loop hands over the first frame of a read, or takes none. -/
theorem receiveDecodedFrameLoop_upcoming (reads : List ReadEvent) (s : State L)
    (hreads : s.reads = reads) (hp : s.pendingHdlcFrames = []) :
    ∃ made, s.reads = made ++ (receiveDecodedFrameLoop reads s).2.reads ∧
      (receiveDecodedFrameLoop reads s).2.trace =
        s.trace ++ made.map (fun e => .transport (.read e)) ∧
      ∀ later, upcoming { s with reads := made ++ later } =
        (receiveDecodedFrameLoop reads s).1.toList.map (·, true) ++
          upcoming { (receiveDecodedFrameLoop reads s).2 with reads := later } := by
  induction reads generalizing s with
  | nil =>
      refine ⟨[], hreads, (List.append_nil _).symm, fun later => ?_⟩
      rfl
  | cons e rest ih =>
      -- One read, however the turn that took it ends.
      have hone : ∀ {later : List ReadEvent}, upcoming { s with reads := [e] ++ later } =
          markedAhead L s.decoder (e :: later) := by
        intro later
        rw [upcoming, hp]
        rfl
      by_cases hok : e.status = .ok
      swap
      · rw [loop_readFailed hok]
        refine ⟨[e], hreads, rfl, fun later => ?_⟩
        rw [hone, markedAhead_skip (Or.inl hok), upcoming, afterRead, hp]
        rfl
      by_cases he : e.bytes = []
      · rw [loop_readEmpty hok he]
        refine ⟨[e], hreads, rfl, fun later => ?_⟩
        rw [hone, markedAhead_skip (Or.inr he), upcoming, afterRead, hp]
        rfl
      by_cases hst : mapHdlcStatus (L.push s.decoder e.bytes).1 = .ok
      · rcases hf : (L.push s.decoder e.bytes).2.1 with _ | ⟨frame, frames⟩
        · rw [loop_noFrame hok he hst hf]
          refine ⟨[e], hreads, rfl, fun later => ?_⟩
          rw [hone, markedAhead_completed hok he hst, hf, upcoming, afterRead, hp]
          rfl
        · rw [loop_completed hok he hst hf]
          refine ⟨[e], hreads, rfl, fun later => ?_⟩
          rw [hone, markedAhead_completed hok he hst, hf, upcoming, afterRead, hp]
          rfl
      by_cases hm : mapHdlcStatus (L.push s.decoder e.bytes).1 = .needMoreData
      · rw [loop_continued hok he hm]
        rcases ih { afterRead e rest s with decoder := (L.push s.decoder e.bytes).2.2 } rfl hp with
          ⟨made, hmade, htrace, hlater⟩
        refine ⟨e :: made, ?_, ?_, fun later => ?_⟩
        · rw [hreads, List.cons_append]
          exact congrArg (e :: ·) hmade
        · rw [htrace, List.map_cons, afterRead, List.append_assoc]
          rfl
        · rw [← hlater, List.cons_append, ← List.singleton_append, hone,
            markedAhead_continued hok he hm, upcoming, afterRead, hp]
          rfl
      · rw [loop_rejected hok he hst hm]
        refine ⟨[e], hreads, rfl, fun later => ?_⟩
        rw [hone, markedAhead_rejected hok he hst hm, upcoming, afterRead, hp]
        rfl

/-- The next frame is handed out, marked if none was in hand, or none is. -/
theorem receiveDecodedFrame_upcoming (s : State L) :
    ∃ made, s.reads = made ++ (receiveDecodedFrame s).2.reads ∧
      (receiveDecodedFrame s).2.trace = s.trace ++ made.map (fun e => .transport (.read e)) ∧
      ∀ later, upcoming { s with reads := made ++ later } =
        (receiveDecodedFrame s).1.toList.map (·, s.pendingHdlcFrames.isEmpty) ++
          upcoming { (receiveDecodedFrame s).2 with reads := later } := by
  -- A frame in hand is not fresh, and one from a read is.
  rcases hp : s.pendingHdlcFrames with _ | ⟨frame, frames⟩
  · by_cases hb : s.readBufferSize = 0
    · rw [receiveDecodedFrame_of_noBuffer hp hb]
      exact ⟨[], rfl, (List.append_nil _).symm, fun _ => rfl⟩
    · rw [receiveDecodedFrame_of_empty hp hb]
      exact receiveDecodedFrameLoop_upcoming s.reads s rfl hp
  · rw [receiveDecodedFrame_of_pending hp]
    refine ⟨[], rfl, (List.append_nil _).symm, fun later => ?_⟩
    simp only [upcoming, hp, List.map_cons, List.cons_append, Outcome.toList, List.isEmpty_cons,
      List.map_nil, List.nil_append]

theorem readsMade_map (made : List ReadEvent) :
    readsMade (made.map fun e => (.transport (.read e) : Event L)) = made := by
  induction made with
  | nil => rfl
  | cons e made ih => exact congrArg (e :: ·) ih

theorem aside_map (made : List ReadEvent) :
    ∀ event ∈ made.map (fun e => (.transport (.read e) : Event L)), event.isAside := by
  intro event hmem
  rcases List.mem_map.mp hmem with ⟨e, -, rfl⟩
  exact trivial

/-- A wait that ends well draws one frame, the last thing recorded of it being that the
    session accepts the frame. -/
def GetsReply (s s' : State L) : Prop :=
  ∃ events frame fresh, Draws (events ++ [.receive s.session frame .ok]) [(frame, fresh)] s s' ∧
    (∀ e ∈ events, e.isAside) ∧ L.receiveFrame s.session frame = (.ok, s'.session)

/-- What was recorded to the side before the wait. -/
theorem GetsReply.after {s s1 s' : State L} {events : List (Event L)}
    (hdraws : Draws events [] s s1) (haside : ∀ e ∈ events, e.isAside)
    (hsession : s1.session = s.session) (h : GetsReply s1 s') : GetsReply s s' := by
  rcases h with ⟨events', frame, fresh, hdraws', haside', hframe⟩
  refine ⟨events ++ events', frame, fresh, ?_, ?_, hsession ▸ hframe⟩
  · rw [← hsession, List.append_assoc]
    exact hdraws.trans hdraws'
  · intro e he
    rcases List.mem_append.mp he with he | he
    · exact haside e he
    · exact haside' e he

/-- What a step to the side records draws nothing. -/
theorem draws_of_aside {s s' : State L} (haside : Aside s s') (hsame : SameIntake s s')
    (hreads : readsMade s'.trace = readsMade s.trace) :
    ∃ events, Draws events [] s s' ∧ (∀ e ∈ events, e.isAside) ∧ s'.session = s.session := by
  rcases haside.events with ⟨events, htrace, hall⟩
  rw [htrace, readsMade_append, List.append_right_eq_self] at hreads
  exact ⟨events, Draws.of_intake hsame htrace hreads (shown_of_aside hall), hall, haside.session⟩

/-- An attempt is answered, or draws nothing if another may follow. -/
theorem control_draws (verdict : HdlcVerdictLaw L) (s : State L) :
    (∀ s', receiveSessionControlFrame s = (.done (), s') → GetsReply s s') ∧
    ∀ status s', receiveSessionControlFrame s = (.fail status, s') →
      isRetriableReceiveStatus status = true →
      ∃ events, Draws events [] s s' ∧ (∀ e ∈ events, e.isAside) ∧ s'.session = s.session := by
  rcases receiveDecodedFrame_upcoming s with ⟨made, hreads, htrace, hupcoming⟩
  have hsession := (receiveDecodedFrame_aside s).session
  rcases hr : receiveDecodedFrame s with ⟨frame | status | _, s1⟩ <;>
    rw [hr] at hreads htrace hupcoming hsession <;> dsimp only at hreads htrace hsession
  · -- A frame is drawn, and the session has the last word.
    rw [receiveSessionControlFrame, Proc.bind_of_done _ hr, sessionReceive_eq, hsession]
    have hmade : readsMade (made.map (fun e => .transport (.read e)) ++
        [.receive s.session frame .ok]) = made := by
      rw [readsMade_append, readsMade_map]
      exact List.append_nil made
    have hintake : SameIntake s1 (judged frame s1) := ⟨rfl, rfl, rfl, rfl, rfl⟩
    constructor
    · intro s' h
      rw [check_done_iff, mapHdlcStatus_eq_ok] at h
      rcases h with ⟨hok, rfl⟩
      refine ⟨_, frame, s.pendingHdlcFrames.isEmpty, ⟨?_, ?_, ?_, fun later => ?_⟩,
        aside_map made, ?_⟩
      · rw [judged, htrace, hsession, hok, List.append_assoc]
      · rw [hmade]
        exact hreads
      · rw [shown_append, shown_of_aside (aside_map made)]
        rfl
      · rw [hmade, upcoming_of_intake hintake]
        exact hupcoming later
      · have hjudged : (judged frame s1).session = (L.receiveFrame s.session frame).2 := by
          rw [← hsession]
          rfl
        rw [hjudged]
        exact Prod.ext hok rfl
    · intro status s' h hagain
      by_cases hok : mapHdlcStatus (L.receiveFrame s.session frame).1 = .ok
      · rw [hok] at h
        cases h
      · rw [check_of_ne hok] at h
        obtain ⟨hstatus, -⟩ := Prod.mk.inj h
        rw [← Outcome.fail.inj hstatus, retriable_mapHdlcStatus (verdict.whole _ _)] at hagain
        cases hagain
  · rw [receiveSessionControlFrame, Proc.bind_of_fail _ hr]
    refine ⟨fun s' h => (by cases h), fun status' s' h _ => ?_⟩
    obtain ⟨-, rfl⟩ := Prod.mk.inj h
    refine ⟨_, ⟨htrace, ?_, ?_, fun later => ?_⟩, aside_map made, hsession⟩
    · rwa [readsMade_map]
    · rw [shown_of_aside (aside_map made)]
      rfl
    · rw [readsMade_map]
      exact hupcoming later
  · rw [receiveSessionControlFrame, Proc.bind_of_waiting _ hr]
    exact ⟨fun s' h => (by cases h), fun status s' h => (by cases h)⟩

/-- A wait that ends well draws the one frame that ends it, however many copies it
    writes before. -/
theorem retryLoop_getsReply (verdict : HdlcVerdictLaw L) {bytes : List UInt8} {left : Nat}
    {s s' : State L} (h : retryLoop bytes left s = (.done (), s')) : GetsReply s s' := by
  induction left generalizing s with
  | zero => exact (control_draws verdict s).1 s' h
  | succ left ih =>
      rcases hr : receiveSessionControlFrame s with ⟨⟨⟩ | status | _, s1⟩
      · rw [retryLoop_of_done hr] at h
        obtain ⟨-, rfl⟩ := Prod.mk.inj h
        exact (control_draws verdict s).1 s1 hr
      · cases hagain : isRetriableReceiveStatus status with
        | false =>
            rw [retryLoop_of_fail hr (Or.inl hagain)] at h
            cases h
        | true =>
            rcases (control_draws verdict s).2 status s1 hr hagain with ⟨events, h1, ha1, hs1⟩
            rw [retryLoop_of_retry hr hagain] at h
            rcases Proc.bind_done_iff.mp h with ⟨_, s2, hsleep, h⟩
            rcases Proc.bind_done_iff.mp h with ⟨_, s3, hwrite, h⟩
            -- Neither the sleep nor the copy draws anything.
            have h2 : ∃ events, Draws events [] s1 s2 ∧ (∀ e ∈ events, e.isAside) ∧
                s2.session = s1.session := by
              have haside := sleepBeforeRetry_aside s1
              have hsame := sleepBeforeRetry_sameIntake s1
              have hreads : readsMade (sleepBeforeRetry s1).2.trace = readsMade s1.trace := by
                rw [sleepBeforeRetry]
                split
                · rfl
                · rw [check_snd, readsMade_append]
                  exact List.append_nil _
              rw [hsleep] at haside hsame hreads
              exact draws_of_aside haside hsame hreads
            have h3 : ∃ events, Draws events [] s2 s3 ∧ (∀ e ∈ events, e.isAside) ∧
                s3.session = s2.session := by
              have haside := writeFrameBytes_aside bytes s2
              have hsame := writeFrameBytes_sameIntake bytes s2
              have hreads : readsMade (writeFrameBytes bytes s2).2.trace = readsMade s2.trace := by
                rw [writeFrameBytes_snd, readsMade_append]
                exact List.append_nil _
              rw [hwrite] at haside hsame hreads
              exact draws_of_aside haside hsame hreads
            rcases h2 with ⟨events2, h2, ha2, hs2⟩
            rcases h3 with ⟨events3, h3, ha3, hs3⟩
            have h4 := GetsReply.after h3 ha3 hs3 (ih h)
            exact GetsReply.after h1 ha1 hs1 (GetsReply.after h2 ha2 hs2 h4)
      · rw [retryLoop_of_waiting hr] at h
        cases h

/-- The frame that ends the wait after the last of as many I-frames, the first of them
    numbered `vs`: one frame goes to open a full window, and one ends each wait. -/
def lastReply (law : HdlcSessionLaw L) (window : Nat) :
    Nat → Fin 8 → Fin 8 → List (L.Frame × Bool) → Option (L.Frame × Bool)
  | 0, _, _, _ => none
  | left + 1, vs, va, frames =>
    match if (vs - va).val < window then frames else frames.tail with
    | [] => none
    | reply :: rest =>
      if left = 0 then some reply
      else lastReply law window left (vs + 1) (law.receiveSequence reply.1.control) rest

theorem lastReply_succ (law : HdlcSessionLaw L) {window left : Nat} {vs va : Fin 8}
    {frames rest : List (L.Frame × Bool)} {reply : L.Frame × Bool}
    (h : (if (vs - va).val < window then frames else frames.tail) = reply :: rest) :
    lastReply law window (left + 1) vs va frames =
      if left = 0 then some reply
      else lastReply law window left (vs + 1) (law.receiveSequence reply.1.control) rest :=
  congrArg (fun opened : List (L.Frame × Bool) => match opened with
    | [] => none
    | reply :: rest =>
      if left = 0 then some reply
      else lastReply law window left (vs + 1) (law.receiveSequence reply.1.control) rest) h

/-- The last I-frame of a completed call, when the channel has made everything it has of
    the frames before, and the wait for its reply. -/
structure EndsWith (law : HdlcSessionLaw L) (frame : L.Frame) (fresh : Bool) (s s' : State L) :
    Prop where
  split : ∃ pre before bytes mid later s1 taken,
    Draws pre taken s s1 ∧ (∀ e ∈ mid, e.isAside) ∧
      Draws (.emit before bytes :: mid ++ [.receive later frame .ok]) [(frame, fresh)] s1 s' ∧
      law.vs later = law.vs s'.session
  settles : law.va s'.session = law.receiveSequence frame.control

variable {law : HdlcSessionLaw L} {s s' : State L}

/-- One I-frame: where the window is full one frame opens it, and one ends the wait. -/
theorem sendChunk_ends (unnumbered : HdlcUnnumberedLaw L) (window : HdlcWindowLaw L law)
    (verdict : HdlcVerdictLaw L) {chunk : List UInt8} {last : Bool} (hσ : L.Connected s.session)
    (h : sendChunk chunk last s = (.done (), s')) :
    ∃ frame fresh opened events, EndsWith law frame fresh s s' ∧
      Draws events (opened ++ [(frame, fresh)]) s s' ∧
      opened.length = (if (law.vs s.session - law.va s.session).val < window.window s.session
        then 0 else 1) ∧
      L.Connected s'.session ∧ law.vs s'.session = law.vs s.session + 1 ∧
      window.window s'.session = window.window s.session := by
  rcases sendChunk_cases chunk last s with ⟨o, s1, -, ho, hturn⟩ | ⟨s1, hwindow, hrest⟩
  · rw [hturn] at h
    exact absurd (Prod.mk.inj h).1 ho
  rcases hrest with
    ⟨status, -, hturn⟩ | ⟨built, σ, hbuild, ⟨status, -, hturn⟩ | ⟨bytes, -, hturn⟩⟩ <;>
    rw [hturn] at h
  · cases h
  · cases h
  -- What the window takes, and what it leaves of the session.
  have hopen : ∃ opened events, Draws events opened s s1 ∧
      opened.length = (if (law.vs s.session - law.va s.session).val < window.window s.session
        then 0 else 1) ∧
      L.Connected s1.session ∧ law.vs s1.session = law.vs s.session ∧
      window.window s1.session = window.window s.session := by
    rw [awaitWindow] at hwindow
    by_cases hcan : L.canSendInformationFrame s.session = true
    · rw [if_pos hcan] at hwindow
      obtain ⟨-, rfl⟩ := Prod.mk.inj hwindow
      refine ⟨[], [], Draws.refl s, ?_, hσ, rfl, rfl⟩
      rw [if_pos ((window.canSend hσ).mp hcan)]
      rfl
    · rw [if_neg hcan] at hwindow
      rcases (control_draws verdict s).1 s1 hwindow with ⟨events, frame, fresh, hdraws, -, hframe⟩
      rcases unnumbered.accepted law hσ hframe with ⟨hσ', hvs', -⟩
      refine ⟨_, _, hdraws, ?_, hσ', hvs', window.accepted hσ hframe⟩
      rw [if_neg fun hc => hcan ((window.canSend hσ).mpr hc)]
      rfl
  rcases hopen with ⟨opened, pre, hpre, hlength, hσ1, hvs1, hw1⟩
  have hemit : Draws [.emit s1.session bytes] [] s1 (emitted bytes σ s1) :=
    Draws.of_intake ⟨rfl, rfl, rfl, rfl, rfl⟩ rfl rfl rfl
  rcases Proc.bind_done_iff.mp h with ⟨_, s2, hwrite, h⟩
  have hwait : GetsReply (emitted bytes σ s1) s' := by
    have haside := writeFrameBytes_aside bytes (emitted bytes σ s1)
    have hsame := writeFrameBytes_sameIntake bytes (emitted bytes σ s1)
    have hreads : readsMade (writeFrameBytes bytes (emitted bytes σ s1)).2.trace =
        readsMade (emitted bytes σ s1).trace := by
      rw [writeFrameBytes_snd, readsMade_append]
      exact List.append_nil _
    rw [hwrite] at haside hsame hreads
    rcases draws_of_aside haside hsame hreads with ⟨events, hdraws, hall, hsession⟩
    exact GetsReply.after hdraws hall hsession (retryLoop_getsReply verdict h)
  rcases hwait with ⟨mid, frame, fresh, hmid, hall, hframe⟩
  have hbuilt := law.information hσ1 hbuild
  have haccepted := unnumbered.accepted law (σ := σ) hbuilt.1 hframe
  have hlast := hemit.trans hmid
  refine ⟨frame, fresh, opened, _, ⟨⟨pre, _, bytes, mid, _, s1, opened, hpre, hall, hlast,
    haccepted.2.1.symm⟩, haccepted.2.2.1⟩, hpre.trans hlast, hlength, haccepted.1, ?_, ?_⟩
  · rw [haccepted.2.1, hbuilt.2.1, hvs1]
  · rw [window.accepted (σ := σ) hbuilt.1 hframe, window.information hσ1 hbuild, hw1]

/-- As many I-frames as were left to send: the wait for the last of them ends with the
    frame that could be told beforehand. -/
theorem sendChunks_ends (unnumbered : HdlcUnnumberedLaw L) (window : HdlcWindowLaw L law)
    (verdict : HdlcVerdictLaw L) {size left : Nat} {remaining : List UInt8} (hleft : left ≠ 0)
    (hσ : L.Connected s.session) (h : sendChunks size left remaining s = (.done (), s')) :
    ∃ frame fresh, EndsWith law frame fresh s s' ∧
      lastReply law (window.window s.session) left (law.vs s.session) (law.va s.session)
        (upcoming s) = some (frame, fresh) := by
  induction left generalizing s remaining with
  | zero => exact absurd rfl hleft
  | succ left ih =>
      rcases Proc.bind_done_iff.mp h with ⟨_, s1, hchunk, hrest⟩
      rcases sendChunk_ends unnumbered window verdict hσ hchunk with
        ⟨frame, fresh, opened, events, hends, hdraws, hlength, hσ1, hvs, hw⟩
      -- What is left of the frames to come once the window is open.
      have hopened : (if (law.vs s.session - law.va s.session).val < window.window s.session
          then upcoming s else (upcoming s).tail) = (frame, fresh) :: upcoming s1 := by
        rw [hdraws.upcoming_eq, List.append_assoc, List.singleton_append]
        split at hlength
        · next hroom => rw [if_pos hroom, List.length_eq_zero_iff.mp hlength, List.nil_append]
        · next hfull =>
            rcases List.length_eq_one_iff.mp hlength with ⟨first, rfl⟩
            rw [if_neg hfull, List.singleton_append, List.tail_cons]
      rw [lastReply_succ law hopened]
      by_cases hzero : left = 0
      · obtain rfl := hzero
        obtain ⟨-, rfl⟩ := Prod.mk.inj hrest
        exact ⟨frame, fresh, hends, if_pos rfl⟩
      · rcases ih hzero hσ1 hrest with ⟨frame', fresh', hends', hlast⟩
        refine ⟨frame', fresh', ?_, ?_⟩
        · rcases hends' with ⟨⟨pre, before, bytes, mid, later, s2, taken, hpre, hrest'⟩, hva⟩
          exact ⟨⟨_, before, bytes, mid, later, s2, _, hdraws.trans hpre, hrest'⟩, hva⟩
        · simp only [if_neg hzero]
          rw [← hlast, hw, hvs, hends.settles]

/-- Every I-frame the call emitted was acknowledged: a frame accepted after it was first
    written, and not in hand by then, leaves at most the I-frames outstanding that were
    emitted between the two; and in the end none is outstanding. -/
structure Acknowledged (law : HdlcSessionLaw L) (s s' : State L) : Prop where
  covered : ∀ {pre post : List (Event L)} {before : L.Session} {bytes : List UInt8},
    s'.trace = s.trace ++ (pre ++ .emit before bytes :: post) →
    ∃ mid later frame rest, post = mid ++ .receive later frame .ok :: rest ∧
      (inHand s pre).length ≤ (shown (pre ++ mid)).length ∧
      (law.vs later - law.receiveSequence frame.control).val ≤ (emittedBytes mid).length
  settled : ∀ {events : List (Event L)} {before : L.Session} {bytes : List UInt8},
    s'.trace = s.trace ++ events → .emit before bytes ∈ events →
    law.va s'.session = law.vs s'.session

/-- An event to the side is neither an emission nor a frame shown. -/
theorem not_mem_of_aside {events : List (Event L)} (h : ∀ e ∈ events, e.isAside) :
    (∀ before bytes, .emit before bytes ∉ events) ∧
      ∀ σ frame status, .receive σ frame status ∉ events :=
  ⟨fun _ _ hmem => h _ hmem, fun _ _ _ hmem => h _ hmem⟩

/-- If the frame that ends the last wait was read for and acknowledges everything, every
    I-frame was acknowledged. -/
theorem EndsWith.acknowledged {frame : L.Frame} (h : EndsWith law frame true s s')
    (hvs : law.vs s'.session = law.receiveSequence frame.control) : Acknowledged law s s' := by
  rcases h with ⟨⟨pre, before, bytes, mid, later, s1, taken, hpre, hall, hdraw, hlater⟩, hva⟩
  have hnone : s1.pendingHdlcFrames = [] := hdraw.fresh_iff.mp rfl
  have htrace : s'.trace = s.trace ++ (pre ++ .emit before bytes :: mid) ++
      [.receive later frame .ok] := by
    rw [hdraw.trace, hpre.trace]
    simp only [List.append_assoc, List.cons_append]
  refine ⟨fun {pre0 post0 before0 bytes0} hsplit => ?_, fun _ _ => by rw [hva, hvs]⟩
  rw [htrace, List.append_assoc, List.append_cancel_left_eq] at hsplit
  -- What ends the last wait comes after any emission.
  have hpost : ∃ mid0, post0 = mid0 ++ [.receive later frame .ok] ∧
      pre ++ .emit before bytes :: mid = pre0 ++ .emit before0 bytes0 :: mid0 := by
    rcases List.eq_nil_or_concat post0 with rfl | ⟨mid0, last, rfl⟩
    · have hlast := List.append_inj_right' hsplit rfl
      cases hlast
    · rw [List.concat_eq_append, ← List.cons_append, ← List.append_assoc] at hsplit
      obtain ⟨hinit, hlast⟩ := List.append_inj' hsplit rfl
      exact ⟨mid0, by rw [List.concat_eq_append, hlast], hinit⟩
  rcases hpost with ⟨mid0, rfl, hinit⟩
  -- The emission is the last of the call, or one before it.
  have hprefix : ∃ more, pre = pre0 ++ more := by
    rcases List.append_eq_append_iff.mp hinit with ⟨more, hmore, hrest⟩ | ⟨more, hmore, -⟩
    · rcases more with _ | ⟨e, more⟩
      · exact ⟨[], by rw [hmore, List.append_nil, List.append_nil]⟩
      · have hmem : .emit before0 bytes0 ∈ mid := by
          rw [(List.cons.inj hrest).2]
          exact List.mem_append_right more List.mem_cons_self
        exact absurd hmem ((not_mem_of_aside hall).1 _ _)
    · exact ⟨more, hmore⟩
  rcases hprefix with ⟨more, rfl⟩
  refine ⟨mid0, later, frame, [], rfl, ?_, ?_⟩
  · have hshown : (shown (pre0 ++ mid0)).length = taken.length := by
      have hboth := congrArg shown hinit
      have hmid : shown (.emit before bytes :: mid) = [] :=
        (shown_of_aside hall : shown mid = [])
      rw [shown_append, hmid, List.append_nil] at hboth
      rw [← hpre.shown, hboth, shown_append, shown_append]
      rfl
    rw [hshown]
    refine (inHand_le s pre0 more).trans ?_
    rw [hpre.inHand_length, hnone]
    exact Nat.le_refl _
  · rw [hlater, hvs, Fin.sub_self]
    exact Nat.zero_le _

/-- If every I-frame was acknowledged, the frame that ends the last wait was read for and
    acknowledges everything. -/
theorem EndsWith.of_acknowledged {frame : L.Frame} {fresh : Bool}
    (h : EndsWith law frame fresh s s') (hack : Acknowledged law s s') :
    fresh = true ∧ law.vs s'.session = law.receiveSequence frame.control := by
  rcases h with ⟨⟨pre, before, bytes, mid, later, s1, taken, hpre, hall, hdraw, -⟩, hva⟩
  have htrace : s'.trace = s.trace ++ (pre ++ .emit before bytes ::
      (mid ++ [.receive later frame .ok])) := by
    rw [hdraw.trace, hpre.trace]
    simp only [List.append_assoc, List.cons_append]
  have hsettled := hack.settled htrace (List.mem_append_right pre List.mem_cons_self)
  refine ⟨hdraw.fresh_iff.mpr ?_, hsettled.symm.trans hva⟩
  rcases hack.covered htrace with ⟨mid', later', frame', rest', hsplit, hhand, -⟩
  -- The only frame accepted after the emission is the one that ends the wait.
  have hmid : mid' = mid := by
    rcases List.append_eq_append_iff.mp hsplit with ⟨more, hmore, hrest⟩ | ⟨more, hmore, hrest⟩
    · rcases more with _ | ⟨e, more⟩
      · rw [hmore, List.append_nil]
      · have hnil := (List.cons.inj hrest).2
        cases more <;> cases hnil
    · rcases more with _ | ⟨e, more⟩
      · rw [hmore, List.append_nil]
      · obtain ⟨rfl, -⟩ := List.cons.inj hrest
        refine absurd ?_ ((not_mem_of_aside hall).2 later' frame' .ok)
        rw [hmore]
        exact List.mem_append_right mid' List.mem_cons_self
  rw [hmid, hpre.inHand_length, shown_append, shown_of_aside hall, List.append_nil, hpre.shown]
    at hhand
  exact List.length_eq_zero_iff.mp (by omega)

/-- A completed `SendApdu` had its I-frames acknowledged exactly if it had none to send
    or, of the frames to come, the one that ends its last wait has to be read for and
    carries the N(R) that acknowledges its last I-frame. -/
theorem acknowledged_iff (unnumbered : HdlcUnnumberedLaw L) (window : HdlcWindowLaw L law)
    (verdict : HdlcVerdictLaw L) {apdu : ProfileByteView} (huse : s.options.hdlcUseSession = true)
    (h : sendApdu apdu s = (.done (), s')) :
    Acknowledged law s s' ↔ framesToSend s apdu = 0 ∨
      ∃ frame, lastReply law (window.window s.session) (framesToSend s apdu)
          (law.vs s.session) (law.va s.session) (upcoming s) = some (frame, true) ∧
        law.receiveSequence frame.control =
          law.vs s.session + Fin.ofNat 8 (framesToSend s apdu) := by
  rcases sendApdu_done law unnumbered huse h with ⟨taken, hs, -⟩
  rcases hs.replay with ⟨events, htrace, hreplay⟩
  have hvs := hreplay.vs_eq law unnumbered
  have hlength := hreplay.emittedBytes_length
  -- An APDU without frames is acknowledged by saying nothing.
  by_cases hn : framesToSend s apdu = 0
  · have hnone : ∀ before bytes, .emit before bytes ∉ events := by
      intro before bytes hmem
      have hbytes := mem_emittedBytes.mpr ⟨before, hmem⟩
      rw [List.eq_nil_of_length_eq_zero (hlength.trans hn)] at hbytes
      exact List.not_mem_nil hbytes
    refine iff_of_true ⟨?_, ?_⟩ (Or.inl hn)
    · intro pre post before bytes hsplit
      rw [htrace, List.append_cancel_left_eq] at hsplit
      exact absurd (hsplit ▸ List.mem_append_right pre List.mem_cons_self) (hnone before bytes)
    · intro events' before bytes hsplit hmem
      rw [htrace, List.append_cancel_left_eq] at hsplit
      exact absurd (hsplit ▸ hmem) (hnone before bytes)
  rcases sendApdu_chunks huse h with ⟨hσ, -, hchunks⟩
  rcases sendChunks_ends (s := limited s) unnumbered window verdict hn hσ hchunks with
    ⟨frame, fresh, hends, hlast⟩
  -- The limits play no part in what was taken, so the sending starts from `s` as well.
  have hends' : EndsWith law frame fresh s s' := by
    rcases hends with ⟨⟨pre, before, bytes, mid, later, s1, taken, hpre, hrest⟩, hva⟩
    have hpre' : Draws pre taken s s1 := ⟨hpre.trace, hpre.reads, hpre.shown, hpre.upcoming⟩
    exact ⟨⟨pre, before, bytes, mid, later, s1, taken, hpre', hrest⟩, hva⟩
  rw [or_iff_right hn]
  constructor
  -- The last reply acknowledges what was emitted, and so it is fresh and numbered right.
  · intro hack
    obtain ⟨rfl, hnr⟩ := hends'.of_acknowledged hack
    exact ⟨frame, hlast, by rw [← hnr, hvs]⟩
  · rintro ⟨frame', hlast', hnr⟩
    obtain ⟨rfl, rfl⟩ := Prod.mk.inj (Option.some.inj (hlast.symm.trans hlast'))
    exact hends'.acknowledged (hvs.trans hnr.symm)

/-- A client that connects and sends one APDU. The reply is late, so that the I-frame is
    written again, and comes in one read with the answer to the copy. -/
theorem acknowledged_late :
    let s := (connectDataLink (Reference.hdlcChannel Reference.sessionOptions
      [Reference.arrived (Reference.toClient Reference.ua []), ⟨.wouldBlock, []⟩,
        Reference.arrived (Reference.receiveReady 1 ++ Reference.receiveReady 1)])).2
    Acknowledged Reference.sessionLaw s (sendApdu (.of [0xC0]) s).2 ↔
      framesToSend s (.of [0xC0]) = 0 ∨
        ∃ frame, lastReply Reference.sessionLaw (Reference.windowLaw.window s.session)
            (framesToSend s (.of [0xC0])) (Reference.sessionLaw.vs s.session)
            (Reference.sessionLaw.va s.session) (upcoming s) = some (frame, true) ∧
          Reference.sessionLaw.receiveSequence frame.control =
            Reference.sessionLaw.vs s.session + Fin.ofNat 8 (framesToSend s (.of [0xC0])) :=
  acknowledged_iff Reference.unnumberedLaw Reference.windowLaw Reference.verdictLaw
    (by decide +kernel) (Prod.ext (by decide +kernel) rfl)

/-- The second of the two answers ends the wait of the next call, whose own I-frame is
    left outstanding. -/
theorem acknowledged_refuted :
    let s := Reference.hdlcChannel Reference.sessionOptions
      [Reference.arrived (Reference.toClient Reference.ua []), ⟨.wouldBlock, []⟩,
        Reference.arrived (Reference.receiveReady 1 ++ Reference.receiveReady 1)]
    let after := run [.connectDataLink, .send (.of [0xC0]), .send (.of [0xC1])] s
    after.1 = [.status (.done ()), .status (.done ()), .status (.done ())] ∧
      Reference.sessionLaw.vs after.2.session = 2 ∧
      Reference.sessionLaw.va after.2.session = 1 := by
  decide +kernel

end Hdlc

end DlmsProfile
