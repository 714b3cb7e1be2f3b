import DlmsProfile.Hdlc.Integrity
import DlmsProfile.Hdlc.Pieces
import DlmsProfile.Hdlc.Waiting

/-!
# Two Ends that wait for Each Other

One end runs `SendApdu` and the other calls `ReceiveApdu` again and again, joined by two
pipes. The sender waits after every I-frame, and the receiver writes its RR once an LPDU
is complete. So an LPDU that takes one I-frame goes through whatever the reads look like,
and one that takes more comes to a halt at the first: the receiver has collected a segment
and reads on, the sender reads on for the RR, and nothing is under way.

Each end is a function of what it has read, so a state of the two is told by the reads
each of them has made. An end that is handed one read more is run again over all of them.

## Main definitions

* `Hdlc.Coming`: The reads to come complete one frame.
* `Hdlc.Answering`: What a receiver on copies of one I-frame has come to.
* `Hdlc.Collecting`: What a receiver on copies of one segment has come to.
* `Hdlc.Joint`: The reads two ends have made that are joined by pipes.
* `Hdlc.Stuck`: Both wait, and nothing is under way.
* `Hdlc.NeverStuck`: No state that the two can reach is such.
* `Hdlc.Facing`: Two ends of an established link with nothing under way.

## Theorems

* `Hdlc.retryLoop_coming`: A sender whose reply is there does not wait.
* `Hdlc.calls_answering`: A receiver on copies of one I-frame writes the RR for it.
* `Hdlc.not_stuck`: A call without a segment to send does not get them stuck.
* `Hdlc.stuck_of_segment`: A segment does.
* `Hdlc.never_stuck_iff`: When two ends never get stuck.
-/

namespace DlmsProfile

namespace Hdlc

variable {L : HdlcLib} {law : HdlcSessionLaw L}

section Coming

variable {limits : HdlcCodecLimits} {stream : HdlcStreamLaw L limits} {σ : L.Session}
  {frame : L.Frame} {s : State L}

/-- What the decoder keeps and what is to be read are one frame. -/
structure Coming (stream : HdlcStreamLaw L limits) (σ : L.Session) (frame : L.Frame)
    (s : State L) : Prop where
  session : s.session = σ
  live : stream.live s.decoder
  kept : stream.framer.scan (stream.view s.decoder) = ([], .rest (stream.view s.decoder))
  frames : s.pendingHdlcFrames = []
  buffer : s.readBufferSize ≠ 0
  encodes : stream.framer.Encodes (stream.view s.decoder ++ readBytes s.reads) frame

theorem Coming.of_same {t : State L} (h : Coming stream σ frame s) (haside : Aside s t)
    (hsame : SameIntake s t) : Coming stream σ frame t := by
  refine ⟨haside.session.trans h.session, ?_, ?_, hsame.frames.trans h.frames, ?_, ?_⟩
  · rw [hsame.decoder]
    exact h.live
  · rw [hsame.decoder]
    exact h.kept
  · rw [hsame.buffer]
    exact h.buffer
  · rw [hsame.decoder, hsame.reads]
    exact h.encodes

/-- A run of the loop gets the frame, or fails before it has read it whole. -/
theorem loop_coming (reads : List ReadEvent) (h : Coming stream σ frame s)
    (hreads : s.reads = reads) :
    (∃ s', receiveDecodedFrameLoop reads s = (.done frame, s') ∧ s'.session = σ) ∨
      ∃ status s', receiveDecodedFrameLoop reads s = (.fail status, s') ∧
        Coming stream σ frame s' := by
  induction reads generalizing s with
  | nil =>
      -- What is kept is no frame yet.
      have hall := h.encodes
      rw [hreads, readBytes, List.append_nil] at hall
      have hscan := Framing.Framer.scan_encodes hall
      rw [h.kept] at hscan
      cases hscan
  | cons e rest ih =>
      have hall := h.encodes
      rw [hreads] at hall
      by_cases hok : e.status = .ok
      swap
      · rw [readBytes, if_neg hok] at hall
        exact Or.inr ⟨_, _, loop_readFailed hok, h.session, h.live, h.kept, h.frames, h.buffer,
          hall⟩
      by_cases he : e.bytes = []
      · rw [readBytes, if_pos hok, he, List.nil_append] at hall
        exact Or.inr ⟨_, _, loop_readEmpty hok he, h.session, h.live, h.kept, h.frames, h.buffer,
          hall⟩
      rw [readBytes, if_pos hok, ← List.append_assoc] at hall
      by_cases hrest : readBytes rest = []
      · -- This read completes the frame.
        rw [hrest, List.append_nil] at hall
        rcases push_brings h.live hall with ⟨hst, hframes, -⟩
        exact Or.inl ⟨_, loop_completed hok he hst hframes, h.session⟩
      · -- This read completes nothing, and what is kept of it stands for it.
        rcases Framing.Framer.encodes_part hall hrest with ⟨k, hscan, hwhole⟩
        rcases stream.follows.push_rest h.live hscan with ⟨hframes, hview, hstatus⟩
        have hnext : Coming stream σ frame
            { afterRead e rest s with decoder := (L.push s.decoder e.bytes).2.2 } := by
          rw [← hview] at hscan hwhole
          exact ⟨h.session, stream.follows.push_live e.bytes h.live,
            Framing.Framer.scan_rest_self hscan, h.frames, h.buffer, hwhole⟩
        by_cases hst : mapHdlcStatus (L.push s.decoder e.bytes).1 = .ok
        · exact Or.inr ⟨_, _, loop_noFrame hok he hst hframes, hnext⟩
        · rw [loop_continued hok he (hstatus.resolve_left hst).1]
          exact ih hnext rfl

/-- An attempt gets the reply, or fails before it has read it whole. -/
theorem control_coming (haccepts : (L.receiveFrame σ frame).1 = .ok)
    (h : Coming stream σ frame s) :
    (∃ s', receiveSessionControlFrame s = (.done (), s')) ∨
      ∃ status s', receiveSessionControlFrame s = (.fail status, s') ∧
        Coming stream σ frame s' := by
  have hloop := loop_coming s.reads h rfl
  rw [← receiveDecodedFrame_of_empty h.frames h.buffer] at hloop
  rcases hloop with ⟨s', hframe, hσ⟩ | ⟨status, s', hfail, hcoming⟩
  · refine Or.inl ⟨judged frame s', ?_⟩
    -- The frame to come is the first one read, and the session accepts it.
    rw [receiveSessionControlFrame, Proc.bind_of_done _ hframe, sessionReceive_eq, hσ, haccepts,
      mapHdlcStatus_eq_ok.mpr rfl, check_ok]
  · exact Or.inr ⟨status, s', Proc.bind_of_fail _ hfail, hcoming⟩

/-- A sender whose reply is there does not wait for it, however the reads that bring it
    are cut. -/
theorem retryLoop_coming (haccepts : (L.receiveFrame σ frame).1 = .ok) (bytes : List UInt8)
    (left : Nat) (h : Coming stream σ frame s) : (retryLoop bytes left s).1 ≠ .waiting := by
  induction left generalizing s with
  | zero =>
      rcases control_coming haccepts h with ⟨s', hdone⟩ | ⟨status, s', hfail, -⟩
      · rw [retryLoop_of_done hdone]
        exact fun hc => by cases hc
      · rw [retryLoop_of_fail hfail (Or.inr rfl)]
        exact fun hc => by cases hc
  | succ left ih =>
      rcases control_coming haccepts h with ⟨s', hdone⟩ | ⟨status, s1, hfail, hcoming⟩
      · rw [retryLoop_of_done hdone]
        exact fun hc => by cases hc
      cases hagain : isRetriableReceiveStatus status with
      | false =>
          rw [retryLoop_of_fail hfail (Or.inl hagain)]
          exact fun hc => by cases hc
      | true =>
          rw [retryLoop_of_retry hfail hagain]
          -- Neither the sleep nor the copy waits, and neither touches what is to come.
          have haside := sleepBeforeRetry_aside s1
          have hsame := sleepBeforeRetry_sameIntake s1
          have hsleep := sleep_ne_waiting s1
          rcases hs : sleepBeforeRetry s1 with ⟨⟨⟩ | status' | _, s2⟩ <;>
            rw [hs] at haside hsame hsleep
          · rw [Proc.bind_of_done _ hs]
            have haside' := writeFrameBytes_aside bytes s2
            have hsame' := writeFrameBytes_sameIntake bytes s2
            rcases hw : writeFrameBytes bytes s2 with ⟨⟨⟩ | status' | _, s3⟩ <;>
              rw [hw] at haside' hsame'
            · rw [Proc.bind_of_done _ hw]
              exact ih ((hcoming.of_same haside hsame).of_same haside' hsame')
            · rw [Proc.bind_of_fail _ hw]
              exact fun hc => by cases hc
            · exact absurd hw check_ne_waiting
          · rw [Proc.bind_of_fail _ hs]
            exact fun hc => by cases hc
          · exact absurd rfl hsleep

end Coming

section Answering

variable {collects : HdlcReassemblerLaw L} {frame : L.Frame} {r s t : State L}

/-- The I-frame a receiver is ready for, alone and with an APDU within its limit. -/
structure Expects (law : HdlcSessionLaw L) (r : State L) (frame : L.Frame) : Prop where
  kind : L.frameKind frame.control = .information
  whole : frame.segmented = false
  number : law.sendSequence frame.control = law.vr r.session
  acknowledges : law.receiveSequence frame.control = law.vs r.session
  carries : frame.information ≠ []
  reads : ∃ apdu, readInformation L r.options frame.information = .ok apdu

/-- A receiver between two frames, wherever it stands with the one it is ready for. -/
structure Stands (law : HdlcSessionLaw L) (collects : HdlcReassemblerLaw L) (r t : State L) :
    Prop where
  options : t.options = r.options
  connected : L.Connected t.session
  settled : law.va t.session = law.vs t.session
  sent : law.vs t.session = law.vs r.session
  writes : ∀ status ∈ t.writes, status = .ok
  collected : collects.collected t.reassembler = []

theorem Stands.of_same {t' : State L} (h : Stands law collects r t)
    (ho : t'.options = t.options) (hσ : t'.session = t.session) (hw : t'.writes = t.writes)
    (hr : t'.reassembler = t.reassembler) : Stands law collects r t' := by
  refine ⟨ho.trans h.options, hσ ▸ h.connected, ?_, ?_, hw ▸ h.writes, hr ▸ h.collected⟩
  · rw [hσ]
    exact h.settled
  · rw [hσ]
    exact h.sent

/-- Nothing was handed to the stream. -/
def Unwritten (s s' : State L) : Prop :=
  ∃ events, s'.trace = s.trace ++ events ∧ written events = []

theorem Unwritten.trans {s' : State L} (h : Unwritten r s) (h' : Unwritten s s') :
    Unwritten r s' := by
  rcases h with ⟨events, htrace, hnone⟩
  rcases h' with ⟨events', htrace', hnone'⟩
  refine ⟨events ++ events', ?_, ?_⟩
  · rw [htrace', htrace, List.append_assoc]
  · rw [written_append, hnone, hnone', List.append_nil]

theorem ReadsOnly.unwritten {s s' : State L} (h : ReadsOnly s s') : Unwritten s s' := by
  rcases h with ⟨taken, -, htrace⟩
  exact ⟨_, htrace, written_reads taken⟩

/-- What a receiver on copies of one I-frame has come to: it has taken none of them and
    written nothing, or it has taken one and written the RR for it. -/
structure Answering (law : HdlcSessionLaw L) (collects : HdlcReassemblerLaw L) (frame : L.Frame)
    (r t : State L) : Prop extends Stands law collects r t where
  copies : ∀ f ∈ incoming t, f = frame
  stage : (law.vr t.session = law.vr r.session ∧ incoming t ≠ [] ∧ Unwritten r t) ∨
    (law.vr t.session = law.vr r.session + 1 ∧ RepliesReady law (law.vr r.session + 1) r t)

/-- What is recorded beside the writes changes nothing about them. -/
theorem RepliesReady.after {number : Fin 8} {s' : State L} (h : RepliesReady law number r s)
    (h' : Unwritten s s') : RepliesReady law number r s' := by
  rcases h with ⟨σ, events, hσ, hvr, htrace, hwritten⟩
  rcases h' with ⟨events', htrace', hnone⟩
  refine ⟨σ, events ++ events', hσ, hvr, ?_, ?_⟩
  · rw [htrace', htrace, List.append_assoc]
  · rw [written_append, hwritten, hnone, List.append_nil]

theorem Unwritten.replies {number : Fin 8} {s' : State L} (h : Unwritten r s)
    (h' : RepliesReady law number s s') : RepliesReady law number r s' := by
  rcases h with ⟨events, htrace, hnone⟩
  rcases h' with ⟨σ, events', hσ, hvr, htrace', hwritten⟩
  refine ⟨σ, events ++ events', hσ, hvr, ?_, ?_⟩
  · rw [htrace', htrace, List.append_assoc]
  · rw [written_append, hnone, hwritten, List.nil_append]

/-- What a receiver makes of a copy of the I-frame it was ready for. The first one is queued
    and answered, and any other changes neither the queue nor V(R). -/
theorem decodeFrame_judged {apdu : List UInt8} (huse : r.options.hdlcUseSession = true)
    (hframe : Expects law r frame)
    (hread : readInformation L r.options frame.information = .ok apdu)
    (h : Stands law collects r t) :
    Stands law collects r (decodeFrameToPendingApdu frame t).2 ∧
      ((law.vr t.session = law.vr r.session ∧
          (decodeFrameToPendingApdu frame t).1 = .done () ∧
          (decodeFrameToPendingApdu frame t).2.pendingApdus = t.pendingApdus ++ [apdu] ∧
          law.vr (decodeFrameToPendingApdu frame t).2.session = law.vr r.session + 1 ∧
          RepliesReady law (law.vr r.session + 1) t (decodeFrameToPendingApdu frame t).2) ∨
        (law.vr t.session ≠ law.vr r.session ∧
          (decodeFrameToPendingApdu frame t).2.pendingApdus = t.pendingApdus ∧
          (decodeFrameToPendingApdu frame t).2.session = t.session ∧
          Unwritten t (decodeFrameToPendingApdu frame t).2)) := by
  have huse' : t.options.hdlcUseSession = true := h.options ▸ huse
  rcases decodeFrame_completes huse' h.collected hframe.kind hframe.whole with
    ⟨completed, ρ, hdecode, hinfo, hcontrol, hempty⟩
  have hc : completed.control = frame.control := hcontrol.elim id id
  rw [List.nil_append, List.flatMap_singleton] at hinfo
  have hread' : readInformation L (reassembling ρ t).options completed.information = .ok apdu := by
    have ho : (reassembling ρ t).options = r.options := h.options
    rw [ho, hinfo]
    exact hread
  have hnr : law.receiveSequence completed.control = law.vs (reassembling ρ t).session := by
    rw [hc]
    exact hframe.acknowledges.trans h.sent.symm
  have hkind : L.frameKind completed.control = .information := hc ▸ hframe.kind
  have hne : completed.information ≠ [] := hinfo ▸ hframe.carries
  -- The frame is one segment. The session takes it exactly if it is the next in sequence.
  have hjudged := acceptCompleted_whole (s := reassembling ρ t) law h.connected h.settled h.writes
    hkind hnr hne hread'
  rw [hc, hframe.number] at hjudged
  rw [hdecode]
  rcases hjudged with ⟨hnumber, s', hdone, hproceeds, hr, hqueue, hreply⟩ |
    ⟨hnumber, hrejected, hfail⟩
  · rw [hdone]
    refine ⟨⟨hproceeds.options.trans h.options, hproceeds.connected, hproceeds.settled,
      hproceeds.sent.trans h.sent, hproceeds.writes, ?_⟩,
      Or.inl ⟨hnumber.symm, rfl, hqueue, ?_, ?_⟩⟩
    · rw [hr]
      exact hempty
    · rw [hproceeds.received, ← hnumber]
    · rw [hnumber]
      exact hreply
  · rw [hfail]
    have hsame : (judged completed (reassembling ρ t)).session = t.session :=
      law.rejected h.connected (Prod.ext rfl rfl) hrejected
    refine ⟨⟨h.options, hsame ▸ h.connected, ?_, ?_, h.writes, hempty⟩,
      Or.inr ⟨fun hvr => hnumber hvr.symm, rfl, hsame, _, rfl, rfl⟩⟩
    · rw [hsame]
      exact h.settled
    · rw [hsame]
      exact h.sent

/-- The receiver takes the first copy and writes the RR, and rejects any other. -/
theorem decodeFrame_answering (huse : r.options.hdlcUseSession = true)
    (hframe : Expects law r frame) (h : Stands law collects r t)
    (hcopies : ∀ f ∈ incoming t, f = frame)
    (hstage : (law.vr t.session = law.vr r.session ∧ Unwritten r t) ∨
      (law.vr t.session = law.vr r.session + 1 ∧ RepliesReady law (law.vr r.session + 1) r t)) :
    Answering law collects frame r (decodeFrameToPendingApdu frame t).2 := by
  rcases hframe.reads with ⟨apdu, hread⟩
  rcases decodeFrame_judged huse hframe hread h with ⟨hstands, hjudged⟩
  refine ⟨hstands, ?_, Or.inr ?_⟩
  · rw [(decodeFrame_sameIntake frame t).incoming]
    exact hcopies
  rcases hjudged with ⟨hvr, -, -, hmoved, hreply⟩ | ⟨hvr, -, hsame, hsilent⟩
  · -- It is the first one.
    rcases hstage with ⟨-, hunwritten⟩ | ⟨hlate, -⟩
    · exact ⟨hmoved, hunwritten.replies hreply⟩
    · have hloop : law.vr r.session = law.vr r.session + 1 := hvr.symm.trans hlate
      exact absurd hloop (by omega)
  · -- It has been taken before.
    rcases hstage with ⟨hearly, -⟩ | ⟨hmoved, hreplied⟩
    · exact absurd hearly hvr
    · rw [hsame]
      exact ⟨hmoved, hreplied.after hsilent⟩

/-- One turn of the receive loop. -/
theorem receiveTurn_answering (huse : r.options.hdlcUseSession = true)
    (hframe : Expects law r frame) :
    Proc.Preserves (Answering law collects frame r) (receiveTurn (L := L)) := by
  intro t ht
  have haside := receiveDecodedFrame_aside t
  have hin := receiveDecodedFrame_incoming t
  have hwrites := receiveDecodedFrame_writes t
  have hunwritten := (receiveDecodedFrame_readsOnly t).unwritten
  have hstands : Stands law collects r (receiveDecodedFrame t).2 :=
    ht.toStands.of_same haside.options haside.session hwrites haside.reassembler
  -- As long as no frame comes, nothing changes.
  have hnone : incoming (receiveDecodedFrame t).2 = incoming t →
      Answering law collects frame r (receiveDecodedFrame t).2 := by
    intro hsame
    refine ⟨hstands, ?_, ?_⟩
    · rw [hsame]
      exact ht.copies
    · rw [haside.session, hsame]
      rcases ht.stage with ⟨hvr, hcome, hsilent⟩ | ⟨hvr, hreplied⟩
      · exact Or.inl ⟨hvr, hcome, hsilent.trans hunwritten⟩
      · exact Or.inr ⟨hvr, hreplied.after hunwritten⟩
  rcases hr : receiveDecodedFrame t with ⟨f | status | _, t1⟩
  · have hcome := receiveDecodedFrame_done hr
    obtain rfl : f = frame := ht.copies f (hcome ▸ List.mem_cons_self)
    rw [receiveTurn, Proc.bind_of_done _ hr, handleFrame_snd]
    simp only [hr] at haside hstands hunwritten
    refine decodeFrame_answering huse hframe hstands ?_ ?_
    · exact fun g hg => ht.copies g (hcome ▸ List.mem_cons_of_mem _ hg)
    · rw [haside.session]
      rcases ht.stage with ⟨hvr, -, hsilent⟩ | ⟨hvr, hreplied⟩
      · exact Or.inl ⟨hvr, hsilent.trans hunwritten⟩
      · exact Or.inr ⟨hvr, hreplied.after hunwritten⟩
  · rw [receiveTurn, Proc.bind_of_fail _ hr]
    rw [hr] at hin hnone
    exact hnone hin.symm
  · rw [receiveTurn, Proc.bind_of_waiting _ hr]
    rw [hr] at hin hnone
    exact hnone hin.symm

/-- Any number of calls, whichever the overload and whatever each gives back. -/
theorem calls_answering (huse : r.options.hdlcUseSession = true) (hframe : Expects law r frame)
    (calls : List ReceiveCall) (h : Answering law collects frame r t) :
    Answering law collects frame r (run (calls.map .receive) t).2 := by
  -- Turn by turn, then call by call, whichever overload is used.
  have hawait : Proc.Preserves (Answering law collects frame r) (awaitApdu (L := L)) :=
    PendingQueue.preserves_await
      (Proc.preserves_repeatUntil (receiveTurn_answering huse hframe))
  have hcall : ∀ call t, Answering law collects frame r t →
      Answering law collects frame r (exec (.receive call) t).2 :=
    PendingQueue.preserves_call hawait fun t ht =>
      ⟨⟨ht.options, ht.connected, ht.settled, ht.sent, ht.writes, ht.collected⟩, ht.copies,
        ht.stage⟩
  refine run_preserves (fun op hop t ht => ?_) h
  rcases List.mem_map.mp hop with ⟨call, -, rfl⟩
  exact hcall call t ht

/-- A run of `ReceiveNextApdu` that waits has used up what was to come. -/
theorem Handles.waiting {frames : List L.Frame} {o : Outcome ProfileStatus Unit × State L}
    (h : Handles s frames o) (hwaits : o.1 = .waiting) : Hdlc.incoming o.2 = [] := by
  induction h with
  | blocked h => exact (receiveDecodedFrame_waiting h).2
  | more _ _ _ ih => exact ih hwaits
  | failed _ => cases hwaits
  | refused _ _ => cases hwaits
  | filled _ _ => cases hwaits

theorem awaitApdu_waiting {s' : State L} (h : awaitApdu s = (.waiting, s')) : incoming s' = [] := by
  by_cases hp : s.pendingApdus = []
  · rw [awaitApdu_of_empty hp] at h
    rcases receiveNextApdu_handles s with ⟨frames, hhandles⟩
    rw [h] at hhandles
    exact hhandles.waiting rfl
  · have hpending : awaitApdu s = (.done (), s) := PendingQueue.await_of_pending hp
    rw [hpending] at h
    cases h

theorem call_waiting {call : ReceiveCall} (h : ((channel L).call call s).1.isWaiting = true) :
    incoming ((channel L).call call s).2 = [] := by
  cases call with
  | vector =>
      rcases hr : receiveApdu s with ⟨apdu | status | _, s'⟩ <;>
        simp only [ApduChannel.call, hr] at h ⊢
      · cases h
      · cases h
      · rcases Proc.bind_waiting_iff.mp hr with hawait | ⟨_, s1, -, hrest⟩
        · exact awaitApdu_waiting hawait
        · cases hrest
  | into output =>
      rcases hr : receiveApduInto output s with ⟨⟨⟨⟩ | status | _, output'⟩, s'⟩ <;>
        simp only [ApduChannel.call, hr] at h ⊢
      · cases h
      · cases h
      -- A buffer that is refused ends the call, so one that waits waits in the loop.
      · have hawait : awaitApdu s = (.waiting, s') := PendingQueue.receiveBuffer_waiting hr
        exact awaitApdu_waiting hawait

/-- Calls that have come to a wait have used up what was to come. -/
theorem calls_blocked {calls : List ReceiveCall} (h : Blocked (run (calls.map .receive) t).1) :
    incoming (run (calls.map .receive) t).2 = [] := by
  -- The run stops at the call that waits, and that call has used up the reads.
  induction calls generalizing t with
  | nil =>
      rcases h with ⟨result, hmem, -⟩
      exact absurd hmem List.not_mem_nil
  | cons call calls ih =>
      rw [List.map_cons] at h ⊢
      cases hw : (exec (.receive call) t).1.isWaiting with
      | true =>
          rw [run_of_waiting hw]
          exact call_waiting hw
      | false =>
          rw [run_of_returned hw] at h ⊢
          rcases h with ⟨result, hmem, hwaits⟩
          rcases List.mem_cons.mp hmem with rfl | hmem
          · rw [hw] at hwaits
            cases hwaits
          · exact ih ⟨result, hmem, hwaits⟩

end Answering

section Sending

variable {apdu : ProfileByteView} {s : State L}

/-- With nothing outstanding the window is open, so a turn of the sending loop builds its
    I-frame at once, and writes it. -/
theorem sendChunk_opens (law : HdlcSessionLaw L) (chunk : List UInt8) (last : Bool)
    (hσ : L.Connected s.session) (hsettled : law.va s.session = law.vs s.session) :
    (¬ BuildsFrame chunk last s ∧ ∃ status s1, sendChunk chunk last s = (.fail status, s1)) ∨
      BuildsFrame chunk last s ∧ ∃ built σ bytes,
        L.buildInformationFrame s.session chunk last = (.ok, built, σ) ∧
        recoded L s.hdlcLimits (!last) built = (.ok, bytes) ∧
        sendChunk chunk last s = writeAndWait bytes (emitted bytes σ s) := by
  -- With V(A) = V(S) the window is open, so the chunk is built at once.
  have hopen : awaitWindow s = (.done (), s) := if_pos (law.idle hσ hsettled)
  rcases sendChunk_cases chunk last s with ⟨o, s1, hw, ho, -⟩ | ⟨s1, hw, hrest⟩
  · rw [hopen] at hw
    exact absurd (Prod.mk.inj hw).1.symm ho
  rw [hopen] at hw
  obtain rfl := (Prod.mk.inj hw).2
  -- It fails in the session or in recoding the segment; else the frame is emitted.
  rcases hrest with ⟨status, hne, h⟩ | ⟨built, σ, hbuild, ⟨status, hne, h⟩ | ⟨bytes, hbytes, h⟩⟩
  · exact Or.inl ⟨fun hbuilds => hne hbuilds.1, status, _, h⟩
  · refine Or.inl ⟨fun hbuilds => hne ?_, status, _, h⟩
    have hsame := hbuilds.2
    rwa [hbuild] at hsame
  · refine Or.inr ⟨⟨by rw [hbuild], ?_⟩, built, σ, bytes, hbuild, hbytes, h⟩
    rw [hbuild]
    exact congrArg Prod.fst hbytes

/-- The first turn of the loop of a call that has I-frames to send. -/
theorem sendApdu_begins {left : Nat} (huse : s.options.hdlcUseSession = true)
    (hrefused : ¬ Refused s apdu) (hcount : framesToSend s apdu = left + 1) :
    sendApdu apdu s =
      (sendChunk ((lpduOf s apdu).take (chunkSizeOf s apdu)) (left == 0) >>= fun _ =>
        sendChunks (chunkSizeOf s apdu) left ((lpduOf s apdu).drop (chunkSizeOf s apdu)))
        (limited s) := by
  rw [sendApdu_of_unrefused huse hrefused, hcount]
  rfl

/-- An LPDU that takes one I-frame fits it. -/
theorem length_le_of_one (hsized : Sized s (.send apdu)) (hone : framesToSend s apdu = 1) :
    (lpduOf s apdu).length ≤ chunkSizeOf s apdu := by
  -- A count of one cannot come from the sum that wraps, which gives none.
  have hfits : CountFits s apdu := by
    by_contra hwraps
    rcases hsized apdu rfl with ⟨hlimit, hlpdu⟩
    rw [framesToSend_of_wraps hlimit hlpdu hwraps] at hone
    cases hone
  have hpos : (lpduOf s apdu).length = 0 ∨ 0 < chunkSizeOf s apdu :=
    chunkSize_pos (transmitLimit s) _
  have henough := Chunks.turns_enough hpos
  rw [framesToSend_of_fits hfits] at hone
  rwa [hone, Nat.one_mul] at henough

/-- An LPDU takes one I-frame if it fits the negotiated transmit length, and none if the sum
    behind the count of I-frames wraps. -/
theorem frames_le_iff (hsized : Sized s (.send apdu)) :
    framesToSend s apdu ≤ 1 ↔ Fits s apdu ∨ ¬ CountFits s apdu := by
  constructor
  · intro hle
    -- When the sum does not wrap there is a turn, so at most one frame is exactly one.
    refine Classical.or_iff_not_imp_right.mpr fun hcount => ?_
    have hpos : 0 < framesToSend s apdu := by
      rw [framesToSend_of_fits (not_not.mp hcount)]
      exact Chunks.turns_pos (chunkSize_pos (transmitLimit s) _)
    have hlength := length_le_of_one hsized (Nat.le_antisymm hle hpos)
    rw [chunkSizeOf, chunkSize] at hlength
    split at hlength
    next hzero => exact Or.inl hzero
    next => exact Or.inr hlength
  · rintro (hfits | hwraps)
    · exact hfits.frames_le
    · rcases hsized apdu rfl with ⟨hlimit, hlpdu⟩
      rw [framesToSend_of_wraps hlimit hlpdu hwraps]
      exact Nat.zero_le 1

/-- A call that takes one I-frame and waits has built it of the whole LPDU, and what it
    waits for is a reply to that one. -/
theorem sendApdu_single (law : HdlcSessionLaw L) (huse : s.options.hdlcUseSession = true)
    (hrefused : ¬ Refused s apdu) (hsettled : law.va s.session = law.vs s.session)
    (hsized : Sized s (.send apdu)) (hone : framesToSend s apdu = 1)
    (hwaits : (sendApdu apdu s).1 = .waiting) :
    ∃ built σ, L.buildInformationFrame s.session (lpduOf s apdu) true = (.ok, built, σ) ∧
      sendApdu apdu s = retryLoop built s.options.hdlcRetryCount.toNat
        (wrote built (emitted built σ (limited s))) := by
  have hσ : L.Connected (limited s).session := by
    simp only [Refused, not_or, not_not] at hrefused
    exact hrefused.2.2.2
  have hcall : sendApdu apdu s = sendChunk (lpduOf s apdu) true (limited s) := by
    rw [sendApdu_begins huse hrefused hone, List.take_of_length_le (length_le_of_one hsized hone)]
    exact congrFun (Proc.bind_pure (sendChunk (lpduOf s apdu) true)) (limited s)
  rw [hcall] at hwaits ⊢
  rcases sendChunk_opens law (lpduOf s apdu) true hσ hsettled with
    ⟨-, status, s1, h⟩ | ⟨-, built, σ, bytes, hbuild, hbytes, h⟩
  · rw [h] at hwaits
    cases hwaits
  · -- The last I-frame of an LPDU goes out as the session built it.
    obtain rfl : built = bytes := (Prod.mk.inj hbytes).2
    refine ⟨built, σ, hbuild, ?_⟩
    rw [h] at hwaits ⊢
    by_cases hok : (emitted built σ (limited s)).writes.headD .ok = .ok
    · exact Proc.bind_of_done _ (writeFrameBytes_of_ok hok)
    · have hfail : writeAndWait built (emitted built σ (limited s)) = _ :=
        Proc.bind_of_fail _ (writeFrameBytes_of_ne hok)
      rw [hfail] at hwaits
      cases hwaits

end Sending

/-- What was handed to the stream behind a state, one byte after the other. -/
def streamed (s s' : State L) : List UInt8 :=
  (written (s'.trace.drop s.trace.length)).flatMap (·.1)

theorem streamed_of_trace {s s' : State L} {events : List (Event L)}
    (h : s'.trace = s.trace ++ events) : streamed s s' = (written events).flatMap (·.1) := by
  rw [streamed, h, List.drop_left]

/-- The end that runs `SendApdu`, once it has made the given reads. -/
def sending (apdu : ProfileByteView) (s : State L) (reads : List ReadEvent) :
    Outcome ProfileStatus Unit × State L := sendApdu apdu (withReads reads s)

/-- The end that calls `ReceiveApdu`, `n` times, once it has made the given reads. -/
def receiving (schedule : Nat → ReceiveCall) (n : Nat) (r : State L) (reads : List ReadEvent) :
    List Result × State L :=
  run (((List.range n).map schedule).map .receive) (withReads reads r)

/-- One who calls the vector overload often enough comes to wait, whatever it has read. -/
theorem vectors_block {r : State L} (hbuffer : r.readBufferSize ≠ 0) {c : List ReadEvent} :
    ∃ n, ∀ more, Blocked (receiving (fun _ => .vector) (n + more) r c).1 := by
  have hroom : (withReads c r).readBufferSize ≠ 0 := hbuffer
  exact calls_block (I := fun _ => True) (fun _ => ReceiveCall.hasRoom_vector [])
    (fun _ _ _ apdu _ => ReceiveCall.hasRoom_vector apdu) (fun _ _ _ => trivial) hroom trivial

/-- Two ends joined by two pipes, and the reads each of them has made. An end that waits
    is handed some of what the other has written and it has not read, no more than its read
    buffer holds, or is told that there is nothing yet. -/
inductive Joint (apdu : ProfileByteView) (schedule : Nat → ReceiveCall) (s r : State L) :
    List ReadEvent → List ReadEvent → Prop
  | start : Joint apdu schedule s r [] []
  | toSender {a b : List ReadEvent} {e : ReadEvent} {n : Nat} (h : Joint apdu schedule s r a b)
    (hwaits : (sending apdu s a).1 = .waiting) (hfits : e.bytes.length ≤ s.readBufferSize)
    (hread : readBytes (a ++ [e]) <+: streamed r (receiving schedule n r b).2) :
    Joint apdu schedule s r (a ++ [e]) b
  | toReceiver {a b : List ReadEvent} {e : ReadEvent} {n : Nat} (h : Joint apdu schedule s r a b)
    (hwaits : Blocked (receiving schedule n r b).1) (hfits : e.bytes.length ≤ r.readBufferSize)
    (hread : readBytes (b ++ [e]) <+: streamed s (sending apdu s a).2) :
    Joint apdu schedule s r a (b ++ [e])

/-- Bytes one after the other, each in a read of its own. -/
def byteByByte (bytes : List UInt8) : List ReadEvent := bytes.map fun byte => ⟨.ok, [byte]⟩

theorem readBytes_byteByByte (bytes : List UInt8) : readBytes (byteByByte bytes) = bytes := by
  induction bytes with
  | nil => rfl
  | cons byte bytes ih =>
      have hrest : readBytes (byteByByte (byte :: bytes)) = byte :: readBytes (byteByByte bytes) :=
        rfl
      rw [hrest, ih]

/-- A receiver that waits again and again can be handed all there is for it, however small
    its read buffer. -/
theorem Joint.feeds {apdu : ProfileByteView} {schedule : Nat → ReceiveCall} {s r : State L}
    {a b : List ReadEvent} (h : Joint apdu schedule s r a b) (hbuffer : r.readBufferSize ≠ 0)
    (hblocks : ∀ c, readBytes c <+: streamed s (sending apdu s a).2 →
      ∃ n, Blocked (receiving schedule n r c).1) (bytes : List UInt8)
    (hbytes : readBytes b ++ bytes <+: streamed s (sending apdu s a).2) :
    Joint apdu schedule s r a (b ++ byteByByte bytes) := by
  -- Byte by byte: each byte is a read that the receiver is blocked for and has room for.
  induction bytes generalizing b with
  | nil =>
      rw [byteByByte, List.map_nil, List.append_nil]
      exact h
  | cons byte bytes ih =>
      have hone : readBytes (b ++ [⟨.ok, [byte]⟩]) = readBytes b ++ [byte] :=
        readBytes_append b [⟨.ok, [byte]⟩]
      rw [List.append_cons, ← hone] at hbytes
      rcases hblocks b ((List.prefix_append _ _).trans
        (hone ▸ (List.prefix_append _ _).trans hbytes)) with ⟨n, hwaits⟩
      have hnext : Joint apdu schedule s r a (b ++ [⟨.ok, [byte]⟩]) :=
        Joint.toReceiver h hwaits (Nat.one_le_iff_ne_zero.mpr hbuffer)
          ((List.prefix_append _ _).trans hbytes)
      have hall := ih hnext hbytes
      rwa [List.append_assoc] at hall

/-- The last I-frame was written, and no frame was accepted since. -/
def Unanswered (events : List (Event L)) : Prop :=
  ∃ before σ bytes after, events = before ++ .emit σ bytes :: after ∧
    ∀ τ frame, .receive τ frame .ok ∉ after

/-- The sender waits for the reply to an I-frame it wrote, the receiver has read all of it
    and waits for more, and the sender has read all the receiver wrote. -/
structure Stuck (apdu : ProfileByteView) (schedule : Nat → ReceiveCall) (s r : State L)
    (a b : List ReadEvent) : Prop where
  sender : (sending apdu s a).1 = .waiting
  unanswered : Unanswered (sentBy apdu (withReads a s))
  consumed : readBytes b = streamed s (sending apdu s a).2
  receiver : ∃ n, Blocked (receiving schedule n r b).1 ∧
    readBytes a = streamed r (receiving schedule n r b).2

/-- In no state that two ends can reach are they stuck. -/
def NeverStuck (apdu : ProfileByteView) (s r : State L) : Prop :=
  ∀ schedule a b, Joint apdu schedule s r a b → ¬ Stuck apdu schedule s r a b

/-- The decoder keeps nothing, no frame is queued, and there is room to read into. -/
structure Blank {limits : HdlcCodecLimits} (stream : HdlcStreamLaw L limits) (s : State L) :
    Prop where
  live : stream.live s.decoder
  kept : stream.view s.decoder = []
  frames : s.pendingHdlcFrames = []
  buffer : s.readBufferSize ≠ 0

section Blank

variable {limits : HdlcCodecLimits} {stream : HdlcStreamLaw L limits} {frame : L.Frame}
  {bytes k : List UInt8} {r : State L} {b : List ReadEvent}

/-- What is to come then is what is found in the reads. -/
theorem Blank.incoming {frames : List L.Frame} (h : Blank stream r)
    (hscan : stream.framer.scan (readBytes b) = (frames, .rest k)) :
    Hdlc.incoming (withReads b r) = frames := by
  -- Nothing is kept back, so the decoder sees the frames that the bytes encode.
  have hahead : decodedAhead L r.decoder b = frames := by
    refine decodedAhead_of_scan (r := k) stream b h.live ?_ ?_
    · rw [h.kept, Framing.Framer.scan_nil]
    · rw [h.kept, List.nil_append, hscan]
  have hsplit : Hdlc.incoming (withReads b r) =
      r.pendingHdlcFrames ++ decodedAhead L r.decoder b := rfl
  rw [hsplit, h.frames, List.nil_append, hahead]

/-- Copies laid end to end are found one by one. -/
theorem forall_encodes (hencodes : stream.framer.Encodes bytes frame) (count : Nat) :
    List.Forall₂ stream.framer.Encodes (List.replicate count bytes)
      (List.replicate count frame) := by
  induction count with
  | zero => exact List.Forall₂.nil
  | succ count ih => exact List.Forall₂.cons hencodes ih

/-- In the front of copies laid end to end there is nothing but copies. -/
theorem Blank.copies {n : Nat} (h : Blank stream r)
    (hencodes : stream.framer.Encodes bytes frame)
    (hread : readBytes b <+: (List.replicate n bytes).flatten) :
    ∀ f ∈ Hdlc.incoming (withReads b r), f = frame := by
  rcases Framing.Framer.scan_prefix hread
    (Framing.Framer.scan_flatten (forall_encodes hencodes n)) with ⟨frames, k, hscan, hfound⟩
  rw [h.incoming hscan]
  exact fun f hf => List.eq_of_mem_replicate (hfound.subset hf)

end Blank

/-- Two ends of an established link with nothing under way, each of which expects what the
    other sends next, and an APDU within the limits of both. -/
structure Facing (law : HdlcSessionLaw L) (collects : HdlcReassemblerLaw L)
    {own peer : HdlcCodecLimits} (ownStream : HdlcStreamLaw L own)
    (peerStream : HdlcStreamLaw L peer) (apdu : ProfileByteView) (s r : State L) : Prop where
  session : s.options.hdlcUseSession = true
  connected : L.Connected s.session
  settled : law.va s.session = law.vs s.session
  writes : ∀ status ∈ s.writes, status = .ok
  ready : Ready law collects r
  sender : Blank ownStream s
  receiver : Blank peerStream r
  forth : law.vr r.session = law.vs s.session
  back : law.vr s.session = law.vs r.session
  sized : Sized s (.send apdu)
  within : ¬ (r.options.maximumApduSize ≠ 0 ∧ r.options.maximumApduSize < apdu.data.length)
  fits : chunkSizeOf s apdu ≤ peer.maximumInformationFieldSize

/-- The first I-frame of a call is built as a segment. -/
def BuildsSegment (s : State L) (apdu : ProfileByteView) : Prop :=
  BuildsFrame ((lpduOf s apdu).take (chunkSizeOf s apdu)) false (limited s)

instance (s : State L) (apdu : ProfileByteView) : Decidable (BuildsSegment s apdu) :=
  inferInstanceAs (Decidable (BuildsFrame _ _ _))

section Facing

variable {collects : HdlcReassemblerLaw L} {wire : HdlcWireLaw L law}
  {own peer : HdlcCodecLimits} {ownStream : HdlcStreamLaw L own}
  {peerStream : HdlcStreamLaw L peer} {apdu : ProfileByteView} {schedule : Nat → ReceiveCall}
  {s r : State L} {a b : List ReadEvent}

/-- A sender that waits for the reply to its only I-frame has written copies of it, and
    would not wait if the RR for it were there to be read. -/
theorem sending_one (h : Facing law collects ownStream peerStream apdu s r)
    (hrefused : ¬ Refused s apdu) (hone : framesToSend s apdu = 1)
    (hwaits : (sending apdu s a).1 = .waiting) :
    ∃ built σ m, L.buildInformationFrame s.session (lpduOf s apdu) true = (.ok, built, σ) ∧
      streamed s (sending apdu s a).2 = (List.replicate (m + 1) built).flatten ∧
      ∀ reply, (L.receiveFrame σ reply).1 = .ok →
        ¬ ownStream.framer.Encodes (readBytes a) reply := by
  rcases sendApdu_single law (s := withReads a s) h.session hrefused h.settled h.sized hone
    hwaits with ⟨built, σ, hbuild, hcall⟩
  rw [sending] at hwaits ⊢
  rw [hcall] at hwaits ⊢
  let begun := wrote built (emitted built σ (limited (withReads a s)))
  -- All writes of the call are copies of the one frame it built.
  have hcopies : WritesOnly (· = built) begun
      (retryLoop built (withReads a s).options.hdlcRetryCount.toNat begun).2 :=
    retryLoop_writesOnly (P := (· = built)) rfl _ begun
  rcases hcopies with ⟨events, htrace, hall⟩
  refine ⟨built, σ, (written events).length, hbuild, ?_, ?_⟩
  · have hsame : (written events).map (·.1) = List.replicate (written events).length built := by
      refine List.eq_replicate_iff.mpr ⟨List.length_map _, fun bytes hmem => ?_⟩
      rcases List.mem_map.mp hmem with ⟨w, hw, rfl⟩
      exact hall w hw
    have hwhole : (retryLoop built (withReads a s).options.hdlcRetryCount.toNat begun).2.trace =
        s.trace ++ ([.emit s.session built, .transport (.write built (s.writes.headD .ok))] ++
          events) := by
      rw [htrace, ← List.append_assoc]
      exact congrArg (· ++ events) (List.append_assoc _ _ _)
    rw [streamed_of_trace hwhole, written_append, List.flatMap_append, List.replicate_succ,
      List.flatten_cons, ← hsame, List.flatMap_def]
    exact congrArg (· ++ _) (List.append_nil built)
  · intro reply haccepts hreply
    have hkept : ownStream.view begun.decoder = [] := h.sender.kept
    -- Had the peer's reply been read whole, the wait would have ended with it.
    have hcoming : Coming ownStream σ reply begun := by
      refine ⟨rfl, h.sender.live, ?_, h.sender.frames, h.sender.buffer, ?_⟩ <;> rw [hkept]
      · exact Framing.Framer.scan_nil
      · exact hreply
    exact retryLoop_coming haccepts built _ hcoming hwaits

/-- A receiver that has copies of the I-frame it expects to read. -/
theorem answering_start {frame : L.Frame} {bytes : List UInt8} {m : Nat}
    (hr : Ready law collects r) (hblank : Blank peerStream r)
    (hencodes : peerStream.framer.Encodes bytes frame)
    (hread : readBytes b = (List.replicate (m + 1) bytes).flatten) :
    Answering law collects frame r (withReads b r) := by
  -- The receiver has the copies of one frame ahead of it and nothing else.
  have hcome : incoming (withReads b r) = List.replicate (m + 1) frame := by
    refine hblank.incoming (k := []) ?_
    rw [hread, Framing.Framer.scan_flatten (forall_encodes hencodes (m + 1))]
  refine ⟨⟨rfl, hr.connected, hr.settled, rfl, hr.writes, hr.collected⟩, ?_, Or.inl ⟨rfl, ?_, ?_⟩⟩
  · rw [hcome]
    exact fun f hf => List.eq_of_mem_replicate hf
  · rw [hcome, List.replicate_succ]
    exact List.cons_ne_nil _ _
  · exact ⟨[], (List.append_nil _).symm, rfl⟩

/-- A receiver that has read all copies of the I-frame it expects and waits has written the
    RR for it, and nothing else. -/
theorem receiving_copies {frame : L.Frame} {bytes : List UInt8} {m n : Nat}
    (huse : r.options.hdlcUseSession = true) (hr : Ready law collects r)
    (hblank : Blank peerStream r) (hframe : Expects law r frame)
    (hencodes : peerStream.framer.Encodes bytes frame)
    (hread : readBytes b = (List.replicate (m + 1) bytes).flatten)
    (hwaits : Blocked (receiving schedule n r b).1) :
    ∃ σ, L.Connected σ ∧ law.vr σ = law.vr r.session + 1 ∧
      streamed r (receiving schedule n r b).2 = (L.buildReceiveReadyFrame σ true).2.1 := by
  have hend := calls_answering huse hframe ((List.range n).map schedule)
    (answering_start hr hblank hencodes hread)
  -- Nothing is left to come, so it is not the first copy that is waited for.
  rcases hend.stage with ⟨-, hleft, -⟩ | ⟨-, σ, events, hσ, hvr, htrace, hwritten⟩
  · exact absurd (calls_blocked hwaits) hleft
  · refine ⟨σ, hσ, hvr, ?_⟩
    rw [receiving, streamed_of_trace htrace, hwritten, List.flatMap_singleton]

/-- A call that has segments to send fails if the first of them is not built, and waits for
    the reply to it if nothing is to be read. -/
theorem sending_segment (h : Facing law collects ownStream peerStream apdu s r)
    (hrefused : ¬ Refused s apdu) (hmany : 2 ≤ framesToSend s apdu) :
    (¬ BuildsSegment s apdu → (sending apdu s a).1 ≠ .waiting) ∧
      (BuildsSegment s apdu → ∃ bytes,
        BuiltFrom law (law.vs s.session) ((lpduOf s apdu).take (chunkSizeOf s apdu)) true bytes ∧
        (sending apdu s []).1 = .waiting ∧ (sending apdu s []).2.trace = s.trace ++
          [.emit s.session bytes, .transport (.write bytes .ok)]) := by
  rcases Nat.exists_eq_add_of_le' hmany with ⟨left, hcount⟩
  -- The first turn, whatever is to be read.
  have hturn : ∀ reads, sending apdu s reads =
      (sendChunk ((lpduOf s apdu).take (chunkSizeOf s apdu)) false >>= fun _ =>
        sendChunks (chunkSizeOf s apdu) (left + 1) ((lpduOf s apdu).drop (chunkSizeOf s apdu)))
        (limited (withReads reads s)) := by
    intro reads
    have hagain : ¬ Refused (withReads reads s) apdu := hrefused
    have huse : (withReads reads s).options.hdlcUseSession = true := h.session
    have hagain' : framesToSend (withReads reads s) apdu = left + 1 + 1 := hcount
    rw [sending, sendApdu_begins huse hagain hagain']
    rfl
  have hconnected : ∀ reads, L.Connected (limited (withReads reads s)).session := fun _ =>
    h.connected
  have hopens := fun reads => sendChunk_opens law ((lpduOf s apdu).take (chunkSizeOf s apdu))
    false (hconnected reads) h.settled
  constructor
  · intro hnot
    rcases hopens a with ⟨-, status, s1, hfail⟩ | ⟨hbuilds, -⟩
    · rw [hturn, Proc.bind_of_fail _ hfail]
      exact fun hc => by cases hc
    · exact absurd hbuilds hnot
  · intro hbuilds
    rcases hopens [] with ⟨hnot, -⟩ | ⟨-, built, σ, bytes, hbuild, hbytes, hgoes⟩
    · exact absurd hbuilds hnot
    let begun := emitted bytes σ (limited (withReads [] s))
    have hstatus : begun.writes.headD .ok = .ok := headD_ok h.writes
    have hempty : receiveDecodedFrame (wrote bytes begun) =
        (.waiting, { wrote bytes begun with reads := [] }) :=
      receiveDecodedFrame_of_empty h.sender.frames h.sender.buffer
    have hwaits : sendChunk ((lpduOf s apdu).take (chunkSizeOf s apdu)) false
        (limited (withReads [] s)) = (.waiting, { wrote bytes begun with reads := [] }) := by
      rw [hgoes, writeAndWait, Proc.bind_of_done _ (writeFrameBytes_of_ok hstatus)]
      exact retryLoop_of_waiting (Proc.bind_of_waiting _ hempty)
    refine ⟨bytes, builtFrom_of_recoded h.connected hbuild hbytes, ?_, ?_⟩
    · rw [hturn, Proc.bind_of_waiting _ hwaits]
    · rw [hturn, Proc.bind_of_waiting _ hwaits]
      have htrace : (wrote bytes begun).trace = s.trace ++ [.emit s.session bytes] ++
          [.transport (.write bytes .ok)] := by
        rw [wrote, hstatus]
        rfl
      exact htrace.trans (List.append_assoc _ _ _)

/-- A call without a segment to send does not get two ends stuck. -/
theorem not_stuck (llc : LlcLaw L) (ownFraming : HdlcFramingLaw L ownStream wire)
    (peerFraming : HdlcFramingLaw L peerStream wire)
    (h : Facing law collects ownStream peerStream apdu s r)
    (hnone : Refused s apdu ∨ framesToSend s apdu ≤ 1 ∨ ¬ BuildsSegment s apdu) :
    ¬ Stuck apdu schedule s r a b := by
  rintro ⟨hwaits, -, hconsumed, n, hblocked, hreplied⟩
  have huse : (withReads a s).options.hdlcUseSession = true := h.session
  by_cases hrefused : Refused s apdu
  · have hagain : Refused (withReads a s) apdu := hrefused
    rcases sendApdu_of_refused huse hagain with ⟨status, hfail⟩
    rw [sending, hfail] at hwaits
    cases hwaits
  by_cases hmany : 2 ≤ framesToSend s apdu
  · have hnot := (hnone.resolve_left hrefused).resolve_left (by omega)
    exact (sending_segment h hrefused hmany).1 hnot hwaits
  by_cases hzero : framesToSend s apdu = 0
  · -- The count has wrapped, and the call sends nothing.
    have hagain : ¬ Refused (withReads a s) apdu := hrefused
    have hcount : framesToSend (withReads a s) apdu = 0 := hzero
    rw [sending, sendApdu_of_unrefused huse hagain, hcount] at hwaits
    cases hwaits
  have hcount : framesToSend s apdu = 1 := by omega
  rcases sending_one h hrefused hcount hwaits with ⟨built, σ, m, hbuild, hstreamed, hnever⟩
  rcases law.information h.connected hbuild with ⟨hσ, hvs, -, hva, -⟩
  rcases wire.information h.connected hbuild with
    ⟨frame, hspells, hkind, hwhole, hinfo, hns, hnr⟩
  rcases lpdu_reads llc hrefused h.within with ⟨hne, hread⟩
  have hframe : Expects law r frame :=
    ⟨hkind, hwhole, hns.trans h.forth.symm, hnr.trans h.back, hinfo ▸ hne, _, hinfo ▸ hread⟩
  have hencodes : peerStream.framer.Encodes built frame := by
    refine peerFraming.encodes hspells ?_
    rw [hinfo]
    exact (length_le_of_one h.sized hcount).trans h.fits
  rcases receiving_copies h.ready.session h.ready h.receiver hframe hencodes
    (hconsumed.trans hstreamed) hblocked with ⟨τ, hτ, hvr, hrr⟩
  -- So the RR is there, and the session of the sender accepts it.
  rcases wire.receiveReady true hτ with ⟨reply, hspelled, hsupervisory, hnext⟩
  refine hnever reply ?_ ?_
  · refine (law.accepts hσ (numbered_of_supervisory hsupervisory)).mpr ⟨?_, ?_⟩
    · rw [hnext, hvr, h.forth, hvs]
    · rw [hsupervisory]
      exact fun hc => by cases hc
  · rw [hreplied, hrr]
    exact ownFraming.receiveReady true hτ hspelled

/-- A receiver on copies of one segment: it has queued nothing and written nothing. -/
structure Collecting (frame : L.Frame) (r t : State L) : Prop where
  options : t.options = r.options
  free : t.pendingApdus = []
  copies : ∀ f ∈ incoming t, f = frame
  unwritten : Unwritten r t

/-- One turn of the receive loop. -/
theorem receiveTurn_collecting (collects : HdlcReassemblerLaw L) {frame : L.Frame}
    (huse : r.options.hdlcUseSession = true) (hkind : L.frameKind frame.control = .information)
    (hseg : frame.segmented = true) :
    Proc.Preserves (Collecting frame r) (receiveTurn (L := L)) := by
  intro t ht
  have haside := receiveDecodedFrame_aside t
  have hin := receiveDecodedFrame_incoming t
  have hunwritten := ht.unwritten.trans (receiveDecodedFrame_readsOnly t).unwritten
  -- As long as no frame comes, nothing changes.
  have hnone : incoming (receiveDecodedFrame t).2 = incoming t →
      Collecting frame r (receiveDecodedFrame t).2 := by
    intro hsame
    refine ⟨haside.options.trans ht.options, haside.apdus.trans ht.free, ?_, hunwritten⟩
    rw [hsame]
    exact ht.copies
  rcases hr : receiveDecodedFrame t with ⟨f | status | _, t1⟩
  · have hcome := receiveDecodedFrame_done hr
    obtain rfl : f = frame := ht.copies f (hcome ▸ List.mem_cons_self)
    have huse' : t.options.hdlcUseSession = true := ht.options ▸ huse
    rcases receiveTurn_segment collects huse' hr hkind hseg with ⟨t2, hturn, hsame, hcollects⟩
    rcases hcollects.reads with ⟨reads, htrace⟩
    rw [hturn]
    refine ⟨hcollects.options.trans ht.options, hcollects.apdus.trans ht.free, ?_,
      ht.unwritten.trans ⟨_, htrace, written_reads reads⟩⟩
    rw [hsame.incoming]
    exact fun g hg => ht.copies g (hcome ▸ List.mem_cons_of_mem _ hg)
  · rw [receiveTurn, Proc.bind_of_fail _ hr]
    rw [hr] at hin hnone
    exact hnone hin.symm
  · rw [receiveTurn, Proc.bind_of_waiting _ hr]
    rw [hr] at hin hnone
    exact hnone hin.symm

/-- A receiver that has read one segment has written nothing, however often it has called. -/
theorem receiving_segment {frame : L.Frame} {bytes : List UInt8} {n : Nat}
    (hr : Ready law collects r) (hblank : Blank peerStream r)
    (hencodes : peerStream.framer.Encodes bytes frame)
    (hkind : L.frameKind frame.control = .information) (hseg : frame.segmented = true)
    (hread : readBytes b = bytes) : streamed r (receiving schedule n r b).2 = [] := by
  have hstart : Collecting frame r (withReads b r) := by
    refine ⟨rfl, hr.pending, hblank.copies (n := 1) hencodes ?_, [], ?_, rfl⟩
    · rw [hread, List.replicate_one, List.flatten_singleton]
    · exact (List.append_nil _).symm
  -- Collecting the segment is kept by every turn, since it never completes an APDU.
  have hawait : Proc.Preserves (Collecting frame r) (awaitApdu (L := L)) :=
    PendingQueue.preserves_await
      (Proc.preserves_repeatUntil (receiveTurn_collecting collects hr.session hkind hseg))
  have hcall : ∀ call t, Collecting frame r t →
      Collecting frame r (exec (.receive call) t).2 :=
    PendingQueue.preserves_call hawait fun t ht => by
      refine ⟨ht.options, ?_, ht.copies, ht.unwritten⟩
      -- The pop takes from an empty queue.
      have htail : (pending.pop t).pendingApdus = t.pendingApdus.tail := rfl
      rw [htail, ht.free, List.tail_nil]
  have hend : Collecting frame r (receiving schedule n r b).2 := by
    refine run_preserves (I := Collecting frame r) (fun op hop t ht => ?_) hstart
    rcases List.mem_map.mp hop with ⟨call, -, rfl⟩
    exact hcall call t ht
  rcases hend.unwritten with ⟨events, htrace, hnone⟩
  rw [streamed_of_trace htrace, hnone, List.flatMap_nil]

/-- A segment gets two ends stuck: the receiver reads it whole and says nothing. -/
theorem stuck_of_segment (peerFraming : HdlcFramingLaw L peerStream wire)
    (h : Facing law collects ownStream peerStream apdu s r) (hrefused : ¬ Refused s apdu)
    (hmany : 2 ≤ framesToSend s apdu) (hbuilds : BuildsSegment s apdu) :
    ∃ b, Joint apdu (fun _ => .vector) s r [] b ∧ Stuck apdu (fun _ => .vector) s r [] b := by
  rcases (sending_segment (a := []) h hrefused hmany).2 hbuilds with
    ⟨bytes, hbuilt, hwaits, htrace⟩
  rcases builtFrom_spells wire hbuilt with ⟨frame, hspells, hkind, hseg, hinfo, -⟩
  have hencodes : peerStream.framer.Encodes bytes frame := by
    refine peerFraming.encodes hspells ?_
    rw [hinfo]
    exact (List.length_take_le _ _).trans h.fits
  have hstreamed : streamed s (sending apdu s []).2 = bytes := by
    rw [streamed_of_trace htrace]
    exact List.append_nil bytes
  have hread : readBytes (byteByByte bytes) = bytes := readBytes_byteByByte bytes
  -- The receiver comes to wait whatever it has read, and never says anything of it.
  have hblocks : ∀ c, ∃ n, Blocked (receiving (fun _ => .vector) n r c).1 :=
    fun c => (vectors_block h.receiver.buffer).imp fun n hn => hn 0
  have hjoint : Joint apdu (fun _ => .vector) s r [] (byteByByte bytes) := by
    refine Joint.start.feeds h.receiver.buffer (fun c _ => hblocks c) bytes ?_
    rw [hstreamed]
    exact List.prefix_rfl
  rcases hblocks (byteByByte bytes) with ⟨n, hblocked⟩
  have hsilent : streamed r (receiving (fun _ => .vector) n r (byteByByte bytes)).2 = [] :=
    receiving_segment h.ready h.receiver hencodes hkind hseg hread
  refine ⟨byteByByte bytes, hjoint, hwaits, ?_, hread.trans hstreamed.symm, n, hblocked,
    hsilent.symm⟩
  refine ⟨[], s.session, bytes, [.transport (.write bytes .ok)], ?_, ?_⟩
  · have htrace' : (sendApdu apdu (withReads [] s)).2.trace = (withReads [] s).trace ++
        [.emit s.session bytes, .transport (.write bytes .ok)] := htrace
    rw [sentBy, htrace', List.drop_left]
    rfl
  · intro τ frame hmem
    cases List.mem_singleton.mp hmem

/-- Two ends of an established link never get stuck over a call of `SendApdu` if and only
    if the call has no segment to send: it is refused, its LPDU fits one I-frame, the count
    of I-frames wraps, or the first of several is not built. -/
theorem never_stuck_iff (llc : LlcLaw L) (ownFraming : HdlcFramingLaw L ownStream wire)
    (peerFraming : HdlcFramingLaw L peerStream wire)
    (h : Facing law collects ownStream peerStream apdu s r) :
    NeverStuck apdu s r ↔
      Refused s apdu ∨ (Fits s apdu ∨ ¬ CountFits s apdu) ∨ ¬ BuildsSegment s apdu := by
  rw [← frames_le_iff h.sized]
  constructor
  · intro hnever
    -- Two frames or more: the sender waits after the first segment, the receiver for the next.
    by_contra hnot
    simp only [not_or, not_not, Nat.not_le] at hnot
    rcases hnot with ⟨hrefused, hmany, hbuilds⟩
    rcases stuck_of_segment peerFraming h hrefused hmany hbuilds with ⟨b, hjoint, hstuck⟩
    exact hnever _ _ _ hjoint hstuck
  -- One frame or none: the receiver answers it, or there is no wait at all.
  · intro hnone schedule a b _
    exact not_stuck llc ownFraming peerFraming h hnone

end Facing

/-- A client and a server that have just established the link. -/
def established (transmit : Nat) : State Reference.hdlcLib × State Reference.hdlcLib :=
  ((run [.connectDataLink] (Reference.hdlcChannel
    { Reference.sessionOptions with hdlcMaxInformationFieldLengthTransmit := transmit }
      [Reference.arrived (Reference.toClient Reference.ua [])])).2,
  (run [.acceptDataLink] (Reference.hdlcChannel Reference.serverOptions
    [Reference.arrived (Reference.toServer Reference.snrm [])])).2)

/-- They face each other, whatever length was negotiated of these. -/
theorem established_facing : ∀ transmit ∈ [2, 4],
    Facing Reference.sessionLaw Reference.reassemblerLaw
      (Reference.hdlcStreamLaw (established transmit).1.decoder.key)
      (Reference.hdlcStreamLaw (established transmit).2.decoder.key) (.of [0xC0])
      (established transmit).1 (established transmit).2 := by
  intro transmit htransmit
  -- One decision for both limits about each end, then one about the two together.
  have hsender : ∀ transmit ∈ [2, 4], let s := (established transmit).1
      s.options.hdlcUseSession = true ∧ Reference.hdlcLib.Connected s.session ∧
        Reference.sessionLaw.va s.session = Reference.sessionLaw.vs s.session ∧
        (∀ status ∈ s.writes, status = .ok) ∧ s.decoder.kept = [] ∧
        s.pendingHdlcFrames = [] ∧ s.readBufferSize ≠ 0 ∧ transmitLimit s < 2 ^ 64 ∧
        (lpduOf s (.of [0xC0])).length < 2 ^ 64 := by
    decide +kernel
  have hreceiver : ∀ transmit ∈ [2, 4], let r := (established transmit).2
      r.options.hdlcUseSession = true ∧ Reference.hdlcLib.Connected r.session ∧
        Reference.sessionLaw.va r.session = Reference.sessionLaw.vs r.session ∧
        r.pendingApdus = [] ∧ (∀ status ∈ r.writes, status = .ok) ∧
        Reference.reassemblerLaw.collected r.reassembler = [] ∧ r.decoder.kept = [] ∧
        r.pendingHdlcFrames = [] ∧ r.readBufferSize ≠ 0 ∧
        ¬ (r.options.maximumApduSize ≠ 0 ∧ r.options.maximumApduSize < 1) := by
    decide +kernel
  have hboth : ∀ transmit ∈ [2, 4], let s := (established transmit).1
      let r := (established transmit).2
      Reference.sessionLaw.vr r.session = Reference.sessionLaw.vs s.session ∧
        Reference.sessionLaw.vr s.session = Reference.sessionLaw.vs r.session ∧
        chunkSizeOf s (.of [0xC0]) ≤ r.decoder.key.maximumInformationFieldSize := by
    decide +kernel
  rcases hsender transmit htransmit with
    ⟨huse, hσ, hsettled, hwrites, hkept, hframes, hbuffer, hlimit, hlpdu⟩
  rcases hreceiver transmit htransmit with
    ⟨huse', hσ', hsettled', hpending, hwrites', hcollected, hkept', hframes', hbuffer', hwithin⟩
  rcases hboth transmit htransmit with ⟨hforth, hback, hfits⟩
  refine ⟨huse, hσ, hsettled, hwrites, ⟨⟨huse', hσ', hsettled', hpending, hwrites'⟩, hcollected⟩,
    ⟨rfl, hkept, hframes, hbuffer⟩, ⟨rfl, hkept', hframes', hbuffer'⟩, hforth, hback, ?_, hwithin,
    hfits⟩
  intro apdu hop
  obtain rfl := Operation.send.inj hop
  exact ⟨hlimit, hlpdu⟩

/-- An LPDU of four bytes goes out in one I-frame of four. -/
theorem never_stuck_four : NeverStuck (.of [0xC0]) (established 4).1 (established 4).2 :=
  have hfacing := established_facing 4 (by decide)
  (never_stuck_iff Reference.llcLaw (Reference.framingLaw _) (Reference.framingLaw _) hfacing).mpr
    (Or.inr (Or.inl (Or.inl (by decide +kernel))))

/-- In two I-frames of two it gets no further than the first: the server has read it and
    collected it, and has written nothing. -/
theorem never_stuck_refuted :
    let s := (established 2).1
    let r := (established 2).2
    let first := Reference.frameBytes ⟨true, 0x03, 0x21, 0x00, [0xE6, 0xE6]⟩
    let received := receiving (fun _ => .vector) 1 r [Reference.arrived first]
    (sending (.of [0xC0]) s []).1 = .waiting ∧ streamed s (sending (.of [0xC0]) s []).2 = first ∧
      received.1 = [.received (.vector .waiting)] ∧ streamed r received.2 = [] ∧
      (Reference.reassemblerLaw.collected received.2.reassembler).map (·.information) =
        [[0xE6, 0xE6]] ∧
      ¬ NeverStuck (.of [0xC0]) s r := by
  intro s r first received
  -- The run itself: a segment is written, consumed and never acknowledged.
  have hfacts : (sending (.of [0xC0]) s []).1 = .waiting ∧
      streamed s (sending (.of [0xC0]) s []).2 = first ∧
      received.1 = [.received (.vector .waiting)] ∧ streamed r received.2 = [] ∧
      (Reference.reassemblerLaw.collected received.2.reassembler).map (·.information) =
        [[0xE6, 0xE6]] := by
    decide +kernel
  have hsegment : ¬ Refused s (.of [0xC0]) ∧ 2 ≤ framesToSend s (.of [0xC0]) ∧
      BuildsSegment s (.of [0xC0]) := by
    decide +kernel
  rcases hfacts with ⟨hwaits, hwritten, hblocked, hsilent, hcollected⟩
  refine ⟨hwaits, hwritten, hblocked, hsilent, hcollected, fun hnever => ?_⟩
  have hfacing := established_facing 2 (by decide)
  rcases stuck_of_segment (Reference.framingLaw _) hfacing hsegment.1 hsegment.2.1 hsegment.2.2
    with ⟨b, hjoint, hstuck⟩
  exact hnever _ _ _ hjoint hstuck

end Hdlc

end DlmsProfile
