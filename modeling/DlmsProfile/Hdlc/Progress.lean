import DlmsProfile.Causality
import DlmsProfile.Hdlc.Conversation

/-!
# Every Turn can be Completed

A call of `SendApdu` waits for an RR, and the other end for what the call wrote. Whatever
the reads they have made, the two can be brought to the end of the turn as long as the
sender has not given up: the receiver is handed what it has not read, and the sender the
rest of the RR.

The receiver may be handed it one byte at a time. It calls again whatever a call gives back,
so all it takes is room for the APDU. The sender counts its attempts, and a decoder that
finds no frame in a part of the RR may end one. So the sender is handed the rest at once,
and its read buffer must have room for an RR.

The sender is told apart from one that has given up by a run over the reads it has made:
that run waits, and with one read more it goes on from there.

## Main definitions

* `Hdlc.HoldsReady`: A read buffer with room for an RR.
* `Hdlc.linked`: Two ends of a link just established.

## Theorems

* `Hdlc.copies_block`: A receiver with room for the APDU comes to wait.
* `Hdlc.retryLoop_finishes`: A sender that waits for the last read is done with it.
* `Hdlc.joint_prefix`: Neither end has read more than the other has written.
* `Hdlc.turn_completes`: A turn under way can be completed.
* `Hdlc.conversation_exact`: Each end hands over what the other sent, in order and once.
* `Hdlc.conversation_live`: At any point of a conversation a call can be completed.
-/

namespace DlmsProfile

namespace Hdlc

variable {L : HdlcLib} {law : HdlcSessionLaw L} {collects : HdlcReassemblerLaw L}

section Receiver

variable {peer : HdlcCodecLimits} {peerStream : HdlcStreamLaw L peer} {frame : L.Frame}
  {apdu bytes : List UInt8} {r t : State L} {c : List ReadEvent} {m : Nat}
  {schedule : Nat → ReceiveCall}

/-- What is queued is the APDU of the I-frame, if it is anything. -/
theorem Taking.queued {handed : List (List UInt8)} (h : Taking law collects frame r t)
    (hdue : handed ++ due law apdu r t = [apdu]) : ∀ queued ∈ t.pendingApdus, queued = apdu := by
  intro queued hmem
  by_cases hvr : law.vr t.session = law.vr r.session
  · rw [h.free hvr] at hmem
    cases hmem
  · rw [due, if_neg hvr] at hdue
    have hall : queued ∈ handed ++ t.pendingApdus := List.mem_append_right handed hmem
    rw [hdue] at hall
    exact List.mem_singleton.mp hall

/-- A receiver on copies of an I-frame whose calls have room for its APDU comes to wait. -/
theorem copies_block (hr : Ready law collects r) (hblank : Blank peerStream r)
    (hframe : Expects law r frame)
    (hinfo : readInformation L r.options frame.information = .ok apdu)
    (henc : peerStream.framer.Encodes bytes frame) (hroom : ∀ i, (schedule i).HasRoom apdu)
    (hread : readBytes c <+: (List.replicate m bytes).flatten) :
    ∃ n, ∀ more, Blocked (receiving schedule (n + more) r c).1 := by
  -- Whatever is queued meanwhile is the APDU, and each call that accepts has room for it.
  refine calls_block (I := fun t => Taking law collects frame r t ∧
    ∃ handed, handed ++ due law apdu r t = [apdu]) ?_ ?_ ?_ hblank.buffer ?_
  · intro i room hcall
    exact ⟨(hroom i room hcall).1, Nat.zero_le _⟩
  · rintro i t ⟨htaking, handed, hdue⟩ queued hmem
    rw [htaking.queued hdue queued hmem]
    exact hroom i
  · rintro i t ⟨htaking, handed, hdue⟩
    rcases call_due hr.session hframe hinfo (schedule i) htaking with ⟨hnext, howed⟩
    refine ⟨hnext, handed ++ (exec (.receive (schedule i)) t).1.delivered.toList, ?_⟩
    rw [List.append_assoc, ← howed]
    exact hdue
  · have hnow : due law apdu r (withReads c r) = [apdu] := if_pos rfl
    exact ⟨taking_start hr hblank henc hread, [], hnow⟩

end Receiver

section Sender

variable {limits : HdlcCodecLimits} {stream : HdlcStreamLaw L limits} {σ : L.Session}
  {frame : L.Frame} {s : State L} {e : ReadEvent}

/-- A loop that waits for the last read of a frame ends with it. -/
theorem loop_finishes (hok : e.status = .ok) (hne : e.bytes ≠ []) (reads : List ReadEvent)
    (hreads : s.reads = reads) (h : Coming stream σ frame (withMore [e] s))
    (hwaits : (receiveDecodedFrameLoop reads s).1 = .waiting) :
    ∃ s', receiveDecodedFrameLoop (reads ++ [e]) (withMore [e] s) = (.done frame, s') ∧
      s'.session = σ ∧
      s'.trace = (receiveDecodedFrameLoop reads s).2.trace ++ [.transport (.read e)] := by
  induction reads generalizing s with
  | nil =>
      have hall := h.encodes
      have hread : readBytes (withMore [e] s).reads = e.bytes := by
        have hone : (withMore [e] s).reads = [e] := congrArg (· ++ [e]) hreads
        rw [hone, readBytes, if_pos hok, readBytes, List.append_nil]
      rw [hread] at hall
      rcases push_brings h.live hall with ⟨hst, hframes, -⟩
      exact ⟨_, loop_completed hok hne hst hframes, h.session, rfl⟩
  | cons e' rest ih =>
      by_cases hok' : e'.status = .ok
      swap
      · rw [loop_readFailed hok'] at hwaits
        cases hwaits
      by_cases he' : e'.bytes = []
      · rw [loop_readEmpty hok' he'] at hwaits
        cases hwaits
      -- What the last read brings is still missing, so this read completes nothing.
      have hall := h.encodes
      have hwhole : (withMore [e] s).reads = e' :: (rest ++ [e]) := congrArg (· ++ [e]) hreads
      have hrest : readBytes (rest ++ [e]) ≠ [] := by
        rw [readBytes_append, readBytes, if_pos hok, readBytes, List.append_nil]
        exact fun hnil => hne (List.append_eq_nil_iff.mp hnil).2
      rw [hwhole, readBytes, if_pos hok', ← List.append_assoc] at hall
      rcases Framing.Framer.encodes_part hall hrest with ⟨k, hscan, hkept⟩
      rcases stream.follows.push_rest h.live hscan with ⟨hframes, hview, hstatus⟩
      have hst : mapHdlcStatus (L.push s.decoder e'.bytes).1 ≠ .ok := by
        intro hst
        rw [loop_noFrame (s := s) hok' he' hst hframes] at hwaits
        cases hwaits
      have hmore := (hstatus.resolve_left hst).1
      rw [← hview] at hscan hkept
      rw [loop_continued (s := s) hok' he' hmore] at hwaits ⊢
      rw [List.cons_append, loop_continued (s := withMore [e] s) hok' he' hmore]
      have hnext : Coming stream σ frame
          (withMore [e] { afterRead e' rest s with decoder := (L.push s.decoder e'.bytes).2.2 }) :=
        ⟨h.session, stream.follows.push_live e'.bytes h.live,
          Framing.Framer.scan_rest_self hscan, h.frames, h.buffer, hkept⟩
      exact ih rfl hnext hwaits

/-- An attempt that waits for the last read of the reply is done with it. -/
theorem control_finishes (haccepts : (L.receiveFrame σ frame).1 = .ok) (hok : e.status = .ok)
    (hne : e.bytes ≠ []) (h : Coming stream σ frame (withMore [e] s))
    (hwaits : (receiveSessionControlFrame s).1 = .waiting) :
    ∃ s', receiveSessionControlFrame (withMore [e] s) = (.done (), s') ∧
      s'.trace = (receiveSessionControlFrame s).2.trace ++
        [.transport (.read e), .receive σ frame .ok] := by
  have hframes : s.pendingHdlcFrames = [] := h.frames
  have hbuffer : s.readBufferSize ≠ 0 := h.buffer
  have hnow : receiveDecodedFrame s = receiveDecodedFrameLoop s.reads s :=
    receiveDecodedFrame_of_empty hframes hbuffer
  -- It waits for bytes, as the session does not.
  have hloop : receiveDecodedFrameLoop s.reads s =
      (.waiting, (receiveSessionControlFrame s).2) := by
    rcases Proc.bind_waiting_iff.mp (Prod.ext hwaits rfl :
        receiveSessionControlFrame s = (.waiting, (receiveSessionControlFrame s).2)) with
      hwaiting | ⟨f, s1, -, hreceive⟩
    · rw [← hnow]
      exact hwaiting
    · exact absurd hreceive check_ne_waiting
  rcases loop_finishes hok hne s.reads rfl h (congrArg Prod.fst hloop) with
    ⟨s', hdone, hσ, htrace⟩
  have hlater : receiveDecodedFrame (withMore [e] s) = (.done frame, s') :=
    (receiveDecodedFrame_of_empty (s := withMore [e] s) hframes hbuffer).trans hdone
  rw [hloop] at htrace
  refine ⟨judged frame s', ?_, ?_⟩
  · rw [receiveSessionControlFrame, Proc.bind_of_done _ hlater, sessionReceive_eq, hσ, haccepts,
      mapHdlcStatus_eq_ok.mpr rfl, check_ok]
  · simp only [judged, htrace, hσ, haccepts, List.append_assoc, List.cons_append, List.nil_append]

/-- A sender that waits for the last read of the reply is done with it, and has written
    nothing more. -/
theorem retryLoop_finishes (haccepts : (L.receiveFrame σ frame).1 = .ok) (hok : e.status = .ok)
    (hne : e.bytes ≠ []) (bytes : List UInt8) (left : Nat)
    (h : Coming stream σ frame (withMore [e] s)) (hwaits : (retryLoop bytes left s).1 = .waiting) :
    ∃ s', retryLoop bytes left (withMore [e] s) = (.done (), s') ∧
      s'.trace = (retryLoop bytes left s).2.trace ++
        [.transport (.read e), .receive σ frame .ok] := by
  induction left generalizing s with
  | zero => exact control_finishes haccepts hok hne h hwaits
  | succ left ih =>
      -- An attempt that returned does not look at the read that is added.
      have hfollows : ∀ {o : Outcome ProfileStatus Unit} {s1 : State L},
          receiveSessionControlFrame s = (o, s1) → o ≠ .waiting →
          receiveSessionControlFrame (withMore [e] s) = (o, withMore [e] s1) := by
        intro o s1 hs ho
        have hcausal : Causal [e] (receiveSessionControlFrame (L := L)) := causal_control
        have hreturned := hcausal.returned s
        rw [hs] at hreturned
        exact hreturned ho
      rcases hcontrol : receiveSessionControlFrame s with ⟨⟨⟩ | status | _, s1⟩
      · rw [retryLoop_of_done hcontrol] at hwaits
        cases hwaits
      · -- This attempt fails as it did, and what the next one is to wait for is all there.
        have hlater := hfollows hcontrol fun hc => by cases hc
        cases hagain : isRetriableReceiveStatus status with
        | false =>
            rw [retryLoop_of_fail hcontrol (Or.inl hagain)] at hwaits
            cases hwaits
        | true =>
            have hcoming : Coming stream σ frame (withMore [e] s1) := by
              rcases control_coming haccepts h with ⟨s', hdone⟩ | ⟨status', s', hfail, hcoming⟩
              · rw [hlater] at hdone
                cases hdone
              · rw [hlater] at hfail
                exact (Prod.mk.inj hfail).2 ▸ hcoming
            rw [retryLoop_of_retry hcontrol hagain] at hwaits ⊢
            rw [retryLoop_of_retry hlater hagain]
            have hcausal : Causal [e] (sleepBeforeRetry (L := L)) := causal_sleepBeforeRetry
            have hsleeps := hcausal.returned s1
            have haside := sleepBeforeRetry_aside (withMore [e] s1)
            have hsame := sleepBeforeRetry_sameIntake (withMore [e] s1)
            rcases hsleep : sleepBeforeRetry s1 with ⟨⟨⟩ | status' | _, s2⟩ <;>
              rw [hsleep] at hsleeps
            · have hsleep' := hsleeps fun hc => by cases hc
              rw [Proc.bind_of_done _ hsleep] at hwaits ⊢
              rw [Proc.bind_of_done _ hsleep']
              rw [hsleep'] at haside hsame
              have hcausal' : Causal [e] (writeFrameBytes (L := L) bytes) :=
                causal_writeFrameBytes bytes
              have hwrites := hcausal'.returned s2
              have haside' := writeFrameBytes_aside bytes (withMore [e] s2)
              have hsame' := writeFrameBytes_sameIntake bytes (withMore [e] s2)
              rcases hwrite : writeFrameBytes bytes s2 with ⟨⟨⟩ | status' | _, s3⟩ <;>
                rw [hwrite] at hwrites
              · have hwrite' := hwrites fun hc => by cases hc
                rw [Proc.bind_of_done _ hwrite] at hwaits ⊢
                rw [Proc.bind_of_done _ hwrite']
                rw [hwrite'] at haside' hsame'
                exact ih ((hcoming.of_same haside hsame).of_same haside' hsame') hwaits
              · rw [Proc.bind_of_fail _ hwrite] at hwaits
                cases hwaits
              · exact absurd hwrite check_ne_waiting
            · rw [Proc.bind_of_fail _ hsleep] at hwaits
              cases hwaits
            · exact absurd (congrArg Prod.fst hsleep) (sleep_ne_waiting s1)
      -- It is this attempt that waits, and the read completes it.
      · rw [retryLoop_of_waiting hcontrol] at hwaits ⊢
        have hone : (receiveSessionControlFrame s).1 = .waiting := congrArg Prod.fst hcontrol
        rcases control_finishes haccepts hok hne h hone with ⟨s', hdone, htrace⟩
        rw [hcontrol] at htrace
        exact ⟨s', retryLoop_of_done hdone, htrace⟩

end Sender

/-- A client and a server that have just established a link. -/
def linked : Side → State Reference.hdlcLib
  | .left => (established 4).1
  | .right => (established 4).2

/-- The limits the decoder of an end was made with. -/
def linkedLimits (side : Side) : HdlcCodecLimits := (linked side).decoder.key

theorem linked_coupled : Coupled Reference.sessionLaw Reference.reassemblerLaw
    (fun side => Reference.hdlcStreamLaw (linkedLimits side)) linked := by
  -- Both ends are evaluated, as they are after the link was established.
  have hready : ∀ side, let s := linked side
      s.options.hdlcUseSession = true ∧ Reference.hdlcLib.Connected s.session ∧
        Reference.sessionLaw.va s.session = Reference.sessionLaw.vs s.session ∧
        s.pendingApdus = [] ∧ (∀ status ∈ s.writes, status = .ok) ∧
        Reference.reassemblerLaw.collected s.reassembler = [] := by
    intro side
    cases side <;> decide +kernel
  have hblank : ∀ side, let s := linked side
      s.decoder.kept = [] ∧ s.pendingHdlcFrames = [] ∧ s.readBufferSize ≠ 0 ∧
        (∀ status ∈ s.sleeps, status = .ok) ∧
        Reference.sessionLaw.vr (linked side.other).session =
          Reference.sessionLaw.vs s.session := by
    intro side
    cases side <;> decide +kernel
  refine ⟨fun side => ?_, fun side => ?_, fun side => ?_, fun side => (hblank side).2.2.2.2⟩
  · rcases hready side with ⟨huse, hσ, hsettled, hpending, hwrites, hcollected⟩
    exact ⟨⟨huse, hσ, hsettled, hpending, hwrites⟩, hcollected⟩
  · rcases hblank side with ⟨hkept, hframes, hbuffer, -⟩
    exact ⟨rfl, hkept, hframes, hbuffer⟩
  · exact ⟨(hready side).2.2.2.2.1, (hblank side).2.2.2.1⟩

/-- What an end suits an APDU by, for the one `SendApdu` at hand. -/
theorem Suits.of_sizes {limits : HdlcCodecLimits} {apdu : ProfileByteView} {s r : State L}
    (hlimit : transmitLimit s < 2 ^ 64) (hlpdu : (lpduOf s apdu).length < 2 ^ 64)
    (hone : framesToSend s apdu = 1)
    (hwithin : ¬ (r.options.maximumApduSize ≠ 0 ∧
      r.options.maximumApduSize < apdu.data.length))
    (hfits : (lpduOf s apdu).length ≤ limits.maximumInformationFieldSize) :
    Suits limits apdu s r := by
  refine ⟨fun sent hop => ?_, hone, hwithin, hfits⟩
  obtain rfl := Operation.send.inj hop
  exact ⟨hlimit, hlpdu⟩

section Turns

variable {apdu : ProfileByteView} {schedule : Nat → ReceiveCall} {s r t t' : State L}
  {a b c : List ReadEvent} {n m : Nat}

/-- More that was done has more of it on the stream. -/
theorem streamed_prefix (h : s.trace <+: t.trace) (h' : t.trace <+: t'.trace) :
    streamed s t <+: streamed s t' := by
  rcases h with ⟨events, hevents⟩
  rcases h' with ⟨more, hmore⟩
  have hall : t'.trace = s.trace ++ (events ++ more) := by
    rw [← hmore, ← hevents, List.append_assoc]
  rw [streamed_of_trace hevents.symm, streamed_of_trace hall, written_append, List.flatMap_append]
  exact List.prefix_append _ _

/-- What a sender has written stays written when it reads on. -/
theorem sending_grows (apdu : ProfileByteView) (s : State L) (a c : List ReadEvent) :
    streamed s (sending apdu s a).2 <+: streamed s (sending apdu s (a ++ c)).2 := by
  have hcausal : Causal c (sendApdu (L := L) apdu) := causal_sendApdu apdu
  have hstart : s.trace <+: (sending apdu s a).2.trace := hcausal.grows (withReads a s)
  refine streamed_prefix hstart ?_
  have hlater : sending apdu s (a ++ c) = sendApdu apdu (withMore c (withReads a s)) := rfl
  rw [hlater]
  -- A call that waits goes on, and one that has returned stays as it is.
  by_cases hwaits : (sending apdu s a).1 = .waiting
  · exact hcausal.waited (withReads a s) hwaits
  · rw [hcausal.returned (withReads a s) hwaits]
    exact List.prefix_rfl

/-- So it is with a receiver, also when it makes more calls. -/
theorem receiving_grows (r : State L) (b c : List ReadEvent) (hn : n ≤ m) :
    streamed r (receiving schedule n r b).2 <+: streamed r (receiving schedule m r (b ++ c)).2 := by
  have hstart : r.trace <+: (receiving schedule n r b).2.trace := by
    have hgrows := runs_grows (causal_exec (L := L) c)
      (((List.range n).map schedule).map .receive) (withReads b r)
    rwa [← run_eq] at hgrows
  refine streamed_prefix hstart ?_
  rcases Nat.exists_eq_add_of_le hn with ⟨k, rfl⟩
  -- The calls added come after those made before.
  have hcalls : ((List.range (n + k)).map schedule).map Operation.receive =
      ((List.range n).map schedule).map .receive ++
        (((List.range k).map (n + ·)).map schedule).map .receive := by
    rw [List.range_add, List.map_append, List.map_append]
  have hlater : receiving schedule (n + k) r (b ++ c) =
      run (((List.range (n + k)).map schedule).map .receive) (withMore c (withReads b r)) := rfl
  rw [hlater, hcalls]
  exact run_grows c _ _ (withReads b r)

/-- Neither end has read more than the other has written. -/
theorem joint_prefix (h : Joint apdu schedule s r a b) :
    (∃ n, readBytes a <+: streamed r (receiving schedule n r b).2) ∧
      readBytes b <+: streamed s (sending apdu s a).2 := by
  induction h with
  | start => exact ⟨⟨0, List.nil_prefix⟩, List.nil_prefix⟩
  | @toSender a b e n _ _ _ hread ih => exact ⟨⟨n, hread⟩, ih.2.trans (sending_grows apdu s a [e])⟩
  | @toReceiver a b e n _ _ _ hread ih =>
      rcases ih.1 with ⟨k, hk⟩
      exact ⟨⟨k, hk.trans (receiving_grows r b [e] (Nat.le_refl k))⟩, hread⟩

variable {codec : Side → HdlcCodecLimits} {streams : ∀ side, HdlcStreamLaw L (codec side)}
  {wire : HdlcWireLaw L law} {ends : Side → State L} {side : Side}

/-- A receiver that waits again and again is handed what it has not read yet. -/
theorem joint_receives (h : Joint apdu schedule s r a b) (hbuffer : r.readBufferSize ≠ 0)
    (hblocks : ∀ c, readBytes c <+: streamed s (sending apdu s a).2 →
      ∃ n, ∀ more, Blocked (receiving schedule (n + more) r c).1) :
    ∃ b' n, Joint apdu schedule s r a (b ++ b') ∧
      readBytes (b ++ b') = streamed s (sending apdu s a).2 ∧
      Blocked (receiving schedule n r (b ++ b')).1 ∧
      readBytes a <+: streamed r (receiving schedule n r (b ++ b')).2 := by
  -- What the receiver has not read yet is given to it byte by byte.
  rcases joint_prefix h with ⟨⟨k, hk⟩, bytes, hwritten⟩
  have hread : readBytes (b ++ byteByByte bytes) = streamed s (sending apdu s a).2 := by
    rw [readBytes_append, readBytes_byteByByte, hwritten]
  rcases hblocks (b ++ byteByByte bytes) (hread ▸ List.prefix_rfl) with ⟨n, hn⟩
  refine ⟨byteByByte bytes, n + k, ?_, hread, hn k, ?_⟩
  · exact h.feeds hbuffer (fun c hc => (hblocks c hc).imp fun n hn => hn 0) bytes
      (hwritten ▸ List.prefix_rfl)
  · exact hk.trans (receiving_grows r b (byteByByte bytes) (Nat.le_add_left k n))

/-- A sender that waits for the rest of the reply completes its call when it is handed it in
    one read, and writes nothing more. -/
theorem sending_finishes {limits : HdlcCodecLimits} {stream : HdlcStreamLaw L limits}
    {built rr : List UInt8} {σ : L.Session} {reply : L.Frame} (hs : Ready law collects s)
    (hblank : Blank stream s) (hwilling : Willing s) (hrefused : ¬ Refused s apdu)
    (hsized : Sized s (.send apdu)) (hone : framesToSend s apdu = 1)
    (hbuild : L.buildInformationFrame s.session (lpduOf s apdu) true = (.ok, built, σ))
    (hcall : sending apdu s a = retryLoop built s.options.hdlcRetryCount.toNat (begun built σ a s))
    (hwaits : (sending apdu s a).1 = .waiting) (haccepts : (L.receiveFrame σ reply).1 = .ok)
    (hencodes : stream.framer.Encodes rr reply) (hread : readBytes a <+: rr) :
    ∃ e, e.bytes.length ≤ rr.length ∧ readBytes (a ++ [e]) = rr ∧
      (sending apdu s (a ++ [e])).1 = .done () ∧
      streamed s (sending apdu s (a ++ [e])).2 = streamed s (sending apdu s a).2 := by
  have hcoming : ∀ {c : List ReadEvent}, readBytes c = rr →
      Coming stream σ reply (begun built σ c s) := by
    intro c hc
    have hkept : stream.view (begun built σ c s).decoder = [] := hblank.kept
    have hall : stream.framer.Encodes (readBytes c) reply := hc ▸ hencodes
    refine ⟨rfl, hblank.live, ?_, hblank.frames, hblank.buffer, ?_⟩ <;> rw [hkept]
    · exact Framing.Framer.scan_nil
    · exact hall
  have hloop : (retryLoop built s.options.hdlcRetryCount.toNat (begun built σ a s)).1 = .waiting :=
    (congrArg Prod.fst hcall).symm.trans hwaits
  rcases hread with ⟨bytes, rfl⟩
  let e : ReadEvent := ⟨.ok, bytes⟩
  have hall : readBytes (a ++ [e]) = readBytes a ++ bytes := by
    rw [readBytes_append, readBytes, if_pos rfl, readBytes, List.append_nil]
  -- Had it read all of the reply, it would not wait.
  have hne : bytes ≠ [] := by
    intro hnil
    rw [hnil, List.append_nil] at hcoming
    exact retryLoop_coming haccepts built _ (hcoming rfl) hloop
  rcases retryLoop_finishes (e := e) haccepts rfl hne built _ (hcoming hall) hloop with
    ⟨s', hdone, htrace⟩
  have hlater : sending apdu s (a ++ [e]) = (.done (), s') := by
    have hwilling' : Willing (withReads (a ++ [e]) s) := ⟨hwilling.writes, hwilling.sleeps⟩
    rcases sendApdu_one law (s := withReads (a ++ [e]) s) hs.session hrefused hs.settled
      hwilling' hsized hone with ⟨hnot, -⟩ | ⟨built', σ', hbuild', hcall'⟩
    · exact absurd ⟨congrArg Prod.fst hbuild, rfl⟩ hnot
    · obtain ⟨-, rfl, rfl⟩ := Prod.mk.injEq .. ▸ hbuild'.symm.trans hbuild
      exact hcall'.trans hdone
  have hshort : e.bytes.length ≤ (readBytes a ++ bytes).length := by
    rw [List.length_append]
    exact Nat.le_add_left _ _
  refine ⟨e, hshort, hall, congrArg Prod.fst hlater, ?_⟩
  have hcausal : Causal [] (sendApdu (L := L) apdu) := causal_sendApdu apdu
  rcases hcausal.grows (withReads a s) with ⟨events, hevents⟩
  have hnow : (sending apdu s a).2.trace = s.trace ++ events := hevents.symm
  rw [← hcall, hnow, List.append_assoc] at htrace
  rw [hlater, streamed_of_trace htrace, streamed_of_trace hnow, written_append]
  have hquiet : written [Event.transport (.read e), .receive σ reply .ok] = [] := rfl
  rw [hquiet, List.append_nil]

/-- The read buffer has room for an RR. -/
def HoldsReady (s : State L) : Prop :=
  ∀ σ : L.Session, L.Connected σ →
    (L.buildReceiveReadyFrame σ true).2.1.length ≤ s.readBufferSize

/-- As long as the sender waits, a turn can be completed: the receiver reads what there is,
    and the sender reads the rest of the reply at once. -/
theorem turn_completes (llc : LlcLaw L) (framing : ∀ side, HdlcFramingLaw L (streams side) wire)
    (h : Coupled law collects streams ends)
    (hsuits : Suits (codec side.other) apdu (ends side) (ends side.other))
    (hholds : HoldsReady (ends side)) (hroom : ∀ i, (schedule i).HasRoom apdu.data)
    (hjoint : Joint apdu schedule (ends side) (ends side.other) a b)
    (hwaits : (sending apdu (ends side) a).1 = .waiting) :
    ∃ e b' n, Joint apdu schedule (ends side) (ends side.other) (a ++ [e]) (b ++ b') ∧
      (sending apdu (ends side) (a ++ [e])).1 = .done () ∧
      Turn codec ends ⟨side, apdu.data, [apdu.data]⟩
        (fun other => if other = side then (sending apdu (ends side) (a ++ [e])).2
          else (receiving schedule n (ends side.other) (b ++ b')).2) := by
  have hs := h.ready side
  have hrefused : ¬ Refused (ends side) apdu := by
    intro hrefused
    have hagain : Refused (withReads a (ends side)) apdu := hrefused
    rcases sendApdu_of_refused (s := withReads a (ends side)) hs.session hagain with
      ⟨status, hfail⟩
    have hfail' : sending apdu (ends side) a = _ := hfail
    rw [hfail'] at hwaits
    cases hwaits
  rcases sendApdu_single law (s := withReads a (ends side)) hs.session hrefused hs.settled
    hsuits.sized hsuits.one hwaits with ⟨built, σ, hbuild, hcall⟩
  rcases expects_built llc h hsuits (framing side.other) hrefused hbuild with
    ⟨frame, hencodes, hexpects, hinfo⟩
  rcases sending_copies hcall with ⟨m, hcopies⟩
  -- The receiver reads all copies, and writes the RR.
  have hblocks : ∀ c, readBytes c <+: streamed (ends side) (sending apdu (ends side) a).2 →
      ∃ n, ∀ more, Blocked (receiving schedule (n + more) (ends side.other) c).1 := by
    intro c hc
    exact copies_block (h.ready side.other) (h.blank side.other) hexpects hinfo hencodes hroom
      (hcopies ▸ hc)
  rcases joint_receives hjoint (h.blank side.other).buffer hblocks with
    ⟨b', n, hjoint', hread, hblocked, hprefix⟩
  rcases receiving_copies (h.ready side.other).session (h.ready side.other) (h.blank side.other)
    hexpects hencodes (hread.trans hcopies) hblocked with ⟨τ, hτ, hnext, hrr⟩
  rcases wire.receiveReady true hτ with ⟨reply, hspelled, hkind, hnumber⟩
  have hreply : (streams side).framer.Encodes (L.buildReceiveReadyFrame τ true).2.1 reply :=
    (framing side).receiveReady true hτ hspelled
  have haccepts : (L.receiveFrame σ reply).1 = .ok := by
    rcases law.information hs.connected hbuild with ⟨hσ, hvs, -, -, -⟩
    refine (law.accepts hσ (numbered_of_supervisory hkind)).mpr ⟨?_, fun hc => ?_⟩
    · rw [hnumber, hnext, h.level side, ← hvs]
    · rw [hkind] at hc
      cases hc
  rw [hrr] at hprefix
  rcases sending_finishes hs (h.blank side) (h.willing side) hrefused hsuits.sized hsuits.one hbuild
    hcall hwaits haccepts hreply hprefix with ⟨e, hshort, hall, hdone, hsame⟩
  have hjoint'' : Joint apdu schedule (ends side) (ends side.other) (a ++ [e]) (b ++ b') := by
    refine Joint.toSender (n := n) hjoint' hwaits (hshort.trans (hholds τ hτ)) ?_
    rw [hall, hrr]
  have hturn : Turn codec ends _ _ := Turn.mk hsuits hjoint'' hdone (hread.trans hsame.symm)
    hblocked (hall.trans hrr.symm)
  refine ⟨e, b', n, hjoint'', hdone, ?_⟩
  have hheard := (turn_settles llc framing h hturn).1
  simp only at hheard
  rwa [hheard] at hturn

/-- Turn by turn the two ends stay as they are between turns. -/
theorem turns_coupled (llc : LlcLaw L) (framing : ∀ side, HdlcFramingLaw L (streams side) wire)
    {ends' : Side → State L} (h : Coupled law collects streams ends) {saids : List Said}
    (hrun : Traces (Turn codec) ends saids ends') : Coupled law collects streams ends' := by
  induction hrun with
  | nil => exact h
  | cons hturn _ ih => exact ih (turn_settles llc framing h hturn).2

/-- In none of the turns is anything handed over but the APDU that is sent in it. -/
theorem turns_heard (llc : LlcLaw L) (framing : ∀ side, HdlcFramingLaw L (streams side) wire)
    {ends' : Side → State L} (h : Coupled law collects streams ends) {saids : List Said}
    (hrun : Traces (Turn codec) ends saids ends') : ∀ said ∈ saids, said.heard = [said.apdu] := by
  induction hrun with
  | nil => exact fun said hmem => absurd hmem List.not_mem_nil
  | cons hturn _ ih =>
      rcases turn_settles llc framing h hturn with ⟨hfirst, hnext⟩
      exact List.forall_mem_cons.mpr ⟨hfirst, ih hnext⟩

/-- Over any number of turns, each end hands over what the other sent, in order and once. -/
theorem conversation_exact (llc : LlcLaw L)
    (framing : ∀ side, HdlcFramingLaw L (streams side) wire) {ends' : Side → State L}
    (h : Coupled law collects streams ends) {saids : List Said}
    (hrun : Traces (Turn codec) ends saids ends') :
    (∀ said ∈ saids, said.heard = [said.apdu]) ∧ Coupled law collects streams ends' :=
  ⟨turns_heard llc framing h hrun, turns_coupled llc framing h hrun⟩

/-- A turn in which the sender is told once that there is nothing to read, and the receiver
    reads all copies of the I-frame at once. -/
def Repeated (apdu : ProfileByteView) (s r : State L) (copies reply : List UInt8) : Prop :=
  (sending apdu s []).1 = .waiting ∧ (sending apdu s [⟨.wouldBlock, []⟩]).1 = .waiting ∧
    streamed s (sending apdu s [⟨.wouldBlock, []⟩]).2 = copies ∧
    (sending apdu s [⟨.wouldBlock, []⟩, ⟨.ok, reply⟩]).1 = .done () ∧
    streamed s (sending apdu s [⟨.wouldBlock, []⟩, ⟨.ok, reply⟩]).2 = copies ∧
    Blocked (receiving (fun _ => .vector) 1 r []).1 ∧
    Blocked (receiving (fun _ => .vector) 3 r [⟨.ok, copies⟩]).1 ∧
    streamed r (receiving (fun _ => .vector) 3 r [⟨.ok, copies⟩]).2 = reply ∧
    copies.length ≤ r.readBufferSize ∧ reply.length ≤ s.readBufferSize

instance (apdu : ProfileByteView) (s r : State L) (copies reply : List UInt8) :
    Decidable (Repeated apdu s r copies reply) :=
  inferInstanceAs (Decidable (_ ∧ _))

/-- The two ends behind it. -/
def repeated (ends : Side → State L) (side : Side) (apdu : ProfileByteView)
    (copies reply : List UInt8) (other : Side) : State L :=
  if other = side then (sending apdu (ends side) [⟨.wouldBlock, []⟩, ⟨.ok, reply⟩]).2
  else (receiving (fun _ => .vector) 3 (ends side.other) [⟨.ok, copies⟩]).2

theorem turn_of_repeated {copies reply : List UInt8}
    (hsuits : Suits (codec side.other) apdu (ends side) (ends side.other))
    (h : Repeated apdu (ends side) (ends side.other) copies reply) :
    Turn codec ends
      ⟨side, apdu.data, (receiving (fun _ => .vector) 3 (ends side.other)
        [⟨.ok, copies⟩]).1.filterMap Result.delivered⟩
      (repeated ends side apdu copies reply) := by
  rcases h with
    ⟨hstart, hagain, hcopies, hdone, hsame, hidle, hblocked, hreply, hroom, hroom'⟩
  have hread : ∀ bytes : List UInt8, readBytes [⟨.ok, bytes⟩] = bytes := List.append_nil
  -- The sender waits, sends again, and the receiver reads both copies.
  have hjoint : Joint apdu (fun _ => .vector) (ends side) (ends side.other)
      [⟨.wouldBlock, []⟩] [] :=
    Joint.toSender (a := []) (n := 0) Joint.start hstart (Nat.zero_le _) List.nil_prefix
  have hjoint' : Joint apdu (fun _ => .vector) (ends side) (ends side.other)
      [⟨.wouldBlock, []⟩] [⟨.ok, copies⟩] := by
    refine Joint.toReceiver (b := []) hjoint hidle hroom ?_
    rw [List.nil_append, hread, hcopies]
  have hreply' : readBytes ([⟨.wouldBlock, []⟩] ++ [⟨.ok, reply⟩]) = reply := hread reply
  have hfront : readBytes ([⟨.wouldBlock, []⟩] ++ [⟨.ok, reply⟩]) <+:
      streamed (ends side.other)
        (receiving (fun _ => .vector) 3 (ends side.other) [⟨.ok, copies⟩]).2 := by
    rw [hreply, hreply']
  refine Turn.mk hsuits (Joint.toSender hjoint' hagain hroom' hfront) hdone ?_ hblocked ?_
  · rw [hread]
    exact hsame.symm
  · rw [hreply]
    exact hreply'

/-- The I-frame of the client, and that of the server which acknowledges it. -/
def clientFrame : List UInt8 := Reference.toServer 0x10 [0xE6, 0xE6, 0x00, 0xC0]
def serverFrame : List UInt8 := Reference.toClient 0x30 [0xE6, 0xE7, 0x00, 0xC4]

/-- The two ends once the client has sent its I-frame, twice, and once the server has. -/
def afterClient : Side → State Reference.hdlcLib :=
  repeated linked .left (.of [0xC0]) (clientFrame ++ clientFrame) (Reference.toClient 0x31 [])
def afterServer : Side → State Reference.hdlcLib :=
  repeated afterClient .right (.of [0xC4]) (serverFrame ++ serverFrame)
    (Reference.toServer 0x31 [])

/-- What the server makes of both copies, and the client of both of the other. -/
theorem repeated_heard :
    (receiving (fun _ => .vector) 3 (linked (Side.other .left))
        [⟨.ok, clientFrame ++ clientFrame⟩]).1.filterMap Result.delivered = [[0xC0]] ∧
      (receiving (fun _ => .vector) 3 (afterClient (Side.other .right))
        [⟨.ok, serverFrame ++ serverFrame⟩]).1.filterMap Result.delivered = [[0xC4]] := by
  decide +kernel

theorem linked_turn : Turn linkedLimits linked ⟨.left, [0xC0], [[0xC0]]⟩ afterClient := by
  have hsuits : Suits (linkedLimits (Side.other .left)) (.of [0xC0]) (linked .left)
      (linked (Side.other .left)) :=
    Suits.of_sizes (by decide +kernel) (by decide +kernel) (by decide +kernel) (by decide +kernel)
      (by decide +kernel)
  have hrepeated : Repeated (.of [0xC0]) (linked .left) (linked (Side.other .left))
      (clientFrame ++ clientFrame) (Reference.toClient 0x31 []) := by
    decide +kernel
  have hturn : Turn linkedLimits linked ⟨.left, [0xC0], _⟩ afterClient :=
    turn_of_repeated hsuits hrepeated
  rwa [repeated_heard.1] at hturn

theorem afterClient_suits : Suits (linkedLimits (Side.other .right)) (.of [0xC4])
    (afterClient .right) (afterClient (Side.other .right)) :=
  Suits.of_sizes (by decide +kernel) (by decide +kernel) (by decide +kernel) (by decide +kernel)
    (by decide +kernel)

theorem afterClient_turn :
    Turn linkedLimits afterClient ⟨.right, [0xC4], [[0xC4]]⟩ afterServer := by
  have hrepeated : Repeated (.of [0xC4]) (afterClient .right) (afterClient (Side.other .right))
      (serverFrame ++ serverFrame) (Reference.toServer 0x31 []) := by
    decide +kernel
  have hturn : Turn linkedLimits afterClient ⟨.right, [0xC4], _⟩ afterServer :=
    turn_of_repeated afterClient_suits hrepeated
  rwa [repeated_heard.2] at hturn

/-- The client has sent an APDU and the server one, each of them after it was told that
    there was nothing to read, and so twice. -/
theorem conversation_exact_twice :
    Traces (Turn linkedLimits) linked [⟨.left, [0xC0], [[0xC0]]⟩, ⟨.right, [0xC4], [[0xC4]]⟩]
        afterServer ∧
      (∀ said ∈ [(⟨.left, [0xC0], [[0xC0]]⟩ : Said), ⟨.right, [0xC4], [[0xC4]]⟩],
        said.heard = [said.apdu]) ∧
      Coupled Reference.sessionLaw Reference.reassemblerLaw
        (fun side => Reference.hdlcStreamLaw (linkedLimits side)) afterServer :=
  have hrun := Traces.cons linked_turn (Traces.cons afterClient_turn Traces.nil)
  ⟨hrun, conversation_exact Reference.llcLaw (fun _ => Reference.framingLaw _) linked_coupled hrun⟩

/-- At any point of a conversation, a call of `SendApdu` that has not returned can be
    completed, whatever reads the two ends have made so far and whichever overload the
    receiver calls: the other end reads what it has not read yet, the sender reads the rest
    of the RR, and the APDU has been handed over once. No read is longer than the buffer of
    the end that makes it. -/
theorem conversation_live (llc : LlcLaw L) (framing : ∀ side, HdlcFramingLaw L (streams side) wire)
    {start : Side → State L} (h : Coupled law collects streams start) {saids : List Said}
    (hrun : Traces (Turn codec) start saids ends)
    (hsuits : Suits (codec side.other) apdu (ends side) (ends side.other))
    (hholds : HoldsReady (ends side)) (hroom : ∀ i, (schedule i).HasRoom apdu.data)
    (hjoint : Joint apdu schedule (ends side) (ends side.other) a b)
    (hwaits : (sending apdu (ends side) a).1 = .waiting) :
    ∃ e b' n, Joint apdu schedule (ends side) (ends side.other) (a ++ [e]) (b ++ b') ∧
      (sending apdu (ends side) (a ++ [e])).1 = .done () ∧
      Turn codec ends ⟨side, apdu.data, [apdu.data]⟩
        (fun other => if other = side then (sending apdu (ends side) (a ++ [e])).2
          else (receiving schedule n (ends side.other) (b ++ b')).2) :=
  turn_completes llc framing (turns_coupled llc framing h hrun) hsuits hholds hroom hjoint hwaits

/-- An RR of the reference library is nine bytes long. -/
theorem holdsReady_of_le {s : State Reference.hdlcLib} (h : 9 ≤ s.readBufferSize) :
    HoldsReady s := by
  intro σ hσ
  rw [Reference.buildReceiveReady_connected hσ]
  exact h

/-- A receiver that calls with a buffer of four bytes first. -/
def bufferFirst (i : Nat) : ReceiveCall :=
  if i = 0 then .into ⟨.of [0, 0, 0, 0], some 0⟩ else .vector

theorem bufferFirst_room (i : Nat) : (bufferFirst i).HasRoom [0xC4] := by
  intro room hcall
  rw [bufferFirst] at hcall
  split at hcall
  · obtain rfl := ReceiveCall.into.inj hcall
    decide
  · cases hcall

/-- The server has sent its I-frame twice, and the client has read one byte of it. -/
theorem conversation_live_midway :
    ∃ e b' n, Joint (.of [0xC4]) bufferFirst (afterClient .right) (afterClient .left)
        [⟨.wouldBlock, []⟩, e] (⟨.ok, [0x7E]⟩ :: b') ∧
      (sending (.of [0xC4]) (afterClient .right) [⟨.wouldBlock, []⟩, e]).1 = .done () ∧
      Turn linkedLimits afterClient ⟨.right, [0xC4], [[0xC4]]⟩
        (fun other => if other = .right
          then (sending (.of [0xC4]) (afterClient .right) [⟨.wouldBlock, []⟩, e]).2
          else (receiving bufferFirst n (afterClient .left) (⟨.ok, [0x7E]⟩ :: b')).2) := by
  have hfacts : (sending (.of [0xC4]) (afterClient .right) []).1 = .waiting ∧
      (sending (.of [0xC4]) (afterClient .right) [⟨.wouldBlock, []⟩]).1 = .waiting ∧
      Blocked (receiving bufferFirst 1 (afterClient .left) []).1 ∧
      [0x7E] <+: streamed (afterClient .right)
        (sending (.of [0xC4]) (afterClient .right) [⟨.wouldBlock, []⟩]).2 ∧
      1 ≤ (afterClient .left).readBufferSize := by
    decide +kernel
  rcases hfacts with ⟨hstart, hwaits, hblocked, hread, hroom⟩
  -- The sender has waited in vain once, and the receiver has read one byte.
  have hjoint : Joint (.of [0xC4]) bufferFirst (afterClient .right) (afterClient .left)
      [⟨.wouldBlock, []⟩] [⟨.ok, [0x7E]⟩] :=
    Joint.toReceiver (b := [])
      (Joint.toSender (a := []) (n := 0) Joint.start hstart (Nat.zero_le _) List.nil_prefix)
      hblocked hroom hread
  exact conversation_live Reference.llcLaw (fun _ => Reference.framingLaw _) linked_coupled
    (Traces.cons linked_turn Traces.nil) afterClient_suits (holdsReady_of_le (by decide +kernel))
    bufferFirst_room hjoint hwaits

end Turns

end Hdlc

end DlmsProfile
