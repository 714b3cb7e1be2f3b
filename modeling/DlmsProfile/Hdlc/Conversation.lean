import DlmsProfile.Hdlc.Deadlock
import DlmsProfile.Hdlc.PlainLink

/-!
# A Turn of a Conversation over a Data Link

Two ends of an established link take turns: one completes a call of `SendApdu` for an APDU
that fits one I-frame, and the other calls `ReceiveApdu` until it waits for more. The bytes
of each are handed to the other in pieces and at times of anyone's choosing. So the sender
may give up waiting more than once and send its I-frame again, and the receiver may be shown
copies of it.

Of all copies the receiver takes the first. What it hands over is the APDU of that one, and
the others leave no trace but in the record. Once the sender has the RR and the receiver has
read all there is, nothing is under way, and both are as they were but for their numbers.

## Main definitions

* `Hdlc.Taking`: A receiver on copies of one I-frame that has taken none before its turn.
* `Hdlc.due`: What it has still to hand over.
* `Hdlc.Willing`: A transport and a timer that answer `Ok` to all but reads.
* `Hdlc.Turn`: A turn, with what is seen of it.
* `Hdlc.Coupled`: Two ends between two turns.

## Theorems

* `Hdlc.calls_due`: What calls hand over is the front of what is owed.
* `Hdlc.receiving_settles`: What becomes of a receiver that has read all copies.
* `Hdlc.retryLoop_arrives`: A wait that ends well has got the reply that was to come.
* `Hdlc.sending_settles`: What becomes of a sender that has got the RR.
* `Hdlc.turn_settles`: A turn hands over the APDU once, and leaves the ends between turns.
-/

namespace DlmsProfile

namespace Hdlc

variable {L : HdlcLib} {law : HdlcSessionLaw L} {collects : HdlcReassemblerLaw L}

section Receiver

variable {frame : L.Frame} {apdu : List UInt8} {r t : State L}

/-- A receiver on copies of one I-frame, with nothing queued before it has taken one. -/
structure Taking (law : HdlcSessionLaw L) (collects : HdlcReassemblerLaw L) (frame : L.Frame)
    (r t : State L) : Prop extends Stands law collects r t where
  copies : ∀ f ∈ incoming t, f = frame
  free : law.vr t.session = law.vr r.session → t.pendingApdus = []

/-- What it has still to hand over: the APDU of the I-frame, or what is left of it. -/
def due (law : HdlcSessionLaw L) (apdu : List UInt8) (r t : State L) : List (List UInt8) :=
  if law.vr t.session = law.vr r.session then [apdu] else t.pendingApdus

theorem due_of_moved (apdu : List UInt8) (h : law.vr t.session = law.vr r.session + 1) :
    due law apdu r t = t.pendingApdus := by
  refine if_neg fun hsame => ?_
  have hloop : law.vr r.session = law.vr r.session + 1 := hsame.symm.trans h
  omega

/-- One turn of the receive loop owes what it owed. -/
theorem receiveTurn_due (huse : r.options.hdlcUseSession = true) (hframe : Expects law r frame)
    (hread : readInformation L r.options frame.information = .ok apdu) :
    Proc.Within (fun t t' => Taking law collects frame r t →
      Taking law collects frame r t' ∧ due law apdu r t' = due law apdu r t)
      (receiveTurn (L := L)) := by
  intro t ht
  have haside := receiveDecodedFrame_aside t
  have hwrites := receiveDecodedFrame_writes t
  have hstands : Stands law collects r (receiveDecodedFrame t).2 :=
    ht.toStands.of_same haside.options haside.session hwrites haside.reassembler
  have hin := receiveDecodedFrame_incoming t
  -- As long as no frame comes, nothing changes.
  have hnone : (receiveTurn t).2 = (receiveDecodedFrame t).2 →
      incoming (receiveDecodedFrame t).2 = incoming t →
      Taking law collects frame r (receiveTurn t).2 ∧
        due law apdu r (receiveTurn t).2 = due law apdu r t := by
    intro hsame hcome
    refine ⟨⟨hsame ▸ hstands, ?_, ?_⟩, ?_⟩
    · rw [hsame, hcome]
      exact ht.copies
    · rw [hsame, haside.session, haside.apdus]
      exact ht.free
    · rw [due, due, hsame, haside.session, haside.apdus]
  rcases hr : receiveDecodedFrame t with ⟨f | status | _, t1⟩
  · have hcome := receiveDecodedFrame_done hr
    obtain rfl : f = frame := ht.copies f (hcome ▸ List.mem_cons_self)
    have hturn : (receiveTurn t).2 = (decodeFrameToPendingApdu f t1).2 := by
      rw [receiveTurn, Proc.bind_of_done _ hr, handleFrame_snd]
    simp only [hr] at haside hstands
    rw [hturn]
    rcases decodeFrame_judged huse hframe hread hstands with ⟨hstands', hjudged⟩
    have hcopies : ∀ g ∈ incoming (decodeFrameToPendingApdu f t1).2, g = f := by
      rw [(decodeFrame_sameIntake f t1).incoming]
      exact fun g hg => ht.copies g (hcome ▸ List.mem_cons_of_mem _ hg)
    rcases hjudged with ⟨hvr, -, hqueue, hmoved, -⟩ | ⟨hvr, hqueue, hsame, -⟩
    -- It is the first copy: what was owed is queued now.
    · have hfree : t1.pendingApdus = [] := by
        rw [haside.apdus]
        exact ht.free (haside.session ▸ hvr)
      refine ⟨⟨hstands', hcopies, fun hback => ?_⟩, ?_⟩
      · have hloop : law.vr r.session = law.vr r.session + 1 := hback.symm.trans hmoved
        omega
      · rw [due_of_moved apdu hmoved, hqueue, hfree, due, if_pos (haside.session ▸ hvr)]
        rfl
    -- It is a later one: the session rejects it, and the queue stays.
    · refine ⟨⟨hstands', hcopies, fun hback => absurd (hsame ▸ hback) hvr⟩, ?_⟩
      rw [due, due, hsame, hqueue, haside.session, haside.apdus]
  · rw [hr] at hin hnone
    exact hnone (by rw [receiveTurn, Proc.bind_of_fail _ hr]) hin.symm
  · rw [hr] at hin hnone
    exact hnone (by rw [receiveTurn, Proc.bind_of_waiting _ hr]) hin.symm

/-- What a call hands over is the front of what is owed. -/
theorem call_due (huse : r.options.hdlcUseSession = true) (hframe : Expects law r frame)
    (hread : readInformation L r.options frame.information = .ok apdu) (call : ReceiveCall)
    (h : Taking law collects frame r t) :
    Taking law collects frame r (exec (.receive call) t).2 ∧ due law apdu r t =
      (exec (.receive call) t).1.delivered.toList ++
        due law apdu r (exec (.receive call) t).2 := by
  have hturn : Proc.Within (fun t t' => Taking law collects frame r t →
      Taking law collects frame r t' ∧ due law apdu r t' = due law apdu r t)
      (receiveTurn (L := L)) := receiveTurn_due huse hframe hread
  have hawait : Taking law collects frame r (awaitApdu t).2 ∧
      due law apdu r (awaitApdu t).2 = due law apdu r t := by
    have hrefl : ∀ t : State L, Taking law collects frame r t →
        Taking law collects frame r t ∧ due law apdu r t = due law apdu r t := fun t ht => ⟨ht, rfl⟩
    have htrans : ∀ a b c : State L,
        (Taking law collects frame r a → Taking law collects frame r b ∧
          due law apdu r b = due law apdu r a) →
        (Taking law collects frame r b → Taking law collects frame r c ∧
          due law apdu r c = due law apdu r b) →
        Taking law collects frame r a → Taking law collects frame r c ∧
          due law apdu r c = due law apdu r a := by
      intro a b c hab hbc ha
      rcases hab ha with ⟨hb, hdue⟩
      rcases hbc hb with ⟨hc, hdue'⟩
      exact ⟨hc, hdue'.trans hdue⟩
    exact PendingQueue.within_await hrefl htrans (Proc.within_repeatUntil htrans hturn) t h
  rcases receive_cases call t with ⟨hnone, hafter | hafter⟩ | ⟨s1, hw, hne, hsome, hafter⟩ <;>
    rw [hafter]
  · rw [hnone]
    exact ⟨h, rfl⟩
  · rw [hnone]
    exact ⟨hawait.1, hawait.2.symm⟩
  · rw [hw] at hawait
    rcases hawait with ⟨htaking, hdue⟩
    -- Something is queued, so a copy was taken, and the call takes it off the queue.
    have hmoved : law.vr s1.session ≠ law.vr r.session := fun hsame => hne (htaking.free hsame)
    have hmoved' : law.vr (pending.pop s1).session ≠ law.vr r.session := hmoved
    refine ⟨⟨⟨htaking.options, htaking.connected, htaking.settled, htaking.sent, htaking.writes,
      htaking.collected⟩, htaking.copies, fun hback => absurd hback hmoved⟩, ?_⟩
    rw [← hdue, due, if_neg hmoved, due, if_neg hmoved', hsome]
    have htail : (pending.pop s1).pendingApdus = s1.pendingApdus.tail := rfl
    rw [htail]
    cases hp : s1.pendingApdus with
    | nil => exact absurd hp hne
    | cons front rest => rfl

/-- So it is with any number of calls, whichever the overload. -/
theorem calls_due (huse : r.options.hdlcUseSession = true) (hframe : Expects law r frame)
    (hread : readInformation L r.options frame.information = .ok apdu) (calls : List ReceiveCall)
    (h : Taking law collects frame r t) :
    Taking law collects frame r (run (calls.map .receive) t).2 ∧ due law apdu r t =
      (run (calls.map .receive) t).1.filterMap Result.delivered ++
        due law apdu r (run (calls.map .receive) t).2 := by
  -- On the calls. One that waits is the last, and owes the rest.
  induction calls generalizing t with
  | nil => exact ⟨h, rfl⟩
  | cons call calls ih =>
      rcases call_due huse hframe hread call h with ⟨hnext, hdue⟩
      rw [List.map_cons]
      cases hw : (exec (.receive call) t).1.isWaiting with
      | true =>
          rw [run_of_waiting hw]
          refine ⟨hnext, hdue.trans ?_⟩
          rw [delivered_cons, List.filterMap_nil, List.append_nil]
      | false =>
          rw [run_of_returned hw]
          rcases ih hnext with ⟨hend, hrest⟩
          refine ⟨hend, ?_⟩
          rw [hdue, hrest, delivered_cons, List.append_assoc]

/-- A turn that does not end the loop leaves nothing queued. -/
theorem receiveTurn_free (huse : r.options.hdlcUseSession = true) (hframe : Expects law r frame)
    (hread : readInformation L r.options frame.information = .ok apdu)
    (h : Taking law collects frame r t) (hp : t.pendingApdus = [])
    (hgoes : (receiveTurn t).1 = .done false ∨ (receiveTurn t).1 = .waiting) :
    (receiveTurn t).2.pendingApdus = [] := by
  have haside := receiveDecodedFrame_aside t
  have hwrites := receiveDecodedFrame_writes t
  have hstands : Stands law collects r (receiveDecodedFrame t).2 :=
    h.toStands.of_same haside.options haside.session hwrites haside.reassembler
  rcases hr : receiveDecodedFrame t with ⟨f | status | _, t1⟩ <;> simp only [hr] at haside hstands
  · have hcome := receiveDecodedFrame_done hr
    obtain rfl : f = frame := h.copies f (hcome ▸ List.mem_cons_self)
    have hturn : receiveTurn t = handleFrame f t1 := Proc.bind_of_done _ hr
    rw [hturn] at hgoes ⊢
    rcases (decodeFrame_judged huse hframe hread hstands).2 with
      ⟨-, hdone, hqueue, -⟩ | ⟨-, hqueue, -⟩
    · -- The APDU that was queued ends it.
      have hdecode : decodeFrameToPendingApdu f t1 =
          (.done (), (decodeFrameToPendingApdu f t1).2) := Prod.ext hdone rfl
      have hfilled : (decodeFrameToPendingApdu f t1).2.pendingApdus.isEmpty = false := by
        rw [hqueue, haside.apdus, hp]
        rfl
      rw [handleFrame_of_done hdecode, hfilled] at hgoes
      rcases hgoes with hgoes | hgoes <;> cases hgoes
    · rw [handleFrame_snd, hqueue]
      exact haside.apdus.trans hp
  · rw [receiveTurn, Proc.bind_of_fail _ hr] at hgoes
    rcases hgoes with hgoes | hgoes <;> cases hgoes
  · rw [receiveTurn, Proc.bind_of_waiting _ hr]
    exact haside.apdus.trans hp

/-- A receiver that waits has nothing queued. -/
theorem awaitApdu_free (huse : r.options.hdlcUseSession = true) (hframe : Expects law r frame)
    (hread : readInformation L r.options frame.information = .ok apdu)
    (h : Taking law collects frame r t) {t' : State L} (hwaits : awaitApdu t = (.waiting, t')) :
    t'.pendingApdus = [] := by
  by_cases hp : t.pendingApdus = []
  swap
  · have hpending : awaitApdu t = (.done (), t) := PendingQueue.await_of_pending hp
    rw [hpending] at hwaits
    cases hwaits
  rw [awaitApdu_of_empty hp] at hwaits
  have hall : Taking law collects frame r t → t.pendingApdus = [] →
      (receiveNextApdu t).1 = .waiting → (receiveNextApdu t).2.pendingApdus = [] := by
    -- By the turns of the loop. Those that go on or wait have queued nothing.
    refine Proc.repeatUntil_induct (fun t o t' => Taking law collects frame r t →
      t.pendingApdus = [] → o = .waiting → t'.pendingApdus = []) ?_ ?_ ?_ ?_ t
    · intro t t1 status _ _ _ ho
      cases ho
    · intro t t1 hturn ht hp _
      have hfree := receiveTurn_free huse hframe hread ht hp (Or.inr (congrArg Prod.fst hturn))
      rwa [hturn] at hfree
    · intro t t1 _ _ _ ho
      cases ho
    · intro t t1 o t2 hturn ih ht hp ho
      have hfree := receiveTurn_free huse hframe hread ht hp (Or.inl (congrArg Prod.fst hturn))
      have hnext := receiveTurn_due huse hframe hread t ht
      rw [hturn] at hfree hnext
      exact ih hnext.1 hfree ho
  have hend := hall h hp (congrArg Prod.fst hwaits)
  rwa [hwaits] at hend

/-- A call that waits is inside the loop. -/
theorem exec_awaits {call : ReceiveCall} {s : State L}
    (h : (exec (.receive call) s).1.isWaiting = true) :
    awaitApdu s = (.waiting, (exec (.receive call) s).2) := by
  have h' : ((channel L).call call s).1.isWaiting = true := h
  change awaitApdu s = (.waiting, ((channel L).call call s).2)
  -- Neither overload waits anywhere else.
  cases call with
  | vector =>
      rcases hr : receiveApdu s with ⟨apdu | status | _, s'⟩ <;>
        simp only [ApduChannel.call, hr] at h' ⊢
      · cases h'
      · cases h'
      · rcases Proc.bind_waiting_iff.mp hr with hawait | ⟨_, s1, -, hrest⟩
        · exact hawait
        · cases hrest
  | into output =>
      rcases hr : receiveApduInto output s with ⟨⟨⟨⟩ | status | _, output'⟩, s'⟩ <;>
        simp only [ApduChannel.call, hr] at h' ⊢
      · cases h'
      · cases h'
      · exact PendingQueue.receiveBuffer_waiting hr

/-- Calls come to a wait in the last one made. -/
theorem calls_halt {calls : List ReceiveCall} (h : Blocked (run (calls.map .receive) t).1) :
    ∃ (before : List ReceiveCall) (call : ReceiveCall),
      let u := (run (before.map .receive) t).2
      (exec (.receive call) u).1.isWaiting = true ∧
        (run (calls.map .receive) t).2 = (exec (.receive call) u).2 := by
  -- On the calls, of which the first that waits is the last one made.
  induction calls generalizing t with
  | nil =>
      rcases h with ⟨result, hmem, -⟩
      exact absurd hmem List.not_mem_nil
  | cons call calls ih =>
      rw [List.map_cons] at h ⊢
      cases hw : (exec (.receive call) t).1.isWaiting with
      | true => exact ⟨[], call, hw, by rw [run_of_waiting hw]; rfl⟩
      | false =>
          rw [run_of_returned hw] at h ⊢
          have hrest : Blocked (run (calls.map .receive) (exec (.receive call) t).2).1 := by
            rcases h with ⟨result, hmem, hwaits⟩
            rcases List.mem_cons.mp hmem with rfl | hmem
            · rw [hw] at hwaits
              cases hwaits
            · exact ⟨result, hmem, hwaits⟩
          rcases ih hrest with ⟨before, last, hlast, hstate⟩
          have hfirst : (run ((call :: before).map .receive) t).2 =
              (run (before.map .receive) (exec (.receive call) t).2).2 := by
            rw [List.map_cons, run_of_returned hw]
          refine ⟨call :: before, last, ?_⟩
          rw [hfirst]
          exact ⟨hlast, hstate⟩

/-- Then they have used up their reads. -/
theorem calls_exhausted {calls : List ReceiveCall} (h : Blocked (run (calls.map .receive) t).1) :
    (run (calls.map .receive) t).2.reads = [] := by
  rcases calls_halt h with ⟨before, call, hwaits, hstate⟩
  rcases awaitApdu_takes (run (before.map .receive) t).2 with ⟨taken, -, htook⟩
  rw [exec_awaits hwaits] at htook
  rw [hstate]
  exact htook.exhausted rfl

/-- And leave nothing queued. -/
theorem calls_free (huse : r.options.hdlcUseSession = true) (hframe : Expects law r frame)
    (hread : readInformation L r.options frame.information = .ok apdu) {calls : List ReceiveCall}
    (h : Taking law collects frame r t) (hblocked : Blocked (run (calls.map .receive) t).1) :
    (run (calls.map .receive) t).2.pendingApdus = [] := by
  rcases calls_halt hblocked with ⟨before, call, hwaits, hstate⟩
  rw [hstate]
  exact awaitApdu_free huse hframe hread (calls_due huse hframe hread before h).1
    (exec_awaits hwaits)

end Receiver

section Receiving

variable {peer : HdlcCodecLimits} {peerStream : HdlcStreamLaw L peer} {frame : L.Frame}
  {apdu bytes : List UInt8} {r : State L} {b : List ReadEvent} {m n : Nat}
  {schedule : Nat → ReceiveCall}

/-- A receiver that has copies of the I-frame it expects to read, whole or in part. -/
theorem taking_start {count : Nat} (hr : Ready law collects r) (hblank : Blank peerStream r)
    (henc : peerStream.framer.Encodes bytes frame)
    (hread : readBytes b <+: (List.replicate count bytes).flatten) :
    Taking law collects frame r (withReads b r) :=
  ⟨⟨rfl, hr.connected, hr.settled, rfl, hr.writes, hr.collected⟩, hblank.copies henc hread,
    fun _ => hr.pending⟩

/-- One that has whole ones does not lose its place on the stream. -/
theorem seamless_start (hblank : Blank peerStream r)
    (henc : peerStream.framer.Encodes bytes frame)
    (hread : readBytes b = (List.replicate (m + 1) bytes).flatten) :
    Seamless peerStream (withReads b r) := by
  have hview : peerStream.view (withReads b r).decoder = [] := hblank.kept
  have hbytes : readBytes (withReads b r).reads = readBytes b := rfl
  refine ⟨hblank.live, ?_, ?_⟩
  · rw [hview, Framing.Framer.scan_nil]
  · rw [hview, List.nil_append, hbytes, hread,
      Framing.Framer.scan_flatten (forall_encodes henc (m + 1))]

/-- Receive calls do not lose the place on the stream. -/
theorem calls_seamless {limits : HdlcCodecLimits} {stream : HdlcStreamLaw L limits} {s : State L}
    (calls : List ReceiveCall) (h : Seamless stream s) :
    Seamless stream (run (calls.map .receive) s).2 := by
  refine run_preserves (I := Seamless stream) (fun op hop t ht => ?_) h
  rcases List.mem_map.mp hop with ⟨call, -, rfl⟩
  exact call_seamless call t ht

/-- With no read and no frame left, nothing is left of a frame. -/
theorem Seamless.blank {limits : HdlcCodecLimits} {stream : HdlcStreamLaw L limits} {s : State L}
    (h : Seamless stream s) (hreads : s.reads = []) (hnone : Hdlc.incoming s = [])
    (hb : s.readBufferSize ≠ 0) : Blank stream s := by
  rw [Hdlc.incoming, List.append_eq_nil_iff] at hnone
  have hwhole := h.whole
  rw [hreads, readBytes, List.append_nil, h.kept] at hwhole
  exact ⟨h.live, Framing.Tail.rest.inj hwhole, hnone.1, hb⟩

/-- A receiver that has read all copies of the I-frame it expects and waits has handed over
    its APDU and nothing else, and stands as before with V(R) moved on. -/
theorem receiving_settles (hr : Ready law collects r) (hblank : Blank peerStream r)
    (hframe : Expects law r frame)
    (hinfo : readInformation L r.options frame.information = .ok apdu)
    (henc : peerStream.framer.Encodes bytes frame)
    (hread : readBytes b = (List.replicate (m + 1) bytes).flatten)
    (hwaits : Blocked (receiving schedule n r b).1) :
    (receiving schedule n r b).1.filterMap Result.delivered = [apdu] ∧
      Ready law collects (receiving schedule n r b).2 ∧
      Blank peerStream (receiving schedule n r b).2 ∧
      (receiving schedule n r b).2.options = r.options ∧
      law.vs (receiving schedule n r b).2.session = law.vs r.session ∧
      law.vr (receiving schedule n r b).2.session = law.vr r.session + 1 := by
  have hfront : readBytes b <+: (List.replicate (m + 1) bytes).flatten := hread ▸ List.prefix_rfl
  have hstart : Taking law collects frame r (withReads b r) := taking_start hr hblank henc hfront
  have hseamless := seamless_start hblank henc hread
  rcases calls_due hr.session hframe hinfo ((List.range n).map schedule) hstart with ⟨hend, hdue⟩
  have hanswers := calls_answering hr.session hframe ((List.range n).map schedule)
    (answering_start hr hblank henc hread)
  have hreads := calls_exhausted hwaits
  have hpending := calls_free hr.session hframe hinfo hstart hwaits
  have hnone : incoming (receiving schedule n r b).2 = [] := calls_blocked hwaits
  -- With no copy left to come one was taken.
  have hmoved : law.vr (receiving schedule n r b).2.session = law.vr r.session + 1 := by
    rcases hanswers.stage with ⟨-, hleft, -⟩ | ⟨hvr, -⟩
    · exact absurd hnone hleft
    · exact hvr
  have hmake := sameMake_primitives.run (((List.range n).map schedule).map .receive) (withReads b r)
  have hkept : Seamless peerStream (receiving schedule n r b).2 := calls_seamless _ hseamless
  refine ⟨?_, ⟨⟨?_, hend.connected, hend.settled, hpending, hend.writes⟩, hend.collected⟩,
    hkept.blank hreads hnone (hmake.2 ▸ hblank.buffer), hend.options, hend.sent, hmoved⟩
  · have hnow : due law apdu r (withReads b r) = [apdu] := if_pos rfl
    have hleft := due_of_moved apdu hmoved
    rw [hnow] at hdue
    refine (hdue.trans ?_).symm
    change (receiving schedule n r b).1.filterMap Result.delivered ++ due law apdu r
      (receiving schedule n r b).2 = _
    have hempty : (receiving schedule n r b).2.pendingApdus = [] := hpending
    rw [hleft, hempty, List.append_nil]
  · rw [receiving, hend.options]
    exact hr.session

end Receiving

section Sender

variable {limits : HdlcCodecLimits} {stream : HdlcStreamLaw L limits} {σ : L.Session}
  {frame : L.Frame} {apdu : ProfileByteView} {s s' : State L}

/-- The frame that was to come is the one that came, and nothing is left behind it. -/
theorem loop_arrives (reads : List ReadEvent) (h : Coming stream σ frame s)
    (hreads : s.reads = reads) {f : L.Frame}
    (hdone : receiveDecodedFrameLoop reads s = (.done f, s')) :
    f = frame ∧ s'.session = σ ∧ Blank stream s' := by
  induction reads generalizing s with
  | nil => cases hdone
  | cons e rest ih =>
      have hall := h.encodes
      rw [hreads] at hall
      by_cases hok : e.status = .ok
      swap
      · rw [loop_readFailed hok] at hdone
        cases hdone
      by_cases he : e.bytes = []
      · rw [loop_readEmpty hok he] at hdone
        cases hdone
      rw [readBytes, if_pos hok, ← List.append_assoc] at hall
      -- Either these are the last bytes of the frame, or the decoder keeps them.
      by_cases hrest : readBytes rest = []
      · rw [hrest, List.append_nil] at hall
        rcases push_brings h.live hall with ⟨hst, hframes, hlive, hview⟩
        rw [loop_completed hok he hst hframes, Prod.mk.injEq] at hdone
        rcases hdone with ⟨hf, rfl⟩
        refine ⟨(Outcome.done.inj hf).symm, h.session, hlive, hview, ?_, h.buffer⟩
        exact (List.append_nil _).trans h.frames
      · rcases Framing.Framer.encodes_part hall hrest with ⟨k, hscan, hwhole⟩
        rcases stream.follows.push_rest h.live hscan with ⟨hframes, hview, hstatus⟩
        by_cases hst : mapHdlcStatus (L.push s.decoder e.bytes).1 = .ok
        · rw [loop_noFrame hok he hst hframes] at hdone
          cases hdone
        · rw [loop_continued hok he (hstatus.resolve_left hst).1] at hdone
          rw [← hview] at hscan hwhole
          have hnext : Coming stream σ frame
              { afterRead e rest s with decoder := (L.push s.decoder e.bytes).2.2 } :=
            ⟨h.session, stream.follows.push_live e.bytes h.live,
              Framing.Framer.scan_rest_self hscan, h.frames, h.buffer, hwhole⟩
          exact ih hnext rfl hdone

/-- The reply was accepted, and nothing is left behind it. -/
structure Answered (stream : HdlcStreamLaw L limits) (σ : L.Session) (frame : L.Frame)
    (s : State L) : Prop extends Blank stream s where
  session : s.session = (L.receiveFrame σ frame).2

theorem control_arrives (h : Coming stream σ frame s)
    (hdone : receiveSessionControlFrame s = (.done (), s')) : Answered stream σ frame s' := by
  rcases Proc.bind_done_iff.mp hdone with ⟨f, s1, hframe, hreceive⟩
  rw [receiveDecodedFrame_of_empty h.frames h.buffer] at hframe
  rcases loop_arrives s.reads h rfl hframe with ⟨rfl, hσ, hblank⟩
  have hleft := congrArg Prod.snd hreceive
  rw [sessionReceive_snd] at hleft
  simp only at hleft
  rw [← hleft]
  exact ⟨⟨hblank.live, hblank.kept, hblank.frames, hblank.buffer⟩, by rw [hσ]⟩

/-- A wait that ends well has got the reply that was to come. -/
theorem retryLoop_arrives (haccepts : (L.receiveFrame σ frame).1 = .ok) (bytes : List UInt8)
    (left : Nat) (h : Coming stream σ frame s) (hdone : retryLoop bytes left s = (.done (), s')) :
    Answered stream σ frame s' := by
  induction left generalizing s with
  | zero => exact control_arrives h hdone
  | succ left ih =>
      rcases control_coming haccepts h with ⟨s1, hcontrol⟩ | ⟨status, s1, hfail, hcoming⟩
      · rw [retryLoop_of_done hcontrol] at hdone
        obtain rfl := (Prod.mk.inj hdone).2
        exact control_arrives h hcontrol
      cases hagain : isRetriableReceiveStatus status with
      | false =>
          rw [retryLoop_of_fail hfail (Or.inl hagain)] at hdone
          cases hdone
      | true =>
          rw [retryLoop_of_retry hfail hagain] at hdone
          rcases Proc.bind_done_iff.mp hdone with ⟨_, s2, hsleep, hrest⟩
          rcases Proc.bind_done_iff.mp hrest with ⟨_, s3, hwrite, hloop⟩
          -- Neither the sleep nor the copy touches what is to come.
          have haside := sleepBeforeRetry_aside s1
          have hsame := sleepBeforeRetry_sameIntake s1
          have haside' := writeFrameBytes_aside bytes s2
          have hsame' := writeFrameBytes_sameIntake bytes s2
          rw [hsleep] at haside hsame
          rw [hwrite] at haside' hsame'
          exact ih ((hcoming.of_same haside hsame).of_same haside' hsame') hloop

/-- The transport and the timer answer `Ok` to whatever is asked of them but reads. -/
structure Willing (s : State L) : Prop where
  writes : ∀ status ∈ s.writes, status = .ok
  sleeps : ∀ status ∈ s.sleeps, status = .ok

/-- A wait leaves alone what a receiver works with. -/
structure Undisturbed (s s' : State L) : Prop where
  options : s'.options = s.options
  reassembler : s'.reassembler = s.reassembler
  apdus : s'.pendingApdus = s.pendingApdus
  willing : Willing s → Willing s'

theorem Undisturbed.of_same (ho : s'.options = s.options) (hr : s'.reassembler = s.reassembler)
    (hp : s'.pendingApdus = s.pendingApdus) (hw : s'.writes = s.writes)
    (hs : s'.sleeps = s.sleeps) : Undisturbed s s' :=
  ⟨ho, hr, hp, fun h => ⟨hw ▸ h.writes, hs ▸ h.sleeps⟩⟩

theorem receiveDecodedFrameLoop_sleeps (reads : List ReadEvent) (s : State L) :
    (receiveDecodedFrameLoop reads s).2.sleeps = s.sleeps := by
  -- On the reads.
  induction reads generalizing s with
  | nil => rfl
  | cons e rest ih =>
      simp only [receiveDecodedFrameLoop]
      split
      · rfl
      split
      · rfl
      split
      · split <;> rfl
      split
      · rfl
      · exact ih _

theorem undisturbed_wait : WaitPrimitives (Undisturbed (L := L)) where
  refl _ := Undisturbed.of_same rfl rfl rfl rfl rfl
  trans _ _ _ h h' := ⟨h'.options.trans h.options, h'.reassembler.trans h.reassembler,
    h'.apdus.trans h.apdus, fun hw => h'.willing (h.willing hw)⟩
  sessionReceive frame s := by
    rw [sessionReceive_snd]
    exact Undisturbed.of_same rfl rfl rfl rfl rfl
  writeFrameBytes bytes s := by
    rw [writeFrameBytes_snd]
    exact ⟨rfl, rfl, rfl, fun h => ⟨writes_tail h.writes, h.sleeps⟩⟩
  -- A sleep uses up what the timer will say, and that was Ok.
  sleepBeforeRetry s := by
    rw [sleepBeforeRetry]
    split
    · exact Undisturbed.of_same rfl rfl rfl rfl rfl
    · rw [check_snd]
      exact ⟨rfl, rfl, rfl, fun h => ⟨h.writes, fun status hs =>
        h.sleeps status (List.mem_of_mem_tail hs)⟩⟩
  receiveDecodedFrame s := by
    have haside := receiveDecodedFrame_aside s
    refine Undisturbed.of_same haside.options haside.reassembler haside.apdus
      (receiveDecodedFrame_writes s) ?_
    rw [receiveDecodedFrame]
    split
    · rfl
    split
    · rfl
    · exact receiveDecodedFrameLoop_sleeps _ s

/-- A call that takes one I-frame fails at once if the frame is not built, and else writes
    it and waits. -/
theorem sendApdu_one (law : HdlcSessionLaw L) (huse : s.options.hdlcUseSession = true)
    (hrefused : ¬ Refused s apdu) (hsettled : law.va s.session = law.vs s.session)
    (hwilling : Willing s) (hsized : Sized s (.send apdu)) (hone : framesToSend s apdu = 1) :
    (¬ BuildsFrame (lpduOf s apdu) true (limited s) ∧
        ∃ status s1, sendApdu apdu s = (.fail status, s1)) ∨
      ∃ built σ, L.buildInformationFrame s.session (lpduOf s apdu) true = (.ok, built, σ) ∧
        sendApdu apdu s = retryLoop built s.options.hdlcRetryCount.toNat
          (wrote built (emitted built σ (limited s))) := by
  have hσ : L.Connected (limited s).session := by
    simp only [Refused, not_or, not_not] at hrefused
    exact hrefused.2.2.2
  have hcall : sendApdu apdu s = sendChunk (lpduOf s apdu) true (limited s) := by
    rw [sendApdu_begins huse hrefused hone, List.take_of_length_le (length_le_of_one hsized hone)]
    exact congrFun (Proc.bind_pure (sendChunk (lpduOf s apdu) true)) (limited s)
  rw [hcall]
  rcases sendChunk_opens law (lpduOf s apdu) true hσ hsettled with
    ⟨hnot, hfail⟩ | ⟨-, built, σ, bytes, hbuild, hbytes, h⟩
  · exact Or.inl ⟨hnot, hfail⟩
  · -- The last I-frame of an LPDU goes out as the session built it.
    obtain rfl : built = bytes := (Prod.mk.inj hbytes).2
    refine Or.inr ⟨built, σ, hbuild, ?_⟩
    have hstatus : (emitted built σ (limited s)).writes.headD .ok = .ok := headD_ok hwilling.writes
    rw [h]
    exact Proc.bind_of_done _ (writeFrameBytes_of_ok hstatus)

/-- The state in which the wait for the reply to an I-frame begins. -/
def begun (built : List UInt8) (σ : L.Session) (a : List ReadEvent) (s : State L) : State L :=
  wrote built (emitted built σ (limited (withReads a s)))

/-- What a wait writes behind the frame it waits for an answer to: copies of it. -/
theorem retry_copies {bytes : List UInt8} {t : State L} {events : List (Event L)}
    (htrace : t.trace = s.trace ++ events) (hwritten : (written events).map (·.1) = [bytes])
    (left : Nat) :
    ∃ m, streamed s (retryLoop bytes left t).2 = (List.replicate (m + 1) bytes).flatten := by
  -- Each retry writes the same bytes again, and nothing else is written.
  have hcopies : WritesOnly (· = bytes) t (retryLoop bytes left t).2 :=
    retryLoop_writesOnly (P := (· = bytes)) rfl left t
  rcases hcopies with ⟨more, hmore, hall⟩
  have hsame : (written more).map (·.1) = List.replicate (written more).length bytes := by
    refine List.eq_replicate_iff.mpr ⟨List.length_map _, fun copy hmem => ?_⟩
    rcases List.mem_map.mp hmem with ⟨w, hw, rfl⟩
    exact hall w hw
  have hwhole : (retryLoop bytes left t).2.trace = s.trace ++ (events ++ more) := by
    rw [hmore, htrace, List.append_assoc]
  refine ⟨(written more).length, ?_⟩
  rw [streamed_of_trace hwhole, written_append, List.flatMap_def, List.map_append, hwritten, hsame,
    List.singleton_append, List.replicate_succ]

/-- What a call that takes one I-frame has written: copies of it. -/
theorem sending_copies {built : List UInt8} {a : List ReadEvent}
    (hcall : sending apdu s a =
      retryLoop built s.options.hdlcRetryCount.toNat (begun built σ a s)) :
    ∃ m, streamed s (sending apdu s a).2 = (List.replicate (m + 1) built).flatten := by
  have htrace : (begun built σ a s).trace = s.trace ++
      [.emit s.session built, .transport (.write built (s.writes.headD .ok))] :=
    List.append_assoc _ _ _
  rw [hcall]
  exact retry_copies htrace rfl _

/-- A call that takes one I-frame, and is completed by the RR for it, leaves the sender
    standing as before with V(S) moved on. -/
theorem sending_settles {built : List UInt8} {a : List ReadEvent} {reply : L.Frame}
    (hs : Ready law collects s) (hblank : Blank stream s) (hwilling : Willing s)
    (hbuild : L.buildInformationFrame s.session (lpduOf s apdu) true = (.ok, built, σ))
    (hcall : sending apdu s a = retryLoop built s.options.hdlcRetryCount.toNat (begun built σ a s))
    (henc : stream.framer.Encodes (readBytes a) reply)
    (hkind : L.frameKind reply.control = .supervisory)
    (hnumber : law.receiveSequence reply.control = law.vs σ)
    (hdone : (sending apdu s a).1 = .done ()) :
    Ready law collects (sending apdu s a).2 ∧ Blank stream (sending apdu s a).2 ∧
      Willing (sending apdu s a).2 ∧ (sending apdu s a).2.options = s.options ∧
      law.vs (sending apdu s a).2.session = law.vs s.session + 1 ∧
      law.vr (sending apdu s a).2.session = law.vr s.session := by
  rcases law.information hs.connected hbuild with ⟨hσ, hvs, hvr, -, -⟩
  have hinformation : ¬ L.frameKind reply.control = .information := by
    rw [hkind]
    exact fun hc => by cases hc
  have hnumbered := numbered_of_supervisory hkind
  -- An RR with the right number is accepted, and V(R) stays.
  have haccepts : (L.receiveFrame σ reply).1 = .ok := by
    refine (law.accepts hσ hnumbered).mpr ⟨?_, fun hc => absurd hc hinformation⟩
    rw [hnumber]
  have hkept : stream.view (begun built σ a s).decoder = [] := hblank.kept
  have hcoming : Coming stream σ reply (begun built σ a s) := by
    refine ⟨rfl, hblank.live, ?_, hblank.frames, hblank.buffer, ?_⟩ <;> rw [hkept]
    · exact Framing.Framer.scan_nil
    · exact henc
  have hloop : retryLoop built s.options.hdlcRetryCount.toNat (begun built σ a s) =
      (.done (), (sending apdu s a).2) := by
    rw [← hcall]
    exact Prod.ext hdone rfl
  have hanswered := retryLoop_arrives haccepts built _ hcoming hloop
  have hundisturbed := undisturbed_wait.within_retryLoop built s.options.hdlcRetryCount.toNat
    (begun built σ a s)
  rw [hloop] at hundisturbed
  have hbegun : Willing (begun built σ a s) := ⟨writes_tail hwilling.writes, hwilling.sleeps⟩
  have hafter := hundisturbed.willing hbegun
  have hpair : L.receiveFrame σ reply = (.ok, (L.receiveFrame σ reply).2) := Prod.ext haccepts rfl
  rcases law.accepted hσ hnumbered hpair with ⟨hσ', hvs', hva', hvr'⟩
  rw [if_neg hinformation] at hvr'
  rw [← hanswered.session] at hσ' hvs' hva' hvr'
  refine ⟨⟨⟨?_, hσ', ?_, ?_, hafter.writes⟩, ?_⟩, hanswered.toBlank, hafter, hundisturbed.options,
    hvs'.trans hvs, hvr'.trans hvr⟩
  · rw [hundisturbed.options]
    exact hs.session
  · rw [hva', hvs', hnumber]
  · exact hundisturbed.apdus.trans hs.pending
  · rw [hundisturbed.reassembler]
    exact hs.collected

end Sender

/-- Receiving leaves the answers to writes and sleeps as they are, or takes the first. -/
theorem willing_intake : IntakePrimitives fun s s' : State L => Willing s → Willing s' where
  refl _ h := h
  trans _ _ _ h h' hs := h' (h hs)
  sessionReceive frame s := (undisturbed_wait.sessionReceive frame s).willing
  writeFrameBytes bytes s := (undisturbed_wait.writeFrameBytes bytes s).willing
  sleepBeforeRetry s := (undisturbed_wait.sleepBeforeRetry s).willing
  receiveDecodedFrame s := (undisturbed_wait.receiveDecodedFrame s).willing
  -- Building changes the session only.
  receiveReady _ s h := by
    rw [sessionBuild_snd]
    exact ⟨h.writes, h.sleeps⟩
  decodeComplete frame s h := by
    simp only [decodeCompleteInformationToPendingApdu]
    split
    · exact ⟨h.writes, h.sleeps⟩
    split <;> exact ⟨h.writes, h.sleeps⟩
  reassembler _ _ h := ⟨h.writes, h.sleeps⟩

theorem calls_willing {s : State L} (calls : List ReceiveCall) (h : Willing s) :
    Willing (run (calls.map .receive) s).2 := by
  refine run_preserves (I := Willing) (fun op hop t ht => ?_) h
  rcases List.mem_map.mp hop with ⟨call, -, rfl⟩
  exact PendingQueue.within_call willing_intake.refl willing_intake.trans
    willing_intake.within_awaitApdu (fun _ hs => ⟨hs.writes, hs.sleeps⟩) call t ht

/-- An APDU that takes one I-frame, within the limits of the end that is to receive it. -/
structure Suits (limits : HdlcCodecLimits) (apdu : ProfileByteView) (s r : State L) : Prop where
  sized : Sized s (.send apdu)
  one : framesToSend s apdu = 1
  within : ¬ (r.options.maximumApduSize ≠ 0 ∧ r.options.maximumApduSize < apdu.data.length)
  fits : (lpduOf s apdu).length ≤ limits.maximumInformationFieldSize

/-- What is seen of a turn: who sent, what, and what the other end handed over. -/
structure Said where
  side : Side
  apdu : List UInt8
  heard : List (List UInt8)
deriving DecidableEq, Repr

/-- One end completes a call of `SendApdu` while the other calls `ReceiveApdu` until it
    waits for more, and when it is over nothing is under way. -/
inductive Turn (codec : Side → HdlcCodecLimits) (ends : Side → State L) :
    Said → (Side → State L) → Prop
  | mk {side : Side} {apdu : ProfileByteView} {schedule : Nat → ReceiveCall}
    {a b : List ReadEvent} {n : Nat}
    (hsuits : Suits (codec side.other) apdu (ends side) (ends side.other))
    (hjoint : Joint apdu schedule (ends side) (ends side.other) a b)
    (hdone : (sending apdu (ends side) a).1 = .done ())
    (hheard : readBytes b = streamed (ends side) (sending apdu (ends side) a).2)
    (hwaits : Blocked (receiving schedule n (ends side.other) b).1)
    (hreplied : readBytes a =
      streamed (ends side.other) (receiving schedule n (ends side.other) b).2) :
    Turn codec ends
      ⟨side, apdu.data,
        (receiving schedule n (ends side.other) b).1.filterMap Result.delivered⟩
      (fun other => if other = side then (sending apdu (ends side) a).2
        else (receiving schedule n (ends side.other) b).2)

/-- Two ends of an established link with nothing under way, each of which expects what the
    other sends next. -/
structure Coupled (law : HdlcSessionLaw L) (collects : HdlcReassemblerLaw L)
    {codec : Side → HdlcCodecLimits} (streams : ∀ side, HdlcStreamLaw L (codec side))
    (ends : Side → State L) : Prop where
  ready : ∀ side, Ready law collects (ends side)
  blank : ∀ side, Blank (streams side) (ends side)
  willing : ∀ side, Willing (ends side)
  level : ∀ side, law.vr (ends side.other).session = law.vs (ends side).session

section Turns

variable {codec : Side → HdlcCodecLimits} {streams : ∀ side, HdlcStreamLaw L (codec side)}
  {wire : HdlcWireLaw L law} {ends ends' : Side → State L}

/-- The I-frame a sender builds of an APDU is the one the other end expects. -/
theorem expects_built (llc : LlcLaw L) (h : Coupled law collects streams ends) {side : Side}
    {apdu : ProfileByteView} {built : List UInt8} {σ : L.Session}
    (hsuits : Suits (codec side.other) apdu (ends side) (ends side.other))
    (framing : HdlcFramingLaw L (streams side.other) wire)
    (hrefused : ¬ Refused (ends side) apdu)
    (hbuild : L.buildInformationFrame (ends side).session (lpduOf (ends side) apdu) true =
      (.ok, built, σ)) :
    ∃ frame, (streams side.other).framer.Encodes built frame ∧
      Expects law (ends side.other) frame ∧
      readInformation L (ends side.other).options frame.information = .ok apdu.data := by
  -- The sender's numbers are those the receiver waits for, as both ends are level.
  rcases wire.information (h.ready side).connected hbuild with
    ⟨frame, hspells, hkind, hwhole, hinfo, hns, hnr⟩
  rcases lpdu_reads llc hrefused hsuits.within with ⟨hne, hread⟩
  have hback : law.vr (ends side).session = law.vs (ends side.other).session := by
    have hlevel := h.level side.other
    rwa [Side.other_other] at hlevel
  refine ⟨frame, framing.encodes hspells (hinfo ▸ hsuits.fits), ⟨hkind, hwhole, ?_, ?_, ?_, ?_⟩, ?_⟩
  · exact hns.trans (h.level side).symm
  · exact hnr.trans hback
  · exact hinfo ▸ hne
  · exact ⟨_, hinfo ▸ hread⟩
  · exact hinfo ▸ hread

/-- What holds of each of two ends holds of both. -/
theorem forall_ends {P : Side → State L → Prop} {side : Side} {s t : State L} (hs : P side s)
    (ht : P side.other t) (other : Side) : P other (if other = side then s else t) := by
  by_cases hside : other = side
  · rw [if_pos hside, hside]
    exact hs
  · rw [if_neg hside, Side.eq_other_of_ne hside]
    exact ht

/-- A turn hands over the APDU that was sent, once, and leaves the two ends as it found
    them but for the numbers. -/
theorem turn_settles (llc : LlcLaw L) (framing : ∀ side, HdlcFramingLaw L (streams side) wire)
    (h : Coupled law collects streams ends) {said : Said} (hturn : Turn codec ends said ends') :
    said.heard = [said.apdu] ∧ Coupled law collects streams ends' := by
  cases hturn with
  | @mk side apdu schedule a b n hsuits _ hdone hheard hwaits hreplied =>
      have hs := h.ready side
      have hcomplete : sendApdu apdu (withReads a (ends side)) =
          (.done (), (sending apdu (ends side) a).2) := Prod.ext hdone rfl
      have hrefused : ¬ Refused (ends side) apdu :=
        unrefused_of_done (s := withReads a (ends side)) hs.session hcomplete
      have hwilling : Willing (withReads a (ends side)) :=
        ⟨(h.willing side).writes, (h.willing side).sleeps⟩
      rcases sendApdu_one law (s := withReads a (ends side)) hs.session hrefused hs.settled
        hwilling hsuits.sized hsuits.one with ⟨-, status, s1, hfail⟩ | ⟨built, σ, hbuild, hcall⟩
      · rw [hfail] at hcomplete
        cases hcomplete
      -- What the receiver is shown are copies of an I-frame it expects.
      rcases expects_built llc h hsuits (framing side.other) hrefused hbuild with
        ⟨frame, hencodes, hexpects, hinfo⟩
      rcases sending_copies hcall with ⟨m, hcopies⟩
      have hread := hheard.trans hcopies
      rcases receiving_settles (h.ready side.other) (h.blank side.other) hexpects hinfo hencodes
        hread hwaits with ⟨hdelivered, hready, hblank, -, hvs, hvr⟩
      rcases receiving_copies (h.ready side.other).session (h.ready side.other)
        (h.blank side.other) hexpects hencodes hread hwaits with ⟨τ, hτ, hnext, hrr⟩
      -- The RR is all there was to read for the sender.
      rcases wire.receiveReady true hτ with ⟨reply, hspelled, hkind, hnumber⟩
      have hreply : (streams side).framer.Encodes (readBytes a) reply := by
        rw [hreplied, hrr]
        exact (framing side).receiveReady true hτ hspelled
      have hnumber' : law.receiveSequence reply.control = law.vs σ := by
        rw [hnumber, hnext, h.level side, (law.information hs.connected hbuild).2.1]
      rcases sending_settles hs (h.blank side) (h.willing side) hbuild hcall hreply hkind hnumber'
        hdone with ⟨hready', hblank', hwilling', -, hvs', hvr'⟩
      have hwilling'' : Willing (receiving schedule n (ends side.other) b).2 :=
        calls_willing _ ⟨(h.willing side.other).writes, (h.willing side.other).sleeps⟩
      refine ⟨hdelivered, forall_ends hready' hready, forall_ends hblank' hblank,
        forall_ends (P := fun _ => Willing) hwilling' hwilling'', fun other => ?_⟩
      -- V(S) of the one end and V(R) of the other have moved on together.
      by_cases hside : other = side
      · subst hside
        rw [if_neg other.other_ne, if_pos rfl, hvr, hvs', h.level other]
      · obtain rfl := Side.eq_other_of_ne hside
        have hlevel := h.level side.other
        rw [Side.other_other] at hlevel ⊢
        rw [if_pos rfl, if_neg hside, hvr', hvs, hlevel]

end Turns

end Hdlc

end DlmsProfile
