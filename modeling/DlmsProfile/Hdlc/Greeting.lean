import DlmsProfile.Hdlc.Progress

/-!
# Establishing a Link between Two Ends

A client calls `ConnectDataLink` and a server `AcceptDataLink`, joined by two pipes. The
client writes its SNRM again whenever it gives up waiting, so the server may be shown it
more than once. It answers the first of them only. Those that are left come to its calls of
`ReceiveApdu`, where a connected session rejects them, and they leave no trace but in the
record.

Both ends make their session, decoder and reassembler anew before anything else, so it does
not matter what they were used for before, as long as nothing of it is still under way.

## Main definitions

* `Hdlc.Apart`: An end without a link that may establish one.
* `Hdlc.prepared`: Such an end with all that is made anew.
* `Hdlc.Greeting`: A link is established, with what the server hands over meanwhile.
* `Hdlc.Greeted`: A server on the copies of the SNRM it has not answered.

## Theorems

* `Hdlc.greeting_couples`: The two ends are then between two turns of a conversation.
* `Hdlc.association_exact`: From the establishing of the link on, each end hands over what
  the other sent.
-/

namespace DlmsProfile

namespace Hdlc

variable {L : HdlcLib} {law : HdlcSessionLaw L} {collects : HdlcReassemblerLaw L}

/-- An end without a link that may establish one, with nothing queued, on an open stream. -/
structure Apart (role : HdlcProfileRole) (s : State L) : Prop extends Willing s where
  session : s.options.hdlcUseSession = true
  role : (s.options.hdlcRole == role) = true
  made : (makeHdlcSessionOptions L s.options).1 = .ok
  disconnected : L.sessionState s.session = .disconnected
  pending : s.pendingApdus = []
  buffer : s.readBufferSize ≠ 0
  opened : s.isOpens.headD true = true

/-- The options of its session. -/
def optionsOf (s : State L) : L.SessionOptions := (makeHdlcSessionOptions L s.options).2

/-- An end that has asked whether the stream is open and made its session anew. -/
def prepared (s : State L) : State L :=
  { asked s with
    session := L.newSession (optionsOf s)
    hdlcLimits := (optionsOf s).limits
    decoder := L.newDecoder (optionsOf s).limits
    reassembler := L.newReassembler (optionsOf s).limits
    pendingHdlcFrames := [] }

section

variable {role : HdlcProfileRole} {s : State L}

theorem Apart.withReads (h : Apart role s) (reads : List ReadEvent) :
    Apart role (withReads reads s) :=
  ⟨⟨h.writes, h.sleeps⟩, h.session, h.role, h.made, h.disconnected, h.pending, h.buffer, h.opened⟩

theorem Apart.prepares (h : Apart role s) {rest : Call L Unit} :
    establishing role rest s = rest (prepared s) := by
  have hmade : (makeHdlcSessionOptions L (asked s).options).1 = .ok := h.made
  have hdisc : L.sessionState (asked s).session = .disconnected := h.disconnected
  have hensure : ensureSession (asked s) = (.done (), prepared s) := by
    simp only [ensureSession, hmade, ne_eq, not_true_eq_false, if_false, hdisc, if_true]
    rfl
  rw [establishing_of_ready h.session h.opened h.role, Proc.bind_of_done _ hensure]

end

/-- The end that calls `ConnectDataLink`, once it has made the given reads. -/
def connecting (s : State L) (reads : List ReadEvent) : Outcome ProfileStatus Unit × State L :=
  connectDataLink (withReads reads s)

/-- The end that calls `AcceptDataLink` and then `ReceiveApdu`. -/
def accepting (schedule : Nat → ReceiveCall) (n : Nat) (r : State L) (reads : List ReadEvent) :
    List Result × State L :=
  run (.acceptDataLink :: ((List.range n).map schedule).map .receive) (withReads reads r)

/-- Both calls complete, the server has read all there is and waits for more, and nothing is
    under way. -/
inductive Greeting (side : Side) (ends : Side → State L) :
    List (List UInt8) → (Side → State L) → Prop
  | mk {schedule : Nat → ReceiveCall} {a b : List ReadEvent} {n : Nat}
    (hdone : (connecting (ends side) a).1 = .done ())
    (haccepted : (accepting schedule n (ends side.other) b).1.head? = some (.status (.done ())))
    (hheard : readBytes b = streamed (ends side) (connecting (ends side) a).2)
    (hwaits : Blocked (accepting schedule n (ends side.other) b).1)
    (hreplied : readBytes a =
      streamed (ends side.other) (accepting schedule n (ends side.other) b).2) :
    Greeting side ends
      ((accepting schedule n (ends side.other) b).1.filterMap Result.delivered)
      (fun other => if other = side then (connecting (ends side) a).2
        else (accepting schedule n (ends side.other) b).2)

section Client

variable {own peer : HdlcCodecLimits} {ownStream : HdlcStreamLaw L own}
  {peerStream : HdlcStreamLaw L peer} {client server : L.SessionOptions} {s : State L}
  {a : List ReadEvent}

/-- A client that has written its SNRM. -/
def requested (L : HdlcLib) (s : State L) : State L :=
  let built := L.buildConnectRequest (L.newSession (optionsOf s))
  wrote built.2.1 { prepared s with session := built.2.2 }

/-- After that it waits for the UA. -/
theorem connecting_waits (hs : Apart .client s)
    (greeting : HdlcGreetingLaw L law ownStream peerStream (optionsOf s) server)
    (a : List ReadEvent) :
    connecting s a = retryLoop (L.buildConnectRequest (L.newSession (optionsOf s))).2.1
      s.options.hdlcRetryCount.toNat (requested L (withReads a s)) := by
  have hs' := hs.withReads a
  let ready := prepared (withReads a s)
  have hbuild : sessionBuild L.buildConnectRequest ready =
      (.done (L.buildConnectRequest (L.newSession (optionsOf s))).2.1,
        { ready with session := (L.buildConnectRequest (L.newSession (optionsOf s))).2.2 }) := by
    have hok : mapHdlcStatus (L.buildConnectRequest ready.session).1 = .ok :=
      mapHdlcStatus_eq_ok.mpr greeting.request
    exact if_pos hok
  have hwrite : ({ ready with session :=
      (L.buildConnectRequest (L.newSession (optionsOf s))).2.2 } : State L).writes.headD .ok =
      .ok := headD_ok hs.writes
  -- The SNRM is built and written, and what is left is the wait for the UA.
  rw [connecting, connectDataLink_eq, hs'.prepares, requestConnection,
    Proc.bind_of_done _ hbuild, Proc.bind_of_done _ (writeFrameBytes_of_ok hwrite)]
  rfl

/-- What a client has written: copies of its SNRM. -/
theorem connecting_copies (hs : Apart .client s)
    (greeting : HdlcGreetingLaw L law ownStream peerStream (optionsOf s) server)
    (a : List ReadEvent) :
    ∃ m, streamed s (connecting s a).2 = (List.replicate (m + 1)
      (L.buildConnectRequest (L.newSession (optionsOf s))).2.1).flatten := by
  have htrace : (requested L (withReads a s)).trace = s.trace ++
      [.transport (.isOpen (s.isOpens.headD true)),
        .transport (.write (L.buildConnectRequest (L.newSession (optionsOf s))).2.1
          (s.writes.headD .ok))] := List.append_assoc _ _ _
  rw [connecting_waits hs greeting]
  exact retry_copies htrace rfl _

/-- A client that has got the UA, and nothing else, stands between two turns. -/
theorem connecting_settles (collects : HdlcReassemblerLaw L) (hs : Apart .client s)
    {ownStream : HdlcStreamLaw L (optionsOf s).limits}
    (greeting : HdlcGreetingLaw L law ownStream peerStream (optionsOf s) server)
    (hread : ownStream.framer.Encodes (readBytes a) greeting.ua)
    (hdone : (connecting s a).1 = .done ()) :
    Ready law collects (connecting s a).2 ∧ Blank ownStream (connecting s a).2 ∧
      Willing (connecting s a).2 ∧ (connecting s a).2.options = s.options ∧
      law.vs (connecting s a).2.session = 0 ∧ law.vr (connecting s a).2.session = 0 := by
  have hcall := connecting_waits hs greeting a
  -- The decoder is new, so the UA is the first frame it finds.
  have hcoming : Coming ownStream
      (L.buildConnectRequest (L.newSession (optionsOf s))).2.2 greeting.ua
      (requested L (withReads a s)) := by
    have hkept : ownStream.view (requested L (withReads a s)).decoder = [] := ownStream.new.2
    refine ⟨rfl, ownStream.new.1, ?_, rfl, hs.buffer, ?_⟩ <;> rw [hkept]
    · exact Framing.Framer.scan_nil
    · exact hread
  have hloop := hcall.symm.trans (Prod.ext hdone rfl :
    connecting s a = (.done (), (connecting s a).2))
  have hanswered := retryLoop_arrives greeting.confirmation _ _ hcoming hloop
  -- Waiting leaves all but the session, the decoder and the record as it was.
  have hundisturbed := undisturbed_wait.within_retryLoop
    (L.buildConnectRequest (L.newSession (optionsOf s))).2.1 s.options.hdlcRetryCount.toNat
    (requested L (withReads a s))
  rw [hloop] at hundisturbed
  have hbegun : Willing (requested L (withReads a s)) := ⟨writes_tail hs.writes, hs.sleeps⟩
  have hafter := hundisturbed.willing hbegun
  rcases greeting.connected _ (Or.inl hanswered.session) with ⟨hσ, hvs, hvr, hva⟩
  refine ⟨⟨⟨?_, hσ, hva.trans hvs.symm, ?_, hafter.writes⟩, ?_⟩, hanswered.toBlank, hafter,
    hundisturbed.options, hvs, hvr⟩
  · rw [hundisturbed.options]
    exact hs.session
  · exact hundisturbed.apdus.trans hs.pending
  · rw [hundisturbed.reassembler]
    exact collects.new _

end Client

section Server

variable {own peer : HdlcCodecLimits} {ownStream : HdlcStreamLaw L own}
  {peerStream : HdlcStreamLaw L peer} {client server : L.SessionOptions} {frame : L.Frame}
  {r s t : State L} {b : List ReadEvent} {m n : Nat} {schedule : Nat → ReceiveCall}

/-- A connected server to which nothing but copies of one frame is still to come, and which
    has done nothing since but take some of them. -/
structure Greeted (collects : HdlcReassemblerLaw L) (frame : L.Frame) (s t : State L) : Prop where
  options : t.options = s.options
  session : t.session = s.session
  pending : t.pendingApdus = []
  collected : collects.collected t.reassembler = []
  copies : ∀ f ∈ incoming t, f = frame
  silent : Unwritten s t

/-- A connected session rejects a command. -/
theorem decodeFrame_command (law : HdlcSessionLaw L) (unnumbered : HdlcUnnumberedLaw L)
    (collects : HdlcReassemblerLaw L) (huse : t.options.hdlcUseSession = true)
    (hσ : L.Connected t.session) (hkind : L.frameKind frame.control = .unnumbered) :
    ∃ ρ, collects.collected ρ = collects.collected t.reassembler ∧
      (decodeFrameToPendingApdu frame t).2 = judged frame (reassembling ρ t) ∧
      (judged frame (reassembling ρ t)).session = t.session := by
  have hother : L.frameKind frame.control ≠ .information := by
    rw [hkind]
    exact fun hc => by cases hc
  rcases collects.other (r := t.reassembler) hother with ⟨hok, hthrough, hcollected⟩
  have hrejected : (L.receiveFrame t.session frame).1 ≠ .ok := unnumbered.rejects hσ hkind
  refine ⟨_, hcollected, ?_⟩
  rw [decodeFrame_of_ok huse hok, hthrough]
  have hreceive : sessionReceive frame (reassembling (L.pushFrame t.reassembler frame).2.2 t) =
      (.fail (mapHdlcStatus (L.receiveFrame t.session frame).1),
        judged frame (reassembling (L.pushFrame t.reassembler frame).2.2 t)) :=
    check_of_ne (fun hc => hrejected (mapHdlcStatus_eq_ok.mp hc)) _
  -- The session rejects it, so it is neither decoded nor answered.
  simp only [acceptCompleted]
  rw [Proc.bind_of_fail _ hreceive]
  exact ⟨rfl, law.rejected hσ (Prod.ext rfl rfl) hrejected⟩

/-- One turn of the receive loop. -/
theorem receiveTurn_greeted (law : HdlcSessionLaw L) (unnumbered : HdlcUnnumberedLaw L)
    (huse : s.options.hdlcUseSession = true) (hσ : L.Connected s.session)
    (hkind : L.frameKind frame.control = .unnumbered) :
    Proc.Preserves (Greeted collects frame s) (receiveTurn (L := L)) := by
  intro t ht
  have haside := receiveDecodedFrame_aside t
  have hin := receiveDecodedFrame_incoming t
  have hunwritten := (receiveDecodedFrame_readsOnly t).unwritten
  have hsame : ∀ f ∈ incoming (receiveDecodedFrame t).2, f = frame := fun f hf =>
    ht.copies f (hin ▸ List.mem_append_right _ hf)
  have hnone : Greeted collects frame s (receiveDecodedFrame t).2 := by
    refine ⟨haside.options.trans ht.options, haside.session.trans ht.session,
      haside.apdus.trans ht.pending, ?_, hsame, ht.silent.trans hunwritten⟩
    rw [haside.reassembler]
    exact ht.collected
  -- A frame that comes is a copy, and the session rejects it. Else nothing happens.
  rcases hr : receiveDecodedFrame t with ⟨f | status | _, t1⟩ <;> rw [hr] at hnone
  · have hcome := receiveDecodedFrame_done hr
    obtain rfl : f = frame := ht.copies f (hcome ▸ List.mem_cons_self)
    rw [receiveTurn, Proc.bind_of_done _ hr, handleFrame_snd]
    have huse' : t1.options.hdlcUseSession = true := by
      rw [hnone.options]
      exact huse
    have hσ' : L.Connected t1.session := by
      rw [hnone.session]
      exact hσ
    rcases decodeFrame_command law unnumbered collects huse' hσ' hkind with
      ⟨ρ, hcollected, hstate, hkept⟩
    have hintake := (decodeFrame_sameIntake f t1).incoming
    rw [hstate] at hintake ⊢
    refine ⟨hnone.options, hkept.trans hnone.session, hnone.pending,
      hcollected.trans hnone.collected, ?_, hnone.silent.trans ⟨_, rfl, rfl⟩⟩
    rw [hintake]
    exact hnone.copies
  · rw [receiveTurn, Proc.bind_of_fail _ hr]
    exact hnone
  · rw [receiveTurn, Proc.bind_of_waiting _ hr]
    exact hnone

/-- Any number of calls. None of them hands anything over. -/
theorem calls_greeted (law : HdlcSessionLaw L) (unnumbered : HdlcUnnumberedLaw L)
    (huse : s.options.hdlcUseSession = true) (hσ : L.Connected s.session)
    (hkind : L.frameKind frame.control = .unnumbered) (calls : List ReceiveCall)
    (h : Greeted collects frame s t) :
    Greeted collects frame s (run (calls.map .receive) t).2 ∧
      (run (calls.map .receive) t).1.filterMap Result.delivered = [] := by
  have hawait : Proc.Preserves (Greeted collects frame s) (awaitApdu (L := L)) :=
    PendingQueue.preserves_await
      (Proc.preserves_repeatUntil (receiveTurn_greeted law unnumbered huse hσ hkind))
  -- A call that hands something over needs a queue, and there is none.
  have hcall : ∀ call t, Greeted collects frame s t →
      Greeted collects frame s (exec (.receive call) t).2 ∧
        (exec (.receive call) t).1.delivered = none := by
    intro call t ht
    have hafter := hawait t ht
    rcases receive_cases call t with ⟨hnone, hsame | hsame⟩ | ⟨s1, hw, hne, -, -⟩
    · rw [hsame]
      exact ⟨ht, hnone⟩
    · rw [hsame]
      exact ⟨hafter, hnone⟩
    · rw [hw] at hafter
      exact absurd hafter.pending hne
  induction calls generalizing t with
  | nil => exact ⟨h, rfl⟩
  | cons call calls ih =>
      rcases hcall call t h with ⟨hnext, hnone⟩
      rw [List.map_cons]
      cases hw : (exec (.receive call) t).1.isWaiting with
      | true =>
          rw [run_of_waiting hw]
          refine ⟨hnext, ?_⟩
          rw [delivered_cons, hnone]
          rfl
      | false =>
          rw [run_of_returned hw]
          rcases ih hnext with ⟨hend, hrest⟩
          refine ⟨hend, ?_⟩
          rw [delivered_cons, hnone, hrest]
          rfl

/-- The UA with which a server answers an SNRM. -/
def response (L : HdlcLib) (r : State L) (frame : L.Frame) :
    HdlcStatus × List UInt8 × L.Session :=
  L.buildConnectResponse (L.receiveFrame (L.newSession (optionsOf r)) frame).2

theorem acceptDataLink_eq (s : State L) :
    acceptDataLink s = establishing .server (receiveSessionControlFrame >>= fun _ =>
      sessionBuild L.buildConnectResponse >>= writeFrameBytes) s := rfl

/-- Of the frames a server finds in its reads it takes the first and answers it. -/
theorem acceptDataLink_answers (collects : HdlcReassemblerLaw L) (hr : Apart .server r)
    {peerStream : HdlcStreamLaw L (optionsOf r).limits} {bytes : List UInt8}
    (henc : peerStream.framer.Encodes bytes frame)
    (hread : readBytes b = (List.replicate (m + 1) bytes).flatten) {s' : State L}
    (hdone : acceptDataLink (withReads b r) = (.done (), s')) :
    Greeted collects frame s' s' ∧ Seamless peerStream s' ∧ Willing s' ∧
      s'.options = r.options ∧ s'.session = (response L r frame).2.2 ∧
      ∃ events, s'.trace = r.trace ++ events ∧
        (written events).map (·.1) = [(response L r frame).2.1] := by
  let ready := prepared (withReads b r)
  have hview : peerStream.view ready.decoder = [] := peerStream.new.2
  have hscan : peerStream.framer.scan (peerStream.view ready.decoder ++ readBytes b) =
      (List.replicate (m + 1) frame, .rest []) := by
    rw [hview, List.nil_append, hread, Framing.Framer.scan_flatten (forall_encodes henc (m + 1))]
  have hseamless : Seamless peerStream ready := by
    refine ⟨peerStream.new.1, ?_, congrArg Prod.snd hscan⟩
    rw [hview, Framing.Framer.scan_nil]
  have hcome : incoming ready = List.replicate (m + 1) frame :=
    hseamless.incoming.trans (congrArg Prod.fst hscan)
  rw [acceptDataLink_eq, (hr.withReads b).prepares] at hdone
  rcases Proc.bind_done_iff.mp hdone with ⟨⟨⟩, s2, hcontrol, hrest⟩
  rcases Proc.bind_done_iff.mp hrest with ⟨built, s3, hbuild, hwrite⟩
  rcases sessionBuild_done hbuild with ⟨σ', hσ', rfl⟩
  -- The first copy was taken, and the others are still to come.
  rcases control_accepts hcontrol with ⟨first, haccepts⟩
  have hfirst := haccepts.incoming
  rw [List.nil_append, hcome, List.replicate_succ] at hfirst
  obtain ⟨rfl, hothers⟩ := List.cons.inj hfirst
  have hsession : s2.session = (L.receiveFrame (L.newSession (optionsOf r)) frame).2 :=
    haccepts.session
  have hkept := seamless_intake.within_control ready hseamless
  have hundisturbed := undisturbed_wait.within_control ready
  rw [hcontrol] at hkept hundisturbed
  -- Neither reading nor judging writes, so the UA is all that has been written.
  have hquiet : Unwritten ready s2 := by
    rcases Proc.bind_done_iff.mp hcontrol with ⟨f, s1, hframe, hreceive⟩
    have hread := (receiveDecodedFrame_readsOnly ready).unwritten
    rw [hframe] at hread
    have hjudged := congrArg Prod.snd hreceive
    rw [sessionReceive_snd] at hjudged
    exact hread.trans ⟨_, (congrArg State.trace hjudged).symm, rfl⟩
  have hanswer : response L r frame = (.ok, built, σ') := by
    rw [response, ← hsession]
    exact hσ'
  have hwilling := hundisturbed.willing ⟨hr.writes, hr.sleeps⟩
  have hok : ({ s2 with session := σ' } : State L).writes.headD .ok = .ok :=
    headD_ok hwilling.writes
  rw [writeFrameBytes_of_ok hok] at hwrite
  obtain rfl := (Prod.mk.inj hwrite).2
  rcases hquiet with ⟨events, htrace, hnone⟩
  refine ⟨⟨rfl, rfl, ?_, ?_, ?_, [], (List.append_nil _).symm, rfl⟩, hkept.congr rfl rfl,
    ⟨writes_tail hwilling.writes, hwilling.sleeps⟩, hundisturbed.options, ?_,
    .transport (.isOpen (r.isOpens.headD true)) :: (events ++
      [.transport (.write built (s2.writes.headD .ok))]), ?_, ?_⟩
  · exact hundisturbed.apdus.trans hr.pending
  · have hmade : s2.reassembler = L.newReassembler (optionsOf r).limits :=
      hundisturbed.reassembler
    have hempty : collects.collected s2.reassembler = [] := by
      rw [hmade]
      exact collects.new _
    exact hempty
  · intro f hf
    have hleft : f ∈ incoming s2 := hf
    rw [← hothers] at hleft
    exact List.eq_of_mem_replicate hleft
  · rw [hanswer]
    rfl
  · have hwhole : s2.trace =
        r.trace ++ ([.transport (.isOpen (r.isOpens.headD true))] ++ events) := by
      rw [htrace, ← List.append_assoc]
      rfl
    change s2.trace ++ _ = _
    rw [hwhole, List.append_assoc]
    rfl
  · have hlast : written (events ++ [.transport (.write built (s2.writes.headD .ok))]) =
        [(built, s2.writes.headD .ok)] := by
      rw [written_append, hnone]
      rfl
    have hwhole : written (.transport (.isOpen (r.isOpens.headD true)) :: (events ++
        [.transport (.write built (s2.writes.headD .ok))])) =
          [(built, s2.writes.headD .ok)] := hlast
    rw [hwhole, hanswer]
    rfl

/-- A server that has answered and has read all there is stands between two turns, and has
    handed over nothing. -/
theorem accepting_settles (collects : HdlcReassemblerLaw L) (unnumbered : HdlcUnnumberedLaw L)
    (hr : Apart .server r) {peerStream : HdlcStreamLaw L (optionsOf r).limits}
    (greeting : HdlcGreetingLaw L law ownStream peerStream client (optionsOf r))
    (hread : readBytes b = (List.replicate (m + 1)
      (L.buildConnectRequest (L.newSession client)).2.1).flatten)
    (haccepted : (accepting schedule n r b).1.head? = some (.status (.done ())))
    (hwaits : Blocked (accepting schedule n r b).1) :
    (accepting schedule n r b).1.filterMap Result.delivered = [] ∧
      Ready law collects (accepting schedule n r b).2 ∧
      Blank peerStream (accepting schedule n r b).2 ∧
      Willing (accepting schedule n r b).2 ∧
      streamed r (accepting schedule n r b).2 = (response L r greeting.snrm).2.1 ∧
      law.vs (accepting schedule n r b).2.session = 0 ∧
      law.vr (accepting schedule n r b).2.session = 0 := by
  rcases hcall : acceptDataLink (withReads b r) with ⟨o, s'⟩
  have hexec : exec .acceptDataLink (withReads b r) = (.status o, s') := by
    rw [exec, hcall]
  -- The handshake is the first call, whether the run goes on behind it or not.
  have ho : o = .done () := by
    cases hw : (exec .acceptDataLink (withReads b r)).1.isWaiting with
    | true =>
        rw [accepting, run_of_waiting hw, hexec] at haccepted
        exact Result.status.inj (Option.some.inj haccepted)
    | false =>
        rw [accepting, run_of_returned hw, hexec] at haccepted
        exact Result.status.inj (Option.some.inj haccepted)
  subst ho
  have hrun : accepting schedule n r b =
      (.status (.done ()) :: (run (((List.range n).map schedule).map .receive) s').1,
        (run (((List.range n).map schedule).map .receive) s').2) := by
    rw [accepting, run_of_returned (by rw [hexec]; rfl), hexec]
  rcases acceptDataLink_answers collects hr greeting.requestEncodes hread hcall with
    ⟨hgreeted, hseamless, hwilling, hoptions, hsession, events, htrace, hwritten⟩
  rcases greeting.connected _ (Or.inr hsession) with ⟨hσ, hvs, hvr, hva⟩
  have huse : s'.options.hdlcUseSession = true := by
    rw [hoptions]
    exact hr.session
  rcases calls_greeted law unnumbered huse hσ greeting.unnumbered ((List.range n).map schedule)
    hgreeted with
    ⟨hend, hnone⟩
  -- So the call that waits is one of those behind it.
  have hblocked : Blocked (run (((List.range n).map schedule).map .receive) s').1 := by
    rw [hrun] at hwaits
    rcases hwaits with ⟨result, hmem, hwait⟩
    rcases List.mem_cons.mp hmem with rfl | hmem
    · cases hwait
    · exact ⟨result, hmem, hwait⟩
  have hmake := sameMake_primitives.run
    (.acceptDataLink :: ((List.range n).map schedule).map .receive) (withReads b r)
  have hbuffer : (accepting schedule n r b).2.readBufferSize ≠ 0 := hmake.2 ▸ hr.buffer
  rw [hrun] at hbuffer ⊢
  have hafter := calls_willing ((List.range n).map schedule) hwilling
  rcases hend.silent with ⟨more, hmore, hquiet⟩
  refine ⟨?_, ⟨⟨?_, ?_, ?_, hend.pending, hafter.writes⟩, hend.collected⟩,
    (calls_seamless _ hseamless).blank (calls_exhausted hblocked) (calls_blocked hblocked) hbuffer,
    hafter, ?_, ?_, ?_⟩
  · rw [delivered_cons, hnone]
    rfl
  · rw [hend.options]
    exact huse
  · rw [hend.session]
    exact hσ
  · rw [hend.session]
    exact hva.trans hvs.symm
  · have hwhole : (run (((List.range n).map schedule).map .receive) s').2.trace =
        r.trace ++ (events ++ more) := by
      rw [hmore, htrace, List.append_assoc]
    rw [streamed_of_trace hwhole, written_append, hquiet, List.append_nil, List.flatMap_def,
      hwritten]
    exact List.append_nil _
  · rw [hend.session]
    exact hvs
  · rw [hend.session]
    exact hvr

end Server

section Ends

variable {ends ends' : Side → State L} {side : Side}
  {streams : ∀ side, HdlcStreamLaw L (optionsOf (ends side)).limits}

/-- Once the link is established the two ends stand between two turns of a conversation, and
    nothing has been handed over. -/
theorem greeting_couples (unnumbered : HdlcUnnumberedLaw L)
    (greeting : HdlcGreetingLaw L law (streams side) (streams side.other)
      (optionsOf (ends side)) (optionsOf (ends side.other)))
    (hclient : Apart .client (ends side)) (hserver : Apart .server (ends side.other))
    {heard : List (List UInt8)} (h : Greeting side ends heard ends') :
    heard = [] ∧ Coupled law collects streams ends' := by
  cases h with
  | @mk schedule a b n hdone haccepted hheard hwaits hreplied =>
      -- The server hears copies of the SNRM, and answers the first of them.
      rcases connecting_copies hclient greeting a with ⟨m, hcopies⟩
      rcases accepting_settles collects unnumbered hserver greeting (hheard.trans hcopies) haccepted
        hwaits with ⟨hnone, hready, hblank, hwilling, hanswer, hvs, hvr⟩
      have hua : (streams side).framer.Encodes (readBytes a) greeting.ua := by
        rw [hreplied, hanswer]
        exact greeting.responseEncodes
      -- The client takes that answer, and has nothing under way after it.
      rcases connecting_settles collects hclient greeting hua hdone with
        ⟨hready', hblank', hwilling', -, hvs', hvr'⟩
      refine ⟨hnone, forall_ends hready' hready, forall_ends hblank' hblank,
        forall_ends (P := fun _ => Willing) hwilling' hwilling, fun other => ?_⟩
      -- Both sessions are new, so each expects what the other will send.
      by_cases hside : other = side
      · subst hside
        rw [if_neg other.other_ne, if_pos rfl, hvr, hvs']
      · obtain rfl := Side.eq_other_of_ne hside
        rw [Side.other_other, if_pos rfl, if_neg hside, hvr', hvs]

/-- Two ends without a link and with no APDU queued, whatever else they were used for
    before. From the establishing of the link on, in any number of turns, each hands over
    what the other sent, in order and once, and nothing else. -/
theorem association_exact (unnumbered : HdlcUnnumberedLaw L) {wire : HdlcWireLaw L law}
    (llc : LlcLaw L) (framing : ∀ side, HdlcFramingLaw L (streams side) wire)
    (greeting : HdlcGreetingLaw L law (streams side) (streams side.other)
      (optionsOf (ends side)) (optionsOf (ends side.other)))
    (hclient : Apart .client (ends side)) (hserver : Apart .server (ends side.other))
    {linked : Side → State L} {heard : List (List UInt8)} (h : Greeting side ends heard linked)
    {saids : List Said}
    (hrun : Traces (Turn fun side => (optionsOf (ends side)).limits) linked saids ends') :
    heard = [] ∧ (∀ said ∈ saids, said.heard = [said.apdu]) ∧
      Coupled law collects streams ends' := by
  rcases greeting_couples unnumbered greeting hclient hserver h with ⟨hnone, hcoupled⟩
  exact ⟨hnone, turns_heard llc framing hcoupled hrun, turns_coupled llc framing hcoupled hrun⟩

/-- A client and a server without a link. -/
def unlinked : Side → State Reference.hdlcLib
  | .left => Reference.hdlcChannel Reference.sessionOptions []
  | .right => Reference.hdlcChannel Reference.serverOptions []

/-- What the client reads: nothing at first, and then the UA. -/
def clientReads : List ReadEvent :=
  [⟨.wouldBlock, []⟩, Reference.arrived (Reference.toClient Reference.ua [])]

/-- What the server reads: both SNRMs of the client at once. -/
def serverReads : List ReadEvent :=
  [Reference.arrived (Reference.toServer Reference.snrm [] ++
    Reference.toServer Reference.snrm [])]

/-- The two ends with a link. -/
def greeted (side : Side) : State Reference.hdlcLib :=
  if side = .left then (connecting (unlinked .left) clientReads).2
  else (accepting (fun _ => .vector) 2 (unlinked (Side.other .left)) serverReads).2

theorem unlinked_greeting : Greeting .left unlinked [] greeted := by
  have hparts :
      let accepted := accepting (fun _ => .vector) 2 (unlinked (Side.other .left)) serverReads
      (connecting (unlinked .left) clientReads).1 = .done () ∧
        accepted.1.head? = some (.status (.done ())) ∧
        readBytes serverReads =
          streamed (unlinked .left) (connecting (unlinked .left) clientReads).2 ∧
        Blocked accepted.1 ∧
        readBytes clientReads = streamed (unlinked (Side.other .left)) accepted.2 ∧
        accepted.1.filterMap Result.delivered = [] := by
    decide +kernel
  rcases hparts with ⟨hdone, haccepted, hheard, hwaits, hreplied, hnone⟩
  have h := Greeting.mk hdone haccepted hheard hwaits hreplied
  rwa [hnone] at h

theorem unlinked_apart :
    Apart .client (unlinked .left) ∧ Apart .server (unlinked (Side.other .left)) := by
  have hfacts : ∀ side, let s := unlinked side
      (∀ status ∈ s.writes, status = .ok) ∧ (∀ status ∈ s.sleeps, status = .ok) ∧
        s.options.hdlcUseSession = true ∧
        (s.options.hdlcRole == if side = .left then .client else .server) = true ∧
        (makeHdlcSessionOptions Reference.hdlcLib s.options).1 = .ok ∧
        Reference.hdlcLib.sessionState s.session = .disconnected ∧ s.pendingApdus = [] ∧
        s.readBufferSize ≠ 0 ∧ s.isOpens.headD true = true := by
    intro side
    cases side <;> decide +kernel
  rcases hfacts .left with ⟨hw, hs, huse, hrole, hmade, hdisc, hpending, hbuffer, hopen⟩
  rcases hfacts .right with ⟨hw', hs', huse', hrole', hmade', hdisc', hpending', hbuffer', hopen'⟩
  exact ⟨⟨⟨hw, hs⟩, huse, hrole, hmade, hdisc, hpending, hbuffer, hopen⟩,
    ⟨⟨hw', hs'⟩, huse', hrole', hmade', hdisc', hpending', hbuffer', hopen'⟩⟩

/-- The limits of their decoders. -/
def unlinkedLimits (side : Side) : HdlcCodecLimits := (optionsOf (unlinked side)).limits

/-- What the reference library promises about the two of them. -/
def unlinkedLaw : HdlcGreetingLaw Reference.hdlcLib Reference.sessionLaw
    (Reference.hdlcStreamLaw (unlinkedLimits .left))
    (Reference.hdlcStreamLaw (unlinkedLimits (Side.other .left)))
    (optionsOf (unlinked .left)) (optionsOf (unlinked (Side.other .left))) :=
  Reference.greetingLaw _ _ (by decide +kernel) (by decide +kernel)

theorem greeted_suits : Suits (unlinkedLimits (Side.other .left)) (.of [0xC0]) (greeted .left)
    (greeted (Side.other .left)) :=
  Suits.of_sizes (by decide +kernel) (by decide +kernel) (by decide +kernel) (by decide +kernel)
    (by decide +kernel)

/-- The link is established, and the client has sent one APDU. -/
theorem association_exact_one :
    ∃ ends', Traces (Turn unlinkedLimits) greeted [⟨.left, [0xC0], [[0xC0]]⟩] ends' ∧
      (∀ said ∈ [(⟨.left, [0xC0], [[0xC0]]⟩ : Said)], said.heard = [said.apdu]) ∧
      Coupled Reference.sessionLaw Reference.reassemblerLaw
        (fun side => Reference.hdlcStreamLaw (unlinkedLimits side)) ends' := by
  have hcoupled : Coupled Reference.sessionLaw Reference.reassemblerLaw
      (fun side => Reference.hdlcStreamLaw (unlinkedLimits side)) greeted :=
    (greeting_couples Reference.unnumberedLaw unlinkedLaw unlinked_apart.1 unlinked_apart.2
      unlinked_greeting).2
  have hwaits : (sending (.of [0xC0]) (greeted .left) []).1 = .waiting := by decide +kernel
  rcases turn_completes Reference.llcLaw (fun _ => Reference.framingLaw _) hcoupled greeted_suits
    (holdsReady_of_le (by decide +kernel)) (fun _ => ReceiveCall.hasRoom_vector _) Joint.start
    hwaits with ⟨e, b', n, -, -, hturn⟩
  have hrun := Traces.cons hturn Traces.nil
  exact ⟨_, hrun, (association_exact Reference.unnumberedLaw Reference.llcLaw
    (fun _ => Reference.framingLaw _) unlinkedLaw unlinked_apart.1 unlinked_apart.2
    unlinked_greeting hrun).2⟩

end Ends

end Hdlc

end DlmsProfile
