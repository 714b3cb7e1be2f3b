import DlmsProfile.Hdlc.Payload

/-!
# An Acknowledged APDU is Handed Over Once

An RR tells the peer that it may forget an APDU. The receive loop writes it after
the APDU is in the queue, and from there only a receive call that returns `Ok`
takes it. So what was acknowledged is handed over, and handed over once.

The queue never holds a second one. The loop runs only while the queue is empty
and ends as soon as it is not, with one exception: a failure that reads as
`NeedMoreData` sends the loop round again. After an APDU was queued the only such
failure would be the session's own in building the RR, which is why a result
below asks that it is none.

## Main definitions

* `Hdlc.AnswersQueued`: Nothing is written before the APDU it acknowledges is
  queued.
* `Hdlc.Gains`: The queue gains what is recorded as queued and loses nothing.
* `Hdlc.AtEachCall`: A condition on every call of a run and the state it finds.

## Theorems

* `Hdlc.receiveTurn_apdus`: One turn that starts with an empty queue.
* `Hdlc.awaitApdu_handover`: The loop in front of both overloads.
* `Hdlc.handed_over_once`: Every APDU acknowledged over a run is handed over once.
-/

namespace DlmsProfile

namespace Hdlc

variable {L : HdlcLib}

/-- Whatever is written follows directly on an accepted frame and the queueing of the
    APDU it decodes to. -/
def AnswersQueued (events : List (Event L)) : Prop :=
  ∀ pre post bytes status, events = pre ++ .transport (.write bytes status) :: post →
    ∃ before σ frame apdu,
      pre = before ++ [.receive σ frame .ok, .queue frame.information apdu] ∧
        Decodes L frame.information (.ok apdu)

/-- An element of two lists laid end to end lies in one of them. -/
theorem append_split {α : Type} {a b pre post : List α} {e : α}
    (h : a ++ b = pre ++ e :: post) :
    (∃ post', a = pre ++ e :: post' ∧ post = post' ++ b) ∨
      ∃ pre', b = pre' ++ e :: post ∧ pre = a ++ pre' := by
  -- The element falls in the first list or in the second.
  rcases List.append_eq_append_iff.mp h with ⟨mid, hpre, hright⟩ | ⟨mid, hleft, hmid⟩
  · exact Or.inr ⟨mid, hright, hpre⟩
  · rcases mid with _ | ⟨x, mid⟩
    · exact Or.inr ⟨[], hmid.symm, by rw [hleft, List.append_nil, List.append_nil]⟩
    · obtain ⟨rfl, hpost⟩ := List.cons.inj hmid
      exact Or.inl ⟨mid, hleft, hpost⟩

theorem AnswersQueued.append {a b : List (Event L)} (ha : AnswersQueued a)
    (hb : AnswersQueued b) : AnswersQueued (a ++ b) := by
  intro pre post bytes status hsplit
  rcases append_split hsplit with ⟨post', hleft, -⟩ | ⟨pre', hright, hpre⟩
  · exact ha pre post' bytes status hleft
  · rcases hb pre' post bytes status hright with ⟨before, σ, frame, apdu, hmid, hdecodes⟩
    exact ⟨a ++ before, σ, frame, apdu, by rw [hpre, hmid, List.append_assoc], hdecodes⟩

theorem answersQueued_of_noWrite {events : List (Event L)}
    (h : ∀ bytes status, .transport (.write bytes status) ∉ events) : AnswersQueued events := by
  intro pre post bytes status hsplit
  have hmem : .transport (.write bytes status) ∈ events := by
    rw [hsplit]
    exact List.mem_append_right pre List.mem_cons_self
  exact absurd hmem (h bytes status)

theorem answersQueued_of_noTransport {events : List (Event L)}
    (h : ∀ call, .transport call ∉ events) : AnswersQueued events :=
  answersQueued_of_noWrite fun _ _ => h _

theorem answersQueued_joins :
    Proc.Joins (fun (events : List (Event L)) (_ : Option ProfileStatus) => AnswersQueued events)
    where
  nil _ := answersQueued_of_noWrite fun _ _ h => absurd h List.not_mem_nil
  append ha hb := ha.append hb

/-- The next frame, whatever it costs, writes nothing. -/
theorem receiveDecodedFrame_answers :
    Proc.Logs (·.trace) (fun (events : List (Event L)) _ => AnswersQueued events)
      receiveDecodedFrame := by
  intro s
  rcases receiveDecodedFrame_readsOnly s with ⟨taken, -, htrace⟩
  refine ⟨_, htrace, answersQueued_of_noWrite fun bytes status hmem => ?_⟩
  rcases List.mem_map.mp hmem with ⟨e, -, he⟩
  cases he

/-- An RR, once the APDU it is for is in the queue. -/
theorem answersQueued_reply {σ : L.Session} {frame : L.Frame} {apdu : List UInt8}
    {reply : List (Event L)} (h : reply.length ≤ 1)
    (hdecodes : Decodes L frame.information (.ok apdu)) :
    AnswersQueued ([.receive σ frame .ok, .queue frame.information apdu] ++ reply) := by
  rcases reply with _ | ⟨answer, _ | ⟨more, rest⟩⟩
  · refine answersQueued_of_noWrite fun bytes status hmem => ?_
    simp only [List.append_nil, List.mem_cons, List.not_mem_nil, reduceCtorEq, or_self] at hmem
  · intro pre post bytes status hsplit
    -- Only the third of three events can be the write.
    rcases pre with _ | ⟨e1, _ | ⟨e2, _ | ⟨e3, pre⟩⟩⟩
    · cases (List.cons.inj hsplit).1
    · cases (List.cons.inj (List.cons.inj hsplit).2).1
    · obtain ⟨h1, hrest⟩ := List.cons.inj hsplit
      obtain ⟨h2, -⟩ := List.cons.inj hrest
      exact ⟨[], σ, frame, apdu, by rw [← h1, ← h2]; rfl, hdecodes⟩
    · have hlen := congrArg List.length hsplit
      simp only [List.length_append, List.length_cons, List.length_nil] at hlen
      omega
  · simp only [List.length_cons] at h
    omega

/-- An RR is one write at most. -/
theorem sendSessionReceiveReady_one (pollFinal : Bool) (s : State L) :
    ∃ reply, (sendSessionReceiveReady pollFinal s).2.trace = s.trace ++ reply ∧
      reply.length ≤ 1 ∧ ∀ e ∈ reply, e.isAside := by
  rcases sendSessionReceiveReady_cases pollFinal s with ⟨-, h⟩ | ⟨-, h⟩ <;> rw [h]
  · exact ⟨[], (List.append_nil _).symm, Nat.zero_le 1, fun _ he => absurd he List.not_mem_nil⟩
  · rw [writeFrameBytes_snd]
    refine ⟨_, rfl, Nat.le_refl 1, fun e he => ?_⟩
    rw [List.mem_singleton.mp he]
    exact trivial

/-- `DecodeFrameToPendingApdu` behind the reassembler. -/
theorem acceptCompleted_answers (completed : L.Frame) (hasCompleted : Bool) :
    Proc.Logs (·.trace) (fun (events : List (Event L)) _ => AnswersQueued events)
      (acceptCompleted completed hasCompleted) := by
  intro s
  rcases acceptCompleted_cases completed hasCompleted s with
    ⟨-, h⟩ | ⟨-, -, h⟩ | ⟨-, -, -, status, -, h⟩ | ⟨hok, -, -, apdu, hread, h⟩ <;> rw [h]
  · exact ⟨_, rfl, answersQueued_of_noTransport fun call hmem => by
      cases List.mem_singleton.mp hmem⟩
  · exact ⟨_, rfl, answersQueued_of_noTransport fun call hmem => by
      cases List.mem_singleton.mp hmem⟩
  · refine ⟨_, List.append_assoc _ _ _, answersQueued_of_noTransport fun call hmem => ?_⟩
    rcases List.mem_cons.mp hmem with hc | hmem
    · cases hc
    · cases List.mem_singleton.mp hmem
  · -- Only here is anything written, and the queue comes first.
    rcases sendSessionReceiveReady_one true
      (queueing completed.information apdu (judged completed s)) with ⟨reply, htrace, hone, -⟩
    have hqueued : (queueing completed.information apdu (judged completed s)).trace =
        s.trace ++ [.receive s.session completed .ok, .queue completed.information apdu] := by
      simp only [queueing, judged, hok, List.append_assoc, List.cons_append, List.nil_append]
    refine ⟨[.receive s.session completed .ok, .queue completed.information apdu] ++ reply,
      htrace.trans ?_, answersQueued_reply hone (decodes_of_read hread)⟩
    rw [hqueued, List.append_assoc]

/-- `DecodeFrameToPendingApdu`. -/
theorem decodeFrame_answers (frame : L.Frame) :
    Proc.Logs (·.trace) (fun (events : List (Event L)) _ => AnswersQueued events)
      (decodeFrameToPendingApdu frame) := by
  have hnil : ∀ {s s' : State L}, s'.trace = s.trace →
      ∃ events, s'.trace = s.trace ++ events ∧ AnswersQueued events := fun h =>
    ⟨[], h.trans (List.append_nil _).symm, answersQueued_joins.nil none⟩
  intro s
  by_cases huse : s.options.hdlcUseSession = true
  · rcases decodeFrame_cases frame huse with ⟨-, h⟩ | ⟨-, -, h⟩ | ⟨-, h⟩ <;> rw [h]
    · exact hnil rfl
    · exact hnil rfl
    · exact acceptCompleted_answers _ _
        (reassembling (L.pushFrame s.reassembler frame).2.2 s)
  · -- Without a session nothing is acknowledged at all.
    rcases decodeFrame_plain_cases frame huse with
      ⟨-, h⟩ | ⟨-, status, -, h⟩ | ⟨-, apdu, -, h⟩ <;> rw [h]
    · exact hnil rfl
    · exact ⟨_, rfl, answersQueued_of_noTransport fun call hmem => by
        cases List.mem_singleton.mp hmem⟩
    · exact ⟨_, rfl, answersQueued_of_noTransport fun call hmem => by
        cases List.mem_singleton.mp hmem⟩

/-- The loop in front of both overloads. -/
theorem awaitApdu_answers :
    Proc.Logs (·.trace) (fun (events : List (Event L)) _ => AnswersQueued events) awaitApdu :=
  awaitApdu_logs answersQueued_joins (fun h => h) receiveDecodedFrame_answers decodeFrame_answers

/-- The queue gains what is recorded as queued and loses nothing. -/
def Gains (s s' : State L) : Prop :=
  ∃ events, s'.trace = s.trace ++ events ∧ s'.pendingApdus = s.pendingApdus ++ queued events

theorem gains_of_none {s s' : State L} {events : List (Event L)}
    (ht : s'.trace = s.trace ++ events) (he : queued events = [])
    (hp : s'.pendingApdus = s.pendingApdus) : Gains s s' :=
  ⟨events, ht, by rw [hp, he, List.append_nil]⟩

theorem gains_of_aside {s s' : State L} (h : Aside s s') : Gains s s' := by
  rcases h.events with ⟨events, htrace, hall⟩
  exact gains_of_none htrace (queued_of_aside hall) h.apdus

theorem gains_intake : IntakePrimitives (Gains (L := L)) where
  refl s := gains_of_none (List.append_nil _).symm rfl rfl
  trans := by
    rintro a b c ⟨ev, ht, hp⟩ ⟨ev', ht', hp'⟩
    refine ⟨ev ++ ev', by rw [ht', ht, List.append_assoc], ?_⟩
    rw [hp', hp, List.append_assoc, queued_append]
  sessionReceive frame s := by
    rw [sessionReceive_snd]
    exact gains_of_none rfl rfl rfl
  writeFrameBytes bytes s := gains_of_aside (writeFrameBytes_aside bytes s)
  sleepBeforeRetry s := gains_of_aside (sleepBeforeRetry_aside s)
  receiveDecodedFrame s := gains_of_aside (receiveDecodedFrame_aside s)
  receiveReady _ s := by
    rw [sessionBuild_snd]
    exact gains_of_none (List.append_nil _).symm rfl rfl
  decodeComplete frame s := by
    -- Decoding a field that carries an APDU is the one step that queues.
    rcases hread : readInformation L s.options frame.information with status | apdu
    · rw [decodeComplete_of_error hread]
      exact gains_of_none rfl rfl rfl
    · rw [decodeComplete_of_ok hread]
      exact ⟨_, rfl, rfl⟩
  reassembler s r := gains_of_none (List.append_nil _).symm rfl rfl

/-- Building an RR is never a matter of more data. -/
def BuildsReplies (L : HdlcLib) : Prop :=
  ∀ σ pollFinal, mapHdlcStatus (L.buildReceiveReadyFrame σ pollFinal).1 ≠ .needMoreData

theorem sendSessionReceiveReady_apdus (pollFinal : Bool) (s : State L) :
    (sendSessionReceiveReady pollFinal s).2.pendingApdus = s.pendingApdus := by
  rcases sendSessionReceiveReady_cases pollFinal s with ⟨-, h⟩ | ⟨-, h⟩ <;> rw [h]
  rw [writeFrameBytes_snd]

/-- So writing one never sends the receive loop round again. -/
theorem sendSessionReceiveReady_ne (hreplies : BuildsReplies L) {pollFinal : Bool} {s s' : State L}
    {status : ProfileStatus} (h : sendSessionReceiveReady pollFinal s = (.fail status, s')) :
    status ≠ .needMoreData := by
  -- The status comes from the session or from the transport, and neither asks for more.
  rcases sendSessionReceiveReady_cases pollFinal s with ⟨-, hbuild⟩ | ⟨-, hwrite⟩
  · rw [hbuild] at h
    rw [← Outcome.fail.inj (Prod.mk.inj h).1]
    exact hreplies _ _
  · rw [hwrite] at h
    rw [check_fail h]
    exact mapTransportStatus_ne_needMoreData _

/-- What a step that begins with an empty queue may leave in it: an APDU at most,
    and none if it is about to go round again. -/
def LeavesRoom {α : Type} (again : Outcome ProfileStatus α) (x : Call L α) : Prop :=
  ∀ s, s.pendingApdus = [] →
    (x s).2.pendingApdus.length ≤ 1 ∧ ((x s).1 = again → (x s).2.pendingApdus = [])

theorem acceptCompleted_room (hreplies : BuildsReplies L) (completed : L.Frame)
    (hasCompleted : Bool) :
    LeavesRoom (.fail .needMoreData) (acceptCompleted completed hasCompleted) := by
  intro s hs
  have hjudged : (judged completed s).pendingApdus = [] := hs
  rcases acceptCompleted_cases completed hasCompleted s with
    ⟨-, h⟩ | ⟨-, -, h⟩ | ⟨-, -, -, status, -, h⟩ | ⟨-, -, -, apdu, -, h⟩ <;> rw [h]
  · exact ⟨hjudged ▸ Nat.zero_le 1, fun _ => hjudged⟩
  · exact ⟨hjudged ▸ Nat.zero_le 1, fun _ => hjudged⟩
  · have hrefused :
        (refusing completed.information status (judged completed s)).pendingApdus = [] := hs
    exact ⟨hrefused ▸ Nat.zero_le 1, fun _ => hrefused⟩
  · -- The queue holds the APDU now, and writing the RR leaves it there.
    have hqueued : (queueing completed.information apdu (judged completed s)).pendingApdus =
        [apdu] := by
      simp only [queueing, hjudged, List.nil_append]
    have hsame := sendSessionReceiveReady_apdus true
      (queueing completed.information apdu (judged completed s))
    refine ⟨by rw [hsame, hqueued]; exact Nat.le_refl 1, fun hagain => ?_⟩
    exact absurd rfl (sendSessionReceiveReady_ne hreplies (Prod.ext hagain rfl))

theorem decodeFrame_room (hreplies : BuildsReplies L) (frame : L.Frame) :
    LeavesRoom (.fail .needMoreData) (decodeFrameToPendingApdu frame) := by
  intro s hs
  -- A branch that leaves the queue alone leaves it empty.
  have hsame : ∀ {o : Outcome ProfileStatus Unit} {s' : State L}, s'.pendingApdus = s.pendingApdus →
      s'.pendingApdus.length ≤ 1 ∧ (o = .fail .needMoreData → s'.pendingApdus = []) := fun h =>
    ⟨by rw [h, hs]; exact Nat.zero_le 1, fun _ => h.trans hs⟩
  by_cases huse : s.options.hdlcUseSession = true
  · rcases decodeFrame_cases frame huse with ⟨-, h⟩ | ⟨-, -, h⟩ | ⟨-, h⟩ <;> rw [h]
    · exact hsame rfl
    · exact hsame rfl
    · exact acceptCompleted_room hreplies _ _
        (reassembling (L.pushFrame s.reassembler frame).2.2 s) hs
  · rcases decodeFrame_plain_cases frame huse with
      ⟨-, h⟩ | ⟨-, status, -, h⟩ | ⟨-, apdu, -, h⟩ <;> rw [h]
    · exact hsame rfl
    · exact hsame rfl
    -- The plain branch queues the one APDU of the frame and ends Ok.
    · have hqueued : (queueing frame.information apdu s).pendingApdus = [apdu] := by
        simp only [queueing, hs, List.nil_append]
      exact ⟨by rw [hqueued]; exact Nat.le_refl 1, fun h => by cases h⟩

/-- One turn of the receive loop that starts with an empty queue. -/
theorem receiveTurn_apdus (hreplies : BuildsReplies L) :
    LeavesRoom (.done false) (receiveTurn (L := L)) := by
  intro s hs
  have haside := receiveDecodedFrame_aside s
  rcases hr : receiveDecodedFrame s with ⟨frame | status | _, s1⟩ <;> rw [hr] at haside
  · rw [receiveTurn, Proc.bind_of_done _ hr]
    have h1 : s1.pendingApdus = [] := haside.apdus.trans hs
    rcases decodeFrame_room hreplies frame s1 h1 with ⟨hlen, hagain⟩
    refine ⟨by rw [handleFrame_snd]; exact hlen, ?_⟩
    rcases hd : decodeFrameToPendingApdu frame s1 with ⟨⟨⟩ | status | _, s2⟩ <;> rw [hd] at hagain
    · -- The turn says itself whether the queue is still empty.
      rw [handleFrame_of_done hd]
      intro hdone
      simpa only [Outcome.done.injEq, Bool.not_eq_false', List.isEmpty_iff] using hdone
    · by_cases hne : status = .needMoreData
      · obtain rfl := hne
        rw [handleFrame_of_more hd]
        exact fun _ => hagain rfl
      · rw [handleFrame_of_fail hd hne]
        exact fun h => by cases h
    · rw [handleFrame_of_waiting hd]
      exact fun h => by cases h
  · rw [receiveTurn, Proc.bind_of_fail _ hr]
    have h1 : s1.pendingApdus = [] := haside.apdus.trans hs
    exact ⟨h1 ▸ Nat.zero_le 1, fun h => by cases h⟩
  · rw [receiveTurn, Proc.bind_of_waiting _ hr]
    have h1 : s1.pendingApdus = [] := haside.apdus.trans hs
    exact ⟨h1 ▸ Nat.zero_le 1, fun h => by cases h⟩

/-- A loop of turns that leave room leaves room. -/
theorem repeatUntil_room {size : State L → Nat} {body : Call L Bool}
    {hsize : ∀ s s', body s = (.done false, s') → size s' < size s}
    (hbody : LeavesRoom (.done false) body) {s : State L} (hs : s.pendingApdus = []) :
    (Proc.repeatUntil size body hsize s).2.pendingApdus.length ≤ 1 := by
  -- A turn that stops leaves at most one APDU; one that goes on leaves none.
  refine Proc.repeatUntil_induct
    (fun s _ s' => s.pendingApdus = [] → s'.pendingApdus.length ≤ 1) ?_ ?_ ?_ ?_ s hs
  · intro s s1 e hb hs
    have hroom := hbody s hs
    rw [hb] at hroom
    exact hroom.1
  · intro s s1 hb hs
    have hroom := hbody s hs
    rw [hb] at hroom
    exact hroom.1
  · intro s s1 hb hs
    have hroom := hbody s hs
    rw [hb] at hroom
    exact hroom.1
  · intro s s1 o s2 hb ih hs
    have hroom := hbody s hs
    rw [hb] at hroom
    exact ih (hroom.2 rfl)

/-- The loop in front of both overloads: what it recorded as queued is in the
    queue, every RR followed its APDU there, and there is one APDU at most. -/
theorem awaitApdu_handover (hreplies : BuildsReplies L) {s : State L}
    (hs : s.pendingApdus.length ≤ 1) :
    ∃ events, (awaitApdu s).2.trace = s.trace ++ events ∧ AnswersQueued events ∧
      (awaitApdu s).2.pendingApdus = s.pendingApdus ++ queued events ∧
      (awaitApdu s).2.pendingApdus.length ≤ 1 := by
  rcases awaitApdu_answers s with ⟨events, htrace, hanswers⟩
  rcases gains_intake.within_awaitApdu s with ⟨events', htrace', hgains⟩
  obtain rfl := List.append_cancel_left (htrace'.symm.trans htrace)
  refine ⟨events', htrace', hanswers, hgains, ?_⟩
  by_cases hp : s.pendingApdus = []
  -- The loop runs on an empty queue only, so it can add one APDU and no more.
  · have hturn : LeavesRoom (.done false) (pending.turn (receiveNextApdu (L := L))) := by
      intro s hs
      have hroom : (receiveNextApdu s).2.pendingApdus.length ≤ 1 :=
        repeatUntil_room (receiveTurn_apdus hreplies) hs
      have hsame := PendingQueue.turn_snd pending receiveNextApdu s
      refine ⟨hsame ▸ hroom, fun hagain => ?_⟩
      have hready := (PendingQueue.turn_done_iff.mp (Prod.ext hagain hsame)).2
      rw [Bool.not_eq_false', List.isEmpty_iff] at hready
      exact hsame ▸ hready
    rw [awaitApdu, PendingQueue.await_of_empty hp]
    exact repeatUntil_room hturn hp
  -- With an APDU waiting, nothing is read at all.
  · rw [awaitApdu, PendingQueue.await_of_pending hp]
    exact hs

/-- The queue is as it was and nothing was recorded as queued. -/
def SparesQueue (s s' : State L) : Prop :=
  s'.pendingApdus = s.pendingApdus ∧ ∃ events, s'.trace = s.trace ++ events ∧ queued events = []

theorem sparesQueue_of_aside {s s' : State L} (h : Aside s s') : SparesQueue s s' := by
  rcases h.events with ⟨events, htrace, hall⟩
  exact ⟨h.apdus, events, htrace, queued_of_aside hall⟩

theorem sparesQueue_of_same {s s' : State L} (ht : s'.trace = s.trace)
    (hp : s'.pendingApdus = s.pendingApdus) : SparesQueue s s' :=
  ⟨hp, [], ht.trans (List.append_nil _).symm, rfl⟩

/-- Sending and the link calls have nothing to do with the queue. -/
theorem sparesQueue_primitives : LinkPrimitives (SparesQueue (L := L)) where
  refl s := sparesQueue_of_same rfl rfl
  trans := by
    rintro a b c ⟨hp, ev, ht, he⟩ ⟨hp', ev', ht', he'⟩
    refine ⟨hp'.trans hp, ev ++ ev', by rw [ht', ht, List.append_assoc], ?_⟩
    rw [queued_append, he, he', List.append_nil]
  isOpen s := ⟨rfl, _, rfl, rfl⟩
  -- A new session leaves the APDUs queued before: the queue is not its own.
  ensureSession s := by
    simp only [ensureSession]
    split
    · exact sparesQueue_of_same rfl rfl
    split <;> exact sparesQueue_of_same rfl rfl
  sessionBuild build s := by
    rw [sessionBuild_snd]
    exact sparesQueue_of_same rfl rfl
  sessionReceive frame s := by
    rw [sessionReceive_snd]
    exact ⟨rfl, _, rfl, rfl⟩
  writeFrameBytes bytes s := sparesQueue_of_aside (writeFrameBytes_aside bytes s)
  sleepBeforeRetry s := sparesQueue_of_aside (sleepBeforeRetry_aside s)
  receiveDecodedFrame s := sparesQueue_of_aside (receiveDecodedFrame_aside s)
  emit before bytes s := ⟨rfl, _, rfl, rfl⟩
  limit s n := sparesQueue_of_same rfl rfl

/-- The APDU a call handed over. -/
def Result.delivered : Result → Option (List UInt8)
  | .received answer => answer.delivered
  | _ => none

theorem exec_sparesQueue {op : Operation} (hreceive : op.isReceive = false) (hclose : op ≠ .close)
    (s : State L) : SparesQueue s (exec op s).2 ∧ (exec op s).1.delivered = none := by
  -- Close is the one call outside ReceiveApdu that touches the queue.
  cases op with
  | «open» =>
      refine ⟨?_, rfl⟩
      rw [exec, openStream, check_snd]
      exact ⟨rfl, _, rfl, rfl⟩
  | close => exact absurd rfl hclose
  | isOpen => exact ⟨sparesQueue_primitives.isOpen s, rfl⟩
  | connectDataLink => exact ⟨sparesQueue_primitives.within_connectDataLink s, rfl⟩
  | acceptDataLink => exact ⟨sparesQueue_primitives.within_acceptDataLink s, rfl⟩
  | disconnectDataLink => exact ⟨sparesQueue_primitives.within_disconnectDataLink s, rfl⟩
  | send apdu => exact ⟨sparesQueue_primitives.within_sendApdu apdu s, rfl⟩
  | receive call => cases hreceive

/-- What can come of a receive call, told by the loop in front of it. -/
theorem receive_cases (call : ReceiveCall) (s : State L) :
    ((exec (.receive call) s).1.delivered = none ∧
        ((exec (.receive call) s).2 = s ∨ (exec (.receive call) s).2 = (awaitApdu s).2)) ∨
      ∃ s1, awaitApdu s = (.done (), s1) ∧ s1.pendingApdus ≠ [] ∧
        (exec (.receive call) s).1.delivered = some (s1.pendingApdus.headD []) ∧
        (exec (.receive call) s).2 = pending.pop s1 := by
  have hcases : (((channel L).call call s).1.delivered = none ∧
      (((channel L).call call s).2 = s ∨ ((channel L).call call s).2 = (awaitApdu s).2)) ∨
      ∃ s1, awaitApdu s = (.done (), s1) ∧
        ((channel L).call call s).1.delivered = some (s1.pendingApdus.headD []) ∧
        ((channel L).call call s).2 = pending.pop s1 :=
    PendingQueue.call_cases call s
  rcases hcases with hkept | ⟨s1, hw, hsome, hpop⟩
  · exact Or.inl hkept
  · exact Or.inr ⟨s1, hw, PendingQueue.await_pending hw, hsome, hpop⟩

/-- One call of any kind but `Close`: handed over and still queued is what was
    queued before and what this call queued. -/
theorem exec_delivers {op : Operation} (hclose : op ≠ .close) (s : State L) :
    ∃ events, (exec op s).2.trace = s.trace ++ events ∧
      (exec op s).1.delivered.toList ++ (exec op s).2.pendingApdus =
        s.pendingApdus ++ queued events := by
  cases hop : op.isReceive with
  | false =>
      rcases exec_sparesQueue hop hclose s with ⟨⟨hp, events, htrace, hnone⟩, hdelivered⟩
      refine ⟨events, htrace, ?_⟩
      rw [hp, hdelivered, hnone, List.append_nil]
      rfl
  | true =>
      cases op with
      | receive call =>
          rcases gains_intake.within_awaitApdu s with ⟨events, htrace, hqueue⟩
          rcases receive_cases call s with
            ⟨hnone, hafter | hafter⟩ | ⟨s1, hw, hne, hsome, hafter⟩
          · refine ⟨[], ?_, ?_⟩
            · rw [hafter, List.append_nil]
            · rw [hafter, hnone]
              exact (List.append_nil _).symm
          · refine ⟨events, by rw [hafter, htrace], ?_⟩
            rw [hafter, hnone, hqueue]
            rfl
          · -- The front of the queue is handed over.
            rw [hw] at htrace hqueue
            have htail : (pending.pop s1).pendingApdus = s1.pendingApdus.tail := rfl
            refine ⟨events, by rw [hafter]; exact htrace, ?_⟩
            rw [hafter, hsome, htail, ← hqueue]
            rcases hs1 : s1.pendingApdus with _ | ⟨apdu, rest⟩
            · exact absurd hs1 hne
            · rfl
      | _ => cases hop

/-- What a receive call owes to the peer: it acknowledges what it has queued, and
    it queues onto an empty queue only. -/
def Acknowledges (s : State L) (op : Operation) : Prop :=
  op.isReceive = true → ∃ events, (exec op s).2.trace = s.trace ++ events ∧
    AnswersQueued events ∧ s.pendingApdus.length + (queued events).length ≤ 1

/-- No call puts a second APDU in the queue. -/
theorem exec_acknowledges (hreplies : BuildsReplies L) {op : Operation} (hclose : op ≠ .close)
    {s : State L} (hs : s.pendingApdus.length ≤ 1) :
    Acknowledges s op ∧ (exec op s).2.pendingApdus.length ≤ 1 := by
  cases hop : op.isReceive with
  | false =>
      rcases exec_sparesQueue hop hclose s with ⟨⟨hp, -⟩, -⟩
      refine ⟨fun h => ?_, hp ▸ hs⟩
      rw [hop] at h
      cases h
  | true =>
      cases op with
      | receive call =>
          rcases awaitApdu_handover hreplies hs with ⟨events, htrace, hanswers, hqueue, hlen⟩
          have hroom : s.pendingApdus.length + (queued events).length ≤ 1 := by
            rw [← List.length_append, ← hqueue]
            exact hlen
          rcases receive_cases call s with ⟨-, hafter | hafter⟩ | ⟨s1, hw, -, -, hafter⟩
          · -- The buffer was refused, so the loop did not even run.
            refine ⟨fun _ => ⟨[], ?_, answersQueued_joins.nil none, hs⟩, by rw [hafter]; exact hs⟩
            rw [hafter, List.append_nil]
          · exact ⟨fun _ => ⟨events, by rw [hafter, htrace], hanswers, hroom⟩,
              by rw [hafter]; exact hlen⟩
          · rw [hw] at htrace hlen
            refine ⟨fun _ => ⟨events, by rw [hafter]; exact htrace, hanswers, hroom⟩, ?_⟩
            have htail : (pending.pop s1).pendingApdus = s1.pendingApdus.tail := rfl
            rw [hafter, htail, List.length_tail]
            exact (Nat.sub_le _ _).trans hlen
      | _ => cases hop

/-- What holds of every call of a run and the state it finds. -/
def AtEachCall (P : State L → Operation → Prop) : List Operation → State L → Prop
  | [], _ => True
  | op :: ops, s =>
    P s op ∧ ((exec op s).1.isWaiting = false → AtEachCall P ops (exec op s).2)

theorem delivered_cons (result : Result) (results : List Result) :
    (result :: results).filterMap Result.delivered =
      result.delivered.toList ++ results.filterMap Result.delivered := by
  cases h : result.delivered with
  | none => rw [List.filterMap_cons_none h, Option.toList, List.nil_append]
  | some apdu => rw [List.filterMap_cons_some h, Option.toList, List.singleton_append]

theorem run_of_waiting {op : Operation} {ops : List Operation} {s : State L}
    (h : (exec op s).1.isWaiting = true) :
    run (op :: ops) s = ([(exec op s).1], (exec op s).2) := by
  rw [run, if_pos h]

theorem run_of_returned {op : Operation} {ops : List Operation} {s : State L}
    (h : (exec op s).1.isWaiting = false) :
    run (op :: ops) s =
      ((exec op s).1 :: (run ops (exec op s).2).1, (run ops (exec op s).2).2) := by
  rw [run, h, if_neg Bool.false_ne_true]

/-- One call more, if all before it returned. -/
theorem run_snoc {ops : List Operation} {s : State L}
    (h : ∀ result ∈ (run ops s).1, result.isWaiting = false) (op : Operation) :
    run (ops ++ [op]) s =
      ((run ops s).1 ++ [(exec op (run ops s).2).1], (exec op (run ops s).2).2) := by
  -- No call of the run waits, so the last one is made.
  induction ops generalizing s with
  | nil =>
      change run [op] s = ([(exec op s).1], (exec op s).2)
      cases hw : (exec op s).1.isWaiting with
      | true => rw [run_of_waiting hw]
      | false => rw [run_of_returned hw, run]
  | cons first ops ih =>
      cases hw : (exec first s).1.isWaiting with
      | true =>
          rw [run_of_waiting hw] at h
          rw [h _ List.mem_cons_self] at hw
          cases hw
      | false =>
          rw [run_of_returned hw] at h ⊢
          rw [List.cons_append, run_of_returned hw,
            ih fun result hmem => h result (List.mem_cons_of_mem _ hmem)]
          rfl

/-- The same over a run. -/
theorem run_delivers {ops : List Operation} (hno : .close ∉ ops) (s : State L) :
    ∃ events, (run ops s).2.trace = s.trace ++ events ∧
      (run ops s).1.filterMap Result.delivered ++ (run ops s).2.pendingApdus =
        s.pendingApdus ++ queued events := by
  -- By induction on the calls; what one delivers leaves the front of the queue.
  induction ops generalizing s with
  | nil => exact ⟨[], (List.append_nil _).symm, (List.append_nil _).symm⟩
  | cons op ops ih =>
      have hclose : op ≠ .close := fun h => hno (h ▸ List.mem_cons_self)
      rcases exec_delivers hclose s with ⟨events, htrace, hqueue⟩
      cases hw : (exec op s).1.isWaiting with
      | true =>
          rw [run_of_waiting hw]
          refine ⟨events, htrace, ?_⟩
          rw [delivered_cons, List.filterMap_nil, List.append_nil]
          exact hqueue
      | false =>
          rcases ih (fun h => hno (List.mem_cons_of_mem op h)) (exec op s).2 with
            ⟨events', htrace', hqueue'⟩
          rw [run_of_returned hw]
          refine ⟨events ++ events', ?_, ?_⟩
          · rw [htrace', htrace, List.append_assoc]
          · rw [delivered_cons, List.append_assoc, hqueue', queued_append, ← List.append_assoc,
              hqueue, List.append_assoc]

theorem run_acknowledges (hreplies : BuildsReplies L) {ops : List Operation} (hno : .close ∉ ops)
    {s : State L} (hs : s.pendingApdus.length ≤ 1) :
    AtEachCall Acknowledges ops s ∧ (run ops s).2.pendingApdus.length ≤ 1 := by
  -- The invariant between calls is that at most one APDU is queued.
  induction ops generalizing s with
  | nil => exact ⟨trivial, hs⟩
  | cons op ops ih =>
      have hclose : op ≠ .close := fun h => hno (h ▸ List.mem_cons_self)
      rcases exec_acknowledges hreplies hclose hs with ⟨hack, hlen⟩
      rcases ih (fun h => hno (List.mem_cons_of_mem op h)) hlen with ⟨hrest, hlen'⟩
      cases hw : (exec op s).1.isWaiting with
      | true =>
          rw [run_of_waiting hw]
          refine ⟨⟨hack, fun h => ?_⟩, hlen⟩
          rw [hw] at h
          cases h
      | false =>
          rw [run_of_returned hw]
          exact ⟨⟨hack, fun _ => hrest⟩, hlen'⟩

/-- An APDU that was acknowledged is handed over once, in its turn. Over any run
    without `Close` a receive call acknowledges only what it has queued, and only
    onto an empty queue; handed over and still queued is, in order, what was
    queued; and what is still queued, one APDU at most, is what the next call
    with room for it hands over. -/
theorem handed_over_once (hreplies : BuildsReplies L) {options : ApduChannelOptions}
    {start : State L} {ops : List Operation} (hnew : start.toChannel = newChannel L options)
    (hno : .close ∉ ops) :
    AtEachCall Acknowledges ops start ∧ (run ops start).2.pendingApdus.length ≤ 1 ∧
      (∃ events, (run ops start).2.trace = start.trace ++ events ∧
        (run ops start).1.filterMap Result.delivered ++ (run ops start).2.pendingApdus =
          queued events) ∧
      ∀ apdu rest, (run ops start).2.pendingApdus = apdu :: rest →
        ∀ r : ReceiveCall, (∀ room, r = .into room →
            isValidMutableBuffer room = true ∧ apdu.length ≤ room.size) →
          ((channel L).call r (run ops start).2).1.delivered = some apdu := by
  have hempty : start.pendingApdus = [] := by
    have hpending : start.toChannel.pendingApdus = (newChannel L options).pendingApdus :=
      congrArg (·.pendingApdus) hnew
    exact hpending
  have hstart : start.pendingApdus.length ≤ 1 := by
    rw [hempty]
    exact Nat.zero_le 1
  rcases run_acknowledges hreplies hno hstart with ⟨hack, hlen⟩
  rcases run_delivers hno start with ⟨events, htrace, hqueue⟩
  rw [hempty, List.nil_append] at hqueue
  refine ⟨hack, hlen, ⟨events, htrace, hqueue⟩, fun apdu rest hp r hroom => ?_⟩
  have hne : (run ops start).2.pendingApdus ≠ [] := by
    rw [hp]
    exact List.cons_ne_nil apdu rest
  have hhead : (run ops start).2.pendingApdus.headD [] = apdu := by
    rw [hp]
    rfl
  -- A queue that is not empty ends the wait at once, so the call only needs the room.
  have hready : awaitApdu (run ops start).2 = (.done (), (run ops start).2) :=
    PendingQueue.await_of_pending hne
  have hcall : ((channel L).call r (run ops start).2).1.delivered =
      some ((run ops start).2.pendingApdus.headD []) := by
    refine PendingQueue.call_of_pending hready r fun room h => ?_
    have hfits := hroom room h
    rw [← hhead] at hfits
    exact hfits
  rw [hcall, hhead]

/-- The write of the RR fails after the APDU was queued, then a buffer is too
    small, and the call after that has it. -/
theorem handed_over_once_late :
    let start := { Reference.hdlcChannel Reference.sessionOptions
      [Reference.arrived (Reference.toClient Reference.ua []),
        Reference.arrived (Reference.toClient 0x10 [0xE6, 0xE7, 0x00, 0xC4])] with
      writes := [.ok, .writeFailed] }
    let ops : List Operation :=
      [.connectDataLink, .receive .vector, .receive (.into ⟨.of [], some 0⟩), .receive .vector]
    AtEachCall Acknowledges ops start ∧ (run ops start).2.pendingApdus.length ≤ 1 ∧
      (∃ events, (run ops start).2.trace = start.trace ++ events ∧
        (run ops start).1.filterMap Result.delivered ++ (run ops start).2.pendingApdus =
          queued events) ∧
      ∀ apdu rest, (run ops start).2.pendingApdus = apdu :: rest →
        ∀ r : ReceiveCall, (∀ room, r = .into room →
            isValidMutableBuffer room = true ∧ apdu.length ≤ room.size) →
          ((channel Reference.hdlcLib).call r (run ops start).2).1.delivered = some apdu :=
  have hnew : (Reference.hdlcChannel Reference.sessionOptions
      [Reference.arrived (Reference.toClient Reference.ua []),
        Reference.arrived (Reference.toClient 0x10 [0xE6, 0xE7, 0x00, 0xC4])]).toChannel =
      newChannel Reference.hdlcLib Reference.sessionOptions := rfl
  have hreplies : BuildsReplies Reference.hdlcLib := Reference.buildReceiveReady_ne
  handed_over_once hreplies hnew (by
    simp only [List.mem_cons, List.not_mem_nil, reduceCtorEq, or_self, not_false_eq_true])

end Hdlc

end DlmsProfile
