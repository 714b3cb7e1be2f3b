import DlmsProfile.Hdlc.Handover
import DlmsProfile.Hdlc.Hearing
import DlmsProfile.Library.Runs

/-!
# What a Channel puts together

What a receive call queues is told by the I-frames it takes: the reassembler collects
segments, whatever their numbers, and the I-frame behind them completes the run. Whether
the session then accepts the whole is another matter. What is queued is the content of
such a run, connected or not.

The wait in `SendApdu` takes frames off the same stream and shows them to the session
alone. The reassembler never sees them, so to the runs they are as good as lost.

## Main definitions

* `Hdlc.informationFrames`: The I-frames among some frames.
* `Hdlc.takenBy`, `Hdlc.heardBy`: The frames one call takes, and the I-frames that come
  before the reassembler in a run.
* `Hdlc.PutsTogether`: What is queued is the content of completed runs.

## Theorems

* `Hdlc.decodeFrame_content`: What becomes of one frame.
* `Hdlc.exec_content`: What one call that sends or receives queues.
* `Hdlc.run_content`: What a run of them queues.
-/

namespace DlmsProfile

namespace Hdlc

variable {L : HdlcLib}

/-- The I-frames among some frames. -/
def informationFrames (L : HdlcLib) (frames : List L.Frame) : List L.Frame :=
  frames.filter fun frame => L.frameKind frame.control = .information

theorem informationFrames_append (a b : List L.Frame) :
    informationFrames L (a ++ b) = informationFrames L a ++ informationFrames L b :=
  List.filter_append a b

/-- The frames that were to come and are not any more. -/
def takenBy (s s' : State L) : List L.Frame :=
  (incoming s).take ((incoming s).length - (incoming s').length)

theorem takenBy_eq {s s' : State L} {frames : List L.Frame}
    (h : incoming s = frames ++ incoming s') : takenBy s s' = frames := by
  rw [takenBy, h, List.length_append, Nat.add_sub_cancel, List.take_left]

/-- A call that sends or receives. -/
def Operation.isTransfer : Operation → Bool
  | .send _ => true
  | .receive _ => true
  | _ => false

/-- The I-frames that the receive calls of a run take. -/
def heardBy (L : HdlcLib) : List Operation → State L → List L.Frame
  | [], _ => []
  | op :: ops, s =>
    (if op.isReceive then informationFrames L (takenBy s (exec op s).2) else []) ++
      if (exec op s).1.isWaiting then [] else heardBy L ops (exec op s).2

/-- The frames `heard` come before the reassembler between two states, and what is
    queued meanwhile is the content of runs they complete. -/
structure PutsTogether (collects : HdlcReassemblerLaw L) (heard : List L.Frame)
    (s s' : State L) : Prop where
  options : s'.options = s.options
  collected : collects.collected s'.reassembler =
    Runs.remainder (·.segmented) (collects.collected s.reassembler) heard
  content : ∃ events, s'.trace = s.trace ++ events ∧ ∀ apdu ∈ queued events,
    ∃ run ∈ Runs.completed (·.segmented) (collects.collected s.reassembler) heard,
      apdu = apduOf L (run.flatMap (·.information))

namespace PutsTogether

variable {collects : HdlcReassemblerLaw L} {heard heard' : List L.Frame} {s s1 s' : State L}

/-- Nothing came before the reassembler. -/
theorem of_none {events : List (Event L)} (ho : s'.options = s.options)
    (hr : s'.reassembler = s.reassembler) (htrace : s'.trace = s.trace ++ events)
    (hnone : queued events = []) : PutsTogether collects [] s s' :=
  ⟨ho, by rw [hr]; rfl, events, htrace, fun _ h => absurd (hnone ▸ h) List.not_mem_nil⟩

theorem of_aside (h : Aside s s') : PutsTogether collects [] s s' := by
  rcases h.events with ⟨events, htrace, hall⟩
  exact of_none h.options h.reassembler htrace (queued_of_aside hall)

theorem trans (h : PutsTogether collects heard s s1) (h' : PutsTogether collects heard' s1 s') :
    PutsTogether collects (heard ++ heard') s s' := by
  rcases h with ⟨ho, hr, events, htrace, hall⟩
  rcases h' with ⟨ho', hr', events', htrace', hall'⟩
  refine ⟨ho'.trans ho, ?_, events ++ events', ?_, fun apdu hmem => ?_⟩
  · rw [hr', hr, Runs.remainder_append]
  · rw [htrace', htrace, List.append_assoc]
  rw [queued_append] at hmem
  rw [Runs.completed_append, ← hr]
  -- An APDU was queued in the first part or in the second, from a run completed there.
  rcases List.mem_append.mp hmem with hmem | hmem
  · rcases hall apdu hmem with ⟨run, hrun, heq⟩
    exact ⟨run, List.mem_append_left _ hrun, heq⟩
  · rcases hall' apdu hmem with ⟨run, hrun, heq⟩
    exact ⟨run, List.mem_append_right _ hrun, heq⟩

end PutsTogether

/-- Behind the reassembler, the APDU of what was completed may be queued, and no other. -/
theorem acceptCompleted_content (completed : L.Frame) (hasCompleted : Bool) (s : State L) :
    ∃ events, (acceptCompleted completed hasCompleted s).2.trace = s.trace ++ events ∧
      ∀ apdu ∈ queued events, hasCompleted = true ∧ apdu = apduOf L completed.information := by
  -- Of the four ways to deal with a frame the last alone queues.
  rcases acceptCompleted_cases completed hasCompleted s with
    ⟨-, h⟩ | ⟨-, -, h⟩ | ⟨-, -, -, status, -, h⟩ | ⟨-, hwhole, -, apdu, hread, h⟩ <;> rw [h]
  · exact ⟨_, rfl, fun apdu hmem => absurd hmem List.not_mem_nil⟩
  · exact ⟨_, rfl, fun apdu hmem => absurd hmem List.not_mem_nil⟩
  · exact ⟨_, List.append_assoc _ _ _, fun apdu hmem => absurd hmem List.not_mem_nil⟩
  · rcases sendSessionReceiveReady_one true
      (queueing completed.information apdu (judged completed s)) with ⟨reply, htrace, -, haside⟩
    refine ⟨[.receive s.session completed (L.receiveFrame s.session completed).1,
      .queue completed.information apdu] ++ reply, ?_, fun other hmem => ⟨hwhole, ?_⟩⟩
    · rw [htrace]
      simp only [queueing, judged, List.append_assoc, List.cons_append, List.nil_append]
    · rw [queued_append, queued_of_aside haside, List.append_nil] at hmem
      rw [List.mem_singleton.mp hmem, apduOf_of_read hread]

/-- What becomes of one frame. -/
theorem decodeFrame_content (collects : HdlcReassemblerLaw L) (frame : L.Frame) {s : State L}
    (huse : s.options.hdlcUseSession = true) :
    PutsTogether collects (informationFrames L [frame]) s
      (decodeFrameToPendingApdu frame s).2 := by
  have ho := (decodeFrame_sameIntake frame s).options
  by_cases hkind : L.frameKind frame.control = .information
  swap
  · -- Anything but an I-frame passes, and is not reassembled.
    rcases collects.other (r := s.reassembler) hkind with ⟨hok, hpassed, hcollected⟩
    have hnone : informationFrames L [frame] = [] :=
      List.filter_eq_nil_iff.mpr fun f hf => by
        rw [List.mem_singleton.mp hf, decide_eq_true_eq]
        exact hkind
    have hafter := decodeFrame_of_ok huse hok
    rw [hnone, hafter]
    rw [hafter] at ho
    rcases acceptCompleted_content (L.pushFrame s.reassembler frame).2.1.1
      (L.pushFrame s.reassembler frame).2.1.2
      (reassembling (L.pushFrame s.reassembler frame).2.2 s) with ⟨events, htrace, hall⟩
    refine ⟨ho, ?_, events, htrace, fun apdu hmem => ?_⟩
    · rw [acceptCompleted_reassembler]
      exact hcollected
    · have hwhole := (hall apdu hmem).1
      rw [hpassed] at hwhole
      cases hwhole
  have hone : informationFrames L [frame] = [frame] :=
    List.filter_eq_self.mpr fun f hf => by
      rw [List.mem_singleton.mp hf, decide_eq_true_eq]
      exact hkind
  rw [hone]
  cases hseg : frame.segmented with
  | true =>
      rcases collects.segment (r := s.reassembler) hkind hseg with ⟨hmore, hcollected⟩
      rw [decodeFrame_of_more huse hmore]
      refine ⟨rfl, ?_, [], (List.append_nil _).symm, fun _ h => absurd h List.not_mem_nil⟩
      rw [Runs.remainder, if_pos hseg]
      exact hcollected
  | false =>
      rcases collects.last (r := s.reassembler) hkind hseg with ⟨hok, -, hinfo, -, hempty⟩
      have hends : ¬ frame.segmented = true := Bool.not_eq_true _ ▸ hseg
      have hafter := decodeFrame_of_ok huse hok
      rw [hafter] at ho ⊢
      rcases acceptCompleted_content (L.pushFrame s.reassembler frame).2.1.1
        (L.pushFrame s.reassembler frame).2.1.2
        (reassembling (L.pushFrame s.reassembler frame).2.2 s) with ⟨events, htrace, hall⟩
      refine ⟨ho, ?_, events, htrace, fun apdu hmem => ?_⟩
      · rw [acceptCompleted_reassembler, Runs.remainder, if_neg hends]
        exact hempty
      · refine ⟨collects.collected s.reassembler ++ [frame], ?_, ?_⟩
        · rw [Runs.completed, if_neg hends]
          exact List.mem_cons_self
        · rw [(hall apdu hmem).2, hinfo]

/-- What a step of a receive call takes comes before the reassembler. -/
def TakesContent (collects : HdlcReassemblerLaw L) (s s' : State L) : Prop :=
  s.options.hdlcUseSession = true → ∃ frames, incoming s = frames ++ incoming s' ∧
    PutsTogether collects (informationFrames L frames) s s'

section TakesContent

variable {collects : HdlcReassemblerLaw L}

theorem takesContent_refl (s : State L) : TakesContent collects s s :=
  fun _ => ⟨[], rfl, PutsTogether.of_aside (Aside.refl s)⟩

theorem takesContent_trans (a b c : State L) (h : TakesContent collects a b)
    (h' : TakesContent collects b c) : TakesContent collects a c := by
  intro huse
  rcases h huse with ⟨frames, hin, hputs⟩
  rcases h' (hputs.options ▸ huse) with ⟨frames', hin', hputs'⟩
  refine ⟨frames ++ frames', ?_, ?_⟩
  · rw [hin, hin', List.append_assoc]
  · rw [informationFrames_append]
    exact hputs.trans hputs'

/-- One turn of the receive loop. -/
theorem receiveTurn_content : Proc.Within (TakesContent collects) (receiveTurn (L := L)) := by
  intro s huse
  have haside := receiveDecodedFrame_aside s
  have hin := receiveDecodedFrame_incoming s
  -- By what the wait for a frame brings.
  rcases hr : receiveDecodedFrame s with ⟨frame | status | _, s1⟩ <;> rw [hr] at haside hin
  · rw [receiveTurn, Proc.bind_of_done _ hr, handleFrame_snd]
    have hputs := decodeFrame_content collects frame (haside.options ▸ huse)
    refine ⟨[frame], ?_, (PutsTogether.of_aside haside).trans hputs⟩
    rw [(decodeFrame_sameIntake frame s1).incoming]
    exact hin
  · rw [receiveTurn, Proc.bind_of_fail _ hr]
    exact ⟨[], hin, PutsTogether.of_aside haside⟩
  · rw [receiveTurn, Proc.bind_of_waiting _ hr]
    exact ⟨[], hin, PutsTogether.of_aside haside⟩

theorem receive_content (collects : HdlcReassemblerLaw L) (call : ReceiveCall) (s : State L) :
    TakesContent collects s (exec (.receive call) s).2 :=
  PendingQueue.within_call takesContent_refl takesContent_trans
    (PendingQueue.within_await takesContent_refl takesContent_trans
      (Proc.within_repeatUntil takesContent_trans receiveTurn_content))
    (fun _ _ => ⟨[], rfl, PutsTogether.of_none rfl rfl (List.append_nil _).symm rfl⟩) call s

end TakesContent

/-- Sending has nothing to do with the reassembler. -/
theorem sparesReassembler_primitives :
    SendPrimitives (fun s s' : State L => s'.reassembler = s.reassembler) where
  refl _ := rfl
  trans _ _ _ h h' := h'.trans h
  isOpen _ := rfl
  sessionBuild build s := by
    rw [sessionBuild_snd]
  sessionReceive frame s := by
    rw [sessionReceive_snd]
  writeFrameBytes bytes s := (writeFrameBytes_aside bytes s).reassembler
  sleepBeforeRetry s := (sleepBeforeRetry_aside s).reassembler
  receiveDecodedFrame s := (receiveDecodedFrame_aside s).reassembler
  emit _ _ _ := rfl
  limit _ _ := rfl

/-- What one call that sends or receives queues is put together from what a receive call
    takes. -/
theorem exec_content (collects : HdlcReassemblerLaw L) {op : Operation}
    (hop : op.isTransfer = true) {s : State L} (huse : s.options.hdlcUseSession = true) :
    PutsTogether collects
      (if op.isReceive then informationFrames L (takenBy s (exec op s).2) else []) s
      (exec op s).2 := by
  -- A `SendApdu` shows its frames to the session only, so none of them is heard.
  cases op with
  | send apdu =>
      rcases sparesQueue_primitives.within_sendApdu apdu s with ⟨-, events, htrace, hnone⟩
      exact PutsTogether.of_none (sameMake_primitives.within_sendApdu apdu s).1
        (sparesReassembler_primitives.within_sendApdu apdu s) htrace hnone
  | receive call =>
      rcases receive_content collects call s huse with ⟨frames, hin, hputs⟩
      rw [takenBy_eq hin]
      exact hputs
  | _ => cases hop

/-- What a run of them queues is put together from what its receive calls take. -/
theorem run_content (collects : HdlcReassemblerLaw L) {ops : List Operation}
    (hops : ∀ op ∈ ops, op.isTransfer = true) {s : State L}
    (huse : s.options.hdlcUseSession = true) :
    PutsTogether collects (heardBy L ops s) s (run ops s).2 := by
  -- On the calls, the collected segments being carried from one to the next.
  induction ops generalizing s with
  | nil => exact PutsTogether.of_aside (Aside.refl s)
  | cons op ops ih =>
      have hone := exec_content collects (hops op List.mem_cons_self) huse
      rw [heardBy]
      cases hw : (exec op s).1.isWaiting with
      | true =>
          rw [run_of_waiting hw, if_pos rfl, List.append_nil]
          exact hone
      | false =>
          rw [run_of_returned hw, if_neg Bool.false_ne_true]
          exact hone.trans (ih (fun op' h => hops op' (List.mem_cons_of_mem op h))
            (hone.options ▸ huse))

end Hdlc

end DlmsProfile
