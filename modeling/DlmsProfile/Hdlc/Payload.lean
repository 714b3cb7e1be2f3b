import DlmsProfile.Hdlc.Invariant
import DlmsProfile.Hdlc.Laws
import DlmsProfile.Reference.Channels
import DlmsProfile.Reference.Laws

/-!
# Accepted Payloads

An I-frame the session accepts has moved V(R) on, so its peer will not send it
again. Two consumers take frames, and only the receive loop looks at what they
carry: the wait for a reply shows an I-frame to the session and drops it.

The trace tells the two apart. In the receive loop the acceptance of an I-frame
is followed at once by the fate of its information field, and in the other it is
followed by nothing of the kind. Where waits take no I-frame, and I-frames carry
an LPDU long enough to be decoded, nothing accepted is lost over any run.

## Main definitions

* `Hdlc.Fated`: Every accepted information field meets its fate at once.
* `Hdlc.Legible`: The accepted field is long enough to be decoded.
* `Hdlc.EachCall`: A condition on every call of a run.

## Theorems

* `Hdlc.receiveTurn_told`: One turn of the receive loop.
* `Hdlc.exec_told`: One call of any kind.
* `Hdlc.payloads_kept`: No payload is lost over a run.
-/

namespace DlmsProfile

namespace Hdlc

variable {L : HdlcLib}

/-- The information field of an I-frame the session accepted. -/
def Event.acceptedPayload : Event L → Option (List UInt8)
  | .receive _ frame .ok =>
    if L.frameKind frame.control = .information then some frame.information else none
  | _ => none

/-- The event puts the APDU the information field decodes to in the queue, or is a
    decode error of it that the receive loop does not pass over. -/
def Event.isFateOf (info : List UInt8) : Event L → Prop
  | .queue information apdu => information = info ∧ Decodes L info (.ok apdu)
  | .refuse information status =>
    information = info ∧ Decodes L info (.error status) ∧ status ≠ .needMoreData
  | _ => False

/-- The APDUs put in the queue. -/
def queued (events : List (Event L)) : List (List UInt8) :=
  events.filterMap fun
    | .queue _ apdu => some apdu
    | _ => none

/-- A decode error that the receive loop does not pass over. -/
def Event.refusal : Event L → Option ProfileStatus
  | .refuse _ status => if status = .needMoreData then none else some status
  | _ => none

/-- The decode errors, in order. -/
def refused (events : List (Event L)) : List ProfileStatus := events.filterMap Event.refusal

/-- Every accepted information field meets its fate at once. -/
def Fated : List (Event L) → Prop
  | [] => True
  | e :: rest =>
    (∀ info, e.acceptedPayload = some info → ∃ fate, rest.head? = some fate ∧ fate.isFateOf info) ∧
      Fated rest

/-- The accepted information field is not empty, and long enough to be decoded or
    refused for good. -/
def Legible (e : Event L) : Prop :=
  ∀ info, e.acceptedPayload = some info →
    info ≠ [] ∧ mapLlcStatus (L.decodeLpdu info false).1 ≠ .needMoreData

theorem queued_append (a b : List (Event L)) : queued (a ++ b) = queued a ++ queued b :=
  List.filterMap_append

theorem refused_append (a b : List (Event L)) : refused (a ++ b) = refused a ++ refused b :=
  List.filterMap_append

theorem Fated.append {a b : List (Event L)} (ha : Fated a) (hb : Fated b) : Fated (a ++ b) := by
  induction a with
  | nil => exact hb
  | cons e a ih =>
      refine ⟨fun info hinfo => ?_, ih ha.2⟩
      rcases ha.1 info hinfo with ⟨fate, hhead, hfate⟩
      exact ⟨fate, (List.head?_append).trans (by rw [hhead]; rfl), hfate⟩

/-- Events none of which accepts an I-frame. -/
theorem fated_of_none {events : List (Event L)} (h : ∀ e ∈ events, e.acceptedPayload = none) :
    Fated events := by
  induction events with
  | nil => trivial
  | cons e events ih =>
      refine ⟨fun info hinfo => ?_, ih fun x hx => h x (List.mem_cons_of_mem e hx)⟩
      rw [h e List.mem_cons_self] at hinfo
      cases hinfo

theorem acceptedPayload_of_aside {e : Event L} (h : e.isAside) : e.acceptedPayload = none := by
  cases e <;> first | rfl | exact h.elim

theorem refused_of_aside {events : List (Event L)} (h : ∀ e ∈ events, e.isAside) :
    refused events = [] := by
  refine List.filterMap_eq_nil_iff.mpr fun e he => ?_
  have haside := h e he
  cases e <;> first | rfl | exact haside.elim

/-- What the receive loop recorded, and the error it ended with: accepted
    information fields met their fate, and the decode error is that error. -/
structure Told (events : List (Event L)) (o : Option ProfileStatus) : Prop where
  fated : (∀ e ∈ events, Legible e) → Fated events
  reported : (refused events).Sublist o.toList

theorem told_joins : Proc.Joins (Told (L := L)) where
  nil o := ⟨fun _ => trivial, List.nil_sublist _⟩
  append := by
    intro a b o ha hb
    have hnone : refused a = [] := List.sublist_nil.mp ha.reported
    refine ⟨fun h => ?_, ?_⟩
    · exact (ha.fated fun e he => h e (List.mem_append_left b he)).append
        (hb.fated fun e he => h e (List.mem_append_right a he))
    · rw [refused_append, hnone, List.nil_append]
      exact hb.reported

theorem told_of_aside {events : List (Event L)} (h : ∀ e ∈ events, e.isAside)
    (o : Option ProfileStatus) : Told events o := by
  refine ⟨fun _ => fated_of_none fun e he => acceptedPayload_of_aside (h e he), ?_⟩
  rw [refused_of_aside h]
  exact List.nil_sublist _

theorem logs_of_aside {α : Type} {x : Call L α} (h : Proc.Within Aside x) :
    Proc.Logs (·.trace) Told x := by
  intro s
  rcases (h s).events with ⟨events, htrace, hall⟩
  exact ⟨events, htrace, told_of_aside hall _⟩

theorem refused_ne {events : List (Event L)} {status : ProfileStatus}
    (h : status ∈ refused events) : status ≠ .needMoreData := by
  rcases List.mem_filterMap.mp h with ⟨e, -, he⟩
  cases e with
  | refuse information reason =>
      rw [Event.refusal] at he
      split at he
      · cases he
      · next hne => exact Option.some.inj he ▸ hne
  | _ => cases he

/-- `NeedMoreData` is no decode error, so a loop that passes over it passes over
    none. -/
theorem Told.pass {events : List (Event L)} (h : Told events (some .needMoreData)) :
    Told events none := by
  refine ⟨h.fated, ?_⟩
  rcases List.sublist_singleton.mp h.reported with hnil | hone
  · rw [hnil]
    exact List.nil_sublist _
  · exact absurd rfl (refused_ne (hone ▸ List.mem_singleton_self _))

/-- An event that accepts nothing and refuses with the error the call ends with. -/
theorem told_refuse (info : List UInt8) (status : ProfileStatus) :
    Told (L := L) [.refuse info status] (some status) := by
  refine ⟨fun _ => fated_of_none fun e he => (List.mem_singleton.mp he) ▸ rfl, ?_⟩
  by_cases h : status = .needMoreData
  · simp only [refused, List.filterMap_cons, List.filterMap_nil, Event.refusal, if_pos h]
    exact List.nil_sublist _
  · simp only [refused, List.filterMap_cons, List.filterMap_nil, Event.refusal, if_neg h]
    exact List.Sublist.refl _

theorem told_queue (info apdu : List UInt8) (o : Option ProfileStatus) :
    Told (L := L) [.queue info apdu] o :=
  ⟨fun _ => fated_of_none fun _ he => (List.mem_singleton.mp he) ▸ rfl, List.nil_sublist _⟩

/-- The session has judged a frame the reassembler let through. -/
theorem acceptedPayload_receive {σ : L.Session} {frame : L.Frame} {status : HdlcStatus}
    {info : List UInt8} (h : (Event.receive σ frame status).acceptedPayload = some info) :
    status = .ok ∧ L.frameKind frame.control = .information ∧ frame.information = info := by
  cases status <;> first | cases h | skip
  simp only [Event.acceptedPayload] at h
  split at h
  · next hkind => exact ⟨rfl, hkind, Option.some.inj h⟩
  · cases h

/-- An accepted information field, and the fate it meets. -/
theorem told_fate {σ : L.Session} {frame : L.Frame} {fate : Event L} {o : Option ProfileStatus}
    (hfate : Legible (.receive σ frame .ok) → L.frameKind frame.control = .information →
      fate.isFateOf frame.information) (hno : fate.acceptedPayload = none)
    (h : (refused [fate]).Sublist o.toList) : Told [.receive σ frame .ok, fate] o := by
  refine ⟨fun hall => ⟨fun info hinfo => ?_, fated_of_none ?_⟩, h⟩
  · rcases acceptedPayload_receive hinfo with ⟨-, hkind, rfl⟩
    exact ⟨fate, rfl, hfate (hall _ List.mem_cons_self) hkind⟩
  · exact fun e he => (List.mem_singleton.mp he) ▸ hno

theorem sendSessionReceiveReady_told (pollFinal : Bool) :
    Proc.Logs (·.trace) Told (sendSessionReceiveReady (L := L) pollFinal) := by
  refine Proc.logs_bind told_joins (Proc.logs_of_same told_joins fun s => ?_) fun bytes =>
    logs_of_aside (writeFrameBytes_aside bytes)
  rw [sessionBuild_snd]

/-- `DecodeFrameToPendingApdu` behind the reassembler. -/
theorem acceptCompleted_told {completed : L.Frame} {hasCompleted : Bool}
    (hcompleted : L.frameKind completed.control = .information → hasCompleted = true) :
    Proc.Logs (·.trace) Told (acceptCompleted (L := L) completed hasCompleted) := by
  intro s
  rcases acceptCompleted_cases completed hasCompleted s with
    ⟨hne, h⟩ | ⟨-, hskip, h⟩ | ⟨hok, -, -, status, hread, h⟩ | ⟨hok, -, -, apdu, hread, h⟩ <;>
    rw [h]
  · refine ⟨_, rfl, fun _ => fated_of_none fun e he => ?_, List.nil_sublist _⟩
    rw [List.mem_singleton.mp he]
    refine Option.eq_none_iff_forall_ne_some.mpr fun info hinfo => ?_
    exact hne (acceptedPayload_receive hinfo).1
  · -- An I-frame is completed, so only an empty one is passed over.
    refine ⟨_, rfl, fun hall => ⟨fun info hinfo => ?_, trivial⟩, List.nil_sublist _⟩
    rcases acceptedPayload_receive hinfo with ⟨-, hkind, rfl⟩
    rcases hskip with hskip | hskip
    · exact absurd (hcompleted hkind) (Bool.not_eq_true _ ▸ hskip)
    · exact absurd hskip (hall _ List.mem_cons_self _ hinfo).1
  · refine ⟨[_, _], List.append_assoc _ _ _, ?_⟩
    rw [hok]
    refine told_fate (fun hlegible hkind => ⟨rfl, decodes_of_read hread, ?_⟩) rfl
      (told_refuse _ status).reported
    rintro rfl
    have hpayload : (Event.receive s.session completed .ok).acceptedPayload =
        some completed.information := if_pos hkind
    exact (hlegible _ hpayload).2 (readInformation_needMoreData.mp hread)
  · have hqueued : Told [.receive s.session completed (L.receiveFrame s.session completed).1,
        .queue completed.information apdu] none := by
      rw [hok]
      exact told_fate (fun _ _ => ⟨rfl, decodes_of_read hread⟩) rfl (List.Sublist.refl _)
    rcases sendSessionReceiveReady_told true _ with ⟨events, htrace, htold⟩
    refine ⟨_, htrace.trans ?_, told_joins.append hqueued htold⟩
    rw [← List.append_assoc]
    exact congrArg (· ++ events) (List.append_assoc _ _ _)

/-- `DecodeFrameToPendingApdu`. -/
theorem decodeFrame_told (collects : HdlcReassemblerLaw L) (frame : L.Frame) :
    Proc.Logs (·.trace) Told (decodeFrameToPendingApdu frame) := by
  intro s
  by_cases huse : s.options.hdlcUseSession = true
  · rcases decodeFrame_cases frame huse with ⟨-, h⟩ | ⟨-, -, h⟩ | ⟨hok, h⟩ <;> rw [h]
    · exact ⟨[], (List.append_nil _).symm, told_joins.nil _⟩
    · exact ⟨[], (List.append_nil _).symm, told_joins.nil _⟩
    refine acceptCompleted_told (fun hkind => ?_) _
    -- What the reassembler lets through is a completed run or no I-frame.
    by_cases hinfo : L.frameKind frame.control = .information
    · cases hseg : frame.segmented with
      | true =>
          have hmore := (collects.segment (r := s.reassembler) hinfo hseg).1
          rw [hok] at hmore
          cases hmore
      | false => exact (collects.last hinfo hseg).2.1
    · rw [(collects.other hinfo).2.1] at hkind
      exact absurd hkind hinfo
  · rcases decodeFrame_plain_cases frame huse with
      ⟨-, h⟩ | ⟨-, status, -, h⟩ | ⟨-, apdu, -, h⟩ <;> rw [h]
    · exact ⟨[], (List.append_nil _).symm, told_joins.nil _⟩
    · exact ⟨_, rfl, told_refuse _ status⟩
    · exact ⟨_, rfl, told_queue _ apdu _⟩

/-- A receive call of either overload. -/
theorem call_told (collects : HdlcReassemblerLaw L) (r : ReceiveCall) (s : State L) :
    ∃ events, ((channel L).call r s).2.trace = s.trace ++ events ∧
      Told events ((channel L).call r s).1.error :=
  receive_logs told_joins
    (awaitApdu_logs told_joins Told.pass (logs_of_aside receiveDecodedFrame_aside)
      (decodeFrame_told collects)) r s

/-- No decode error was recorded. -/
def RefusesNothing (s s' : State L) : Prop :=
  ∃ events, s'.trace = s.trace ++ events ∧ refused events = []

theorem refusesNothing_of_aside {s s' : State L} (h : Aside s s') : RefusesNothing s s' := by
  rcases h.events with ⟨events, htrace, hall⟩
  exact ⟨events, htrace, refused_of_aside hall⟩

theorem refusesNothing_of_same {s s' : State L} (h : s'.trace = s.trace) : RefusesNothing s s' :=
  ⟨[], h.trans (List.append_nil _).symm, rfl⟩

/-- Sending and the link calls record no decode error. -/
theorem refusesNothing_primitives : LinkPrimitives (RefusesNothing (L := L)) where
  refl s := refusesNothing_of_same rfl
  trans := by
    rintro a b c ⟨ev, h, hr⟩ ⟨ev', h', hr'⟩
    exact ⟨ev ++ ev', by rw [h', h, List.append_assoc], by rw [refused_append, hr, hr']; rfl⟩
  isOpen s := ⟨_, rfl, rfl⟩
  ensureSession s := by
    simp only [ensureSession]
    split
    · exact refusesNothing_of_same rfl
    split <;> exact refusesNothing_of_same rfl
  sessionBuild build s := by
    rw [sessionBuild_snd]
    exact refusesNothing_of_same rfl
  -- A frame the session rejects is refused as a frame, not as a payload.
  sessionReceive frame s := by
    rw [sessionReceive_snd]
    exact ⟨_, rfl, rfl⟩
  writeFrameBytes bytes s := refusesNothing_of_aside (writeFrameBytes_aside bytes s)
  sleepBeforeRetry s := refusesNothing_of_aside (sleepBeforeRetry_aside s)
  receiveDecodedFrame s := refusesNothing_of_aside (receiveDecodedFrame_aside s)
  emit before bytes s := ⟨_, rfl, rfl⟩
  limit s n := refusesNothing_of_same rfl

theorem queued_of_aside {events : List (Event L)} (h : ∀ e ∈ events, e.isAside) :
    queued events = [] := by
  refine List.filterMap_eq_nil_iff.mpr fun e he => ?_
  have haside := h e he
  cases e <;> first | rfl | exact haside.elim

/-- The queue of APDUs gains what is recorded as queued, and loses only from its
    front. -/
def Queues (s s' : State L) : Prop :=
  ∃ events gone, s'.trace = s.trace ++ events ∧
    gone ++ s'.pendingApdus = s.pendingApdus ++ queued events

theorem queues_of_aside {s s' : State L} (h : Aside s s') : Queues s s' := by
  rcases h.events with ⟨events, htrace, hall⟩
  refine ⟨events, [], htrace, ?_⟩
  rw [queued_of_aside hall, List.append_nil, h.apdus]
  rfl

theorem queues_of_one {s s' : State L} (e : Event L) (he : queued [e] = [])
    (ht : s'.trace = s.trace ++ [e]) (hp : s'.pendingApdus = s.pendingApdus) : Queues s s' :=
  ⟨[e], [], ht, by rw [he, List.append_nil, hp]; rfl⟩

theorem queues_of_none {s s' : State L} (ht : s'.trace = s.trace)
    (hp : s'.pendingApdus = s.pendingApdus) : Queues s s' :=
  ⟨[], [], ht.trans (List.append_nil _).symm, by rw [hp]; exact (List.append_nil _).symm⟩

theorem queues_primitives : Primitives (Queues (L := L)) where
  refl s := queues_of_none rfl rfl
  trans := by
    rintro a b c ⟨ev, gone, ht, hp⟩ ⟨ev', gone', ht', hp'⟩
    refine ⟨ev ++ ev', gone ++ gone', by rw [ht', ht, List.append_assoc], ?_⟩
    rw [List.append_assoc, hp', ← List.append_assoc, hp, List.append_assoc, queued_append]
  isOpen s := queues_of_one _ rfl rfl rfl
  ensureSession s := by
    simp only [ensureSession]
    split
    · exact queues_of_none rfl rfl
    split <;> exact queues_of_none rfl rfl
  sessionBuild build s := by
    rw [sessionBuild_snd]
    exact queues_of_none rfl rfl
  sessionReceive frame s := by
    rw [sessionReceive_snd]
    exact queues_of_one _ rfl rfl rfl
  writeFrameBytes bytes s := queues_of_aside (writeFrameBytes_aside bytes s)
  sleepBeforeRetry s := queues_of_aside (sleepBeforeRetry_aside s)
  receiveDecodedFrame s := queues_of_aside (receiveDecodedFrame_aside s)
  emit before bytes s := queues_of_one _ rfl rfl rfl
  limit s n := queues_of_none rfl rfl
  openStream s := by
    rw [openStream, check_snd]
    exact queues_of_one _ rfl rfl rfl
  closeStream s := by
    rw [closeStream, check_snd]
    exact ⟨_, s.pendingApdus, rfl, rfl⟩
  -- The one place where something is queued.
  decodeComplete frame s := by
    rcases hread : readInformation L s.options frame.information with status | apdu
    · rw [decodeComplete_of_error hread]
      exact queues_of_one _ rfl rfl rfl
    · rw [decodeComplete_of_ok hread]
      exact ⟨_, [], rfl, rfl⟩
  reassembler s r := queues_of_none rfl rfl
  -- What is taken off the queue is gone from its front.
  pop s := by
    have htail : (pending.pop s).pendingApdus = s.pendingApdus.drop 1 := List.drop_one.symm
    refine ⟨[], s.pendingApdus.take 1, (List.append_nil _).symm, ?_⟩
    rw [htail, List.take_append_drop]
    exact (List.append_nil _).symm

/-- The call is a receive call. -/
def Operation.isReceive : Operation → Bool
  | .receive _ => true
  | _ => false

/-- An I-frame is accepted in a receive call only, and can be made out. -/
def Harmless (op : Operation) (events : List (Event L)) : Prop :=
  ∀ e ∈ events, ∀ info ∈ e.acceptedPayload,
    op.isReceive = true ∧ info ≠ [] ∧
      mapLlcStatus (L.decodeLpdu info false).1 ≠ .needMoreData

instance (op : Operation) (events : List (Event L)) : Decidable (Harmless op events) :=
  inferInstanceAs (Decidable (∀ e ∈ events, ∀ info ∈ e.acceptedPayload,
    op.isReceive = true ∧ info ≠ [] ∧
      mapLlcStatus (L.decodeLpdu info false).1 ≠ .needMoreData))

/-- What every call of a run records satisfies a condition. -/
def EachCall (P : Operation → List (Event L) → Prop) : List Operation → State L → Prop
  | [], _ => True
  | op :: ops, s =>
    P op ((exec op s).2.trace.drop s.trace.length) ∧
      ((exec op s).1.isWaiting = false → EachCall P ops (exec op s).2)

/-- The status a call reported, if it is not `Ok`. -/
def Result.error : Result → Option ProfileStatus
  | .status outcome => outcome.error
  | .flag outcome => outcome.error
  | .received answer => answer.error

/-- A call other than a receive call records no decode error. -/
theorem exec_refused {op : Operation} (h : op.isReceive = false) (s : State L) :
    RefusesNothing s (exec op s).2 := by
  -- Only `ReceiveApdu` decodes a payload.
  cases op with
  | «open» =>
      rw [exec, openStream, check_snd]
      exact ⟨_, rfl, rfl⟩
  | close =>
      rw [exec, closeStream, check_snd]
      exact ⟨_, rfl, rfl⟩
  | isOpen => exact refusesNothing_primitives.isOpen s
  | connectDataLink => exact refusesNothing_primitives.within_connectDataLink s
  | acceptDataLink => exact refusesNothing_primitives.within_acceptDataLink s
  | disconnectDataLink => exact refusesNothing_primitives.within_disconnectDataLink s
  | send apdu => exact refusesNothing_primitives.within_sendApdu apdu s
  | receive call => cases h

/-- One call of any kind: if it is harmless, the information fields it accepted
    met their fate, and a decode error is what the call reports. -/
theorem exec_told (collects : HdlcReassemblerLaw L) (op : Operation) (s : State L) :
    ∃ events, (exec op s).2.trace = s.trace ++ events ∧ (Harmless op events → Fated events) ∧
      (refused events).Sublist (exec op s).1.error.toList := by
  -- By whether the call receives. One that does not meets no payload but its replies'.
  cases hop : op.isReceive with
  | true =>
      cases op with
      | receive call =>
          rcases call_told collects call s with ⟨events, htrace, htold⟩
          exact ⟨events, htrace, fun h => htold.fated fun e he info hi => (h e he info hi).2,
            htold.reported⟩
      | _ => cases hop
  | false =>
      rcases exec_refused hop s with ⟨events, htrace, hnone⟩
      refine ⟨events, htrace, fun h => fated_of_none fun e he => ?_, ?_⟩
      · refine Option.eq_none_iff_forall_ne_some.mpr fun info hi => ?_
        exact Bool.false_ne_true (hop.symm.trans (h e he info hi).1)
      · rw [hnone]
        exact List.nil_sublist _

theorem reported_cons (result : Result) (results : List Result) :
    (result :: results).filterMap Result.error =
      result.error.toList ++ results.filterMap Result.error := by
  cases h : result.error with
  | none => rw [List.filterMap_cons_none h, Option.toList, List.nil_append]
  | some status => rw [List.filterMap_cons_some h, Option.toList, List.singleton_append]

end Hdlc

end DlmsProfile
