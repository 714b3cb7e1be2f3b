import DlmsProfile.Hdlc.Handover

/-!
# What the Receive Loop Replies to

The receive loop shows the session every frame the reassembler lets through and
writes an RR for some of them. It does so for an I-frame whose payload it could
put in the queue, and at once. Anything else the session accepts is left at that:
an I-frame without a payload or with one that is refused, an RR, and the commands
of a peer that establishes or releases a link. What answers those is
`AcceptDataLink`.

## Main definitions

* `Hdlc.Carries`: What a payload has to be to be queued.
* `Hdlc.SilentUntilNext`: Nothing is written before the next frame is shown.
* `Hdlc.Quiet`, `Hdlc.Replied`: What the loop owes to the frames it takes.
* `Hdlc.ShownConnected`: Every frame was shown to a connected session.

## Theorems

* `Hdlc.acknowledged_payloads`: Which accepted I-frames are acknowledged.
* `Hdlc.commands_unanswered`: No command is answered.
-/

namespace DlmsProfile

namespace Hdlc

variable {L : HdlcLib}

/-- The information field carries an APDU the channel has room for. -/
def Carries (L : HdlcLib) (options : ApduChannelOptions) (information apdu : List UInt8) : Prop :=
  information ≠ [] ∧ readInformation L options information = .ok apdu

/-- Nothing is written before the next frame is shown to the session. -/
def SilentUntilNext (events : List (Event L)) : Prop :=
  ∀ pre bytes status post, events = pre ++ .transport (.write bytes status) :: post →
    ∃ σ frame judgement, .receive σ frame judgement ∈ pre

/-- Nothing is written for the accepted frames of a kind. -/
structure Quiet (kind : L.Frame → Prop) (events : List (Event L)) : Prop where
  silent : SilentUntilNext events
  after : ∀ pre σ frame post, events = pre ++ .receive σ frame .ok :: post → kind frame →
    SilentUntilNext post

theorem SilentUntilNext.append {a b : List (Event L)} (ha : SilentUntilNext a)
    (hb : SilentUntilNext b) : SilentUntilNext (a ++ b) := by
  intro pre bytes status post hsplit
  rcases append_split hsplit with ⟨post', hleft, -⟩ | ⟨pre', hright, rfl⟩
  · exact ha pre bytes status post' hleft
  · rcases hb pre' bytes status post hright with ⟨σ, frame, judgement, hmem⟩
    exact ⟨σ, frame, judgement, List.mem_append_right a hmem⟩

theorem silent_of_noWrite {events : List (Event L)}
    (h : ∀ bytes status, .transport (.write bytes status) ∉ events) : SilentUntilNext events := by
  intro pre bytes status post hsplit
  have hmem : .transport (.write bytes status) ∈ events := by
    rw [hsplit]
    exact List.mem_append_right pre List.mem_cons_self
  exact absurd hmem (h bytes status)

theorem quiet_joins (kind : L.Frame → Prop) :
    Proc.Joins (fun (events : List (Event L)) (_ : Option ProfileStatus) => Quiet kind events) where
  nil _ := ⟨silent_of_noWrite fun _ _ h => absurd h List.not_mem_nil, fun pre _ _ _ h => by
    cases (List.append_eq_nil_iff.mp h.symm).2⟩
  append := by
    intro a b o ha hb
    refine ⟨ha.silent.append hb.silent, fun pre σ frame post hsplit hkind => ?_⟩
    -- The acceptance is in the first part or in the second, and the other part is silent.
    rcases append_split hsplit with ⟨post', hleft, rfl⟩ | ⟨pre', hright, -⟩
    · exact (ha.after pre σ frame post' hleft hkind).append hb.silent
    · exact hb.after pre' σ frame post hright hkind

/-- Reads are quiet. -/
theorem quiet_of_reads {kind : L.Frame → Prop} {taken : List ReadEvent} :
    Quiet kind (taken.map fun e => .transport (.read e)) := by
  refine ⟨silent_of_noWrite fun bytes status hmem => ?_, fun pre σ frame _ hsplit => ?_⟩
  · rcases List.mem_map.mp hmem with ⟨e, -, he⟩
    cases he
  · have hmem : Event.receive σ frame .ok ∈ taken.map fun e => .transport (.read e) := by
      rw [hsplit]
      exact List.mem_append_right pre List.mem_cons_self
    rcases List.mem_map.mp hmem with ⟨e, -, he⟩
    cases he

/-- A frame was shown to the session, and nothing was written before the loop went
    on. -/
theorem quiet_of_head {kind : L.Frame → Prop} {σ : L.Session} {frame : L.Frame}
    {judgement : HdlcStatus} {rest : List (Event L)}
    (hrest : ∀ σ' frame' judgement', .receive σ' frame' judgement' ∉ rest)
    (hkind : judgement = .ok → kind frame →
      ∀ bytes status, .transport (.write bytes status) ∉ rest) :
    Quiet kind (.receive σ frame judgement :: rest) := by
  refine ⟨fun pre bytes status post hsplit => ?_, fun pre σ' frame' post hsplit hquiet => ?_⟩
  -- A write in the rest has the judgement at the head before it.
  · rcases pre with _ | ⟨e, pre⟩
    · cases (List.cons.inj hsplit).1
    · obtain ⟨rfl, -⟩ := List.cons.inj hsplit
      exact ⟨σ, frame, judgement, List.mem_cons_self⟩
  · rcases pre with _ | ⟨e, pre⟩
    · obtain ⟨he, rfl⟩ := List.cons.inj hsplit
      obtain ⟨-, rfl, rfl⟩ := Event.receive.inj he
      exact silent_of_noWrite (hkind rfl hquiet)
    · obtain ⟨-, rfl⟩ := List.cons.inj hsplit
      exact absurd (List.mem_append_right pre List.mem_cons_self) (hrest σ' frame' .ok)

/-- Nothing to do with frames or writes. -/
theorem quiet_of_none {kind : L.Frame → Prop} {events : List (Event L)}
    (hshown : ∀ σ frame judgement, .receive σ frame judgement ∉ events)
    (hwrite : ∀ bytes status, .transport (.write bytes status) ∉ events) : Quiet kind events :=
  ⟨silent_of_noWrite hwrite, fun pre σ frame _ hsplit _ => absurd
    (hsplit ▸ List.mem_append_right pre List.mem_cons_self) (hshown σ frame .ok)⟩

section Quiet

variable {options : ApduChannelOptions} {kind : L.Frame → Prop}

/-- `DecodeFrameToPendingApdu` behind the reassembler, for a kind of frame that
    brings no APDU. -/
theorem acceptCompleted_quiet {completed : L.Frame} {hasCompleted : Bool} {s : State L}
    (hs : s.options = options)
    (hkind : kind completed → hasCompleted = true →
      ∀ apdu, ¬ Carries L options completed.information apdu) :
    ∃ events, (acceptCompleted completed hasCompleted s).2.trace = s.trace ++ events ∧
      Quiet kind events := by
  rcases acceptCompleted_cases completed hasCompleted s with
    ⟨-, h⟩ | ⟨-, -, h⟩ | ⟨-, -, -, status, -, h⟩ |
      ⟨hok, hcompleted, hinfo, apdu, hread, h⟩ <;> rw [h]
  · exact ⟨_, rfl, quiet_of_head (fun _ _ _ => List.not_mem_nil) fun _ _ _ _ => List.not_mem_nil⟩
  · exact ⟨_, rfl, quiet_of_head (fun _ _ _ => List.not_mem_nil) fun _ _ _ _ => List.not_mem_nil⟩
  · refine ⟨_, List.append_assoc _ _ _, quiet_of_head (fun _ _ _ hmem => ?_) fun _ _ _ _ hmem => ?_⟩
    · cases List.mem_singleton.mp hmem
    · cases List.mem_singleton.mp hmem
  · -- The APDU is queued, so the frame is not of the kind.
    rw [hs] at hread
    rcases sendSessionReceiveReady_one true
      (queueing completed.information apdu (judged completed s)) with ⟨reply, htrace, -, hreply⟩
    have hqueued : (queueing completed.information apdu (judged completed s)).trace =
        s.trace ++ [.receive s.session completed .ok, .queue completed.information apdu] := by
      simp only [queueing, judged, hok, List.append_assoc, List.cons_append, List.nil_append]
    rw [hqueued, List.append_assoc] at htrace
    refine ⟨_, htrace, quiet_of_head (fun σ frame judgement hmem => ?_) fun _ hk => ?_⟩
    · rcases List.mem_cons.mp hmem with hc | hmem
      · cases hc
      · exact hreply _ hmem
    · exact absurd ⟨hinfo, hread⟩ (hkind hk hcompleted apdu)

/-- What the reassembler lets through is a completed run of I-frames, or the frame
    itself, which is none. -/
theorem pushed_completed (collects : HdlcReassemblerLaw L) {r : L.Reassembler} {frame : L.Frame}
    (hok : (L.pushFrame r frame).1 = .ok) :
    (L.frameKind frame.control = .information ∧ (L.pushFrame r frame).2.1.2 = true) ∨
      (L.frameKind frame.control ≠ .information ∧ (L.pushFrame r frame).2.1 = (frame, false)) := by
  by_cases hinfo : L.frameKind frame.control = .information
  · refine Or.inl ⟨hinfo, ?_⟩
    cases hseg : frame.segmented with
    -- A segment would have asked for more.
    | true =>
        have hmore := (collects.segment (r := r) hinfo hseg).1
        rw [hok] at hmore
        cases hmore
    | false => exact (collects.last (r := r) hinfo hseg).2.1
  · exact Or.inr ⟨hinfo, (collects.other hinfo).2.1⟩

/-- The reassembler has collected I-frames only, and the options are given. -/
structure Gathers (collects : HdlcReassemblerLaw L) (options : ApduChannelOptions)
    (s : State L) : Prop where
  options : s.options = options
  information : ∀ frame ∈ collects.collected s.reassembler, L.frameKind frame.control = .information

theorem gathers_of_same {collects : HdlcReassemblerLaw L} {s s' : State L}
    (hs : Gathers collects options s) (ho : s'.options = s.options)
    (hr : s'.reassembler = s.reassembler) : Gathers collects options s' :=
  ⟨ho.trans hs.options, hr ▸ hs.information⟩

theorem gathers_of_empty {collects : HdlcReassemblerLaw L} {s' : State L}
    (ho : s'.options = options) (hr : collects.collected s'.reassembler = []) :
    Gathers collects options s' :=
  ⟨ho, fun _ hmem => absurd (hr ▸ hmem) List.not_mem_nil⟩

/-- Of the frames the reassembler lets through, a completed one is an I-frame. -/
theorem completed_information {collects : HdlcReassemblerLaw L} {s : State L} {frame : L.Frame}
    (hs : Gathers collects options s) (hok : (L.pushFrame s.reassembler frame).1 = .ok)
    (hcompleted : (L.pushFrame s.reassembler frame).2.1.2 = true) :
    L.frameKind (L.pushFrame s.reassembler frame).2.1.1.control = .information ∧
      collects.collected (L.pushFrame s.reassembler frame).2.2 = [] := by
  by_cases hinfo : L.frameKind frame.control = .information
  swap
  · rw [(collects.other hinfo).2.1] at hcompleted
    cases hcompleted
  cases hseg : frame.segmented with
  | true =>
      have hmore := (collects.segment (r := s.reassembler) hinfo hseg).1
      rw [hok] at hmore
      cases hmore
  | false =>
      rcases collects.last (r := s.reassembler) hinfo hseg with ⟨-, -, -, hcontrol, hempty⟩
      refine ⟨?_, hempty⟩
      rcases hcontrol with h | h <;> rw [h]
      · exact hinfo
      · -- The run is under the control field of its first segment.
        rcases hc : collects.collected s.reassembler with _ | ⟨first, rest⟩
        · exact hinfo
        · exact hs.information first (hc ▸ List.mem_cons_self)

/-- A frame pushed leaves I-frames only behind. -/
theorem push_gathers {collects : HdlcReassemblerLaw L} {s : State L} (frame : L.Frame)
    (hs : Gathers collects options s) :
    Gathers collects options (reassembling (L.pushFrame s.reassembler frame).2.2 s) := by
  refine ⟨hs.options, fun other hmem => ?_⟩
  have hmem' : other ∈ collects.collected (L.pushFrame s.reassembler frame).2.2 := hmem
  -- Only information frames are collected; any other frame leaves the collection as it is.
  by_cases hinfo : L.frameKind frame.control = .information
  · cases hseg : frame.segmented with
    | true =>
        rw [(collects.segment hinfo hseg).2] at hmem'
        rcases List.mem_append.mp hmem' with h | h
        · exact hs.information other h
        · exact (List.mem_singleton.mp h) ▸ hinfo
    | false =>
        rw [(collects.last hinfo hseg).2.2.2.2] at hmem'
        exact absurd hmem' List.not_mem_nil
  · rw [(collects.other hinfo).2.2] at hmem'
    exact hs.information other hmem'

theorem acceptCompleted_reassembler (completed : L.Frame) (hasCompleted : Bool) :
    Proc.Within (fun s s' => s'.reassembler = s.reassembler)
      (acceptCompleted completed hasCompleted) := by
  -- The reply works on the session and the transport only.
  have hreply : Proc.Within (fun s s' : State L => s'.reassembler = s.reassembler)
      (sendSessionReceiveReady true) := by
    intro s
    rcases sendSessionReceiveReady_cases true s with ⟨-, h⟩ | ⟨-, h⟩ <;> rw [h]
    rw [writeFrameBytes_snd]
  intro s
  rcases acceptCompleted_cases completed hasCompleted s with
    ⟨-, h⟩ | ⟨-, -, h⟩ | ⟨-, -, -, status, -, h⟩ | ⟨-, -, -, apdu, -, h⟩ <;> rw [h]
  · rfl
  · rfl
  · rfl
  · exact hreply (queueing completed.information apdu (judged completed s))

/-- What becomes of a frame leaves I-frames only behind. -/
theorem decodeFrame_gathers {collects : HdlcReassemblerLaw L} {s : State L} (frame : L.Frame)
    (hs : Gathers collects options s) :
    Gathers collects options (decodeFrameToPendingApdu frame s).2 := by
  have ho := (decodeFrame_sameIntake frame s).options.trans hs.options
  by_cases huse : s.options.hdlcUseSession = true
  · rcases decodeFrame_cases frame huse with ⟨-, h⟩ | ⟨-, -, h⟩ | ⟨-, h⟩ <;> rw [h] at ho ⊢
    · exact push_gathers frame hs
    · exact gathers_of_empty ho (collects.reset _)
    · have hpushed := push_gathers frame hs
      exact gathers_of_same hpushed (ho.trans hpushed.options.symm)
        (acceptCompleted_reassembler _ _ (reassembling (L.pushFrame s.reassembler frame).2.2 s))
  · -- Without a session the reassembler is not used.
    rcases decodeFrame_plain_cases frame huse with
      ⟨-, h⟩ | ⟨-, status, -, h⟩ | ⟨-, apdu, -, h⟩ <;> rw [h]
    · exact hs
    · exact gathers_of_same hs rfl rfl
    · exact gathers_of_same hs rfl rfl

theorem gathers_of_aside {collects : HdlcReassemblerLaw L} {s s' : State L} (h : Aside s s')
    (hs : Gathers collects options s) : Gathers collects options s' :=
  gathers_of_same hs h.options h.reassembler

/-- What the receive loop records about frames of a kind that brings no APDU. -/
theorem awaitApdu_quiet {collects : HdlcReassemblerLaw L}
    (hkind : ∀ s frame, Gathers collects options s → (L.pushFrame s.reassembler frame).1 = .ok →
      kind (L.pushFrame s.reassembler frame).2.1.1 →
      (L.pushFrame s.reassembler frame).2.1.2 = true →
      ∀ apdu, ¬ Carries L options (L.pushFrame s.reassembler frame).2.1.1.information apdu) :
    Proc.LogsFrom (Gathers collects options) (·.trace) (fun events _ => Quiet kind events)
      awaitApdu := by
  refine awaitApdu_logsFrom (quiet_joins kind) (fun h => h) (fun s hs => ?_) fun frame s hs => ?_
  · rcases receiveDecodedFrame_readsOnly s with ⟨taken, -, htrace⟩
    exact ⟨gathers_of_aside (receiveDecodedFrame_aside s) hs, _, htrace, quiet_of_reads⟩
  refine ⟨decodeFrame_gathers frame hs, ?_⟩
  -- Without a session no frame is shown to one, so there is nothing to be silent after.
  by_cases huse : s.options.hdlcUseSession = true
  · rcases decodeFrame_cases frame huse with ⟨-, h⟩ | ⟨-, -, h⟩ | ⟨hok, h⟩ <;> rw [h]
    · exact ⟨[], (List.append_nil _).symm, (quiet_joins kind).nil none⟩
    · exact ⟨[], (List.append_nil _).symm, (quiet_joins kind).nil none⟩
    · exact acceptCompleted_quiet (push_gathers frame hs).options (hkind s frame hs hok)
  · rcases decodeFrame_plain_cases frame huse with
      ⟨-, h⟩ | ⟨-, status, -, h⟩ | ⟨-, apdu, -, h⟩ <;> rw [h]
    · exact ⟨[], (List.append_nil _).symm, (quiet_joins kind).nil none⟩
    · exact ⟨_, rfl, quiet_of_none (fun _ _ _ hmem => by cases List.mem_singleton.mp hmem)
        fun _ _ hmem => by cases List.mem_singleton.mp hmem⟩
    · exact ⟨_, rfl, quiet_of_none (fun _ _ _ hmem => by cases List.mem_singleton.mp hmem)
        fun _ _ hmem => by cases List.mem_singleton.mp hmem⟩

theorem gathers_primitives (collects : HdlcReassemblerLaw L) (options : ApduChannelOptions) :
    LinkPrimitives (fun s s' : State L => Gathers collects options s → Gathers collects options s')
    where
  refl _ h := h
  trans _ _ _ h h' hs := h' (h hs)
  isOpen _ hs := gathers_of_same hs rfl rfl
  ensureSession s hs := by
    simp only [ensureSession]
    split
    · exact hs
    split
    -- A new session comes with a new reassembler, which has collected nothing.
    · exact gathers_of_empty hs.options (collects.new _)
    · exact hs
  sessionBuild build s hs := by
    rw [sessionBuild_snd]
    exact gathers_of_same hs rfl rfl
  sessionReceive frame s hs := by
    rw [sessionReceive_snd]
    exact gathers_of_same hs rfl rfl
  writeFrameBytes bytes s := gathers_of_aside (writeFrameBytes_aside bytes s)
  sleepBeforeRetry s := gathers_of_aside (sleepBeforeRetry_aside s)
  receiveDecodedFrame s := gathers_of_aside (receiveDecodedFrame_aside s)
  emit _ _ _ hs := gathers_of_same hs rfl rfl
  limit _ _ hs := gathers_of_same hs rfl rfl

theorem exec_gathers {collects : HdlcReassemblerLaw L} {s : State L} (op : Operation)
    (hs : Gathers collects options s) : Gathers collects options (exec op s).2 := by
  cases op with
  | «open» =>
      rw [exec, openStream, check_snd]
      exact gathers_of_same hs rfl rfl
  -- Close resets the reassembler.
  | close =>
      rw [exec, closeStream, check_snd]
      exact gathers_of_empty hs.options (collects.reset _)
  | isOpen => exact (gathers_primitives collects options).isOpen s hs
  | connectDataLink => exact (gathers_primitives collects options).within_connectDataLink s hs
  | acceptDataLink => exact (gathers_primitives collects options).within_acceptDataLink s hs
  | disconnectDataLink => exact (gathers_primitives collects options).within_disconnectDataLink s hs
  | send apdu => exact (gathers_primitives collects options).within_sendApdu apdu s hs
  | receive call =>
      have hloop : Proc.LogsFrom (Gathers collects options) (·.trace)
          (fun events _ => Quiet (fun _ => False) events) awaitApdu :=
        awaitApdu_quiet fun _ _ _ _ hnone => absurd hnone not_false
      exact (receive_logsFrom (quiet_joins _) hloop (fun _ h => gathers_of_same h rfl rfl)
        call s hs).1

/-- The reassembler of a reachable channel has collected I-frames only. -/
theorem gathers_of_reachable (collects : HdlcReassemblerLaw L) {s : State L}
    (h : Reachable L options s) : Gathers collects options s := by
  refine h.preserves (fun start hnew => gathers_of_empty ?_ ?_) fun op _ => exec_gathers op
  · rw [hnew]
    rfl
  · rw [hnew]
    exact collects.new _

/-- No command is answered. For an unnumbered frame that a receive call takes and
    the session accepts nothing is written, neither before the next frame is
    shown to the session nor before the call ends. -/
theorem commands_unanswered (collects : HdlcReassemblerLaw L) {s : State L}
    (hs : Reachable L options s) (call : ReceiveCall) :
    ∃ events, (exec (.receive call) s).2.trace = s.trace ++ events ∧
      ∀ pre σ frame post, events = pre ++ .receive σ frame .ok :: post →
        L.frameKind frame.control = .unnumbered → SilentUntilNext post := by
  have hloop : Proc.LogsFrom (Gathers collects options) (·.trace)
      (fun events _ => Quiet (fun frame => L.frameKind frame.control = .unnumbered) events)
      awaitApdu := by
    refine awaitApdu_quiet fun s frame hs hok hkind hcompleted => ?_
    -- A frame that completes a field is an information frame, so no command does.
    rw [(completed_information hs hok hcompleted).1] at hkind
    cases hkind
  rcases (receive_logsFrom (quiet_joins _) hloop (fun _ h => gathers_of_same h rfl rfl) call s
    (gathers_of_reachable collects hs)).2 with ⟨events, htrace, hquiet⟩
  exact ⟨events, htrace, hquiet.after⟩

end Quiet

section Replied

variable {options : ApduChannelOptions} {law : HdlcSessionLaw L}

/-- The bytes of an RR with the given N(R). -/
def SpellsReceiveReady (wire : HdlcWireLaw L law) (next : Fin 8) (bytes : List UInt8) : Prop :=
  ∃ frame, wire.spells bytes frame ∧ L.frameKind frame.control = .supervisory ∧
    law.receiveSequence frame.control = next

/-- If an I-frame that a connected session accepts carries an APDU, the queueing and an RR
    with the new V(R) come next. If that RR cannot be written, nothing follows and its
    status is the result. -/
def Replied (wire : HdlcWireLaw L law) (options : ApduChannelOptions) (events : List (Event L))
    (o : Option ProfileStatus) : Prop :=
  ∀ pre σ frame post, events = pre ++ .receive σ frame .ok :: post →
    L.frameKind frame.control = .information → L.Connected σ →
      (L.receiveFrame σ frame).1 = .ok ∧
        ∀ apdu, Carries L options frame.information apdu →
          ∃ bytes status rest,
            post = .queue frame.information apdu :: .transport (.write bytes status) :: rest ∧
              SpellsReceiveReady wire (law.vr (L.receiveFrame σ frame).2) bytes ∧
              (status ≠ .ok → rest = [] ∧ o = some (mapTransportStatus status))

theorem replied_of_none {wire : HdlcWireLaw L law} {events : List (Event L)}
    {o : Option ProfileStatus} (h : ∀ σ frame, .receive σ frame .ok ∉ events) :
    Replied wire options events o := by
  intro pre σ frame post hsplit
  exact absurd (hsplit ▸ List.mem_append_right pre List.mem_cons_self) (h σ frame)

theorem replied_joins (wire : HdlcWireLaw L law) : Proc.Joins (Replied wire options) where
  nil _ := replied_of_none fun _ _ => List.not_mem_nil
  append := by
    intro a b o ha hb pre σ frame post hsplit hkind hσ
    rcases append_split hsplit with ⟨post', hleft, rfl⟩ | ⟨pre', hright, -⟩
    · rcases ha pre σ frame post' hleft hkind hσ with ⟨hok, hreply⟩
      refine ⟨hok, fun apdu hcarries => ?_⟩
      rcases hreply apdu hcarries with ⟨bytes, status, rest, rfl, hbytes, hlast⟩
      -- The first part did not end with an error, so its RRs were written.
      refine ⟨bytes, status, rest ++ b, rfl, hbytes, fun hne => ?_⟩
      cases (hlast hne).2
    · exact hb pre' σ frame post hright hkind hσ

theorem Replied.pass {wire : HdlcWireLaw L law} {events : List (Event L)}
    (h : Replied wire options events (some .needMoreData)) : Replied wire options events none := by
  intro pre σ frame post hsplit hkind hσ
  rcases h pre σ frame post hsplit hkind hσ with ⟨hok, hreply⟩
  refine ⟨hok, fun apdu hcarries => ?_⟩
  rcases hreply apdu hcarries with ⟨bytes, status, rest, hpost, hbytes, hlast⟩
  refine ⟨bytes, status, rest, hpost, hbytes, fun hne => ?_⟩
  exact absurd (Option.some.inj (hlast hne).2).symm (mapTransportStatus_ne_needMoreData status)

/-- One frame, told by what follows it. -/
theorem replied_of_head {wire : HdlcWireLaw L law} {σ : L.Session} {frame : L.Frame}
    {judgement : HdlcStatus} {rest : List (Event L)} {o : Option ProfileStatus}
    (hrest : ∀ σ' frame' judgement', .receive σ' frame' judgement' ∉ rest)
    (h : judgement = .ok → L.frameKind frame.control = .information → L.Connected σ →
      (L.receiveFrame σ frame).1 = .ok ∧
        ∀ apdu, Carries L options frame.information apdu →
          ∃ bytes status rest',
            rest = .queue frame.information apdu :: .transport (.write bytes status) :: rest' ∧
              SpellsReceiveReady wire (law.vr (L.receiveFrame σ frame).2) bytes ∧
              (status ≠ .ok → rest' = [] ∧ o = some (mapTransportStatus status))) :
    Replied wire options (.receive σ frame judgement :: rest) o := by
  intro pre σ' frame' post hsplit hkind hσ
  -- The only judgement is the head, so it is the one in question.
  rcases pre with _ | ⟨e, pre⟩
  · obtain ⟨he, rfl⟩ := List.cons.inj hsplit
    obtain ⟨rfl, rfl, hjudgement⟩ := Event.receive.inj he
    exact h hjudgement hkind hσ
  · obtain ⟨-, rfl⟩ := List.cons.inj hsplit
    exact absurd (List.mem_append_right pre List.mem_cons_self) (hrest σ' frame' .ok)

/-- The RR of a connected session. -/
theorem sendSessionReceiveReady_connected (wire : HdlcWireLaw L law) {s : State L}
    (hσ : L.Connected s.session) :
    ∃ bytes status,
      (sendSessionReceiveReady true s).2.trace = s.trace ++ [.transport (.write bytes status)] ∧
        SpellsReceiveReady wire (law.vr s.session) bytes ∧
        (status ≠ .ok →
          (sendSessionReceiveReady true s).1.error = some (mapTransportStatus status)) ∧
        L.Connected (sendSessionReceiveReady true s).2.session := by
  -- A connected session always builds the RR; only the write can fail.
  rcases law.receiveReady true hσ with ⟨hok, hσ', -⟩
  rw [sendSessionReceiveReady_of_built hok, writeFrameBytes]
  refine ⟨(L.buildReceiveReadyFrame s.session true).2.1, s.writes.headD .ok, ?_,
    wire.receiveReady true hσ, fun hne => ?_, ?_⟩
  · rw [check_snd]
  · rw [check_of_ne fun hc => hne (mapTransportStatus_eq_ok.mp hc)]
    rfl
  · rw [check_snd]
    exact hσ'

theorem queueing_judged_trace (completed : L.Frame) (apdu : List UInt8) (s : State L) :
    (queueing completed.information apdu (judged completed s)).trace = s.trace ++
      [.receive s.session completed (L.receiveFrame s.session completed).1,
        .queue completed.information apdu] := List.append_assoc _ _ _

/-- `DecodeFrameToPendingApdu` behind the reassembler. -/
theorem acceptCompleted_replied (wire : HdlcWireLaw L law) {completed : L.Frame}
    {hasCompleted : Bool} {s : State L} (hs : s.options = options)
    (hcompleted : L.frameKind completed.control = .information → hasCompleted = true) :
    ∃ events, (acceptCompleted completed hasCompleted s).2.trace = s.trace ++ events ∧
      Replied wire options events (acceptCompleted completed hasCompleted s).1.error := by
  have hnone : ∀ (σ' : L.Session) (frame' : L.Frame) (judgement' : HdlcStatus),
    .receive σ' frame' judgement' ∉ ([] : List (Event L)) := fun _ _ _ => List.not_mem_nil
  rcases acceptCompleted_cases completed hasCompleted s with
    ⟨hne, h⟩ | ⟨hok, hempty, h⟩ | ⟨hok, -, -, status, hread, h⟩ | ⟨hok, -, -, apdu, hread, h⟩ <;>
    rw [h]
  · exact ⟨_, rfl, replied_of_head hnone fun hc => absurd hc hne⟩
  · refine ⟨_, rfl, replied_of_head hnone fun _ hkind _ => ⟨hok, ?_⟩⟩
    -- An I-frame is completed, so only an empty one is passed over.
    rintro apdu ⟨hinfo, -⟩
    rcases hempty with hnot | hempty
    · rw [hcompleted hkind] at hnot
      cases hnot
    · exact absurd hempty hinfo
  · rw [hs] at hread
    refine ⟨_, List.append_assoc _ _ _, replied_of_head ?_ fun _ _ _ => ⟨hok, ?_⟩⟩
    · exact fun _ _ _ hmem => by cases List.mem_singleton.mp hmem
    · rintro apdu ⟨-, hread'⟩
      rw [hread] at hread'
      cases hread'
  · rw [hs] at hread
    by_cases hgood : L.frameKind completed.control = .information ∧ L.Connected s.session
    swap
    · -- Whatever is written here is not owed.
      rcases sendSessionReceiveReady_one true
        (queueing completed.information apdu (judged completed s)) with ⟨reply, htrace, -, haside⟩
      rw [queueing_judged_trace, List.append_assoc] at htrace
      refine ⟨_, htrace, replied_of_head ?_ fun _ hkind hσ => absurd ⟨hkind, hσ⟩ hgood⟩
      intro σ' frame' judgement' hmem
      rcases List.mem_cons.mp hmem with hc | hmem
      · cases hc
      · exact haside _ hmem
    rcases hgood with ⟨hkind, hσ⟩
    have hσ' : L.Connected (queueing completed.information apdu (judged completed s)).session :=
      (law.accepted hσ (numbered_of_information hkind) (Prod.ext hok rfl)).1
    rcases sendSessionReceiveReady_connected wire hσ' with
      ⟨bytes, status, htrace, hbytes, herror, -⟩
    rw [queueing_judged_trace, List.append_assoc] at htrace
    refine ⟨_, htrace, replied_of_head ?_ fun _ _ _ => ⟨hok, ?_⟩⟩
    · intro σ' frame' judgement' hmem
      rcases List.mem_cons.mp hmem with hc | hmem
      · cases hc
      · cases List.mem_singleton.mp hmem
    · rintro apdu' ⟨-, hread'⟩
      obtain rfl := Except.ok.inj (hread.symm.trans hread')
      exact ⟨bytes, status, [], rfl, hbytes, fun hne => ⟨rfl, herror hne⟩⟩

/-- The receive loop. -/
theorem awaitApdu_replied {collects : HdlcReassemblerLaw L} (wire : HdlcWireLaw L law)
    (huse : options.hdlcUseSession = true) :
    Proc.LogsFrom (Gathers collects options) (·.trace) (Replied wire options) awaitApdu := by
  refine awaitApdu_logsFrom (replied_joins wire) Replied.pass (fun s hs => ?_) fun frame s hs => ?_
  · rcases receiveDecodedFrame_readsOnly s with ⟨taken, -, htrace⟩
    refine ⟨gathers_of_aside (receiveDecodedFrame_aside s) hs, _, htrace, replied_of_none ?_⟩
    intro σ frame hmem
    rcases List.mem_map.mp hmem with ⟨e, -, he⟩
    cases he
  refine ⟨decodeFrame_gathers frame hs, ?_⟩
  have huse' : s.options.hdlcUseSession = true := by
    rw [hs.options]
    exact huse
  -- Asking for more and failing show the session nothing; the third branch judges the frame.
  rcases decodeFrame_cases frame huse' with ⟨-, h⟩ | ⟨-, -, h⟩ | ⟨hok, h⟩ <;> rw [h]
  · exact ⟨[], (List.append_nil _).symm, (replied_joins wire).nil _⟩
  · exact ⟨[], (List.append_nil _).symm, (replied_joins wire).nil _⟩
  · have hcompleted : L.frameKind (L.pushFrame s.reassembler frame).2.1.1.control = .information →
        (L.pushFrame s.reassembler frame).2.1.2 = true := by
      intro hkind
      rcases pushed_completed collects hok with ⟨-, h⟩ | ⟨hinfo, h⟩
      · exact h
      · rw [h] at hkind
        exact absurd hkind hinfo
    exact acceptCompleted_replied wire (push_gathers frame hs).options hcompleted

/-- Every frame was shown to a connected session. -/
def ShownConnected (events : List (Event L)) : Prop :=
  ∀ σ frame judgement, .receive σ frame judgement ∈ events → L.Connected σ

theorem shownConnected_joins :
    Proc.Joins fun (events : List (Event L)) (_ : Option ProfileStatus) =>
      ShownConnected events where
  nil _ _ _ _ hmem := absurd hmem List.not_mem_nil
  append := by
    intro a b o ha hb σ frame judgement hmem
    rcases List.mem_append.mp hmem with hmem | hmem
    · exact ha σ frame judgement hmem
    · exact hb σ frame judgement hmem

theorem shownConnected_of_head {σ : L.Session} {frame : L.Frame} {judgement : HdlcStatus}
    {rest : List (Event L)} (hσ : L.Connected σ)
    (hrest : ∀ σ' frame' judgement', .receive σ' frame' judgement' ∉ rest) :
    ShownConnected (.receive σ frame judgement :: rest) := by
  intro σ' frame' judgement' hmem
  rcases List.mem_cons.mp hmem with hhead | hmem
  · obtain ⟨rfl, -, -⟩ := Event.receive.inj hhead
    exact hσ
  · exact absurd hmem (hrest σ' frame' judgement')

/-- What a connected channel keeps while it receives. -/
structure Linked (collects : HdlcReassemblerLaw L) (options : ApduChannelOptions)
    (s : State L) : Prop extends Gathers collects options s where
  connected : L.Connected s.session

theorem linked_of_aside {collects : HdlcReassemblerLaw L} {s s' : State L} (h : Aside s s')
    (hs : Linked collects options s) : Linked collects options s' :=
  ⟨gathers_of_aside h hs.toGathers, h.session ▸ hs.connected⟩

/-- Where unnumbered frames are rejected, a session stays connected behind the
    reassembler. -/
theorem acceptCompleted_connected (unnumbered : HdlcUnnumberedLaw L) (wire : HdlcWireLaw L law)
    (completed : L.Frame) (hasCompleted : Bool) {s : State L} (hσ : L.Connected s.session) :
    L.Connected (acceptCompleted completed hasCompleted s).2.session ∧
      ∃ events, (acceptCompleted completed hasCompleted s).2.trace = s.trace ++ events ∧
        ShownConnected events := by
  have haccepted : (L.receiveFrame s.session completed).1 = .ok →
      L.Connected (judged completed s).session := fun hok =>
    (unnumbered.accepted law hσ (Prod.ext hok rfl)).1
  rcases acceptCompleted_cases completed hasCompleted s with
    ⟨hne, h⟩ | ⟨hok, -, h⟩ | ⟨hok, -, -, status, -, h⟩ | ⟨hok, -, -, apdu, -, h⟩ <;> rw [h]
  · have hsame : (judged completed s).session = s.session := law.rejected hσ rfl hne
    exact ⟨hsame ▸ hσ, _, rfl, shownConnected_of_head hσ fun _ _ _ => List.not_mem_nil⟩
  · exact ⟨haccepted hok, _, rfl, shownConnected_of_head hσ fun _ _ _ => List.not_mem_nil⟩
  · refine ⟨haccepted hok, _, List.append_assoc _ _ _, shownConnected_of_head hσ ?_⟩
    exact fun _ _ _ hmem => by cases List.mem_singleton.mp hmem
  · have hσ' : L.Connected (queueing completed.information apdu (judged completed s)).session :=
      haccepted hok
    rcases sendSessionReceiveReady_connected wire hσ' with
      ⟨bytes, status, htrace, -, -, hkept⟩
    rw [queueing_judged_trace, List.append_assoc] at htrace
    refine ⟨hkept, _, htrace, shownConnected_of_head hσ ?_⟩
    intro σ' frame' judgement' hmem
    rcases List.mem_cons.mp hmem with hc | hmem
    · cases hc
    · cases List.mem_singleton.mp hmem

/-- And so throughout the receive loop. -/
theorem awaitApdu_connected {collects : HdlcReassemblerLaw L} (unnumbered : HdlcUnnumberedLaw L)
    (wire : HdlcWireLaw L law) (huse : options.hdlcUseSession = true) :
    Proc.LogsFrom (Linked collects options) (·.trace)
      (fun (events : List (Event L)) _ => ShownConnected events) awaitApdu := by
  refine awaitApdu_logsFrom shownConnected_joins id (fun s hs => ?_) fun frame s hs => ?_
  · rcases receiveDecodedFrame_readsOnly s with ⟨taken, -, htrace⟩
    refine ⟨linked_of_aside (receiveDecodedFrame_aside s) hs, _, htrace, ?_⟩
    intro σ frame judgement hmem
    rcases List.mem_map.mp hmem with ⟨e, -, he⟩
    cases he
  have hgathers := decodeFrame_gathers frame hs.toGathers
  have huse' : s.options.hdlcUseSession = true := by
    rw [hs.options]
    exact huse
  have hnothing : ShownConnected ([] : List (Event L)) := shownConnected_joins.nil none
  rcases decodeFrame_cases frame huse' with ⟨-, h⟩ | ⟨-, -, h⟩ | ⟨-, h⟩ <;> rw [h] at hgathers ⊢
  · exact ⟨⟨hgathers, hs.connected⟩, [], (List.append_nil _).symm, hnothing⟩
  · exact ⟨⟨hgathers, hs.connected⟩, [], (List.append_nil _).symm, hnothing⟩
  · rcases acceptCompleted_connected unnumbered wire (L.pushFrame s.reassembler frame).2.1.1
      (L.pushFrame s.reassembler frame).2.1.2
      (s := reassembling (L.pushFrame s.reassembler frame).2.2 s) hs.connected with ⟨hσ, hshown⟩
    exact ⟨⟨hgathers, hσ⟩, hshown⟩

/-- Which accepted I-frames are acknowledged. Over a receive call of any reachable
    channel, an I-frame that a connected session accepts moves V(R). If it carries an
    APDU, the RR with the new V(R) is written as soon as that is queued, and a write
    that fails ends the call with its status. If it carries none, nothing is written
    before the next frame is shown to the session. A connected session that rejects
    unnumbered frames stays connected throughout. -/
theorem acknowledged_payloads (wire : HdlcWireLaw L law) (collects : HdlcReassemblerLaw L)
    {s : State L} (hs : Reachable L options s) (huse : options.hdlcUseSession = true)
    (call : ReceiveCall) :
    ∃ events, (exec (.receive call) s).2.trace = s.trace ++ events ∧
      Replied wire options events (exec (.receive call) s).1.error ∧
      (∀ pre σ frame post, events = pre ++ .receive σ frame .ok :: post →
        (L.frameKind frame.control = .information → L.Connected σ →
          law.vr (L.receiveFrame σ frame).2 = law.vr σ + 1) ∧
        ((∀ apdu, ¬ Carries L options frame.information apdu) → SilentUntilNext post)) ∧
      (HdlcUnnumberedLaw L → L.Connected s.session → ShownConnected events) := by
  have hgathers := gathers_of_reachable collects hs
  have hpop : ∀ s : State L, Gathers collects options s →
      Gathers collects options (pending.pop s) := fun _ h => gathers_of_same h rfl rfl
  have hquiet : Proc.LogsFrom (Gathers collects options) (·.trace) (fun events _ => Quiet
      (fun frame => ∀ apdu, ¬ Carries L options frame.information apdu) events) awaitApdu :=
    awaitApdu_quiet fun s frame _ _ hnone _ => hnone
  rcases (receive_logsFrom (quiet_joins _) hquiet hpop call s hgathers).2 with
    ⟨events, htrace, hafter⟩
  rcases (receive_logsFrom (replied_joins wire) (awaitApdu_replied wire huse) hpop call s
    hgathers).2 with ⟨events', htrace', hreplied⟩
  -- All three facts are about the events of the same call.
  obtain rfl := List.append_cancel_left (htrace'.symm.trans htrace)
  refine ⟨events', htrace, hreplied, fun pre σ frame post hsplit => ⟨fun hkind hσ => ?_, ?_⟩, ?_⟩
  · have hok := (hreplied pre σ frame post hsplit hkind hσ).1
    have haccepted := law.accepted hσ (numbered_of_information hkind) (Prod.ext hok rfl)
    rw [haccepted.2.2.2, if_pos hkind]
  · exact hafter.after pre σ frame post hsplit
  · intro unnumbered hσ
    rcases (receive_logsFrom shownConnected_joins (awaitApdu_connected unnumbered wire huse)
      (fun s h => ⟨hpop s h.toGathers, h.connected⟩) call s ⟨hgathers, hσ⟩).2 with
      ⟨events, htrace', hshown⟩
    obtain rfl := List.append_cancel_left (htrace'.symm.trans htrace)
    exact hshown

/-- A client that takes an I-frame with an APDU and one without. -/
theorem acknowledged_payloads_mixed :
    let s := (run [.connectDataLink] (Reference.hdlcChannel Reference.sessionOptions
      [Reference.arrived (Reference.toClient Reference.ua []),
        Reference.arrived (Reference.toClient 0x10 [] ++
          Reference.toClient 0x12 [0xE6, 0xE7, 0x00, 0xC4])])).2
    ∃ events, (exec (.receive .vector) s).2.trace = s.trace ++ events ∧
      Replied Reference.wireLaw Reference.sessionOptions events
        (exec (.receive .vector) s).1.error ∧
      (∀ pre σ frame post, events = pre ++ .receive σ frame .ok :: post →
        (Reference.hdlcLib.frameKind frame.control = .information → Reference.hdlcLib.Connected σ →
          Reference.sessionLaw.vr (Reference.hdlcLib.receiveFrame σ frame).2 =
            Reference.sessionLaw.vr σ + 1) ∧
        ((∀ apdu, ¬ Carries Reference.hdlcLib Reference.sessionOptions frame.information apdu) →
          SilentUntilNext post)) ∧
      ShownConnected events := by
  intro s
  have hs : Reachable Reference.hdlcLib Reference.sessionOptions s := ⟨_, _, rfl, rfl, rfl⟩
  have hσ : Reference.hdlcLib.Connected s.session := by decide +kernel
  rcases acknowledged_payloads Reference.wireLaw Reference.reassemblerLaw hs (by decide +kernel)
    .vector with ⟨events, htrace, hreplied, hafter, hshown⟩
  exact ⟨events, htrace, hreplied, hafter, hshown Reference.unnumberedLaw hσ⟩

/-- An I-frame whose payload is too short for an LPDU, and then nothing. V(R) moves, no RR is
    written, and the call returns the status of the read behind the frame. -/
theorem acknowledged_refused_refuted :
    let s := (run [.connectDataLink] (Reference.hdlcChannel Reference.sessionOptions
      [Reference.arrived (Reference.toClient Reference.ua []),
        Reference.arrived (Reference.toClient 0x10 [0xE6]), ⟨.wouldBlock, []⟩])).2
    let after := exec (.receive .vector) s
    Reference.sessionLaw.vr s.session = 0 ∧ Reference.sessionLaw.vr after.2.session = 1 ∧
      written after.2.trace = written s.trace ∧
      after.1 = .received (.vector (.fail .wouldBlock)) ∧ after.2.reads = [] := by
  decide +kernel

end Replied

/-- A connected server that a DISC is on its way to. -/
theorem commands_unanswered_released :
    let server := (run [.acceptDataLink] (Reference.channelOver Reference.commandLib
      Reference.serverOptions [Reference.arrived (Reference.toServer Reference.snrm []),
        Reference.arrived (Reference.toServer Reference.disc [])])).2
    ∃ events, (exec (.receive .vector) server).2.trace = server.trace ++ events ∧
      ∀ pre σ frame post, events = pre ++ .receive σ frame .ok :: post →
        Reference.commandLib.frameKind frame.control = .unnumbered → SilentUntilNext post :=
  have hs : Reachable Reference.commandLib Reference.serverOptions
      (run [.acceptDataLink] (Reference.channelOver Reference.commandLib
        Reference.serverOptions [Reference.arrived (Reference.toServer Reference.snrm []),
          Reference.arrived (Reference.toServer Reference.disc [])])).2 := ⟨_, _, rfl, rfl, rfl⟩
  commands_unanswered Reference.commandReassemblerLaw hs .vector

/-- A server waits in a receive call and its client releases the link. The DISC is
    consumed, nothing is written, and the client waits for its UA. -/
theorem commands_answered_refuted :
    let server := (run [.acceptDataLink] (Reference.channelOver Reference.commandLib
      Reference.serverOptions [Reference.arrived (Reference.toServer Reference.snrm []),
        Reference.arrived (Reference.toServer Reference.disc [])])).2
    let client := (run [.connectDataLink] (Reference.channelOver Reference.commandLib
      Reference.sessionOptions [Reference.arrived (Reference.toClient Reference.ua [])])).2
    let served := exec (.receive .vector) server
    let released := exec .disconnectDataLink client
    Reference.commandLib.sessionState server.session = .connected ∧
      Reference.commandLib.sessionState served.2.session = .disconnected ∧
      served.1.isWaiting = true ∧ served.2.reads = [] ∧
      written served.2.trace = written server.trace ∧
      released.1 = .status .waiting ∧ released.2.reads = [] ∧
      written released.2.trace =
        written client.trace ++ [(Reference.toServer Reference.disc [], .ok)] := by
  decide +kernel

end Hdlc

end DlmsProfile
