import DlmsProfile.Hdlc.Handover
import DlmsProfile.Hdlc.Segmentation
import DlmsProfile.Termination

/-!
# What comes of a decoded Information Field

A complete frame whose information field gets to the LLC decoder should come to
one thing: its APDU is handed over, or the receive call fails on its account. Two
ways lead elsewhere. The LLC decoder says `NeedMoreData` of a field shorter than
its header, which the receive loop takes for a frame still to be completed, so
that the field is gone without a word; the channel over datagrams makes an error
of the same status. And in session mode the RR is sent once the APDU is queued. If
the RR does not go out, the call fails, and the APDU is handed over all the same.

The frames a call hands to the decoder are told by the states it does so in, so
that the condition on them looks at nothing the call computes afterwards.

## Main definitions

* `Hdlc.fates`: The information fields that were decoded, and what came of each.
* `Hdlc.reached`: The information field of a frame that gets to the LLC decoder.
* `Hdlc.Hands`: The frames a run of `ReceiveNextApdu` passes on, and when.
* `Hdlc.OneOutcome`: Every decoded field comes to one thing.
* `Hdlc.Decisive`: The frame leaves no doubt.

## Theorems

* `Hdlc.handleFrame_fate`: What comes of one frame.
* `Hdlc.Handles.outcome`: What comes of the frames of a run.
* `Hdlc.outcome_iff`: When every decoded field comes to one thing.
-/

namespace DlmsProfile

namespace Hdlc

variable {L : HdlcLib}

/-- An information field that was decoded, and what came of it. -/
def Event.fate : Event L → Option (List UInt8 × Except ProfileStatus (List UInt8))
  | .queue information apdu => some (information, .ok apdu)
  | .refuse information status => some (information, .error status)
  | _ => none

/-- The information fields that were decoded, in order, and what came of each. -/
def fates (events : List (Event L)) : List (List UInt8 × Except ProfileStatus (List UInt8)) :=
  events.filterMap Event.fate

theorem fates_append (a b : List (Event L)) : fates (a ++ b) = fates a ++ fates b :=
  List.filterMap_append

theorem fates_of_aside {events : List (Event L)} (h : ∀ e ∈ events, e.isAside) :
    fates events = [] := by
  refine List.filterMap_eq_nil_iff.mpr fun e he => ?_
  have haside := h e he
  cases e <;> first | rfl | exact haside.elim

/-- The information field that gets to the LLC decoder, if one does: that of the
    frame without a session, and what the reassembler completes and the session
    accepts with one, unless it is empty. -/
def reached (s : State L) (frame : L.Frame) : Option (List UInt8) :=
  if s.options.hdlcUseSession = false then
    if frame.segmented then none else some frame.information
  else
    let pushed := L.pushFrame s.reassembler frame
    let completed := pushed.2.1.1
    if pushed.1 = .ok ∧ (L.receiveFrame s.session completed).1 = .ok ∧ pushed.2.1.2 = true ∧
        completed.information ≠ [] then
      some completed.information
    else none

theorem reached_session (frame : L.Frame) {s : State L} (huse : s.options.hdlcUseSession = true) :
    reached s frame =
      if (L.pushFrame s.reassembler frame).1 = .ok ∧
          (L.receiveFrame s.session (L.pushFrame s.reassembler frame).2.1.1).1 = .ok ∧
          (L.pushFrame s.reassembler frame).2.1.2 = true ∧
          (L.pushFrame s.reassembler frame).2.1.1.information ≠ [] then
        some (L.pushFrame s.reassembler frame).2.1.1.information
      else none :=
  if_neg fun h => Bool.false_ne_true (h.symm.trans huse)

/-- The RR that acknowledges the frame, if there is a session, is built and goes
    out. -/
def AnswerGoesOut (s : State L) (frame : L.Frame) : Prop :=
  s.options.hdlcUseSession = true →
    let accepted := L.receiveFrame s.session (L.pushFrame s.reassembler frame).2.1.1
    (L.buildReceiveReadyFrame accepted.2 true).1 = .ok ∧ s.writes.headD .ok = .ok

/-- The frame leaves no doubt: what it carries is not found too short for an LPDU,
    and if it is an APDU, its RR goes out. -/
def Decisive (s : State L) (frame : L.Frame) : Prop :=
  ∀ info, reached s frame = some info → info ≠ [] →
    mapLlcStatus (L.decodeLpdu info false).1 ≠ .needMoreData ∧
      (∀ apdu, readInformation L s.options info = .ok apdu → AnswerGoesOut s frame)

/-- An RR is built and goes out, or the call fails, and not to be tried again. -/
theorem sendSessionReceiveReady_goes (hreplies : BuildsReplies L) (pollFinal : Bool)
    (s : State L) :
    (((L.buildReceiveReadyFrame s.session pollFinal).1 = .ok ∧ s.writes.headD .ok = .ok) ∧
      (sendSessionReceiveReady pollFinal s).1 = .done ()) ∨
    (¬ ((L.buildReceiveReadyFrame s.session pollFinal).1 = .ok ∧ s.writes.headD .ok = .ok) ∧
      ∃ status, status ≠ .needMoreData ∧
        (sendSessionReceiveReady pollFinal s).1 = .fail status) := by
  rcases sendSessionReceiveReady_cases pollFinal s with ⟨hne, h⟩ | ⟨hok, h⟩ <;> rw [h]
  · exact Or.inr ⟨fun hboth => hne hboth.1, _, hreplies _ _, rfl⟩
  let built := L.buildReceiveReadyFrame s.session pollFinal
  let ready : State L := { s with session := built.2.2 }
  -- The RR is there. It goes out if the stream takes it.
  by_cases hgoes : ready.writes.headD .ok = .ok
  · have hdone : writeFrameBytes built.2.1 ready = _ := writeFrameBytes_of_ok hgoes
    exact Or.inl ⟨⟨hok, hgoes⟩, congrArg Prod.fst hdone⟩
  · have hfail : writeFrameBytes built.2.1 ready = _ := writeFrameBytes_of_ne hgoes
    exact Or.inr ⟨fun hboth => hgoes hboth.2, _, mapTransportStatus_ne_needMoreData _,
      congrArg Prod.fst hfail⟩

/-- What comes of a frame the reassembler let through: it carries nothing, or what
    it carries is refused, or it is queued and the RR decides. -/
theorem acceptCompleted_fate (hreplies : BuildsReplies L) (completed : L.Frame)
    (hasCompleted : Bool) (s : State L) :
    ∃ events, (acceptCompleted completed hasCompleted s).2.trace = s.trace ++ events ∧
      ((¬ ((L.receiveFrame s.session completed).1 = .ok ∧ hasCompleted = true ∧
            completed.information ≠ []) ∧ fates events = [] ∧
          (acceptCompleted completed hasCompleted s).2.pendingApdus = s.pendingApdus) ∨
        ((L.receiveFrame s.session completed).1 = .ok ∧ hasCompleted = true ∧
          completed.information ≠ []) ∧
        ((∃ status, readInformation L s.options completed.information = .error status ∧
            fates events = [(completed.information, .error status)] ∧
            (acceptCompleted completed hasCompleted s).1 = .fail status ∧
            (acceptCompleted completed hasCompleted s).2.pendingApdus = s.pendingApdus) ∨
          (∃ apdu, readInformation L s.options completed.information = .ok apdu ∧
            fates events = [(completed.information, .ok apdu)] ∧
            (acceptCompleted completed hasCompleted s).2.pendingApdus = s.pendingApdus ++ [apdu] ∧
            ((((L.buildReceiveReadyFrame (L.receiveFrame s.session completed).2 true).1 = .ok ∧
                  s.writes.headD .ok = .ok) ∧
                (acceptCompleted completed hasCompleted s).1 = .done ()) ∨
              (¬ ((L.buildReceiveReadyFrame (L.receiveFrame s.session completed).2 true).1 = .ok ∧
                  s.writes.headD .ok = .ok) ∧
                ∃ status, status ≠ .needMoreData ∧
                  (acceptCompleted completed hasCompleted s).1 = .fail status))))) := by
  rcases acceptCompleted_cases completed hasCompleted s with
    ⟨hrejected, h⟩ | ⟨-, hnothing, h⟩ | ⟨hok, hcompleted, hinfo, status, hread, h⟩ |
    ⟨hok, hcompleted, hinfo, apdu, hread, h⟩ <;> rw [h]
  · exact ⟨_, rfl, Or.inl ⟨fun hc => hrejected hc.1, rfl, rfl⟩⟩
  · refine ⟨_, rfl, Or.inl ⟨fun hc => ?_, rfl, rfl⟩⟩
    rcases hnothing with hn | hn
    · exact Bool.false_ne_true (hn.symm.trans hc.2.1)
    · exact hc.2.2 hn
  · exact ⟨_, List.append_assoc _ _ _, Or.inr ⟨⟨hok, hcompleted, hinfo⟩,
      Or.inl ⟨status, hread, rfl, rfl, rfl⟩⟩⟩
  · -- The queue comes first, and the RR records nothing of the kind.
    rcases sendSessionReceiveReady_one true
      (queueing completed.information apdu (judged completed s)) with ⟨reply, htrace, -, haside⟩
    have hqueued : (queueing completed.information apdu (judged completed s)).trace =
        s.trace ++ [.receive s.session completed .ok, .queue completed.information apdu] := by
      simp only [queueing, judged, hok, List.append_assoc, List.cons_append, List.nil_append]
    refine ⟨[.receive s.session completed .ok, .queue completed.information apdu] ++ reply, ?_,
      Or.inr ⟨⟨hok, hcompleted, hinfo⟩, Or.inr ⟨apdu, hread, ?_, ?_, ?_⟩⟩⟩
    · rw [htrace, hqueued, List.append_assoc]
    · rw [fates_append, fates_of_aside haside]
      rfl
    · rw [sendSessionReceiveReady_apdus]
      rfl
    · exact sendSessionReceiveReady_goes hreplies true
        (queueing completed.information apdu (judged completed s))

/-- What comes of one frame: it does not get to the LLC decoder, or what it carries
    is refused, or it is queued and the RR decides. -/
theorem decodeFrame_fate (hreplies : BuildsReplies L) (frame : L.Frame) (s : State L) :
    ∃ events, (decodeFrameToPendingApdu frame s).2.trace = s.trace ++ events ∧
      ((reached s frame = none ∧ fates events = [] ∧
          (decodeFrameToPendingApdu frame s).2.pendingApdus = s.pendingApdus) ∨
        ∃ info, reached s frame = some info ∧
          ((∃ status, readInformation L s.options info = .error status ∧
              fates events = [(info, .error status)] ∧
              (decodeFrameToPendingApdu frame s).1 = .fail status ∧
              (decodeFrameToPendingApdu frame s).2.pendingApdus = s.pendingApdus) ∨
            (∃ apdu, readInformation L s.options info = .ok apdu ∧
              fates events = [(info, .ok apdu)] ∧
              (decodeFrameToPendingApdu frame s).2.pendingApdus = s.pendingApdus ++ [apdu] ∧
              ((AnswerGoesOut s frame ∧ (decodeFrameToPendingApdu frame s).1 = .done ()) ∨
                (¬ AnswerGoesOut s frame ∧ ∃ status, status ≠ .needMoreData ∧
                  (decodeFrameToPendingApdu frame s).1 = .fail status))))) := by
  -- Without a session a frame that is no segment is decoded at once.
  by_cases huse : s.options.hdlcUseSession = true
  swap
  · have hplain : s.options.hdlcUseSession = false := eq_false_of_ne_true huse
    have hanswer : AnswerGoesOut s frame := fun h => absurd h huse
    rcases decodeFrame_plain_cases frame huse with
      ⟨hseg, h⟩ | ⟨hseg, status, hread, h⟩ | ⟨hseg, apdu, hread, h⟩ <;> rw [h]
    · refine ⟨[], (List.append_nil _).symm, Or.inl ⟨?_, rfl, rfl⟩⟩
      rw [reached, if_pos hplain, if_pos hseg]
    · have hreached : reached s frame = some frame.information := by
        rw [reached, if_pos hplain, hseg, if_neg Bool.false_ne_true]
      exact ⟨_, rfl, Or.inr ⟨_, hreached, Or.inl ⟨status, hread, rfl, rfl, rfl⟩⟩⟩
    · have hreached : reached s frame = some frame.information := by
        rw [reached, if_pos hplain, hseg, if_neg Bool.false_ne_true]
      exact ⟨_, rfl, Or.inr ⟨_, hreached,
        Or.inr ⟨apdu, hread, rfl, rfl, Or.inl ⟨hanswer, rfl⟩⟩⟩⟩
  have hreached := reached_session frame huse
  -- In session mode it is a segment, a fault, or goes to the session.
  rcases decodeFrame_cases frame huse with ⟨hmore, h⟩ | ⟨-, hne, h⟩ | ⟨hpushed, h⟩ <;> rw [h]
  · have hnone : reached s frame = none := by
      refine hreached.trans (if_neg fun hc => ?_)
      rw [mapHdlcStatus_eq_ok.mpr hc.1] at hmore
      cases hmore
    exact ⟨[], (List.append_nil _).symm, Or.inl ⟨hnone, rfl, rfl⟩⟩
  · exact ⟨[], (List.append_nil _).symm,
      Or.inl ⟨hreached.trans (if_neg fun hc => hne hc.1), rfl, rfl⟩⟩
  rcases acceptCompleted_fate hreplies (L.pushFrame s.reassembler frame).2.1.1
    (L.pushFrame s.reassembler frame).2.1.2
    (reassembling (L.pushFrame s.reassembler frame).2.2 s) with
    ⟨events, htrace, ⟨hnot, hnone, hsame⟩ |
      ⟨hcarries, hrefused | ⟨apdu, hread, hqueued, hapdus, hrr⟩⟩⟩
  · exact ⟨events, htrace, Or.inl ⟨hreached.trans (if_neg fun hc => hnot hc.2), hnone, hsame⟩⟩
  · exact ⟨events, htrace, Or.inr ⟨_, hreached.trans (if_pos ⟨hpushed, hcarries⟩), Or.inl hrefused⟩⟩
  · refine ⟨events, htrace, Or.inr ⟨_, hreached.trans (if_pos ⟨hpushed, hcarries⟩),
      Or.inr ⟨apdu, hread, hqueued, hapdus, ?_⟩⟩⟩
    rcases hrr with ⟨hgoes, hdone⟩ | ⟨hstays, hfail⟩
    · exact Or.inl ⟨fun _ => hgoes, hdone⟩
    · exact Or.inr ⟨fun hall => hstays (hall huse), hfail⟩

/-- What a decoded field comes to where a run of the receive loop ends: the APDU it
    decodes to is what is pending, or the run fails with the reason it is refused for. -/
def Ends (o : Outcome ProfileStatus Unit) (s : State L) :
    List UInt8 × Except ProfileStatus (List UInt8) → Prop
  | (info, .ok apdu) => Decodes L info (.ok apdu) ∧ o = .done () ∧ s.pendingApdus = [apdu]
  | (info, .error status) =>
    Decodes L info (.error status) ∧ status ≠ .needMoreData ∧ o = .fail status

/-- How a run goes on after a frame, the frame being its last or not. -/
def GoesOn (r : Outcome ProfileStatus Bool × State L) (o : Outcome ProfileStatus Unit)
    (s : State L) : Prop :=
  (∀ b, r.1 = .done b → b = true → o = .done () ∧ s = r.2) ∧
    (∀ status, r.1 = .fail status → o = .fail status)

/-- One frame of a run: what it carries comes to one thing where the run ends if
    and only if the frame is decisive. -/
theorem handleFrame_fate (hreplies : BuildsReplies L) (frame : L.Frame) {s : State L}
    (hnone : s.pendingApdus = []) {o : Outcome ProfileStatus Unit} {s' : State L}
    (hgoes : GoesOn (handleFrame frame s) o s') :
    ∃ events, (handleFrame frame s).2.trace = s.trace ++ events ∧
      ((handleFrame frame s).1 = .done false → (handleFrame frame s).2.pendingApdus = []) ∧
      ((∀ fate ∈ fates events, fate.1 ≠ [] → Ends o s' fate) ↔ Decisive s frame) := by
  rcases decodeFrame_fate hreplies frame s with ⟨events, htrace, hcases⟩
  rw [← handleFrame_snd] at htrace hcases
  refine ⟨events, htrace, ?_⟩
  rcases hcases with ⟨hunreached, hfates, hsame⟩ | ⟨info, hreached, hcases⟩
  · refine ⟨fun _ => hsame.trans hnone, iff_of_true ?_ ?_⟩
    · rw [hfates]
      exact fun _ h => absurd h List.not_mem_nil
    · intro info hinfo
      rw [hunreached] at hinfo
      cases hinfo
  have hdecisive : Decisive s frame ↔ (info ≠ [] →
      mapLlcStatus (L.decodeLpdu info false).1 ≠ .needMoreData ∧
        (∀ apdu, readInformation L s.options info = .ok apdu → AnswerGoesOut s frame)) := by
    constructor
    · exact fun h hinfo => h info hreached hinfo
    · intro h info' hreached' hinfo'
      obtain rfl := Option.some.inj (hreached.symm.trans hreached')
      exact h hinfo'
  rw [hdecisive]
  rcases hcases with ⟨status, hread, hfates, hfail, hsame⟩ |
    ⟨apdu, hread, hfates, hapdus, ⟨hanswer, hdone⟩ | ⟨hanswer, status, hne, hfail⟩⟩
  · -- It is refused, and for good unless the status is the one the loop goes on after.
    have hdecoded : decodeFrameToPendingApdu frame s =
        (.fail status, (decodeFrameToPendingApdu frame s).2) := Prod.ext hfail rfl
    refine ⟨fun _ => hsame.trans hnone, ?_⟩
    rw [hfates, List.forall_mem_singleton]
    refine imp_congr_right fun _ => ?_
    by_cases hmore : status = .needMoreData
    · refine iff_of_false (fun h => h.2.1 hmore) fun h => h.1 ?_
      exact readInformation_needMoreData.mp (hmore ▸ hread)
    · have hends := hgoes.2 status (congrArg Prod.fst (handleFrame_of_fail hdecoded hmore))
      refine iff_of_true ⟨decodes_of_read hread, hmore, hends⟩ ⟨fun h => hmore ?_, fun apdu h => ?_⟩
      · exact Except.error.inj (hread.symm.trans (readInformation_needMoreData.mpr h))
      · cases hread.symm.trans h
  · -- It is queued and acknowledged.
    have hdecoded : decodeFrameToPendingApdu frame s =
        (.done (), (decodeFrameToPendingApdu frame s).2) := Prod.ext hdone rfl
    rw [hnone, List.nil_append] at hapdus
    have hended : (handleFrame frame s).1 = .done true := by
      rw [handleFrame_snd] at hapdus
      rw [handleFrame_of_done hdecoded, hapdus]
      rfl
    rw [hended]
    refine ⟨(fun h => by cases h), ?_⟩
    rw [hfates, List.forall_mem_singleton]
    refine iff_of_true (fun _ => ?_) fun _ => ⟨fun h => ?_, fun _ _ => hanswer⟩
    · obtain ⟨ho, rfl⟩ := hgoes.1 true hended rfl
      exact ⟨decodes_of_read hread, ho, hapdus⟩
    · cases hread.symm.trans (readInformation_needMoreData.mpr h)
  · -- It is queued, and the call fails.
    have hdecoded : decodeFrameToPendingApdu frame s =
        (.fail status, (decodeFrameToPendingApdu frame s).2) := Prod.ext hfail rfl
    have hended := congrArg Prod.fst (handleFrame_of_fail hdecoded hne)
    rw [hended]
    refine ⟨(fun h => by cases h), ?_⟩
    rw [hfates, List.forall_mem_singleton]
    refine imp_congr_right fun _ => iff_of_false (fun h => ?_) fun h => hanswer (h.2 apdu hread)
    cases h.2.1.symm.trans (hgoes.2 status hended)

/-- The frames a run of `ReceiveNextApdu` passes on to be decoded, each with the
    state it finds. -/
inductive Hands : State L → L.Frame → State L → Prop
  | first {s t : State L} {frame : L.Frame} (h : receiveDecodedFrame s = (.done frame, t)) :
    Hands s frame t
  | later {s s1 s2 t : State L} {other frame : L.Frame}
    (h : receiveDecodedFrame s = (.done other, s1))
    (hframe : handleFrame other s1 = (.done false, s2)) (hrest : Hands s2 frame t) :
    Hands s frame t

/-- A run that gets no frame passes none on. -/
theorem not_hands {s t : State L} {frame : L.Frame}
    (h : ∀ other, (receiveDecodedFrame s).1 ≠ .done other) : ¬ Hands s frame t := by
  intro hhands
  cases hhands with
  | first h' => exact h _ (congrArg Prod.fst h')
  | later h' _ _ => exact h _ (congrArg Prod.fst h')

/-- The frames of a run are its first and, if the run goes round again, those of what
    is left of it. -/
theorem hands_iff {s s1 t : State L} {first frame : L.Frame}
    (h : receiveDecodedFrame s = (.done first, s1)) :
    Hands s frame t ↔ (frame = first ∧ t = s1) ∨
      ((handleFrame first s1).1 = .done false ∧ Hands (handleFrame first s1).2 frame t) := by
  constructor
  -- The first frame is determined, so the others are handed over after it.
  · intro hhands
    cases hhands with
    | first h' =>
        obtain ⟨hframe, rfl⟩ := Prod.mk.inj (h'.symm.trans h)
        exact Or.inl ⟨Outcome.done.inj hframe, rfl⟩
    | later h' hframe hrest =>
        obtain ⟨hother, rfl⟩ := Prod.mk.inj (h'.symm.trans h)
        obtain rfl := Outcome.done.inj hother
        exact Or.inr ⟨congrArg Prod.fst hframe, (congrArg Prod.snd hframe).symm ▸ hrest⟩
  · rintro (⟨rfl, rfl⟩ | ⟨hframe, hrest⟩)
    · exact Hands.first h
    · exact Hands.later h (Prod.ext hframe rfl) hrest

/-- The first frame of a run and the rest of it, taken together. -/
theorem outcome_append {s s1 : State L} {first : L.Frame}
    (h : receiveDecodedFrame s = (.done first, s1)) {P : _ → Prop} {events rest : List (Event L)}
    (hfirst : (∀ fate ∈ fates events, P fate) ↔ Decisive s1 first)
    (hrest : (∀ fate ∈ fates rest, P fate) ↔ ((handleFrame first s1).1 = .done false →
      ∀ frame t, Hands (handleFrame first s1).2 frame t → Decisive t frame)) :
    (∀ fate ∈ fates (events ++ rest), P fate) ↔ ∀ frame t, Hands s frame t → Decisive t frame := by
  rw [fates_append]
  simp only [List.mem_append, or_imp, forall_and]
  rw [hfirst, hrest]
  -- A fate is that of the first frame, or of one behind it.
  constructor
  · rintro ⟨hone, hmany⟩ frame t hhands
    rcases (hands_iff h).mp hhands with ⟨rfl, rfl⟩ | ⟨hframe, hlater⟩
    · exact hone
    · exact hmany hframe frame t hlater
  · intro hall
    refine ⟨hall first s1 (Hands.first h), fun hframe frame t hlater => ?_⟩
    exact hall frame t ((hands_iff h).mpr (Or.inr ⟨hframe, hlater⟩))

/-- A run that gets no frame decodes nothing. -/
theorem outcome_of_none {s s1 : State L} {o : Outcome ProfileStatus L.Frame}
    {o' : Outcome ProfileStatus Unit} (hr : receiveDecodedFrame s = (o, s1))
    (ho : ∀ frame, o ≠ .done frame) :
    ∃ events, s1.trace = s.trace ++ events ∧
      ((∀ fate ∈ fates events, fate.1 ≠ [] → Ends o' s1 fate) ↔
        ∀ frame t, Hands s frame t → Decisive t frame) := by
  have haside := receiveDecodedFrame_aside s
  rw [hr] at haside
  rcases haside.events with ⟨events, htrace, hall⟩
  refine ⟨events, htrace, iff_of_true ?_ fun frame t hhands => ?_⟩
  · rw [fates_of_aside hall]
    exact fun _ h => absurd h List.not_mem_nil
  · exact absurd hhands (not_hands fun frame h => ho frame ((congrArg Prod.fst hr).symm.trans h))

/-- The frame that was got, and what the run makes of it. -/
theorem outcome_first (hreplies : BuildsReplies L) {s s1 s' : State L} {frame : L.Frame}
    {o : Outcome ProfileStatus Unit} (hs : s.pendingApdus = [])
    (hr : receiveDecodedFrame s = (.done frame, s1))
    (hgoes : GoesOn (handleFrame frame s1) o s') :
    ∃ events, (handleFrame frame s1).2.trace = s.trace ++ events ∧
      ((handleFrame frame s1).1 = .done false → (handleFrame frame s1).2.pendingApdus = []) ∧
      ((∀ fate ∈ fates events, fate.1 ≠ [] → Ends o s' fate) ↔ Decisive s1 frame) := by
  have haside := receiveDecodedFrame_aside s
  rw [hr] at haside
  -- To take the frame has settled the fate of none.
  rcases haside.events with ⟨before, hbefore, hall⟩
  rcases handleFrame_fate hreplies frame (haside.apdus.trans hs) hgoes with
    ⟨events, htrace, hleft, hiff⟩
  refine ⟨before ++ events, ?_, hleft, ?_⟩
  · rw [htrace, hbefore, List.append_assoc]
  · rw [fates_append, fates_of_aside hall, List.nil_append]
    exact hiff

/-- A frame that ends the run is all there is to it. -/
theorem outcome_last (hreplies : BuildsReplies L) {s s1 s2 : State L} {frame : L.Frame}
    {turn : Outcome ProfileStatus Bool} {o : Outcome ProfileStatus Unit}
    (hs : s.pendingApdus = []) (hr : receiveDecodedFrame s = (.done frame, s1))
    (hframe : handleFrame frame s1 = (turn, s2)) (hlast : turn ≠ .done false)
    (hgoes : GoesOn (handleFrame frame s1) o s2) :
    ∃ events, s2.trace = s.trace ++ events ∧
      ((∀ fate ∈ fates events, fate.1 ≠ [] → Ends o s2 fate) ↔
        ∀ frame t, Hands s frame t → Decisive t frame) := by
  rcases outcome_first hreplies hs hr hgoes with ⟨events, htrace, -, hiff⟩
  rw [hframe] at htrace
  refine ⟨events ++ [], htrace.trans (by rw [List.append_nil]), outcome_append hr hiff ?_⟩
  rw [hframe]
  exact iff_of_true (fun _ h => absurd h List.not_mem_nil) fun h => absurd h hlast

/-- The fields a run decoded come to one thing each if and only if the frames it
    passed on are decisive. -/
theorem Handles.outcome (hreplies : BuildsReplies L) {s : State L} {frames : List L.Frame}
    {r : Outcome ProfileStatus Unit × State L} (h : Handles s frames r)
    (hnone : s.pendingApdus = []) :
    ∃ events, r.2.trace = s.trace ++ events ∧
      ((∀ fate ∈ fates events, fate.1 ≠ [] → Ends r.1 r.2 fate) ↔
        ∀ frame t, Hands s frame t → Decisive t frame) := by
  -- On the frames handled. The last of them ends the loop, and each other lets it go on.
  induction h with
  | failed h => exact outcome_of_none h fun _ h => by cases h
  | blocked h => exact outcome_of_none h fun _ h => by cases h
  | @refused s s1 s2 frame status h hframe =>
      refine outcome_last hreplies hnone h hframe (fun hc => by cases hc) ?_
      rw [hframe]
      exact ⟨(fun b hb => by cases hb), fun _ h => by cases h; rfl⟩
  | @filled s s1 s2 frame h hframe =>
      refine outcome_last hreplies hnone h hframe (fun hc => by cases hc) ?_
      rw [hframe]
      exact ⟨fun _ _ _ => ⟨rfl, rfl⟩, fun _ h => by cases h⟩
  | @more s s1 s2 frame frames r h hframe hrest ih =>
      have hgoes : GoesOn (handleFrame frame s1) r.1 r.2 := by
        rw [hframe]
        exact ⟨(fun b hb hb' => by cases hb; cases hb'), fun _ h => by cases h⟩
      rcases outcome_first hreplies hnone h hgoes with ⟨events, htrace, hleft, hiff⟩
      rw [hframe] at htrace hleft
      rcases ih (hleft rfl) with ⟨rest, htrace', hiff'⟩
      refine ⟨events ++ rest, ?_, outcome_append h hiff ?_⟩
      · rw [htrace', htrace, List.append_assoc]
      · rw [hframe, hiff']
        exact ⟨fun hall _ => hall, fun hall => hall rfl⟩

/-- What a receive call comes to for an information field it decoded: its APDU is
    what the call found pending and, given room, handed over, or the call failed
    with the reason it was refused for. -/
def Observed (r : ReceiveCall) (s : State L) :
    List UInt8 × Except ProfileStatus (List UInt8) → Prop
  | (info, .ok apdu) => Ends (awaitApdu s).1 (awaitApdu s).2 (info, .ok apdu) ∧
      ((∀ output, r = .into output → apdu.length ≤ output.size) →
        ((channel L).call r s).1.delivered = some apdu)
  | (info, .error status) => Ends (awaitApdu s).1 (awaitApdu s).2 (info, .error status) ∧
      ((channel L).call r s).1.error = some status

/-- Every information field the call decoded, unless it is empty, comes to one thing. -/
def OneOutcome (r : ReceiveCall) (s : State L) : Prop :=
  ∀ fate ∈ fates (((channel L).call r s).2.trace.drop s.trace.length),
    fate.1 ≠ [] → Observed r s fate

/-- The two are one, where the call's buffer is not refused. -/
theorem observed_iff {r : ReceiveCall} {s : State L}
    (hv : ∀ output, r = .into output → isValidMutableBuffer output = true)
    (fate : List UInt8 × Except ProfileStatus (List UInt8)) :
    Observed r s fate ↔ Ends (awaitApdu s).1 (awaitApdu s).2 fate := by
  -- A fate is a failure, which the call returns, or an APDU, which it delivers.
  rcases fate with ⟨info, status | apdu⟩
  · refine and_iff_left_of_imp fun hends => ?_
    have hawait : awaitApdu s = (.fail status, (awaitApdu s).2) := Prod.ext hends.2.2 rfl
    exact PendingQueue.call_of_fail hawait hv
  · refine and_iff_left_of_imp fun hends hroom => ?_
    have hawait : awaitApdu s = (.done (), (awaitApdu s).2) := Prod.ext hends.2.1 rfl
    have hpending : (pending.apdus (awaitApdu s).2).headD [] = apdu := by
      have hone : pending.apdus (awaitApdu s).2 = [apdu] := hends.2.2
      rw [hone, List.headD_cons]
    have hdelivered : ((channel L).call r s).1.delivered = _ :=
      PendingQueue.call_of_done hawait r fun room h =>
        ⟨hv room h, hpending.symm ▸ hroom room h⟩
    rw [hdelivered, hpending]

/-- A plain channel gets an I-frame with one byte for a header, and one with an APDU. -/
def truncated : State Reference.hdlcLib :=
  Reference.hdlcChannel defaultApduChannelOptions
    [Reference.arrived (Reference.toClient 0x10 [0xE6] ++
      Reference.toClient 0x10 [0xE6, 0xE7, 0x00, 0xC4])]

end Hdlc

end DlmsProfile
