import DlmsProfile.Hdlc.Handover
import DlmsProfile.Hdlc.Replies

/-!
# What a Connected Channel Hears

The receive loop of a connected channel, told by the I-frames that come in and
nothing else. A segment goes to those collected before it, whatever its number.
Any other I-frame completes them, and only then the session looks at a number:
that of the first or of the last frame of the run, since the reassembler gives
the whole the control field of one of them. If it is the number V(R), the session
moves on and the APDU may be queued; in every case the run is over.

`Hears` is that account, with what a run of frames leaves to the next. It says
what may be queued and not what must be, for a frame with the right number may
still be rejected for its N(R), and an accepted payload refused.

## Main definitions

* `Hdlc.apduOf`: The APDU in an LPDU.
* `Hdlc.Hears`: What may become of a run of I-frames.
* `Hdlc.Listens`: A connected channel that only I-frames come in to.

## Theorems

* `Hdlc.acceptCompleted_heard`: What the session makes of a completed run.
* `Hdlc.decodeFrame_heard`: What becomes of one I-frame.
* `Hdlc.run_heard`: What any number of receive calls queue.
-/

namespace DlmsProfile

namespace Hdlc

variable {L : HdlcLib} {law : HdlcSessionLaw L}

/-- The APDU in an LPDU. -/
def apduOf (L : HdlcLib) (lpdu : List UInt8) : List UInt8 := (L.decodeLpdu lpdu false).2

theorem apduOf_of_read {options : ApduChannelOptions} {information apdu : List UInt8}
    (h : readInformation L options information = .ok apdu) : apduOf L information = apdu := by
  simp only [readInformation] at h
  split at h
  · cases h
  split at h
  · cases h
  · exact Except.ok.inj h

/-- What may become of the I-frames `frames`, the session expecting the number
    `r` and the reassembler having collected `c`: the APDUs queued, and what the
    two have come to. -/
inductive Hears (law : HdlcSessionLaw L) :
    Fin 8 → List L.Frame → List L.Frame → List (List UInt8) → Fin 8 → List L.Frame → Prop
  | nil (r : Fin 8) (c : List L.Frame) : Hears law r c [] [] r c
  | segment {r r' : Fin 8} {c c' frames : List L.Frame} {frame : L.Frame}
    {apdus : List (List UInt8)} (hseg : frame.segmented = true)
    (h : Hears law r (c ++ [frame]) frames apdus r' c') :
    Hears law r c (frame :: frames) apdus r' c'
  | reject {r r' : Fin 8} {c c' frames : List L.Frame} {frame : L.Frame}
    {apdus : List (List UInt8)} (hseg : frame.segmented = false)
    (h : Hears law r [] frames apdus r' c') : Hears law r c (frame :: frames) apdus r' c'
  | refuse {r r' : Fin 8} {c c' frames : List L.Frame} {frame : L.Frame}
    {apdus : List (List UInt8)} (hseg : frame.segmented = false)
    (hnumber : law.sendSequence frame.control = r ∨
      law.sendSequence (c.headD frame).control = r)
    (h : Hears law (r + 1) [] frames apdus r' c') : Hears law r c (frame :: frames) apdus r' c'
  | queue {r r' : Fin 8} {c c' frames : List L.Frame} {frame : L.Frame}
    {apdus : List (List UInt8)} (hseg : frame.segmented = false)
    (hnumber : law.sendSequence frame.control = r ∨
      law.sendSequence (c.headD frame).control = r)
    (h : Hears law (r + 1) [] frames apdus r' c') :
    Hears law r c (frame :: frames)
      (apduOf L ((c ++ [frame]).flatMap (·.information)) :: apdus) r' c'

theorem Hears.append {r r1 r' : Fin 8} {c c1 c' frames frames' : List L.Frame}
    {apdus apdus' : List (List UInt8)} (h : Hears law r c frames apdus r1 c1)
    (h' : Hears law r1 c1 frames' apdus' r' c') :
    Hears law r c (frames ++ frames') (apdus ++ apdus') r' c' := by
  induction h with
  | nil r c => exact h'
  | segment hseg _ ih => exact segment hseg (ih h')
  | reject hseg _ ih => exact reject hseg (ih h')
  | refuse hseg hnumber _ ih => exact refuse hseg hnumber (ih h')
  | queue hseg hnumber _ ih => exact queue hseg hnumber (ih h')

/-- A connected channel in session mode that only I-frames come in to. -/
structure Listens (collects : HdlcReassemblerLaw L) (s : State L) : Prop where
  session : s.options.hdlcUseSession = true
  connected : L.Connected s.session
  information : ∀ frame ∈ collects.collected s.reassembler ++ incoming s,
    L.frameKind frame.control = .information

/-- An RR changes nothing that matters for what comes next. -/
theorem sendSessionReceiveReady_heard (law : HdlcSessionLaw L) {s : State L}
    (hσ : L.Connected s.session) :
    L.Connected (sendSessionReceiveReady true s).2.session ∧
      law.vr (sendSessionReceiveReady true s).2.session = law.vr s.session ∧
      ∃ events, (sendSessionReceiveReady true s).2.trace = s.trace ++ events ∧
        queued events = [] := by
  rcases law.receiveReady true hσ with ⟨hok, hσ', -, hvr, -⟩
  rcases sendSessionReceiveReady_one true s with ⟨reply, htrace, -, haside⟩
  have hsession : (sendSessionReceiveReady true s).2.session =
      (L.buildReceiveReadyFrame s.session true).2.2 := by
    rw [sendSessionReceiveReady_of_built hok, writeFrameBytes_snd]
  rw [hsession]
  exact ⟨hσ', hvr, reply, htrace, queued_of_aside haside⟩

/-- What the session of a connected channel makes of a completed run: it rejects
    it and stays, or the run bears the number V(R) and the session moves on. -/
theorem acceptCompleted_heard (law : HdlcSessionLaw L) {completed : L.Frame} {s : State L}
    (hσ : L.Connected s.session) (hkind : L.frameKind completed.control = .information) :
    L.Connected (acceptCompleted completed true s).2.session ∧
      ∃ events, (acceptCompleted completed true s).2.trace = s.trace ++ events ∧
        ((law.vr (acceptCompleted completed true s).2.session = law.vr s.session ∧
            queued events = []) ∨
          (law.sendSequence completed.control = law.vr s.session ∧
            law.vr (acceptCompleted completed true s).2.session = law.vr s.session + 1 ∧
            (queued events = [] ∨ queued events = [apduOf L completed.information]))) := by
  -- What is known once the session has accepted it.
  have haccepted : (L.receiveFrame s.session completed).1 = .ok →
      L.Connected (judged completed s).session ∧
        law.sendSequence completed.control = law.vr s.session ∧
        law.vr (judged completed s).session = law.vr s.session + 1 := by
    intro hok
    have hnumbered := numbered_of_information hkind
    have hafter := law.accepted hσ hnumbered (Prod.ext hok rfl)
    refine ⟨hafter.1, ((law.accepts hσ hnumbered).mp hok).2 hkind, ?_⟩
    have hvr := hafter.2.2.2
    rw [if_pos hkind] at hvr
    exact hvr
  rcases acceptCompleted_cases completed true s with
    ⟨hne, h⟩ | ⟨hok, -, h⟩ | ⟨hok, -, -, status, -, h⟩ | ⟨hok, -, -, apdu, hread, h⟩ <;> rw [h]
  · have hsame : (judged completed s).session = s.session :=
      law.rejected hσ (Prod.ext rfl rfl) hne
    refine ⟨hsame ▸ hσ, _, rfl, Or.inl ⟨?_, rfl⟩⟩
    rw [hsame]
  · rcases haccepted hok with ⟨hσ', hnumber, hvr⟩
    exact ⟨hσ', _, rfl, Or.inr ⟨hnumber, hvr, Or.inl rfl⟩⟩
  · rcases haccepted hok with ⟨hσ', hnumber, hvr⟩
    exact ⟨hσ', _, List.append_assoc _ _ _, Or.inr ⟨hnumber, hvr, Or.inl rfl⟩⟩
  · rcases haccepted hok with ⟨hσ', hnumber, hvr⟩
    have hqueued : L.Connected (queueing completed.information apdu (judged completed s)).session :=
      hσ'
    rcases sendSessionReceiveReady_heard law hqueued with ⟨hσ'', hvr', events, htrace, hnone⟩
    refine ⟨hσ'', [.receive s.session completed (L.receiveFrame s.session completed).1,
      .queue completed.information apdu] ++ events, ?_, Or.inr ⟨hnumber, hvr'.trans hvr, Or.inr ?_⟩⟩
    · rw [htrace]
      simp only [queueing, judged, List.append_assoc, List.cons_append, List.nil_append]
    · rw [queued_append, hnone, List.append_nil, apduOf_of_read hread]
      rfl

/-- What becomes of one I-frame. -/
theorem decodeFrame_heard (law : HdlcSessionLaw L) (collects : HdlcReassemblerLaw L)
    {frame : L.Frame} {s : State L} (huse : s.options.hdlcUseSession = true)
    (hσ : L.Connected s.session)
    (hkinds : ∀ f ∈ collects.collected s.reassembler, L.frameKind f.control = .information)
    (hkind : L.frameKind frame.control = .information) :
    L.Connected (decodeFrameToPendingApdu frame s).2.session ∧
      ∃ events, (decodeFrameToPendingApdu frame s).2.trace = s.trace ++ events ∧
        Hears law (law.vr s.session) (collects.collected s.reassembler) [frame] (queued events)
          (law.vr (decodeFrameToPendingApdu frame s).2.session)
          (collects.collected (decodeFrameToPendingApdu frame s).2.reassembler) := by
  cases hseg : frame.segmented with
  | true =>
      rcases collects.segment (r := s.reassembler) hkind hseg with ⟨hmore, hcollected⟩
      rw [decodeFrame_of_more huse hmore]
      refine ⟨hσ, [], (List.append_nil _).symm, Hears.segment hseg ?_⟩
      simp only [reassembling, hcollected]
      exact Hears.nil _ _
  | false =>
      rcases collects.last (r := s.reassembler) hkind hseg with
        ⟨hok, hcompleted, hinfo, hcontrol, hempty⟩
      -- The whole bears the control field of its first or of its last frame.
      have hbears : (L.pushFrame s.reassembler frame).2.1.1.control = frame.control ∨
          (L.pushFrame s.reassembler frame).2.1.1.control =
            ((collects.collected s.reassembler).headD frame).control := hcontrol
      have hwhole : L.frameKind (L.pushFrame s.reassembler frame).2.1.1.control =
          .information := by
        rcases hbears with hc | hc <;> rw [hc]
        · exact hkind
        · rcases hh : collects.collected s.reassembler with _ | ⟨first, rest⟩
          · exact hkind
          · exact hkinds first (hh ▸ List.mem_cons_self)
      have hnumber : ∀ {r : Fin 8},
          law.sendSequence (L.pushFrame s.reassembler frame).2.1.1.control = r →
            law.sendSequence frame.control = r ∨
              law.sendSequence ((collects.collected s.reassembler).headD frame).control = r := by
        intro r hr
        rcases hbears with hc | hc <;> rw [hc] at hr
        · exact Or.inl hr
        · exact Or.inr hr
      have hpushed : L.Connected
          (reassembling (L.pushFrame s.reassembler frame).2.2 s).session := hσ
      have hkept : (acceptCompleted (L.pushFrame s.reassembler frame).2.1.1 true
          (reassembling (L.pushFrame s.reassembler frame).2.2 s)).2.reassembler =
            (L.pushFrame s.reassembler frame).2.2 := acceptCompleted_reassembler _ _ _
      rcases acceptCompleted_heard law hpushed hwhole with ⟨hσ', events, htrace, hcases⟩
      rw [decodeFrame_of_ok huse hok, hcompleted, hkept, hempty]
      refine ⟨hσ', events, htrace, ?_⟩
      rcases hcases with ⟨hvr, hnone⟩ | ⟨hr, hvr, hnone | hone⟩ <;> rw [hvr]
      · rw [hnone]
        exact Hears.reject hseg (Hears.nil _ _)
      · rw [hnone]
        exact Hears.refuse hseg (hnumber hr) (Hears.nil _ _)
      · rw [hone, hinfo]
        exact Hears.queue hseg (hnumber hr) (Hears.nil _ _)

/-- What a step of the receive loop does to a channel that listens. -/
def Heard (law : HdlcSessionLaw L) (collects : HdlcReassemblerLaw L) (s s' : State L) : Prop :=
  Listens collects s → Listens collects s' ∧
    ∃ events frames, s'.trace = s.trace ++ events ∧ incoming s = frames ++ incoming s' ∧
      Hears law (law.vr s.session) (collects.collected s.reassembler) frames (queued events)
        (law.vr s'.session) (collects.collected s'.reassembler)

theorem heard_refl {collects : HdlcReassemblerLaw L} (s : State L) : Heard law collects s s :=
  fun hs => ⟨hs, [], [], (List.append_nil _).symm, rfl, Hears.nil _ _⟩

theorem heard_trans {collects : HdlcReassemblerLaw L} (a b c : State L)
    (h : Heard law collects a b) (h' : Heard law collects b c) : Heard law collects a c := by
  intro ha
  rcases h ha with ⟨hb, ev, frames, ht, hin, hheard⟩
  rcases h' hb with ⟨hc, ev', frames', ht', hin', hheard'⟩
  refine ⟨hc, ev ++ ev', frames ++ frames', ?_, ?_, ?_⟩
  · rw [ht', ht, List.append_assoc]
  · rw [hin, hin', List.append_assoc]
  · rw [queued_append]
    exact hheard.append hheard'

/-- One turn of the receive loop. -/
theorem receiveTurn_heard (law : HdlcSessionLaw L) (collects : HdlcReassemblerLaw L) :
    Proc.Within (Heard law collects) (receiveTurn (L := L)) := by
  intro s hs
  have haside := receiveDecodedFrame_aside s
  have hin := receiveDecodedFrame_incoming s
  -- The next frame, be there one or none, is all that can be missed.
  have hcome : ∀ {o s1}, receiveDecodedFrame s = (o, s1) → o.toList = [] →
      Listens collects s1 ∧ ∃ events frames, s1.trace = s.trace ++ events ∧
        incoming s = frames ++ incoming s1 ∧
        Hears law (law.vr s.session) (collects.collected s.reassembler) frames (queued events)
          (law.vr s1.session) (collects.collected s1.reassembler) := by
    intro o s1 hr hnone
    rw [hr] at haside hin
    rw [hnone] at hin
    rcases haside.events with ⟨events, htrace, hall⟩
    refine ⟨⟨haside.options ▸ hs.session, haside.session ▸ hs.connected, ?_⟩, events, [], htrace,
      hin, ?_⟩
    · intro f hf
      rw [haside.reassembler] at hf
      exact hs.information f (hin ▸ hf)
    · rw [haside.session, haside.reassembler, queued_of_aside hall]
      exact Hears.nil _ _
  rcases hr : receiveDecodedFrame s with ⟨frame | status | _, s1⟩
  swap
  · rw [receiveTurn, Proc.bind_of_fail _ hr]
    exact hcome hr rfl
  swap
  · rw [receiveTurn, Proc.bind_of_waiting _ hr]
    exact hcome hr rfl
  rw [hr] at haside hin
  rw [receiveTurn, Proc.bind_of_done _ hr, handleFrame_snd]
  have hframes : incoming s = frame :: incoming s1 := hin
  have hkinds : ∀ f ∈ collects.collected s1.reassembler, L.frameKind f.control = .information := by
    intro f hf
    rw [haside.reassembler] at hf
    exact hs.information f (List.mem_append_left _ hf)
  have hkind : L.frameKind frame.control = .information :=
    hs.information frame (List.mem_append_right _ (hframes ▸ List.mem_cons_self))
  have huse : s1.options.hdlcUseSession = true := haside.options ▸ hs.session
  have hσ : L.Connected s1.session := haside.session ▸ hs.connected
  rcases decodeFrame_heard law collects huse hσ hkinds hkind with ⟨hσ', events, htrace, hheard⟩
  rcases haside.events with ⟨before, hbefore, hall⟩
  have hsame := decodeFrame_sameIntake frame s1
  refine ⟨⟨hsame.options ▸ huse, hσ', ?_⟩, before ++ events, [frame], ?_, ?_, ?_⟩
  · intro f hf
    rcases List.mem_append.mp hf with hf | hf
    · have hgathers : Gathers collects s1.options s1 := ⟨rfl, hkinds⟩
      exact (decodeFrame_gathers frame hgathers).information f hf
    · rw [hsame.incoming] at hf
      exact hs.information f (List.mem_append_right _ (hframes ▸ List.mem_cons_of_mem _ hf))
  · rw [htrace, hbefore, List.append_assoc]
  · rw [hsame.incoming]
    exact hframes
  · rw [queued_append, queued_of_aside hall, List.nil_append, ← haside.session,
      ← haside.reassembler]
    exact hheard

/-- The loop in front of both overloads. -/
theorem awaitApdu_heard (law : HdlcSessionLaw L) (collects : HdlcReassemblerLaw L) :
    Proc.Within (Heard law collects) (awaitApdu (L := L)) :=
  PendingQueue.within_await heard_refl heard_trans
    (Proc.within_repeatUntil heard_trans (receiveTurn_heard law collects))

/-- Any number of receive calls. -/
theorem run_heard (law : HdlcSessionLaw L) (collects : HdlcReassemblerLaw L)
    (rs : List ReceiveCall) (s : State L) :
    Heard law collects s (run (rs.map .receive) s).2 := by
  have hcall : ∀ r s, Heard law collects s (exec (.receive r) s).2 := fun r s =>
    PendingQueue.within_call heard_refl heard_trans (awaitApdu_heard law collects)
      (fun s hs => ⟨⟨hs.session, hs.connected, hs.information⟩, [], [], (List.append_nil _).symm,
        rfl, Hears.nil _ _⟩) r s
  refine run_preserves (I := Heard law collects s) (fun op hop t ht => ?_) (heard_refl s)
  rcases List.mem_map.mp hop with ⟨r, -, rfl⟩
  exact heard_trans _ _ _ ht (hcall r t)

end Hdlc

end DlmsProfile
