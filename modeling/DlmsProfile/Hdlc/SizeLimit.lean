import DlmsProfile.Hdlc.Renewal
import DlmsProfile.Termination
import DlmsProfile.Reference.Channels
import DlmsProfile.Reference.Laws

/-!
# How large an APDU may be

In session mode two limits stand in the way of a large APDU. The reassembler
refuses an LPDU longer than the limit it was made with, which the channel sets to
the largest APDU and the three bytes in front of it, or to what the library has if
that is more; and what it lets through is compared with the largest APDU again
once the three bytes are gone.

The sum of the first limit is computed in `size_t`. For the last three values of
the largest APDU it wraps, and what is left is less than any LPDU, so that the
library's own limit decides, which was not asked for.

Frames arrive one after the other, and between two of them there may be any number
of reads and any number of calls that ended without a frame. The verdict on an
APDU is that of the first of its frames that ends a call.

## Main definitions

* `Hdlc.reassemblyLimit`: The limit the reassembler is made with.
* `Hdlc.Arrives`: Frames handed to the channel, and how the first of them that
  ends a call ends it.
* `Hdlc.InSequence`: The frames of an APDU, as a session accepts them.
* `Hdlc.LimitExact`: The APDU is refused as too large exactly if it is.

## Theorems

* `Hdlc.limit_of_reachable`: Every reassembler has that limit.
* `Hdlc.arrives_verdict`: When the frames of an APDU are refused as too large.
* `Hdlc.limit_exact_iff`: When that is the limit asked for.
-/

namespace DlmsProfile

namespace Hdlc

variable {L : HdlcLib}

/-- The limit the reassembler of a channel is made with. -/
def reassemblyLimit (L : HdlcLib) (options : ApduChannelOptions) : Nat :=
  (sessionLimits L options).maximumReassembledInformationSize

/-- The larger of the library's limit and the sum, which may wrap. -/
theorem reassemblyLimit_eq {options : ApduChannelOptions} (h : options.maximumApduSize ≠ 0) :
    reassemblyLimit L options = max L.defaultCodecLimits.maximumReassembledInformationSize
      (sizeAdd options.maximumApduSize 3) := by
  unfold reassemblyLimit sessionLimits
  simp only [if_neg h]
  split
  · next hlt => rw [Nat.max_eq_right (Nat.le_of_lt hlt)]
  · next hge => rw [Nat.max_eq_left (Nat.not_lt.mp hge)]

section Kept

variable (law : HdlcReassemblyLimitLaw L)

/-- The reassembler has the limit that goes with the options, if these make a
    session at all. -/
def LimitKept (s : State L) : Prop :=
  (makeHdlcSessionOptions L s.options).1 = .ok →
    law.limit s.reassembler = reassemblyLimit L s.options

variable {law}

/-- Options and reassembler as they were. -/
theorem LimitKept.congr {s s' : State L} (h : LimitKept law s) (ho : s'.options = s.options)
    (hr : s'.reassembler = s.reassembler) : LimitKept law s' := by
  unfold LimitKept
  rw [ho, hr]
  exact h

theorem limitKept_of_aside {s s' : State L} (h : Aside s s') (hs : LimitKept law s) :
    LimitKept law s' := hs.congr h.options h.reassembler

theorem makeHdlcSessionOptions_limits (L : HdlcLib) (options : ApduChannelOptions) :
    (makeHdlcSessionOptions L options).2.limits = sessionLimits L options := by
  unfold makeHdlcSessionOptions
  simp only
  split <;> rfl

/-- Sending and the link calls make a reassembler anew or leave it alone. -/
theorem limitKept_link : LinkPrimitives (fun s s' : State L => LimitKept law s → LimitKept law s')
    where
  refl _ h := h
  trans _ _ _ h h' hs := h' (h hs)
  sessionReceive frame s hs := by
    rw [sessionReceive_snd]
    exact hs.congr rfl rfl
  writeFrameBytes bytes s := limitKept_of_aside (writeFrameBytes_aside bytes s)
  sleepBeforeRetry s := limitKept_of_aside (sleepBeforeRetry_aside s)
  receiveDecodedFrame s := limitKept_of_aside (receiveDecodedFrame_aside s)
  isOpen s hs := hs.congr rfl rfl
  -- A reassembler made anew has the limit of the options it is made with.
  ensureSession s hs := by
    unfold ensureSession
    simp only
    split
    · exact hs
    split
    · intro _
      rw [(law.new _).2, makeHdlcSessionOptions_limits]
      rfl
    · exact hs
  sessionBuild build s hs := by
    rw [sessionBuild_snd]
    exact hs.congr rfl rfl
  emit before bytes s hs := hs.congr rfl rfl
  limit s n hs := hs.congr rfl rfl

/-- What the channel does with a frame the reassembler let through. -/
theorem acceptCompleted_limitKept (completed : L.Frame) (hasCompleted : Bool) :
    Proc.Preserves (LimitKept law) (acceptCompleted completed hasCompleted) := by
  have hready : Proc.Preserves (LimitKept law) (sendSessionReceiveReady true) :=
    Proc.preserves_bind (limitKept_link.sessionBuild _) fun bytes =>
      limitKept_link.writeFrameBytes bytes
  intro s hs
  have hjudged : LimitKept law (judged completed s) := hs.congr rfl rfl
  -- None of the four ways to deal with a frame touches the reassembler.
  rcases acceptCompleted_cases completed hasCompleted s with
    ⟨-, h⟩ | ⟨-, -, h⟩ | ⟨-, -, -, _, -, h⟩ | ⟨-, -, -, apdu, -, h⟩ <;> rw [h]
  · exact hjudged
  · exact hjudged
  · exact hjudged.congr rfl rfl
  · have hqueued : LimitKept law (queueing completed.information apdu (judged completed s)) :=
      hjudged.congr rfl rfl
    exact hready _ hqueued

theorem decodeFrame_limitKept (frame : L.Frame) :
    Proc.Preserves (LimitKept law) (decodeFrameToPendingApdu frame) := by
  intro s hs
  -- Whatever the reassembler is given, its limit stays.
  have hpushed : LimitKept law (reassembling (L.pushFrame s.reassembler frame).2.2 s) :=
    fun hmake => (law.keeps _ _).trans (hs hmake)
  by_cases huse : s.options.hdlcUseSession = true
  · rcases decodeFrame_cases frame huse with ⟨-, h⟩ | ⟨-, -, h⟩ | ⟨-, h⟩ <;> rw [h]
    · exact hpushed
    · exact fun hmake => (law.reset _).2.trans (hpushed hmake)
    · exact acceptCompleted_limitKept _ _ _ hpushed
  · rcases decodeFrame_plain_cases frame huse with ⟨-, h⟩ | ⟨-, _, -, h⟩ | ⟨-, _, -, h⟩ <;> rw [h]
    · exact hs
    · exact hs.congr rfl rfl
    · exact hs.congr rfl rfl

theorem awaitApdu_limitKept : Proc.Preserves (LimitKept law) (awaitApdu (L := L)) := by
  have hturn : Proc.Preserves (LimitKept law) (receiveTurn (L := L)) :=
    Proc.preserves_bind limitKept_link.receiveDecodedFrame fun frame s hs => by
      rw [handleFrame_snd]
      exact decodeFrame_limitKept frame s hs
  exact PendingQueue.preserves_await (Proc.preserves_repeatUntil hturn)

theorem exec_limitKept (op : Operation) (s : State L) (hs : LimitKept law s) :
    LimitKept law (exec op s).2 := by
  -- By the calls. `Close` resets the reassembler, which keeps its limit.
  cases op with
  | «open» =>
      have hopen : LimitKept law (openStream s).2 := by
        rw [openStream, check_snd]
        exact hs.congr rfl rfl
      exact hopen
  | close =>
      have hclose : LimitKept law (closeStream s).2 := by
        rw [closeStream, check_snd]
        exact fun hmake => (law.reset _).2.trans (hs hmake)
      exact hclose
  | isOpen => exact limitKept_link.isOpen s hs
  | connectDataLink => exact limitKept_link.within_connectDataLink s hs
  | acceptDataLink => exact limitKept_link.within_acceptDataLink s hs
  | disconnectDataLink => exact limitKept_link.within_disconnectDataLink s hs
  | send apdu => exact limitKept_link.within_sendApdu apdu s hs
  | receive call =>
      exact PendingQueue.preserves_call awaitApdu_limitKept (fun _ h => h.congr rfl rfl) call s hs

/-- Every reachable channel whose options make a session has the limit that goes
    with them. -/
theorem limit_of_reachable {options : ApduChannelOptions} {s : State L}
    (h : Reachable L options s) : LimitKept law s := by
  refine h.preserves (fun start hnew hmake => ?_) exec_limitKept
  have hoptions : start.options = options := by
    have hchannel : start.toChannel.options = (newChannel L options).options := by rw [hnew]
    exact hchannel
  have hr : start.reassembler = L.newReassembler (makeHdlcSessionOptions L options).2.limits := by
    have hchannel : start.toChannel.reassembler = (newChannel L options).reassembler := by rw [hnew]
    rw [hoptions] at hmake
    rw [hchannel, newChannel]
    simp only [hmake, if_true]
  rw [hr, (law.new _).2, makeHdlcSessionOptions_limits, hoptions]
  rfl

end Kept

/-- Frames handed to the channel one after the other, with steps to the side in
    front of each: how the first of them that ends a call ends it, or that none
    does. -/
inductive Arrives : State L → List L.Frame → Outcome ProfileStatus Bool → Prop
  | none (s : State L) : Arrives s [] (.done false)
  | ends {s s1 s2 : State L} {frame : L.Frame} {frames : List L.Frame}
    {o : Outcome ProfileStatus Bool} (hbetween : Aside s s1)
    (hframe : handleFrame frame s1 = (o, s2)) (ho : o ≠ .done false) :
    Arrives s (frame :: frames) o
  | goes {s s1 s2 : State L} {frame : L.Frame} {frames : List L.Frame}
    {o : Outcome ProfileStatus Bool} (hbetween : Aside s s1)
    (hframe : handleFrame frame s1 = (.done false, s2)) (hrest : Arrives s2 frames o) :
    Arrives s (frame :: frames) o

/-- Frames can be handed over at once. -/
theorem arrives_exists (s : State L) (frames : List L.Frame) : ∃ o, Arrives s frames o := by
  induction frames generalizing s with
  | nil => exact ⟨_, Arrives.none s⟩
  | cons frame frames ih =>
      rcases hframe : handleFrame frame s with ⟨o, s1⟩
      by_cases ho : o = .done false
      · obtain rfl := ho
        rcases ih s1 with ⟨o, hrest⟩
        exact ⟨o, Arrives.goes (Aside.refl s) hframe hrest⟩
      · exact ⟨o, Arrives.ends (Aside.refl s) hframe ho⟩

section Verdict

variable (law : HdlcReassemblyLimitLaw L)

/-- The information fields of frames, end to end. -/
def payloadOf (frames : List L.Frame) : List UInt8 := frames.flatMap (·.information)

/-- The frames are those of an APDU in an LPDU of three bytes more, and the session
    accepts what they are put together to. -/
structure InSequence (s : State L) (segments : List L.Frame) (last : L.Frame)
    (apdu : List UInt8) : Prop where
  segment : ∀ frame ∈ segments,
    L.frameKind frame.control = .information ∧ frame.segmented = true
  ending : L.frameKind last.control = .information ∧ last.segmented = false
  lpdu : L.decodeLpdu (payloadOf (segments ++ [last])) false = (.ok, apdu)
  size : (payloadOf (segments ++ [last])).length = apdu.length + 3
  accepted : ∀ r, law.collected r = segments →
    (payloadOf (segments ++ [last])).length ≤ law.limit r →
    (L.receiveFrame s.session (L.pushFrame r last).2.1.1).1 = .ok

/-- In the midst of an APDU: some of its segments are collected, and neither the
    session nor the options have changed. -/
structure Midway (s : State L) (before : List L.Frame) (t : State L) : Prop where
  options : t.options = s.options
  session : t.session = s.session
  collected : law.collected t.reassembler = before
  limit : law.limit t.reassembler = law.limit s.reassembler

variable {law} {s t : State L} {before : List L.Frame}

theorem Midway.aside {t1 : State L} (h : Midway law s before t) (hbetween : Aside t t1) :
    Midway law s before t1 :=
  ⟨hbetween.options.trans h.options, hbetween.session.trans h.session,
    by rw [hbetween.reassembler, h.collected], by rw [hbetween.reassembler, h.limit]⟩

/-- With one frame more the reassembler would hold what it holds now and that frame. -/
theorem Midway.size (h : Midway law s before t) (frame : L.Frame) :
    ((law.collected t.reassembler ++ [frame]).flatMap (·.information)).length =
      (payloadOf (before ++ [frame])).length := by
  rw [h.collected, payloadOf]

/-- A frame the reassembler has no room for is refused. -/
theorem handle_tooLarge (huse : s.options.hdlcUseSession = true) (h : Midway law s before t)
    {frame : L.Frame} (hkind : L.frameKind frame.control = .information)
    (hlarge : law.limit s.reassembler < (payloadOf (before ++ [frame])).length) :
    ∃ t1, handleFrame frame t = (.fail .payloadTooLarge, t1) := by
  have huse' : t.options.hdlcUseSession = true := by rw [h.options, huse]
  rw [← h.size frame, ← h.limit] at hlarge
  have hd := decodeFrame_of_error huse' (law.tooLarge hkind hlarge)
    (fun h => by cases h) fun h => by cases h
  exact ⟨_, handleFrame_of_fail hd fun h => by cases h⟩

/-- A segment is collected, or refused as too large. -/
theorem handle_segment (huse : s.options.hdlcUseSession = true) (h : Midway law s before t)
    {frame : L.Frame} (hkind : L.frameKind frame.control = .information)
    (hseg : frame.segmented = true) :
    ((payloadOf (before ++ [frame])).length ≤ law.limit s.reassembler ∧
      ∃ t1, handleFrame frame t = (.done false, t1) ∧ Midway law s (before ++ [frame]) t1) ∨
    (law.limit s.reassembler < (payloadOf (before ++ [frame])).length ∧
      ∃ t1, handleFrame frame t = (.fail .payloadTooLarge, t1)) := by
  -- The reassembler collects what fits, and refuses the first segment that does not.
  by_cases hfits : (payloadOf (before ++ [frame])).length ≤ law.limit s.reassembler
  · refine Or.inl ⟨hfits, ?_⟩
    have huse' : t.options.hdlcUseSession = true := by rw [h.options, huse]
    have hroom := hfits
    rw [← h.size frame, ← h.limit] at hroom
    rcases law.segment hkind hseg hroom with ⟨hmore, hcollected⟩
    have hd := decodeFrame_of_more huse' hmore
    refine ⟨_, handleFrame_of_more hd, h.options, h.session, ?_, ?_⟩
    · exact hcollected.trans (by rw [h.collected])
    · exact (law.keeps _ _).trans h.limit
  · have hlarge := Nat.lt_of_not_le hfits
    exact Or.inr ⟨hlarge, handle_tooLarge huse h hkind hlarge⟩

/-- A write never fails because something is too large. -/
theorem mapTransportStatus_ne_payloadTooLarge (status : TransportStatus) :
    mapTransportStatus status ≠ .payloadTooLarge := by
  cases status <;> simp only [mapTransportStatus, ne_eq, reduceCtorEq, not_false_eq_true]

/-- What can go wrong with an RR of a connected session is its write. -/
theorem sendSessionReceiveReady_outcome (slaw : HdlcSessionLaw L) {t : State L}
    (hσ : L.Connected t.session) :
    (sendSessionReceiveReady true t).1 = .done () ∨
      ∃ status, (sendSessionReceiveReady true t).1 = .fail (mapTransportStatus status) := by
  rw [sendSessionReceiveReady_of_built (slaw.receiveReady true hσ).1]
  by_cases hgoes : mapTransportStatus (t.writes.headD .ok) = .ok
  · exact Or.inl (congrArg Prod.fst (check_done_iff.mpr ⟨hgoes, rfl⟩))
  · exact Or.inr ⟨_, congrArg Prod.fst (check_of_ne hgoes _)⟩

/-- The APDU is larger than the largest asked for. -/
def Oversized (options : ApduChannelOptions) (apdu : List UInt8) : Prop :=
  options.maximumApduSize ≠ 0 ∧ options.maximumApduSize < apdu.length

theorem readInformation_of_oversized {options : ApduChannelOptions} {information apdu : List UInt8}
    (h : L.decodeLpdu information false = (.ok, apdu)) (hover : Oversized options apdu) :
    readInformation L options information = .error .payloadTooLarge := by
  simp only [readInformation, h]
  exact (if_neg (not_not.mpr rfl)).trans (if_pos hover)

theorem readInformation_of_fits {options : ApduChannelOptions} {information apdu : List UInt8}
    (h : L.decodeLpdu information false = (.ok, apdu)) (hfits : ¬ Oversized options apdu) :
    readInformation L options information = .ok apdu := by
  simp only [readInformation, h]
  exact (if_neg (not_not.mpr rfl)).trans (if_neg hfits)

/-- What the channel makes of a whole that the session accepts: it is refused as too large,
    or queued, and then only the RR can fail. -/
theorem acceptCompleted_size (slaw : HdlcSessionLaw L) (unnumbered : HdlcUnnumberedLaw L)
    {completed : L.Frame} {apdu : List UInt8} (hσ : L.Connected t.session)
    (haccepted : (L.receiveFrame t.session completed).1 = .ok) (hne : completed.information ≠ [])
    (hlpdu : L.decodeLpdu completed.information false = (.ok, apdu)) :
    (Oversized t.options apdu ∧
      ∃ t1, acceptCompleted completed true t = (.fail .payloadTooLarge, t1)) ∨
    (¬ Oversized t.options apdu ∧
      ((∃ t1, acceptCompleted completed true t = (.done (), t1) ∧ t1.pendingApdus ≠ []) ∨
        ∃ status t1, acceptCompleted completed true t =
          (.fail (mapTransportStatus status), t1))) := by
  rcases acceptCompleted_cases completed true t with
    ⟨hnot, -⟩ | ⟨-, hnothing, -⟩ | ⟨-, -, -, status, herror, h⟩ | ⟨-, -, -, got, hgot, h⟩
  · exact absurd haccepted hnot
  · rcases hnothing with hnothing | hnothing
    · cases hnothing
    · exact absurd hnothing hne
  · -- An LPDU that decodes is refused for its size only.
    have hover : Oversized t.options apdu := by
      by_contra hfits
      rw [readInformation_of_fits hlpdu hfits] at herror
      cases herror
    rw [readInformation_of_oversized hlpdu hover] at herror
    obtain rfl := Except.error.inj herror
    exact Or.inl ⟨hover, _, h⟩
  · have hunder : ¬ Oversized t.options apdu := by
      intro hover
      rw [readInformation_of_oversized hlpdu hover] at hgot
      cases hgot
    refine Or.inr ⟨hunder, ?_⟩
    let queued := queueing completed.information got (judged completed t)
    have hconnected : L.Connected queued.session :=
      (unnumbered.accepted slaw hσ (Prod.ext haccepted rfl)).1
    have hapdus : (sendSessionReceiveReady true queued).2.pendingApdus =
        t.pendingApdus ++ [got] := sendSessionReceiveReady_apdus true queued
    rw [h]
    rcases sendSessionReceiveReady_outcome slaw hconnected with hdone | ⟨status, hfail⟩
    · refine Or.inl ⟨_, Prod.ext hdone rfl, ?_⟩
      rw [hapdus]
      exact List.append_ne_nil_of_right_ne_nil _ (List.cons_ne_nil _ _)
    · exact Or.inr ⟨status, _, Prod.ext hfail rfl⟩

/-- The last frame completes the APDU, and the channel has its own say on it. -/
theorem handle_last (slaw : HdlcSessionLaw L) (unnumbered : HdlcUnnumberedLaw L)
    (huse : s.options.hdlcUseSession = true) (hσ : L.Connected s.session) {segments : List L.Frame}
    {last : L.Frame} {apdu : List UInt8} (hs : InSequence law s segments last apdu)
    (h : Midway law s segments t) :
    (handleFrame last t).1 ≠ .done false ∧
      ((handleFrame last t).1 = .fail .payloadTooLarge ↔ Oversized s.options apdu ∨
        law.limit s.reassembler < (payloadOf (segments ++ [last])).length) := by
  by_cases hfits : (payloadOf (segments ++ [last])).length ≤ law.limit s.reassembler
  swap
  · -- The reassembler refuses it.
    have hlarge := Nat.lt_of_not_le hfits
    rcases handle_tooLarge huse h hs.ending.1 hlarge with ⟨t1, hframe⟩
    rw [hframe]
    exact ⟨(fun h => by cases h), iff_of_true rfl (Or.inr hlarge)⟩
  rw [or_iff_left (Nat.not_lt.mpr hfits)]
  have huse' : t.options.hdlcUseSession = true := by rw [h.options, huse]
  have hroom := hfits
  rw [← h.size last, ← h.limit] at hroom
  rcases law.last hs.ending.1 hs.ending.2 hroom with ⟨hok, hcompleted, hinformation⟩
  rw [h.collected] at hinformation
  have haccepted : (L.receiveFrame t.session (L.pushFrame t.reassembler last).2.1.1).1 = .ok := by
    rw [h.session]
    exact hs.accepted _ h.collected (by rw [h.limit]; exact hfits)
  have hne : (L.pushFrame t.reassembler last).2.1.1.information ≠ [] := by
    intro hnil
    have hsize := hs.size
    rw [payloadOf, ← hinformation, hnil, List.length_nil] at hsize
    omega
  have hlpdu := hs.lpdu
  rw [payloadOf, ← hinformation] at hlpdu
  have hpushed : L.Connected
      (reassembling (L.pushFrame t.reassembler last).2.2 t).session := by
    have hsame : (reassembling (L.pushFrame t.reassembler last).2.2 t).session = s.session :=
      h.session
    rw [hsame]
    exact hσ
  have hd := decodeFrame_of_ok huse' hok
  rw [hcompleted] at hd
  have hover : Oversized (reassembling (L.pushFrame t.reassembler last).2.2 t).options apdu ↔
      Oversized s.options apdu := by
    have hsame : (reassembling (L.pushFrame t.reassembler last).2.2 t).options = s.options :=
      h.options
    rw [hsame]
  rcases acceptCompleted_size slaw unnumbered hpushed haccepted hne hlpdu with
    ⟨hsize, t1, ha⟩ | ⟨hsize, ⟨t1, ha, hqueue⟩ | ⟨status, t1, ha⟩⟩ <;> rw [hover] at hsize
  · rw [handleFrame_of_fail (hd.trans ha) fun h => by cases h]
    exact ⟨(fun h => by cases h), iff_of_true rfl hsize⟩
  · -- It is queued, so the call comes to its end.
    rw [handleFrame_of_done (hd.trans ha), iff_false_right hsize]
    refine ⟨fun h => ?_, fun h => by cases h⟩
    injection h with h
    rw [Bool.not_eq_false', List.isEmpty_iff] at h
    exact hqueue h
  · rw [handleFrame_of_fail (hd.trans ha) (mapTransportStatus_ne_needMoreData status),
      iff_false_right hsize]
    refine ⟨(fun h => by cases h), fun h => ?_⟩
    injection h with h
    exact mapTransportStatus_ne_payloadTooLarge status h

/-- What the frames of an APDU come to: the first of them that ends a call says
    that it is too large exactly if the channel or the reassembler finds it so. -/
theorem arrives_verdict (slaw : HdlcSessionLaw L) (unnumbered : HdlcUnnumberedLaw L)
    (huse : s.options.hdlcUseSession = true) (hσ : L.Connected s.session) {segments : List L.Frame}
    {last : L.Frame} {apdu : List UInt8} (hs : InSequence law s segments last apdu)
    {rest : List L.Frame} (hrest : before ++ rest = segments) (h : Midway law s before t)
    {o : Outcome ProfileStatus Bool} (ho : Arrives t (rest ++ [last]) o) :
    o ≠ .done false ∧ (o = .fail .payloadTooLarge ↔ Oversized s.options apdu ∨
      law.limit s.reassembler < (payloadOf (segments ++ [last])).length) := by
  induction rest generalizing before t with
  | nil =>
      rw [List.append_nil] at hrest
      subst hrest
      rw [List.nil_append] at ho
      cases ho with
      | @ends _ s1 s2 _ _ _ hbetween hframe hends =>
          have hlast := handle_last slaw unnumbered huse hσ hs (h.aside hbetween)
          rw [hframe] at hlast
          exact hlast
      | @goes _ s1 s2 _ _ _ hbetween hframe hmore =>
          have hlast := handle_last slaw unnumbered huse hσ hs (h.aside hbetween)
          rw [hframe] at hlast
          exact absurd rfl hlast.1
  | cons frame rest ih =>
      have hmem : frame ∈ segments := by
        rw [← hrest]
        exact List.mem_append_right _ (List.mem_cons_self ..)
      have hsegment := hs.segment frame hmem
      have hagain : before ++ [frame] ++ rest = segments := by
        rw [List.append_assoc, List.singleton_append, hrest]
      -- What is refused now would have been too large in the end.
      have hprefix : (payloadOf (before ++ [frame])).length ≤
          (payloadOf (segments ++ [last])).length := by
        rw [← hagain]
        simp only [payloadOf, List.flatMap_append, List.length_append]
        omega
      cases ho with
      | @ends _ s1 s2 _ _ _ hbetween hframe hends =>
          rcases handle_segment huse (h.aside hbetween) hsegment.1 hsegment.2 with
            ⟨-, t1, hcollected, -⟩ | ⟨hlarge, t1, hrefused⟩
          · exact absurd (congrArg Prod.fst (hframe.symm.trans hcollected)) hends
          · have houtcome : o = .fail .payloadTooLarge :=
              congrArg Prod.fst (hframe.symm.trans hrefused)
            subst houtcome
            exact ⟨hends, iff_of_true rfl (Or.inr (by omega))⟩
      | @goes _ s1 s2 _ _ _ hbetween hframe hmore =>
          rcases handle_segment huse (h.aside hbetween) hsegment.1 hsegment.2 with
            ⟨-, t1, hcollected, hmidway⟩ | ⟨-, t1, hrefused⟩
          · obtain rfl : s2 = t1 := congrArg Prod.snd (hframe.symm.trans hcollected)
            exact ih hagain hmidway hmore
          · cases congrArg Prod.fst (hframe.symm.trans hrefused)

end Verdict

/-- Frames in the queue arrive without a read, and one of them that ends a call ends
    the one that takes them. -/
theorem arrives_of_queue (frames : List L.Frame) (s : State L)
    (hqueue : s.pendingHdlcFrames = frames) :
    ∃ o, Arrives s frames o ∧ (o ≠ .done false →
      ((receiveNextApdu s).1 = .fail .payloadTooLarge ↔ o = .fail .payloadTooLarge)) := by
  -- On the frames in hand, each of which is one turn of the loop.
  induction frames generalizing s with
  | nil => exact ⟨_, Arrives.none s, fun h => absurd rfl h⟩
  | cons frame frames ih =>
      have hread := receiveDecodedFrame_of_pending hqueue
      have hbetween : Aside s { s with pendingHdlcFrames := frames } :=
        ⟨rfl, rfl, rfl, rfl, [], (List.append_nil _).symm, fun _ h => absurd h List.not_mem_nil⟩
      have hturn : receiveTurn s = handleFrame frame { s with pendingHdlcFrames := frames } :=
        Proc.bind_of_done _ hread
      rcases hframe : handleFrame frame { s with pendingHdlcFrames := frames } with
        ⟨(_ | _) | status | _, s1⟩
      · have hleft : s1.pendingHdlcFrames = frames := by
          have hintake := decodeFrame_sameIntake frame { s with pendingHdlcFrames := frames }
          rw [← handleFrame_snd, hframe] at hintake
          exact hintake.frames
        rcases ih s1 hleft with ⟨o, harrives, ho⟩
        refine ⟨o, Arrives.goes hbetween hframe harrives, fun hends => ?_⟩
        rw [receiveNextApdu, Proc.repeatUntil_of_false (hturn.trans hframe)]
        exact ho hends
      · refine ⟨_, Arrives.ends hbetween hframe (fun h => by cases h), fun _ => ?_⟩
        rw [receiveNextApdu, Proc.repeatUntil_of_true (hturn.trans hframe)]
        exact iff_of_false (fun h => by cases h) (fun h => by cases h)
      · refine ⟨_, Arrives.ends hbetween hframe (fun h => by cases h), fun _ => ?_⟩
        rw [receiveNextApdu, Proc.repeatUntil_of_fail (hturn.trans hframe)]
        simp only [Outcome.fail.injEq]
      · exact absurd (congrArg Prod.fst hframe) (handleFrame_ne_waiting frame _)

/-- A call of `ReceiveApdu` with nothing pending fails as the loop does. -/
theorem receiveApdu_fail_iff {s : State L} (hnone : s.pendingApdus = []) {status : ProfileStatus} :
    (receiveApdu s).1 = .fail status ↔ (receiveNextApdu s).1 = .fail status := by
  have hawait : receiveApdu s = pending.receiveVector awaitApdu s := rfl
  rw [hawait, ← awaitApdu_of_empty hnone]
  rcases hr : awaitApdu s with ⟨⟨⟩ | st | _, s1⟩
  · rw [PendingQueue.receiveVector_of_done hr]
    exact iff_of_false (fun h => by cases h) (fun h => by cases h)
  · rw [PendingQueue.receiveVector_of_fail hr]
    simp only [Outcome.fail.injEq]
  · rw [PendingQueue.receiveVector_of_waiting hr]
    exact iff_of_false (fun h => by cases h) (fun h => by cases h)

/-- The frames of an APDU are refused as too large if the APDU is larger than the
    largest, and never if it is not; and so says a call that finds them all in the
    queue. -/
def LimitExact (s : State L) (frames : List L.Frame) (apdu : List UInt8) : Prop :=
  (∀ o, Arrives s frames o →
    (o = .fail .payloadTooLarge ↔ s.options.maximumApduSize < apdu.length)) ∧
  (s.pendingHdlcFrames = frames → s.pendingApdus = [] →
    ((receiveApdu s).1 = .fail .payloadTooLarge ↔ s.options.maximumApduSize < apdu.length))

/-- A reachable channel in session mode, its link up and nothing collected, gets
    the frames of an APDU in sequence. It refuses the APDU as too large exactly if
    it is larger than the largest, unless the sum of the largest and the three
    bytes in front wraps: then an APDU that the library's own limit has no room for
    is refused, too. -/
theorem limit_exact_iff (slaw : HdlcSessionLaw L) (unnumbered : HdlcUnnumberedLaw L)
    (law : HdlcReassemblyLimitLaw L) {options : ApduChannelOptions} {s : State L}
    (hs : Reachable L options s) (huse : s.options.hdlcUseSession = true)
    (hmake : (makeHdlcSessionOptions L s.options).1 = .ok) (hσ : L.Connected s.session)
    (hnothing : law.collected s.reassembler = []) (hlimited : s.options.maximumApduSize ≠ 0)
    (hsize : s.options.maximumApduSize < 2 ^ 64) {segments : List L.Frame} {last : L.Frame}
    {apdu : List UInt8} (hseq : InSequence law s segments last apdu) :
    LimitExact s (segments ++ [last]) apdu ↔
      (s.options.maximumApduSize < apdu.length ∨ s.options.maximumApduSize + 3 < 2 ^ 64 ∨
        apdu.length + 3 ≤ L.defaultCodecLimits.maximumReassembledInformationSize) := by
  have hlimit : law.limit s.reassembler = reassemblyLimit L s.options := limit_of_reachable hs hmake
  rw [reassemblyLimit_eq hlimited] at hlimit
  have hstart : Midway law s [] s := ⟨rfl, rfl, hnothing, rfl⟩
  have hverdict : ∀ {o}, Arrives s (segments ++ [last]) o → o ≠ .done false ∧
      (o = .fail .payloadTooLarge ↔ s.options.maximumApduSize < apdu.length ∨
        max L.defaultCodecLimits.maximumReassembledInformationSize
          (sizeAdd s.options.maximumApduSize 3) < apdu.length + 3) := by
    intro o ho
    have h := arrives_verdict slaw unnumbered huse hσ hseq (List.nil_append segments) hstart ho
    rw [hlimit, hseq.size, Oversized] at h
    exact ⟨h.1, h.2.trans (or_congr_left (and_iff_right hlimited))⟩
  -- The two limits agree unless the sum wraps.
  have hagree : ((s.options.maximumApduSize < apdu.length ∨
        max L.defaultCodecLimits.maximumReassembledInformationSize
          (sizeAdd s.options.maximumApduSize 3) < apdu.length + 3) ↔
      s.options.maximumApduSize < apdu.length) ↔
      (s.options.maximumApduSize < apdu.length ∨ s.options.maximumApduSize + 3 < 2 ^ 64 ∨
        apdu.length + 3 ≤ L.defaultCodecLimits.maximumReassembledInformationSize) := by
    unfold sizeAdd
    by_cases hwrap : s.options.maximumApduSize + 3 < 2 ^ 64
    · rw [Nat.mod_eq_of_lt hwrap]
      omega
    · omega
  rw [← hagree]
  constructor
  · rintro ⟨hall, -⟩
    rcases arrives_exists s (segments ++ [last]) with ⟨o, ho⟩
    exact (hverdict ho).2.symm.trans (hall o ho)
  · intro hexact
    refine ⟨fun o ho => (hverdict ho).2.trans hexact, fun hqueue hnone => ?_⟩
    rcases arrives_of_queue (segments ++ [last]) s hqueue with ⟨o, ho, hcall⟩
    rw [receiveApdu_fail_iff hnone, hcall (hverdict ho).1]
    exact (hverdict ho).2.trans hexact

/-- An I-frame with a whole APDU in it. -/
def wholeFrame (apdu : List UInt8) : Reference.limitedLib.Frame :=
  (⟨false, 0x21, 0x03, 0x10, [0xE6, 0xE7, 0x00] ++ apdu⟩ : Reference.Frame)

/-- A client whose transport has an UA and the I-frame for it. -/
def unconnected (largest : Nat) (apdu : List UInt8) : State Reference.limitedLib :=
  Reference.channelOver Reference.limitedLib
    { Reference.sessionOptions with maximumApduSize := largest }
    [Reference.arrived (Reference.toClient Reference.ua [] ++
      Reference.frameBytes (wholeFrame apdu))]

/-- The same once its link is made, the I-frame in its queue. -/
def receiver (largest : Nat) (apdu : List UInt8) : State Reference.limitedLib :=
  (connectDataLink (unconnected largest apdu)).2

/-- An APDU of three bytes, the largest having five. -/
theorem limit_exact_five :
    let s := receiver 5 [0xC4, 0x01, 0x00]
    LimitExact s ([] ++ [wholeFrame [0xC4, 0x01, 0x00]]) [0xC4, 0x01, 0x00] ↔
      (s.options.maximumApduSize < 3 ∨ s.options.maximumApduSize + 3 < 2 ^ 64 ∨
        3 + 3 ≤ Reference.limitedLib.defaultCodecLimits.maximumReassembledInformationSize) := by
  -- What the reassembler completes is the frame itself.
  have hwhole : (Reference.receiveFrame (receiver 5 [0xC4, 0x01, 0x00]).session
      (wholeFrame [0xC4, 0x01, 0x00])).1 = .ok := by decide +kernel
  have haccepted : ∀ r : Reference.LimitedReassembler, r.collected = [] → 6 ≤ r.limit →
      (Reference.receiveFrame (receiver 5 [0xC4, 0x01, 0x00]).session
        (Reference.pushLimited r (wholeFrame [0xC4, 0x01, 0x00])).2.1.1).1 = .ok := by
    rintro ⟨⟨collected⟩, limit⟩ hnone hfits
    obtain rfl : collected = [] := hnone
    have hpush := @Reference.pushLimited_fits ⟨⟨[]⟩, limit⟩ (wholeFrame [0xC4, 0x01, 0x00]) hfits
    rw [hpush]
    exact hwhole
  have hseq : InSequence Reference.reassemblyLimitLaw (receiver 5 [0xC4, 0x01, 0x00]) []
      (wholeFrame [0xC4, 0x01, 0x00]) [0xC4, 0x01, 0x00] :=
    ⟨(fun _ h => absurd h List.not_mem_nil), by decide +kernel, by decide +kernel,
      by decide +kernel, haccepted⟩
  have hreached : Reachable Reference.limitedLib
      { Reference.sessionOptions with maximumApduSize := 5 } (receiver 5 [0xC4, 0x01, 0x00]) :=
    ⟨unconnected 5 [0xC4, 0x01, 0x00], [.connectDataLink], rfl, rfl,
      congrArg Prod.snd (run_one _ _)⟩
  exact limit_exact_iff Reference.limitedSessionLaw Reference.limitedUnnumberedLaw
    Reference.reassemblyLimitLaw hreached (by decide +kernel) (by decide +kernel)
    (by decide +kernel) (by decide +kernel) (by decide +kernel) (by decide +kernel) hseq

/-- With the largest APDU unlimited in all but name, one of six bytes is refused as
    too large; with six bytes for the largest, it is received. -/
theorem limit_exact_refuted :
    let apdu : List UInt8 := [0xC4, 0x01, 0xC1, 0x00, 0x01, 0x00]
    let s := receiver (2 ^ 64 - 1) apdu
    s.options.maximumApduSize = 2 ^ 64 - 1 ∧ s.pendingHdlcFrames = [wholeFrame apdu] ∧
      s.pendingApdus = [] ∧
      (receiveApdu s).1 = .fail .payloadTooLarge ∧
      ¬ LimitExact s [wholeFrame apdu] apdu ∧
      (receiveApdu (receiver 6 apdu)).1 = .done apdu := by
  have hqueue : (receiver (2 ^ 64 - 1) [0xC4, 0x01, 0xC1, 0x00, 0x01, 0x00]).pendingHdlcFrames =
      [wholeFrame [0xC4, 0x01, 0xC1, 0x00, 0x01, 0x00]] := by decide +kernel
  have hnone : (receiver (2 ^ 64 - 1) [0xC4, 0x01, 0xC1, 0x00, 0x01, 0x00]).pendingApdus = [] := by
    decide +kernel
  have hrefused : (receiveApdu (receiver (2 ^ 64 - 1) [0xC4, 0x01, 0xC1, 0x00, 0x01, 0x00])).1 =
      .fail .payloadTooLarge := by decide +kernel
  refine ⟨by decide +kernel, hqueue, hnone, hrefused, fun hexact => ?_, by decide +kernel⟩
  exact absurd ((hexact.2 hqueue hnone).mp hrefused) (by decide +kernel)

end Hdlc

end DlmsProfile
