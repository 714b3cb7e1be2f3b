import DlmsProfile.Hdlc.Link
import DlmsProfile.Hdlc.Throwing

/-!
# Which Calls copy a Frame outside a Handler

Every frame the HDLC channel takes is copied, and no handler encloses the copy. So
a call may be left by an exception if it comes to take a frame, and as nothing
outside a handler is before the first frame, that can be told by the state before
the call: by the queue of frames, by what the reads to come lead to, and by the
conditions under which the call waits for a frame at all.

A wait with retries may end several attempts without a frame. An attempt that took
none has moved on in the reads, and the next follows if its status is worth a
retry and the sleep and the write in between go well.

If only some of the copies can go wrong, a call may get past its first frame, and
what it does then is not told here. That it is exposed by its first frame is.

## Main definitions

* `Hdlc.leadOf`: What the reads to come lead to.
* `Hdlc.CopiesFrame`, `Hdlc.CopiesWithin`: Taking a frame copies one that may throw.
* `Hdlc.Exposed`: The same of a call.

## Theorems

* `Hdlc.Throwing.exposes_receiveDecodedFrame`: Taking a frame exposes its copies.
* `Hdlc.Throwing.covers_call`: The copies of APDUs are not exposed.
* `Hdlc.Throwing.toldBy_call`: What is exposed is told by the state before.
-/

namespace DlmsProfile

open Proc

namespace Hdlc

variable {L : HdlcLib}

/-- What reads lead to that are decoded until there is a frame: to nothing, if they
    end before, to a failure, after which the others are left, or to the frames of a
    push. -/
inductive Lead (L : HdlcLib) where
  | nothing
  | failure (status : ProfileStatus) (decoder : L.Decoder) (reads : List ReadEvent)
  | frames (frame : L.Frame) (frames : List L.Frame)

/-- What the reads to come lead to. -/
def leadOf (L : HdlcLib) : L.Decoder → List ReadEvent → Lead L
  | _, [] => .nothing
  | decoder, e :: rest =>
    let pushed := L.push decoder e.bytes
    if e.status ≠ .ok then .failure (mapTransportStatus e.status) decoder rest
    else if e.bytes = [] then .failure .needMoreData decoder rest
    else if mapHdlcStatus pushed.1 = .ok then
      match pushed.2.1 with
      | [] => .failure .needMoreData pushed.2.2 rest
      | frame :: frames => .frames frame frames
    else if mapHdlcStatus pushed.1 = .needMoreData then leadOf L pushed.2.2 rest
    else .failure (mapHdlcStatus pushed.1) (L.resetDecoder pushed.2.2) rest

/-- Handing out the first frame of a push copies a frame that may throw. -/
def Lead.Copies (may : Site → Bool) : Lead L → Prop
  | .frames _ others => (others ≠ [] ∧ may .pushedFrame = true) ∨ may .firstFrame = true
  | _ => False

/-- Taking the next frame copies a frame that may throw. -/
def CopiesFrame (may : Site → Bool) (s : State L) : Prop :=
  match s.pendingHdlcFrames with
  | _ :: _ => may .frontFrame = true
  | [] => s.readBufferSize ≠ 0 ∧ (leadOf L s.decoder s.reads).Copies may

/-- What is done between two attempts goes well. -/
def Rests (s : State L) : Prop :=
  (s.options.hdlcRetryDelayMilliseconds = 0 ∨ s.sleeps.headD .ok = .ok) ∧
    s.writes.headD .ok = .ok

/-- What it leaves to come. -/
def rested (s : State L) : State L :=
  { s with
    sleeps := if s.options.hdlcRetryDelayMilliseconds = 0 then s.sleeps else s.sleeps.tail
    writes := s.writes.tail }

/-- A wait with so many retries left copies a frame that may throw. -/
def CopiesWithin (may : Site → Bool) : Nat → State L → Prop
  | 0, s => CopiesFrame may s
  | left + 1, s => CopiesFrame may s ∨
    -- Or the attempt takes no frame and is worth a retry.
    (s.pendingHdlcFrames = [] ∧ s.readBufferSize ≠ 0 ∧
      ∃ status decoder reads, leadOf L s.decoder s.reads = .failure status decoder reads ∧
        isRetriableReceiveStatus status = true ∧
        Rests s ∧ CopiesWithin may left (rested { s with decoder := decoder, reads := reads }))

/-- A frame is written, and the wait for its reply copies a frame that may throw. -/
def CopiesReply (may : Site → Bool) (s : State L) : Prop :=
  s.writes.headD .ok = .ok ∧
    CopiesWithin may s.options.hdlcRetryCount.toNat { s with writes := s.writes.tail }

/-- `ConnectDataLink` and `AcceptDataLink` get as far as `EnsureSession` and past it. -/
def Establishes (role : HdlcProfileRole) (s : State L) : Prop :=
  s.options.hdlcUseSession = true ∧ s.isOpens.headD true = true ∧
    (s.options.hdlcRole == role) = true ∧ (makeHdlcSessionOptions L s.options).1 = .ok

/-- The state behind `EnsureSession`. -/
def ensured (s : State L) : State L := (ensureSession (asked s)).2

/-- Something may throw outside every handler: the call comes to wait for a frame, and
    takes one whose copy may throw. -/
def Exposed (may : Site → Bool) (op : Operation) (s : State L) : Prop :=
  match op with
  | .open => False
  | .close => False
  | .isOpen => False
  | .connectDataLink =>
    Establishes .client s ∧ (L.buildConnectRequest (ensured s).session).1 = .ok ∧
      CopiesReply may (ensured s)
  | .acceptDataLink => Establishes .server s ∧ CopiesFrame may (ensured s)
  | .disconnectDataLink =>
    s.options.hdlcUseSession = true ∧ s.isOpens.headD true = true ∧
      (L.buildDisconnectRequest s.session).1 = .ok ∧ CopiesReply may s
  | .send apdu =>
    s.options.hdlcUseSession = true ∧ ¬ Refused s apdu ∧ framesToSend s apdu ≠ 0 ∧
      -- The wait for the window, or the one for the reply to the first I-frame.
      if L.canSendInformationFrame s.session = true then
        BuildsFrame ((lpduOf s apdu).take (chunkSizeOf s apdu)) (framesToSend s apdu == 1)
          (limited s) ∧ CopiesReply may s
      else CopiesFrame may s
  | .receive call => PendingQueue.Accepts call ∧ s.pendingApdus = [] ∧ CopiesFrame may s

/-- Whether a frame is copied depends on the intake only. -/
theorem SameIntake.copiesFrame {s s' : State L} (h : SameIntake s s') (may : Site → Bool) :
    CopiesFrame may s' ↔ CopiesFrame may s := by
  rw [CopiesFrame, CopiesFrame, h.frames, h.buffer, h.decoder, h.reads]

/-- And in a wait with retries on what is to become of the sleeps and the writes. -/
theorem SameIntake.copiesWithin {s s' : State L} (h : SameIntake s s')
    (hsleeps : s'.sleeps = s.sleeps) (hwrites : s'.writes = s.writes) (may : Site → Bool)
    (left : Nat) : CopiesWithin may left s' ↔ CopiesWithin may left s := by
  -- By induction on the retries left; a rested state agrees again.
  induction left generalizing s s' with
  | zero => exact h.copiesFrame may
  | succ left ih =>
      have hrests : Rests s' ↔ Rests s := by rw [Rests, Rests, h.options, hsleeps, hwrites]
      have hrested : ∀ decoder reads,
          CopiesWithin may left (rested { s' with decoder := decoder, reads := reads }) ↔
            CopiesWithin may left (rested { s with decoder := decoder, reads := reads }) := by
        intro decoder reads
        refine ih ⟨h.options, h.buffer, rfl, h.frames, rfl⟩ ?_ ?_
        · simp only [rested, h.options, hsleeps]
        · exact congrArg List.tail hwrites
      simp only [CopiesWithin, hrests, hrested]
      rw [h.copiesFrame may, h.frames, h.buffer, h.decoder, h.reads]

theorem SameIntake.copiesReply {s s' : State L} (h : SameIntake s s')
    (hsleeps : s'.sleeps = s.sleeps) (hwrites : s'.writes = s.writes) (may : Site → Bool) :
    CopiesReply may s' ↔ CopiesReply may s := by
  have hwithin : SameIntake { s with writes := s.writes.tail }
      { s' with writes := s'.writes.tail } :=
    ⟨h.options, h.buffer, h.decoder, h.frames, h.reads⟩
  rw [CopiesReply, CopiesReply, h.options]
  exact and_congr (by rw [hwrites])
    (hwithin.copiesWithin hsleeps (congrArg List.tail hwrites) may _)

/-- The loop comes to what the reads lead to. -/
theorem loop_leads (reads : List ReadEvent) (s : State L) :
    match leadOf L s.decoder reads with
    | .nothing => (receiveDecodedFrameLoop reads s).1 = .waiting
    | .failure status decoder rest => ∃ trace, receiveDecodedFrameLoop reads s =
        (.fail status, { s with decoder := decoder, reads := rest, trace := trace })
    | .frames frame _ => ∃ s', receiveDecodedFrameLoop reads s = (.done frame, s') := by
  -- The branches of `leadOf` are those of the loop, in the same order.
  induction reads generalizing s with
  | nil => rfl
  | cons e rest ih =>
      rw [leadOf]
      by_cases hok : e.status = .ok
      swap
      · rw [if_pos hok, loop_readFailed hok]
        exact ⟨_, rfl⟩
      rw [if_neg (not_not.mpr hok)]
      by_cases he : e.bytes = []
      · rw [if_pos he, loop_readEmpty hok he]
        exact ⟨_, rfl⟩
      rw [if_neg he]
      by_cases hst : mapHdlcStatus (L.push s.decoder e.bytes).1 = .ok
      · rw [if_pos hst]
        rcases hf : (L.push s.decoder e.bytes).2.1 with _ | ⟨frame, frames⟩
        · rw [loop_noFrame hok he hst hf]
          exact ⟨_, rfl⟩
        · rw [loop_completed hok he hst hf]
          exact ⟨_, rfl⟩
      rw [if_neg hst]
      by_cases hm : mapHdlcStatus (L.push s.decoder e.bytes).1 = .needMoreData
      · rw [if_pos hm, loop_continued hok he hm]
        exact ih { afterRead e rest s with decoder := (L.push s.decoder e.bytes).2.2 }
      · rw [if_neg hm, loop_rejected hok he hst hm]
        exact ⟨_, rfl⟩

/-- A frame that is handed out was copied. -/
theorem copiesFrame_of_done {s s' : State L} {frame : L.Frame}
    (h : receiveDecodedFrame s = (.done frame, s')) : CopiesFrame anywhere s := by
  rw [CopiesFrame]
  rcases hp : s.pendingHdlcFrames with _ | ⟨front, frames⟩
  swap
  · rfl
  by_cases hb : s.readBufferSize = 0
  · rw [receiveDecodedFrame_of_noBuffer hp hb] at h
    cases h
  · have hleads := loop_leads s.reads s
    rw [receiveDecodedFrame_of_empty hp hb] at h
    refine ⟨hb, ?_⟩
    -- A call that yields a frame had one to copy: the lead is neither a failure nor nothing.
    rcases hlead : leadOf L s.decoder s.reads with
      _ | ⟨status, decoder, reads⟩ | ⟨first, others⟩ <;> rw [hlead] at hleads
    · cases (congrArg Prod.fst h).symm.trans hleads
    · rcases hleads with ⟨trace, hleads⟩
      cases h.symm.trans hleads
    · exact Or.inr rfl

/-- An attempt that failed without a frame, and is worth a retry. -/
theorem leadOf_of_fail {s s' : State L} {status : ProfileStatus}
    (h : receiveDecodedFrame s = (.fail status, s'))
    (hagain : isRetriableReceiveStatus status = true) :
    s.pendingHdlcFrames = [] ∧ s.readBufferSize ≠ 0 ∧
      ∃ decoder reads trace, leadOf L s.decoder s.reads = .failure status decoder reads ∧
        s' = { s with decoder := decoder, reads := reads, trace := trace } := by
  by_cases hp : s.pendingHdlcFrames = []
  swap
  · rcases List.exists_cons_of_ne_nil hp with ⟨front, frames, hp⟩
    rw [receiveDecodedFrame_of_pending hp] at h
    cases h
  by_cases hb : s.readBufferSize = 0
  · rw [receiveDecodedFrame_of_noBuffer hp hb] at h
    cases h
    -- An empty buffer is an invalid argument, which is not retried.
    cases hagain
  · have hleads := loop_leads s.reads s
    rw [receiveDecodedFrame_of_empty hp hb] at h
    refine ⟨hp, hb, ?_⟩
    -- The failing lead leaves the same decoder and reads as the call.
    rcases hlead : leadOf L s.decoder s.reads with
      _ | ⟨status', decoder, reads⟩ | ⟨first, others⟩ <;> rw [hlead] at hleads
    · cases (congrArg Prod.fst h).symm.trans hleads
    · rcases hleads with ⟨trace, hleads⟩
      obtain ⟨hstatus, rfl⟩ := Prod.mk.inj (h.symm.trans hleads)
      obtain rfl := Outcome.fail.inj hstatus
      exact ⟨decoder, reads, trace, rfl, rfl⟩
    · rcases hleads with ⟨s1, hleads⟩
      cases h.symm.trans hleads

/-- An attempt whose reads lead to a failure. -/
theorem receiveDecodedFrame_of_failure {s : State L} {status : ProfileStatus}
    {decoder : L.Decoder} {reads : List ReadEvent} (hp : s.pendingHdlcFrames = [])
    (hb : s.readBufferSize ≠ 0)
    (hlead : leadOf L s.decoder s.reads = .failure status decoder reads) :
    ∃ trace, receiveDecodedFrame s =
      (.fail status, { s with decoder := decoder, reads := reads, trace := trace }) := by
  have hleads := loop_leads s.reads s
  rw [hlead] at hleads
  rwa [receiveDecodedFrame_of_empty hp hb]

/-- What is done between two attempts, if it goes well. -/
theorem beforeRetry_of_rests {s : State L} (bytes : List UInt8) (h : Rests s) :
    ∃ trace, beforeRetry bytes s = (.done (), { rested s with trace := trace }) := by
  rcases h with ⟨hsleeps, hwrites⟩
  -- The write takes one status off the script, and it is Ok.
  have hwritten : ∀ t : State L, t.writes = s.writes →
      writeFrameBytes bytes t = (.done (), { t with
        writes := t.writes.tail
        trace := t.trace ++ [.transport (.write bytes .ok)] }) := by
    intro t ht
    rw [writeFrameBytes, ht, hwrites]
    rfl
  by_cases hdelay : s.options.hdlcRetryDelayMilliseconds = 0
  · have hslept : sleepBeforeRetry s = (.done (), s) := if_pos hdelay
    rw [beforeRetry, bind_of_done _ hslept, hwritten s rfl, rested, if_pos hdelay]
    exact ⟨_, rfl⟩
  · have hslept : sleepBeforeRetry s = (.done (), { s with
        sleeps := s.sleeps.tail
        trace := s.trace ++ [.sleepFor s.options.hdlcRetryDelayMilliseconds .ok] }) := by
      rw [sleepBeforeRetry, if_neg hdelay, hsleeps.resolve_left hdelay]
      rfl
    rw [rested, if_neg hdelay]
    exact ⟨_, (bind_of_done _ hslept).trans (hwritten _ rfl)⟩

theorem rests_of_done {s s' : State L} {bytes : List UInt8}
    (h : beforeRetry bytes s = (.done (), s')) : Rests s := by
  -- Both the sleep and the write must have returned Ok.
  rcases bind_done_iff.mp h with ⟨⟨⟩, s1, hslept, hwritten⟩
  rw [writeFrameBytes, check_done_iff, mapTransportStatus_eq_ok] at hwritten
  rw [sleepBeforeRetry] at hslept
  split at hslept
  · next hdelay =>
    cases hslept
    exact ⟨Or.inl hdelay, hwritten.1⟩
  · rw [check_done_iff, mapTransportStatus_eq_ok] at hslept
    rcases hslept with ⟨hok, rfl⟩
    exact ⟨Or.inr hok, hwritten.1⟩

namespace Throwing

variable {may : Site → Bool}

theorem exposes_queueFrames (frames : List L.Frame) (s : State L) :
    Exposes (forEach (queueFrame may) frames) s ↔ frames ≠ [] ∧ may .pushedFrame = true := by
  -- By induction on the frames: each is a site of its own, so one frame is enough.
  induction frames generalizing s with
  | nil => exact iff_of_false (not_exposes_pure () s) fun h => h.1 rfl
  | cons frame frames ih =>
      have hfirst : Exposes (queueFrame may frame) s ↔ may .pushedFrame = true := by
        rw [queueFrame, exposes_site ProfileStatus.internalError (shadows_safely (pushBack frame))]
        exact or_iff_left (not_exposes_safely _ s)
      rw [forEach, exposes_bind (shadows_queueFrame may frame s) fun _ s1 _ =>
        shadows_forEach (shadows_queueFrame may) frames s1, hfirst]
      constructor
      · rintro (hmay | ⟨_, s1, -, h⟩)
        · exact ⟨List.cons_ne_nil _ _, hmay⟩
        · exact ⟨List.cons_ne_nil _ _, ((ih s1).mp h).2⟩
      · exact fun h => Or.inl h.2

theorem exposes_handOut (frame : L.Frame) (frames : List L.Frame) (s : State L) :
    Exposes (handOut may frame frames) s ↔ (Lead.frames frame frames : Lead L).Copies may := by
  have hlast : Shadows .internalError (pure frame : Call L L.Frame) (do
      mayThrowIf (may .firstFrame)
      pure frame) := shadows_site _ (shadows_pure frame)
  -- First the frames behind the first are pushed, then the first is copied out.
  rw [handOut, exposes_bind (shadows_forEach (shadows_queueFrame may) frames s) fun _ s1 _ =>
    hlast s1, exposes_queueFrames, forEach_pushBack]
  refine or_congr Iff.rfl ?_
  simp only [Prod.mk.injEq, true_and, exists_eq_left']
  rw [exposes_site ProfileStatus.internalError (shadows_pure frame)]
  exact ⟨fun ⟨_, h⟩ => h.resolve_right (not_exposes_pure _ _), fun h => ⟨(), Or.inl h⟩⟩

/-- The loop exposes the copies of the frames the reads lead to. -/
theorem exposes_loop (reads : List ReadEvent) (s : State L) :
    Exposes (receiveDecodedFrameLoop may reads) s ↔ (leadOf L s.decoder reads).Copies may := by
  -- Every turn before the lead is over passes no site.
  induction reads generalizing s with
  | nil => exact iff_of_false List.not_mem_nil not_false
  | cons e rest ih =>
      rw [leadOf]
      by_cases hok : e.status = .ok
      swap
      · rw [if_pos hok, exposes_congr (sites_readFailed may hok)]
        exact iff_of_false (not_exposes_fail _ _) not_false
      rw [if_neg (not_not.mpr hok)]
      by_cases he : e.bytes = []
      · rw [if_pos he, exposes_congr (sites_readEmpty may hok he)]
        exact iff_of_false (not_exposes_fail _ _) not_false
      rw [if_neg he]
      by_cases hst : mapHdlcStatus (L.push s.decoder e.bytes).1 = .ok
      · rw [if_pos hst]
        rcases hf : (L.push s.decoder e.bytes).2.1 with _ | ⟨frame, frames⟩
        · rw [exposes_congr (sites_noFrame may hok he hst hf)]
          exact iff_of_false (not_exposes_fail _ _) not_false
        · rw [exposes_congr (sites_completed may hok he hst hf), exposes_handOut]
      rw [if_neg hst]
      by_cases hm : mapHdlcStatus (L.push s.decoder e.bytes).1 = .needMoreData
      · rw [if_pos hm, exposes_congr (sites_continued may hok he hm)]
        exact ih { afterRead e rest s with decoder := (L.push s.decoder e.bytes).2.2 }
      · rw [if_neg hm, exposes_congr (sites_rejected may hok he hst hm)]
        exact iff_of_false (not_exposes_fail _ _) not_false

/-- Taking a frame exposes its copies. -/
theorem exposes_receiveDecodedFrame (s : State L) :
    Exposes (receiveDecodedFrame may) s ↔ CopiesFrame may s := by
  rw [CopiesFrame]
  -- The front frame of a queue is copied without a read; else the loop leads.
  rcases hp : s.pendingHdlcFrames with _ | ⟨frame, frames⟩
  · by_cases hb : s.readBufferSize = 0
    · have hfail : Exposes (receiveDecodedFrame may) s ↔
          Exposes (fail (.status .invalidArgument) : Throwing (State L) L.Frame) s := by
        refine exposes_congr fun faults sites => ?_
        simp only [receiveDecodedFrame, hp]
        exact if_pos hb
      rw [hfail]
      exact iff_of_false (not_exposes_fail _ s) fun h => h.1 hb
    · have hloop : Exposes (receiveDecodedFrame may) s ↔
          Exposes (receiveDecodedFrameLoop may s.reads) s := by
        refine exposes_congr fun faults sites => ?_
        simp only [receiveDecodedFrame, hp]
        exact if_neg hb
      rw [hloop, exposes_loop]
      exact (and_iff_right hb).symm
  · have hfront : Exposes (receiveDecodedFrame may) s ↔ Exposes (mayThrowIf (may .frontFrame) >>=
        fun _ => safely (popFront frame frames)) s := by
      refine exposes_congr fun faults sites => ?_
      simp only [receiveDecodedFrame, hp]
    rw [hfront, exposes_site ProfileStatus.internalError (shadows_safely (popFront frame frames))]
    exact or_iff_left (not_exposes_safely _ s)

/-- With every copy a place that may throw, a frame is paid for. -/
theorem tolls_receiveDecodedFrame :
    Tolls (Hdlc.receiveDecodedFrame : Call L L.Frame) (receiveDecodedFrame anywhere) :=
  fun s _ _ h => (exposes_receiveDecodedFrame s).mpr (copiesFrame_of_done h)

theorem exposes_control (s : State L) :
    Exposes (receiveSessionControlFrame may) s ↔ CopiesFrame may s := by
  rw [receiveSessionControlFrame, exposes_bind_left (shadows_receiveDecodedFrame may s)
    (fun _ => shadows_safely _) fun _ => not_exposes_safely _, exposes_receiveDecodedFrame]

theorem tolls_control :
    Tolls (Hdlc.receiveSessionControlFrame : Call L Unit) (receiveSessionControlFrame anywhere) :=
  tolls_bind_left (shadows_receiveDecodedFrame anywhere) (fun _ => shadows_safely _)
    tolls_receiveDecodedFrame

/-- The loop around the attempts, with so many retries left. -/
theorem toldBy_retry (bytes : List UInt8) (left : Nat) (s : State L) :
    ToldBy (may = anywhere) (CopiesWithin may left s)
      (retry (receiveSessionControlFrame may) (worthStatus isRetriableReceiveStatus)
        (safely (beforeRetry bytes)) left) s := by
  induction left generalizing s with
  | zero => exact toldBy_of_iff (exposes_control s)
  | succ left ih =>
      rw [ToldBy, exposes_retry (shadows_receiveSessionControlFrame may) rfl, exposes_control,
        CopiesWithin]
      constructor
      · rintro (hcopies | ⟨hp, hb, status, decoder, reads, hlead, hagain, hrests, hwithin⟩)
        · exact Or.inl hcopies
        · rcases receiveDecodedFrame_of_failure hp hb hlead with ⟨trace, hr⟩
          let failed : State L := { s with decoder := decoder, reads := reads, trace := trace }
          have hrests' : Rests failed := hrests
          rcases beforeRetry_of_rests bytes hrests' with ⟨trace', hbetween⟩
          refine Or.inr ⟨status, failed, bind_of_fail _ hr, hagain, _, hbetween, (ih _).1 ?_⟩
          have hsame : SameIntake (rested { s with decoder := decoder, reads := reads })
              { rested failed with trace := trace' } := ⟨rfl, rfl, rfl, rfl, rfl⟩
          exact (hsame.copiesWithin rfl rfl may left).mpr hwithin
      · rintro rfl (hcopies | ⟨status, s1, hcontrol, hagain, s2, hbetween, hexposes⟩)
        · exact Or.inl hcopies
        -- A frame that was judged was taken, and copied.
        rcases hr : Hdlc.receiveDecodedFrame s with ⟨frame | status' | _, s'⟩
        · exact Or.inl (copiesFrame_of_done hr)
        · rw [Hdlc.receiveSessionControlFrame, bind_of_fail _ hr] at hcontrol
          obtain ⟨hstatus, rfl⟩ := Prod.mk.inj hcontrol
          obtain rfl := Outcome.fail.inj hstatus
          rcases leadOf_of_fail hr hagain with ⟨hp, hb, decoder, reads, trace, hlead, rfl⟩
          have hrests := rests_of_done hbetween
          rcases beforeRetry_of_rests bytes hrests with ⟨trace', hbetween'⟩
          obtain rfl := (Prod.mk.inj (hbetween.symm.trans hbetween')).2
          refine Or.inr ⟨hp, hb, status', decoder, reads, hlead, hagain, hrests, ?_⟩
          have hsame : SameIntake (rested { s with decoder := decoder, reads := reads })
              { rested { s with decoder := decoder, reads := reads, trace := trace } with
                trace := trace' } := ⟨rfl, rfl, rfl, rfl, rfl⟩
          exact (hsame.copiesWithin rfl rfl anywhere left).mp ((ih _).2 rfl hexposes)
        · rw [Hdlc.receiveSessionControlFrame, bind_of_waiting _ hr] at hcontrol
          cases hcontrol

/-- A frame is written, then its reply is waited for. -/
theorem toldBy_reply (bytes : List UInt8) (s : State L) :
    ToldBy (may = anywhere) (CopiesReply may s)
      (safely (writeFrameBytes bytes) >>= fun _ => receiveSessionControlFrameWithRetry may bytes)
      s := by
  let written : State L :=
    { s with
      writes := s.writes.tail
      trace := s.trace ++ [.transport (.write bytes .ok)] }
  refine toldBy_safely () written (fun hok => ?_) (fun _ t hdone => ?_) ?_
  · rw [writeFrameBytes, hok]
    rfl
  · rw [writeFrameBytes, check_done_iff, mapTransportStatus_eq_ok] at hdone
    exact hdone.1
  -- The write changed nothing that the wait looks at.
  · have hsame : SameIntake { s with writes := s.writes.tail } written :=
      ⟨rfl, rfl, rfl, rfl, rfl⟩
    refine (toldBy_congr (fun _ _ => rfl) (hsame.copiesWithin rfl rfl may _)).mp ?_
    exact toldBy_retry bytes s.options.hdlcRetryCount.toNat written

theorem tolls_reply (bytes : List UInt8) :
    Tolls (Hdlc.receiveSessionControlFrameWithRetry bytes : Call L Unit)
      (receiveSessionControlFrameWithRetry anywhere bytes) := by
  intro s a s1 hdone
  rw [Hdlc.receiveSessionControlFrameWithRetry, retryLoop_eq] at hdone
  exact tolls_retry (shadows_receiveSessionControlFrame anywhere) rfl tolls_control
    s.options.hdlcRetryCount.toNat s a s1 hdone

/-- A frame of the session is built, then written, then its reply is waited for. -/
theorem toldBy_request (build : L.Session → HdlcStatus × List UInt8 × L.Session) (s : State L) :
    ToldBy (may = anywhere) ((build s.session).1 = .ok ∧ CopiesReply may s)
      (do
        let frameBytes ← safely (sessionBuild build)
        safely (writeFrameBytes frameBytes)
        receiveSessionControlFrameWithRetry may frameBytes) s := by
  let built : State L := { s with session := (build s.session).2.2 }
  -- A request that the session refuses never gets to the wait.
  refine toldBy_safely (build s.session).2.1 built (fun hok => ?_) (fun bytes t hdone => ?_) ?_
  · exact if_pos (mapHdlcStatus_eq_ok.mpr hok)
  · rcases sessionBuild_done hdone with ⟨σ, hσ, -⟩
    rw [hσ]
  · have hsame : SameIntake s built := ⟨rfl, rfl, rfl, rfl, rfl⟩
    exact (toldBy_congr (fun _ _ => rfl) (hsame.copiesReply rfl rfl may)).mp
      (toldBy_reply _ built)

/-- What `ConnectDataLink` and `AcceptDataLink` have in common. -/
theorem toldBy_establishing {strict P : Prop} {role : HdlcProfileRole}
    {rest : Throwing (State L) Unit} {s : State L} (h : ToldBy strict P rest (ensured s)) :
    ToldBy strict (Establishes role s ∧ P)
      (do
        safely (require (·.options.hdlcUseSession) .unsupportedFeature)
        safely requireOpen
        safely (require (·.options.hdlcRole == role) .unsupportedFeature)
        safely ensureSession
        rest) s := by
  -- EnsureSession succeeds exactly if the session options can be made.
  have hmade : (makeHdlcSessionOptions L s.options).1 = .ok →
      ensureSession (asked s) = (.done (), ensured s) := by
    intro hmade
    have hmade' : (makeHdlcSessionOptions L (asked s).options).1 = .ok := hmade
    by_cases hdisc : L.sessionState (asked s).session = .disconnected
    · exact Prod.ext (ensureSession_disconnected hmade' hdisc).1 rfl
    · rw [ensured, ensureSession_kept hmade' hdisc]
  -- The checks in front, from the last to the first: each passes, or the call ends.
  have hensure : ToldBy strict ((makeHdlcSessionOptions L s.options).1 = .ok ∧ P)
      (safely ensureSession >>= fun _ => rest) (asked s) :=
    toldBy_past hmade (fun t hdone => ensureSession_done (s := asked s) hdone) h
  have hrole := toldBy_past (x := require (·.options.hdlcRole == role) .unsupportedFeature)
    (s := asked s) require_of_true (fun t hdone => (require_done hdone).1) hensure
  have hopen := toldBy_past requireOpen_of_open (fun t hdone => (requireOpen_done hdone).1) hrole
  have huse := toldBy_past (x := require (·.options.hdlcUseSession) .unsupportedFeature)
    require_of_true (fun t hdone => (require_done hdone).1) hopen
  refine (toldBy_congr (fun _ _ => rfl) ?_).mp huse
  simp only [Establishes, and_assoc]
  exact Iff.rfl

theorem toldBy_connect (s : State L) :
    ToldBy (may = anywhere) (Exposed may .connectDataLink s) (connectDataLink may) s :=
  toldBy_establishing (toldBy_request L.buildConnectRequest (ensured s))

theorem toldBy_accept (s : State L) :
    ToldBy (may = anywhere) (Exposed may .acceptDataLink s) (acceptDataLink may) s := by
  -- Building and writing the UA passes no site.
  have hanswer : ∀ _ : Unit, Shadows .internalError
      ((do
        let frameBytes ← sessionBuild L.buildConnectResponse
        writeFrameBytes frameBytes) : Call L Unit)
      (do
        let frameBytes ← safely (sessionBuild L.buildConnectResponse)
        safely (writeFrameBytes frameBytes)) := fun _ =>
    shadows_bind (shadows_safely _) fun _ => shadows_safely _
  refine toldBy_establishing (toldBy_bind (shadows_receiveSessionControlFrame may _) hanswer ?_
    (toldBy_of_iff (exposes_control _)))
  rintro rfl
  exact tolls_control

theorem toldBy_disconnect (s : State L) :
    ToldBy (may = anywhere) (Exposed may .disconnectDataLink s) (disconnectDataLink may) s := by
  have hsame : SameIntake s (asked s) := ⟨rfl, rfl, rfl, rfl, rfl⟩
  have hrequest : ToldBy (may = anywhere)
      ((L.buildDisconnectRequest s.session).1 = .ok ∧ CopiesReply may s)
      (do
        let frameBytes ← safely (sessionBuild L.buildDisconnectRequest)
        safely (writeFrameBytes frameBytes)
        receiveSessionControlFrameWithRetry may frameBytes) (asked s) :=
    (toldBy_congr (fun _ _ => rfl) (and_congr Iff.rfl (hsame.copiesReply rfl rfl may))).mp
      (toldBy_request L.buildDisconnectRequest (asked s))
  -- The two checks in front, as in the source.
  have hopen := toldBy_past requireOpen_of_open (fun t hdone => (requireOpen_done hdone).1) hrequest
  have huse := toldBy_past (x := require (·.options.hdlcUseSession) .unsupportedFeature)
    require_of_true (fun t hdone => (require_done hdone).1) hopen
  exact huse

/-- The I-frame of a chunk is built if the session and the codec build it. -/
theorem buildSessionInformationFrame_of_builds {chunk : List UInt8} {last : Bool} {s : State L}
    (h : BuildsFrame chunk last s) : ∃ bytes,
      buildSessionInformationFrame chunk (!last) last s =
        (.done bytes,
          { s with session := (L.buildInformationFrame s.session chunk last).2.2 }) := by
  have hbuilt : sessionBuild (fun σ => L.buildInformationFrame σ chunk last) s =
      (.done (L.buildInformationFrame s.session chunk last).2.1,
        { s with session := (L.buildInformationFrame s.session chunk last).2.2 }) :=
    if_pos (mapHdlcStatus_eq_ok.mpr h.1)
  refine ⟨(recoded L s.hdlcLimits (!last) (L.buildInformationFrame s.session chunk last).2.1).2, ?_⟩
  rw [buildSessionInformationFrame_of_built hbuilt]
  exact if_pos (mapHdlcStatus_eq_ok.mpr h.2)

theorem builds_of_done {chunk bytes : List UInt8} {last : Bool} {s s' : State L}
    (h : buildSessionInformationFrame chunk (!last) last s = (.done bytes, s')) :
    BuildsFrame chunk last s := by
  rcases bind_done_iff.mp h with ⟨built, s1, hbuilt, -⟩
  rcases sessionBuild_done hbuilt with ⟨σ, hσ, rfl⟩
  have hrecoded := checked_done ((buildSessionInformationFrame_of_built hbuilt).symm.trans h)
  rw [BuildsFrame, hσ]
  exact ⟨rfl, congrArg Prod.fst hrecoded.1⟩

/-- With the window open the I-frame is built and written, and its reply waited for. -/
theorem toldBy_emitChunk (chunk : List UInt8) (last : Bool) (s : State L) :
    ToldBy (may = anywhere) (BuildsFrame chunk last s ∧ CopiesReply may s)
      (emitChunk may chunk last) s := by
  -- A chunk whose frame cannot be built never gets to the wait.
  by_cases hbuilds : BuildsFrame chunk last s
  swap
  · refine ⟨fun h => absurd h.1 hbuilds, fun _ hexposes => absurd ?_ hbuilds⟩
    have htail : Exposes (safely (buildSessionInformationFrame chunk (!last) last) >>=
        fun frameBytes => safely (log (.emit s.session frameBytes)) >>= fun _ =>
          safely (writeFrameBytes frameBytes) >>= fun _ =>
            receiveSessionControlFrameWithRetry may frameBytes) s := hexposes
    rcases exposes_bind_safely.mp htail with ⟨bytes, s1, hdone, -⟩
    exact builds_of_done hdone
  · rcases buildSessionInformationFrame_of_builds hbuilds with ⟨bytes, hbytes⟩
    let σ := (L.buildInformationFrame s.session chunk last).2.2
    -- Past the build, the emission and its write lead to the wait.
    have hwritten : ∀ faults sites, emitChunk may chunk last ⟨s, faults, sites⟩ =
        (safely (writeFrameBytes bytes) >>= fun _ => receiveSessionControlFrameWithRetry may bytes)
          ⟨emitted bytes σ s, faults, sites⟩ := by
      intro faults sites
      have hbuilt : safely (buildSessionInformationFrame chunk (!last) last) ⟨s, faults, sites⟩ =
          (.done bytes, ⟨{ s with session := σ }, faults, sites⟩) := by
        rw [safely, hbytes]
        rfl
      exact bind_of_done _ hbuilt
    have hsame : SameIntake s (emitted bytes σ s) := ⟨rfl, rfl, rfl, rfl, rfl⟩
    refine (toldBy_congr hwritten ?_).mpr (toldBy_reply bytes (emitted bytes σ s))
    rw [and_iff_right hbuilds, hsame.copiesReply rfl rfl]

theorem tolls_emitChunk (chunk : List UInt8) (last : Bool) :
    Tolls
      ((do
        let before ← gets (·.session)
        let frameBytes ← buildSessionInformationFrame chunk (!last) last
        log (.emit before frameBytes)
        writeFrameBytes frameBytes
        Hdlc.receiveSessionControlFrameWithRetry frameBytes) : Call L Unit)
      (emitChunk anywhere chunk last) :=
  tolls_bind_safely fun _ => tolls_bind_safely fun _ => tolls_bind_safely fun _ =>
    tolls_bind_safely fun _ => tolls_reply _

theorem tolls_sendChunk (chunk : List UInt8) (last : Bool) :
    Tolls (Hdlc.sendChunk chunk last : Call L Unit) (sendChunk anywhere chunk last) :=
  tolls_bind_right (shadows_awaitWindow anywhere) (fun _ => shadows_emitChunk anywhere chunk last)
    fun _ => tolls_emitChunk chunk last

/-- One turn of the loop of `SendSessionInformation`. -/
theorem toldBy_sendChunk (chunk : List UInt8) (last : Bool) (s : State L) :
    ToldBy (may = anywhere)
      (if L.canSendInformationFrame s.session = true then
        BuildsFrame chunk last s ∧ CopiesReply may s
      else CopiesFrame may s)
      (sendChunk may chunk last) s := by
  by_cases hcan : L.canSendInformationFrame s.session = true
  · rw [if_pos hcan]
    refine (toldBy_congr (fun faults sites => ?_) Iff.rfl).mpr (toldBy_emitChunk chunk last s)
    have hopen : awaitWindow may ⟨s, faults, sites⟩ = (.done (), ⟨s, faults, sites⟩) := if_pos hcan
    exact bind_of_done _ hopen
  · rw [if_neg hcan]
    -- The turn waits for a frame first.
    have hwaits : ToldBy (may = anywhere) (CopiesFrame may s)
        (receiveSessionControlFrame may >>= fun _ => emitChunk may chunk last) s := by
      refine toldBy_bind (shadows_receiveSessionControlFrame may s)
        (fun _ => shadows_emitChunk may chunk last) ?_ (toldBy_of_iff (exposes_control s))
      rintro rfl
      exact tolls_control
    refine (toldBy_congr (fun faults sites => ?_) Iff.rfl).mpr hwaits
    have hfull : awaitWindow may ⟨s, faults, sites⟩ =
        receiveSessionControlFrame may ⟨s, faults, sites⟩ := if_neg hcan
    change Proc.bind _ _ _ = Proc.bind _ _ _
    rw [Proc.bind, Proc.bind, hfull]

/-- A call that sends nothing in a session exposes nothing. -/
theorem not_exposes_sendApdu {apdu : ProfileByteView} {s : State L}
    (h : s.options.hdlcUseSession = true → Refused s apdu) :
    ¬ Exposes (sendApdu may apdu) s := by
  -- Each check that refuses returns its status before any site.
  have hfails : ∀ status : ProfileStatus, (∀ faults sites, sendApdu may apdu ⟨s, faults, sites⟩ =
      (fail (.status status) : Throwing (State L) Unit) ⟨s, faults, sites⟩) →
        ¬ Exposes (sendApdu may apdu) s := fun status hfail =>
    mt (exposes_congr hfail).mp (not_exposes_fail _ s)
  by_cases hvalid : isValidByteView apdu = false
  · exact hfails .invalidArgument fun _ _ => if_pos hvalid
  by_cases hlarge : s.options.maximumApduSize ≠ 0 ∧ s.options.maximumApduSize < apdu.size
  · exact hfails .payloadTooLarge fun _ _ => (if_neg hvalid).trans (if_pos hlarge)
  by_cases henc : mapLlcStatus (encodeApdu L s.options apdu.data).1 ≠ .ok
  · exact hfails (mapLlcStatus (encodeApdu L s.options apdu.data).1) fun _ _ =>
      (if_neg hvalid).trans ((if_neg hlarge).trans (if_pos henc))
  by_cases huse : s.options.hdlcUseSession = true
  · have hconnected : L.sessionState s.session ≠ .connected := by
      rcases h huse with hc | hc | hc | hc
      · exact absurd hc hvalid
      · exact absurd hc hlarge
      · exact absurd (mapLlcStatus_eq_ok.mp (not_not.mp henc)) hc
      · exact hc
    exact hfails .notOpen fun _ _ => (if_neg hvalid).trans ((if_neg hlarge).trans
      ((if_neg henc).trans ((if_pos huse).trans (if_pos hconnected))))
  -- Without a session the call waits for no frame, and the write passes no site.
  · have hplain : Exposes (sendApdu may apdu) s ↔ Exposes (safely
        (buildFrame (encodeApdu L s.options apdu.data).2 >>= writeFrameBytes)) s :=
      exposes_congr fun _ _ => (if_neg hvalid).trans ((if_neg hlarge).trans
        ((if_neg henc).trans (if_neg huse)))
    rw [hplain]
    exact not_exposes_safely _ s

/-- A call that sends something is its loop over the chunks. -/
theorem sendApdu_sends {apdu : ProfileByteView} {s : State L}
    (huse : s.options.hdlcUseSession = true) (hrefused : ¬ Refused s apdu)
    (faults sites : List Bool) : sendApdu may apdu ⟨s, faults, sites⟩ =
      sendChunks may (chunkSizeOf s apdu) (framesToSend s apdu) (lpduOf s apdu)
        ⟨limited s, faults, sites⟩ := by
  simp only [Refused, not_or, not_not] at hrefused
  rcases hrefused with ⟨hvalid, hlarge, henc, hconnected⟩
  have hencoded : ¬ mapLlcStatus (encodeApdu L s.options apdu.data).1 ≠ .ok :=
    not_not.mpr (mapLlcStatus_eq_ok.mpr henc)
  -- The four checks of the call, in the order of the source.
  exact (if_neg hvalid).trans ((if_neg hlarge).trans ((if_neg hencoded).trans
    ((if_pos huse).trans (if_neg (not_not.mpr hconnected)))))

theorem toldBy_sendApdu (apdu : ProfileByteView) (s : State L) :
    ToldBy (may = anywhere) (Exposed may (.send apdu) s) (sendApdu may apdu) s := by
  by_cases hsends : s.options.hdlcUseSession = true ∧ ¬ Refused s apdu
  swap
  · have hnone : ¬ Exposes (sendApdu may apdu) s :=
      not_exposes_sendApdu fun huse => not_not.mp fun hrefused => hsends ⟨huse, hrefused⟩
    exact toldBy_of_iff (iff_of_false hnone fun h => hsends ⟨h.1, h.2.1⟩)
  rcases hsends with ⟨huse, hrefused⟩
  have hchunks : ∀ faults sites, sendApdu may apdu ⟨s, faults, sites⟩ = _ :=
    sendApdu_sends huse hrefused
  rcases hcount : framesToSend s apdu with _ | left
  · refine toldBy_of_iff (iff_of_false ?_ fun h => h.2.2.1 hcount)
    rw [exposes_congr hchunks, hcount]
    exact not_exposes_pure () _
  · -- Past the first I-frame nothing is left to be told.
    have hfirst : ToldBy (may = anywhere) _ (sendChunks may (chunkSizeOf s apdu) (left + 1)
        (lpduOf s apdu)) (limited s) :=
      toldBy_bind (shadows_sendChunk may _ _ _) (fun _ => shadows_sendChunks may _ left _)
        (fun hall => by rw [hall]; exact tolls_sendChunk _ _)
        (toldBy_sendChunk ((lpduOf s apdu).take (chunkSizeOf s apdu)) (left == 0) (limited s))
    have hsame : SameIntake (limited s) s := ⟨rfl, rfl, rfl, rfl, rfl⟩
    refine (toldBy_congr (fun faults sites => (hchunks faults sites).trans (by rw [hcount])) ?_).mpr
      hfirst
    have hlast : (framesToSend s apdu == 1) = (left == 0) := by
      rw [hcount]
      cases left <;> rfl
    have hcan : (limited s).session = s.session := rfl
    simp only [Exposed, huse, hrefused, hcount, ne_eq, Nat.add_eq_zero_iff, Nat.one_ne_zero,
      and_false, not_false_eq_true, true_and, hcan, ← hsame.copiesFrame may,
      ← hsame.copiesReply rfl rfl may]
    rw [← hcount, hlast]

/-- The receive loop takes a frame first. -/
theorem toldBy_receiveNextApdu (s : State L) :
    ToldBy (may = anywhere) (CopiesFrame may s) (receiveNextApdu may) s := by
  have htolls : may = anywhere →
      Tolls (Hdlc.receiveDecodedFrame : Call L L.Frame) (receiveDecodedFrame may) := by
    rintro rfl
    exact tolls_receiveDecodedFrame
  -- The first turn already copies a frame, if any turn does.
  have hturn : ToldBy (may = anywhere) (CopiesFrame may s) (receiveTurn may) s :=
    toldBy_bind (shadows_receiveDecodedFrame may s) (shadows_handleFrame may) htolls
      (toldBy_of_iff (exposes_receiveDecodedFrame s))
  exact toldBy_repeatUntil (fun _ _ h => receiveTurn_incoming_lt h) (shadows_receiveTurn may)
    (fun hall => tolls_bind_left (shadows_receiveDecodedFrame may) (shadows_handleFrame may)
      (htolls hall)) hturn

theorem tolls_receiveNextApdu :
    Tolls (Hdlc.receiveNextApdu : Call L Unit) (receiveNextApdu anywhere) :=
  tolls_repeatUntil (shadows_receiveTurn anywhere)
    (tolls_bind_left (shadows_receiveDecodedFrame anywhere) (shadows_handleFrame anywhere)
      tolls_receiveDecodedFrame)

theorem toldBy_receive (call : ReceiveCall) (s : State L) :
    ToldBy (may = anywhere) (Exposed may (.receive call) s)
      (pending.receiving (may .output) (awaitApdu may) call) s := by
  have hnext : ToldBy (may = anywhere) (CopiesFrame may s) (receiveNextApdu may) s :=
    toldBy_receiveNextApdu s
  -- The output buffer is looked at first and the queue second: both can end the call.
  rw [ToldBy, PendingQueue.exposes_receiving (shadows_awaitApdu may), awaitApdu,
    PendingQueue.exposes_awaiting (fun _ _ => receiveNextApdu_incoming_lt)
      (shadows_receiveNextApdu may)]
  constructor
  · rintro ⟨haccepts, hp, hcopies⟩
    exact ⟨haccepts, hp, Or.inl (hnext.1 hcopies)⟩
  · rintro rfl ⟨haccepts, hp, hexposes | ⟨s1, hdone, -⟩⟩
    · exact ⟨haccepts, hp, hnext.2 rfl hexposes⟩
    · exact ⟨haccepts, hp, hnext.2 rfl (tolls_receiveNextApdu s () s1 hdone)⟩

/-- What a call exposes is told by the state before it, if every copy may throw. If only
    some may, what is told is exposed still. -/
theorem toldBy_call (op : Operation) (s : State L) :
    ToldBy (may = anywhere) (Exposed may op s) (call may op) s := by
  -- One lemma for each call; the three of the stream pass no site.
  cases op with
  | «open» => exact toldBy_of_iff (iff_of_false (not_exposes_safely _ s) not_false)
  | close => exact toldBy_of_iff (iff_of_false (not_exposes_safely _ s) not_false)
  | isOpen => exact toldBy_of_iff (iff_of_false (not_exposes_safely _ s) not_false)
  | connectDataLink => exact toldBy_connect s
  | acceptDataLink => exact toldBy_accept s
  | disconnectDataLink => exact toldBy_disconnect s
  | send apdu => exact toldBy_sendApdu apdu s
  | receive call => exact toldBy_receive call s

section Enclosed

theorem covers_receiveDecodedFrame :
    Covers (receiveDecodedFrame Site.enclosed : Throwing (State L) L.Frame) := by
  intro s
  rw [exposes_receiveDecodedFrame, CopiesFrame]
  -- The copies of frames are outside the handlers, and here they do not go wrong.
  rcases s.pendingHdlcFrames with _ | ⟨frame, frames⟩
  · rintro ⟨-, hcopies⟩
    revert hcopies
    rcases leadOf L s.decoder s.reads with _ | _ | _
    · exact id
    · exact id
    · exact fun hcopies => hcopies.elim (fun h => Bool.false_ne_true h.2) Bool.false_ne_true
  · exact Bool.false_ne_true

theorem covers_control :
    Covers (receiveSessionControlFrame Site.enclosed : Throwing (State L) Unit) :=
  covers_bind (shadows_receiveDecodedFrame _) (fun _ => shadows_safely _)
    covers_receiveDecodedFrame fun _ => not_exposes_safely _

theorem covers_reply (bytes : List UInt8) :
    Covers (receiveSessionControlFrameWithRetry Site.enclosed bytes : Throwing (State L) Unit) :=
  fun s => covers_retry (shadows_receiveSessionControlFrame _) rfl covers_control
    s.options.hdlcRetryCount.toNat s

theorem covers_sendChunk (chunk : List UInt8) (last : Bool) :
    Covers (sendChunk Site.enclosed chunk last : Throwing (State L) Unit) := by
  -- The window is open, or the chunk waits for a frame first.
  have hwindow : Covers (awaitWindow Site.enclosed : Throwing (State L) Unit) := by
    intro s
    by_cases hcan : L.canSendInformationFrame s.session = true
    · exact mt (exposes_congr fun _ _ => if_pos hcan).mp (not_exposes_pure () s)
    · exact mt (exposes_congr fun _ _ => if_neg hcan).mp (covers_control s)
  exact covers_bind (shadows_awaitWindow _) (fun _ => shadows_emitChunk _ chunk last) hwindow
    fun _ => covers_bind_safely fun _ => covers_bind_safely fun _ => covers_bind_safely fun _ =>
      covers_bind_safely fun _ => covers_reply _

theorem covers_sendChunks (chunkSize left : Nat) (remaining : List UInt8) :
    Covers (sendChunks Site.enclosed chunkSize left remaining : Throwing (State L) Unit) := by
  induction left generalizing remaining with
  | zero => exact not_exposes_pure ()
  | succ left ih =>
      exact covers_bind (shadows_sendChunk _ _ _) (fun _ => shadows_sendChunks _ _ left _)
        (covers_sendChunk _ _) fun _ => ih _

theorem covers_sendApdu (apdu : ProfileByteView) :
    Covers (sendApdu Site.enclosed apdu : Throwing (State L) Unit) := by
  intro s
  by_cases hsends : s.options.hdlcUseSession = true ∧ ¬ Refused s apdu
  · rw [exposes_congr (sendApdu_sends hsends.1 hsends.2)]
    exact covers_sendChunks _ _ _ _
  · exact not_exposes_sendApdu fun huse => not_not.mp fun hrefused => hsends ⟨huse, hrefused⟩

/-- The one allocation on the way of an APDU to its queue is inside a handler. -/
theorem covers_decodeComplete (frame : L.Frame) :
    Covers (decodeCompleteInformationToPendingApdu may frame) := by
  intro s
  by_cases hrefused : mapLlcStatus (L.decodeLpdu frame.information false).1 ≠ .ok ∨
      s.options.maximumApduSize ≠ 0 ∧
        s.options.maximumApduSize < (L.decodeLpdu frame.information false).2.length
  · exact mt (exposes_congr fun _ _ => if_pos hrefused).mp (not_exposes_safely _ s)
  · exact mt (exposes_congr fun _ _ => if_neg hrefused).mp (not_exposes_guarded _ s)

theorem covers_acceptCompleted (completed : L.Frame) (hasCompleted : Bool) :
    Covers (acceptCompleted may completed hasCompleted) := by
  refine covers_bind_safely fun _ => ?_
  split
  · exact not_exposes_pure ()
  · exact covers_bind (shadows_decodeComplete may completed) (fun _ => shadows_safely _)
      (covers_decodeComplete completed) fun _ => not_exposes_safely _

theorem covers_decodeFrameToPendingApdu (frame : L.Frame) :
    Covers (decodeFrameToPendingApdu may frame) := by
  intro s
  -- The branches of the source in order; the two that decode hand on to their own lemma.
  by_cases huse : s.options.hdlcUseSession = false
  · by_cases hseg : frame.segmented = true
    · exact mt (exposes_congr fun _ _ => (if_pos huse).trans (if_pos hseg)).mp
        (not_exposes_fail (.status .unsupportedFeature) s)
    · exact mt (exposes_congr fun _ _ => (if_pos huse).trans (if_neg hseg)).mp
        (covers_decodeComplete frame s)
  by_cases hmore : mapHdlcStatus (L.pushFrame s.reassembler frame).1 = .needMoreData
  · exact mt (exposes_congr fun _ _ => (if_neg huse).trans (if_pos hmore)).mp
      (not_exposes_fail (.status .needMoreData)
        (reassembling (L.pushFrame s.reassembler frame).2.2 s))
  by_cases hne : mapHdlcStatus (L.pushFrame s.reassembler frame).1 ≠ .ok
  · exact mt (exposes_congr fun _ _ => (if_neg huse).trans ((if_neg hmore).trans (if_pos hne))).mp
      (not_exposes_fail (.status (mapHdlcStatus (L.pushFrame s.reassembler frame).1))
        (reassembling (L.resetReassembler (L.pushFrame s.reassembler frame).2.2) s))
  · exact mt (exposes_congr fun _ _ => (if_neg huse).trans ((if_neg hmore).trans (if_neg hne))).mp
      (covers_acceptCompleted (L.pushFrame s.reassembler frame).2.1.1
        (L.pushFrame s.reassembler frame).2.1.2
        (reassembling (L.pushFrame s.reassembler frame).2.2 s))

theorem covers_handleFrame (frame : L.Frame) : Covers (handleFrame may frame) := by
  -- What follows a failed decode is a status, not a site.
  have hgoesOn : ∀ status : ProfileStatus, Shadows .internalError
      (if status = .needMoreData then pure false else fail status : Call L Bool)
      (if status = .needMoreData then pure false else fail (.status status)) := by
    intro status
    split
    · exact shadows_pure false
    · exact shadows_fail status
  refine covers_handle (shadows_decodeFrameToPendingApdu may frame) (fun _ => shadows_safely _)
    hgoesOn (covers_decodeFrameToPendingApdu frame) (fun _ => not_exposes_safely _) fun status => ?_
  split
  · exact not_exposes_pure false
  · exact not_exposes_fail _

theorem covers_receive (call : ReceiveCall) :
    Covers (pending.receiving (Site.enclosed .output) (awaitApdu Site.enclosed) call :
      Throwing (State L) Unit) := by
  have hturn : Covers (receiveTurn Site.enclosed : Throwing (State L) Bool) :=
    covers_bind (shadows_receiveDecodedFrame _) (shadows_handleFrame _) covers_receiveDecodedFrame
      covers_handleFrame
  have hnext : Covers (receiveNextApdu Site.enclosed : Throwing (State L) Unit) :=
    covers_repeatUntil (fun _ _ h => receiveTurn_incoming_lt h) (shadows_receiveTurn _) hturn
  have hawait : Covers (awaitApdu Site.enclosed : Throwing (State L) Unit) :=
    PendingQueue.covers_awaiting (fun _ _ => receiveNextApdu_incoming_lt)
      (shadows_receiveNextApdu _) hnext
  intro s
  -- The site of the output buffer is enclosed, which leaves the wait for the APDU.
  rw [PendingQueue.exposes_receiving (shadows_awaitApdu Site.enclosed)]
  exact fun h => hawait s h.2

/-- The copies of APDUs are not exposed. -/
theorem covers_call (op : Operation) :
    Covers (call Site.enclosed op : Throwing (State L) Unit) := by
  -- Between its waits a call takes steps without a site.
  cases op with
  | «open» => exact not_exposes_safely _
  | close => exact not_exposes_safely _
  | isOpen => exact not_exposes_safely _
  | connectDataLink =>
      exact covers_bind_safely fun _ => covers_bind_safely fun _ => covers_bind_safely fun _ =>
        covers_bind_safely fun _ => covers_bind_safely fun _ => covers_bind_safely fun _ =>
          covers_reply _
  | acceptDataLink =>
      have hanswer : ∀ _ : Unit, Shadows .internalError
          (sessionBuild L.buildConnectResponse >>= writeFrameBytes)
          (safely (sessionBuild L.buildConnectResponse) >>= fun frameBytes =>
            safely (writeFrameBytes frameBytes)) := fun _ =>
        shadows_bind (shadows_safely _) fun _ => shadows_safely _
      exact covers_bind_safely fun _ => covers_bind_safely fun _ => covers_bind_safely fun _ =>
        covers_bind_safely fun _ => covers_bind (shadows_receiveSessionControlFrame _) hanswer
          covers_control fun _ => covers_bind_safely fun _ => not_exposes_safely _
  | disconnectDataLink =>
      exact covers_bind_safely fun _ => covers_bind_safely fun _ => covers_bind_safely fun _ =>
        covers_bind_safely fun _ => covers_reply _
  | send apdu => exact covers_sendApdu apdu
  | receive call => exact covers_receive call

end Enclosed

end Throwing

end Hdlc

end DlmsProfile
