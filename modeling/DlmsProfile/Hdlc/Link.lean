import DlmsProfile.Hdlc.Invariant
import DlmsProfile.Hdlc.Laws

/-!
# The Link Calls

The three calls that establish and release a data link share their parts: the
conditions under which they may be called, the request the session builds, and
the wait for a reply.

A wait takes frames off the stream and shows them to the session until the
session accepts one, an error is not worth retrying, or the attempts are used up.
A session that is not changed by what it rejects judges all of them in one state,
so the frame that ends a wait well is the first one the session accepts.

## Main definitions

* `Hdlc.establishing`: What `ConnectDataLink` and `AcceptDataLink` have in common.
* `Hdlc.shown`: The frames shown to the session.
* `Hdlc.Rejects`, `Hdlc.Accepts`, `Hdlc.Waits`: What a wait does.

## Theorems

* `Hdlc.establishing_done`: What a completed call has found.
* `Hdlc.controlWithRetry_waits`: What the wait for a reply does.
-/

namespace DlmsProfile

namespace Hdlc

variable {L : HdlcLib}

/-- `isOpen` was called. -/
def asked (s : State L) : State L := (isOpen s).2

/-- What `ConnectDataLink` and `AcceptDataLink` have in common: they check that
    they may be called, and see to the session. -/
def establishing (role : HdlcProfileRole) (rest : Call L Unit) : Call L Unit := do
  require (·.options.hdlcUseSession) .unsupportedFeature
  requireOpen
  require (·.options.hdlcRole == role) .unsupportedFeature
  ensureSession
  rest

theorem requireOpen_done {s s' : State L} (h : requireOpen s = (.done (), s')) :
    s.isOpens.headD true = true ∧ s' = asked s := by
  rcases Proc.bind_done_iff.mp h with ⟨opened, s1, hopen, hrest⟩
  obtain ⟨ho, rfl⟩ := Prod.mk.inj hopen
  cases opened with
  | true =>
      rw [if_pos rfl] at hrest
      exact ⟨Outcome.done.inj ho, (Prod.mk.inj hrest).2.symm⟩
  | false => cases hrest

theorem requireOpen_of_open {s : State L} (h : s.isOpens.headD true = true) :
    requireOpen s = (.done (), asked s) := by
  have hopen : isOpen s = (.done true, asked s) := Prod.ext (congrArg Outcome.done h) rfl
  exact Proc.bind_of_done _ hopen

theorem require_done {condition : State L → Bool} {status : ProfileStatus} {s s' : State L}
    (h : require condition status s = (.done (), s')) : condition s = true ∧ s' = s := by
  rw [require] at h
  split at h
  · next hc => exact ⟨hc, (Prod.mk.inj h).2.symm⟩
  · cases h

theorem require_of_true {condition : State L → Bool} {status : ProfileStatus} {s : State L}
    (h : condition s = true) : require condition status s = (.done (), s) := if_pos h

/-- The rest is reached when the call is allowed, the stream is open and the
    session is there. -/
theorem establishing_of_ready {role : HdlcProfileRole} {rest : Call L Unit} {s : State L}
    (huse : s.options.hdlcUseSession = true) (hopen : s.isOpens.headD true = true)
    (hrole : (s.options.hdlcRole == role) = true) :
    establishing role rest s = (ensureSession >>= fun _ => rest) (asked s) := by
  have hrole' : ((asked s).options.hdlcRole == role) = true := hrole
  rw [establishing, Proc.bind_of_done _ (require_of_true huse),
    Proc.bind_of_done _ (requireOpen_of_open hopen),
    Proc.bind_of_done _ (require_of_true hrole')]

theorem establishing_done {role : HdlcProfileRole} {rest : Call L Unit} {s s' : State L}
    (h : establishing role rest s = (.done (), s')) :
    s.options.hdlcUseSession = true ∧ s.isOpens.headD true = true ∧
      (s.options.hdlcRole == role) = true ∧
      ∃ s1, ensureSession (asked s) = (.done (), s1) ∧ rest s1 = (.done (), s') := by
  rcases Proc.bind_done_iff.mp h with ⟨⟨⟩, s1, hfirst, h1⟩
  rcases Proc.bind_done_iff.mp h1 with ⟨⟨⟩, s2, hsecond, h2⟩
  rcases Proc.bind_done_iff.mp h2 with ⟨⟨⟩, s3, hthird, h3⟩
  rcases Proc.bind_done_iff.mp h3 with ⟨⟨⟩, s4, hensure, hrest⟩
  obtain ⟨huse, rfl⟩ := require_done hfirst
  obtain ⟨hopen, rfl⟩ := requireOpen_done hsecond
  obtain ⟨hrole, rfl⟩ := require_done hthird
  exact ⟨huse, hopen, hrole, s4, hensure, hrest⟩

/-- The calls that may not establish a link have done nothing but ask. -/
theorem establishing_cases (role : HdlcProfileRole) (rest : Call L Unit) (s : State L) :
    (s.options.hdlcUseSession = true ∧ (s.options.hdlcRole == role) = true ∧
        (makeHdlcSessionOptions L s.options).1 = .ok) ∨
      (establishing role rest s).2 = s ∨ (establishing role rest s).2 = asked s := by
  -- The four conditions in the order in which the calls check them.
  by_cases huse : s.options.hdlcUseSession = true
  swap
  · have hrefused : require (·.options.hdlcUseSession) .unsupportedFeature s =
        (.fail .unsupportedFeature, s) := if_neg huse
    rw [establishing, Proc.bind_of_fail _ hrefused]
    exact Or.inr (Or.inl rfl)
  by_cases hopen : s.isOpens.headD true = true
  swap
  · have hasked : isOpen s = (.done false, asked s) :=
      Prod.ext (congrArg Outcome.done (Bool.eq_false_iff.mpr hopen)) rfl
    have hclosed : requireOpen s = (.fail .notOpen, asked s) := Proc.bind_of_done _ hasked
    rw [establishing, Proc.bind_of_done _ (require_of_true huse), Proc.bind_of_fail _ hclosed]
    exact Or.inr (Or.inr rfl)
  by_cases hrole : (s.options.hdlcRole == role) = true
  swap
  · have hrefused : require (·.options.hdlcRole == role) .unsupportedFeature (asked s) =
        (.fail .unsupportedFeature, asked s) := if_neg hrole
    rw [establishing, Proc.bind_of_done _ (require_of_true huse),
      Proc.bind_of_done _ (requireOpen_of_open hopen), Proc.bind_of_fail _ hrefused]
    exact Or.inr (Or.inr rfl)
  by_cases hmade : (makeHdlcSessionOptions L s.options).1 = .ok
  · exact Or.inl ⟨huse, hrole, hmade⟩
  · have hfailed : ensureSession (asked s) =
        (.fail (makeHdlcSessionOptions L s.options).1, asked s) := if_pos hmade
    rw [establishing_of_ready huse hopen hrole, Proc.bind_of_fail _ hfailed]
    exact Or.inr (Or.inr rfl)

theorem ensureSession_done {s s' : State L} (h : ensureSession s = (.done (), s')) :
    (makeHdlcSessionOptions L s.options).1 = .ok := by
  simp only [ensureSession] at h
  split at h
  · cases h
  · next hmade => exact not_not.mp hmade

/-- A disconnected session is replaced. -/
theorem ensureSession_disconnected {s : State L}
    (hmade : (makeHdlcSessionOptions L s.options).1 = .ok)
    (hdisc : L.sessionState s.session = .disconnected) :
    (ensureSession s).1 = .done () ∧
      (ensureSession s).2.session = L.newSession (makeHdlcSessionOptions L s.options).2 := by
  simp only [ensureSession, hmade, ne_eq, not_true_eq_false, if_false, hdisc, if_true, and_self]

/-- Any other session is kept. -/
theorem ensureSession_kept {s : State L} (hmade : (makeHdlcSessionOptions L s.options).1 = .ok)
    (hdisc : L.sessionState s.session ≠ .disconnected) : ensureSession s = (.done (), s) := by
  simp only [ensureSession, hmade, ne_eq, not_true_eq_false, if_false, hdisc]

theorem ensureSession_trace (s : State L) : (ensureSession s).2.trace = s.trace := by
  simp only [ensureSession]
  split
  · rfl
  split <;> rfl

/-- The frames shown to the session, in order. -/
def shown (events : List (Event L)) : List L.Frame :=
  events.filterMap fun
    | .receive _ frame _ => some frame
    | _ => none

theorem shown_append (a b : List (Event L)) : shown (a ++ b) = shown a ++ shown b :=
  List.filterMap_append

theorem shown_of_aside {events : List (Event L)} (h : ∀ e ∈ events, e.isAside) :
    shown events = [] := by
  refine List.filterMap_eq_nil_iff.mpr fun e he => ?_
  have haside := h e he
  cases e <;> first | rfl | exact haside.elim

/-- The frames taken were shown to the session and rejected. -/
structure Rejects (rejected : List L.Frame) (s s' : State L) : Prop where
  options : s'.options = s.options
  session : s'.session = s.session
  judged : ∀ frame ∈ rejected, (L.receiveFrame s.session frame).1 ≠ .ok
  shows : ∃ events, s'.trace = s.trace ++ events ∧ shown events = rejected
  incoming : incoming s = rejected ++ incoming s'

/-- One frame more was taken, and accepted. -/
structure Accepts (rejected : List L.Frame) (frame : L.Frame) (s s' : State L) : Prop where
  options : s'.options = s.options
  session : s'.session = (L.receiveFrame s.session frame).2
  judged : ∀ frame ∈ rejected, (L.receiveFrame s.session frame).1 ≠ .ok
  accepted : (L.receiveFrame s.session frame).1 = .ok
  shows : ∃ events, s'.trace = s.trace ++ events ∧ shown events = rejected ++ [frame]
  incoming : incoming s = rejected ++ frame :: incoming s'

/-- What a wait does: it ends well with the first frame accepted, or everything
    it took was rejected. -/
def Waits (x : Call L Unit) : Prop :=
  ∀ s, L.Steady s.session →
    (∃ rejected frame, (x s).1 = .done () ∧ Accepts rejected frame s (x s).2) ∨
      ∃ rejected, (x s).1 ≠ .done () ∧ Rejects rejected s (x s).2

/-- A write that succeeded. -/
theorem writeFrameBytes_done {bytes : List UInt8} {s s' : State L}
    (h : writeFrameBytes bytes s = (.done (), s')) :
    s'.session = s.session ∧ s'.trace = s.trace ++ [.transport (.write bytes .ok)] := by
  rw [writeFrameBytes, check_done_iff, mapTransportStatus_eq_ok] at h
  rcases h with ⟨hok, rfl⟩
  exact ⟨rfl, congrArg (fun status => s.trace ++ [.transport (.write bytes status)]) hok⟩

section Waits

variable {rejected rejected' : List L.Frame} {frame : L.Frame} {s s1 s' : State L}

theorem Rejects.trans (h : Rejects rejected s s1) (h' : Rejects rejected' s1 s') :
    Rejects (rejected ++ rejected') s s' := by
  rcases h.shows with ⟨ev, ht, he⟩
  rcases h'.shows with ⟨ev', ht', he'⟩
  have hjudged' := h'.judged
  rw [h.session] at hjudged'
  refine ⟨h'.options.trans h.options, h'.session.trans h.session, ?_, ⟨ev ++ ev', ?_, ?_⟩, ?_⟩
  · exact List.forall_mem_append.mpr ⟨h.judged, hjudged'⟩
  · rw [ht', ht, List.append_assoc]
  · rw [shown_append, he, he']
  · rw [h.incoming, h'.incoming, List.append_assoc]

theorem Rejects.accepts (h : Rejects rejected s s1) (h' : Accepts rejected' frame s1 s') :
    Accepts (rejected ++ rejected') frame s s' := by
  rcases h.shows with ⟨ev, ht, he⟩
  rcases h'.shows with ⟨ev', ht', he'⟩
  have hjudged' := h'.judged
  rw [h.session] at hjudged'
  refine ⟨h'.options.trans h.options, h.session ▸ h'.session, ?_, h.session ▸ h'.accepted,
    ⟨ev ++ ev', ?_, ?_⟩, ?_⟩
  · exact List.forall_mem_append.mpr ⟨h.judged, hjudged'⟩
  · rw [ht', ht, List.append_assoc]
  · rw [shown_append, he, he', List.append_assoc]
  · rw [h.incoming, h'.incoming, List.append_assoc]

/-- A step to the side that leaves the frames to come as they are. -/
theorem rejects_of_aside (h : Aside s s') (hin : incoming s = incoming s') : Rejects [] s s' := by
  rcases h.events with ⟨events, htrace, hall⟩
  exact ⟨h.options, h.session, fun _ hmem => absurd hmem List.not_mem_nil,
    ⟨events, htrace, shown_of_aside hall⟩, hin⟩

/-- One attempt, once a frame was taken. -/
theorem control_of_frame (h : receiveDecodedFrame s = (.done frame, s1)) :
    receiveSessionControlFrame s =
      check (mapHdlcStatus (L.receiveFrame s.session frame).1) (judged frame s1) ∧
    (judged frame s1).session = (L.receiveFrame s.session frame).2 ∧
    ∃ events, (judged frame s1).trace = s.trace ++ events ∧ shown events = [frame] := by
  have haside := receiveDecodedFrame_aside s
  rw [h] at haside
  -- Before the session sees the frame nothing has changed but what was read.
  rcases haside.events with ⟨events, htrace, hall⟩
  refine ⟨?_, congrArg (fun σ => (L.receiveFrame σ frame).2) haside.session,
    events ++ [.receive s1.session frame (L.receiveFrame s1.session frame).1], ?_, ?_⟩
  · rw [receiveSessionControlFrame, Proc.bind_of_done _ h, sessionReceive_eq, haside.session]
  · rw [← List.append_assoc, ← htrace]
    rfl
  · rw [shown_append, shown_of_aside hall]
    rfl

/-- An attempt that ends well took one frame, which was accepted. -/
theorem control_accepts (h : receiveSessionControlFrame s = (.done (), s')) :
    ∃ frame, Accepts [] frame s s' := by
  rcases Proc.bind_done_iff.mp h with ⟨frame, s1, hframe, -⟩
  have haside := receiveDecodedFrame_aside s
  rw [hframe] at haside
  rcases control_of_frame hframe with ⟨hcontrol, hsession, hshows⟩
  rw [hcontrol, check_done_iff, mapHdlcStatus_eq_ok] at h
  rcases h with ⟨hok, rfl⟩
  have hin : incoming s = frame :: incoming s1 := receiveDecodedFrame_done hframe
  exact ⟨frame, haside.options, hsession, fun _ hmem => absurd hmem List.not_mem_nil, hok, hshows,
    hin⟩

/-- One attempt to get a reply. -/
theorem control_waits : Waits (receiveSessionControlFrame (L := L)) := by
  intro s hsteady
  have haside := receiveDecodedFrame_aside s
  have hin := receiveDecodedFrame_incoming s
  -- By what the wait for a frame brings. One that is rejected leaves the session alone.
  rcases hr : receiveDecodedFrame s with ⟨frame | status | _, s1⟩ <;> rw [hr] at haside hin
  · rcases control_of_frame hr with ⟨hcontrol, hsession, hshows⟩
    by_cases hok : (L.receiveFrame s.session frame).1 = .ok
    · rw [hok] at hcontrol
      rcases control_accepts hcontrol with ⟨frame', h⟩
      rw [hcontrol]
      exact Or.inl ⟨[], frame', rfl, h⟩
    · rw [hcontrol, check_of_ne fun hc => hok (mapHdlcStatus_eq_ok.mp hc)]
      refine Or.inr ⟨[frame], (fun hc => by cases hc), haside.options,
        hsession.trans (hsteady frame hok), ?_, hshows, hin⟩
      intro other hmem
      rw [List.mem_singleton.mp hmem]
      exact hok
  · rw [receiveSessionControlFrame, Proc.bind_of_fail _ hr]
    exact Or.inr ⟨[], (fun hc => by cases hc), rejects_of_aside haside hin⟩
  · rw [receiveSessionControlFrame, Proc.bind_of_waiting _ hr]
    exact Or.inr ⟨[], (fun hc => by cases hc), rejects_of_aside haside hin⟩

/-- Something to the side first. -/
theorem waits_bind {x : Call L Unit} {k : Call L Unit} (haside : Proc.Within Aside x)
    (hsame : Proc.Within SameIntake x) (hk : Waits k) : Waits (x >>= fun _ => k) := by
  intro s hsteady
  have h0 : Rejects [] s (x s).2 := rejects_of_aside (haside s) (hsame s).incoming.symm
  -- What comes first takes no frame, so all frames are those of the wait.
  rcases hx : x s with ⟨⟨⟩ | status | _, s1⟩ <;> rw [hx] at h0
  · rw [Proc.bind_of_done _ hx]
    have hsteady1 : L.Steady s1.session := h0.session ▸ hsteady
    rcases hk s1 hsteady1 with ⟨rejected, frame, hdone, h1⟩ | ⟨rejected, hnot, h1⟩
    · exact Or.inl ⟨_, frame, hdone, h0.accepts h1⟩
    · exact Or.inr ⟨_, hnot, h0.trans h1⟩
  · rw [Proc.bind_of_fail _ hx]
    exact Or.inr ⟨[], (fun hc => by cases hc), h0⟩
  · rw [Proc.bind_of_waiting _ hx]
    exact Or.inr ⟨[], (fun hc => by cases hc), h0⟩

/-- As many attempts as are left. -/
theorem retryLoop_waits (bytes : List UInt8) (left : Nat) :
    Waits (retryLoop (L := L) bytes left) := by
  -- On the retries left. Attempts that fail have shown the session rejected frames only.
  induction left with
  | zero => exact control_waits
  | succ left ih =>
      intro s hsteady
      rcases control_waits s hsteady with ⟨rejected, frame, hdone, h⟩ | ⟨rejected, hnot, h⟩
      · have hr : receiveSessionControlFrame s = (.done (), (receiveSessionControlFrame s).2) :=
          Prod.ext hdone rfl
        rw [retryLoop_of_done hr]
        exact Or.inl ⟨rejected, frame, rfl, h⟩
      rcases hr : receiveSessionControlFrame s with ⟨⟨⟩ | status | _, s1⟩ <;> rw [hr] at h hnot
      · exact absurd rfl hnot
      · cases hagain : isRetriableReceiveStatus status with
        | false =>
            rw [retryLoop_of_fail hr (Or.inl hagain)]
            exact Or.inr ⟨rejected, hnot, h⟩
        | true =>
            rw [retryLoop_of_retry hr hagain]
            have hrest := waits_bind sleepBeforeRetry_aside sleepBeforeRetry_sameIntake
              (waits_bind (writeFrameBytes_aside bytes) (writeFrameBytes_sameIntake bytes) ih)
            rcases hrest s1 (h.session ▸ hsteady) with
              ⟨rejected', frame, hdone, h'⟩ | ⟨rejected', hnot', h'⟩
            · exact Or.inl ⟨_, frame, hdone, h.accepts h'⟩
            · exact Or.inr ⟨_, hnot', h.trans h'⟩
      · rw [retryLoop_of_waiting hr]
        exact Or.inr ⟨rejected, hnot, h⟩

/-- The wait for a reply. -/
theorem controlWithRetry_waits (bytes : List UInt8) :
    Waits (receiveSessionControlFrameWithRetry (L := L) bytes) := fun s hsteady =>
  retryLoop_waits bytes s.options.hdlcRetryCount.toNat s hsteady

end Waits

end Hdlc

end DlmsProfile
