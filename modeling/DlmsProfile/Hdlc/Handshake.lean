import DlmsProfile.Hdlc.Link
import DlmsProfile.Hdlc.Receiving
import DlmsProfile.Reference.Channels
import DlmsProfile.Reference.Laws

/-!
# Truthful Handshakes

A link call returns `Ok` as soon as the session has accepted a frame. It does
not ask which frame that was, nor what state the session is in. While a command
is pending a session lets frames still in flight pass, and a UA may answer an
earlier copy of the command, so the call may be done before its answer is there.

Which of the frames to come answer this very command cannot be told at this end.
The results below take it as given from outside.

A `ConnectDataLink` that fails leaves the session waiting, and a waiting session
refuses to ask again. `EnsureSession` replaces a session that is disconnected
only, and `Close` replaces none, so the next call fails before it has written
anything.

## Main definitions

* `Hdlc.awaiting`: The state in which a link call begins to wait.
* `Hdlc.Truthful`: The answer was received and the session is in its state.
* `Hdlc.AnsweredFirst`: The first frame to come that is accepted is the answer.
* `Hdlc.FailedConnect`, `Hdlc.Retried`: A `ConnectDataLink` that failed, and the
  next one.

## Theorems

* `Hdlc.handshake_done`: What a completed link call has found.
* `Hdlc.truthful_iff`: When the result of a link call is truthful.
* `Hdlc.retried_iff`: When a failed `ConnectDataLink` can be retried.
-/

namespace DlmsProfile

namespace Hdlc

variable {L : HdlcLib}

/-- The calls that end with a frame from the peer. -/
def Operation.isHandshake : Operation → Bool
  | .connectDataLink => true
  | .acceptDataLink => true
  | .disconnectDataLink => true
  | _ => false

/-- The state in which a link call begins to wait for a frame. -/
def awaiting (op : Operation) (s : State L) : State L :=
  let ready := (ensureSession (asked s)).2
  match op with
  | .connectDataLink => { ready with session := (L.buildConnectRequest ready.session).2.2 }
  | .disconnectDataLink =>
    { asked s with session := (L.buildDisconnectRequest s.session).2.2 }
  | _ => ready

/-- The frame is what the call waits for, `own` telling which of the frames to
    come answer its command. -/
def Answers (law : HdlcLinkLaw L) (own : Nat → Prop) (op : Operation) (n : Nat)
    (frame : L.Frame) : Prop :=
  match op with
  | .acceptDataLink => law.snrm frame.control
  | _ => own n ∧ law.ua frame.control

/-- The state a completed call leaves the session in. -/
def Operation.leaves : Operation → HdlcSessionState
  | .disconnectDataLink => .disconnected
  | _ => .connected

/-- A UA was written. -/
def WroteUa (events : List (Event L)) : Prop :=
  ∃ σ bytes σ', L.buildConnectResponse σ = (.ok, bytes, σ') ∧
    .transport (.write bytes .ok) ∈ events

/-- The answer was received in the call, the UA of an `AcceptDataLink` was
    written in it, and the session is in the state the call leads to. -/
def Truthful (law : HdlcLinkLaw L) (own : Nat → Prop) (op : Operation) (s : State L) : Prop :=
  ∃ events, (exec op s).2.trace = s.trace ++ events ∧
    (∃ n frame, (shown events)[n]? = some frame ∧ Answers law own op n frame) ∧
    (op = .acceptDataLink → WroteUa events) ∧
    L.sessionState (exec op s).2.session = op.leaves

/-- Of the frames to come, the first that the waiting session accepts is the
    answer. -/
def AnsweredFirst (law : HdlcLinkLaw L) (own : Nat → Prop) (op : Operation) (s : State L) : Prop :=
  ∃ rejected frame rest, incoming (awaiting op s) = rejected ++ frame :: rest ∧
    (∀ other ∈ rejected, (L.receiveFrame (awaiting op s).session other).1 ≠ .ok) ∧
    (L.receiveFrame (awaiting op s).session frame).1 = .ok ∧
    Answers law own op rejected.length frame

/-- What a completed link call has done: it took the frames to come, up to the
    first accepted. -/
structure Completed (law : HdlcLinkLaw L) (op : Operation) (s s' : State L)
    (rejected : List L.Frame) (frame : L.Frame) : Prop where
  events : ∃ events, s'.trace = s.trace ++ events ∧ shown events = rejected ++ [frame] ∧
    (op = .acceptDataLink → WroteUa events)
  incoming : ∃ rest, incoming (awaiting op s) = rejected ++ frame :: rest
  judged : ∀ other ∈ rejected, (L.receiveFrame (awaiting op s).session other).1 ≠ .ok
  accepted : (L.receiveFrame (awaiting op s).session frame).1 = .ok
  unanswered : ∀ other ∈ rejected, ∀ own n, ¬ Answers law own op n other
  leaves : (∀ own n, Answers law own op n frame →
    L.sessionState s'.session = op.leaves)

/-- A command was built and written, and the wait for its answer ended well. -/
theorem command_completed (law : HdlcLinkLaw L) {op : Operation} {command : HdlcCommand}
    {bytes : List UInt8} {s s1 s' : State L} (hop : op ≠ .acceptDataLink)
    (hleaves : op.leaves = command.answered)
    (htrace : ∃ events, (awaiting op s).trace = s.trace ++ events ∧ shown events = [])
    (hawaits : law.awaits command (awaiting op s).session)
    (hwrite : writeFrameBytes bytes (awaiting op s) = (.done (), s1))
    (hwait : receiveSessionControlFrameWithRetry bytes s1 = (.done (), s')) :
    ∃ rejected frame, Completed law op s s' rejected frame := by
  -- Only AcceptDataLink waits for something other than a UA.
  have hua : ∀ own n other, Answers law own op n other → law.ua other.control := by
    intro own n other h
    cases op <;> first | exact h.2 | exact absurd rfl hop
  have hsteady := law.steady hawaits
  have haside := writeFrameBytes_aside bytes (awaiting op s)
  have hsame := writeFrameBytes_sameIntake bytes (awaiting op s)
  rw [hwrite] at haside hsame
  have h0 : Rejects [] (awaiting op s) s1 := rejects_of_aside haside hsame.incoming.symm
  -- The wait rejects frames until it accepts one, and the session is steady over the rejected.
  rcases controlWithRetry_waits bytes s1 (h0.session ▸ hsteady) with
    ⟨rejected, frame, -, h1⟩ | ⟨-, hnot, -⟩
  swap
  · exact absurd (congrArg Prod.fst hwait) hnot
  rw [hwait] at h1
  -- The write shows the session nothing, so the frames judged are those of the wait.
  have hall := h0.accepts h1
  rw [List.nil_append] at hall
  rcases htrace with ⟨ev, ht, he⟩
  rcases hall.shows with ⟨ev', ht', he'⟩
  refine ⟨rejected, frame, ⟨ev ++ ev', ?_, ?_, fun h => absurd h hop⟩, ⟨_, hall.incoming⟩,
    hall.judged, hall.accepted, ?_, ?_⟩
  · rw [ht', ht, List.append_assoc]
  · rw [shown_append, he, he', List.nil_append]
  · intro other hmem own n hanswers
    exact hall.judged other hmem (law.answer hawaits (hua own n other hanswers)).1
  · intro own n hanswers
    rw [hall.session, hleaves]
    exact (law.answer hawaits (hua own n frame hanswers)).2

/-- Up to the wait only the question whether the stream is open was recorded. -/
theorem ready_trace (s : State L) :
    ∃ events, (ensureSession (asked s)).2.trace = s.trace ++ events ∧ shown events = [] :=
  ⟨_, ensureSession_trace (asked s), rfl⟩

/-- `ConnectDataLink` behind `EnsureSession`. -/
def requestConnection : Call L Unit := do
  let frameBytes ← sessionBuild L.buildConnectRequest
  writeFrameBytes frameBytes
  receiveSessionControlFrameWithRetry frameBytes

theorem connectDataLink_eq (s : State L) :
    connectDataLink s = establishing .client requestConnection s := rfl

theorem connectDataLink_completed (law : HdlcLinkLaw L) {s s' : State L}
    (h : connectDataLink s = (.done (), s')) :
    ∃ rejected frame, Completed law .connectDataLink s s' rejected frame := by
  -- The parts of the call that came before: the session is ensured and the SNRM is built.
  rcases establishing_done ((connectDataLink_eq s).symm.trans h) with ⟨-, -, -, s1, hensure, hrest⟩
  rcases Proc.bind_done_iff.mp hrest with ⟨bytes, s2, hbuild, hrest⟩
  rcases Proc.bind_done_iff.mp hrest with ⟨⟨⟩, s3, hwrite, hwait⟩
  rcases sessionBuild_done hbuild with ⟨σ', hσ', rfl⟩
  have hready : awaiting .connectDataLink s = { s1 with session := σ' } := by
    simp only [awaiting, hensure, hσ']
  have hleaves : Operation.connectDataLink.leaves = HdlcCommand.connect.answered := rfl
  refine command_completed law (fun hc => by cases hc) hleaves ?_ ?_ (hready ▸ hwrite) hwait
  · exact ready_trace s
  · rw [hready]
    exact (law.connectRequest hσ').2

theorem disconnectDataLink_completed (law : HdlcLinkLaw L) {s s' : State L}
    (h : disconnectDataLink s = (.done (), s')) :
    ∃ rejected frame, Completed law .disconnectDataLink s s' rejected frame := by
  -- DisconnectDataLink ensures no session: it builds the DISC from the one it has.
  rcases Proc.bind_done_iff.mp h with ⟨⟨⟩, s1, hfirst, h1⟩
  rcases Proc.bind_done_iff.mp h1 with ⟨⟨⟩, s2, hsecond, h2⟩
  obtain ⟨-, rfl⟩ := require_done hfirst
  obtain ⟨-, rfl⟩ := requireOpen_done hsecond
  rcases Proc.bind_done_iff.mp h2 with ⟨bytes, s3, hbuild, h3⟩
  rcases Proc.bind_done_iff.mp h3 with ⟨⟨⟩, s4, hwrite, hwait⟩
  rcases sessionBuild_done hbuild with ⟨σ', hσ', rfl⟩
  have hσ : L.buildDisconnectRequest s1.session = (.ok, bytes, σ') := hσ'
  have hready : awaiting .disconnectDataLink s1 = { asked s1 with session := σ' } := by
    simp only [awaiting, hσ]
  have hleaves : Operation.disconnectDataLink.leaves = HdlcCommand.disconnect.answered := rfl
  refine command_completed law (fun hc => by cases hc) hleaves ?_ ?_ (hready ▸ hwrite) hwait
  · exact ⟨_, rfl, rfl⟩
  · rw [hready]
    exact law.disconnectRequest hσ

theorem acceptDataLink_completed (law : HdlcLinkLaw L) {s s' : State L}
    (h : acceptDataLink s = (.done (), s')) :
    ∃ rejected frame, Completed law .acceptDataLink s s' rejected frame := by
  have hparts : establishing .server (receiveSessionControlFrame >>= fun _ =>
      sessionBuild L.buildConnectResponse >>= writeFrameBytes) s = (.done (), s') := h
  rcases establishing_done hparts with ⟨-, -, -, s1, hensure, hrest⟩
  -- AcceptDataLink waits first and writes the UA after it, so nothing is rejected on the way.
  rcases Proc.bind_done_iff.mp hrest with ⟨⟨⟩, s2, hcontrol, hrest⟩
  rcases Proc.bind_done_iff.mp hrest with ⟨bytes, s3, hbuild, hwrite⟩
  rcases sessionBuild_done hbuild with ⟨σ', hσ', rfl⟩
  have hready : awaiting .acceptDataLink s = s1 := by
    simp only [awaiting, hensure]
  rcases control_accepts hcontrol with ⟨frame, haccepts⟩
  rcases ready_trace s with ⟨ev, ht, he⟩
  rcases haccepts.shows with ⟨ev', ht', he'⟩
  rcases writeFrameBytes_done hwrite with ⟨hsession, htrace⟩
  rw [hensure] at ht
  refine ⟨[], frame, ⟨ev ++ (ev' ++ [.transport (.write bytes .ok)]), ?_, ?_, fun _ => ?_⟩,
    ⟨incoming s2, ?_⟩, ?_, ?_, ?_, ?_⟩
  · rw [htrace, ht', ht, List.append_assoc, List.append_assoc]
  · rw [shown_append, shown_append, he, he']
    rfl
  · exact ⟨_, bytes, σ', hσ', List.mem_append_right _ (List.mem_append_right _ List.mem_cons_self)⟩
  · rw [hready]
    exact haccepts.incoming
  · exact fun _ hmem => absurd hmem List.not_mem_nil
  · rw [hready]
    exact haccepts.accepted
  · exact fun _ hmem => absurd hmem List.not_mem_nil
  · intro _ _ _
    rw [hsession]
    exact law.connectResponse hσ'

/-- What a completed link call has found. -/
theorem handshake_done (law : HdlcLinkLaw L) {op : Operation} {s : State L}
    (hop : op.isHandshake = true) (hok : (exec op s).1 = .status (.done ())) :
    ∃ rejected frame, Completed law op s (exec op s).2 rejected frame := by
  cases op with
  | connectDataLink =>
      exact connectDataLink_completed law (Prod.ext (Result.status.inj hok) rfl)
  | acceptDataLink =>
      exact acceptDataLink_completed law (Prod.ext (Result.status.inj hok) rfl)
  | disconnectDataLink =>
      exact disconnectDataLink_completed law (Prod.ext (Result.status.inj hok) rfl)
  | _ => cases hop

/-- The first element with a property, and those before it, are determined. -/
theorem first_unique {α : Type} {P : α → Prop} {before before' after after' : List α} {a a' : α}
    (h : before ++ a :: after = before' ++ a' :: after') (hb : ∀ x ∈ before, ¬ P x)
    (hb' : ∀ x ∈ before', ¬ P x) (ha : P a) (ha' : P a') : before = before' ∧ a = a' := by
  -- By induction on what comes before: neither list may hold the first element with `P`.
  induction before generalizing before' with
  | nil =>
      cases before' with
      | nil => exact ⟨rfl, (List.cons.inj h).1⟩
      | cons b before' =>
          obtain ⟨rfl, -⟩ := List.cons.inj h
          exact absurd ha (hb' a List.mem_cons_self)
  | cons b before ih =>
      cases before' with
      | nil =>
          obtain ⟨rfl, -⟩ := List.cons.inj h
          exact absurd ha' (hb b List.mem_cons_self)
      | cons b' before' =>
          obtain ⟨rfl, hrest⟩ := List.cons.inj h
          rcases ih hrest (fun x hx => hb x (List.mem_cons_of_mem b hx))
            (fun x hx => hb' x (List.mem_cons_of_mem b hx)) with ⟨rfl, rfl⟩
          exact ⟨rfl, rfl⟩

/-- The `Ok` of a link call is truthful exactly when, of the frames to come, the
    first that the waiting session accepts is the answer to the call. -/
theorem truthful_iff (law : HdlcLinkLaw L) (own : Nat → Prop) {op : Operation} {s : State L}
    (hop : op.isHandshake = true) (hok : (exec op s).1 = .status (.done ())) :
    Truthful law own op s ↔ AnsweredFirst law own op s := by
  rcases handshake_done law hop hok with ⟨rejected, frame, h⟩
  rcases h.events with ⟨events, htrace, hshown, hua⟩
  rcases h.incoming with ⟨rest, hin⟩
  constructor
  · rintro ⟨events', htrace', ⟨n, other, hget, hanswers⟩, -, -⟩
    obtain rfl := List.append_cancel_left (htrace'.symm.trans htrace)
    rw [hshown] at hget
    -- The answer is not among the rejected frames, so it is the last one taken.
    by_cases hn : n < rejected.length
    · rw [List.getElem?_append_left hn] at hget
      exact absurd hanswers (h.unanswered other (List.mem_of_getElem? hget) own n)
    · rw [List.getElem?_append_right (Nat.le_of_not_lt hn), List.getElem?_singleton] at hget
      split at hget
      · next hlast =>
          obtain rfl := Option.some.inj hget
          have hlen : n = rejected.length := by omega
          exact ⟨rejected, frame, rest, hin, h.judged, h.accepted, hlen ▸ hanswers⟩
      · cases hget
  · rintro ⟨rejected', frame', rest', hin', hjudged', haccepted', hanswers⟩
    obtain ⟨rfl, rfl⟩ := first_unique
      (P := fun other => (L.receiveFrame (awaiting op s).session other).1 = .ok)
      (hin.symm.trans hin') h.judged hjudged' h.accepted haccepted'
    refine ⟨events, htrace, ⟨rejected.length, frame, ?_, hanswers⟩, hua, h.leaves own _ hanswers⟩
    rw [hshown, List.getElem?_append_right (Nat.le_refl _), Nat.sub_self]
    rfl

/-- A client that disconnects while a UA is left over, since its SNRM was written
    twice: the second frame to come is the one that answers the DISC. -/
theorem truthful_leftover :
    let start := Reference.hdlcChannel Reference.sessionOptions
      [⟨.wouldBlock, []⟩,
        Reference.arrived
          (Reference.toClient Reference.ua [] ++ Reference.toClient Reference.ua []),
        Reference.arrived (Reference.toClient Reference.ua [])]
    let s := (run [.connectDataLink] start).2
    Truthful Reference.linkLaw (· = 1) .disconnectDataLink s ↔
      AnsweredFirst Reference.linkLaw (· = 1) .disconnectDataLink s :=
  truthful_iff Reference.linkLaw (· = 1) rfl (by decide +kernel)

/-- An RR of the link before is still in flight when a client connects. The
    session lets it pass, and the call is done while the session still waits. -/
theorem truthful_refuted :
    let s := Reference.hdlcChannel Reference.sessionOptions
      [Reference.arrived (Reference.receiveReady 0),
        Reference.arrived (Reference.toClient Reference.ua [])]
    (exec .connectDataLink s).1 = .status (.done ()) ∧
      Reference.hdlcLib.sessionState (exec .connectDataLink s).2.session = .connecting ∧
      ∀ own, ¬ Truthful Reference.linkLaw own .connectDataLink s := by
  intro s
  have hstate : Reference.hdlcLib.sessionState (exec .connectDataLink s).2.session =
      .connecting := by decide +kernel
  refine ⟨by decide +kernel, hstate, ?_⟩
  -- An RR ends the wait, though the session is still connecting.
  rintro own ⟨-, -, -, -, hleaves⟩
  rw [hstate] at hleaves
  cases hleaves

/-- A `ConnectDataLink` that returned an error after it had tried to write its
    SNRM. -/
structure FailedConnect (s : State L) : Prop where
  failed : ∃ status, (exec .connectDataLink s).1 = .status (.fail status)
  wrote : ∃ events bytes status, (exec .connectDataLink s).2.trace = s.trace ++ events ∧
    .transport (.write bytes status) ∈ events

/-- The next `ConnectDataLink` writes an SNRM again, and returns `Ok` if the first
    frame it receives is a UA. -/
def Retried (law : HdlcLinkLaw L) (s : State L) : Prop :=
  ∃ events, (exec .connectDataLink s).2.trace = s.trace ++ events ∧
    (∃ σ bytes σ' status, L.buildConnectRequest σ = (.ok, bytes, σ') ∧
      .transport (.write bytes status) ∈ events) ∧
    ∀ frame, (shown events).head? = some frame → law.ua frame.control →
      (exec .connectDataLink s).1 = .status (.done ())

/-- What a call that got as far as its SNRM has found. -/
theorem FailedConnect.options {s : State L} (h : FailedConnect s) :
    s.options.hdlcUseSession = true ∧ (s.options.hdlcRole == .client) = true ∧
      (makeHdlcSessionOptions L s.options).1 = .ok := by
  rcases h.wrote with ⟨events, bytes, status, htrace, hmem⟩
  have hstate : (exec .connectDataLink s).2 = (establishing .client requestConnection s).2 := rfl
  -- Without a ready call no SNRM is built, so nothing could have been written.
  rcases establishing_cases .client requestConnection s with hready | hkept | hasked
  · exact hready
  · rw [hstate, hkept, List.self_eq_append_right] at htrace
    rw [htrace] at hmem
    exact absurd hmem List.not_mem_nil
  · rw [hstate, hasked] at htrace
    obtain rfl := List.append_cancel_left (htrace : s.trace ++ [_] = s.trace ++ events)
    cases List.mem_singleton.mp hmem

/-- A session that may not ask for a connection ends the call. -/
theorem requestConnection_refused {s : State L} (h : (L.buildConnectRequest s.session).1 ≠ .ok) :
    (requestConnection s).2.trace = s.trace := by
  have hfailed : sessionBuild L.buildConnectRequest s =
      (.fail (mapHdlcStatus (L.buildConnectRequest s.session).1),
        { s with session := (L.buildConnectRequest s.session).2.2 }) :=
    if_neg fun hc => h (mapHdlcStatus_eq_ok.mp hc)
  rw [requestConnection, Proc.bind_of_fail _ hfailed]

/-- A session that may, writes its request and waits, and a UA that comes first
    ends the wait well. -/
theorem requestConnection_answered (law : HdlcLinkLaw L) {s : State L}
    (h : (L.buildConnectRequest s.session).1 = .ok) :
    ∃ events, (requestConnection s).2.trace = s.trace ++ events ∧
      (∃ σ bytes σ' status, L.buildConnectRequest σ = (.ok, bytes, σ') ∧
        .transport (.write bytes status) ∈ events) ∧
      ∀ frame, (shown events).head? = some frame → law.ua frame.control →
        (requestConnection s).1 = .done () := by
  rcases hr : L.buildConnectRequest s.session with ⟨built, bytes, σ'⟩
  obtain rfl : built = .ok := by rw [hr] at h; exact h
  have hawaits := (law.connectRequest hr).2
  have hbuild : sessionBuild L.buildConnectRequest s = (.done bytes, { s with session := σ' }) := by
    simp only [sessionBuild, checked, hr, mapHdlcStatus_eq_ok.mpr rfl, if_true]
  rw [requestConnection, Proc.bind_of_done _ hbuild]
  have htrace : (writeFrameBytes bytes { s with session := σ' }).2.trace =
      s.trace ++ [.transport (.write bytes (s.writes.headD .ok))] := by
    rw [writeFrameBytes_snd]
  have hwrote : ∀ events : List (Event L), ∃ σ bytes' σ' status,
      L.buildConnectRequest σ = (.ok, bytes', σ') ∧ .transport (.write bytes' status) ∈
        (.transport (.write bytes (s.writes.headD .ok)) :: events : List (Event L)) := fun _ =>
    ⟨_, bytes, σ', _, hr, List.mem_cons_self⟩
  rcases hw : writeFrameBytes bytes { s with session := σ' } with ⟨⟨⟩ | status | _, s1⟩ <;>
    rw [hw] at htrace
  · -- The wait begins, and a UA that comes first is not rejected.
    rw [Proc.bind_of_done _ hw]
    have hsession : s1.session = σ' := (writeFrameBytes_done hw).1
    have hsteady : L.Steady s1.session := hsession ▸ law.steady hawaits
    rcases controlWithRetry_waits bytes s1 hsteady with
      ⟨rejected, frame, hdone, hwait⟩ | ⟨rejected, -, hwait⟩ <;>
      rcases hwait.shows with ⟨events, htrace', hshown⟩ <;>
      rw [htrace, List.append_assoc, List.singleton_append] at htrace'
    · exact ⟨_, htrace', hwrote events, fun _ _ _ => hdone⟩
    · refine ⟨_, htrace', hwrote events, fun frame hfirst hua => ?_⟩
      have hfirst' : (shown events).head? = some frame := hfirst
      rw [hshown] at hfirst'
      have hrejected := hwait.judged frame (List.mem_of_head? hfirst')
      rw [hsession] at hrejected
      exact absurd (law.answer hawaits hua).1 hrejected
  · rw [Proc.bind_of_fail _ hw]
    refine ⟨_, htrace, hwrote [], fun _ hfirst => ?_⟩
    cases hfirst
  · rw [Proc.bind_of_waiting _ hw]
    refine ⟨_, htrace, hwrote [], fun _ hfirst => ?_⟩
    cases hfirst

/-- A `ConnectDataLink` that may be called, told by its parts. -/
theorem connectDataLink_of_ready {s : State L} (huse : s.options.hdlcUseSession = true)
    (hopen : s.isOpens.headD true = true) (hrole : (s.options.hdlcRole == .client) = true) :
    connectDataLink s = (ensureSession >>= fun _ => requestConnection) (asked s) :=
  establishing_of_ready huse hopen hrole

theorem asked_trace (s : State L) :
    (asked s).trace = s.trace ++ [.transport (.isOpen (s.isOpens.headD true))] := rfl

/-- A session that waits for an answer is kept, and refuses to ask again. -/
theorem not_retried (law : HdlcLinkLaw L) {s : State L}
    (huse : s.options.hdlcUseSession = true) (hopen : s.isOpens.headD true = true)
    (hrole : (s.options.hdlcRole == .client) = true)
    (hmade : (makeHdlcSessionOptions L s.options).1 = .ok)
    (hdisc : L.sessionState s.session ≠ .disconnected) : ¬ Retried law s := by
  rintro ⟨events, htrace, ⟨σ, bytes, σ', status, -, hmem⟩, -⟩
  -- The session is kept as it is when not disconnected, and it builds no SNRM in that state.
  have hkept : ensureSession (asked s) = (.done (), asked s) := ensureSession_kept hmade hdisc
  have hrefused : (L.buildConnectRequest (asked s).session).1 ≠ .ok := fun hok =>
    hdisc (law.connectRequest (Prod.ext hok rfl)).1
  have htrace' : (exec .connectDataLink s).2.trace =
      s.trace ++ [.transport (.isOpen (s.isOpens.headD true))] := by
    have hstate : (exec .connectDataLink s).2 = (connectDataLink s).2 := rfl
    rw [hstate, connectDataLink_of_ready huse hopen hrole, Proc.bind_of_done _ hkept,
      requestConnection_refused hrefused, asked_trace]
  obtain rfl := List.append_cancel_left (htrace'.symm.trans htrace)
  cases List.mem_singleton.mp hmem

/-- A disconnected session is made anew, and may ask. -/
theorem retried_of_disconnected (law : HdlcLinkLaw L) {s : State L}
    (huse : s.options.hdlcUseSession = true) (hopen : s.isOpens.headD true = true)
    (hrole : (s.options.hdlcRole == .client) = true)
    (hmade : (makeHdlcSessionOptions L s.options).1 = .ok)
    (hdisc : L.sessionState s.session = .disconnected) : Retried law s := by
  rcases hensure : ensureSession (asked s) with ⟨o, s1⟩
  -- A disconnected session is made anew, so it will build the SNRM.
  have hnew := ensureSession_disconnected (s := asked s) hmade hdisc
  have htrace1 := ensureSession_trace (asked s)
  rw [hensure] at hnew htrace1
  rcases hnew with ⟨rfl, hsession⟩
  have hclient : (makeHdlcSessionOptions L s.options).2.role = .client := by
    have hrole' : s.options.hdlcRole = .client := eq_of_beq hrole
    simp only [makeHdlcSessionOptions, hrole', toHdlcSessionRole]
    split <;> rfl
  have hrequest : (L.buildConnectRequest s1.session).1 = .ok := by
    rw [hsession]
    exact law.request hclient
  rcases requestConnection_answered law hrequest with
    ⟨events, htrace, ⟨σ, bytes, σ', status, hr, hmem⟩, hanswered⟩
  rw [htrace1, asked_trace, List.append_assoc, List.singleton_append] at htrace
  have hexec : exec .connectDataLink s =
      (.status (requestConnection s1).1, (requestConnection s1).2) := by
    rw [exec, connectDataLink_of_ready huse hopen hrole, Proc.bind_of_done _ hensure]
  rw [Retried, hexec]
  refine ⟨_, htrace, ⟨σ, bytes, σ', status, hr, List.mem_cons_of_mem _ hmem⟩, ?_⟩
  intro frame hfirst hua
  rw [hanswered frame hfirst hua]

/-- On a disconnected session a call that fails has tried to write its SNRM. -/
theorem failedConnect_of_disconnected (law : HdlcLinkLaw L) {s : State L} {status : ProfileStatus}
    (huse : s.options.hdlcUseSession = true) (hopen : s.isOpens.headD true = true)
    (hrole : (s.options.hdlcRole == .client) = true)
    (hmade : (makeHdlcSessionOptions L s.options).1 = .ok)
    (hdisc : L.sessionState s.session = .disconnected)
    (hfailed : (exec .connectDataLink s).1 = .status (.fail status)) : FailedConnect s := by
  rcases retried_of_disconnected law huse hopen hrole hmade hdisc with
    ⟨events, htrace, ⟨-, bytes, -, written, -, hmem⟩, -⟩
  exact ⟨⟨status, hfailed⟩, events, bytes, written, htrace, hmem⟩

/-- A failed `ConnectDataLink` can be retried exactly while the session is
    disconnected, whatever was called in between. -/
theorem retried_iff (law : HdlcLinkLaw L) {s0 s : State L} {ops : List Operation}
    (hfailed : FailedConnect s0) (hs : (run ops (exec .connectDataLink s0).2).2 = s)
    (hopen : s.isOpens.headD true = true) :
    Retried law s ↔ L.sessionState s.session = .disconnected := by
  -- No run changes the options, so the retry has those of the call that failed.
  have hoptions : s.options = s0.options := by
    rw [← hs]
    exact (sameMake_primitives.run ops _).1.trans (sameMake_primitives.exec .connectDataLink s0).1
  rcases hfailed.options with ⟨huse, hrole, hmade⟩
  rw [← hoptions] at huse hrole hmade
  constructor
  · intro hretried
    by_contra hdisc
    exact not_retried law huse hopen hrole hmade hdisc hretried
  · exact retried_of_disconnected law huse hopen hrole hmade

/-- A client whose SNRM could not be written. The session waits for a UA from
    then on, so the guard in front of `EnsureSession` keeps it. -/
theorem retried_unwritten :
    let start := { Reference.hdlcChannel Reference.sessionOptions [] with writes := [.writeFailed] }
    let s := (run [.close, .open] (exec .connectDataLink start).2).2
    Retried Reference.linkLaw s ↔ Reference.hdlcLib.sessionState s.session = .disconnected :=
  have hfailed : FailedConnect { Reference.hdlcChannel Reference.sessionOptions [] with
      writes := [.writeFailed] } :=
    failedConnect_of_disconnected Reference.linkLaw (by decide +kernel) (by decide +kernel)
      (by decide +kernel) (by decide +kernel) (by decide +kernel)
      (show (exec .connectDataLink _).1 = .status (.fail .writeFailed) by decide +kernel)
  retried_iff Reference.linkLaw hfailed rfl (by decide +kernel)

/-- The reply to the SNRM does not come in time, on any attempt. The stream is
    closed and opened, and the UA that is there now is not even asked for. -/
theorem retried_refuted :
    let start := Reference.hdlcChannel Reference.sessionOptions
      [⟨.timeout, []⟩, ⟨.timeout, []⟩, ⟨.timeout, []⟩, ⟨.timeout, []⟩,
        Reference.arrived (Reference.toClient Reference.ua [])]
    let s := (run [.close, .open] (exec .connectDataLink start).2).2
    FailedConnect start ∧ s.isOpens.headD true = true ∧
      s.reads = [Reference.arrived (Reference.toClient Reference.ua [])] ∧
      (exec .connectDataLink s).1 = .status (.fail .unsupportedFeature) ∧
      ¬ Retried Reference.linkLaw s :=
  ⟨failedConnect_of_disconnected Reference.linkLaw (by decide +kernel) (by decide +kernel)
      (by decide +kernel) (by decide +kernel) (by decide +kernel)
      (show (exec .connectDataLink _).1 = .status (.fail .timeout) by decide +kernel),
    by decide +kernel, by decide +kernel, by decide +kernel,
    not_retried Reference.linkLaw (by decide +kernel) (by decide +kernel) (by decide +kernel)
      (by decide +kernel) (by decide +kernel)⟩

end Hdlc

end DlmsProfile
