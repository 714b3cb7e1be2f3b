import DlmsProfile.Hdlc.Handover
import DlmsProfile.Hdlc.Link

/-!
# A New Data Link

Establishing a link on a disconnected session makes the session, the decoder and
the reassembler anew and drops the decoded frames, so of the link before nothing
is left to be decoded. What is left is what was decoded already: the queue of
APDUs is emptied by `Close` only, and a receive call hands its front over on the
new link.

Cleanness is told by comparison with a channel just constructed in the same
surroundings. A call that establishes a link makes the same of both, unless an
APDU is queued.

## Main definitions

* `Hdlc.renewed`: The channel just constructed, in the same surroundings.
* `Hdlc.StartsClean`: What is handed over from a call on owes nothing to what was
  received before it.

## Theorems

* `Hdlc.run_returned`: What a run hands over was queued before it or by it.
* `Hdlc.establish_renewed`: Establishing a link makes the channel anew.
* `Hdlc.starts_clean_iff`: A new link starts clean when no APDU is queued.
-/

namespace DlmsProfile

namespace Hdlc

variable {L : HdlcLib}

/-- The call establishes a data link. -/
def Operation.establishes : Operation → Bool
  | .connectDataLink => true
  | .acceptDataLink => true
  | _ => false

/-- The channel just constructed, in the surroundings of a state. -/
def renewed (s : State L) : State L := { s with toChannel := newChannel L s.options }

/-- From the call on, whatever the calls after it, an APDU handed over was
    decoded since, and what is decoded is what a channel just constructed
    decodes. -/
def StartsClean (op : Operation) (s : State L) : Prop :=
  ∀ ops : List Operation, ∃ events events',
    (run (op :: ops) s).2.trace = s.trace ++ events ∧
      (run (op :: ops) (renewed s)).2.trace = s.trace ++ events' ∧
      ((run (op :: ops) s).1.filterMap Result.delivered).Sublist (queued events) ∧
      queued events = queued events'

/-- With no APDU queued, a disconnected channel is made anew altogether. -/
theorem ensureSession_renewed {s : State L} (hmade : (makeHdlcSessionOptions L s.options).1 = .ok)
    (hdisc : L.sessionState s.session = .disconnected)
    (hbuffer : s.readBufferSize = scratchSize s.options) (hempty : s.pendingApdus = []) :
    ensureSession s = (.done (), renewed s) := by
  have hdisc' : L.sessionState s.toChannel.session = .disconnected := hdisc
  simp only [ensureSession, renewed, newChannel, hmade, ne_eq, not_true_eq_false, if_false,
    hdisc', if_true, ← hbuffer, ← hempty]

/-- And a channel just constructed is made anew into itself, whatever its
    session says. -/
theorem ensureSession_of_renewed {s : State L}
    (hmade : (makeHdlcSessionOptions L s.options).1 = .ok) :
    ensureSession (renewed s) = (.done (), renewed s) := by
  have hmade' : (makeHdlcSessionOptions L (renewed s).options).1 = .ok := hmade
  by_cases hdisc : L.sessionState (renewed s).session = .disconnected
  · exact ensureSession_renewed (s := renewed s) hmade' hdisc rfl rfl
  · exact ensureSession_kept hmade' hdisc

/-- Establishing a link makes the channel anew. -/
theorem establishing_renewed {role : HdlcProfileRole} {rest : Call L Unit} {s s' : State L}
    (h : establishing role rest s = (.done (), s'))
    (hdisc : L.sessionState s.session = .disconnected)
    (hbuffer : s.readBufferSize = scratchSize s.options) (hempty : s.pendingApdus = []) :
    establishing role rest (renewed s) = establishing role rest s := by
  rcases establishing_done h with ⟨huse, hopen, hrole, s1, hensure, -⟩
  have hmade : (makeHdlcSessionOptions L (asked s).options).1 = .ok := ensureSession_done hensure
  have hkept : asked (renewed s) = renewed (asked s) := rfl
  have huse' : (renewed s).options.hdlcUseSession = true := huse
  have hopen' : (renewed s).isOpens.headD true = true := hopen
  have hrole' : ((renewed s).options.hdlcRole == role) = true := hrole
  -- A disconnected session is replaced in any case, and by the same one.
  rw [establishing_of_ready huse hopen hrole, establishing_of_ready huse' hopen' hrole', hkept,
    Proc.bind_of_done _ (ensureSession_of_renewed hmade),
    Proc.bind_of_done _ (ensureSession_renewed hmade hdisc hbuffer hempty)]

/-- The same, told of the calls. -/
theorem exec_renewed {op : Operation} {s : State L} (hop : op.establishes = true)
    (hok : (exec op s).1 = .status (.done ()))
    (hdisc : L.sessionState s.session = .disconnected)
    (hbuffer : s.readBufferSize = scratchSize s.options) (hempty : s.pendingApdus = []) :
    exec op (renewed s) = exec op s := by
  -- Two calls establish a link, and both begin in the same way.
  cases op with
  | connectDataLink =>
      have hdone : (connectDataLink s).1 = .done () := Result.status.inj hok
      have hsame : connectDataLink (renewed s) = connectDataLink s :=
        establishing_renewed (Prod.ext hdone rfl) hdisc hbuffer hempty
      rw [exec, exec, hsame]
  | acceptDataLink =>
      have hdone : (acceptDataLink s).1 = .done () := Result.status.inj hok
      have hsame : acceptDataLink (renewed s) = acceptDataLink s :=
        establishing_renewed (Prod.ext hdone rfl) hdisc hbuffer hempty
      rw [exec, exec, hsame]
  | _ => cases hop

theorem run_congr {op : Operation} {s t : State L} (h : exec op s = exec op t)
    (ops : List Operation) : run (op :: ops) s = run (op :: ops) t := by
  rw [run, run, h]

theorem run_one (op : Operation) (s : State L) : run [op] s = ([(exec op s).1], (exec op s).2) := by
  cases hw : (exec op s).1.isWaiting with
  | true => exact run_of_waiting hw
  | false => exact run_of_returned hw

/-- `Close` hands nothing over, and empties the queue. -/
theorem exec_close (s : State L) :
    ∃ events, (exec .close s).2.trace = s.trace ++ events ∧
      (exec .close s).1.delivered = none ∧ (exec .close s).2.pendingApdus = [] ∧
      queued events = [] := by
  have hclosed : (exec .close s).2 = (closeStream s).2 := rfl
  rw [hclosed, closeStream, check_snd]
  exact ⟨[_], rfl, rfl, rfl, rfl⟩

/-- One call of any kind: what it hands over and leaves in the queue was queued
    before it or by it. -/
theorem exec_returned (op : Operation) (s : State L) :
    ∃ events, (exec op s).2.trace = s.trace ++ events ∧
      ((exec op s).1.delivered.toList ++ (exec op s).2.pendingApdus).Sublist
        (s.pendingApdus ++ queued events) := by
  by_cases hclose : op = .close
  · obtain rfl := hclose
    rcases exec_close s with ⟨events, htrace, hnone, hempty, -⟩
    refine ⟨events, htrace, ?_⟩
    rw [hnone, hempty]
    exact List.nil_sublist _
  · rcases exec_delivers hclose s with ⟨events, htrace, hqueue⟩
    exact ⟨events, htrace, hqueue ▸ List.Sublist.refl _⟩

/-- What a run hands over was queued before it or by it. -/
theorem run_returned (ops : List Operation) (s : State L) :
    ∃ events, (run ops s).2.trace = s.trace ++ events ∧
      ((run ops s).1.filterMap Result.delivered ++ (run ops s).2.pendingApdus).Sublist
        (s.pendingApdus ++ queued events) := by
  induction ops generalizing s with
  | nil => exact ⟨[], (List.append_nil _).symm, List.sublist_append_left _ _⟩
  | cons op ops ih =>
      rcases exec_returned op s with ⟨events, htrace, hqueue⟩
      cases hw : (exec op s).1.isWaiting with
      | true =>
          rw [run_of_waiting hw]
          refine ⟨events, htrace, ?_⟩
          rw [delivered_cons, List.filterMap_nil, List.append_nil]
          exact hqueue
      | false =>
          rcases ih (exec op s).2 with ⟨events', htrace', hqueue'⟩
          rw [run_of_returned hw]
          refine ⟨events ++ events', ?_, ?_⟩
          · rw [htrace', htrace, List.append_assoc]
          · -- The rest of the run draws on what this call left and queued.
            have hfirst := hqueue.append (List.Sublist.refl (queued events'))
            rw [List.append_assoc (exec op s).1.delivered.toList] at hfirst
            have hrest := hqueue'.append_left (exec op s).1.delivered.toList
            rw [delivered_cons, List.append_assoc, queued_append,
              ← List.append_assoc _ _ (queued _)]
            exact hrest.trans hfirst

/-- A call that establishes a link neither queues nor hands over an APDU. -/
theorem establishes_spares {op : Operation} (hop : op.establishes = true) :
    op.isReceive = false ∧ op ≠ .close := by
  cases op with
  | connectDataLink => exact ⟨rfl, fun h => by cases h⟩
  | acceptDataLink => exact ⟨rfl, fun h => by cases h⟩
  | _ => cases hop

/-- An APDU still queued is handed over on the new link. -/
theorem not_startsClean {op : Operation} {s : State L} (hop : op.establishes = true)
    (hok : (exec op s).1 = .status (.done ())) (hpending : s.pendingApdus ≠ []) :
    ¬ StartsClean op s := by
  intro hclean
  rcases establishes_spares hop with ⟨hreceive, hclose⟩
  rcases exec_sparesQueue hreceive hclose s with ⟨⟨hkept, events, htrace, hnone⟩, hdelivered⟩
  have hpending' : (exec op s).2.pendingApdus ≠ [] := hkept ▸ hpending
  -- The next call takes the front of the queue and does nothing else.
  have hready : awaitApdu (exec op s).2 = (.done (), (exec op s).2) :=
    PendingQueue.await_of_pending hpending'
  have hcall : (exec (.receive .vector) (exec op s).2).1.delivered =
      some ((exec op s).2.pendingApdus.headD []) :=
    PendingQueue.call_of_pending hready .vector fun room h => by cases h
  have hafter : (exec (.receive .vector) (exec op s).2).2.trace = (exec op s).2.trace := by
    rcases receive_cases .vector (exec op s).2 with ⟨hlost, -⟩ | ⟨s1, hw, -, -, hpop⟩
    · rw [hcall] at hlost
      cases hlost
    · rw [hready] at hw
      obtain ⟨-, rfl⟩ := Prod.mk.inj hw
      rw [hpop]
      rfl
  have hreturned : (exec op s).1.isWaiting = false := by
    rw [hok]
    rfl
  rcases hclean [.receive .vector] with ⟨since, -, hsince, -, hdecoded, -⟩
  have htrace' : (run [op, .receive .vector] s).2.trace = s.trace ++ events := by
    rw [run_of_returned hreturned, run_one, hafter, htrace]
  obtain rfl := List.append_cancel_left (hsince.symm.trans htrace')
  rw [hnone, run_of_returned hreturned, run_one, delivered_cons, delivered_cons, hdelivered,
    hcall] at hdecoded
  cases hdecoded

/-- A new link starts clean exactly when no APDU of the link before is queued. -/
theorem starts_clean_iff {options : ApduChannelOptions} {s : State L} {op : Operation}
    (hs : Reachable L options s) (hop : op.establishes = true)
    (hdisc : L.sessionState s.session = .disconnected)
    (hok : (exec op s).1 = .status (.done ())) :
    StartsClean op s ↔ s.pendingApdus = [] := by
  constructor
  -- An APDU left in the queue is handed out by a later call.
  · intro hclean
    by_contra hpending
    exact not_startsClean hop hok hpending hclean
  -- With an empty queue the call does what it would on a channel made anew.
  · intro hempty ops
    rcases make_of_reachable hs with ⟨hoptions, hbuffer⟩
    have hsame := run_congr (exec_renewed hop hok hdisc (hoptions ▸ hbuffer) hempty) ops
    rcases run_returned (op :: ops) s with ⟨events, htrace, hqueue⟩
    rw [hempty, List.nil_append] at hqueue
    refine ⟨events, events, htrace, ?_, (List.sublist_append_left _ _).trans hqueue, rfl⟩
    rw [hsame]
    exact htrace

/-- A client that disconnects with nothing queued and connects again. -/
theorem starts_clean_settled :
    let start := Reference.hdlcChannel Reference.sessionOptions
      [Reference.arrived (Reference.toClient Reference.ua []),
        Reference.arrived (Reference.toClient Reference.ua []),
        Reference.arrived (Reference.toClient Reference.ua [])]
    let s := (run [.connectDataLink, .disconnectDataLink] start).2
    StartsClean .connectDataLink s ↔ s.pendingApdus = [] :=
  have hs : Reachable Reference.hdlcLib Reference.sessionOptions
      (run [.connectDataLink, .disconnectDataLink]
        (Reference.hdlcChannel Reference.sessionOptions
          [Reference.arrived (Reference.toClient Reference.ua []),
            Reference.arrived (Reference.toClient Reference.ua []),
            Reference.arrived (Reference.toClient Reference.ua [])])).2 :=
    ⟨_, _, rfl, rfl, rfl⟩
  starts_clean_iff hs rfl (by decide +kernel) (by decide +kernel)

/-- An APDU that waited in the queue, since a buffer was too small for it, is
    handed over on the link established after the next `Disconnect`. -/
theorem starts_clean_refuted :
    let start := Reference.hdlcChannel Reference.sessionOptions
      [Reference.arrived (Reference.toClient Reference.ua []),
        Reference.arrived (Reference.toClient 0x10 [0xE6, 0xE7, 0x00, 0xC4]),
        Reference.arrived (Reference.toClient Reference.ua []),
        Reference.arrived (Reference.toClient Reference.ua [])]
    let s := (run [.connectDataLink, .receive (.into ⟨.of [], some 0⟩), .disconnectDataLink]
      start).2
    Reachable Reference.hdlcLib Reference.sessionOptions s ∧
      Reference.hdlcLib.sessionState s.session = .disconnected ∧
      (exec .connectDataLink s).1 = .status (.done ()) ∧
      ¬ StartsClean .connectDataLink s :=
  ⟨⟨_, _, rfl, rfl, rfl⟩, by decide +kernel, by decide +kernel,
    not_startsClean rfl (by decide +kernel) (by decide +kernel)⟩

end Hdlc

end DlmsProfile
