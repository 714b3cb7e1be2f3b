import DlmsProfile.Hdlc.Renewal
import DlmsProfile.Reference.Channels
import DlmsProfile.Reference.Laws

/-!
# A Channel without Addresses

Where the library refuses an address of the options, the constructor says nothing
and goes on with a session of its own: a client, under default addresses. Nothing
in the channel remembers that the options were refused. That it stays silent all
the same is found out call by call. The two calls that establish a link make the
options anew and fail with them, a call that sends without a session builds its
frame from the addresses and fails there, and the other calls depend on a session
that nobody can ask for a link any more.

Without a session the channel still hears: what it hands over then needs no
address.

## Main definitions

* `Hdlc.Unaddressed`: The library refuses an address of the options.
* `Hdlc.Asleep`: A channel left with the session of the constructor.
* `Hdlc.Silent`: Events that write nothing, and queue nothing in session mode.

## Theorems

* `Hdlc.exec_silent`: What a call does.
* `Hdlc.silent`: A run writes nothing, and hands nothing over in session mode.
-/

namespace DlmsProfile

namespace Hdlc

variable {L : HdlcLib} {options : ApduChannelOptions}

/-- The library refuses an address of the options. -/
def Unaddressed (L : HdlcLib) (options : ApduChannelOptions) : Prop :=
  (L.makeClientAddress options.hdlcClientAddress).1 ≠ .ok ∨
    (L.makeServerAddress options.hdlcLogicalDeviceAddress options.hdlcPhysicalDeviceAddress).1 ≠ .ok

/-- Then there are no options for a session. -/
theorem makeHdlcSessionOptions_refuses (h : Unaddressed L options) :
    (makeHdlcSessionOptions L options).1 ≠ .ok := by
  simp only [makeHdlcSessionOptions]
  split
  next hclient => exact hclient
  next hclient =>
    rw [not_not, mapHdlcStatus_eq_ok] at hclient
    exact fun hserver => h.elim (fun hc => hc hclient)
      fun hs => hs (mapHdlcStatus_eq_ok.mp hserver)

/-- A channel left with the session of the constructor. -/
structure Asleep (law : HdlcDormantLaw L) (options : ApduChannelOptions) (s : State L) : Prop where
  options : s.options = options
  dormant : law.dormant s.session

/-- Nothing was written, and in session mode no APDU was queued, however the call
    ended. -/
def Silent (options : ApduChannelOptions) (events : List (Event L)) (_ : Option ProfileStatus) :
    Prop :=
  written events = [] ∧ (options.hdlcUseSession = true → queued events = [])

theorem silent_joins : Proc.Joins (Silent (L := L) options) where
  nil _ := ⟨rfl, fun _ => rfl⟩
  append := by
    rintro a b o ⟨hw, hq⟩ ⟨hw', hq'⟩
    refine ⟨?_, fun huse => ?_⟩
    · rw [written_append, hw, hw']
      rfl
    · rw [queued_append, hq huse, hq' huse]
      rfl

section Calls

variable {law : HdlcDormantLaw L}

/-- A step that is silent and leaves the channel asleep. -/
abbrev Sleeps (law : HdlcDormantLaw L) (options : ApduChannelOptions) {α : Type} (x : Call L α) :
    Prop :=
  Proc.LogsFrom (Asleep law options) (·.trace) (Silent options) x

/-- A step that changes neither options nor session, and records one event that is
    neither a write nor an APDU. -/
theorem sleeps_of_one {α : Type} {x : Call L α} (event : State L → Event L)
    (hoptions : ∀ s, (x s).2.options = s.options) (hsession : ∀ s, (x s).2.session = s.session)
    (htrace : ∀ s, (x s).2.trace = s.trace ++ [event s])
    (hwritten : ∀ s, written [event s] = []) (hqueued : ∀ s, queued [event s] = []) :
    Sleeps law options x := by
  intro s hs
  exact ⟨⟨(hoptions s).trans hs.options, hsession s ▸ hs.dormant⟩, [event s], htrace s, hwritten s,
    fun _ => hqueued s⟩

/-- A step that leaves the state alone. -/
theorem sleeps_of_same {α : Type} {x : Call L α} (h : ∀ s, (x s).2 = s) :
    Sleeps law options x :=
  Proc.logsFrom_of_same silent_joins (fun s hs => (h s).symm ▸ hs) fun s => by rw [h]

/-- A call that fails at once is silent. -/
theorem sleeps_of_fail {α : Type} {x : Call L α}
    (h : ∀ s, Asleep law options s → ∃ status, x s = (.fail status, s)) :
    Sleeps law options x := by
  intro s hs
  rcases h s hs with ⟨status, hx⟩
  rw [hx]
  exact ⟨hs, [], (List.append_nil _).symm, rfl, fun _ => rfl⟩

theorem require_sleeps (condition : State L → Bool) (status : ProfileStatus) :
    Sleeps law options (require condition status) := by
  refine sleeps_of_same fun s => ?_
  rw [require]
  split <;> rfl

theorem isOpen_sleeps : Sleeps law options (isOpen (L := L)) :=
  sleeps_of_one (fun s => .transport (.isOpen (s.isOpens.headD true))) (fun _ => rfl)
    (fun _ => rfl) (fun _ => rfl) (fun _ => rfl) fun _ => rfl

theorem requireOpen_sleeps : Sleeps law options (requireOpen (L := L)) := by
  refine Proc.logsFrom_bind silent_joins isOpen_sleeps fun opened => ?_
  cases opened with
  | true => exact sleeps_of_same fun _ => rfl
  | false => exact sleeps_of_same fun _ => rfl

/-- The options fail anew, and what follows `EnsureSession` is never reached. -/
theorem ensured_sleeps (hbad : Unaddressed L options) {α : Type} (k : Unit → Call L α) :
    Sleeps law options (ensureSession >>= k) := by
  refine sleeps_of_fail fun s hs => ?_
  have hmade : (makeHdlcSessionOptions L s.options).1 ≠ .ok := by
    rw [hs.options]
    exact makeHdlcSessionOptions_refuses hbad
  have hcall : ensureSession s = (.fail (makeHdlcSessionOptions L s.options).1, s) := if_pos hmade
  exact ⟨_, Proc.bind_of_fail _ hcall⟩

theorem connectDataLink_sleeps (hbad : Unaddressed L options) :
    Sleeps law options (connectDataLink (L := L)) := by
  refine Proc.logsFrom_bind silent_joins (require_sleeps _ _) fun _ => ?_
  refine Proc.logsFrom_bind silent_joins requireOpen_sleeps fun _ => ?_
  exact Proc.logsFrom_bind silent_joins (require_sleeps _ _) fun _ => ensured_sleeps hbad _

theorem acceptDataLink_sleeps (hbad : Unaddressed L options) :
    Sleeps law options (acceptDataLink (L := L)) := by
  refine Proc.logsFrom_bind silent_joins (require_sleeps _ _) fun _ => ?_
  refine Proc.logsFrom_bind silent_joins requireOpen_sleeps fun _ => ?_
  exact Proc.logsFrom_bind silent_joins (require_sleeps _ _) fun _ => ensured_sleeps hbad _

/-- The session builds no request to release a link. -/
theorem disconnectDataLink_sleeps : Sleeps law options (disconnectDataLink (L := L)) := by
  refine Proc.logsFrom_bind silent_joins (require_sleeps _ _) fun _ => ?_
  refine Proc.logsFrom_bind silent_joins requireOpen_sleeps fun _ => ?_
  intro s hs
  rcases law.disconnectRequest hs.dormant with ⟨hne, hdormant⟩
  have hbuild : sessionBuild L.buildDisconnectRequest s =
      (.fail (mapHdlcStatus (L.buildDisconnectRequest s.session).1),
        { s with session := (L.buildDisconnectRequest s.session).2.2 }) :=
    if_neg fun hc => hne (mapHdlcStatus_eq_ok.mp hc)
  rw [Proc.bind_of_fail _ hbuild]
  exact ⟨⟨hs.options, hdormant⟩, [], (List.append_nil _).symm, rfl, fun _ => rfl⟩

/-- A frame needs both addresses. -/
theorem buildFrame_fails (hbad : Unaddressed L options) (lpdu : List UInt8) {s : State L}
    (hs : s.options = options) : ∃ status, buildFrame lpdu s = (.fail status, s) := by
  have hfails : ∀ {β : Type} {result : HdlcStatus × L.Address} {k : L.Address → Call L β},
      result.1 ≠ .ok →
      (checked result >>= k) s = (.fail (mapHdlcStatus result.1), s) := by
    intro β result k hne
    exact Proc.bind_of_fail _ (if_neg fun hc => hne (mapHdlcStatus_eq_ok.mp hc))
  rw [buildFrame, Proc.gets_bind, Proc.gets_bind, hs]
  -- The client's address is made first, and if it is right the server's is not.
  by_cases hclient : (L.makeClientAddress options.hdlcClientAddress).1 = .ok
  · have hfirst : checked (L.makeClientAddress options.hdlcClientAddress) s =
        (.done (L.makeClientAddress options.hdlcClientAddress).2, s) :=
      if_pos (mapHdlcStatus_eq_ok.mpr hclient)
    rw [Proc.bind_of_done _ hfirst]
    exact ⟨_, hfails (hbad.resolve_left fun hc => hc hclient)⟩
  · exact ⟨_, hfails hclient⟩

/-- A session that is not connected refuses, and so does a frame without
    addresses. -/
theorem sendApdu_sleeps (hbad : Unaddressed L options) (apdu : ProfileByteView) :
    Sleeps law options (sendApdu (L := L) apdu) := by
  refine sleeps_of_fail fun s hs => ?_
  rw [sendApdu]
  -- It fails a check, or there is no link, or no address to build a frame with.
  split
  · exact ⟨_, rfl⟩
  split
  · exact ⟨_, rfl⟩
  simp only
  split
  · exact ⟨_, rfl⟩
  split
  · have hstate : L.sessionState s.session ≠ .connected := by
      rw [law.disconnected hs.dormant]
      exact fun h => by cases h
    rw [sendSessionInformation, if_pos hstate]
    exact ⟨_, rfl⟩
  · rcases buildFrame_fails hbad (encodeApdu L s.options apdu.data).2 hs.options with
      ⟨status, hbuild⟩
    exact ⟨status, Proc.bind_of_fail _ hbuild⟩

theorem receiveDecodedFrame_sleeps : Sleeps law options (receiveDecodedFrame (L := L)) := by
  intro s hs
  have haside := receiveDecodedFrame_aside s
  rcases receiveDecodedFrame_readsOnly s with ⟨taken, -, htrace⟩
  rcases haside.events with ⟨events, htrace', hall⟩
  obtain rfl := List.append_cancel_left (htrace'.symm.trans htrace)
  refine ⟨⟨haside.options.trans hs.options, haside.session ▸ hs.dormant⟩, _, htrace, ?_,
    fun _ => queued_of_aside hall⟩
  refine List.filterMap_eq_nil_iff.mpr fun e he => ?_
  rcases List.mem_map.mp he with ⟨read, -, rfl⟩
  rfl

/-- In session mode the session accepts nothing. Without one no frame is answered. -/
theorem decodeFrame_sleeps (frame : L.Frame) :
    Sleeps law options (decodeFrameToPendingApdu frame) := by
  intro s hs
  by_cases huse : s.options.hdlcUseSession = true
  · rcases decodeFrame_cases frame huse with ⟨-, h⟩ | ⟨-, -, h⟩ | ⟨-, h⟩ <;> rw [h]
    · exact ⟨⟨hs.options, hs.dormant⟩, [], (List.append_nil _).symm, rfl, fun _ => rfl⟩
    · exact ⟨⟨hs.options, hs.dormant⟩, [], (List.append_nil _).symm, rfl, fun _ => rfl⟩
    · -- Whatever the reassembler has let through, the session rejects it.
      have hpushed : law.dormant
          (reassembling (L.pushFrame s.reassembler frame).2.2 s).session := hs.dormant
      rcases law.receive (L.pushFrame s.reassembler frame).2.1.1 hpushed with ⟨hne, hdormant⟩
      rcases acceptCompleted_cases (L.pushFrame s.reassembler frame).2.1.1
          (L.pushFrame s.reassembler frame).2.1.2
          (reassembling (L.pushFrame s.reassembler frame).2.2 s) with
        ⟨-, h⟩ | ⟨hok, -⟩ | ⟨hok, -⟩ | ⟨hok, -⟩
      · rw [h]
        exact ⟨⟨hs.options, hdormant⟩, _, rfl, rfl, fun _ => rfl⟩
      · exact absurd hok hne
      · exact absurd hok hne
      · exact absurd hok hne
  · have hplain : ¬ options.hdlcUseSession = true := hs.options ▸ huse
    rcases decodeFrame_plain_cases frame huse with
      ⟨-, h⟩ | ⟨-, status, -, h⟩ | ⟨-, apdu, -, h⟩ <;> rw [h]
    · exact ⟨hs, [], (List.append_nil _).symm, rfl, fun _ => rfl⟩
    · exact ⟨⟨hs.options, hs.dormant⟩, _, rfl, rfl, fun _ => rfl⟩
    · exact ⟨⟨hs.options, hs.dormant⟩, _, rfl, rfl, fun huse => absurd huse hplain⟩

theorem openStream_sleeps : Sleeps law options (openStream (L := L)) := by
  refine sleeps_of_one (fun s => .transport (.open (s.opens.headD .ok)))
    ?_ ?_ ?_ (fun _ => rfl) fun _ => rfl
  all_goals
    intro s
    rw [openStream, check_snd]

theorem closeStream_sleeps : Sleeps law options (closeStream (L := L)) := by
  refine sleeps_of_one (fun s => .transport (.close (s.closes.headD .ok)))
    ?_ ?_ ?_ (fun _ => rfl) fun _ => rfl
  all_goals
    intro s
    rw [closeStream, check_snd]

/-- What a call does. -/
theorem exec_silent (hbad : Unaddressed L options) (op : Operation) {s : State L}
    (hs : Asleep law options s) : Asleep law options (exec op s).2 ∧
      ∃ events, (exec op s).2.trace = s.trace ++ events ∧ Silent options events none := by
  -- How a call ended is no part of what is said about it.
  have hof : ∀ {α : Type} {x : Call L α}, Sleeps law options x → Asleep law options (x s).2 ∧
      ∃ events, (x s).2.trace = s.trace ++ events ∧ Silent options events none :=
    fun h => h s hs
  cases op with
  | «open» => exact hof openStream_sleeps
  | close => exact hof closeStream_sleeps
  | isOpen => exact hof isOpen_sleeps
  | connectDataLink => exact hof (connectDataLink_sleeps hbad)
  | acceptDataLink => exact hof (acceptDataLink_sleeps hbad)
  | disconnectDataLink => exact hof disconnectDataLink_sleeps
  | send apdu => exact hof (sendApdu_sleeps hbad apdu)
  | receive call =>
      have hawait : Sleeps law options (awaitApdu (L := L)) :=
        awaitApdu_logsFrom silent_joins (fun h => h) receiveDecodedFrame_sleeps decodeFrame_sleeps
      exact receive_logsFrom silent_joins hawait (fun _ h => ⟨h.options, h.dormant⟩) call s hs

/-- What a run does. -/
theorem run_silent (hbad : Unaddressed L options) (ops : List Operation) {s : State L}
    (hs : Asleep law options s) :
    ∃ events, (run ops s).2.trace = s.trace ++ events ∧ Silent options events none := by
  -- On the calls, each of which leaves the channel asleep.
  induction ops generalizing s with
  | nil => exact ⟨[], (List.append_nil _).symm, silent_joins.nil none⟩
  | cons op ops ih =>
      rcases exec_silent hbad op hs with ⟨hs', events, htrace, hsilent⟩
      cases hw : (exec op s).1.isWaiting with
      | true =>
          rw [run_of_waiting hw]
          exact ⟨events, htrace, hsilent⟩
      | false =>
          rcases ih hs' with ⟨events', htrace', hsilent'⟩
          rw [run_of_returned hw]
          exact ⟨events ++ events', by rw [htrace', htrace, List.append_assoc],
            silent_joins.append hsilent hsilent'⟩

end Calls

/-- The constructor leaves such a channel with a client session. -/
theorem asleep_of_new (law : HdlcDormantLaw L) (hbad : Unaddressed L options) {s : State L}
    (hmade : s.toChannel = newChannel L options) : Asleep law options s := by
  have hsession : s.session = L.newSession (makeDefaultSessionOptions L) := by
    have hnew : (newChannel L options).session = L.newSession (makeDefaultSessionOptions L) := by
      simp only [newChannel, if_neg (makeHdlcSessionOptions_refuses hbad)]
    rw [← hnew, ← hmade]
  refine ⟨?_, ?_⟩
  · rw [hmade]
    rfl
  · rw [hsession]
    exact law.new rfl

/-- A channel whose options hold an address the library refuses, whatever is called
    and whatever comes in: no frame is ever written, and in session mode no APDU is
    ever handed over. -/
theorem silent (law : HdlcDormantLaw L) (hbad : Unaddressed L options) {start : State L}
    (hmade : start.toChannel = newChannel L options) (ops : List Operation) :
    ∃ events, (run ops start).2.trace = start.trace ++ events ∧ written events = [] ∧
      (options.hdlcUseSession = true → (run ops start).1.filterMap Result.delivered = []) := by
  rcases run_silent hbad ops (asleep_of_new law hbad hmade) with
    ⟨events, htrace, hwritten, hqueued⟩
  -- What is returned was queued, and nothing was.
  rcases run_returned ops start with ⟨events', htrace', hreturned⟩
  obtain rfl := List.append_cancel_left (htrace'.symm.trans htrace)
  refine ⟨_, htrace, hwritten, fun huse => ?_⟩
  have hnone : start.pendingApdus = [] := by
    rw [hmade]
    rfl
  rw [hnone, hqueued huse] at hreturned
  exact (List.append_eq_nil_iff.mp (List.sublist_nil.mp hreturned)).1

/-- A server address of two bytes, which only the long form of addresses could
    hold: a request for a link and two frames come in, and every call is made. -/
theorem silent_physical :
    let options := { Reference.serverOptions with hdlcPhysicalDeviceAddress := 1 }
    let start := Reference.hdlcChannel options
      [Reference.arrived (Reference.toServer Reference.snrm []),
        Reference.arrived (Reference.toServer 0x10 [0xE6, 0xE6, 0x00, 0xC0]),
        Reference.arrived (Reference.receiveReady 0)]
    let ops : List Operation := [.open, .acceptDataLink, .connectDataLink, .receive .vector,
      .send (.of [0xC0]), .receive (.into ⟨.of [0], some 7⟩), .disconnectDataLink, .close]
    ∃ events, (run ops start).2.trace = start.trace ++ events ∧ written events = [] ∧
      (options.hdlcUseSession = true → (run ops start).1.filterMap Result.delivered = []) :=
  silent Reference.dormantLaw (Or.inr (by decide)) rfl _

end Hdlc

end DlmsProfile
