import DlmsProfile.Hdlc.Invariant
import DlmsProfile.Hdlc.Laws

/-!
# Sending in Session Mode

`SendApdu` cuts an LPDU into I-frames and, for each of them, builds it, writes it
and waits until the session accepts a frame.

`Replay` reads a stretch of the trace as a run of the session: which I-frames
it built and which frames it accepted, in order. `Sends` is what a part of a
completed call did to the session and to the frames to come, and parts follow
one another. A call that does not complete has emitted an initial part of its
I-frames, which is what `Emission` says.

## Main definitions

* `Hdlc.Replay`: The run of the session behind a stretch of the trace.
* `Hdlc.Sends`: What a part of a completed `SendApdu` did.
* `Hdlc.recoded`: A segment with its bit set.
* `Hdlc.framesToSend`: The number of I-frames a call has to send.
* `Hdlc.Emission`: I-frames built from an LPDU, all or the first of them.

## Theorems

* `Hdlc.sendChunk_cases`: Everything a turn of the sending loop can come to.
* `Hdlc.builtFrom_spells`, `Hdlc.built_frame`: What the bytes of an I-frame are taken for.
* `Hdlc.retryLoop_done`: A completed wait ends with an accepted frame.
* `Hdlc.sendApdu_done`: What a completed `SendApdu` did.
* `Hdlc.sendApdu_emission`: What any call of `SendApdu` emitted.
-/

namespace DlmsProfile

namespace Hdlc

variable {L : HdlcLib}

/-- The bytes of the I-frames about to be written for the first time, in order. -/
def emittedBytes (events : List (Event L)) : List (List UInt8) :=
  events.filterMap fun
    | .emit _ bytes => some bytes
    | _ => none

theorem emittedBytes_append (a b : List (Event L)) :
    emittedBytes (a ++ b) = emittedBytes a ++ emittedBytes b := List.filterMap_append

theorem emittedBytes_reads (reads : List ReadEvent) :
    emittedBytes (reads.map fun e => (.transport (.read e) : Event L)) = [] := by
  refine List.filterMap_eq_nil_iff.mpr fun e he => ?_
  rcases List.mem_map.mp he with ⟨read, -, rfl⟩
  rfl

theorem emittedBytes_aside {event : Event L} {events : List (Event L)} (h : event.isAside) :
    emittedBytes (event :: events) = emittedBytes events := by
  cases event <;> first | rfl | exact h.elim

theorem mem_emittedBytes {events : List (Event L)} {bytes : List UInt8} :
    bytes ∈ emittedBytes events ↔ ∃ before, .emit before bytes ∈ events := by
  rw [emittedBytes, List.mem_filterMap]
  constructor
  · rintro ⟨e, he, hbytes⟩
    cases e with
    | emit before bytes' => exact ⟨before, Option.some.inj hbytes ▸ he⟩
    | _ => cases hbytes
  · rintro ⟨before, he⟩
    exact ⟨_, he, rfl⟩

/-- The run of a connected session behind a stretch of the trace, with the
    number of I-frames it built. -/
inductive Replay : L.Session → Nat → List (Event L) → L.Session → Prop
  | nil (σ : L.Session) : Replay σ 0 [] σ
  | aside {σ σ' : L.Session} {n : Nat} {event : Event L} {events : List (Event L)}
    (h : event.isAside) (hrest : Replay σ n events σ') : Replay σ n (event :: events) σ'
  | emit {σ σ1 σ' : L.Session} {n : Nat} {events : List (Event L)} {info : List UInt8}
    {pollFinal : Bool} {built bytes : List UInt8} (hσ : L.Connected σ)
    (h : L.buildInformationFrame σ info pollFinal = (.ok, built, σ1))
    (hrest : Replay σ1 n events σ') : Replay σ (n + 1) (.emit σ bytes :: events) σ'
  | accept {σ σ1 σ' : L.Session} {n : Nat} {events : List (Event L)} {frame : L.Frame}
    (hσ : L.Connected σ) (h : L.receiveFrame σ frame = (.ok, σ1))
    (hrest : Replay σ1 n events σ') : Replay σ n (.receive σ frame .ok :: events) σ'
  | reject {σ σ' : L.Session} {n : Nat} {events : List (Event L)} {frame : L.Frame}
    {status : HdlcStatus} (h : status ≠ .ok) (hrest : Replay σ n events σ') :
    Replay σ n (.receive σ frame status :: events) σ'

namespace Replay

variable {law} {σ σ1 σ' : L.Session} {n m : Nat} {events events' : List (Event L)}

theorem append (h : Replay σ n events σ1) (h' : Replay σ1 m events' σ') :
    Replay σ (n + m) (events ++ events') σ' := by
  induction h with
  | nil σ => rwa [Nat.zero_add]
  | aside ha _ ih => exact Replay.aside ha (ih h')
  | emit hσ hb _ ih =>
      rw [Nat.add_right_comm]
      exact Replay.emit hσ hb (ih h')
  | accept hσ hr _ ih => exact Replay.accept hσ hr (ih h')
  | reject hne _ ih => exact Replay.reject hne (ih h')

theorem of_aside (h : ∀ e ∈ events, e.isAside) : Replay σ 0 events σ := by
  induction events with
  | nil => exact Replay.nil σ
  | cons e events ih =>
      exact Replay.aside (h e List.mem_cons_self) (ih fun x hx => h x (List.mem_cons_of_mem e hx))

/-- V(S) counts the I-frames. -/
theorem vs_eq (law : HdlcSessionLaw L) (unnumbered : HdlcUnnumberedLaw L)
    (h : Replay σ n events σ') :
    law.vs σ' = law.vs σ + Fin.ofNat 8 n := by
  induction h with
  | nil σ => exact (Fin.add_zero _).symm
  | aside _ _ ih => exact ih
  | @emit σ _ _ n _ _ _ _ _ hσ hb _ ih =>
      rw [ih, (law.information hσ hb).2.1]
      refine Fin.ext ?_
      simp only [Fin.add_def, Fin.ofNat]
      omega
  | accept hσ hr _ ih => rw [ih, (unnumbered.accepted law hσ hr).2.1]
  | reject _ _ ih => exact ih

/-- As many I-frames were emitted. -/
theorem emittedBytes_length (h : Replay σ n events σ') : (emittedBytes events).length = n := by
  induction h with
  | nil σ => rfl
  | @aside _ _ _ event events ha _ ih => rwa [emittedBytes_aside ha]
  | emit _ _ _ ih => exact congrArg Nat.succ ih
  | accept _ _ _ ih => exact ih
  | reject _ _ ih => exact ih

end Replay

/-- What a part of a completed `SendApdu` did: the run of the session, the
    number of I-frames in it, and the frames taken. -/
structure Sends (n : Nat) (taken : List L.Frame) (s s' : State L) : Prop where
  options : s'.options = s.options
  connected : L.Connected s'.session
  replay : ∃ events, s'.trace = s.trace ++ events ∧ Replay s.session n events s'.session
  incoming : incoming s = taken ++ incoming s'

namespace Sends

variable {law} {n m : Nat} {taken taken' : List L.Frame} {s s1 s' : State L}

theorem trans (h : Sends n taken s s1) (h' : Sends m taken' s1 s') :
    Sends (n + m) (taken ++ taken') s s' := by
  rcases h with ⟨ho, -, ⟨ev, he, hr⟩, hi⟩
  rcases h' with ⟨ho', hc', ⟨ev', he', hr'⟩, hi'⟩
  refine ⟨ho'.trans ho, hc', ⟨ev ++ ev', ?_, hr.append hr'⟩, ?_⟩
  · rw [he', he, List.append_assoc]
  · rw [hi, hi', List.append_assoc]

/-- A part that left the session alone. -/
theorem of_aside (hσ : L.Connected s.session) (h : Aside s s')
    (hi : Hdlc.incoming s = taken ++ Hdlc.incoming s') : Sends 0 taken s s' := by
  rcases h with ⟨ho, hs, -, -, ev, he, hall⟩
  refine ⟨ho, hs ▸ hσ, ⟨ev, he, ?_⟩, hi⟩
  rw [hs]
  exact Replay.of_aside hall

theorem refl (hσ : L.Connected s.session) : Sends 0 [] s s :=
  of_aside hσ (Aside.refl s) rfl

end Sends

variable {law} {s s' : State L}

/-- `session_.ReceiveFrame` of a connected session, whatever it answers. -/
theorem sessionReceive_sends (law : HdlcSessionLaw L) (unnumbered : HdlcUnnumberedLaw L)
    (frame : L.Frame) (hσ : L.Connected s.session) : Sends 0 [] s (sessionReceive frame s).2 := by
  rcases hr : L.receiveFrame s.session frame with ⟨status, σ'⟩
  have hafter : (sessionReceive frame s).2 = { s with
      session := σ', trace := s.trace ++ [.receive s.session frame status] } := by
    simp only [sessionReceive, check_snd, hr]
  rw [hafter]
  by_cases hok : status = .ok
  · obtain rfl := hok
    have hσ' : L.Connected σ' := (unnumbered.accepted law hσ hr).1
    exact ⟨rfl, hσ', ⟨_, rfl, Replay.accept hσ hr (Replay.nil σ')⟩, rfl⟩
  · obtain rfl := law.rejected hσ hr hok
    exact ⟨rfl, hσ, ⟨_, rfl, Replay.reject hok (Replay.nil _)⟩, rfl⟩

/-- An attempt to get a reply, whatever it answers. -/
theorem control_sends (law : HdlcSessionLaw L) (unnumbered : HdlcUnnumberedLaw L)
    (hσ : L.Connected s.session) :
    ∃ taken, Sends 0 taken s (receiveSessionControlFrame s).2 := by
  have haside := receiveDecodedFrame_aside s
  have hin := receiveDecodedFrame_incoming s
  rcases hr : receiveDecodedFrame s with ⟨frame | status | _, s1⟩ <;> rw [hr] at haside hin
  · rw [receiveSessionControlFrame, Proc.bind_of_done _ hr]
    have h1 : Sends 0 [frame] s s1 := Sends.of_aside hσ haside hin
    exact ⟨_, h1.trans (sessionReceive_sends law unnumbered frame h1.connected)⟩
  · rw [receiveSessionControlFrame, Proc.bind_of_fail _ hr]
    exact ⟨[], Sends.of_aside hσ haside hin⟩
  · rw [receiveSessionControlFrame, Proc.bind_of_waiting _ hr]
    exact ⟨[], Sends.of_aside hσ haside hin⟩

theorem retriable_mapHdlcStatus {status : HdlcStatus}
    (h : mapHdlcStatus status ≠ .needMoreData) :
    isRetriableReceiveStatus (mapHdlcStatus status) = false := by
  cases status <;> first | rfl | exact absurd rfl h

/-- An attempt that got one: the frame taken is the one accepted, and V(A) is
    its N(R). -/
theorem control_done (law : HdlcSessionLaw L) (unnumbered : HdlcUnnumberedLaw L)
    (hσ : L.Connected s.session) (h : receiveSessionControlFrame s = (.done (), s')) :
    ∃ frame, Sends 0 [frame] s s' ∧ law.va s'.session = law.receiveSequence frame.control := by
  rcases Proc.bind_done_iff.mp h with ⟨frame, s1, hframe, hreceive⟩
  have haside := receiveDecodedFrame_aside s
  rw [hframe] at haside
  have h1 : Sends 0 [frame] s s1 := Sends.of_aside hσ haside (receiveDecodedFrame_done hframe)
  have h2 := sessionReceive_sends law unnumbered frame h1.connected
  rw [hreceive] at h2
  refine ⟨frame, h1.trans h2, ?_⟩
  rw [sessionReceive, check_done_iff, mapHdlcStatus_eq_ok] at hreceive
  rcases hreceive with ⟨hok, rfl⟩
  exact (unnumbered.accepted law h1.connected (Prod.ext hok rfl)).2.2.1

/-- A completed wait ends with an accepted frame. -/
theorem retryLoop_done (law : HdlcSessionLaw L) (unnumbered : HdlcUnnumberedLaw L)
    {bytes : List UInt8} {left : Nat} (hσ : L.Connected s.session)
    (h : retryLoop bytes left s = (.done (), s')) :
    ∃ taken frame, Sends 0 (taken ++ [frame]) s s' ∧
      law.va s'.session = law.receiveSequence frame.control := by
  induction left generalizing s with
  | zero =>
      rcases control_done law unnumbered hσ h with ⟨frame, hs, hva⟩
      exact ⟨[], frame, hs, hva⟩
  | succ left ih =>
      rcases hr : receiveSessionControlFrame s with ⟨⟨⟩ | status | _, s1⟩
      · rw [retryLoop_of_done hr] at h
        cases h
        rcases control_done law unnumbered hσ hr with ⟨frame, hs, hva⟩
        exact ⟨[], frame, hs, hva⟩
      · cases hagain : isRetriableReceiveStatus status with
        | false =>
            rw [retryLoop_of_fail hr (Or.inl hagain)] at h
            cases h
        | true =>
            rcases control_sends law unnumbered hσ with ⟨taken, h1⟩
            rw [hr] at h1
            rw [retryLoop_of_retry hr hagain] at h
            rcases Proc.bind_done_iff.mp h with ⟨_, s2, hsleep, h⟩
            rcases Proc.bind_done_iff.mp h with ⟨_, s3, hwrite, h⟩
            -- Neither the sleep nor the copy touches the session or the frames to come.
            have h2 : Sends 0 [] s1 s2 := by
              have haside := sleepBeforeRetry_aside s1
              have hsame := sleepBeforeRetry_sameIntake s1
              rw [hsleep] at haside hsame
              exact Sends.of_aside h1.connected haside hsame.incoming.symm
            have h3 : Sends 0 [] s2 s3 := by
              have haside := writeFrameBytes_aside bytes s2
              have hsame := writeFrameBytes_sameIntake bytes s2
              rw [hwrite] at haside hsame
              exact Sends.of_aside h2.connected haside hsame.incoming.symm
            rcases ih h3.connected h with ⟨taken', frame, h4, hva⟩
            have hall := ((h1.trans h2).trans h3).trans h4
            rw [List.append_nil, List.append_nil, ← List.append_assoc] at hall
            exact ⟨taken ++ taken', frame, hall, hva⟩
      · rw [retryLoop_of_waiting hr] at h
        cases h

/-- A full window that was waited for. -/
theorem awaitWindow_done (law : HdlcSessionLaw L) (unnumbered : HdlcUnnumberedLaw L)
    (hσ : L.Connected s.session)
    (h : awaitWindow s = (.done (), s')) : ∃ taken, Sends 0 taken s s' := by
  rw [awaitWindow] at h
  split at h
  · cases h
    exact ⟨[], Sends.refl hσ⟩
  · rcases control_done law unnumbered hσ h with ⟨frame, hs, -⟩
    exact ⟨[frame], hs⟩

/-- The state once the session has built an I-frame. -/
def emitted (bytes : List UInt8) (σ : L.Session) (s : State L) : State L :=
  { s with session := σ, trace := s.trace ++ [.emit s.session bytes] }

/-- The bytes of an I-frame the session built: a segment is decoded and encoded
    again with the segmentation bit set. -/
def recoded (L : HdlcLib) (limits : HdlcCodecLimits) (segmented : Bool) (built : List UInt8) :
    HdlcStatus × List UInt8 :=
  if segmented then
    let decoded := L.decodeFrame built limits
    if decoded.1 = .ok then L.encodeFrame { decoded.2 with segmented := true } limits
    else (decoded.1, [])
  else (.ok, built)

/-- The session builds the I-frame, and the codec sets its segmentation bit if it is to be
    set. -/
def BuildsFrame (chunk : List UInt8) (last : Bool) (s : State L) : Prop :=
  (L.buildInformationFrame s.session chunk last).1 = .ok ∧
    (recoded L s.hdlcLimits (!last) (L.buildInformationFrame s.session chunk last).2.1).1 = .ok

instance (chunk : List UInt8) (last : Bool) (s : State L) : Decidable (BuildsFrame chunk last s) :=
  inferInstanceAs (Decidable (_ ∧ _))

theorem buildSessionInformationFrame_of_built {information built : List UInt8}
    {segmented pollFinal : Bool} {s s1 : State L}
    (h : sessionBuild (fun σ => L.buildInformationFrame σ information pollFinal) s =
      (.done built, s1)) :
    buildSessionInformationFrame information segmented pollFinal s =
      checked (recoded L s1.hdlcLimits segmented built) s1 := by
  rw [buildSessionInformationFrame, Proc.bind_of_done _ h]
  -- The last frame is sent as built, and a segment once it is rewritten.
  cases segmented with
  | false => rfl
  | true =>
      rw [if_pos rfl, Proc.gets_bind, recoded, if_pos rfl]
      simp only
      by_cases hok : (L.decodeFrame built s1.hdlcLimits).1 = .ok
      · have hdecode : checked (L.decodeFrame built s1.hdlcLimits) s1 =
            (.done (L.decodeFrame built s1.hdlcLimits).2, s1) :=
          if_pos (mapHdlcStatus_eq_ok.mpr hok)
        rw [Proc.bind_of_done _ hdecode, if_pos hok]
      · have hne : ¬ mapHdlcStatus (L.decodeFrame built s1.hdlcLimits).1 = .ok := fun hc =>
          hok (mapHdlcStatus_eq_ok.mp hc)
        have hdecode : checked (L.decodeFrame built s1.hdlcLimits) s1 =
            (.fail (mapHdlcStatus (L.decodeFrame built s1.hdlcLimits).1), s1) := if_neg hne
        rw [Proc.bind_of_fail _ hdecode, if_neg hok, checked, if_neg hne]

/-- Hand an I-frame to the stream and wait until the session accepts a frame. -/
def writeAndWait (bytes : List UInt8) : Call L Unit :=
  writeFrameBytes bytes >>= fun _ => receiveSessionControlFrameWithRetry bytes

theorem WaitPrimitives.within_writeAndWait {R : State L → State L → Prop} (h : WaitPrimitives R)
    (bytes : List UInt8) : Proc.Within R (writeAndWait (L := L) bytes) :=
  Proc.within_bind h.trans (h.writeFrameBytes bytes) fun _ => h.within_controlWithRetry bytes

/-- Everything a turn of the sending loop can come to. -/
theorem sendChunk_cases (chunk : List UInt8) (last : Bool) (s : State L) :
    -- The window does not open.
    (∃ o s1, awaitWindow s = (o, s1) ∧ o ≠ .done () ∧ sendChunk chunk last s = (o, s1)) ∨
    ∃ s1, awaitWindow s = (.done (), s1) ∧
      -- The session builds nothing.
      ((∃ status, (L.buildInformationFrame s1.session chunk last).1 ≠ .ok ∧
        sendChunk chunk last s = (.fail status,
          { s1 with session := (L.buildInformationFrame s1.session chunk last).2.2 })) ∨
      ∃ built σ, L.buildInformationFrame s1.session chunk last = (.ok, built, σ) ∧
        -- The codec refuses to set the bit.
        ((∃ status, (recoded L s1.hdlcLimits (!last) built).1 ≠ .ok ∧
          sendChunk chunk last s = (.fail status, { s1 with session := σ })) ∨
        -- The I-frame goes out.
        ∃ bytes, recoded L s1.hdlcLimits (!last) built = (.ok, bytes) ∧
          sendChunk chunk last s = writeAndWait bytes (emitted bytes σ s1))) := by
  rcases hw : awaitWindow s with ⟨o, s1⟩
  by_cases ho : o = .done ()
  swap
  · exact Or.inl ⟨o, s1, rfl, ho, Proc.bind_of_stop _ hw fun _ => ho⟩
  obtain rfl := ho
  have hturn : sendChunk chunk last s = (do
      let bytes ← buildSessionInformationFrame chunk (!last) last
      log (.emit s1.session bytes)
      writeAndWait bytes : Call L Unit) s1 := by
    rw [sendChunk, Proc.bind_of_done _ hw, Proc.gets_bind]
    rfl
  refine Or.inr ⟨s1, rfl, ?_⟩
  rw [hturn]
  rcases hbuild : L.buildInformationFrame s1.session chunk last with ⟨status, built, σ⟩
  by_cases hok : status = .ok
  swap
  · have hb : sessionBuild (fun σ => L.buildInformationFrame σ chunk last) s1 =
        (.fail (mapHdlcStatus status), { s1 with session := σ }) := by
      rw [sessionBuild, hbuild, checked, if_neg fun hc => hok (mapHdlcStatus_eq_ok.mp hc)]
    have hframe : buildSessionInformationFrame chunk (!last) last s1 =
        (.fail (mapHdlcStatus status), { s1 with session := σ }) := Proc.bind_of_fail _ hb
    exact Or.inl ⟨_, hok, Proc.bind_of_fail _ hframe⟩
  obtain rfl := hok
  have hb : sessionBuild (fun σ => L.buildInformationFrame σ chunk last) s1 =
      (.done built, { s1 with session := σ }) := by
    rw [sessionBuild, hbuild]
    rfl
  have heq : buildSessionInformationFrame chunk (!last) last s1 =
      checked (recoded L s1.hdlcLimits (!last) built) { s1 with session := σ } :=
    buildSessionInformationFrame_of_built hb
  refine Or.inr ⟨built, σ, rfl, ?_⟩
  rcases hr : recoded L s1.hdlcLimits (!last) built with ⟨status, bytes⟩
  rw [hr, checked] at heq
  by_cases hok : status = .ok
  · obtain rfl := hok
    exact Or.inr ⟨bytes, rfl, Proc.bind_of_done _ heq⟩
  · rw [if_neg fun hc => hok (mapHdlcStatus_eq_ok.mp hc)] at heq
    exact Or.inl ⟨_, hok, Proc.bind_of_fail _ heq⟩

/-- One I-frame, and the frame that ended the wait for its reply. -/
theorem sendChunk_done (law : HdlcSessionLaw L) (unnumbered : HdlcUnnumberedLaw L)
    {chunk : List UInt8} {finalFrame : Bool} (hσ : L.Connected s.session)
    (h : sendChunk chunk finalFrame s = (.done (), s')) :
    ∃ taken frame, Sends 1 (taken ++ [frame]) s s' ∧
      law.va s'.session = law.receiveSequence frame.control := by
  -- A chunk that was sent has seen the window open and its frame written.
  rcases sendChunk_cases chunk finalFrame s with ⟨o, s1, -, ho, hturn⟩ | ⟨s1, hwindow, hrest⟩
  · rw [hturn] at h
    exact absurd (Prod.mk.inj h).1 ho
  rcases awaitWindow_done law unnumbered hσ hwindow with ⟨taken, h1⟩
  rcases hrest with
    ⟨status, -, hturn⟩ | ⟨built, σ', hσ', ⟨status, -, hturn⟩ | ⟨bytes, -, hturn⟩⟩ <;>
    rw [hturn] at h
  · cases h
  · cases h
  -- The emission is the step that moves V(S).
  have h2 : Sends 1 [] s1 (emitted bytes σ' s1) :=
    ⟨rfl, (law.information h1.connected hσ').1,
      ⟨_, rfl, Replay.emit h1.connected hσ' (Replay.nil σ')⟩, rfl⟩
  rcases Proc.bind_done_iff.mp h with ⟨_, s3, hwrite, h⟩
  have h3 : Sends 0 [] (emitted bytes σ' s1) s3 := by
    have haside := writeFrameBytes_aside bytes (emitted bytes σ' s1)
    have hsame := writeFrameBytes_sameIntake bytes (emitted bytes σ' s1)
    rw [hwrite] at haside hsame
    exact Sends.of_aside h2.connected haside hsame.incoming.symm
  rcases retryLoop_done law unnumbered h3.connected h with ⟨taken', frame, h4, hva⟩
  -- The wait for the window, the emission, the write and the wait for the reply.
  have hall := ((h1.trans h2).trans h3).trans h4
  rw [List.append_nil, List.append_nil, ← List.append_assoc] at hall
  exact ⟨taken ++ taken', frame, hall, hva⟩

/-- The loop goes on behind a turn that completes, and ends with any other. -/
theorem sendChunks_cases (size left : Nat) (remaining : List UInt8) (s : State L) :
    (∃ s1, sendChunk (remaining.take size) (left == 0) s = (.done (), s1) ∧
      sendChunks size (left + 1) remaining s = sendChunks size left (remaining.drop size) s1) ∨
    ((sendChunk (remaining.take size) (left == 0) s).1 ≠ .done () ∧
      sendChunks size (left + 1) remaining s =
        sendChunk (remaining.take size) (left == 0) s) := by
  rw [sendChunks]
  rcases hc : sendChunk (remaining.take size) (left == 0) s with ⟨o, s1⟩
  by_cases ho : o = .done ()
  · obtain rfl := ho
    exact Or.inl ⟨s1, rfl, Proc.bind_of_done _ hc⟩
  · exact Or.inr ⟨ho, Proc.bind_of_stop _ hc fun _ => ho⟩

/-- As many I-frames as were left to send, the last wait ended by the last frame
    taken. -/
theorem sendChunks_done (law : HdlcSessionLaw L) (unnumbered : HdlcUnnumberedLaw L)
    {size left : Nat} {remaining : List UInt8} (hσ : L.Connected s.session)
    (h : sendChunks size left remaining s = (.done (), s')) :
    ∃ taken, Sends left taken s s' ∧ (left ≠ 0 → ∃ before frame, taken = before ++ [frame] ∧
      law.va s'.session = law.receiveSequence frame.control) := by
  induction left generalizing s remaining with
  | zero =>
      cases h
      exact ⟨[], Sends.refl hσ, fun hne => absurd rfl hne⟩
  | succ left ih =>
      rcases Proc.bind_done_iff.mp h with ⟨_, s1, hchunk, hrest⟩
      rcases sendChunk_done law unnumbered hσ hchunk with ⟨taken, frame, h1, hva⟩
      rcases ih h1.connected hrest with ⟨taken', h2, hlast⟩
      rw [Nat.add_comm left]
      refine ⟨taken ++ [frame] ++ taken', h1.trans h2, fun _ => ?_⟩
      by_cases hleft : left = 0
      · -- The last I-frame: nothing was sent after it.
        obtain rfl := hleft
        cases hrest
        have hnil := h2.incoming
        rw [List.self_eq_append_left] at hnil
        exact ⟨taken, frame, by rw [hnil, List.append_nil], hva⟩
      · rcases hlast hleft with ⟨before, last, rfl, hva'⟩
        exact ⟨taken ++ [frame] ++ before, last, (List.append_assoc _ _ _).symm, hva'⟩

/-- The LPDU of an APDU, or nothing if the LLC library refuses it. -/
def lpduOf (s : State L) (apdu : ProfileByteView) : List UInt8 :=
  (encodeApdu L s.options apdu.data).2

/-- The size of the chunks a call cuts its LPDU into. -/
def chunkSizeOf (s : State L) (apdu : ProfileByteView) : Nat :=
  chunkSize (L.negotiatedLimits s.session).maxInformationFieldLengthTransmit (lpduOf s apdu).length

/-- The number of I-frames a call of `SendApdu` has to send. -/
def framesToSend (s : State L) (apdu : ProfileByteView) : Nat :=
  frameCount (lpduOf s apdu).length (chunkSizeOf s apdu)

/-- The state once `SendSessionInformation` has set the limit of a frame. -/
def limited (s : State L) : State L :=
  { s with hdlcLimits := { s.hdlcLimits with
      maximumInformationFieldSize :=
        (L.negotiatedLimits s.session).maxInformationFieldLengthTransmit } }

/-- A completed `SendApdu` was connected, and sent the LPDU of the APDU in as many
    I-frames as it takes. -/
theorem sendApdu_chunks {apdu : ProfileByteView} (huse : s.options.hdlcUseSession = true)
    (h : sendApdu apdu s = (.done (), s')) :
    L.Connected s.session ∧ encodeApdu L s.options apdu.data = (.ok, lpduOf s apdu) ∧
      sendChunks (chunkSizeOf s apdu) (framesToSend s apdu) (lpduOf s apdu) (limited s) =
        (.done (), s') := by
  rw [sendApdu] at h
  -- A call that succeeds has failed no check.
  split at h
  · cases h
  split at h
  · cases h
  simp only at h
  split at h
  · cases h
  next henc =>
  rw [sendSessionInformation] at h
  split at h
  · cases h
  next hstate =>
    exact ⟨not_not.mp hstate, Prod.ext (mapLlcStatus_eq_ok.mp (not_not.mp henc)) rfl, h⟩

/-- What a completed `SendApdu` did. -/
theorem sendApdu_done (law : HdlcSessionLaw L) (unnumbered : HdlcUnnumberedLaw L)
    {apdu : ProfileByteView} (huse : s.options.hdlcUseSession = true)
    (h : sendApdu apdu s = (.done (), s')) :
    ∃ taken, Sends (framesToSend s apdu) taken s s' ∧
      (framesToSend s apdu ≠ 0 → ∃ before frame, taken = before ++ [frame] ∧
        law.va s'.session = law.receiveSequence frame.control) := by
  rcases sendApdu_chunks huse h with ⟨hσ, -, hchunks⟩
  have hlimited : L.Connected (limited s).session := hσ
  rcases sendChunks_done law unnumbered hlimited hchunks with ⟨taken, hs, hlast⟩
  exact ⟨taken, ⟨hs.options, hs.connected, hs.replay, hs.incoming⟩, hlast⟩

/-- Nothing was emitted. -/
def EmitsNothing (s s' : State L) : Prop :=
  ∃ events, s'.trace = s.trace ++ events ∧ emittedBytes events = []

theorem emitsNothing_of_same {s s' : State L} (h : s'.trace = s.trace) : EmitsNothing s s' :=
  ⟨[], h.trans (List.append_nil _).symm, rfl⟩

theorem emitsNothing_of_aside {s s' : State L} (h : Aside s s') : EmitsNothing s s' := by
  rcases h.events with ⟨events, htrace, hall⟩
  refine ⟨events, htrace, ?_⟩
  clear htrace
  induction events with
  | nil => rfl
  | cons e events ih =>
      rw [emittedBytes_aside (hall e List.mem_cons_self)]
      exact ih fun x hx => hall x (List.mem_cons_of_mem e hx)

/-- Waiting emits nothing. -/
theorem emitsNothing_primitives : WaitPrimitives (EmitsNothing (L := L)) where
  refl s := emitsNothing_of_same rfl
  trans := by
    rintro a b c ⟨ev, h, he⟩ ⟨ev', h', he'⟩
    exact ⟨ev ++ ev', by rw [h', h, List.append_assoc], by rw [emittedBytes_append, he, he']; rfl⟩
  sessionReceive frame s := by
    rw [sessionReceive_snd]
    exact ⟨_, rfl, rfl⟩
  writeFrameBytes bytes s := emitsNothing_of_aside (writeFrameBytes_aside bytes s)
  sleepBeforeRetry s := emitsNothing_of_aside (sleepBeforeRetry_aside s)
  receiveDecodedFrame s := emitsNothing_of_aside (receiveDecodedFrame_aside s)

/-- The bytes are an I-frame a connected session built from the chunk and
    numbered `k`, put together again with the segmentation bit if it is a
    segment. -/
def BuiltFrom (law : HdlcSessionLaw L) (k : Fin 8) (chunk : List UInt8) (segmented : Bool)
    (bytes : List UInt8) : Prop :=
  ∃ σ σ' pollFinal built limits, L.Connected σ ∧ law.vs σ = k ∧
    L.buildInformationFrame σ chunk pollFinal = (.ok, built, σ') ∧
    (segmented = false → bytes = built) ∧
    (segmented = true → ∃ decoded, L.decodeFrame built limits = (.ok, decoded) ∧
      L.encodeFrame { decoded with segmented := true } limits = (.ok, bytes))

/-- What the session builds from a chunk and the codec marks. -/
theorem builtFrom_of_recoded {σ σ' : L.Session} {chunk built bytes : List UInt8} {last : Bool}
    {limits : HdlcCodecLimits} (hσ : L.Connected σ)
    (hbuild : L.buildInformationFrame σ chunk last = (.ok, built, σ'))
    (hbytes : recoded L limits (!last) built = (.ok, bytes)) :
    BuiltFrom law (law.vs σ) chunk (!last) bytes := by
  refine ⟨σ, σ', last, built, limits, hσ, rfl, hbuild, fun hseg => ?_, fun hseg => ?_⟩
  · rw [recoded, hseg, if_neg Bool.false_ne_true] at hbytes
    exact (Prod.mk.inj hbytes).2.symm
  · rw [recoded, hseg, if_pos rfl] at hbytes
    simp only at hbytes
    split at hbytes
    next hok => exact ⟨_, Prod.ext hok rfl, hbytes⟩
    next hne => exact absurd (congrArg Prod.fst hbytes) hne

/-- The frame the bytes of an I-frame spell. -/
theorem builtFrom_spells (wire : HdlcWireLaw L law) {k : Fin 8} {chunk bytes : List UInt8}
    {segmented : Bool} (h : BuiltFrom law k chunk segmented bytes) :
    ∃ frame, wire.spells bytes frame ∧ L.frameKind frame.control = .information ∧
      frame.segmented = segmented ∧ frame.information = chunk ∧
      law.sendSequence frame.control = k := by
  rcases h with ⟨σ, σ', pollFinal, built, limits', hσ, rfl, hbuild, hlast, hsegment⟩
  rcases wire.information hσ hbuild with ⟨frame, hspells, hkind, hseg, hinfo, hnumber, -⟩
  cases segmented with
  | false =>
      obtain rfl := hlast rfl
      exact ⟨frame, hspells, hkind, hseg, hinfo, hnumber⟩
  | true =>
      -- The frame the session built, with its segmentation bit set.
      rcases hsegment rfl with ⟨decoded, hdecoded, hencoded⟩
      obtain rfl := wire.decode hspells hdecoded
      exact ⟨_, wire.encode hencoded, hkind, rfl, hinfo, hnumber⟩

/-- What the bytes of an I-frame are taken for. -/
theorem built_frame (wire : HdlcWireLaw L law) {k : Fin 8} {chunk bytes : List UInt8}
    {segmented : Bool} {limits : HdlcCodecLimits} (h : BuiltFrom law k chunk segmented bytes)
    (hdecode : (L.decodeFrame bytes limits).1 = .ok) :
    L.frameKind (L.decodeFrame bytes limits).2.control = .information ∧
      (L.decodeFrame bytes limits).2.segmented = segmented ∧
      (L.decodeFrame bytes limits).2.information = chunk ∧
      law.sendSequence (L.decodeFrame bytes limits).2.control = k := by
  rcases builtFrom_spells wire h with ⟨frame, hspells, hframe⟩
  have hsame : (L.decodeFrame bytes limits).2 = frame :=
    wire.decode hspells (Prod.ext hdecode rfl)
  rw [hsame]
  exact hframe

/-- The I-frames of an LPDU that still has `left` of them to send, all of them or
    the first ones. -/
inductive Emission (law : HdlcSessionLaw L) (size : Nat) :
    Nat → Fin 8 → List UInt8 → List (List UInt8) → Prop
  | stop (left : Nat) (k : Fin 8) (remaining : List UInt8) : Emission law size left k remaining []
  | next {left : Nat} {k : Fin 8} {remaining bytes : List UInt8} {rest : List (List UInt8)}
    (h : BuiltFrom law k (remaining.take size) (left != 0) bytes)
    (hrest : Emission law size left (k + 1) (remaining.drop size) rest) :
    Emission law size (left + 1) k remaining (bytes :: rest)

theorem buildSessionInformationFrame_emitsNothing (information : List UInt8)
    (segmented pollFinal : Bool) :
    Proc.Within EmitsNothing
      (buildSessionInformationFrame (L := L) information segmented pollFinal) := by
  have hchecked : ∀ {α : Type} (result : HdlcStatus × α),
      Proc.Within EmitsNothing (checked (L := L) result) := fun result s => by
    rw [checked_snd]
    exact emitsNothing_primitives.refl s
  have hbuild : ∀ build, Proc.Within EmitsNothing (sessionBuild (L := L) build) := fun build s => by
    rw [sessionBuild_snd]
    exact emitsNothing_of_same rfl
  refine Proc.within_bind emitsNothing_primitives.trans (hbuild _) fun bytes => ?_
  -- Rewriting a segment asks the codec only.
  split
  · refine Proc.within_bind emitsNothing_primitives.trans
      (Proc.within_gets emitsNothing_primitives.refl _) fun limits => ?_
    exact Proc.within_bind emitsNothing_primitives.trans (hchecked _) fun decoded => hchecked _
  · exact Proc.within_pure emitsNothing_primitives.refl bytes

/-- One turn of the loop emits one I-frame or, if it does not get that far,
    none. -/
theorem sendChunk_emission (law : HdlcSessionLaw L) (unnumbered : HdlcUnnumberedLaw L)
    (chunk : List UInt8) (finalFrame : Bool) (hσ : L.Connected s.session) :
    ∃ events, (sendChunk chunk finalFrame s).2.trace = s.trace ++ events ∧
      (emittedBytes events = [] ∨ ∃ bytes, emittedBytes events = [bytes] ∧
        BuiltFrom law (law.vs s.session) chunk (!finalFrame) bytes) := by
  rcases emitsNothing_primitives.within_awaitWindow s with ⟨events, htrace, he⟩
  rcases sendChunk_cases chunk finalFrame s with ⟨o, s1, hw, -, h⟩ | ⟨s1, hw, hrest⟩ <;>
    rw [hw] at htrace
  · rw [h]
    exact ⟨events, htrace, Or.inl he⟩
  rcases hrest with ⟨status, -, h⟩ | ⟨built, σ, hbuild, ⟨status, -, h⟩ | ⟨bytes, hbytes, h⟩⟩ <;>
    rw [h]
  · exact ⟨events, htrace, Or.inl he⟩
  · exact ⟨events, htrace, Or.inl he⟩
  -- From here on the I-frame is out, and only waiting is left.
  rcases awaitWindow_done law unnumbered hσ hw with ⟨taken, hsends⟩
  rcases hsends.replay with ⟨_, -, hreplay⟩
  have hvs : law.vs s1.session = law.vs s.session :=
    (hreplay.vs_eq law unnumbered).trans (Fin.add_zero _)
  have hbuilt : BuiltFrom law (law.vs s.session) chunk (!finalFrame) bytes :=
    hvs ▸ builtFrom_of_recoded hsends.connected hbuild hbytes
  rcases emitsNothing_primitives.within_writeAndWait bytes (emitted bytes σ s1) with
    ⟨events', htrace', he'⟩
  refine ⟨events ++ [.emit s1.session bytes] ++ events', ?_, Or.inr ⟨bytes, ?_, hbuilt⟩⟩
  · rw [htrace', emitted, htrace, List.append_assoc, List.append_assoc, List.append_assoc]
  · rw [emittedBytes_append, emittedBytes_append, he, he']
    rfl

/-- The loop emits the I-frames of its LPDU, or the first of them. -/
theorem sendChunks_emission (law : HdlcSessionLaw L) (unnumbered : HdlcUnnumberedLaw L)
    (size left : Nat) (remaining : List UInt8) (hσ : L.Connected s.session) :
    ∃ events, (sendChunks size left remaining s).2.trace = s.trace ++ events ∧
      Emission law size left (law.vs s.session) remaining (emittedBytes events) := by
  induction left generalizing s remaining with
  | zero => exact ⟨[], (List.append_nil _).symm, Emission.stop _ _ _⟩
  | succ left ih =>
      rcases sendChunk_emission law unnumbered (remaining.take size) (left == 0) hσ with
        ⟨events, htrace, he⟩
      -- What there is if the loop ends here.
      have hstop : Emission law size (left + 1) (law.vs s.session) remaining
          (emittedBytes events) := by
        rcases he with he | ⟨bytes, he, hbuilt⟩ <;> rw [he]
        · exact Emission.stop _ _ _
        · exact Emission.next hbuilt (Emission.stop _ _ _)
      rcases sendChunks_cases size left remaining s with ⟨s1, hc, hloop⟩ | ⟨-, hloop⟩ <;>
        rw [hloop]
      · rw [hc] at htrace
        rcases sendChunk_done law unnumbered hσ hc with ⟨taken, frame, hsends, -⟩
        rcases hsends.replay with ⟨events', htrace', hreplay⟩
        obtain rfl := List.append_cancel_left (htrace'.symm.trans htrace)
        have hone := hreplay.emittedBytes_length
        rcases he with he | ⟨bytes, he, hbuilt⟩
        · rw [he] at hone
          cases hone
        rcases ih (remaining.drop size) hsends.connected with ⟨rest, htrest, hrest⟩
        have hvs : law.vs s1.session = law.vs s.session + 1 := hreplay.vs_eq law unnumbered
        refine ⟨events' ++ rest, by rw [htrest, htrace, List.append_assoc], ?_⟩
        rw [emittedBytes_append, he]
        exact Emission.next hbuilt (hvs ▸ hrest)
      · exact ⟨events, htrace, hstop⟩

/-- What any call of `SendApdu` emitted: nothing, or I-frames of the LPDU of its
    APDU. -/
theorem sendApdu_emission (law : HdlcSessionLaw L) (unnumbered : HdlcUnnumberedLaw L)
    {apdu : ProfileByteView} (huse : s.options.hdlcUseSession = true) :
    ∃ events, (sendApdu apdu s).2.trace = s.trace ++ events ∧
      (emittedBytes events = [] ∨
        encodeApdu L s.options apdu.data = (.ok, lpduOf s apdu) ∧
          Emission law (chunkSizeOf s apdu) (framesToSend s apdu) (law.vs s.session)
            (lpduOf s apdu) (emittedBytes events)) := by
  have hnone : ∃ events, s.trace = s.trace ++ events ∧
      (emittedBytes events = [] ∨
        encodeApdu L s.options apdu.data = (.ok, lpduOf s apdu) ∧
          Emission law (chunkSizeOf s apdu) (framesToSend s apdu) (law.vs s.session)
            (lpduOf s apdu) (emittedBytes events)) :=
    ⟨[], (List.append_nil _).symm, Or.inl rfl⟩
  rw [sendApdu]
  -- A call that fails a check emits nothing.
  split
  · exact hnone
  split
  · exact hnone
  simp only
  split
  · exact hnone
  next henc =>
  rw [sendSessionInformation]
  split
  · exact hnone
  next hstate =>
    have hlimited : L.Connected (limited s).session := not_not.mp hstate
    rcases sendChunks_emission law unnumbered (chunkSizeOf s apdu) (framesToSend s apdu)
      (lpduOf s apdu) hlimited with ⟨events, htrace, he⟩
    exact ⟨events, htrace, Or.inr ⟨Prod.ext (mapLlcStatus_eq_ok.mp (not_not.mp henc)) rfl, he⟩⟩

end Hdlc

end DlmsProfile
