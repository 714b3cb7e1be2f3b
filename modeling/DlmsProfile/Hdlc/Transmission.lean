import DlmsProfile.Hdlc.Sending

/-!
# What a Connected Channel Puts on the Line

`SendApdu` told by what it writes, however it ends. An I-frame takes the next
number when it is built, is written, and is written again before every new
attempt to get a reply; all these copies are the same bytes. A call that fails
before it has built its I-frame writes nothing and takes no number. So a run of
calls whose LPDUs each fit one I-frame writes, call after call, a block of copies
under one number, and the numbers count the blocks.

## Main definitions

* `Hdlc.WritesOnly`: Nothing but certain bytes was written.
* `Hdlc.Orderly`: No command that a connected session takes comes in.
* `Hdlc.KeepsNumber`: A connected session stays so, and keeps its V(S).
* `Hdlc.Fits`: An LPDU fits one I-frame.

## Theorems

* `Hdlc.retryLoop_writesOnly`: Waiting writes copies only.
* `Hdlc.sendChunk_written`: What one turn of the sending loop writes.
* `Hdlc.sendApdu_written`: What a call whose LPDU fits one I-frame writes.
-/

namespace DlmsProfile

namespace Hdlc

variable {L : HdlcLib} {law : HdlcSessionLaw L}

/-- Whatever was handed to the stream is such bytes. -/
def WritesOnly (P : List UInt8 → Prop) (s s' : State L) : Prop :=
  ∃ events, s'.trace = s.trace ++ events ∧ ∀ w ∈ written events, P w.1

section WritesOnly

variable {P : List UInt8 → Prop}

theorem writesOnly_of_none {s s' : State L} {events : List (Event L)}
    (htrace : s'.trace = s.trace ++ events) (h : written events = []) : WritesOnly P s s' :=
  ⟨events, htrace, fun _ hw => absurd (h ▸ hw) List.not_mem_nil⟩

theorem writesOnly_refl (s : State L) : WritesOnly P s s :=
  writesOnly_of_none (List.append_nil _).symm rfl

theorem writesOnly_trans (a b c : State L) (h : WritesOnly P a b) (h' : WritesOnly P b c) :
    WritesOnly P a c := by
  rcases h with ⟨ev, ht, he⟩
  rcases h' with ⟨ev', ht', he'⟩
  refine ⟨ev ++ ev', by rw [ht', ht, List.append_assoc], fun w hw => ?_⟩
  rw [written_append] at hw
  rcases List.mem_append.mp hw with hw | hw
  · exact he w hw
  · exact he' w hw

theorem writesOnly_write {bytes : List UInt8} (h : P bytes) :
    Proc.Within (WritesOnly P) (writeFrameBytes (L := L) bytes) := by
  intro s
  rw [writeFrameBytes_snd]
  refine ⟨_, rfl, fun w hw => ?_⟩
  rw [List.mem_singleton.mp hw]
  exact h

theorem writesOnly_sleep : Proc.Within (WritesOnly P) (sleepBeforeRetry (L := L)) := by
  intro s
  rw [sleepBeforeRetry]
  split
  · exact writesOnly_refl s
  · rw [check_snd]
    exact writesOnly_of_none rfl rfl

/-- An attempt to get a reply writes nothing. -/
theorem writesOnly_control : Proc.Within (WritesOnly P) (receiveSessionControlFrame (L := L)) := by
  refine Proc.within_bind writesOnly_trans (fun s => ?_) fun frame s => ?_
  · rcases receiveDecodedFrame_readsOnly s with ⟨taken, -, htrace⟩
    exact writesOnly_of_none htrace (written_reads taken)
  · rw [sessionReceive_snd]
    exact writesOnly_of_none rfl rfl

theorem writesOnly_awaitWindow : Proc.Within (WritesOnly P) (awaitWindow (L := L)) := by
  intro s
  rw [awaitWindow]
  split
  · exact writesOnly_refl s
  · exact writesOnly_control s

/-- Waiting writes copies only. -/
theorem retryLoop_writesOnly {bytes : List UInt8} (h : P bytes) (left : Nat) :
    Proc.Within (WritesOnly P) (retryLoop (L := L) bytes left) :=
  retryLoop_within writesOnly_trans writesOnly_control writesOnly_sleep (writesOnly_write h) left

theorem writeAndWait_writesOnly {bytes : List UInt8} (h : P bytes) :
    Proc.Within (WritesOnly P) (writeAndWait (L := L) bytes) :=
  Proc.within_bind writesOnly_trans (writesOnly_write h) fun _ s =>
    retryLoop_writesOnly h s.options.hdlcRetryCount.toNat s

end WritesOnly

/-- No unnumbered frame that comes in is one that a connected session accepts. -/
def Orderly (s : State L) : Prop :=
  ∀ frame ∈ incoming s, L.frameKind frame.control = .unnumbered →
    ∀ σ, L.Connected σ → (L.receiveFrame σ frame).1 ≠ .ok

/-- Where connected sessions reject them all, this is so whatever comes in. -/
theorem orderly_of_law (unnumbered : HdlcUnnumberedLaw L) (s : State L) : Orderly s :=
  fun _ _ hkind _ hσ => unnumbered.rejects hσ hkind

theorem Orderly.of_same {s s' : State L} (h : Orderly s) (hsame : SameIntake s s') :
    Orderly s' := by
  rw [Orderly, hsame.incoming]
  exact h

/-- Waiting keeps a connected session connected, and its V(S). -/
def KeepsNumber (law : HdlcSessionLaw L) (s s' : State L) : Prop :=
  Orderly s → L.Connected s.session →
    s'.options = s.options ∧ L.Connected s'.session ∧ law.vs s'.session = law.vs s.session ∧
      Orderly s'

theorem keepsNumber_refl (s : State L) : KeepsNumber law s s := fun hs hσ => ⟨rfl, hσ, rfl, hs⟩

theorem keepsNumber_trans (a b c : State L) (h : KeepsNumber law a b) (h' : KeepsNumber law b c) :
    KeepsNumber law a c := by
  intro ha hσ
  rcases h ha hσ with ⟨ho, hσ', hvs, hb⟩
  rcases h' hb hσ' with ⟨ho', hσ'', hvs', hc⟩
  exact ⟨ho'.trans ho, hσ'', hvs'.trans hvs, hc⟩

theorem keepsNumber_of_aside {s s' : State L} (h : Aside s s') (hsame : SameIntake s s') :
    KeepsNumber law s s' := by
  intro hs hσ
  exact ⟨h.options, h.session ▸ hσ, by rw [h.session], hs.of_same hsame⟩

theorem keepsNumber_write (bytes : List UInt8) :
    Proc.Within (KeepsNumber law) (writeFrameBytes (L := L) bytes) := fun s =>
  keepsNumber_of_aside (writeFrameBytes_aside bytes s) (writeFrameBytes_sameIntake bytes s)

theorem keepsNumber_sleep : Proc.Within (KeepsNumber law) (sleepBeforeRetry (L := L)) := fun s =>
  keepsNumber_of_aside (sleepBeforeRetry_aside s) (sleepBeforeRetry_sameIntake s)

/-- An attempt to get a reply: the frame it shows to the session has a number or is
    rejected, and neither touches V(S). -/
theorem keepsNumber_control (law : HdlcSessionLaw L) :
    Proc.Within (KeepsNumber law) (receiveSessionControlFrame (L := L)) := by
  intro s hs hσ
  have haside := receiveDecodedFrame_aside s
  have hin := receiveDecodedFrame_incoming s
  have hless : Orderly (receiveDecodedFrame s).2 := fun frame hframe =>
    hs frame (hin ▸ List.mem_append_right _ hframe)
  have hkept : L.Connected (receiveDecodedFrame s).2.session := haside.session ▸ hσ
  have hvs : law.vs (receiveDecodedFrame s).2.session = law.vs s.session := by
    rw [haside.session]
  rcases hr : receiveDecodedFrame s with ⟨frame | status | _, s1⟩ <;>
    rw [hr] at haside hin hless hkept hvs
  · rw [receiveSessionControlFrame, Proc.bind_of_done _ hr]
    have hafter := sessionReceive_snd frame s1
    have hsame := hless.of_same (sessionReceive_sameIntake frame s1)
    rw [hafter] at hsame ⊢
    by_cases hok : (L.receiveFrame s1.session frame).1 = .ok
    · have hnumbered : L.frameKind frame.control ≠ .unnumbered := fun hkind =>
        hs frame (hin ▸ List.mem_cons_self) hkind s1.session hkept hok
      rcases law.accepted hkept hnumbered (Prod.ext hok rfl) with ⟨hσ', hvs', -⟩
      exact ⟨haside.options, hσ', hvs'.trans hvs, hsame⟩
    · have hsession : (L.receiveFrame s1.session frame).2 = s1.session :=
        law.rejected hkept rfl hok
      refine ⟨haside.options, ?_, ?_, hsame⟩
      · exact hsession.symm ▸ hkept
      · exact (congrArg law.vs hsession).trans hvs
  · rw [receiveSessionControlFrame, Proc.bind_of_fail _ hr]
    exact ⟨haside.options, hkept, hvs, hless⟩
  · rw [receiveSessionControlFrame, Proc.bind_of_waiting _ hr]
    exact ⟨haside.options, hkept, hvs, hless⟩

theorem keepsNumber_awaitWindow (law : HdlcSessionLaw L) :
    Proc.Within (KeepsNumber law) (awaitWindow (L := L)) := by
  intro s
  rw [awaitWindow]
  split
  · exact keepsNumber_refl s
  · exact keepsNumber_control law s

theorem keepsNumber_writeAndWait (law : HdlcSessionLaw L) (bytes : List UInt8) :
    Proc.Within (KeepsNumber law) (writeAndWait (L := L) bytes) :=
  Proc.within_bind keepsNumber_trans (keepsNumber_write bytes) fun _ s =>
    retryLoop_within keepsNumber_trans (keepsNumber_control law) keepsNumber_sleep
      (keepsNumber_write bytes) s.options.hdlcRetryCount.toNat s

/-- What sending a chunk may have done: nothing was written, or copies of an
    I-frame that has taken the number V(S). -/
structure Writes (law : HdlcSessionLaw L) (chunk : List UInt8) (s s' : State L) : Prop where
  options : s'.options = s.options
  connected : L.Connected s'.session
  orderly : Orderly s'
  copies : ∃ events, s'.trace = s.trace ++ events ∧
    ((law.vs s'.session = law.vs s.session ∧ written events = []) ∨
      (law.vs s'.session = law.vs s.session + 1 ∧
        ∃ bytes, BuiltFrom law (law.vs s.session) chunk false bytes ∧
          ∀ w ∈ written events, w.1 = bytes))

/-- One turn of the sending loop. -/
theorem sendChunk_written (law : HdlcSessionLaw L) (refuses : HdlcRefusalLaw L)
    (chunk : List UInt8) {s : State L} (hs : Orderly s) (hσ : L.Connected s.session) :
    Writes law chunk s (sendChunk chunk true s).2 := by
  have hkeeps := keepsNumber_awaitWindow law s hs hσ
  have hsilent : WritesOnly (fun _ => False) s (awaitWindow s).2 := writesOnly_awaitWindow s
  -- What there is to say as long as no I-frame was built.
  have hnone : ∀ s' : State L, (s'.options = s.options ∧ L.Connected s'.session ∧
      law.vs s'.session = law.vs s.session ∧ Orderly s') → WritesOnly (fun _ => False) s s' →
      Writes law chunk s s' := by
    rintro s' ⟨ho, hσ', hvs, hs'⟩ ⟨events, htrace, hfalse⟩
    exact ⟨ho, hσ', hs', events, htrace,
      Or.inl ⟨hvs, List.eq_nil_iff_forall_not_mem.mpr fun w hw => hfalse w hw⟩⟩
  rcases sendChunk_cases chunk true s with ⟨o, s1, hw, -, h⟩ | ⟨s1, hw, hrest⟩ <;>
    simp only [hw] at hkeeps hsilent
  · rw [h]
    exact hnone s1 hkeeps hsilent
  rcases hkeeps with ⟨ho, hσ1, hvs1, hs1⟩
  rcases hrest with
    ⟨status, hne, h⟩ | ⟨built, σ', hσ', ⟨status, hne, h⟩ | ⟨bytes, hbytes, h⟩⟩ <;> rw [h]
  · -- A session that builds nothing stays as it is.
    rw [refuses.information hσ1 hne]
    exact hnone s1 ⟨ho, hσ1, hvs1, hs1⟩ hsilent
  · -- No bit is to be set on the last I-frame.
    exact absurd rfl hne
  rcases law.information hσ1 hσ' with ⟨hσ2, hvs2, -⟩
  have hbuilt : BuiltFrom law (law.vs s.session) chunk false bytes :=
    hvs1 ▸ builtFrom_of_recoded hσ1 hσ' hbytes
  -- From here on the I-frame is out, and only its copies are left to write.
  have hrest : Proc.Within (WritesOnly (· = bytes)) (writeAndWait (L := L) bytes) :=
    writeAndWait_writesOnly rfl
  have hkept := keepsNumber_writeAndWait law bytes
  have hemitted : L.Connected (emitted bytes σ' s1).session := hσ2
  have hs2 : Orderly (emitted bytes σ' s1) := hs1.of_same ⟨rfl, rfl, rfl, rfl, rfl⟩
  rcases hkept (emitted bytes σ' s1) hs2 hemitted with ⟨ho', hσ3, hvs3, hs3⟩
  rcases hrest (emitted bytes σ' s1) with ⟨events', htrace', hcopies⟩
  rcases hsilent with ⟨events, htrace, hfalse⟩
  refine ⟨ho'.trans ho, hσ3, hs3, events ++ [.emit s1.session bytes] ++ events', ?_,
    Or.inr ⟨?_, bytes, hbuilt, ?_⟩⟩
  · refine htrace'.trans ?_
    simp only [emitted, htrace, List.append_assoc]
  · refine hvs3.trans ?_
    rw [← hvs1]
    exact hvs2
  · intro w hw
    rw [written_append, written_append] at hw
    rcases List.mem_append.mp hw with hw | hw
    · rcases List.mem_append.mp hw with hw | hw
      · exact (hfalse w hw).elim
      · cases hw
    · exact hcopies w hw

/-- The LPDU of an APDU fits the negotiated transmit length, where there is one. -/
def Fits (s : State L) (apdu : ProfileByteView) : Prop :=
  (L.negotiatedLimits s.session).maxInformationFieldLengthTransmit = 0 ∨
    (lpduOf s apdu).length ≤ (L.negotiatedLimits s.session).maxInformationFieldLengthTransmit

instance (s : State L) (apdu : ProfileByteView) : Decidable (Fits s apdu) :=
  inferInstanceAs (Decidable (_ ∨ _))

theorem Fits.length_le {s : State L} {apdu : ProfileByteView} (h : Fits s apdu) :
    (lpduOf s apdu).length ≤ chunkSizeOf s apdu := by
  rw [chunkSizeOf, chunkSize]
  split
  · exact Nat.le_refl _
  next hne => exact h.resolve_left hne

/-- Such an LPDU takes one I-frame, or none where the count of frames wraps. -/
theorem Fits.frames_le {s : State L} {apdu : ProfileByteView} (h : Fits s apdu) :
    framesToSend s apdu ≤ 1 := by
  have hle := h.length_le
  have hsum : sizeAdd (lpduOf s apdu).length (chunkSizeOf s apdu - 1) ≤
      (lpduOf s apdu).length + (chunkSizeOf s apdu - 1) := Nat.mod_le _ _
  rw [framesToSend, frameCount]
  split
  · exact Nat.le_refl 1
  next hne =>
    have hpos : 0 < chunkSizeOf s apdu := by omega
    refine Nat.le_of_lt_succ ((Nat.div_lt_iff_lt_mul hpos).mpr ?_)
    omega

/-- A call of a connected channel does nothing, or sends the LPDU of its APDU. -/
theorem sendApdu_cases {apdu : ProfileByteView} {s : State L}
    (huse : s.options.hdlcUseSession = true) (hσ : L.Connected s.session) :
    (sendApdu apdu s).2 = s ∨
      (encodeApdu L s.options apdu.data = (.ok, lpduOf s apdu) ∧
        sendApdu apdu s =
          sendChunks (chunkSizeOf s apdu) (framesToSend s apdu) (lpduOf s apdu) (limited s)) := by
  rw [sendApdu]
  -- Each check leaves the state alone. Past the last one the chunks are sent.
  split
  · exact Or.inl rfl
  split
  · exact Or.inl rfl
  simp only
  split
  · exact Or.inl rfl
  next henc =>
    have hσ' : ¬ L.sessionState s.session ≠ .connected := not_not.mpr hσ
    refine Or.inr ⟨Prod.ext (mapLlcStatus_eq_ok.mp (not_not.mp henc)) rfl, ?_⟩
    rw [sendSessionInformation, if_neg hσ']
    rfl

/-- A call whose LPDU fits one I-frame. -/
theorem sendApdu_written (law : HdlcSessionLaw L) (refuses : HdlcRefusalLaw L)
    {apdu : ProfileByteView} {s : State L} (huse : s.options.hdlcUseSession = true)
    (hs : Orderly s) (hσ : L.Connected s.session) (hfits : Fits s apdu) :
    (sendApdu apdu s).2 = s ∨
      (encodeApdu L s.options apdu.data = (.ok, lpduOf s apdu) ∧
        Writes law (lpduOf s apdu) s (sendApdu apdu s).2) := by
  rcases sendApdu_cases huse hσ with h | ⟨henc, h⟩
  · exact Or.inl h
  refine Or.inr ⟨henc, ?_⟩
  rw [h]
  -- The limits the sending sets play no part in what comes in.
  have hlimits : Orderly (limited s) := hs.of_same ⟨rfl, rfl, rfl, rfl, rfl⟩
  have hframes : framesToSend s apdu = 0 ∨ framesToSend s apdu = 1 := by
    have hle := hfits.frames_le
    omega
  rcases hframes with hzero | hone
  · rw [hzero]
    exact ⟨rfl, hσ, hlimits, [], (List.append_nil _).symm, Or.inl ⟨rfl, rfl⟩⟩
  · -- The loop turns once, over the whole LPDU.
    have hloop : (sendChunks (chunkSizeOf s apdu) 1 (lpduOf s apdu) (limited s)).2 =
        (sendChunk (lpduOf s apdu) true (limited s)).2 := by
      have honce := congrFun (Proc.bind_pure (sendChunk (lpduOf s apdu) true)) (limited s)
      rw [sendChunks, List.take_of_length_le hfits.length_le]
      exact congrArg Prod.snd honce
    have hlimited : L.Connected (limited s).session := hσ
    rcases sendChunk_written law refuses (lpduOf s apdu) hlimits hlimited with
      ⟨ho, hσ', hs', hcopies⟩
    rw [hone, hloop]
    exact ⟨ho, hσ', hs', hcopies⟩

end Hdlc

end DlmsProfile
