import DlmsProfile.Hdlc.Segmentation

/-!
# Numbers used up by a Send that fails

The session takes a number for an I-frame when it builds it. Between that and
the stream taking the I-frame lie the codec, for a segment, and the first write,
and either may refuse. The call ends there, and nothing gives the number back:
V(S) has moved past an I-frame that nobody will ever see.

So a failed call leaves V(S) where the I-frames taken by the stream leave it, or
one further. Which of the two is decided where the I-frames are built, before
any of them is: a turn that comes to build in a state whose next write is
answered `Ok`, with a codec that sets the bit, loses no number.

## Main definitions

* `Hdlc.framesTaken`: The I-frames a stream took, of those handed to it.
* `Hdlc.Builds`: A turn of a call comes to build its I-frame.
* `Hdlc.Smooth`: What is built there goes out.
* `Hdlc.Consumes`: A failed call used the numbers of what was taken.

## Theorems

* `Hdlc.sendChunk_consumed`: What a turn uses up.
* `Hdlc.sendChunks_consumed`: What the loop uses up.
* `Hdlc.firstWrite_consumed`: A number is lost if the first I-frame is not written.
* `Hdlc.consumes_iff`: A failed call loses no number exactly if all was smooth.
-/

namespace DlmsProfile

namespace Hdlc

variable {L : HdlcLib}

/-- The number of I-frames that some write got out. -/
def framesTaken (sendings : List Sending) : Nat :=
  (sendings.filter fun sending => sending.2.any fun w => w.2 = .ok).length

theorem framesTaken_append (a b : List Sending) :
    framesTaken (a ++ b) = framesTaken a + framesTaken b := by
  rw [framesTaken, List.filter_append, List.length_append]
  rfl

/-- A turn of the loop comes to build an I-frame, in a state whose window is
    open. -/
inductive Builds (size : Nat) : Nat → List UInt8 → State L → List UInt8 → Bool → State L → Prop
  | here {left : Nat} {remaining : List UInt8} {s s1 : State L}
    (h : awaitWindow s = (.done (), s1)) :
    Builds size (left + 1) remaining s (remaining.take size) (left == 0) s1
  | later {left : Nat} {remaining chunk : List UInt8} {last : Bool} {s s1 s2 : State L}
    (h : sendChunk (remaining.take size) (left == 0) s = (.done (), s1))
    (hrest : Builds size left (remaining.drop size) s1 chunk last s2) :
    Builds size (left + 1) remaining s chunk last s2

/-- An I-frame built in this state goes out: the codec sets the bit of a segment,
    and the stream takes it. -/
def Smooth (chunk : List UInt8) (last : Bool) (s : State L) : Prop :=
  ∀ built σ, L.buildInformationFrame s.session chunk last = (.ok, built, σ) →
    (recoded L s.hdlcLimits (!last) built).1 = .ok ∧ s.writes.headD .ok = .ok

/-- The number of I-frames taken and of numbers used, after the given outcome. -/
structure Tally (law : HdlcSessionLaw L) (smooth : Prop) (s : State L)
    (o : Outcome ProfileStatus Unit) (s' : State L) : Prop where
  counted : ∃ events, s'.trace = s.trace ++ events ∧ (grouped events).1 = [] ∧
    ((smooth ∧
        law.vs s'.session = law.vs s.session + Fin.ofNat 8 (framesTaken (grouped events).2)) ∨
      (¬ smooth ∧ (∃ status, o = .fail status) ∧
        law.vs s'.session = law.vs s.session + Fin.ofNat 8 (framesTaken (grouped events).2 + 1)))

/-- The writes of an I-frame whose first write failed: that one. -/
theorem Copies.eq_of_failed {bytes : List UInt8} {count : Nat} {o : Outcome ProfileStatus Unit}
    {writes : List Write} {w : Write} (h : Copies bytes count o writes)
    (hfirst : writes.head? = some w) (hne : w.2 ≠ .ok) : writes = [w] := by
  rcases writes with _ | ⟨w', _ | ⟨w'', writes⟩⟩
  · cases hfirst
  · exact congrArg ([·]) (Option.some.inj hfirst)
  · have hok : w'.2 = .ok := h.accepted w' List.mem_cons_self
    rw [Option.some.inj hfirst] at hok
    exact absurd hok hne

/-- One I-frame, taken or not. -/
theorem framesTaken_single (bytes : List UInt8) (writes : List Write) :
    framesTaken [(bytes, writes)] = if writes.any (fun w => w.2 = .ok) then 1 else 0 := by
  rw [framesTaken, List.filter_cons]
  split <;> rfl

/-- One turn of the sending loop: a turn that is not smooth fails, with one number
    more than was taken. -/
theorem sendChunk_consumed (law : HdlcSessionLaw L) (unnumbered : HdlcUnnumberedLaw L)
    (refuses : HdlcRefusalLaw L) (chunk : List UInt8) (last : Bool) {s : State L}
    (hσ : L.Connected s.session) :
    Tally law (∀ s1, awaitWindow s = (.done (), s1) → Smooth chunk last s1) s
      (sendChunk chunk last s).1 (sendChunk chunk last s).2 := by
  have hkeeps := keepsNumber_awaitWindow law s (orderly_of_law unnumbered s) hσ
  have hsilent : Wordless s (awaitWindow s).2 := awaitWindow_wordless s
  rcases sendChunk_cases chunk last s with ⟨o, s1, hw, ho, hturn⟩ | ⟨s1, hw, hrest⟩ <;>
    rw [hw] at hkeeps hsilent
  · -- Nothing was built.
    rcases hsilent.grouped with ⟨events, htrace, hgrouped⟩
    rw [hturn]
    refine ⟨events, htrace, by rw [hgrouped], Or.inl ⟨fun s2 h2 => ?_, ?_⟩⟩
    · exact absurd (Prod.mk.inj (hw.symm.trans h2)).1 ho
    · rw [hgrouped, hkeeps.2.2.1]
      exact (Fin.add_zero _).symm
  rcases hkeeps with ⟨-, hσ1, hvs, -⟩
  rw [Proc.forall_done_iff hw]
  rcases hrest with ⟨status, hne, hturn⟩ | ⟨built, σ, hbuild, hrest⟩
  · -- A session that builds nothing keeps its number.
    rcases hsilent.grouped with ⟨events, htrace, hgrouped⟩
    rw [hturn]
    refine ⟨events, htrace, by rw [hgrouped], Or.inl ⟨fun built σ h => ?_, ?_⟩⟩
    · exact absurd (congrArg Prod.fst h) hne
    · rw [hgrouped, refuses.information hσ1 hne, hvs]
      exact (Fin.add_zero _).symm
  have hnext : law.vs σ = law.vs s.session + 1 := hvs ▸ (law.information hσ1 hbuild).2.1
  rcases hrest with ⟨status, hne, hturn⟩ | ⟨bytes, hbytes, hturn⟩
  · -- The number is taken and the I-frame lost.
    rcases hsilent.grouped with ⟨events, htrace, hgrouped⟩
    rw [hturn]
    refine ⟨events, htrace, by rw [hgrouped], Or.inr ⟨fun h => ?_, ⟨status, rfl⟩, ?_⟩⟩
    · exact hne (h built σ hbuild).1
    · rw [hgrouped]
      exact hnext
  rcases emitted_grouped bytes σ hsilent with ⟨events, writes, htrace, hgrouped, hcopies, hfirst⟩
  have hkept : law.vs (writeAndWait bytes (emitted bytes σ s1)).2.session =
      law.vs s.session + 1 := by
    have hconnected : L.Connected (emitted bytes σ s1).session := (law.information hσ1 hbuild).1
    have hwait := keepsNumber_writeAndWait law bytes (emitted bytes σ s1)
      (orderly_of_law unnumbered _) hconnected
    exact hwait.2.2.1.trans hnext
  rw [hturn]
  refine ⟨events, htrace, by rw [hgrouped], ?_⟩
  rw [hgrouped, framesTaken_single]
  by_cases hok : s1.writes.headD .ok = .ok
  · -- The stream took it, whatever became of the copies.
    have hany : writes.any (fun w => w.2 = .ok) = true :=
      List.any_eq_true.mpr ⟨_, List.mem_of_head? hfirst, decide_eq_true hok⟩
    refine Or.inl ⟨fun built' σ' h => ⟨?_, hok⟩, ?_⟩
    · obtain ⟨-, h⟩ := Prod.mk.inj (hbuild.symm.trans h)
      rw [← (Prod.mk.inj h).1, hbytes]
    · rw [if_pos hany]
      exact hkept
  · have hfailed := hcopies.eq_of_failed hfirst hok
    have hany : ¬ writes.any (fun w => w.2 = .ok) = true := by
      rw [hfailed, List.any_cons, List.any_nil, Bool.or_false, decide_eq_true_eq]
      exact hok
    have hwrite : writeFrameBytes bytes (emitted bytes σ s1) =
        (.fail (mapTransportStatus (s1.writes.headD .ok)), wrote bytes (emitted bytes σ s1)) :=
      writeFrameBytes_of_ne hok
    have hfail : writeAndWait bytes (emitted bytes σ s1) = _ := Proc.bind_of_fail _ hwrite
    refine Or.inr ⟨fun h => hok (h built σ hbuild).2, ⟨_, congrArg Prod.fst hfail⟩, ?_⟩
    · rw [if_neg hany]
      exact hkept

/-- Every I-frame the loop builds goes out. -/
def AllSmooth (size left : Nat) (remaining : List UInt8) (s : State L) : Prop :=
  ∀ chunk last s1, Builds size left remaining s chunk last s1 → Smooth chunk last s1

theorem allSmooth_iff {size left : Nat} {remaining : List UInt8} {s : State L} :
    AllSmooth size (left + 1) remaining s ↔
      (∀ s1, awaitWindow s = (.done (), s1) → Smooth (remaining.take size) (left == 0) s1) ∧
        ∀ s1, sendChunk (remaining.take size) (left == 0) s = (.done (), s1) →
          AllSmooth size left (remaining.drop size) s1 := by
  constructor
  · intro h
    exact ⟨fun s1 hw => h _ _ _ (Builds.here hw), fun s1 hc chunk last s2 hb =>
      h _ _ _ (Builds.later hc hb)⟩
  · rintro ⟨hhere, hlater⟩ chunk last s1 hb
    cases hb with
    | here hw => exact hhere _ hw
    | later hc hrest => exact hlater _ hc _ _ _ hrest

theorem add_ofNat (k : Fin 8) (a b : Nat) :
    k + Fin.ofNat 8 a + Fin.ofNat 8 b = k + Fin.ofNat 8 (a + b) := by
  refine Fin.ext ?_
  simp only [Fin.add_def, Fin.ofNat]
  omega

theorem val_add_ofNat (k : Fin 8) (a : Nat) : (k + Fin.ofNat 8 a).val = (k.val + a) % 8 := by
  simp only [Fin.val_add, Fin.ofNat, Nat.add_mod_mod]

/-- The loop, by induction on its turns: it uses up what was taken, and one number
    more if some turn was not smooth. -/
theorem sendChunks_consumed (law : HdlcSessionLaw L) (unnumbered : HdlcUnnumberedLaw L)
    (refuses : HdlcRefusalLaw L) (size left : Nat) (remaining : List UInt8) {s : State L}
    (hσ : L.Connected s.session) :
    Tally law (AllSmooth size left remaining s) s (sendChunks size left remaining s).1
      (sendChunks size left remaining s).2 := by
  induction left generalizing s remaining with
  | zero =>
      refine ⟨[], (List.append_nil _).symm, rfl, Or.inl ⟨?_, (Fin.add_zero _).symm⟩⟩
      intro chunk last s1 hb
      cases hb
  | succ left ih =>
      rcases sendChunk_consumed law unnumbered refuses (remaining.take size) (left == 0) hσ with
        ⟨events, htrace, hfront, htally⟩
      rcases sendChunks_cases size left remaining s with ⟨s1, hc, hloop⟩ | ⟨hne, hloop⟩ <;>
        rw [hloop]
      · rw [hc] at htrace htally
        rcases htally with ⟨hsmooth, hvs⟩ | ⟨-, ⟨status, hfail⟩, -⟩
        swap
        · cases hfail
        rcases sendChunk_done law unnumbered hσ hc with ⟨taken, frame, hsends, -⟩
        rcases ih (remaining.drop size) hsends.connected with ⟨rest, htrest, hfront', htally'⟩
        have hgrouped : grouped (events ++ rest) =
            ([], (grouped events).2 ++ (grouped rest).2) := by
          rw [grouped_append hfront', hfront]
        refine ⟨events ++ rest, by rw [htrest, htrace, List.append_assoc], by rw [hgrouped], ?_⟩
        rw [hgrouped, framesTaken_append, allSmooth_iff, Proc.forall_done_iff hc]
        rcases htally' with ⟨hrest, hvs'⟩ | ⟨hrest, hfail, hvs'⟩
        · refine Or.inl ⟨⟨hsmooth, hrest⟩, ?_⟩
          rw [hvs', hvs, add_ofNat]
        · refine Or.inr ⟨fun h => hrest h.2, hfail, ?_⟩
          rw [hvs', hvs, add_ofNat, Nat.add_assoc]
      · -- No turn comes after this one.
        have hnext : ∀ s2, sendChunk (remaining.take size) (left == 0) s = (.done (), s2) →
            AllSmooth size left (remaining.drop size) s2 := fun s2 h2 =>
          absurd (congrArg Prod.fst h2) hne
        refine ⟨events, htrace, hfront, ?_⟩
        rw [allSmooth_iff]
        rcases htally with ⟨hsmooth, hvs⟩ | ⟨hsmooth, hfail, hvs⟩
        · exact Or.inl ⟨⟨hsmooth, hnext⟩, hvs⟩
        · exact Or.inr ⟨fun h => hsmooth h.1, hfail, hvs⟩

/-- In particular, where the stream refuses the first I-frame of a call: nothing was taken,
    V(S) has moved on all the same and V(A) has not, so one more I-frame is outstanding. What
    is built of the same bytes next bears the next number. -/
theorem firstWrite_consumed {law : HdlcSessionLaw L} (wire : HdlcWireLaw L law) {s : State L}
    {apdu : ProfileByteView} {left : Nat} {built bytes : List UInt8} {σ : L.Session}
    (huse : s.options.hdlcUseSession = true) (hrefused : ¬ Refused s apdu)
    (hcount : framesToSend s apdu = left + 1)
    (hopen : L.canSendInformationFrame s.session = true)
    (hbuild : L.buildInformationFrame s.session ((lpduOf s apdu).take (chunkSizeOf s apdu))
      (left == 0) = (.ok, built, σ))
    (hbytes : recoded L (limited s).hdlcLimits (!(left == 0)) built = (.ok, bytes))
    (hwrite : s.writes.headD .ok ≠ .ok) :
    let after := (sendApdu apdu s).2
    (sendApdu apdu s).1 = .fail (mapTransportStatus (s.writes.headD .ok)) ∧
      after.trace = s.trace ++
        [.emit s.session bytes, .transport (.write bytes (s.writes.headD .ok))] ∧
      law.vs after.session = law.vs s.session + 1 ∧
      law.va after.session = law.va s.session ∧
      ∀ info bit built' σ', L.buildInformationFrame after.session info bit = (.ok, built', σ') →
        ∃ frame, wire.spells built' frame ∧
          law.sendSequence frame.control = law.vs s.session + 1 := by
  have hσ : L.Connected s.session := by
    simp only [Refused, not_or, not_not] at hrefused
    exact hrefused.2.2.2
  rcases law.information hσ hbuild with ⟨hσ', hvs, -, hva, -⟩
  -- The window is open, so the first turn builds at once, and its write ends the call.
  have hturn : sendChunk ((lpduOf s apdu).take (chunkSizeOf s apdu)) (left == 0) (limited s) =
      (.fail (mapTransportStatus (s.writes.headD .ok)),
        wrote bytes (emitted bytes σ (limited s))) := by
    have hwindow : awaitWindow (limited s) = (.done (), limited s) := if_pos hopen
    rcases sendChunk_cases ((lpduOf s apdu).take (chunkSizeOf s apdu)) (left == 0) (limited s) with
      ⟨o, s1, hw, ho, -⟩ | ⟨s1, hw, hrest⟩
    · rw [hwindow] at hw
      exact absurd (Prod.mk.inj hw).1.symm ho
    rw [hwindow] at hw
    obtain rfl := (Prod.mk.inj hw).2
    rcases hrest with ⟨status, hne, -⟩ | ⟨built', σ', hbuild', ⟨status, hne, -⟩ |
      ⟨bytes', hbytes', hgoes⟩⟩
    · exact absurd (congrArg Prod.fst hbuild) hne
    · obtain ⟨-, rfl, rfl⟩ := Prod.mk.injEq .. ▸ hbuild'.symm.trans hbuild
      exact absurd (congrArg Prod.fst hbytes) hne
    · obtain ⟨-, rfl, rfl⟩ := Prod.mk.injEq .. ▸ hbuild'.symm.trans hbuild
      obtain rfl := (Prod.mk.inj (hbytes'.symm.trans hbytes)).2
      rw [hgoes]
      exact Proc.bind_of_fail _ (writeFrameBytes_of_ne hwrite)
  have hcall : sendApdu apdu s = (.fail (mapTransportStatus (s.writes.headD .ok)),
      wrote bytes (emitted bytes σ (limited s))) := by
    rw [sendApdu_of_unrefused huse hrefused, hcount, sendChunks, Proc.bind_of_fail _ hturn]
  rw [hcall]
  refine ⟨rfl, List.append_assoc _ _ _, hvs, hva, fun info bit built' σ' hagain => ?_⟩
  rcases wire.information hσ' hagain with ⟨frame, hspells, -, -, -, hnumber, -⟩
  exact ⟨frame, hspells, hnumber.trans hvs⟩

/-- A call that fails has moved V(S) past the I-frames the stream took, and past
    no other. -/
def Consumes (law : HdlcSessionLaw L) (s : State L) (apdu : ProfileByteView) : Prop :=
  ∀ status s', sendApdu apdu s = (.fail status, s') →
    ∃ events, s'.trace = s.trace ++ events ∧
      (law.vs s'.session).val =
        ((law.vs s.session).val + framesTaken (grouped events).2) % 8

/-- A failed call loses no number if and only if it was refused before cutting or
    every I-frame it built went out. -/
theorem consumes_iff (law : HdlcSessionLaw L) (unnumbered : HdlcUnnumberedLaw L)
    (refuses : HdlcRefusalLaw L) {s : State L} {apdu : ProfileByteView}
    (huse : s.options.hdlcUseSession = true) (hσ : L.Connected s.session) :
    Consumes law s apdu ↔ Refused s apdu ∨
      AllSmooth (chunkSizeOf s apdu) (framesToSend s apdu) (lpduOf s apdu) (limited s) := by
  by_cases hrefused : Refused s apdu
  · rcases sendApdu_of_refused huse hrefused with ⟨status, hcall⟩
    refine iff_of_true (fun status' s' h => ?_) (Or.inl hrefused)
    rw [hcall] at h
    cases h
    exact ⟨[], (List.append_nil _).symm, (Nat.mod_eq_of_lt (law.vs s.session).isLt).symm⟩
  rw [or_iff_right hrefused]
  have hcall := sendApdu_of_unrefused huse hrefused
  have hlimited : L.Connected (limited s).session := hσ
  rcases sendChunks_consumed law unnumbered refuses (chunkSizeOf s apdu) (framesToSend s apdu)
    (lpduOf s apdu)
    hlimited with ⟨events, htrace, -, htally⟩
  rw [← hcall] at htrace htally
  have hlimit : law.vs (limited s).session = law.vs s.session := rfl
  rw [hlimit] at htally
  rcases htally with ⟨hsmooth, hvs⟩ | ⟨hsmooth, ⟨status, hfail⟩, hvs⟩
  · refine iff_of_true (fun status s' h => ⟨events, ?_, ?_⟩) hsmooth
    · rw [h] at htrace
      exact htrace
    · rw [h] at hvs
      rw [hvs, val_add_ofNat]
  · refine iff_of_false (fun h => ?_) hsmooth
    rcases h status _ (Prod.ext hfail rfl) with ⟨events', htrace', hvs'⟩
    obtain rfl := List.append_cancel_left (htrace'.symm.trans htrace)
    -- One number cannot be none.
    rw [hvs, val_add_ofNat] at hvs'
    omega

/-- A client whose I-frame goes out, and whose copy of it does not. -/
theorem consumes_copy :
    let s := (connectDataLink { Reference.hdlcChannel Reference.sessionOptions
      [Reference.arrived (Reference.toClient Reference.ua []), ⟨.wouldBlock, []⟩] with
        writes := [.ok, .ok, .writeFailed] }).2
    Consumes Reference.sessionLaw s (.of [0xC0]) ↔ Refused s (.of [0xC0]) ∨
      AllSmooth (chunkSizeOf s (.of [0xC0])) (framesToSend s (.of [0xC0]))
        (lpduOf s (.of [0xC0])) (limited s) :=
  consumes_iff Reference.sessionLaw Reference.unnumberedLaw Reference.refusalLaw (by decide +kernel)
    (by decide +kernel)

/-- The first write of the I-frame fails: the stream took nothing and V(S) has moved
    on, so that the same call made again writes another I-frame. -/
theorem consumes_refuted :
    let s := (connectDataLink { Reference.hdlcChannel
      { Reference.sessionOptions with hdlcWindowSizeTransmit := 2 }
      [Reference.arrived (Reference.toClient Reference.ua [])] with
        writes := [.ok, .writeFailed] }).2
    let failed := sendApdu (.of [0xC0]) s
    Reference.sessionLaw.vs s.session = 0 ∧
      failed.1 = .fail .writeFailed ∧
      framesTaken (grouped failed.2.trace).2 = 0 ∧
      Reference.sessionLaw.vs failed.2.session = 1 ∧
      (emittedBytes (sendApdu (.of [0xC0]) failed.2).2.trace).length = 2 ∧
      (emittedBytes (sendApdu (.of [0xC0]) failed.2).2.trace).Nodup := by
  decide +kernel

end Hdlc

end DlmsProfile
