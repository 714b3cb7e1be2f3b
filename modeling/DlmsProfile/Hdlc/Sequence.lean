import DlmsProfile.Hdlc.Consumption
import DlmsProfile.Hdlc.Delivery
import DlmsProfile.Hdlc.Feeding

/-!
# Staying in Sequence

Segmentation and reassembly put end to end. `SendApdu` gives every I-frame a number
of its own, and the peer shows its session one frame for every APDU. So the session
accepts every I-frame as long as each APDU takes one of them. An APDU that takes more
leaves the session with one frame for all its I-frames: the whole is rejected, or it is
accepted and V(R) falls behind V(S), unless the I-frames it was not shown are a round
of the numbers.

## Main definitions

* `Hdlc.emittedFrames`: The frames behind the I-frames a stretch of the trace built.
* `Hdlc.Numbered`: The frames of the pieces of an LPDU.
* `Hdlc.StaysInSequence`: The peer returns the APDUs one by one, in step.

## Theorems

* `Hdlc.sendApdu_bears`: The frames of one call.
* `Hdlc.in_sequence_iff`: When the peer stays in sequence.
-/

namespace DlmsProfile

namespace Hdlc

variable {L : HdlcLib} {law : HdlcSessionLaw L}

/-- The frames behind the I-frames that were built, in order, each of them once. -/
def emittedFrames (L : HdlcLib) (limits : HdlcCodecLimits) (events : List (Event L)) :
    List L.Frame :=
  (emittedBytes events).map fun bytes => (L.decodeFrame bytes limits).2

theorem emittedFrames_append (limits : HdlcCodecLimits) (a b : List (Event L)) :
    emittedFrames L limits (a ++ b) = emittedFrames L limits a ++ emittedFrames L limits b := by
  rw [emittedFrames, emittedBytes_append, List.map_append]
  rfl

/-- The frames of pieces, numbered one after the other. -/
inductive Numbered (law : HdlcSessionLaw L) : Fin 8 → List Piece → List L.Frame → Prop
  | nil (k : Fin 8) : Numbered law k [] []
  | cons {k : Fin 8} {piece : Piece} {all : List Piece} {frame : L.Frame} {frames : List L.Frame}
    (hkind : L.frameKind frame.control = .information)
    (hseg : frame.segmented = piece.segmented) (hinfo : frame.information = piece.information)
    (hnumber : law.sendSequence frame.control = k) (hrest : Numbered law (k + 1) all frames) :
    Numbered law k (piece :: all) (frame :: frames)

namespace Numbered

variable {k : Fin 8} {all : List Piece} {frames : List L.Frame}

/-- Nothing of what the pieces carry is lost. -/
theorem information (h : Numbered law k all frames) :
    frames.flatMap (·.information) = all.flatMap (·.information) := by
  induction h with
  | nil k => rfl
  | cons _ _ hinfo _ _ ih => rw [List.flatMap_cons, List.flatMap_cons, hinfo, ih]

/-- Pieces of which all but the last are segments are the frames of one LPDU. -/
theorem bears {before : List Piece} {piece : Piece}
    (h : Numbered law k (before ++ [piece]) frames) (hbefore : ∀ p ∈ before, p.segmented = true)
    (hpiece : piece.segmented = false) :
    ∃ segments last, frames = segments ++ [last] ∧ segments.length = before.length ∧
      Bears law k segments last := by
  -- On the pieces before the last, the numbers rising by one with each.
  induction before generalizing k frames with
  | nil =>
      cases h with
      | @cons _ _ _ frame _ hkind hseg hinfo hnumber hrest =>
          cases hrest
          refine ⟨[], frame, rfl, rfl, ?_, ?_, hseg.trans hpiece, hnumber, ?_⟩
          · intro f hf
            rw [List.mem_singleton.mp hf]
            exact hkind
          · exact fun f hf => absurd hf List.not_mem_nil
          · rw [hnumber]
            exact (Fin.add_zero _).symm
  | cons p before ih =>
      cases h with
      | @cons _ _ _ frame _ hkind hseg hinfo hnumber hrest =>
          rcases ih hrest (fun q hq => hbefore q (List.mem_cons_of_mem _ hq)) with
            ⟨segments, last, rfl, hlength, hbears⟩
          refine ⟨frame :: segments, last, rfl, congrArg Nat.succ hlength,
            List.forall_mem_cons.mpr ⟨hkind, hbears.information⟩,
            List.forall_mem_cons.mpr ⟨hseg.trans (hbefore p List.mem_cons_self), hbears.segmented⟩,
            hbears.whole, hnumber, ?_⟩
          rw [hbears.final, List.length_cons, Nat.add_comm, ← add_ofNat]
          rfl

end Numbered

/-- The I-frames of an LPDU, all of them built, are its pieces numbered from `k` on. -/
theorem emission_numbered (wire : HdlcWireLaw L law) {size left : Nat} {k : Fin 8}
    {remaining : List UInt8} {all : List (List UInt8)} {limits : HdlcCodecLimits}
    (h : Emission law size left k remaining all) (hall : all.length = left)
    (hdecode : ∀ bytes ∈ all, (L.decodeFrame bytes limits).1 = .ok) :
    Numbered law k (pieces size left remaining)
      (all.map fun bytes => (L.decodeFrame bytes limits).2) := by
  -- On the chunks emitted, each decoded to the frame it was built for.
  induction h with
  | stop left k remaining =>
      obtain rfl := hall
      exact Numbered.nil k
  | @next left k remaining bytes rest hbuilt _ ih =>
      rcases built_frame wire hbuilt (hdecode bytes List.mem_cons_self) with
        ⟨hkind, hseg, hinfo, hnumber⟩
      exact Numbered.cons hkind hseg hinfo hnumber
        (ih (Nat.succ.inj hall) fun b hb => hdecode b (List.mem_cons_of_mem _ hb))

/-- The sizes a call adds up are sizes. -/
def Sized (s : State L) (op : Operation) : Prop :=
  ∀ apdu, op = .send apdu → transmitLimit s < 2 ^ 64 ∧ (lpduOf s apdu).length < 2 ^ 64

section Calls

variable {apdu : ProfileByteView} {s s' : State L}

/-- A completed call had nothing to refuse. -/
theorem unrefused_of_done (huse : s.options.hdlcUseSession = true)
    (h : sendApdu apdu s = (.done (), s')) : ¬ Refused s apdu := by
  intro hrefused
  rcases sendApdu_of_refused huse hrefused with ⟨status, hfail⟩
  rw [hfail] at h
  cases h

/-- The LPDU of a call that is not refused is read back by a channel whose limit the APDU
    is within. -/
theorem lpdu_reads (llc : LlcLaw L) {options : ApduChannelOptions} (h : ¬ Refused s apdu)
    (hsize : ¬ (options.maximumApduSize ≠ 0 ∧ options.maximumApduSize < apdu.data.length)) :
    lpduOf s apdu ≠ [] ∧ readInformation L options (lpduOf s apdu) = .ok apdu.data := by
  simp only [Refused, not_or, not_not] at h
  rcases h with ⟨-, -, hllc, -⟩
  have henc : encodeApdu L s.options apdu.data = (.ok, lpduOf s apdu) := Prod.ext hllc rfl
  have hok : ¬ mapLlcStatus LlcStatus.ok ≠ .ok := not_not.mpr rfl
  refine ⟨llc.nonempty henc, ?_⟩
  rw [readInformation, llc.decode henc]
  simp only
  rw [if_neg hok, if_neg hsize]

/-- The LPDU of a completed call is read back by a channel with the same limit. -/
theorem sendApdu_reads (llc : LlcLaw L) {options : ApduChannelOptions}
    (huse : s.options.hdlcUseSession = true)
    (hmax : options.maximumApduSize = s.options.maximumApduSize)
    (h : sendApdu apdu s = (.done (), s')) :
    lpduOf s apdu ≠ [] ∧ readInformation L options (lpduOf s apdu) = .ok apdu.data := by
  have hrefused := unrefused_of_done huse h
  refine lpdu_reads llc hrefused ?_
  simp only [Refused, not_or, not_not] at hrefused
  rcases hrefused with ⟨hvalid, hsize, -, -⟩
  rw [size_eq_length (Bool.not_eq_false _ ▸ hvalid)] at hsize
  rw [hmax]
  exact hsize

/-- The frames of a call all of whose I-frames were built: none if their count wraps, else
    segments and one frame that is none. -/
theorem sendApdu_bears (unnumbered : HdlcUnnumberedLaw L) (wire : HdlcWireLaw L law)
    {events : List (Event L)} {limits : HdlcCodecLimits} (huse : s.options.hdlcUseSession = true)
    (htrace : (sendApdu apdu s).2.trace = s.trace ++ events) (hsized : Sized s (.send apdu))
    (hcount : (emittedBytes events).length = framesToSend s apdu)
    (hdecode : ∀ bytes ∈ emittedBytes events, (L.decodeFrame bytes limits).1 = .ok) :
    (framesToSend s apdu = 0 ∧ emittedFrames L limits events = []) ∨
      ∃ segments last, emittedFrames L limits events = segments ++ [last] ∧
        framesToSend s apdu = segments.length + 1 ∧
        Bears law (law.vs s.session) segments last ∧
        (segments ++ [last]).flatMap (·.information) = lpduOf s apdu := by
  -- A count that wraps to none emits nothing.
  by_cases hnone : framesToSend s apdu = 0
  · refine Or.inl ⟨hnone, ?_⟩
    rw [emittedFrames, List.eq_nil_of_length_eq_zero (hcount.trans hnone)]
    rfl
  -- Otherwise it does not wrap, by the sizes assumed.
  have hfits : CountFits s apdu := by
    by_contra hwraps
    rcases hsized apdu rfl with ⟨hlimit, hlpdu⟩
    exact hnone (framesToSend_of_wraps hlimit hlpdu hwraps)
  have hemission : Emission law (chunkSizeOf s apdu) (framesToSend s apdu) (law.vs s.session)
      (lpduOf s apdu) (emittedBytes events) := by
    rcases @sendApdu_emission L s law unnumbered apdu huse with ⟨events', hev, hemits⟩
    obtain rfl := List.append_cancel_left (htrace.symm.trans hev)
    rcases hemits with hnil | ⟨-, hemits⟩
    · rw [hnil] at hcount
      exact absurd hcount.symm hnone
    · exact hemits
  have hnumbered : Numbered law (law.vs s.session)
      (pieces (chunkSizeOf s apdu) (framesToSend s apdu) (lpduOf s apdu))
      (emittedFrames L limits events) := emission_numbered wire hemission hcount hdecode
  have hpartition := pieces_partition (transmitLimit s) (lpduOf s apdu)
  have hquotient := framesToSend_of_fits hfits
  rw [hquotient] at hnumbered
  have hall : (pieces (chunkSizeOf s apdu)
      (Chunks.turns (lpduOf s apdu).length (chunkSizeOf s apdu)) (lpduOf s apdu)).flatMap
      (·.information) = lpduOf s apdu := hpartition.whole
  have hmarked := hpartition.marked
  rcases hmarked with ⟨before, piece, hpieces, hbefore, hpiece, -⟩
  have hpieces' : pieces (chunkSizeOf s apdu)
      (Chunks.turns (lpduOf s apdu).length (chunkSizeOf s apdu)) (lpduOf s apdu) =
        before ++ [piece] := hpieces
  have hturns : framesToSend s apdu = before.length + 1 := by
    have hlen := pieces_length (chunkSizeOf s apdu)
      (Chunks.turns (lpduOf s apdu).length (chunkSizeOf s apdu)) (lpduOf s apdu)
    rw [hpieces', List.length_append, List.length_singleton] at hlen
    rw [hquotient, hlen]
  have hinfo := hnumbered.information
  rw [hall] at hinfo
  rw [hpieces'] at hnumbered
  -- The pieces before the last are segments, and so are their frames.
  rcases hnumbered.bears (fun p hp => (hbefore p hp).1) hpiece with
    ⟨segments, last, hframes, hsame, hbears⟩
  rw [hframes] at hinfo
  exact Or.inr ⟨segments, last, hframes, by rw [hturns, hsame], hbears, hinfo⟩

end Calls

/-- The frames of the I-frames a call builds. -/
def framesOf (limits : HdlcCodecLimits) (apdu : ProfileByteView) (s : State L) : List L.Frame :=
  emittedFrames L limits ((sendApdu apdu s).2.trace.drop s.trace.length)

/-- The peer returns the APDUs one by one, with nothing left over. For each of them its
    session accepts every I-frame, and then V(R) is the V(S) of the sender. -/
def StaysInSequence (law : HdlcSessionLaw L) (limits : HdlcCodecLimits) :
    List ProfileByteView → State L → State L → Prop
  | [], _, r => r.pendingApdus = []
  | apdu :: apdus, s, r =>
    ∃ r', receiveApdu r = (.done apdu.data, r') ∧ AcceptsEach (framesOf limits apdu s) r r' ∧
      law.vr r'.session = law.vs (sendApdu apdu s).2.session ∧
      StaysInSequence law limits apdus (sendApdu apdu s).2 r'

/-- The APDU of a call takes one I-frame. -/
def TakesOne (s : State L) (op : Operation) : Prop :=
  ∀ apdu, op = .send apdu → framesToSend s apdu = 1

/-- What completed calls recorded. -/
def recordedBy (apdus : List ProfileByteView) (s : State L) : List (Event L) :=
  (sendAll apdus s).2.trace.drop s.trace.length

/-- A sender whose calls all complete, and a peer with the same limit that is fed the
    I-frames they build, which acknowledge all that the peer has sent. -/
structure Supplies (law : HdlcSessionLaw L) (collects : HdlcReassemblerLaw L)
    (limits : HdlcCodecLimits) (apdus : List ProfileByteView) (s r : State L) : Prop where
  session : s.options.hdlcUseSession = true
  sizes : AtEachCall Sized (apdus.map .send) s
  sends : (sendAll apdus s).1 = .done ()
  ready : Ready law collects r
  limit : r.options.maximumApduSize = s.options.maximumApduSize
  decodes : ∀ bytes ∈ emittedBytes (recordedBy apdus s), (L.decodeFrame bytes limits).1 = .ok
  acknowledges : ∀ frame ∈ emittedFrames L limits (recordedBy apdus s),
    law.receiveSequence frame.control = law.vs r.session
  fed : Fed (emittedFrames L limits (recordedBy apdus s)) r

section Supplies

variable {collects : HdlcReassemblerLaw L} {limits : HdlcCodecLimits}
  {apdus : List ProfileByteView} {apdu : ProfileByteView} {s s1 r : State L}

theorem sendAll_extends (law : HdlcSessionLaw L) (unnumbered : HdlcUnnumberedLaw L)
    (huse : s.options.hdlcUseSession = true) (h : (sendAll apdus s).1 = .done ()) :
    (sendAll apdus s).2.trace = s.trace ++ recordedBy apdus s := by
  have hextends : ∃ events, (sendAll apdus s).2.trace = s.trace ++ events := by
    have hdone : sendAll apdus s = (.done (), (sendAll apdus s).2) := Prod.ext h rfl
    generalize (sendAll apdus s).2 = s' at hdone
    clear h
    -- On the APDUs.
    induction apdus generalizing s with
    | nil =>
        cases hdone
        exact ⟨[], (List.append_nil _).symm⟩
    | cons apdu apdus ih =>
        rcases Proc.bind_done_iff.mp hdone with ⟨_, s1, hsend, hrest⟩
        rcases sendApdu_done law unnumbered huse hsend with ⟨taken, hsends, -⟩
        rcases hsends.replay with ⟨events, htrace, -⟩
        rcases ih (hsends.options ▸ huse) hrest with ⟨events', htrace'⟩
        exact ⟨events ++ events', by rw [htrace', htrace, List.append_assoc]⟩
  rcases hextends with ⟨events, htrace⟩
  rw [recordedBy, htrace, List.drop_left]

/-- The first call: the frames of its APDU come in front of those of the rest. -/
theorem Supplies.first (unnumbered : HdlcUnnumberedLaw L) (wire : HdlcWireLaw L law)
    (h : Supplies law collects limits (apdu :: apdus) s r) :
    ∃ s1 frames rest, sendApdu apdu s = (.done (), s1) ∧ framesOf limits apdu s = frames ∧
      law.vs s1.session = law.vs s.session + Fin.ofNat 8 (framesToSend s apdu) ∧
      Fed (frames ++ rest) r ∧
      (∀ {r'}, r'.options = r.options → law.vs r'.session = law.vs r.session →
        Ready law collects r' → Fed rest r' → Supplies law collects limits apdus s1 r') ∧
      ((framesToSend s apdu = 0 ∧ frames = []) ∨
        ∃ segments last, frames = segments ++ [last] ∧
          framesToSend s apdu = segments.length + 1 ∧
          Bears law (law.vs s.session) segments last ∧
          (∀ frame ∈ segments ++ [last], law.receiveSequence frame.control = law.vs r.session) ∧
          (segments ++ [last]).flatMap (·.information) = lpduOf s apdu) := by
  have hsend : sendAll (apdu :: apdus) s = (.done (), (sendAll (apdu :: apdus) s).2) :=
    Prod.ext h.sends rfl
  rcases Proc.bind_done_iff.mp hsend with ⟨_, s1, hfirst, hrest⟩
  rcases sendApdu_done law unnumbered h.session hfirst with ⟨taken, hsends, -⟩
  rcases hsends.replay with ⟨events, htrace, hreplay⟩
  have huse1 : s1.options.hdlcUseSession = true := hsends.options ▸ h.session
  have hsends1 : (sendAll apdus s1).1 = .done () := congrArg Prod.fst hrest
  -- What was recorded falls into the part of the first APDU and the rest.
  have hsplit : recordedBy (apdu :: apdus) s = events ++ recordedBy apdus s1 := by
    have hwhole := sendAll_extends law unnumbered h.session h.sends
    have hlater := sendAll_extends law unnumbered huse1 hsends1
    rw [hrest, htrace, hwhole, List.append_assoc] at hlater
    exact List.append_cancel_left hlater
  have hdecodes := h.decodes
  have hnr := h.acknowledges
  have hfed := h.fed
  rw [hsplit, emittedBytes_append, List.forall_mem_append] at hdecodes
  rw [hsplit, emittedFrames_append, List.forall_mem_append] at hnr
  rw [hsplit, emittedFrames_append] at hfed
  have hexec : exec (.send apdu) s = (.status (.done ()), s1) := by
    rw [exec, hfirst]
  have hsizes := h.sizes
  rw [List.map_cons, AtEachCall, hexec] at hsizes
  rcases hsizes with ⟨hsized, hsizes⟩
  have hframes : framesOf limits apdu s = emittedFrames L limits events := by
    rw [framesOf, hfirst, htrace, List.drop_left]
  refine ⟨s1, _, _, hfirst, hframes, hreplay.vs_eq law unnumbered, hfed, ?_, ?_⟩
  -- The rest supplies whatever receiver the first APDU leaves behind.
  · intro r' ho hvs hready hfed'
    refine ⟨huse1, hsizes rfl, hsends1, hready, ?_, hdecodes.2, ?_, hfed'⟩
    · rw [ho, hsends.options]
      exact h.limit
    · rw [hvs]
      exact hnr.2
  · have htrace' : (sendApdu apdu s).2.trace = s.trace ++ events := by
      rw [hfirst]
      exact htrace
    rcases sendApdu_bears unnumbered wire h.session htrace' hsized hreplay.emittedBytes_length
      hdecodes.1 with hnone | ⟨segments, last, hframes, hcount, hbears, hinfo⟩
    · exact Or.inl hnone
    · rw [hframes] at hnr
      exact Or.inr ⟨segments, last, hframes, hcount, hbears, hnr.1, hinfo⟩

/-- What one call of the peer makes of the frames of the first APDU. -/
theorem Supplies.receives (verdict : HdlcVerdictLaw L) (llc : LlcLaw L)
    {segments rest : List L.Frame} {last : L.Frame}
    (h : Supplies law collects limits (apdu :: apdus) s r)
    (hsend : sendApdu apdu s = (.done (), s1)) (hfed : Fed (segments ++ [last] ++ rest) r)
    (hbears : Bears law (law.vs s.session) segments last)
    (hnr : ∀ frame ∈ segments ++ [last], law.receiveSequence frame.control = law.vs r.session)
    (hinfo : (segments ++ [last]).flatMap (·.information) = lpduOf s apdu) :
    (∃ whole r', receiveApdu r = (.done apdu.data, r') ∧ Proceeds law whole r r' ∧
        WholeOf segments last whole ∧ Ready law collects r' ∧ Fed rest r' ∧
        (law.vr r.session = law.vs s.session ∨
          law.vr r.session = law.vs s.session + Fin.ofNat 8 segments.length)) ∨
      (∃ status r', receiveApdu r = (.fail status, r')) ∧
        ¬ (law.vr r.session = law.vs s.session ∧
          law.vr r.session = law.vs s.session + Fin.ofNat 8 segments.length) := by
  rcases sendApdu_reads llc h.session h.limit hsend with ⟨hne, hread⟩
  rw [List.append_assoc, List.singleton_append] at hfed
  exact receiveApdu_fed verdict h.ready hbears hnr (hinfo.symm ▸ hne) (hinfo.symm ▸ hread) hfed

/-- A call of the peer that returns an APDU moves V(R) by one. -/
theorem Supplies.moves (unnumbered : HdlcUnnumberedLaw L) (wire : HdlcWireLaw L law)
    (verdict : HdlcVerdictLaw L) (llc : LlcLaw L)
    (h : Supplies law collects limits apdus s r) {data : List UInt8} {r' : State L}
    (hcall : receiveApdu r = (.done data, r')) : law.vr r'.session = law.vr r.session + 1 := by
  -- On the APDUs. The next to be received is the first that has frames at all.
  induction apdus generalizing s with
  | nil =>
      have hnone : recordedBy [] s = [] := List.drop_length
      have hfed := h.fed
      rw [hnone] at hfed
      exact absurd hcall (receiveApdu_unfed h.ready.pending hfed)
  | cons apdu apdus ih =>
      rcases h.first unnumbered wire with ⟨s1, frames, rest, hsend, -, -, hfed, hnext, hframes⟩
      rcases hframes with ⟨-, rfl⟩ | ⟨segments, last, rfl, -, hbears, hnr, hinfo⟩
      · exact ih (hnext rfl rfl h.ready hfed)
      · rcases h.receives verdict llc hsend hfed hbears hnr hinfo with
          ⟨whole, r'', hdone, hproceeds, -⟩ | ⟨⟨status, r'', hfail⟩, -⟩
        · rw [hdone] at hcall
          cases hcall
          exact hproceeds.received
        · rw [hfail] at hcall
          cases hcall

end Supplies

/-- The sum of a number and a count is the next number only if the count is one
    modulo 8. -/
theorem add_ofNat_eq_succ {k : Fin 8} {n : Nat} : k + Fin.ofNat 8 n = k + 1 ↔ n % 8 = 1 := by
  rw [Fin.ext_iff, val_add_ofNat, Fin.val_add]
  have hk := k.isLt
  have hone : ((1 : Fin 8) : Nat) = 1 := rfl
  rw [hone]
  omega

/-- As many frames were accepted as there are I-frames. -/
theorem AcceptsEach.length_eq {frames frames' : List L.Frame} {s s' : State L}
    (h : AcceptsEach frames s s') (h' : AcceptsEach frames' s s') :
    frames.length = frames'.length := by
  rcases h with ⟨events, htrace, hshown⟩
  rcases h' with ⟨events', htrace', hshown'⟩
  obtain rfl := List.append_cancel_left (htrace.symm.trans htrace')
  have hlength := congrArg List.length (hshown.symm.trans hshown')
  rwa [List.length_map, List.length_map] at hlength

/-- Fed the I-frames that completed calls build, a connected peer that starts in step
    accepts each of them and returns their APDUs one by one, in step after each, if and
    only if every APDU takes one I-frame. -/
theorem in_sequence_iff (unnumbered : HdlcUnnumberedLaw L) (wire : HdlcWireLaw L law)
    (verdict : HdlcVerdictLaw L) (llc : LlcLaw L) {collects : HdlcReassemblerLaw L}
    {limits : HdlcCodecLimits} {apdus : List ProfileByteView} {sender receiver : State L}
    (hsupplies : Supplies law collects limits apdus sender receiver)
    (hstep : law.vr receiver.session = law.vs sender.session) :
    StaysInSequence law limits apdus sender receiver ↔
      AtEachCall TakesOne (apdus.map .send) sender := by
  induction apdus generalizing sender receiver with
  | nil => exact iff_of_true hsupplies.ready.pending trivial
  | cons apdu apdus ih =>
      rcases hsupplies.first unnumbered wire with
        ⟨s1, frames, rest, hsend, hof, hvs, hfed, hnext, hframes⟩
      have hexec : exec (.send apdu) sender = (.status (.done ()), s1) := by
        rw [exec, hsend]
      have hsent : (sendApdu apdu sender).2 = s1 := congrArg Prod.snd hsend
      rw [List.map_cons, AtEachCall, hexec, StaysInSequence, hsent, hof]
      rcases hframes with ⟨hzero, rfl⟩ | ⟨segments, last, rfl, hcount, hbears, hnr, hinfo⟩
      · -- Nothing was sent, and what the peer returned would have moved V(R).
        refine iff_of_false ?_ fun h => ?_
        · rintro ⟨r', hdone, -, hstep', -⟩
          have hmoved := hsupplies.moves unnumbered wire verdict llc hdone
          rw [hstep', hvs, hstep, add_ofNat_eq_succ, hzero] at hmoved
          cases hmoved
        · have hone := h.1 apdu rfl
          rw [hzero] at hone
          cases hone
      have hreceives := hsupplies.receives verdict llc hsend hfed hbears hnr hinfo
      by_cases hone : segments = []
      · -- The APDU takes one I-frame, and the two ends stay in step.
        obtain rfl := hone
        rcases hreceives with
          ⟨whole, r', hdone, hproceeds, hwhole, hready, hfed', -⟩ | ⟨-, hnot⟩
        swap
        · have hzero : Fin.ofNat 8 ([] : List L.Frame).length = 0 := rfl
          rw [hzero, Fin.add_zero, and_self] at hnot
          exact absurd hstep hnot
        have hstep' : law.vr r'.session = law.vs s1.session := by
          rw [hproceeds.received, hstep, hvs, hcount]
          rfl
        have haccepts : AcceptsEach ([] ++ [last]) receiver r' := by
          rcases hproceeds.accepted with ⟨events, htrace, hshown⟩
          refine ⟨events, htrace, hshown.trans ?_⟩
          rcases hwhole rfl with ⟨hcontrol, hinformation⟩
          rw [List.map_singleton, hcontrol, hinformation]
          rfl
        have hrest := ih (hnext hproceeds.options hproceeds.sent hready hfed') hstep'
        rw [hdone]
        constructor
        · rintro ⟨r'', heq, -, -, hall⟩
          cases heq
          refine ⟨fun a ha => ?_, fun _ => hrest.mp hall⟩
          obtain rfl := Operation.send.inj ha
          exact hcount
        · rintro ⟨-, hall⟩
          exact ⟨r', rfl, haccepts, hstep', hrest.mpr (hall rfl)⟩
      · -- The session is shown one frame for two or more I-frames.
        have hmany : 0 < segments.length := List.length_pos_iff.mpr hone
        refine iff_of_false ?_ fun h => ?_
        · rintro ⟨r', hdone, haccepts, -⟩
          rcases hreceives with ⟨whole, r'', hdone', hproceeds, -⟩ | ⟨⟨status, r'', hfail⟩, -⟩
          · obtain ⟨-, rfl⟩ := Prod.mk.inj (hdone.symm.trans hdone')
            have hlength := haccepts.length_eq hproceeds.accepted
            rw [List.length_append, List.length_singleton, List.length_singleton] at hlength
            omega
          · rw [hfail] at hdone
            cases hdone
        · have htakes := h.1 apdu rfl
          omega

/-- Three APDUs of one I-frame each, the second of them empty. -/
theorem in_sequence_three :
    let sender := (run [.connectDataLink] (Reference.hdlcChannel Reference.sessionOptions
      (Reference.arrived (Reference.toClient Reference.ua []) ::
        ([1, 2, 3] : List (Fin 8)).map fun next =>
          Reference.arrived (Reference.receiveReady next)))).2
    let apdus : List ProfileByteView := [.of [0xC0, 0x01], .of [], .of [0xC4]]
    let built := emittedBytes (recordedBy apdus sender)
    let receiver := (run [.acceptDataLink] (Reference.hdlcChannel Reference.serverOptions
      [Reference.arrived (Reference.toServer Reference.snrm [] ++ built.flatten)])).2
    StaysInSequence Reference.sessionLaw receiver.hdlcLimits apdus sender receiver ↔
      AtEachCall TakesOne (apdus.map .send) sender := by
  intro sender apdus built receiver
  have hsizes : AtEachCall Sized (apdus.map .send) sender := by
    refine ⟨?_, fun _ => ⟨?_, fun _ => ⟨?_, fun _ => trivial⟩⟩⟩ <;>
    · intro apdu h
      obtain rfl := Operation.send.inj h
      decide +kernel
  -- What is to be evaluated of the two ends.
  have hsender : sender.options.hdlcUseSession = true ∧ (sendAll apdus sender).1 = .done () ∧
      emittedFrames Reference.hdlcLib receiver.hdlcLimits (recordedBy apdus sender) =
        receiver.pendingHdlcFrames ∧
      ∀ bytes ∈ emittedBytes (recordedBy apdus sender),
        (Reference.hdlcLib.decodeFrame bytes receiver.hdlcLimits).1 = .ok := by
    decide +kernel
  have hreceiver : receiver.options.hdlcUseSession = true ∧
      Reference.hdlcLib.Connected receiver.session ∧
      Reference.sessionLaw.va receiver.session = Reference.sessionLaw.vs receiver.session ∧
      receiver.pendingApdus = [] ∧ receiver.writes = [] ∧ receiver.reads = [] ∧
      Reference.reassemblerLaw.collected receiver.reassembler = [] ∧
      receiver.options.maximumApduSize = sender.options.maximumApduSize ∧
      Reference.sessionLaw.vr receiver.session = Reference.sessionLaw.vs sender.session ∧
      ∀ frame ∈ receiver.pendingHdlcFrames,
        Reference.sessionLaw.receiveSequence frame.control =
          Reference.sessionLaw.vs receiver.session := by
    decide +kernel
  rcases hsender with ⟨huse, hsends, hframes, hdecodes⟩
  rcases hreceiver with
    ⟨huse', hσ, hsettled, hpending, hwrites, hreads, hcollected, hlimit, hstep, hnr⟩
  have hwrites' : ∀ status ∈ receiver.writes, status = .ok := by
    rw [hwrites]
    exact fun _ h => absurd h List.not_mem_nil
  have hsupplies : Supplies Reference.sessionLaw Reference.reassemblerLaw receiver.hdlcLimits apdus
      sender receiver := by
    refine ⟨huse, hsizes, hsends, ⟨⟨huse', hσ, hsettled, hpending, hwrites'⟩, hcollected⟩, hlimit,
      hdecodes, ?_, ?_⟩
    · rw [hframes]
      exact hnr
    · rw [hframes]
      exact fed_pending hreads
  exact in_sequence_iff Reference.unnumberedLaw Reference.wireLaw Reference.verdictLaw
    Reference.llcLaw hsupplies hstep

/-- Two APDUs of two I-frames each. The first is returned with V(R) at one and V(S) at
    two, and of the second nothing is, its first I-frame being numbered two. -/
theorem in_sequence_refuted :
    let sender := (run [.connectDataLink] (Reference.hdlcChannel
      { Reference.sessionOptions with hdlcMaxInformationFieldLengthTransmit := 2 }
      (Reference.arrived (Reference.toClient Reference.ua []) ::
        ([1, 2, 3, 4] : List (Fin 8)).map fun next =>
          Reference.arrived (Reference.receiveReady next)))).2
    let apdus : List ProfileByteView := [.of [0xC0], .of [0xC1]]
    let built := emittedBytes (recordedBy apdus sender)
    let receiver := (run [.acceptDataLink] (Reference.hdlcChannel Reference.serverOptions
      [Reference.arrived (Reference.toServer Reference.snrm [] ++ built.flatten)])).2
    ((sendAll apdus sender).1 = .done () ∧
      emittedFrames Reference.hdlcLib receiver.hdlcLimits (recordedBy apdus sender) =
        receiver.pendingHdlcFrames ∧
      Reference.hdlcLib.Connected receiver.session ∧
      Reference.sessionLaw.vr receiver.session = Reference.sessionLaw.vs sender.session ∧
      (receiveApdu receiver).1 = .done [0xC0] ∧
      Reference.sessionLaw.vr (receiveApdu receiver).2.session = 1 ∧
      Reference.sessionLaw.vs (sendApdu (.of [0xC0]) sender).2.session = 2 ∧
      (receiveApdu (receiveApdu receiver).2).1 = .fail .invalidFrame) ∧
      ¬ StaysInSequence Reference.sessionLaw receiver.hdlcLimits apdus sender receiver := by
  intro sender apdus built receiver
  have hfacts : (sendAll apdus sender).1 = .done () ∧
      emittedFrames Reference.hdlcLib receiver.hdlcLimits (recordedBy apdus sender) =
        receiver.pendingHdlcFrames ∧
      Reference.hdlcLib.Connected receiver.session ∧
      Reference.sessionLaw.vr receiver.session = Reference.sessionLaw.vs sender.session ∧
      (receiveApdu receiver).1 = .done [0xC0] ∧
      Reference.sessionLaw.vr (receiveApdu receiver).2.session = 1 ∧
      Reference.sessionLaw.vs (sendApdu (.of [0xC0]) sender).2.session = 2 ∧
      (receiveApdu (receiveApdu receiver).2).1 = .fail .invalidFrame := by
    decide +kernel
  refine ⟨hfacts, ?_⟩
  rintro ⟨r', hdone, -, hstep, -⟩
  rcases hfacts with ⟨-, -, -, -, -, hvr, hvs, -⟩
  have hafter : (receiveApdu receiver).2 = r' := congrArg Prod.snd hdone
  rw [← hafter, hvr, hvs] at hstep
  cases hstep

end Hdlc

end DlmsProfile
