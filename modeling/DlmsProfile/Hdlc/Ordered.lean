import DlmsProfile.Hdlc.Hearing
import DlmsProfile.Hdlc.Transmission
import DlmsProfile.Library.Numbering

/-!
# Single-Frame APDUs arrive in Order

A client that sends and a server that receives, over a line that keeps the order
of frames and may lose any of them. What the one writes are numbered copies, what
the other queues is taken from copies by their numbers, and the numbers follow
one another modulo 8. So however often an I-frame was written, whichever replies
were lost and whichever calls failed, the APDUs received are some of those sent,
in order and each at most once.

The numbers wrap, and no window is needed to tell one round from the next: a copy
from the round before would have to overtake the copies written after it.

## Main definitions

* `Hdlc.frameOf`, `Hdlc.onLine`: The frames behind what was written.
* `Hdlc.labelled`: The number of an I-frame and the APDU in it.

## Theorems

* `Hdlc.takes_of_hears`: Single frames are taken by their numbers.
* `Hdlc.run_copies`: What a run of calls leaves on the line.
* `Hdlc.received_in_order`: At most once, and in order.
-/

namespace DlmsProfile

namespace Hdlc

variable {L : HdlcLib} {law : HdlcSessionLaw L}

/-- The frame the bytes are, if they are one. -/
def frameOf (L : HdlcLib) (limits : HdlcCodecLimits) (bytes : List UInt8) : Option L.Frame :=
  if (L.decodeFrame bytes limits).1 = .ok then some (L.decodeFrame bytes limits).2 else none

/-- The frames handed to the stream, in order, whatever it answered. -/
def onLine (L : HdlcLib) (limits : HdlcCodecLimits) (events : List (Event L)) : List L.Frame :=
  (written events).filterMap fun w => frameOf L limits w.1

theorem onLine_append (limits : HdlcCodecLimits) (a b : List (Event L)) :
    onLine L limits (a ++ b) = onLine L limits a ++ onLine L limits b := by
  rw [onLine, written_append, List.filterMap_append]
  rfl

/-- The number of an I-frame, and the APDU in it. -/
def labelled (law : HdlcSessionLaw L) (frame : L.Frame) : Fin 8 × List UInt8 :=
  (law.sendSequence frame.control, apduOf L frame.information)

/-- An I-frame that is no segment. -/
def Single (frame : L.Frame) : Prop :=
  L.frameKind frame.control = .information ∧ frame.segmented = false

/-- Single frames are taken by their numbers. -/
theorem takes_of_hears {r r' : Fin 8} {c' frames : List L.Frame} {apdus : List (List UInt8)}
    (h : Hears law r [] frames apdus r' c') (hsingle : ∀ frame ∈ frames, Single frame) :
    Numbering.Takes (· + 1) r (frames.map (labelled law)) apdus r' := by
  generalize hc : ([] : List L.Frame) = c at h
  -- On what is heard. With no segments about, a frame is passed over, lost or taken.
  induction h with
  | nil r c => exact Numbering.Takes.nil r
  | @segment _ _ _ _ _ frame _ hseg _ _ =>
      have hnot := (hsingle frame List.mem_cons_self).2
      rw [hseg] at hnot
      cases hnot
  | reject _ _ ih =>
      exact Numbering.Takes.pass (ih (fun f hf => hsingle f (List.mem_cons_of_mem _ hf)) rfl)
  | refuse _ hnumber _ ih =>
      subst hc
      have hr := hnumber.elim id id
      rw [List.map_cons, labelled, hr]
      exact Numbering.Takes.lose (ih (fun f hf => hsingle f (List.mem_cons_of_mem _ hf)) rfl)
  | queue _ hnumber _ ih =>
      subst hc
      have hr := hnumber.elim id id
      rw [List.map_cons, labelled, hr, List.nil_append, List.flatMap_singleton]
      exact Numbering.Takes.take (ih (fun f hf => hsingle f (List.mem_cons_of_mem _ hf)) rfl)

/-- What the bytes of an I-frame are taken for. -/
theorem frameOf_built (wire : HdlcWireLaw L law) {k : Fin 8} {chunk bytes : List UInt8}
    {limits : HdlcCodecLimits} {frame : L.Frame} (h : BuiltFrom law k chunk false bytes)
    (hframe : frameOf L limits bytes = some frame) :
    Single frame ∧ frame.information = chunk ∧ law.sendSequence frame.control = k := by
  rw [frameOf] at hframe
  split at hframe
  · next hok =>
      obtain rfl := Option.some.inj hframe
      rcases built_frame wire h hok with ⟨hkind, hseg, hinfo, hnumber⟩
      exact ⟨⟨hkind, hseg⟩, hinfo, hnumber⟩
  · cases hframe

/-- Copies of one I-frame are on the line under one number. -/
theorem onLine_copies (wire : HdlcWireLaw L law) {k : Fin 8} {chunk bytes : List UInt8}
    {limits : HdlcCodecLimits} {events : List (Event L)} (h : BuiltFrom law k chunk false bytes)
    (hall : ∀ w ∈ written events, w.1 = bytes) :
    ∀ frame ∈ onLine L limits events, Single frame ∧
      labelled law frame = (k, apduOf L chunk) := by
  intro frame hmem
  rcases List.mem_filterMap.mp hmem with ⟨w, hw, hframe⟩
  rw [hall w hw] at hframe
  rcases frameOf_built wire h hframe with ⟨hsingle, hinfo, hnumber⟩
  refine ⟨hsingle, ?_⟩
  rw [labelled, hinfo, hnumber]

theorem copies_unsent {κ α : Type} {next : κ → κ} (k : κ) (xs : List α) :
    Numbering.Copies next k xs [] := by
  induction xs with
  | nil => exact Numbering.Copies.nil k
  | cons x xs ih => exact Numbering.Copies.unsent ih

/-- What a run of calls leaves on the line, each LPDU fitting one I-frame: numbered
    copies of the APDUs. -/
theorem run_copies (wire : HdlcWireLaw L law) (llc : LlcLaw L) (refuses : HdlcRefusalLaw L)
    (limits : HdlcCodecLimits) (apdus : List ProfileByteView) {s : State L}
    (huse : s.options.hdlcUseSession = true) (hs : Orderly s) (hσ : L.Connected s.session)
    (hfits : AtEachCall (fun s op => ∀ apdu, op = .send apdu → Fits s apdu)
      (apdus.map .send) s) :
    ∃ events, (run (apdus.map .send) s).2.trace = s.trace ++ events ∧
      (∀ frame ∈ onLine L limits events, Single frame) ∧
      Numbering.Copies (· + 1) (law.vs s.session) (apdus.map (·.data))
        ((onLine L limits events).map (labelled law)) := by
  induction apdus generalizing s with
  | nil =>
      exact ⟨[], (List.append_nil _).symm, fun _ h => absurd h List.not_mem_nil,
        Numbering.Copies.nil _⟩
  | cons apdu apdus ih =>
      rcases hfits with ⟨hfit, hrest⟩
      -- What one call leaves there, and the number the next one takes.
      have hone : (exec (.send apdu) s).2.options = s.options ∧
          L.Connected (exec (.send apdu) s).2.session ∧ Orderly (exec (.send apdu) s).2 ∧
          ∃ events, (exec (.send apdu) s).2.trace = s.trace ++ events ∧
            (∀ frame ∈ onLine L limits events, Single frame) ∧
            ∀ {cs : List (Fin 8 × List UInt8)}, Numbering.Copies (· + 1)
                (law.vs (exec (.send apdu) s).2.session) (apdus.map (·.data)) cs →
              Numbering.Copies (· + 1) (law.vs s.session) ((apdu :: apdus).map (·.data))
                ((onLine L limits events).map (labelled law) ++ cs) := by
        have hsent := sendApdu_written law refuses huse hs hσ (hfit apdu rfl)
        rw [exec]
        rcases hsent with h |
          ⟨henc, ho, hσ', hs', events, htrace, ⟨hvs, hnone⟩ | ⟨hvs, bytes, hb, hw⟩⟩
        · rw [h]
          exact ⟨rfl, hσ, hs, [], (List.append_nil _).symm, fun _ h => absurd h List.not_mem_nil,
            fun h => Numbering.Copies.unsent h⟩
        · have hempty : onLine L limits events = [] := by rw [onLine, hnone]; rfl
          refine ⟨ho, hσ', hs', events, htrace, ?_, fun h => ?_⟩
          · rw [hempty]
            exact fun _ h => absurd h List.not_mem_nil
          · rw [hempty]
            rw [hvs] at h
            exact Numbering.Copies.unsent h
        · have hcopies : ∀ frame ∈ onLine L limits events, Single frame ∧
              labelled law frame = (law.vs s.session, apduOf L (lpduOf s apdu)) :=
            onLine_copies wire hb hw
          have hdata : apduOf L (lpduOf s apdu) = apdu.data := by rw [apduOf, llc.decode henc]
          refine ⟨ho, hσ', hs', events, htrace, fun f hf => (hcopies f hf).1, fun h => ?_⟩
          rw [hvs] at h
          refine Numbering.Copies.sent (fun c hc => ?_) h
          rcases List.mem_map.mp hc with ⟨frame, hframe, rfl⟩
          rw [(hcopies frame hframe).2, hdata]
      rcases hone with ⟨ho, hσ', hs', events, htrace, hsingle, hextend⟩
      cases hw : (exec (.send apdu) s).1.isWaiting with
      | true =>
          rw [List.map_cons, run_of_waiting hw]
          have hall := hextend (copies_unsent _ _)
          rw [List.append_nil] at hall
          exact ⟨events, htrace, hsingle, hall⟩
      | false =>
          rcases ih (ho ▸ huse) hs' hσ' (hrest hw) with ⟨events', htrace', hsingle', hcopies'⟩
          rw [List.map_cons, run_of_returned hw]
          refine ⟨events ++ events', ?_, ?_, ?_⟩
          · rw [htrace', htrace, List.append_assoc]
          · rw [onLine_append]
            exact List.forall_mem_append.mpr ⟨hsingle, hsingle'⟩
          · rw [onLine_append, List.map_append]
            exact hextend hcopies'

/-- At most once, and in order. A connected channel sends APDUs whose LPDUs each
    fit one I-frame, whatever becomes of the calls and whatever comes in but a command
    its session takes; a connected channel receives, and what comes in are some of the
    frames written, in order. The APDUs it hands over are some of those sent, in order,
    each at most once. -/
theorem received_in_order (wire : HdlcWireLaw L law) (collects : HdlcReassemblerLaw L)
    (llc : LlcLaw L) (refuses : HdlcRefusalLaw L) {limits : HdlcCodecLimits}
    {apdus : List ProfileByteView} {sender receiver : State L}
    (hsession : sender.options.hdlcUseSession = true) (hsender : L.Connected sender.session)
    (horderly : Orderly sender)
    (hfits : AtEachCall (fun s op => ∀ apdu, op = .send apdu → Fits s apdu)
      (apdus.map .send) sender)
    (hsession' : receiver.options.hdlcUseSession = true) (hreceiver : L.Connected receiver.session)
    (hcollected : collects.collected receiver.reassembler = [])
    (hpending : receiver.pendingApdus = [])
    (hline : (incoming receiver).Sublist
      (onLine L limits ((run (apdus.map .send) sender).2.trace.drop sender.trace.length)))
    (rs : List ReceiveCall) :
    ((run (rs.map .receive) receiver).1.filterMap Result.delivered).Sublist
      (apdus.map (·.data)) := by
  rcases run_copies wire llc refuses limits apdus hsession horderly hsender hfits with
    ⟨events, htrace, hsingle, hcopies⟩
  rw [htrace, List.drop_left] at hline
  have hlistens : Listens collects receiver := by
    refine ⟨hsession', hreceiver, fun f hf => ?_⟩
    rw [hcollected, List.nil_append] at hf
    exact (hsingle f (hline.subset hf)).1
  rcases run_heard law collects rs receiver hlistens with
    ⟨-, events', frames, htrace', hin, hheard⟩
  have hno : Operation.close ∉ rs.map .receive := by
    intro hc
    rcases List.mem_map.mp hc with ⟨r, -, hr⟩
    cases hr
  rcases run_delivers hno receiver with ⟨events'', htrace'', hqueue⟩
  obtain rfl := List.append_cancel_left (htrace''.symm.trans htrace')
  rw [hpending, List.nil_append] at hqueue
  -- The frames that came in are some of the copies on the line.
  have hcame : frames.Sublist (onLine L limits events) :=
    (hin ▸ List.sublist_append_left frames _ : frames.Sublist (incoming receiver)).trans hline
  rw [hcollected] at hheard
  have htakes := (takes_of_hears hheard fun f hf => hsingle f (hcame.subset hf)).of_sublist
    (hcame.map (labelled law))
  have hnext : ∀ k : Fin 8, k + 1 ≠ k := by decide
  refine List.Sublist.trans ?_ (Numbering.takes_sublist hnext hcopies htakes)
  rw [← hqueue]
  exact List.sublist_append_left _ _

/-- The reply to the first APDU is late, so that its I-frame is written twice, and
    both copies arrive. -/
theorem received_in_order_late :
    let receiver := (run [.acceptDataLink] (Reference.hdlcChannel Reference.serverOptions
      [Reference.arrived (Reference.toServer Reference.snrm []),
        Reference.arrived (Reference.toServer 0x10 [0xE6, 0xE6, 0x00, 0xC0] ++
          Reference.toServer 0x10 [0xE6, 0xE6, 0x00, 0xC0]),
        Reference.arrived (Reference.toServer 0x12 [0xE6, 0xE6, 0x00, 0xC1])])).2
    let rs : List ReceiveCall := [.vector, .vector, .vector]
    ((run (rs.map .receive) receiver).1.filterMap Result.delivered).Sublist [[0xC0], [0xC1]] :=
  let sender := (run [.connectDataLink] (Reference.hdlcChannel
    { Reference.sessionOptions with hdlcRetryCount := 1 }
    [Reference.arrived (Reference.toClient Reference.ua []), ⟨.timeout, []⟩,
      Reference.arrived (Reference.receiveReady 1),
      Reference.arrived (Reference.receiveReady 2)])).2
  let apdus : List ProfileByteView := [.of [0xC0], .of [0xC1]]
  have hfits : AtEachCall (fun s op => ∀ apdu, op = .send apdu → Fits s apdu)
      (apdus.map .send) sender := by
    refine ⟨fun apdu h => ?_, fun _ => ⟨fun apdu h => ?_, fun _ => trivial⟩⟩
    · obtain rfl := Operation.send.inj h
      decide +kernel
    · obtain rfl := Operation.send.inj h
      decide +kernel
  received_in_order Reference.wireLaw Reference.reassemblerLaw Reference.llcLaw
    Reference.refusalLaw (by decide +kernel) (by decide +kernel)
    (orderly_of_law Reference.unnumberedLaw sender) hfits (by decide +kernel) (by decide +kernel)
    (by decide +kernel) (by decide +kernel)
    (by decide +kernel : List.Sublist _ (onLine Reference.hdlcLib
      Reference.hdlcLib.defaultCodecLimits
        ((run (apdus.map .send) sender).2.trace.drop sender.trace.length))) _

end Hdlc

end DlmsProfile
