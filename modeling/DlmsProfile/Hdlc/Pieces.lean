import DlmsProfile.Causality
import DlmsProfile.Cutting
import DlmsProfile.Hdlc.Handshake
import DlmsProfile.Hdlc.Sending

/-!
# Replies in Pieces

A reply that comes in several reads is the same reply as one that comes whole,
and an exchange that waits for it should go the same way. It does, as long as the
decoder answers a read that completes nothing with `NeedMoreData`, for then
`ReceiveDecodedFrame` reads on. A decoder may also answer such a read with `Ok` and
no frame. Then `ReceiveDecodedFrame` returns `NeedMoreData` of its own accord, and
the retry loop takes that for a reply that has not come: it writes the frame again,
or fails if it has no attempt left.

The proof runs an exchange over the pieces and over the whole replies side by side.
The two agree in everything but the decoder, the reads and the reads recorded, until
the first run goes astray, and a run that has gone astray has failed or has written
a frame more often than once.

## Main definitions

* `Hdlc.AsksForMore`: No read is answered with `Ok` and no frame.
* `Hdlc.Brings`: The reads bring one frame.
* `Hdlc.Twin`, `Hdlc.Astray`: The two runs side by side, and where they part.
* `Hdlc.Unaffected`: The exchange does not notice the pieces.

## Theorems

* `Hdlc.loop_brings`: What the reads of one frame come to.
* `Hdlc.retryLoop_twin`: What the wait for a reply comes to.
* `Hdlc.unaffected_iff`: When an exchange does not notice the pieces.
-/

namespace DlmsProfile

namespace Hdlc

variable {L : HdlcLib}

/-- The decoder behind some reads. -/
def fed (L : HdlcLib) (d : L.Decoder) (cs : List (List UInt8)) : L.Decoder :=
  cs.foldl (fun d c => (L.push d c).2.2) d

/-- No read is answered with `Ok` and no frame. -/
def AsksForMore (L : HdlcLib) : L.Decoder → List (List UInt8) → Prop
  | _, [] => True
  | d, c :: cs =>
    (mapHdlcStatus (L.push d c).1 = .ok → (L.push d c).2.1 ≠ []) ∧
      AsksForMore L (L.push d c).2.2 cs

instance decidableAsksForMore :
    ∀ (d : L.Decoder) (cs : List (List UInt8)), Decidable (AsksForMore L d cs)
  | _, [] => inferInstanceAs (Decidable True)
  | d, c :: cs =>
    have := decidableAsksForMore (L.push d c).2.2 cs
    inferInstanceAs (Decidable (_ ∧ _))

theorem fed_append (d : L.Decoder) (a b : List (List UInt8)) :
    fed L d (a ++ b) = fed L (fed L d a) b := List.foldl_append

theorem asksForMore_append {d : L.Decoder} {a b : List (List UInt8)} :
    AsksForMore L d (a ++ b) ↔ AsksForMore L d a ∧ AsksForMore L (fed L d a) b := by
  induction a generalizing d with
  | nil => simp only [List.nil_append, AsksForMore, true_and, fed, List.foldl_nil]
  | cons c cs ih =>
      rw [List.cons_append, AsksForMore, AsksForMore, ih, and_assoc]
      rfl

/-- The reads bring one frame, and nothing but it. -/
structure Brings (F : Framing.Framer UInt8 L.Frame HdlcStatus) (g : List (List UInt8)) : Prop where
  frame : ∃ frame, F.Encodes g.flatten frame
  pieces : ∀ c ∈ g, c ≠ []

theorem Brings.ne_nil {F : Framing.Framer UInt8 L.Frame HdlcStatus} {g : List (List UInt8)}
    (h : Brings F g) : g.flatten ≠ [] := by
  rcases h.frame with ⟨frame, hframe⟩
  intro hnil
  rw [Framing.Framer.Encodes, hnil, F.front_nil] at hframe
  cases hframe

/-- The state once the reads have been taken. -/
def tookReads (cs : List (List UInt8)) (rest : List ReadEvent) (s : State L) : State L :=
  { s with
    decoder := fed L s.decoder cs
    reads := rest
    trace := s.trace ++ (arrivals cs).map fun e => .transport (.read e) }

section Loop

variable {limits : HdlcCodecLimits} {law : HdlcStreamLaw L limits}

/-- The last bytes of a frame complete it. -/
theorem push_brings {d : L.Decoder} {c : List UInt8} {frame : L.Frame} (hlive : law.live d)
    (hframe : law.framer.Encodes (law.view d ++ c) frame) :
    mapHdlcStatus (L.push d c).1 = .ok ∧ (L.push d c).2.1 = [frame] ∧
      law.live (L.push d c).2.2 ∧ law.view (L.push d c).2.2 = [] := by
  rcases law.follows.push_rest hlive (Framing.Framer.scan_encodes hframe) with
    ⟨hframes, hview, hok | ⟨-, hnil⟩⟩
  · exact ⟨hok, hframes, law.follows.push_live c hlive, hview⟩
  · cases hnil

/-- What the reads of one frame come to: the frame, unless one of them is answered
    with `Ok` and no frame. -/
theorem loop_brings {s : State L} {g : List (List UInt8)} {frame : L.Frame}
    (rest : List ReadEvent) (hlive : law.live s.decoder)
    (hframe : law.framer.Encodes (law.view s.decoder ++ g.flatten) frame) (hne : g ≠ [])
    (hpieces : ∀ c ∈ g, c ≠ []) :
    (AsksForMore L s.decoder g ∧ law.live (fed L s.decoder g) ∧ law.view (fed L s.decoder g) = [] ∧
        receiveDecodedFrameLoop (arrivals g ++ rest) s = (.done frame, tookReads g rest s)) ∨
      (¬ AsksForMore L s.decoder g ∧
        (receiveDecodedFrameLoop (arrivals g ++ rest) s).1 = .fail .needMoreData) := by
  induction g generalizing s with
  | nil => exact absurd rfl hne
  | cons c cs ih =>
      have hc : c ≠ [] := hpieces c List.mem_cons_self
      have hloop : arrivals (c :: cs) ++ rest = ⟨.ok, c⟩ :: (arrivals cs ++ rest) := rfl
      rw [List.flatten_cons, ← List.append_assoc] at hframe
      by_cases hcs : cs = []
      · -- The last piece completes the frame.
        subst hcs
        rw [List.flatten_nil, List.append_nil] at hframe
        rcases push_brings hlive hframe with ⟨hok, hframes, hlive', hview⟩
        refine Or.inl ⟨⟨fun _ => ?_, trivial⟩, hlive', hview, ?_⟩
        · rw [hframes]
          exact List.cons_ne_nil _ _
        · rw [hloop, loop_completed rfl hc hok hframes, List.append_nil]
          rfl
      · -- Any other piece completes nothing, and what is kept of it stands for it.
        have hrest : cs.flatten ≠ [] := by
          rcases cs with _ | ⟨c', cs⟩
          · exact absurd rfl hcs
          · have hc' := hpieces c' (List.mem_cons_of_mem _ List.mem_cons_self)
            simp [hc']
        rcases Framing.Framer.encodes_part hframe hrest with ⟨k, hscan, hwhole⟩
        rcases law.follows.push_rest hlive hscan with ⟨hframes, hview, hstatus⟩
        by_cases hok : mapHdlcStatus (L.push s.decoder c).1 = .ok
        · refine Or.inr ⟨fun hasks => hasks.1 hok hframes, ?_⟩
          rw [hloop, loop_noFrame rfl hc hok hframes]
        · have hmore : mapHdlcStatus (L.push s.decoder c).1 = .needMoreData := by
            rcases hstatus with hst | ⟨hst, -⟩
            · exact absurd hst hok
            · exact hst
          have hnext := ih (s := { afterRead ⟨.ok, c⟩ (arrivals cs ++ rest) s with
            decoder := (L.push s.decoder c).2.2 }) (law.follows.push_live c hlive)
            (hview ▸ hwhole) hcs fun x hx => hpieces x (List.mem_cons_of_mem _ hx)
          rw [hloop, loop_continued rfl hc hmore]
          rcases hnext with ⟨hasks, hfedlive, hfed, hrun⟩ | ⟨hasks, hrun⟩
          · refine Or.inl ⟨⟨fun h => absurd h hok, hasks⟩, hfedlive, hfed, ?_⟩
            rw [hrun]
            simp only [tookReads, afterRead, arrivals, List.map_cons, List.append_assoc,
              List.singleton_append]
            rfl
          · exact Or.inr ⟨fun h => hasks h.2, hrun⟩

end Loop

/-- An exchange: the decoder it finds, the reads that bring its replies, the trace
    behind it, and the command it has been asked to send, if any. -/
structure Exchange (L : HdlcLib) where
  decoder : L.Decoder
  replies : List (List (List UInt8))
  past : List (Event L)
  request : List (List UInt8)

/-- The same channel with another decoder, other reads and another past. -/
def elsewhere (d : L.Decoder) (reads : List ReadEvent) (t : List (Event L)) (s : State L) :
    State L :=
  { s with decoder := d, reads := reads, trace := t }

/-- Two runs of an exchange, the first over replies in pieces, the second over whole
    ones. They differ in the decoder, the reads and the reads recorded, and the
    first has written each of its frames once. -/
structure Twin {limits : HdlcCodecLimits} (law : HdlcStreamLaw L limits) (x : Exchange L)
    (s t : State L) : Prop where
  same : s = elsewhere s.decoder s.reads s.trace t
  live : law.live s.decoder ∧ law.live t.decoder
  kept : law.view s.decoder = [] ∧ law.view t.decoder = []
  script : ∃ used rest, x.replies = used ++ rest ∧ AsksForMore L x.decoder used.flatten ∧
    s.decoder = fed L x.decoder used.flatten ∧ s.reads = arrivals rest.flatten ∧
    t.reads = arrivals (rest.map List.flatten)
  once : ∃ events, s.trace = x.past ++ events ∧
    (written events).map (·.1) = x.request ++ emittedBytes events

/-- A run that met `Ok` and no frame has failed, or written more often than it has
    frames. -/
structure Astray (x : Exchange L) (error : Option ProfileStatus) (s : State L) : Prop where
  unasked : ¬ AsksForMore L x.decoder x.replies.flatten
  writes : ∃ events, s.trace = x.past ++ events ∧
    (x.request ++ emittedBytes events).length ≤ (written events).length ∧
    (error = none → (x.request ++ emittedBytes events).length < (written events).length)

/-- A call that looks neither at the decoder nor at the reads nor at the trace, and
    writes what it emits. -/
def Blind {α : Type} (y : Call L α) : Prop :=
  ∀ s, ∃ events, (written events).map (·.1) = emittedBytes events ∧
    ∀ d reads t, y (elsewhere d reads t s) = ((y s).1, elsewhere d reads (t ++ events) (y s).2)

section Blind

variable {α β : Type}

theorem blind_of_silent {y : Call L α}
    (h : ∀ s d reads t, y (elsewhere d reads t s) = ((y s).1, elsewhere d reads t (y s).2)) :
    Blind y := by
  intro s
  refine ⟨[], rfl, fun d reads t => ?_⟩
  rw [List.append_nil]
  exact h s d reads t

theorem blind_bind {y : Call L α} {k : α → Call L β} (hy : Blind y) (hk : ∀ a, Blind (k a)) :
    Blind (y >>= k) := by
  intro s
  rcases hy s with ⟨ev, hev, hy⟩
  -- The first call looks at neither reads nor decoder, so it stops or goes on in both.
  rcases hys : y s with ⟨a | e | _, s1⟩ <;> simp only [hys] at hy
  · rcases hk a s1 with ⟨ev', hev', hk⟩
    refine ⟨ev ++ ev', ?_, fun d reads t => ?_⟩
    · rw [written_append, emittedBytes_append, List.map_append, hev, hev']
    · rw [Proc.bind_of_done k hys, Proc.bind_of_done k (hy d reads t), hk, List.append_assoc]
  · refine ⟨ev, hev, fun d reads t => ?_⟩
    rw [Proc.bind_of_fail k hys, Proc.bind_of_fail k (hy d reads t)]
  · refine ⟨ev, hev, fun d reads t => ?_⟩
    rw [Proc.bind_of_waiting k hys, Proc.bind_of_waiting k (hy d reads t)]

theorem check_elsewhere (status : ProfileStatus) (d : L.Decoder) (reads : List ReadEvent)
    (t : List (Event L)) (s : State L) :
    check status (elsewhere d reads t s) =
      ((check status s).1, elsewhere d reads t (check status s).2) := by
  by_cases h : status = .ok
  · rw [h, check_ok, check_ok]
  · rw [check_of_ne h, check_of_ne h]

theorem blind_checked (result : HdlcStatus × α) : Blind (checked (L := L) result) := by
  refine blind_of_silent fun s d reads t => ?_
  simp only [checked]
  split <;> rfl

theorem blind_sessionBuild (build : L.Session → HdlcStatus × List UInt8 × L.Session) :
    Blind (sessionBuild build) := by
  refine blind_of_silent fun s d reads t => ?_
  by_cases h : mapHdlcStatus (build s.session).1 = .ok
  · simp only [sessionBuild, checked, elsewhere, h, if_true]
  · simp only [sessionBuild, checked, elsewhere, h, if_false]

theorem blind_sessionReceive (frame : L.Frame) : Blind (sessionReceive frame) := by
  intro s
  refine ⟨[.receive s.session frame (L.receiveFrame s.session frame).1], rfl, fun d reads t => ?_⟩
  exact check_elsewhere _ d reads _ (judged frame s)

/-- An I-frame is recorded and written. -/
theorem blind_emit (before : L.Session) (bytes : List UInt8) :
    Blind (log (.emit before bytes) >>= fun _ => writeFrameBytes bytes) := by
  intro s
  refine ⟨[.emit before bytes] ++ [.transport (.write bytes (s.writes.headD .ok))], rfl,
    fun d reads t => ?_⟩
  rw [← List.append_assoc]
  exact check_elsewhere (mapTransportStatus (s.writes.headD .ok)) d reads
    (t ++ [.emit before bytes] ++ [.transport (.write bytes (s.writes.headD .ok))])
    { s with
      writes := s.writes.tail
      trace := s.trace ++ [.emit before bytes] ++
        [.transport (.write bytes (s.writes.headD .ok))] }

theorem blind_build (information : List UInt8) (segmented pollFinal : Bool) :
    Blind (buildSessionInformationFrame (L := L) information segmented pollFinal) := by
  refine blind_bind (blind_sessionBuild _) fun bytes => ?_
  split
  · refine blind_bind (blind_of_silent fun s d reads t => rfl) fun limits => ?_
    exact blind_bind (blind_checked _) fun decoded => blind_checked _
  · exact blind_of_silent fun s d reads t => rfl

end Blind

section Twin

variable {limits : HdlcCodecLimits} {law : HdlcStreamLaw L limits} {x : Exchange L}

/-- Blind calls keep the two runs together. -/
theorem agree_of_blind {α : Type} {y : Call L α} (hy : Blind y) :
    Proc.Agree (Twin law x) y y := by
  intro s t h
  rcases hy t with ⟨events, hevents, hrun⟩
  have hsame : (y t).2 = elsewhere t.decoder t.reads (t.trace ++ events) (y t).2 :=
    congrArg Prod.snd (hrun t.decoder t.reads t.trace)
  have hdecoder : (y t).2.decoder = t.decoder := (congrArg (fun u : State L => u.decoder) hsame :)
  have hreads : (y t).2.reads = t.reads := (congrArg (fun u : State L => u.reads) hsame :)
  -- The two states differ in decoder, reads and trace only, which the call does not look at.
  have hs : y s = ((y t).1, elsewhere s.decoder s.reads (s.trace ++ events) (y t).2) := by
    have hone := hrun s.decoder s.reads s.trace
    rwa [← h.same] at hone
  rw [hs]
  rcases h.script with ⟨used, rest, hreplies, hasks, hfed, hpieces, hwhole⟩
  rcases h.once with ⟨past, htrace, honce⟩
  -- It read nothing, so the script still stands as it did.
  refine ⟨rfl, rfl, ?_, ?_, ⟨used, rest, hreplies, hasks, hfed, hpieces, hreads.trans hwhole⟩,
    past ++ events, ?_, ?_⟩
  · exact ⟨h.live.1, hdecoder ▸ h.live.2⟩
  · exact ⟨h.kept.1, hdecoder ▸ h.kept.2⟩
  · rw [← List.append_assoc, ← htrace]
    rfl
  · rw [written_append, emittedBytes_append, List.map_append, honce, hevents, List.append_assoc]

/-- The attempt that met `Ok` and no frame. -/
structure Slips (x : Exchange L) (error : Option ProfileStatus) (s : State L) : Prop where
  error : error = some .needMoreData
  unasked : ¬ AsksForMore L x.decoder x.replies.flatten
  once : ∃ events, s.trace = x.past ++ events ∧
    (written events).map (·.1) = x.request ++ emittedBytes events

/-- A whole reply is one read, and its frame the next. -/
theorem loop_whole {t : State L} {g : List (List UInt8)} (rest : List ReadEvent)
    (hlive : law.live t.decoder) (hkept : law.view t.decoder = []) (hg : Brings law.framer g) :
    ∃ frame, law.framer.Encodes g.flatten frame ∧
      law.live (fed L t.decoder [g.flatten]) ∧ law.view (fed L t.decoder [g.flatten]) = [] ∧
      receiveDecodedFrameLoop (⟨.ok, g.flatten⟩ :: rest) t =
        (.done frame, tookReads [g.flatten] rest t) := by
  rcases hg.frame with ⟨frame, hframe⟩
  -- The decoder holds nothing, so the bytes of the reply encode the frame on their own.
  have hwhole : law.framer.Encodes (law.view t.decoder ++ g.flatten) frame := by
    rw [hkept]
    exact hframe
  rcases push_brings hlive hwhole with ⟨hok, hframes, hlive', hkept'⟩
  refine ⟨frame, hframe, hlive', hkept', ?_⟩
  refine (loop_completed rfl hg.ne_nil hok hframes).trans ?_
  rw [List.append_nil]
  rfl

/-- The next frame is the same frame. -/
theorem receiveDecodedFrame_twin (hreplies : ∀ g ∈ x.replies, Brings law.framer g) :
    Proc.AgreeUnless (Twin law x) (Slips x) (receiveDecodedFrame (L := L)) receiveDecodedFrame := by
  intro s t h
  rcases h.script with ⟨used, rest, hall, hasks, hfed, hpieces, hwhole⟩
  rcases h.once with ⟨past, htrace, honce⟩
  have hpending : s.pendingHdlcFrames = t.pendingHdlcFrames :=
    (congrArg (fun u : State L => u.pendingHdlcFrames) h.same :)
  have hbuffer : s.readBufferSize = t.readBufferSize :=
    (congrArg (fun u : State L => u.readBufferSize) h.same :)
  rcases hp : t.pendingHdlcFrames with _ | ⟨frame, frames⟩
  swap
  · rw [receiveDecodedFrame_of_pending hp, receiveDecodedFrame_of_pending (hpending.trans hp)]
    refine Or.inl ⟨rfl, ?_, h.live, h.kept, h.script, h.once⟩
    exact congrArg (fun u : State L => { u with pendingHdlcFrames := frames }) h.same
  by_cases hb : t.readBufferSize = 0
  · rw [receiveDecodedFrame_of_noBuffer hp hb,
      receiveDecodedFrame_of_noBuffer (hpending.trans hp) (hbuffer.trans hb)]
    exact Or.inl ⟨rfl, h⟩
  have hrun : receiveDecodedFrame s = receiveDecodedFrameLoop s.reads s :=
    receiveDecodedFrame_of_empty (hpending.trans hp) (hbuffer.trans_ne hb)
  rw [receiveDecodedFrame_of_empty hp hb]
  rcases rest with _ | ⟨g, rest⟩
  · -- No reply is left, and both runs wait.
    rw [hrun, hpieces, hwhole]
    refine Or.inl ⟨rfl, ?_, h.live, h.kept, ⟨used, [], hall, hasks, hfed, rfl, rfl⟩, h.once⟩
    exact congrArg (fun u : State L => { u with reads := [] }) h.same
  have hg : Brings law.framer g := hreplies g (by rw [hall]; simp)
  have hgne : g ≠ [] := by
    rintro rfl
    exact hg.ne_nil rfl
  rcases loop_whole (arrivals (rest.map List.flatten)) h.live.2 h.kept.2 hg with
    ⟨frame, hframe, hlive, hkept, ht⟩
  have hreads : s.reads = arrivals g ++ arrivals rest.flatten := by
    rw [hpieces, List.flatten_cons, arrivals, List.map_append]
    rfl
  have hpiecesFrame : law.framer.Encodes (law.view s.decoder ++ g.flatten) frame := by
    rw [h.kept.1]
    exact hframe
  rw [hwhole, List.map_cons, arrivals, List.map_cons, ← arrivals, ht]
  rcases loop_brings (arrivals rest.flatten) h.live.1 hpiecesFrame hgne hg.pieces with
    ⟨hasksg, hlive', hkept', hloop⟩ | ⟨hunasked, hloop⟩
  · rw [hrun, hreads, hloop]
    refine Or.inl ⟨rfl, ?_, ⟨hlive', hlive⟩, ⟨hkept', hkept⟩, ⟨used ++ [g], rest, ?_, ?_, ?_, rfl,
      rfl⟩, past ++ (arrivals g).map fun e => .transport (.read e), ?_, ?_⟩
    · rw [h.same]
      rfl
    · rw [hall, List.append_assoc, List.singleton_append]
    · rw [List.flatten_append, List.flatten_singleton, asksForMore_append, ← hfed]
      exact ⟨hasks, hasksg⟩
    · rw [List.flatten_append, List.flatten_singleton, fed_append, ← hfed]
      rfl
    · rw [← List.append_assoc, ← htrace]
      rfl
    · rw [written_append, emittedBytes_append, written_reads, emittedBytes_reads, List.append_nil,
        List.append_nil, honce]
  · refine Or.inr ⟨?_, fun hc => hunasked ?_, ?_⟩
    · rw [hrun, hreads, hloop]
      rfl
    · rw [hall, List.flatten_append, asksForMore_append, ← hfed, List.flatten_cons,
        asksForMore_append] at hc
      exact hc.2.1
    · rcases receiveDecodedFrame_readsOnly s with ⟨taken, -, htrace'⟩
      refine ⟨past ++ taken.map fun e => .transport (.read e), ?_, ?_⟩
      · rw [htrace', htrace, List.append_assoc]
      · rw [written_append, emittedBytes_append, written_reads, emittedBytes_reads,
          List.append_nil, List.append_nil, honce]

/-- Over whole replies there is always a frame, or nothing more to read. -/
theorem receiveDecodedFrame_whole {s t : State L} {status : ProfileStatus}
    (hreplies : ∀ g ∈ x.replies, Brings law.framer g) (h : Twin law x s t)
    (hfail : (receiveDecodedFrame t).1 = .fail status) : status = .invalidArgument := by
  -- With whole replies each read completes a frame, so only an empty buffer can fail.
  rcases h.script with ⟨used, rest, hall, -, -, -, hwhole⟩
  rcases hp : t.pendingHdlcFrames with _ | ⟨frame, frames⟩
  swap
  · rw [receiveDecodedFrame_of_pending hp] at hfail
    cases hfail
  by_cases hb : t.readBufferSize = 0
  · rw [receiveDecodedFrame_of_noBuffer hp hb] at hfail
    exact (Outcome.fail.inj hfail).symm
  rw [receiveDecodedFrame_of_empty hp hb, hwhole] at hfail
  -- Without a reply left the call waits, and that is no failure.
  rcases rest with _ | ⟨g, rest⟩
  · cases hfail
  · have hg : Brings law.framer g := hreplies g (by rw [hall]; simp)
    rcases loop_whole (arrivals (rest.map List.flatten)) h.live.2 h.kept.2 hg with
      ⟨frame, -, -, -, ht⟩
    rw [List.map_cons, arrivals, List.map_cons, ← arrivals, ht] at hfail
    cases hfail

/-- An attempt takes the same frame and comes to the same verdict. -/
theorem control_twin (hreplies : ∀ g ∈ x.replies, Brings law.framer g) :
    Proc.AgreeUnless (Twin law x) (Slips x) (receiveSessionControlFrame (L := L))
      receiveSessionControlFrame :=
  Proc.agreeUnless_bind (receiveDecodedFrame_twin hreplies)
    (fun frame => Proc.agreeUnless_of_agree (agree_of_blind (blind_sessionReceive frame)))
    (fun _ _ h => h) fun _ h => by cases h.error

/-- Over whole replies no attempt fails in a way worth another. -/
theorem control_whole (verdicts : HdlcVerdictLaw L) {s t : State L} {status : ProfileStatus}
    (hreplies : ∀ g ∈ x.replies, Brings law.framer g) (h : Twin law x s t)
    (hfail : (receiveSessionControlFrame t).1 = .fail status) :
    isRetriableReceiveStatus status = false := by
  rcases hr : receiveDecodedFrame t with ⟨frame | e | _, t1⟩
  · rw [receiveSessionControlFrame, Proc.bind_of_done _ hr, sessionReceive_eq] at hfail
    -- The session judged a whole frame, and no verdict on one is retriable.
    by_cases hok : mapHdlcStatus (L.receiveFrame t1.session frame).1 = .ok
    · rw [hok] at hfail
      cases hfail
    · rw [check_of_ne hok] at hfail
      rw [← Outcome.fail.inj hfail]
      exact retriable_mapHdlcStatus (verdicts.whole _ _)
  · rw [receiveSessionControlFrame, Proc.bind_of_fail _ hr] at hfail
    have hcode := receiveDecodedFrame_whole hreplies h (congrArg Prod.fst hr)
    rw [← Outcome.fail.inj hfail, hcode]
    rfl
  · rw [receiveSessionControlFrame, Proc.bind_of_waiting _ hr] at hfail
    cases hfail

theorem Slips.astray {error : Option ProfileStatus} {s : State L} (h : Slips x error s) :
    Astray x error s := by
  rcases h.once with ⟨events, htrace, honce⟩
  refine ⟨h.unasked, events, htrace, ?_, fun hnone => ?_⟩
  · rw [← honce, List.length_map]
  · rw [h.error] at hnone
    cases hnone

/-- As much was written as was emitted. -/
def WritesEmitted (s s' : State L) : Prop :=
  ∃ events, s'.trace = s.trace ++ events ∧
    (emittedBytes events).length ≤ (written events).length

theorem writesEmitted_of_nothing {s s' : State L} (h : EmitsNothing s s') : WritesEmitted s s' := by
  rcases h with ⟨events, htrace, hnone⟩
  refine ⟨events, htrace, ?_⟩
  rw [hnone]
  exact Nat.zero_le _

theorem writesEmitted_trans (a b c : State L) (h : WritesEmitted a b) (h' : WritesEmitted b c) :
    WritesEmitted a c := by
  rcases h with ⟨ev, ht, he⟩
  rcases h' with ⟨ev', ht', he'⟩
  refine ⟨ev ++ ev', by rw [ht', ht, List.append_assoc], ?_⟩
  rw [written_append, emittedBytes_append, List.length_append, List.length_append]
  omega

/-- What is surplus stays surplus. -/
theorem Astray.more {error : Option ProfileStatus} {s s' : State L} (h : Astray x none s)
    (hw : WritesEmitted s s') : Astray x error s' := by
  rcases h.writes with ⟨events, htrace, -, hmore⟩
  rcases hw with ⟨events', htrace', hle⟩
  have hlt := hmore rfl
  refine ⟨h.unasked, events ++ events', by rw [htrace', htrace, List.append_assoc], ?_, fun _ => ?_⟩
  all_goals
    simp only [written_append, emittedBytes_append, List.length_append] at hlt ⊢
    omega

theorem sleep_ne_waiting (s : State L) : (sleepBeforeRetry s).1 ≠ .waiting := by
  rw [sleepBeforeRetry]
  split
  · exact fun h => by cases h
  · exact fun h => check_ne_waiting (Prod.ext h rfl)

/-- Once an attempt is made again the frame is written again, or the sleep before it
    failed. -/
theorem astray_of_again {s : State L} (bytes : List UInt8) (left : Nat)
    (h : Slips x (some .needMoreData) s) :
    let again := (sleepBeforeRetry >>= fun _ => writeFrameBytes bytes >>= fun _ =>
      retryLoop bytes left) s
    Astray x again.1.error again.2 := by
  rcases h.once with ⟨events, htrace, honce⟩
  have hlength := congrArg List.length honce
  rw [List.length_map] at hlength
  have hsleep := emitsNothing_primitives.sleepBeforeRetry s
  rcases hs : sleepBeforeRetry s with ⟨⟨⟩ | status | _, s1⟩ <;> rw [hs] at hsleep
  · -- The frame is written, whatever becomes of it.
    rcases hsleep with ⟨ev1, htrace1, hev1⟩
    have hwrite : (writeFrameBytes bytes s1).2.trace =
        s1.trace ++ [.transport (.write bytes (s1.writes.headD .ok))] := by
      rw [writeFrameBytes_snd]
    have hrest : EmitsNothing (writeFrameBytes bytes s1).2
        ((writeFrameBytes bytes >>= fun _ => retryLoop bytes left) s1).2 := by
      rcases hw : writeFrameBytes bytes s1 with ⟨⟨⟩ | status | _, s2⟩
      · rw [Proc.bind_of_done _ hw]
        exact emitsNothing_primitives.within_retryLoop bytes left s2
      · rw [Proc.bind_of_fail _ hw]
        exact emitsNothing_primitives.refl s2
      · rw [Proc.bind_of_waiting _ hw]
        exact emitsNothing_primitives.refl s2
    rcases hrest with ⟨ev2, htrace2, hev2⟩
    rw [Proc.bind_of_done _ hs]
    refine ⟨h.unasked, events ++ ev1 ++ [.transport (.write bytes (s1.writes.headD .ok))] ++ ev2,
      ?_, ?_, fun _ => ?_⟩
    · rw [htrace2, hwrite, htrace1, htrace]
      simp only [List.append_assoc]
    all_goals
      have hone : written [(.transport (.write bytes (s1.writes.headD .ok)) : Event L)] =
        [(bytes, s1.writes.headD .ok)] := rfl
      have hnone : emittedBytes [(.transport (.write bytes (s1.writes.headD .ok)) : Event L)] =
        [] := rfl
      simp only [written_append, emittedBytes_append, List.length_append, hone, hnone, hev1, hev2,
        List.length_singleton, List.length_nil] at hlength ⊢
      omega
  · rcases hsleep with ⟨ev1, htrace1, hev1⟩
    rw [Proc.bind_of_fail _ hs]
    refine ⟨h.unasked, events ++ ev1, by rw [htrace1, htrace, List.append_assoc], ?_,
      fun hc => by cases hc⟩
    simp only [written_append, emittedBytes_append, List.length_append, hev1,
      List.length_nil] at hlength ⊢
    omega
  · exact absurd (congrArg Prod.fst hs) (sleep_ne_waiting s)

/-- The wait for a reply: the same, or the frame is written again. -/
theorem retryLoop_twin (verdicts : HdlcVerdictLaw L)
    (hreplies : ∀ g ∈ x.replies, Brings law.framer g) (bytes : List UInt8) (left : Nat) :
    Proc.AgreeUnless (Twin law x) (Astray x) (retryLoop (L := L) bytes left)
      (retryLoop bytes left) := by
  intro s t h
  rcases hs : receiveSessionControlFrame s with ⟨o, s1⟩
  rcases ht : receiveSessionControlFrame t with ⟨p, t1⟩
  have hone := control_twin hreplies s t h
  rw [hs, ht] at hone
  -- Either both waits end alike, or the one in pieces failed on a partial frame.
  rcases hone with ⟨hout, htwin⟩ | hslip
  · simp only at hout htwin
    subst hout
    cases o with
    | done u =>
        rw [retryLoop_of_done hs, retryLoop_of_done ht]
        exact Or.inl ⟨rfl, htwin⟩
    | fail e =>
        -- A failure in both came from a whole frame, so neither loop retries.
        have hlast := control_whole verdicts hreplies h (congrArg Prod.fst ht)
        rw [retryLoop_of_fail hs (Or.inl hlast), retryLoop_of_fail ht (Or.inl hlast)]
        exact Or.inl ⟨rfl, htwin⟩
    | waiting =>
        rw [retryLoop_of_waiting hs, retryLoop_of_waiting ht]
        exact Or.inl ⟨rfl, htwin⟩
  · refine Or.inr ?_
    -- NeedMoreData in pieces only: it is retried, or it ends the call with that status.
    have herror := hslip.error
    cases o with
    | done u => cases herror
    | waiting => cases herror
    | fail e =>
        obtain rfl : e = .needMoreData := Option.some.inj herror
        cases left with
        | zero =>
            rw [retryLoop_of_fail hs (Or.inr rfl)]
            exact hslip.astray
        | succ left =>
            rw [retryLoop_of_retry hs rfl]
            exact astray_of_again bytes left hslip

theorem controlWithRetry_twin (verdicts : HdlcVerdictLaw L)
    (hreplies : ∀ g ∈ x.replies, Brings law.framer g) (bytes : List UInt8) :
    Proc.AgreeUnless (Twin law x) (Astray x)
      (receiveSessionControlFrameWithRetry (L := L) bytes)
      (receiveSessionControlFrameWithRetry bytes) := by
  intro s t h
  have hoptions : s.options = t.options :=
    (congrArg (fun u : State L => u.options) h.same :)
  rw [receiveSessionControlFrameWithRetry, receiveSessionControlFrameWithRetry, hoptions]
  exact retryLoop_twin verdicts hreplies bytes _ s t h

theorem awaitWindow_twin (hreplies : ∀ g ∈ x.replies, Brings law.framer g) :
    Proc.AgreeUnless (Twin law x) (Slips x) (awaitWindow (L := L)) awaitWindow := by
  intro s t h
  have hsession : s.session = t.session := (congrArg (fun u : State L => u.session) h.same :)
  by_cases hroom : L.canSendInformationFrame t.session = true
  · rw [awaitWindow, awaitWindow, hsession, if_pos hroom, if_pos hroom]
    exact Or.inl ⟨rfl, h⟩
  · rw [awaitWindow, awaitWindow, hsession, if_neg hroom, if_neg hroom]
    exact control_twin hreplies s t h

/-- One turn of the sending loop. -/
theorem sendChunk_twin (verdicts : HdlcVerdictLaw L)
    (hreplies : ∀ g ∈ x.replies, Brings law.framer g) (chunk : List UInt8) (finalFrame : Bool) :
    Proc.AgreeUnless (Twin law x) (Astray x) (sendChunk (L := L) chunk finalFrame)
      (sendChunk chunk finalFrame) := by
  have hgets : Blind (Proc.gets (·.session) : Call L L.Session) :=
    blind_of_silent fun s d reads t => rfl
  refine Proc.agreeUnless_bind (awaitWindow_twin hreplies) (fun _ => ?_)
    (fun _ _ h => h.astray) fun _ h => by cases h.error
  refine Proc.agreeUnless_bind_of_agree (agree_of_blind hgets) fun before => ?_
  refine Proc.agreeUnless_bind_of_agree (agree_of_blind (blind_build _ _ _)) fun bytes => ?_
  -- The emission and its write read nothing, so the two runs take them in step.
  rw [← Proc.bind_assoc]
  exact Proc.agreeUnless_bind_of_agree (agree_of_blind (blind_emit before bytes)) fun _ =>
    controlWithRetry_twin verdicts hreplies bytes

theorem sendChunk_writesEmitted (chunk : List UInt8) (finalFrame : Bool) :
    Proc.Within WritesEmitted (sendChunk (L := L) chunk finalFrame) := by
  have hnothing : ∀ {α : Type} {y : Call L α}, Proc.Within EmitsNothing y →
      Proc.Within WritesEmitted y := fun hy s => writesEmitted_of_nothing (hy s)
  refine Proc.within_bind writesEmitted_trans
    (hnothing emitsNothing_primitives.within_awaitWindow) fun _ => ?_
  refine Proc.within_bind writesEmitted_trans
    (hnothing (Proc.within_gets emitsNothing_primitives.refl _)) fun before => ?_
  refine Proc.within_bind writesEmitted_trans
    (hnothing (buildSessionInformationFrame_emitsNothing _ _ _)) fun bytes => ?_
  -- Neither the window nor the build writes; the emission is written once, then copied.
  rw [← Proc.bind_assoc]
  refine Proc.within_bind writesEmitted_trans (fun s => ?_) fun _ =>
    hnothing (emitsNothing_primitives.within_controlWithRetry bytes)
  rw [log, Proc.modify_bind, writeFrameBytes, check_snd]
  refine ⟨[.emit before bytes] ++ [.transport (.write bytes (s.writes.headD .ok))],
    List.append_assoc _ _ _, ?_⟩
  exact Nat.le_refl 1

theorem sendChunks_writesEmitted (size left : Nat) (remaining : List UInt8) :
    Proc.Within WritesEmitted (sendChunks (L := L) size left remaining) := by
  induction left generalizing remaining with
  | zero =>
      exact Proc.within_pure (fun s => writesEmitted_of_nothing (emitsNothing_primitives.refl s)) ()
  | succ left ih =>
      exact Proc.within_bind writesEmitted_trans (sendChunk_writesEmitted _ _) fun _ => ih _

theorem sendChunks_twin (verdicts : HdlcVerdictLaw L)
    (hreplies : ∀ g ∈ x.replies, Brings law.framer g) (size left : Nat) (remaining : List UInt8) :
    Proc.AgreeUnless (Twin law x) (Astray x) (sendChunks (L := L) size left remaining)
      (sendChunks size left remaining) := by
  induction left generalizing remaining with
  | zero => exact Proc.agreeUnless_of_agree (Proc.agree_pure ())
  | succ left ih =>
      refine Proc.agreeUnless_bind (sendChunk_twin verdicts hreplies _ _) (fun _ => ih _)
        (fun _ _ h => h) fun s h => ⟨h, fun _ => h.more ?_⟩
      exact sendChunks_writesEmitted size left _ s

/-- `SendApdu` in session mode. -/
theorem sendApdu_twin (verdicts : HdlcVerdictLaw L)
    (hreplies : ∀ g ∈ x.replies, Brings law.framer g) (apdu : ProfileByteView) {s t : State L}
    (huse : t.options.hdlcUseSession = true) (h : Twin law x s t) :
    ((sendApdu apdu s).1 = (sendApdu apdu t).1 ∧
        Twin law x (sendApdu apdu s).2 (sendApdu apdu t).2) ∨
      Astray x (sendApdu apdu s).1.error (sendApdu apdu s).2 := by
  have hoptions : s.options = t.options := (congrArg (fun u : State L => u.options) h.same :)
  have hsession : s.session = t.session := (congrArg (fun u : State L => u.session) h.same :)
  rw [sendApdu, sendApdu, hoptions]
  split
  · exact Or.inl ⟨rfl, h⟩
  split
  · exact Or.inl ⟨rfl, h⟩
  simp only
  split
  · exact Or.inl ⟨rfl, h⟩
  rw [sendSessionInformation, sendSessionInformation, hsession]
  split
  · exact Or.inl ⟨rfl, h⟩
  · -- Both set the same limit before the loop.
    refine sendChunks_twin verdicts hreplies _ _ _ _ _ ⟨?_, h.live, h.kept, h.script, h.once⟩
    rw [h.same]
    rfl

end Twin

/-- `ConnectDataLink` up to its request. -/
def connectRequest : Call L (List UInt8) := do
  require (·.options.hdlcUseSession) .unsupportedFeature
  requireOpen
  require (·.options.hdlcRole == .client) .unsupportedFeature
  ensureSession
  sessionBuild L.buildConnectRequest

/-- `DisconnectDataLink` up to its request. -/
def disconnectRequest : Call L (List UInt8) := do
  require (·.options.hdlcUseSession) .unsupportedFeature
  requireOpen
  sessionBuild L.buildDisconnectRequest

/-- A command: its request is written and its reply waited for. -/
def command (request : Call L (List UInt8)) : Call L Unit := do
  let frameBytes ← request
  writeFrameBytes frameBytes
  receiveSessionControlFrameWithRetry frameBytes

theorem connectDataLink_command : connectDataLink (L := L) = command connectRequest := by
  simp only [connectDataLink, command, connectRequest, Proc.bind_assoc]

theorem disconnectDataLink_command : disconnectDataLink (L := L) = command disconnectRequest := by
  simp only [disconnectDataLink, command, disconnectRequest, Proc.bind_assoc]

/-- The same channel over other reads. -/
def withReads (reads : List ReadEvent) (s : State L) : State L := { s with reads := reads }

/-- A call that is made before anything is read or written. -/
structure Precedes {α : Type} (y : Call L α) : Prop where
  reads : ∀ s reads, y (withReads reads s) = ((y s).1, withReads reads (y s).2)
  silent : ∀ s, ∃ events, (y s).2.trace = s.trace ++ events ∧ written events = [] ∧
    emittedBytes events = []

section Precedes

variable {α β : Type}

theorem precedes_bind {y : Call L α} {k : α → Call L β} (hy : Precedes y)
    (hk : ∀ a, Precedes (k a)) : Precedes (y >>= k) := by
  constructor
  -- The first call leaves the script alone, so the second sees the one that was put in.
  · intro s reads
    have hone := hy.reads s reads
    rcases hs : y s with ⟨a | e | _, s1⟩ <;> rw [hs] at hone
    · rw [Proc.bind_of_done k hs, Proc.bind_of_done k hone, (hk a).reads]
    · rw [Proc.bind_of_fail k hs, Proc.bind_of_fail k hone]
    · rw [Proc.bind_of_waiting k hs, Proc.bind_of_waiting k hone]
  · intro s
    rcases hy.silent s with ⟨ev, htrace, hw, he⟩
    rcases hs : y s with ⟨a | e | _, s1⟩ <;> rw [hs] at htrace
    · rcases (hk a).silent s1 with ⟨ev', htrace', hw', he'⟩
      rw [Proc.bind_of_done k hs]
      refine ⟨ev ++ ev', by rw [htrace', htrace, List.append_assoc], ?_, ?_⟩
      · rw [written_append, hw, hw', List.append_nil]
      · rw [emittedBytes_append, he, he', List.append_nil]
    · rw [Proc.bind_of_fail k hs]
      exact ⟨ev, htrace, hw, he⟩
    · rw [Proc.bind_of_waiting k hs]
      exact ⟨ev, htrace, hw, he⟩

theorem silent_of_same {s s' : State L} (h : s'.trace = s.trace) :
    ∃ events, s'.trace = s.trace ++ events ∧ written events = [] ∧ emittedBytes events = [] :=
  ⟨[], h.trans (List.append_nil _).symm, rfl, rfl⟩

theorem precedes_require {condition : State L → Bool} (status : ProfileStatus)
    (h : ∀ s reads, condition (withReads reads s) = condition s) :
    Precedes (require condition status) := by
  constructor
  · intro s reads
    rw [require, require, h]
    split <;> rfl
  · intro s
    rw [require]
    split <;> exact silent_of_same rfl

theorem precedes_requireOpen : Precedes (requireOpen (L := L)) := by
  refine precedes_bind ⟨fun s reads => rfl, fun s => ⟨[_], rfl, rfl, rfl⟩⟩ fun opened => ?_
  cases opened with
  | true => exact ⟨fun s reads => rfl, fun s => silent_of_same rfl⟩
  | false => exact ⟨fun s reads => rfl, fun s => silent_of_same rfl⟩

theorem precedes_ensureSession : Precedes (ensureSession (L := L)) := by
  constructor
  · intro s reads
    -- EnsureSession looks at the options and the session, never at the reads.
    by_cases hmade : (makeHdlcSessionOptions L s.options).1 = .ok
    swap
    · simp only [ensureSession, withReads, hmade, ne_eq, not_false_eq_true, if_true]
    by_cases hdisc : L.sessionState s.session = .disconnected
    · simp only [ensureSession, withReads, hmade, ne_eq, not_true_eq_false, if_false, hdisc,
        if_true]
    · simp only [ensureSession, withReads, hmade, ne_eq, not_true_eq_false, if_false, hdisc]
  · intro s
    exact silent_of_same (ensureSession_trace s)

theorem precedes_sessionBuild (build : L.Session → HdlcStatus × List UInt8 × L.Session) :
    Precedes (sessionBuild build) := by
  constructor
  · intro s reads
    by_cases h : mapHdlcStatus (build s.session).1 = .ok
    · simp only [sessionBuild, checked, withReads, h, if_true]
    · simp only [sessionBuild, checked, withReads, h, if_false]
  · intro s
    rw [sessionBuild_snd]
    exact silent_of_same rfl

theorem precedes_connectRequest : Precedes (connectRequest (L := L)) := by
  refine precedes_bind (precedes_require _ fun s reads => rfl) fun _ => ?_
  refine precedes_bind precedes_requireOpen fun _ => ?_
  refine precedes_bind (precedes_require _ fun s reads => rfl) fun _ => ?_
  exact precedes_bind precedes_ensureSession fun _ => precedes_sessionBuild _

theorem precedes_disconnectRequest : Precedes (disconnectRequest (L := L)) := by
  refine precedes_bind (precedes_require _ fun s reads => rfl) fun _ => ?_
  exact precedes_bind precedes_requireOpen fun _ => precedes_sessionBuild _

end Precedes

/-- The exchanges that wait for replies. -/
def Exchanges (s : State L) : Operation → Prop
  | .connectDataLink => True
  | .disconnectDataLink => True
  | .send _ => s.options.hdlcUseSession = true
  | _ => False

/-- The decoder the replies of an exchange meet. -/
def decoderFor (s : State L) : Operation → L.Decoder
  | .connectDataLink => (ensureSession s).2.decoder
  | _ => s.decoder

/-- The frame a command builds, if it comes to that. -/
def requests (s : State L) : Operation → List (List UInt8)
  | .connectDataLink => (connectRequest s).1.toList
  | .disconnectDataLink => (disconnectRequest s).1.toList
  | _ => []

/-- The channel over the replies in pieces. -/
def inPieces (replies : List (List (List UInt8))) (s : State L) : State L :=
  withReads (arrivals replies.flatten) s

/-- The channel over the whole replies. -/
def inWhole (replies : List (List (List UInt8))) (s : State L) : State L :=
  withReads (arrivals (replies.map List.flatten)) s

/-- The exchange does not notice the pieces: it gives back what it gives back over
    the whole replies, and writes each of its frames once. -/
structure Unaffected (replies : List (List (List UInt8))) (op : Operation) (s : State L) :
    Prop where
  result : (exec op (inPieces replies s)).1 = (exec op (inWhole replies s)).1
  once : ∃ events, (exec op (inPieces replies s)).2.trace = s.trace ++ events ∧
    (written events).map (·.1) = requests s op ++ emittedBytes events

section Exchange

variable {options : ApduChannelOptions} {law : HdlcStreamLaw L (decoderLimits L options)}

/-- What becomes of an exchange over pieces: it does not get as far as a reply, it
    runs beside the exchange over whole replies to the end, or it goes astray. -/
inductive Beside (law : HdlcStreamLaw L (decoderLimits L options))
    (replies : List (List (List UInt8))) (op : Operation) (s : State L) : Prop
  | early (h : Unaffected replies op s)
    (hnot : (exec op (inWhole replies s)).1 ≠ .status (.done ()))
  | beside (h : (exec op (inPieces replies s)).1 = (exec op (inWhole replies s)).1)
    (htwin : Twin law ⟨decoderFor s op, replies, s.trace, requests s op⟩
      (exec op (inPieces replies s)).2 (exec op (inWhole replies s)).2)
  | astray (outcome : Outcome ProfileStatus Unit)
    (h : (exec op (inPieces replies s)).1 = .status outcome)
    (hastray : Astray ⟨decoderFor s op, replies, s.trace, requests s op⟩ outcome.error
      (exec op (inPieces replies s)).2)

/-- The runs begin side by side. -/
theorem twin_start {s : State L} {replies : List (List (List UInt8))} {past : List (Event L)}
    {request : List (List UInt8)} (hlive : law.live s.decoder) (hkept : law.view s.decoder = [])
    (honce : ∃ events, s.trace = past ++ events ∧
      (written events).map (·.1) = request ++ emittedBytes events) :
    Twin law ⟨s.decoder, replies, past, request⟩ (inPieces replies s) (inWhole replies s) :=
  ⟨rfl, ⟨hlive, hlive⟩, ⟨hkept, hkept⟩, ⟨[], replies, rfl, trivial, rfl, rfl, rfl⟩, honce⟩

/-- A command. -/
theorem command_beside (verdicts : HdlcVerdictLaw L) {replies : List (List (List UInt8))}
    {op : Operation} {request : Call L (List UInt8)} {s : State L}
    (hop : ∀ t : State L, exec op t = (.status (command request t).1, (command request t).2))
    (hprecedes : Precedes request) (hrequests : requests s op = (request s).1.toList)
    (hdecoder : ∀ bytes, (request s).1 = .done bytes → (request s).2.decoder = decoderFor s op)
    (hlive : law.live (decoderFor s op)) (hkept : law.view (decoderFor s op) = [])
    (hreplies : ∀ g ∈ replies, Brings law.framer g) : Beside law replies op s := by
  have hrun : ∀ reads, request (withReads reads s) =
      ((request s).1, withReads reads (request s).2) := hprecedes.reads s
  rcases hprecedes.silent s with ⟨events, htrace, hw, he⟩
  -- A request that is not built leaves nothing to write or to wait for.
  have hearly : ∀ o : Outcome ProfileStatus Unit, o ≠ .done () → (request s).1.toList = [] →
      (∀ reads, command request (withReads reads s) = (o, withReads reads (request s).2)) →
      Beside law replies op s := by
    intro o hne hnone hall
    refine Beside.early ⟨?_, events, ?_, ?_⟩ ?_
    · rw [hop, hop, inPieces, inWhole, hall, hall]
    · rw [hop, inPieces, hall]
      exact htrace
    · rw [hw, he, hrequests, hnone]
      rfl
    · rw [hop, inWhole, hall]
      exact fun hc => hne (Result.status.inj hc)
  rcases hr : request s with ⟨bytes | status | _, s1⟩ <;> simp only [hr] at hrun htrace hearly
  · -- The request is built, written, and waited for.
    have hd : s1.decoder = decoderFor s op := by
      have hdone := hdecoder bytes (congrArg Prod.fst hr)
      rwa [hr] at hdone
    have hfirst : requests s op = [bytes] := by
      rw [hrequests, hr]
      rfl
    have hwrite : ∀ reads, writeFrameBytes bytes (withReads reads s1) =
        ((writeFrameBytes bytes s1).1, withReads reads (writeFrameBytes bytes s1).2) := by
      intro reads
      by_cases hok : mapTransportStatus (s1.writes.headD .ok) = .ok
      · simp only [writeFrameBytes, withReads, hok, check_ok]
      · simp only [writeFrameBytes, withReads, check_of_ne hok]
    have hs2 : (writeFrameBytes bytes s1).2.decoder = decoderFor s op ∧
        (writeFrameBytes bytes s1).2.trace =
          s.trace ++ (events ++ [.transport (.write bytes (s1.writes.headD .ok))]) := by
      rw [writeFrameBytes, check_snd, ← List.append_assoc, ← htrace]
      exact ⟨hd, rfl⟩
    have hstart : Twin law ⟨decoderFor s op, replies, s.trace, requests s op⟩
        (inPieces replies (writeFrameBytes bytes s1).2)
        (inWhole replies (writeFrameBytes bytes s1).2) := by
      rw [← hs2.1] at hlive hkept ⊢
      refine twin_start hlive hkept ⟨_, hs2.2, ?_⟩
      rw [written_append, emittedBytes_append, hw, he, hfirst]
      rfl
    have hall : ∀ reads, command request (withReads reads s) =
        (writeFrameBytes bytes >>= fun _ => receiveSessionControlFrameWithRetry bytes)
          (withReads reads s1) := fun reads => Proc.bind_of_done _ (hrun reads)
    rcases hw2 : writeFrameBytes bytes s1 with ⟨⟨⟩ | status | _, s2⟩ <;>
      rw [hw2] at hwrite hstart
    · have hboth : ∀ reads, command request (withReads reads s) =
          receiveSessionControlFrameWithRetry bytes (withReads reads s2) := fun reads =>
        (hall reads).trans (Proc.bind_of_done _ (hwrite reads))
      rcases controlWithRetry_twin verdicts hreplies bytes _ _ hstart with ⟨hout, htwin⟩ | hastray
      · refine Beside.beside ?_ ?_
        · rw [hop, hop, inPieces, inWhole, hboth, hboth]
          exact congrArg Result.status hout
        · rw [hop, hop, inPieces, inWhole, hboth, hboth]
          exact htwin
      · refine Beside.astray _ (congrArg Prod.fst (hop _)) ?_
        rw [hop, inPieces, hboth]
        exact hastray
    · have hboth : ∀ reads, command request (withReads reads s) =
          (.fail status, withReads reads s2) := fun reads =>
        (hall reads).trans (Proc.bind_of_fail _ (hwrite reads))
      refine Beside.beside ?_ ?_
      · rw [hop, hop, inPieces, inWhole, hboth, hboth]
      · rw [hop, hop, inPieces, inWhole, hboth, hboth]
        exact hstart
    · have hboth : ∀ reads, command request (withReads reads s) = (.waiting, withReads reads s2) :=
        fun reads => (hall reads).trans (Proc.bind_of_waiting _ (hwrite reads))
      refine Beside.beside ?_ ?_
      · rw [hop, hop, inPieces, inWhole, hboth, hboth]
      · rw [hop, hop, inPieces, inWhole, hboth, hboth]
        exact hstart
  · exact hearly (.fail status) (fun hc => by cases hc) rfl fun reads =>
      Proc.bind_of_fail _ (hrun reads)
  · exact hearly .waiting (fun hc => by cases hc) rfl fun reads =>
      Proc.bind_of_waiting _ (hrun reads)

theorem connectRequest_decoder {s s' : State L} {bytes : List UInt8}
    (h : connectRequest s = (.done bytes, s')) : s'.decoder = (ensureSession s).2.decoder := by
  rcases Proc.bind_done_iff.mp h with ⟨⟨⟩, s1, hfirst, h1⟩
  rcases Proc.bind_done_iff.mp h1 with ⟨⟨⟩, s2, hsecond, h2⟩
  rcases Proc.bind_done_iff.mp h2 with ⟨⟨⟩, s3, hthird, h3⟩
  rcases Proc.bind_done_iff.mp h3 with ⟨⟨⟩, s4, hensure, hbuild⟩
  obtain ⟨-, rfl⟩ := require_done hfirst
  obtain ⟨-, rfl⟩ := requireOpen_done hsecond
  obtain ⟨-, rfl⟩ := require_done hthird
  rcases sessionBuild_done hbuild with ⟨σ', -, rfl⟩
  have hs4 : s4 = (ensureSession (asked s1)).2 := (congrArg Prod.snd hensure).symm
  have hmade : (makeHdlcSessionOptions L s1.options).1 = .ok :=
    (ensureSession_done hensure :)
  -- IsOpen takes one answer off its script and leaves the decoder to EnsureSession.
  have hasked : (ensureSession (asked s1)).2.decoder = (ensureSession s1).2.decoder := by
    by_cases hdisc : L.sessionState s1.session = .disconnected
    · simp only [ensureSession, asked, isOpen, hmade, ne_eq, not_true_eq_false, if_false, hdisc,
        if_true]
    · have hkept : ensureSession (asked s1) = (.done (), asked s1) :=
        ensureSession_kept hmade hdisc
      rw [ensureSession_kept hmade hdisc, hkept]
      rfl
  rw [← hasked, ← hs4]

theorem disconnectRequest_decoder {s s' : State L} {bytes : List UInt8}
    (h : disconnectRequest s = (.done bytes, s')) : s'.decoder = s.decoder := by
  rcases Proc.bind_done_iff.mp h with ⟨⟨⟩, s1, hfirst, h1⟩
  rcases Proc.bind_done_iff.mp h1 with ⟨⟨⟩, s2, hsecond, hbuild⟩
  obtain ⟨-, rfl⟩ := require_done hfirst
  obtain ⟨-, rfl⟩ := requireOpen_done hsecond
  rcases sessionBuild_done hbuild with ⟨σ', -, rfl⟩
  rfl

/-- Every exchange. -/
theorem exchange_beside (verdicts : HdlcVerdictLaw L) {replies : List (List (List UInt8))}
    {op : Operation} {s : State L} (hs : Intact law options s) (hop : Exchanges s op)
    (hkept : law.view (decoderFor s op) = []) (hreplies : ∀ g ∈ replies, Brings law.framer g) :
    Beside law replies op s := by
  cases op with
  -- The link calls write one command and wait; a send does so for every chunk.
  | connectDataLink =>
      refine command_beside verdicts (fun t => ?_) precedes_connectRequest rfl
        (fun bytes hdone => connectRequest_decoder (Prod.ext hdone rfl))
        (ensureSession_intact hs).live hkept hreplies
      rw [← connectDataLink_command]
      rfl
  | disconnectDataLink =>
      refine command_beside verdicts (fun t => ?_) precedes_disconnectRequest rfl
        (fun bytes hdone => disconnectRequest_decoder (Prod.ext hdone rfl)) hs.live hkept hreplies
      rw [← disconnectDataLink_command]
      rfl
  | send apdu =>
      have hstart : Twin law ⟨s.decoder, replies, s.trace, []⟩ (inPieces replies s)
          (inWhole replies s) :=
        twin_start hs.live hkept ⟨[], (List.append_nil _).symm, rfl⟩
      have huse : (inWhole replies s).options.hdlcUseSession = true := hop
      -- Either the two sends end alike, or the one in pieces has gone astray.
      rcases sendApdu_twin verdicts hreplies apdu huse hstart with ⟨hout, htwin⟩ | hastray
      · exact Beside.beside (congrArg Result.status hout) htwin
      · exact Beside.astray _ rfl hastray
  | _ => exact hop.elim

/-- Replies behind those at which an exchange returns are not looked at. -/
theorem exec_inPieces_append (used rest : List (List (List UInt8))) {op : Operation} {s : State L}
    (h : (exec op (inPieces used s)).1.isWaiting = false) :
    exec op (inPieces (used ++ rest) s) = ((exec op (inPieces used s)).1,
      withMore (arrivals rest.flatten) (exec op (inPieces used s)).2) := by
  have hmore : inPieces (used ++ rest) s = withMore (arrivals rest.flatten) (inPieces used s) := by
    rw [inPieces, List.flatten_append, arrivals, List.map_append]
    rfl
  rw [hmore]
  exact (causal_exec _ op).returned _ h

theorem exec_inWhole_append (used rest : List (List (List UInt8))) {op : Operation} {s : State L}
    (h : (exec op (inWhole used s)).1.isWaiting = false) :
    exec op (inWhole (used ++ rest) s) = ((exec op (inWhole used s)).1,
      withMore (arrivals (rest.map List.flatten)) (exec op (inWhole used s)).2) := by
  have hmore : inWhole (used ++ rest) s =
      withMore (arrivals (rest.map List.flatten)) (inWhole used s) := by
    rw [inWhole, List.map_append, arrivals, List.map_append]
    rfl
  rw [hmore]
  exact (causal_exec _ op).returned _ h

/-- So an exchange that does not notice the pieces of the replies it reaches does not notice
    those of any other. -/
theorem Unaffected.append {used : List (List (List UInt8))} {op : Operation} {s : State L}
    (h : Unaffected used op s) (hreturns : (exec op (inWhole used s)).1.isWaiting = false)
    (rest : List (List (List UInt8))) : Unaffected (used ++ rest) op s := by
  have hpieces := exec_inPieces_append used rest (h.result ▸ hreturns)
  have hwhole := exec_inWhole_append used rest hreturns
  refine ⟨?_, ?_⟩
  · rw [hpieces, hwhole]
    exact h.result
  · rw [hpieces]
    exact h.once

/-- An exchange over a channel that keeps no part of a frame, its replies cut into
    reads anywhere. It does not notice the pieces if no read is answered with `Ok`
    and no frame. What counts are the replies it reaches, of which there are none for
    a call that is refused before it reads; and where it ends well over these and takes
    them all, it does not notice the pieces only then. -/
theorem unaffected_iff (law : HdlcStreamLaw L (decoderLimits L options))
    (verdicts : HdlcVerdictLaw L) {replies : List (List (List UInt8))} {op : Operation}
    {s : State L} (hreach : Reachable L options s) (hop : Exchanges s op)
    (hkept : law.view (decoderFor s op) = []) (hreplies : ∀ g ∈ replies, Brings law.framer g) :
    (AsksForMore L (decoderFor s op) replies.flatten → Unaffected replies op s) ∧
      ∀ used rest, replies = used ++ rest → (exec op (inWhole used s)).1.isWaiting = false →
        (AsksForMore L (decoderFor s op) used.flatten → Unaffected replies op s) ∧
        ((exec op (inWhole used s)).1 = .status (.done ()) →
          (exec op (inWhole used s)).2.reads = [] →
          (Unaffected replies op s ↔ AsksForMore L (decoderFor s op) used.flatten)) := by
  have honly : ∀ used : List (List (List UInt8)), (∀ g ∈ used, Brings law.framer g) →
      AsksForMore L (decoderFor s op) used.flatten → Unaffected used op s := by
    intro used hused hasks
    rcases exchange_beside verdicts (intact_of_reachable hreach) hop hkept hused with
      h | ⟨h, htwin⟩ | ⟨outcome, h, hastray⟩
    · exact h
    · exact ⟨h, htwin.once⟩
    · exact absurd hasks hastray.unasked
  refine ⟨honly replies hreplies, fun used rest hsplit hreturns => ?_⟩
  subst hsplit
  have henough : AsksForMore L (decoderFor s op) used.flatten → Unaffected (used ++ rest) op s :=
    fun hasks => (honly used (fun g hg => hreplies g (List.mem_append_left _ hg)) hasks).append
      hreturns rest
  refine ⟨henough, fun hdone hall => ⟨fun h => ?_, henough⟩⟩
  have hwhole := exec_inWhole_append used rest hreturns
  have hdone' : (exec op (inWhole (used ++ rest) s)).1 = .status (.done ()) :=
    (congrArg Prod.fst hwhole).trans hdone
  rcases exchange_beside verdicts (intact_of_reachable hreach) hop hkept hreplies with
    ⟨-, hnot⟩ | ⟨-, htwin⟩ | ⟨outcome, hout, hastray⟩
  · exact absurd hdone' hnot
  · -- These are the replies that were taken, so no read was answered with `Ok` and no frame.
    rcases htwin.script with ⟨used', rest', hreplies', hasks, -, -, hleft⟩
    have hreads : (exec op (inWhole (used ++ rest) s)).2.reads =
        arrivals (rest.map List.flatten) := by
      rw [hwhole]
      change (exec op (inWhole used s)).2.reads ++ _ = _
      rw [hall, List.nil_append]
    have hlengths := congrArg List.length (hreads.symm.trans hleft)
    rw [arrivals, arrivals, List.length_map, List.length_map, List.length_map,
      List.length_map] at hlengths
    obtain ⟨rfl, -⟩ := List.append_inj' hreplies' hlengths
    exact hasks
  · -- A run that went astray and gave back `Ok` has written a frame too many.
    have hnone : outcome.error = none := by
      have hsame := h.result.trans hdone'
      rw [hout] at hsame
      rw [Result.status.inj hsame]
      rfl
    rcases h.once with ⟨events, htrace, honce⟩
    rcases hastray.writes with ⟨events', htrace', -, hmore⟩
    obtain rfl := List.append_cancel_left (htrace.symm.trans htrace')
    have hlt : (requests s op ++ emittedBytes events).length < (written events).length :=
      hmore hnone
    have hlength := congrArg List.length honce
    rw [List.length_map] at hlength
    omega

end Exchange

/-- The UA to a client, cut behind its third byte. -/
def cutAnswer : List (List (List UInt8)) :=
  [[(Reference.toClient Reference.ua []).take 3, (Reference.toClient Reference.ua []).drop 3]]

theorem cutAnswer_brings (limits : HdlcCodecLimits) :
    ∀ g ∈ cutAnswer, Brings (L := Reference.hdlcLib) (Reference.framer limits) g := by
  intro g hg
  rw [List.mem_singleton.mp hg]
  refine ⟨⟨(⟨false, 0x21, 0x03, Reference.ua, []⟩ : Reference.Frame), ?_⟩, by decide⟩
  rw [List.flatten_cons, List.flatten_singleton, List.take_append_drop]
  exact Reference.framer_encodes ((if_neg (Nat.not_lt_zero _)).trans rfl)

/-- The UA comes in two reads, and the decoder asks for more after the first. Another UA
    behind it is not read. -/
theorem unaffected_asked :
    Unaffected (cutAnswer ++ cutAnswer) .connectDataLink
      (Reference.hdlcChannel { Reference.sessionOptions with hdlcRetryCount := 0 } []) :=
  have hop : Exchanges (Reference.hdlcChannel
      { Reference.sessionOptions with hdlcRetryCount := 0 } []) .connectDataLink := trivial
  have hboth := fun g hg => cutAnswer_brings _ g ((List.mem_append.mp hg).elim id id)
  (((unaffected_iff (Reference.hdlcStreamLaw _) Reference.verdictLaw ⟨_, [], rfl, rfl, rfl⟩ hop rfl
    hboth).2 cutAnswer cutAnswer rfl (by decide +kernel)).2 (by decide +kernel)
      (by decide +kernel)).mpr (by decide +kernel)

/-- The UA comes in two reads, and the decoder answers the first with `Ok` and no
    frame: without a retry the connection fails, and with one the SNRM is written
    twice. -/
theorem unaffected_refuted :
    let without := Reference.channelOver Reference.eagerLib
      { Reference.sessionOptions with hdlcRetryCount := 0 } []
    let one := Reference.channelOver Reference.eagerLib
      { Reference.sessionOptions with hdlcRetryCount := 1 } []
    (∀ limits, ∀ g ∈ cutAnswer, Brings (Reference.eagerStreamLaw limits).framer g) ∧
      (exec .connectDataLink (inWhole cutAnswer without)).1 = .status (.done ()) ∧
      (exec .connectDataLink (inPieces cutAnswer without)).1 = .status (.fail .needMoreData) ∧
      (written (exec .connectDataLink (inWhole cutAnswer one)).2.trace).map (·.1) =
        [Reference.toServer Reference.snrm []] ∧
      (written (exec .connectDataLink (inPieces cutAnswer one)).2.trace).map (·.1) =
        [Reference.toServer Reference.snrm [], Reference.toServer Reference.snrm []] :=
  ⟨fun limits g hg => ⟨(cutAnswer_brings limits g hg).frame, (cutAnswer_brings limits g hg).pieces⟩,
    by decide +kernel⟩

end Hdlc

end DlmsProfile
