import DlmsProfile.Hdlc.Transmission
import DlmsProfile.Library.Chunks
import DlmsProfile.Reference.Channels
import DlmsProfile.Reference.Laws

/-!
# How an LPDU is cut into I-Frames

`SendSessionInformation` counts the I-frames of an LPDU in advance, builds one
after the other through the session, and has a segment decoded and encoded
again to set its segmentation bit. What should come of it is told by
`IsPartition`, in terms of information fields and bits alone.

On the other side stand the writes of a call. The trace says where an I-frame
is about to be written for the first time, so the writes behind it, up to the
next such place, are that I-frame and its copies: `grouped` collects them.
`Transmission` is the correspondence of the two, piece by piece, under
consecutive numbers.

The loop does as many turns as were counted, and the count is a `size_t`
quotient. Where its sum leaves `size_t` the quotient is zero, and a call that
sends nothing succeeds.

## Main definitions

* `Hdlc.grouped`: The writes of a stretch of the trace, I-frame by I-frame.
* `Hdlc.Copies`: Writes of one I-frame and its retransmissions.
* `Hdlc.Piece`, `Hdlc.pieces`, `Hdlc.IsPartition`: What an LPDU is cut into.
* `Hdlc.Conveys`, `Hdlc.Transmission`: Bytes and writes that are pieces.
* `Hdlc.Refused`: The conditions under which a call never gets to cutting.

## Theorems

* `Hdlc.writeAndWait_copies`: What is written for an I-frame.
* `Hdlc.sendChunks_transmission`: What the loop writes.
* `Hdlc.pieces_partition`: Counted right, the pieces are a partition.
* `Hdlc.partition_iff`: When a call cuts its LPDU exactly.
-/

namespace DlmsProfile

namespace Hdlc

variable {L : HdlcLib}

/-- What was handed to the stream, and what it answered. -/
abbrev Write : Type := List UInt8 × TransportStatus

/-- An I-frame, and the writes of it and its copies. -/
abbrev Sending : Type := List UInt8 × List Write

/-- The writes of a stretch of the trace: those in front of the first I-frame,
    and those of each I-frame behind the place it was written first. -/
def grouped : List (Event L) → List Write × List Sending
  | [] => ([], [])
  | .emit _ bytes :: events => ([], (bytes, (grouped events).1) :: (grouped events).2)
  | .transport (.write bytes status) :: events =>
    ((bytes, status) :: (grouped events).1, (grouped events).2)
  | _ :: events => grouped events

/-- Without an I-frame there is only what stands in front of the first one. -/
theorem grouped_of_none {events : List (Event L)} (h : emittedBytes events = []) :
    grouped events = (written events, []) := by
  -- Without an emission every write falls in the group before the first.
  induction events with
  | nil => rfl
  | cons e events ih =>
      cases e with
      | emit before bytes => cases h
      | transport call =>
          have hrest := ih h
          cases call with
          | write bytes status =>
              rw [grouped, hrest]
              rfl
          | _ => exact hrest
      | _ => exact ih h

theorem grouped_append {events events' : List (Event L)} (h : (grouped events').1 = []) :
    grouped (events ++ events') =
      ((grouped events).1, (grouped events).2 ++ (grouped events').2) := by
  -- The second trace starts with an emission or writes nothing, so no group is split.
  induction events with
  | nil => exact Prod.ext h rfl
  | cons e events ih =>
      cases e with
      | emit before bytes => simp only [List.cons_append, grouped, ih]
      | transport call =>
          cases call with
          | write bytes status => simp only [List.cons_append, grouped, ih]
          | _ => exact ih
      | _ => exact ih

/-- Every write belongs to an I-frame, or stands in front of the first one. -/
theorem written_grouped (events : List (Event L)) :
    written events = (grouped events).1 ++ (grouped events).2.flatMap (·.2) := by
  -- Grouping moves each write behind its emission and keeps their order.
  induction events with
  | nil => rfl
  | cons e events ih =>
      cases e with
      | emit before bytes => exact ih
      | transport call =>
          cases call with
          | write bytes status => exact congrArg ((bytes, status) :: ·) ih
          | _ => exact ih
      | _ => exact ih

/-- The writes of one I-frame and its copies: the same bytes each time, at most so
    many times, and only the last of them may have failed, which ends the call. -/
structure Copies (bytes : List UInt8) (count : Nat) (o : Outcome ProfileStatus Unit)
    (writes : List Write) : Prop where
  same : ∀ w ∈ writes, w.1 = bytes
  count : writes.length ≤ count
  accepted : ∀ w ∈ writes.dropLast, w.2 = .ok
  done : o = .done () → ∀ w ∈ writes, w.2 = .ok

namespace Copies

variable {bytes : List UInt8} {count : Nat} {o : Outcome ProfileStatus Unit} {writes : List Write}

theorem nil : Copies bytes count o [] :=
  ⟨fun _ h => absurd h List.not_mem_nil, Nat.zero_le _, fun _ h => absurd h List.not_mem_nil,
    fun _ _ h => absurd h List.not_mem_nil⟩

/-- A write that failed is the last. -/
theorem failed {status : TransportStatus} {e : ProfileStatus} :
    Copies bytes (count + 1) (.fail e) [(bytes, status)] :=
  ⟨fun _ h => by rw [List.mem_singleton.mp h], Nat.le_add_left _ _,
    fun _ h => absurd h List.not_mem_nil, fun h => by cases h⟩

/-- A write that did not fail may be followed by others. -/
theorem cons (h : Copies bytes count o writes) :
    Copies bytes (count + 1) o ((bytes, .ok) :: writes) := by
  -- One accepted write in front: the rest are the retries, one fewer.
  refine ⟨fun w hw => ?_, Nat.succ_le_succ h.count, fun w hw => ?_, fun ho w hw => ?_⟩
  · rcases List.mem_cons.mp hw with rfl | hw
    · rfl
    · exact h.same w hw
  · cases writes with
    | nil => exact absurd hw List.not_mem_nil
    | cons w' writes =>
        rw [List.dropLast_cons_cons] at hw
        rcases List.mem_cons.mp hw with rfl | hw
        · rfl
        · exact h.accepted w hw
  · rcases List.mem_cons.mp hw with rfl | hw
    · rfl
    · exact h.done ho w hw

end Copies

/-- Steps that record no I-frame and no write. -/
def Wordless (s s' : State L) : Prop :=
  ∃ events, s'.trace = s.trace ++ events ∧ emittedBytes events = [] ∧ written events = []

theorem wordless_refl (s : State L) : Wordless s s := ⟨[], (List.append_nil _).symm, rfl, rfl⟩

theorem control_wordless : Proc.Within Wordless (receiveSessionControlFrame (L := L)) := by
  intro s
  rcases emitsNothing_primitives.within_control s with ⟨events, htrace, he⟩
  have hsilent : WritesOnly (fun _ => False) s (receiveSessionControlFrame s).2 :=
    writesOnly_control s
  rcases hsilent with ⟨events', htrace', hfalse⟩
  obtain rfl := List.append_cancel_left (htrace'.symm.trans htrace)
  exact ⟨events', htrace, he, List.eq_nil_iff_forall_not_mem.mpr fun w hw => hfalse w hw⟩

theorem awaitWindow_wordless : Proc.Within Wordless (awaitWindow (L := L)) := by
  intro s
  rw [awaitWindow]
  split
  · exact wordless_refl s
  · exact control_wordless s

theorem sleepBeforeRetry_wordless : Proc.Within Wordless (sleepBeforeRetry (L := L)) := by
  intro s
  rw [sleepBeforeRetry]
  split
  · exact wordless_refl s
  · rw [check_snd]
    exact ⟨_, rfl, rfl, rfl⟩

/-- What a stretch of waiting wrote. -/
def Rewrites (bytes : List UInt8) (count : Nat) (s : State L)
    (r : Outcome ProfileStatus Unit × State L) : Prop :=
  ∃ events, r.2.trace = s.trace ++ events ∧ emittedBytes events = [] ∧
    Copies bytes count r.1 (written events)

theorem Rewrites.of_wordless {bytes : List UInt8} {count : Nat} {s s1 : State L}
    {r : Outcome ProfileStatus Unit × State L} (h : Wordless s s1)
    (hrest : Rewrites bytes count s1 r) : Rewrites bytes count s r := by
  rcases h with ⟨ev, ht, he, hw⟩
  rcases hrest with ⟨ev', ht', he', hcopies⟩
  refine ⟨ev ++ ev', by rw [ht', ht, List.append_assoc], ?_, ?_⟩
  · rw [emittedBytes_append, he, he']
    rfl
  · rw [written_append, hw]
    exact hcopies

theorem Rewrites.of_end {bytes : List UInt8} {count : Nat} {s s1 : State L}
    {o : Outcome ProfileStatus Unit} (h : Wordless s s1) : Rewrites bytes count s (o, s1) := by
  rcases h with ⟨ev, ht, he, hw⟩
  exact ⟨ev, ht, he, hw ▸ Copies.nil⟩

/-- The state once the stream has answered a write. -/
def wrote (bytes : List UInt8) (s : State L) : State L :=
  { s with
    writes := s.writes.tail
    trace := s.trace ++ [.transport (.write bytes (s.writes.headD .ok))] }

theorem writeFrameBytes_of_ok {bytes : List UInt8} {s : State L} (h : s.writes.headD .ok = .ok) :
    writeFrameBytes bytes s = (.done (), wrote bytes s) := by
  rw [writeFrameBytes, check_done_iff]
  exact ⟨mapTransportStatus_eq_ok.mpr h, rfl⟩

theorem writeFrameBytes_of_ne {bytes : List UInt8} {s : State L} (h : s.writes.headD .ok ≠ .ok) :
    writeFrameBytes bytes s =
      (.fail (mapTransportStatus (s.writes.headD .ok)), wrote bytes s) :=
  check_of_ne (fun hc => h (mapTransportStatus_eq_ok.mp hc)) _

/-- One write, and what follows it if it did not fail. -/
theorem write_rewrites {bytes : List UInt8} {count : Nat} {k : Call L Unit} {s : State L}
    (hrest : Rewrites bytes count (wrote bytes s) (k (wrote bytes s))) :
    ∃ events, ((writeFrameBytes bytes >>= fun _ => k) s).2.trace = s.trace ++ events ∧
      emittedBytes events = [] ∧
      Copies bytes (count + 1) ((writeFrameBytes bytes >>= fun _ => k) s).1 (written events) ∧
      (written events).head? = some (bytes, s.writes.headD .ok) := by
  -- A write that fails is the last one: the loop returns its status at once.
  by_cases hok : s.writes.headD .ok = .ok
  · rw [Proc.bind_of_done _ (writeFrameBytes_of_ok hok)]
    rcases hrest with ⟨events, htrace, he, hcopies⟩
    refine ⟨_ :: events, htrace.trans (List.append_assoc _ _ _), he, ?_, rfl⟩
    have hwritten : written (.transport (.write bytes (s.writes.headD .ok)) :: events) =
        (bytes, .ok) :: written events := by
      rw [hok]
      rfl
    exact hwritten ▸ hcopies.cons
  · have hall : (writeFrameBytes bytes >>= fun _ => k) s = _ :=
      Proc.bind_of_fail _ (writeFrameBytes_of_ne hok)
    rw [hall]
    exact ⟨_, rfl, rfl, Copies.failed, rfl⟩

/-- Waiting writes copies, one before each attempt but the first. -/
theorem retryLoop_rewrites (bytes : List UInt8) (left : Nat) (s : State L) :
    Rewrites bytes left s (retryLoop bytes left s) := by
  -- By induction on the retries left; a retry is a sleep, a copy and another wait.
  induction left generalizing s with
  | zero => exact Rewrites.of_end (control_wordless s)
  | succ left ih =>
      have hcontrol : Wordless s (receiveSessionControlFrame s).2 := control_wordless s
      rcases hr : receiveSessionControlFrame s with ⟨⟨⟩ | status | _, s1⟩ <;> rw [hr] at hcontrol
      · rw [retryLoop_of_done hr]
        exact Rewrites.of_end hcontrol
      · cases hagain : isRetriableReceiveStatus status with
        | false =>
            rw [retryLoop_of_fail hr (Or.inl hagain)]
            exact Rewrites.of_end hcontrol
        | true =>
            rw [retryLoop_of_retry hr hagain]
            refine Rewrites.of_wordless hcontrol ?_
            have hsleep : Wordless s1 (sleepBeforeRetry s1).2 := sleepBeforeRetry_wordless s1
            rcases hs : sleepBeforeRetry s1 with ⟨⟨⟩ | status | _, s2⟩ <;> rw [hs] at hsleep
            · rw [Proc.bind_of_done _ hs]
              rcases write_rewrites (ih (wrote bytes s2)) with ⟨events, htrace, he, hcopies, -⟩
              exact Rewrites.of_wordless hsleep ⟨events, htrace, he, hcopies⟩
            · rw [Proc.bind_of_fail _ hs]
              exact Rewrites.of_end hsleep
            · rw [Proc.bind_of_waiting _ hs]
              exact Rewrites.of_end hsleep
      · rw [retryLoop_of_waiting hr]
        exact Rewrites.of_end hcontrol

/-- What is written for an I-frame: the I-frame, and a copy before each further
    attempt to get a reply. -/
theorem writeAndWait_copies (bytes : List UInt8) (s : State L) :
    ∃ events, (writeAndWait bytes s).2.trace = s.trace ++ events ∧ emittedBytes events = [] ∧
      Copies bytes (s.options.hdlcRetryCount.toNat + 1) (writeAndWait bytes s).1 (written events) ∧
      (written events).head? = some (bytes, s.writes.headD .ok) :=
  write_rewrites (retryLoop_rewrites bytes s.options.hdlcRetryCount.toNat (wrote bytes s))

theorem Wordless.grouped {s s' : State L} (h : Wordless s s') :
    ∃ events, s'.trace = s.trace ++ events ∧ Hdlc.grouped events = ([], []) := by
  rcases h with ⟨events, htrace, he, hw⟩
  exact ⟨events, htrace, by rw [grouped_of_none he, hw]⟩

/-- An I-frame that goes out, and the writes of it. -/
theorem emitted_grouped (bytes : List UInt8) (σ : L.Session) {s s1 : State L}
    (h : Wordless s s1) :
    ∃ events writes, (writeAndWait bytes (emitted bytes σ s1)).2.trace = s.trace ++ events ∧
      grouped events = ([], [(bytes, writes)]) ∧
      Copies bytes (s1.options.hdlcRetryCount.toNat + 1)
        (writeAndWait bytes (emitted bytes σ s1)).1 writes ∧
      writes.head? = some (bytes, s1.writes.headD .ok) := by
  rcases h.grouped with ⟨before, htrace, hbefore⟩
  rcases writeAndWait_copies bytes (emitted bytes σ s1) with ⟨after, htrace', he, hcopies, hfirst⟩
  -- All writes after the emission belong to its group, since nothing more is emitted.
  have hafter : grouped (.emit s1.session bytes :: after) = ([], [(bytes, written after)]) := by
    rw [grouped, grouped_of_none he]
  refine ⟨before ++ .emit s1.session bytes :: after, written after, ?_, ?_, hcopies, hfirst⟩
  · rw [htrace', emitted, htrace]
    -- The wait for the window came before, and it wrote nothing.
    simp only [List.append_assoc, List.singleton_append]
  · rw [grouped_append (congrArg Prod.fst hafter), hafter, hbefore]
    rfl

/-- What an I-frame of an LPDU carries: its information field, the segmentation
    bit and the poll/final bit. -/
structure Piece where
  information : List UInt8
  segmented : Bool
  pollFinal : Bool
deriving DecidableEq, Repr

/-- The pieces the loop makes of what remains of an LPDU, the given number of them
    left. -/
def pieces (size : Nat) : Nat → List UInt8 → List Piece
  | 0, _ => []
  | left + 1, remaining =>
    ⟨remaining.take size, left != 0, left == 0⟩ :: pieces size left (remaining.drop size)

/-- The pieces are the LPDU, cut at the limit, if there is one, and marked. -/
structure IsPartition (limit : Nat) (lpdu : List UInt8) (all : List Piece) : Prop where
  whole : all.flatMap (·.information) = lpdu
  bounded : limit ≠ 0 → ∀ p ∈ all, p.information.length ≤ limit
  nonempty : lpdu ≠ [] → ∀ p ∈ all, p.information ≠ []
  single : limit = 0 → all.length = 1
  marked : ∃ before last, all = before ++ [last] ∧
    (∀ p ∈ before, p.segmented = true ∧ p.pollFinal = false) ∧
    last.segmented = false ∧ last.pollFinal = true

theorem pieces_information (size left : Nat) (remaining : List UInt8) :
    (pieces size left remaining).map (·.information) = Chunks.chunks size left remaining := by
  induction left generalizing remaining with
  | zero => rfl
  | succ left ih => rw [pieces, List.map_cons, ih, Chunks.chunks]

theorem pieces_length (size left : Nat) (remaining : List UInt8) :
    (pieces size left remaining).length = left := by
  rw [← List.length_map, pieces_information, Chunks.chunks_length]

theorem mem_chunks_of_mem {size left : Nat} {remaining : List UInt8} {p : Piece}
    (h : p ∈ pieces size left remaining) :
    p.information ∈ Chunks.chunks size left remaining := by
  rw [← pieces_information]
  exact List.mem_map_of_mem h

theorem pieces_marked {size left : Nat} (hleft : 0 < left) (remaining : List UInt8) :
    ∃ before last, pieces size left remaining = before ++ [last] ∧
      (∀ p ∈ before, p.segmented = true ∧ p.pollFinal = false) ∧
      last.segmented = false ∧ last.pollFinal = true := by
  -- The turn with none left after it is the last: no segmentation bit, and the final bit.
  induction left generalizing remaining with
  | zero => exact absurd hleft (Nat.lt_irrefl 0)
  | succ left ih =>
      by_cases hlast : left = 0
      · obtain rfl := hlast
        exact ⟨[], _, rfl, fun _ h => absurd h List.not_mem_nil, rfl, rfl⟩
      · rcases ih (Nat.pos_of_ne_zero hlast) (remaining.drop size) with
          ⟨before, last, hall, hbefore, hend⟩
        refine ⟨_ :: before, last, by rw [pieces, hall]; rfl, fun p hp => ?_, hend⟩
        rcases List.mem_cons.mp hp with rfl | hp
        · exact ⟨bne_iff_ne.mpr hlast, beq_eq_false_iff_ne.mpr hlast⟩
        · exact hbefore p hp

/-- A chunk has a size, unless there is nothing to cut. -/
theorem chunkSize_pos (limit length : Nat) : length = 0 ∨ 0 < chunkSize limit length := by
  rw [chunkSize]
  split <;> omega

/-- Counted right, the pieces are a partition. -/
theorem pieces_partition (limit : Nat) (lpdu : List UInt8) :
    IsPartition limit lpdu (pieces (chunkSize limit lpdu.length)
      (Chunks.turns lpdu.length (chunkSize limit lpdu.length)) lpdu) where
  whole := by
    rw [List.flatMap_def, pieces_information]
    exact Chunks.chunks_flatten (Chunks.turns_enough (chunkSize_pos limit lpdu.length))
  bounded := by
    intro hlimit p hp
    have hle := Chunks.length_le_of_mem (mem_chunks_of_mem hp)
    rwa [chunkSize, if_neg hlimit] at hle
  nonempty := by
    intro hne p hp
    have hlength : 0 < lpdu.length := List.length_pos_iff.mpr hne
    -- An LPDU that is not empty is cut in chunks that are not empty either.
    have hsize : 0 < chunkSize limit lpdu.length := by
      rcases chunkSize_pos limit lpdu.length with h | h <;> omega
    exact Chunks.ne_nil_of_mem hsize (Chunks.turns_needed hlength hsize) (mem_chunks_of_mem hp)
  single := by
    intro hlimit
    rw [pieces_length, chunkSize, if_pos hlimit, Chunks.turns]
    split
    · rfl
    -- With no limit the chunk is the LPDU itself, so one turn takes it all.
    next hne => rw [Nat.div_eq_of_lt_le] <;> omega
  marked := pieces_marked (Chunks.turns_pos (chunkSize_pos limit lpdu.length)) lpdu

section Transmission

variable {law : HdlcSessionLaw L} {wire : HdlcWireLaw L law} (poll : HdlcPollLaw L law wire)

/-- On the wire the bytes are an I-frame numbered `k` that the session built from
    the piece, with its segmentation bit set as the piece says and nothing else
    changed. -/
def Conveys (k : Fin 8) (piece : Piece) (bytes : List UInt8) : Prop :=
  ∃ σ σ' built frame, L.Connected σ ∧
    L.buildInformationFrame σ piece.information piece.pollFinal = (.ok, built, σ') ∧
    wire.spells built frame ∧ L.frameKind frame.control = .information ∧
    frame.information = piece.information ∧ law.sendSequence frame.control = k ∧
    poll.pollFinal frame.control = piece.pollFinal ∧
    wire.spells bytes { frame with segmented := piece.segmented }

/-- Piece by piece, under consecutive numbers from `k` on: the I-frame that
    carries it, and the writes of that. -/
inductive Transmission (retries : Nat) : Fin 8 → List Piece → List Sending → Prop
  | nil (k : Fin 8) : Transmission retries k [] []
  | cons {k : Fin 8} {piece : Piece} {all : List Piece} {bytes : List UInt8} {writes : List Write}
    {o : Outcome ProfileStatus Unit} {sendings : List Sending}
    (hconveys : Conveys poll k piece bytes) (hne : writes ≠ [])
    (hcopies : Copies bytes (retries + 1) o writes)
    (hrest : Transmission retries (k + 1) all sendings) :
    Transmission retries k (piece :: all) ((bytes, writes) :: sendings)

variable {poll}

/-- What the session builds from a piece and the codec marks carries it. -/
theorem conveys_of_recoded {σ σ' : L.Session} {chunk built bytes : List UInt8} {last : Bool}
    {limits : HdlcCodecLimits} (hσ : L.Connected σ)
    (hbuild : L.buildInformationFrame σ chunk last = (.ok, built, σ'))
    (hbytes : recoded L limits (!last) built = (.ok, bytes)) :
    Conveys poll (law.vs σ) ⟨chunk, !last, last⟩ bytes := by
  rcases wire.information hσ hbuild with ⟨frame, hspells, hkind, hseg, hinfo, hns, -⟩
  have hpoll := poll.information hσ hbuild hspells
  refine ⟨σ, σ', built, frame, hσ, hbuild, hspells, hkind, hinfo, hns, hpoll, ?_⟩
  -- The last frame goes out as the session built it.
  cases last with
  | true =>
      obtain rfl := (Prod.mk.inj hbytes).2
      have hsame : { frame with segmented := false } = frame := by rw [← hseg]
      exact hsame.symm ▸ hspells
  -- The others are decoded, marked as segments and encoded again.
  | false =>
      rw [recoded, Bool.not_false, if_pos rfl] at hbytes
      simp only at hbytes
      split at hbytes
      next hok =>
        have hdecoded : (L.decodeFrame built limits).2 = frame :=
          wire.decode hspells (Prod.ext hok rfl)
        rw [hdecoded] at hbytes
        exact wire.encode hbytes
      next hne => exact absurd (congrArg Prod.fst hbytes) hne

variable (poll) in
/-- One turn of the sending loop: it fails with nothing written, or writes the
    I-frame of its chunk. -/
theorem sendChunk_sent (unnumbered : HdlcUnnumberedLaw L) (chunk : List UInt8) (last : Bool)
    {s : State L} (hσ : L.Connected s.session) :
    ∃ events, (sendChunk chunk last s).2.trace = s.trace ++ events ∧ (grouped events).1 = [] ∧
      (((grouped events).2 = [] ∧ (sendChunk chunk last s).1 ≠ .done ()) ∨
        ∃ bytes writes, (grouped events).2 = [(bytes, writes)] ∧ writes ≠ [] ∧
          Conveys poll (law.vs s.session) ⟨chunk, !last, last⟩ bytes ∧
          Copies bytes (s.options.hdlcRetryCount.toNat + 1) (sendChunk chunk last s).1 writes) := by
  have hkeeps := keepsNumber_awaitWindow law s (orderly_of_law unnumbered s) hσ
  have hsilent : Wordless s (awaitWindow s).2 := awaitWindow_wordless s
  -- A turn that ends before anything was written.
  have hnone : ∀ {o s'}, o ≠ .done () → sendChunk chunk last s = (o, s') → Wordless s s' →
      ∃ events, (sendChunk chunk last s).2.trace = s.trace ++ events ∧ (grouped events).1 = [] ∧
      (((grouped events).2 = [] ∧ (sendChunk chunk last s).1 ≠ .done ()) ∨
        ∃ bytes writes, (grouped events).2 = [(bytes, writes)] ∧ writes ≠ [] ∧
          Conveys poll (law.vs s.session) ⟨chunk, !last, last⟩ bytes ∧
          Copies bytes (s.options.hdlcRetryCount.toNat + 1) (sendChunk chunk last s).1 writes) := by
    intro o s' ho hturn hwordless
    rcases hwordless.grouped with ⟨events, htrace, hgrouped⟩
    rw [hturn]
    exact ⟨events, htrace, by rw [hgrouped], Or.inl ⟨by rw [hgrouped], ho⟩⟩
  rcases sendChunk_cases chunk last s with ⟨o, s1, hw, ho, hturn⟩ | ⟨s1, hw, hrest⟩ <;>
    rw [hw] at hkeeps hsilent
  · exact hnone ho hturn hsilent
  rcases hkeeps with ⟨hoptions, hσ1, hvs, -⟩
  rcases hrest with ⟨status, -, hturn⟩ | ⟨built, σ, hbuild, hrest⟩
  · exact hnone (fun h => by cases h) hturn hsilent
  rcases hrest with ⟨status, -, hturn⟩ | ⟨bytes, hbytes, hturn⟩
  · exact hnone (fun h => by cases h) hturn hsilent
  -- From here on the I-frame is out, and only its copies are left to write.
  rcases emitted_grouped bytes σ hsilent with
    ⟨events, writes, htrace, hgrouped, hcopies, hfirst⟩
  have hconveys : Conveys poll (law.vs s1.session) ⟨chunk, !last, last⟩ bytes :=
    conveys_of_recoded hσ1 hbuild hbytes
  have hoptions' : s1.options = s.options := hoptions
  rw [hvs] at hconveys
  rw [hoptions'] at hcopies
  rw [hturn]
  refine ⟨events, htrace, by rw [hgrouped], Or.inr ⟨bytes, writes, by rw [hgrouped], ?_,
    hconveys, hcopies⟩⟩
  intro hnil
  rw [hnil] at hfirst
  cases hfirst

variable (poll) in
/-- The loop writes its pieces one after the other, all of them if it completes. -/
theorem sendChunks_transmission (unnumbered : HdlcUnnumberedLaw L) (size left : Nat)
    (remaining : List UInt8) {s : State L} (hσ : L.Connected s.session) :
    ∃ events sent, (sendChunks size left remaining s).2.trace = s.trace ++ events ∧
      (grouped events).1 = [] ∧ sent <+: pieces size left remaining ∧
      Transmission poll s.options.hdlcRetryCount.toNat (law.vs s.session) sent (grouped events).2 ∧
      ((sendChunks size left remaining s).1 = .done () → sent = pieces size left remaining) := by
  induction left generalizing s remaining with
  | zero =>
      exact ⟨[], [], (List.append_nil _).symm, rfl, List.nil_prefix, Transmission.nil _,
        fun _ => rfl⟩
  | succ left ih =>
      rcases sendChunk_sent poll unnumbered (remaining.take size) (left == 0) hσ with
        ⟨events, htrace, hfront, hsent⟩
      have hpiece : (⟨remaining.take size, !(left == 0), left == 0⟩ : Piece) =
          ⟨remaining.take size, left != 0, left == 0⟩ := rfl
      -- What there is to say if the loop ends with this turn.
      have hstop : ∃ sent, sent <+: pieces size (left + 1) remaining ∧
          Transmission poll s.options.hdlcRetryCount.toNat (law.vs s.session) sent
            (grouped events).2 := by
        rcases hsent with ⟨hnone, -⟩ | ⟨bytes, writes, hone, hne, hconveys, hcopies⟩
        · exact ⟨[], List.nil_prefix, hnone ▸ Transmission.nil _⟩
        · rw [hone]
          refine ⟨[_], ?_, Transmission.cons (hpiece ▸ hconveys) hne hcopies (Transmission.nil _)⟩
          exact List.prefix_append _ _
      rcases sendChunks_cases size left remaining s with ⟨s1, hc, hloop⟩ | ⟨hne, hloop⟩ <;>
        rw [hloop]
      · rw [hc] at htrace hsent
        rcases sendChunk_done law unnumbered hσ hc with ⟨taken, frame, hsends, -⟩
        rcases hsends.replay with ⟨events', htrace', hreplay⟩
        obtain rfl := List.append_cancel_left (htrace'.symm.trans htrace)
        have hvs : law.vs s1.session = law.vs s.session + 1 := hreplay.vs_eq law unnumbered
        rcases hsent with ⟨-, hne⟩ | ⟨bytes, writes, hone, hne, hconveys, hcopies⟩
        · exact absurd rfl hne
        rcases ih (remaining.drop size) hsends.connected with
          ⟨rest, sent, htrest, hfront', hprefix, hrest, hdone⟩
        rw [hsends.options, hvs] at hrest
        refine ⟨events' ++ rest, _ :: sent, by rw [htrest, htrace, List.append_assoc], ?_,
          (List.prefix_cons_inj _).mpr hprefix, ?_, fun ho => ?_⟩
        · rw [grouped_append hfront', hfront]
        · rw [grouped_append hfront', hone]
          exact Transmission.cons (hpiece ▸ hconveys) hne hcopies hrest
        · rw [hdone ho]
          rfl
      · rcases hstop with ⟨sent, hprefix, hsent⟩
        exact ⟨events, sent, htrace, hfront, hprefix, hsent, fun h => absurd h hne⟩

end Transmission

/-- The conditions under which a call never gets to cutting. -/
def Refused (s : State L) (apdu : ProfileByteView) : Prop :=
  isValidByteView apdu = false ∨
    (s.options.maximumApduSize ≠ 0 ∧ s.options.maximumApduSize < apdu.size) ∨
    (encodeApdu L s.options apdu.data).1 ≠ .ok ∨ ¬ L.Connected s.session

instance (s : State L) (apdu : ProfileByteView) : Decidable (Refused s apdu) :=
  inferInstanceAs (Decidable (_ ∨ _ ∨ _ ∨ _))

section Calls

variable {s : State L} {apdu : ProfileByteView}

theorem sendApdu_of_refused (huse : s.options.hdlcUseSession = true) (h : Refused s apdu) :
    ∃ status, sendApdu apdu s = (.fail status, s) := by
  rw [sendApdu]
  split
  · exact ⟨_, rfl⟩
  next hvalid =>
  split
  · exact ⟨_, rfl⟩
  next hsize =>
  simp only
  split
  · exact ⟨_, rfl⟩
  next hllc =>
    -- Past the three checks only the session can be what refuses.
    have hstate : L.sessionState s.session ≠ .connected := by
      rw [not_not, mapLlcStatus_eq_ok] at hllc
      rcases h with h | h | h | h
      · exact absurd h hvalid
      · exact absurd h hsize
      · exact absurd hllc h
      · exact h
    rw [sendSessionInformation, if_pos hstate]
    exact ⟨_, rfl⟩

theorem sendApdu_of_unrefused (huse : s.options.hdlcUseSession = true) (h : ¬ Refused s apdu) :
    sendApdu apdu s =
      sendChunks (chunkSizeOf s apdu) (framesToSend s apdu) (lpduOf s apdu) (limited s) := by
  simp only [Refused, not_or, not_not] at h
  rcases h with ⟨hvalid, hsize, hllc, hσ⟩
  have hconnected : ¬ L.sessionState s.session ≠ .connected := not_not.mpr hσ
  -- All four checks of the call pass, and what is left is the loop over the chunks.
  rw [sendApdu, if_neg hvalid, if_neg hsize]
  simp only
  rw [if_neg (not_not.mpr (mapLlcStatus_eq_ok.mpr hllc)), if_pos huse, sendSessionInformation,
    if_neg hconnected]
  rfl

/-- The negotiated transmit length of a call. -/
def transmitLimit (s : State L) : Nat :=
  (L.negotiatedLimits s.session).maxInformationFieldLengthTransmit

/-- The I-frames a call wrote, copies removed, are a partition of its LPDU if it
    succeeds, and the beginning of one if it does not. -/
def CutsExactly {law : HdlcSessionLaw L} {wire : HdlcWireLaw L law} (poll : HdlcPollLaw L law wire)
    (s : State L) (apdu : ProfileByteView) : Prop :=
  ∃ events sent, (sendApdu apdu s).2.trace = s.trace ++ events ∧ (grouped events).1 = [] ∧
    Transmission poll s.options.hdlcRetryCount.toNat (law.vs s.session) sent (grouped events).2 ∧
    ((sendApdu apdu s).1 = .done () → IsPartition (transmitLimit s) (lpduOf s apdu) sent) ∧
    ((sendApdu apdu s).1 ≠ .done () →
      ∃ all, IsPartition (transmitLimit s) (lpduOf s apdu) all ∧ sent <+: all)

/-- The sum behind the count of I-frames stays within `size_t`. -/
def CountFits (s : State L) (apdu : ProfileByteView) : Prop :=
  (lpduOf s apdu).length + (chunkSizeOf s apdu - 1) < 2 ^ 64

/-- Within `size_t` the count is the rounded up quotient. -/
theorem framesToSend_of_fits (h : CountFits s apdu) :
    framesToSend s apdu = Chunks.turns (lpduOf s apdu).length (chunkSizeOf s apdu) := by
  rw [framesToSend, frameCount, Chunks.turns, sizeAdd, Nat.mod_eq_of_lt h]

/-- Beyond it, it is zero. -/
theorem framesToSend_of_wraps (hlimit : transmitLimit s < 2 ^ 64)
    (hlpdu : (lpduOf s apdu).length < 2 ^ 64) (h : ¬ CountFits s apdu) :
    framesToSend s apdu = 0 := by
  have hsize : chunkSizeOf s apdu < 2 ^ 64 := by
    rw [chunkSizeOf, chunkSize]
    split
    · exact hlpdu
    · exact hlimit
  rw [CountFits, Nat.not_lt] at h
  have hlength : (lpduOf s apdu).length ≠ 0 := by omega
  -- The sum wraps below the chunk size, so the quotient is zero and no frame is sent.
  have hsum : sizeAdd (lpduOf s apdu).length (chunkSizeOf s apdu - 1) < chunkSizeOf s apdu := by
    rw [sizeAdd]
    omega
  rw [framesToSend, frameCount, if_neg hlength, Nat.div_eq_of_lt hsum]

end Calls

/-- A call cuts its LPDU exactly, or into a beginning of it when it fails, if and
    only if it is refused before cutting or the sum behind the count of I-frames
    stays within `size_t`. -/
theorem partition_iff {law : HdlcSessionLaw L} {wire : HdlcWireLaw L law}
    (unnumbered : HdlcUnnumberedLaw L) (poll : HdlcPollLaw L law wire) {s : State L}
    {apdu : ProfileByteView} (huse : s.options.hdlcUseSession = true)
    (hlimit : transmitLimit s < 2 ^ 64) (hlpdu : (lpduOf s apdu).length < 2 ^ 64) :
    CutsExactly poll s apdu ↔ Refused s apdu ∨ CountFits s apdu := by
  constructor
  · rintro ⟨events, sent, htrace, -, hsent, hall, -⟩
    by_contra hnot
    rcases not_or.mp hnot with ⟨hrefused, hwraps⟩
    -- No turn is counted, so the loop completes at once and nothing was sent.
    have hcall : sendApdu apdu s = (.done (), limited s) := by
      rw [sendApdu_of_unrefused huse hrefused, framesToSend_of_wraps hlimit hlpdu hwraps]
      rfl
    rw [hcall] at htrace hall
    have hnone : events = [] := List.self_eq_append_right.mp htrace
    rw [hnone] at hsent
    cases hsent
    rcases (hall rfl).marked with ⟨before, last, hnil, -⟩
    exact List.append_ne_nil_of_right_ne_nil before (List.cons_ne_nil last []) hnil.symm
  · intro h
    by_cases hrefused : Refused s apdu
    · rcases sendApdu_of_refused huse hrefused with ⟨status, hcall⟩
      rw [CutsExactly, hcall]
      exact ⟨[], [], (List.append_nil _).symm, rfl, Transmission.nil _, (fun h => by cases h),
        fun _ => ⟨_, pieces_partition _ _, List.nil_prefix⟩⟩
    · have hfits := h.resolve_left hrefused
      have hσ : L.Connected (limited s).session := by
        simp only [Refused, not_or, not_not] at hrefused
        exact hrefused.2.2.2
      rcases sendChunks_transmission poll unnumbered (chunkSizeOf s apdu) (framesToSend s apdu)
        (lpduOf s apdu) hσ with ⟨events, sent, htrace, hfront, hprefix, hsent, hdone⟩
      have hpartition := pieces_partition (transmitLimit s) (lpduOf s apdu)
      rw [framesToSend_of_fits hfits] at hprefix hdone htrace
      rw [CutsExactly, sendApdu_of_unrefused huse hrefused, framesToSend_of_fits hfits]
      refine ⟨events, sent, htrace, hfront, hsent, fun ho => ?_, fun _ => ⟨_, hpartition, hprefix⟩⟩
      rw [hdone ho]
      exact hpartition

/-- A client whose LPDU of four bytes goes out in two I-frames of two. -/
theorem partition_two :
    let s := (connectDataLink (Reference.hdlcChannel
      { Reference.sessionOptions with hdlcMaxInformationFieldLengthTransmit := 2 }
      [Reference.arrived (Reference.toClient Reference.ua []),
        Reference.arrived (Reference.receiveReady 1),
        Reference.arrived (Reference.receiveReady 2)])).2
    CutsExactly Reference.pollLaw s (.of [0xC0]) ↔
      Refused s (.of [0xC0]) ∨ CountFits s (.of [0xC0]) :=
  partition_iff Reference.unnumberedLaw Reference.pollLaw (by decide +kernel) (by decide +kernel)
    (by decide +kernel)

/-- With a transmit length near the top of `size_t` the sum behind the count wraps:
    the call succeeds and no I-frame was written. -/
theorem partition_refuted :
    let s := (connectDataLink (Reference.hdlcChannel
      { Reference.sessionOptions with hdlcMaxInformationFieldLengthTransmit := 2 ^ 64 - 1 }
      [Reference.arrived (Reference.toClient Reference.ua [])])).2
    (sendApdu (.of [0xC0]) s).1 = .done () ∧
      (grouped (sendApdu (.of [0xC0]) s).2.trace).2 = [] ∧
      written (sendApdu (.of [0xC0]) s).2.trace = written s.trace ∧
      lpduOf s (.of [0xC0]) ≠ [] := by
  decide +kernel

end Hdlc

end DlmsProfile
