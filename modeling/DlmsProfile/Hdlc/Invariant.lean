import DlmsProfile.Hdlc.Receiving

/-!
# What every Call keeps

The calls of the channel are put together from a dozen primitive steps: a call
to the session, a write, a sleep, the next decoded frame, a change of one
member. A relation between the state before and the state after that each
primitive step respects is respected by every call, whichever way it is found,
and an invariant is the special case of a relation.

`Intact` is the invariant every result starts from: the options are those the
channel was constructed with, the read buffer has its size, and the decoder is
one the stream law speaks of.

A step to the side touches neither the session nor the options, and all it
records is what the transport and the timer did.

## Main definitions

* `Hdlc.Aside`: Steps to the side.
* `Hdlc.ReadsOnly`: Steps that take reads and do nothing else to be recorded.
* `Hdlc.WaitPrimitives`, `Hdlc.SendPrimitives`, `Hdlc.LinkPrimitives`,
  `Hdlc.IntakePrimitives`, `Hdlc.Primitives`: A relation that the primitive steps
  of waiting, of sending, of every link call, of the receive loop and of every call
  respect.
* `Hdlc.SameMake`: What the constructor sets once is as it was.
* `Hdlc.Intact`: What holds of every reachable channel.

## Theorems

* `Hdlc.Primitives.exec`: Every call respects such a relation.
* `Hdlc.intact_of_reachable`: Every reachable channel is intact.
-/

namespace DlmsProfile

namespace Hdlc

variable {L : HdlcLib}

/-- The event concerns the transport or the timer and not the session. -/
def Event.isAside : Event L → Prop
  | .transport _ => True
  | .sleepFor _ _ => True
  | _ => False

/-- The session, the reassembler and the queue of APDUs are as they were, and
    nothing that concerns them was recorded. -/
structure Aside (s s' : State L) : Prop where
  options : s'.options = s.options
  session : s'.session = s.session
  reassembler : s'.reassembler = s.reassembler
  apdus : s'.pendingApdus = s.pendingApdus
  events : ∃ events, s'.trace = s.trace ++ events ∧ ∀ e ∈ events, e.isAside

/-- The byte strings handed to the stream, and what it answered. -/
def written (events : List (Event L)) : List (List UInt8 × TransportStatus) :=
  events.filterMap fun
    | .transport (.write bytes status) => some (bytes, status)
    | _ => none

theorem written_append (a b : List (Event L)) : written (a ++ b) = written a ++ written b :=
  List.filterMap_append

/-- Reads are no writes. -/
theorem written_reads (reads : List ReadEvent) :
    written (reads.map fun e => (.transport (.read e) : Event L)) = [] := by
  refine List.filterMap_eq_nil_iff.mpr fun e he => ?_
  rcases List.mem_map.mp he with ⟨read, -, rfl⟩
  rfl

namespace Aside

theorem refl (s : State L) : Aside s s :=
  ⟨rfl, rfl, rfl, rfl, [], (List.append_nil _).symm, fun _ h => absurd h List.not_mem_nil⟩

theorem trans (a b c : State L) (h : Aside a b) (h' : Aside b c) : Aside a c := by
  rcases h with ⟨ho, hs, hr, hp, ev, he, hall⟩
  rcases h' with ⟨ho', hs', hr', hp', ev', he', hall'⟩
  refine ⟨ho'.trans ho, hs'.trans hs, hr'.trans hr, hp'.trans hp, ev ++ ev', ?_, ?_⟩
  · rw [he', he, List.append_assoc]
  · intro e hmem
    rcases List.mem_append.mp hmem with h | h
    · exact hall e h
    · exact hall' e h

/-- One event more. -/
theorem one {s s' : State L} (event : Event L) (ho : s'.options = s.options)
    (hs : s'.session = s.session) (hr : s'.reassembler = s.reassembler)
    (hp : s'.pendingApdus = s.pendingApdus) (ht : s'.trace = s.trace ++ [event])
    (h : event.isAside) : Aside s s' :=
  ⟨ho, hs, hr, hp, [event], ht, fun _ hmem => (List.mem_singleton.mp hmem) ▸ h⟩

end Aside

/-- Beside the link, a write only takes a status and records itself. -/
theorem writeFrameBytes_aside (bytes : List UInt8) :
    Proc.Within Aside (writeFrameBytes (L := L) bytes) := by
  intro s
  rw [writeFrameBytes_snd]
  exact Aside.one _ rfl rfl rfl rfl rfl trivial

theorem sleepBeforeRetry_aside : Proc.Within Aside (sleepBeforeRetry (L := L)) := by
  intro s
  rw [sleepBeforeRetry]
  split
  · exact Aside.refl s
  · rw [check_snd]
    exact Aside.one _ rfl rfl rfl rfl rfl trivial

/-- Reading for a frame is beside the link too. -/
theorem receiveDecodedFrameLoop_aside (reads : List ReadEvent) (s : State L) :
    Aside s (receiveDecodedFrameLoop reads s).2 := by
  -- Every turn of the loop logs one read, which is an aside.
  induction reads generalizing s with
  | nil =>
      exact ⟨rfl, rfl, rfl, rfl, [], (List.append_nil _).symm,
        fun _ h => absurd h List.not_mem_nil⟩
  | cons e rest ih =>
      -- Each branch moves the decoder and the frames only, which `Aside` does not look at.
      have hread : ∀ s' : State L, s'.options = s.options → s'.session = s.session →
          s'.reassembler = s.reassembler → s'.pendingApdus = s.pendingApdus →
          s'.trace = s.trace ++ [.transport (.read e)] → Aside s s' :=
        fun s' ho hs hr hp ht => Aside.one _ ho hs hr hp ht trivial
      by_cases hok : e.status = .ok
      swap
      · rw [loop_readFailed hok]
        exact hread _ rfl rfl rfl rfl rfl
      by_cases he : e.bytes = []
      · rw [loop_readEmpty hok he]
        exact hread _ rfl rfl rfl rfl rfl
      by_cases hp : mapHdlcStatus (L.push s.decoder e.bytes).1 = .ok
      · rcases hf : (L.push s.decoder e.bytes).2.1 with _ | ⟨frame, frames⟩
        · rw [loop_noFrame hok he hp hf]
          exact hread _ rfl rfl rfl rfl rfl
        · rw [loop_completed hok he hp hf]
          exact hread _ rfl rfl rfl rfl rfl
      by_cases hm : mapHdlcStatus (L.push s.decoder e.bytes).1 = .needMoreData
      · rw [loop_continued hok he hm]
        refine Aside.trans s _ _ ?_ (ih _)
        exact hread _ rfl rfl rfl rfl rfl
      · rw [loop_rejected hok he hp hm]
        exact hread _ rfl rfl rfl rfl rfl

theorem receiveDecodedFrame_aside : Proc.Within Aside (receiveDecodedFrame (L := L)) := by
  intro s
  rcases hp : s.pendingHdlcFrames with _ | ⟨frame, frames⟩
  · by_cases hb : s.readBufferSize = 0
    · rw [receiveDecodedFrame_of_noBuffer hp hb]
      exact Aside.refl s
    · rw [receiveDecodedFrame_of_empty hp hb]
      exact receiveDecodedFrameLoop_aside s.reads s
  · rw [receiveDecodedFrame_of_pending hp]
    -- A frame that is pending costs no read.
    exact ⟨rfl, rfl, rfl, rfl, [], (List.append_nil _).symm, fun _ h => absurd h List.not_mem_nil⟩

/-- Reads were taken off the script, and nothing else was recorded. -/
def ReadsOnly (s s' : State L) : Prop :=
  ∃ taken, s.reads = taken ++ s'.reads ∧
    s'.trace = s.trace ++ taken.map fun e => .transport (.read e)

theorem receiveDecodedFrameLoop_readsOnly (reads : List ReadEvent) (s : State L)
    (hreads : s.reads = reads) : ReadsOnly s (receiveDecodedFrameLoop reads s).2 := by
  induction reads generalizing s with
  | nil => exact ⟨[], hreads, (List.append_nil _).symm⟩
  | cons e rest ih =>
      -- One read, however the turn that took it ends.
      have hone : ∀ s' : State L, s'.reads = rest →
          s'.trace = s.trace ++ [.transport (.read e)] → ReadsOnly s s' := fun s' hr ht =>
        ⟨[e], by rw [hreads, hr, List.singleton_append], ht⟩
      by_cases hok : e.status = .ok
      swap
      · rw [loop_readFailed hok]
        exact hone _ rfl rfl
      by_cases he : e.bytes = []
      · rw [loop_readEmpty hok he]
        exact hone _ rfl rfl
      by_cases hp : mapHdlcStatus (L.push s.decoder e.bytes).1 = .ok
      · rcases hf : (L.push s.decoder e.bytes).2.1 with _ | ⟨frame, frames⟩
        · rw [loop_noFrame hok he hp hf]
          exact hone _ rfl rfl
        · rw [loop_completed hok he hp hf]
          exact hone _ rfl rfl
      by_cases hm : mapHdlcStatus (L.push s.decoder e.bytes).1 = .needMoreData
      · rw [loop_continued hok he hm]
        rcases ih { afterRead e rest s with decoder := (L.push s.decoder e.bytes).2.2 } rfl with
          ⟨taken, htaken, htrace⟩
        refine ⟨e :: taken, ?_, ?_⟩
        · rw [hreads, List.cons_append]
          exact congrArg (e :: ·) htaken
        · rw [htrace, List.map_cons, ← List.singleton_append, ← List.append_assoc]
          rfl
      · rw [loop_rejected hok he hp hm]
        exact hone _ rfl rfl

/-- All the next frame costs is reads. -/
theorem receiveDecodedFrame_readsOnly : Proc.Within ReadsOnly (receiveDecodedFrame (L := L)) := by
  intro s
  rcases hp : s.pendingHdlcFrames with _ | ⟨frame, frames⟩
  · by_cases hb : s.readBufferSize = 0
    · rw [receiveDecodedFrame_of_noBuffer hp hb]
      exact ⟨[], rfl, (List.append_nil _).symm⟩
    · rw [receiveDecodedFrame_of_empty hp hb]
      exact receiveDecodedFrameLoop_readsOnly s.reads s rfl
  · rw [receiveDecodedFrame_of_pending hp]
    exact ⟨[], rfl, (List.append_nil _).symm⟩

/-- A relation that the primitive steps of waiting for a reply respect. -/
structure WaitPrimitives (R : State L → State L → Prop) : Prop where
  refl : ∀ s, R s s
  trans : ∀ a b c, R a b → R b c → R a c
  sessionReceive : ∀ frame, Proc.Within R (sessionReceive frame)
  writeFrameBytes : ∀ bytes, Proc.Within R (writeFrameBytes bytes)
  sleepBeforeRetry : Proc.Within R sleepBeforeRetry
  receiveDecodedFrame : Proc.Within R receiveDecodedFrame

/-- A relation that the primitive steps of sending and of releasing a link
    respect. -/
structure SendPrimitives (R : State L → State L → Prop) : Prop extends WaitPrimitives R where
  isOpen : Proc.Within R isOpen
  sessionBuild : ∀ build, Proc.Within R (sessionBuild build)
  emit : ∀ before bytes, Proc.Within R (log (.emit before bytes))
  limit : ∀ s n, R s { s with hdlcLimits := { s.hdlcLimits with maximumInformationFieldSize := n } }

/-- A relation that the primitive steps of sending and of the link calls
    respect. -/
structure LinkPrimitives (R : State L → State L → Prop) : Prop extends SendPrimitives R where
  ensureSession : Proc.Within R ensureSession

/-- A relation that the primitive steps of the receive loop respect. -/
structure IntakePrimitives (R : State L → State L → Prop) : Prop extends WaitPrimitives R where
  receiveReady : ∀ pollFinal,
    Proc.Within R (sessionBuild fun σ => L.buildReceiveReadyFrame σ pollFinal)
  decodeComplete : ∀ frame, Proc.Within R (decodeCompleteInformationToPendingApdu frame)
  reassembler : ∀ s r, R s { s with reassembler := r }

/-- A relation that every primitive step of the channel respects. -/
structure Primitives (R : State L → State L → Prop) : Prop extends LinkPrimitives R where
  openStream : Proc.Within R openStream
  closeStream : Proc.Within R closeStream
  decodeComplete : ∀ frame, Proc.Within R (decodeCompleteInformationToPendingApdu frame)
  reassembler : ∀ s r, R s { s with reassembler := r }
  pop : ∀ s, R s (pending.pop s)

/-- What the steps of a wait keep, with only the bytes written that are waited for, the
    wait keeps. -/
theorem retryLoop_within {R : State L → State L → Prop} {bytes : List UInt8}
    (htrans : ∀ a b c, R a b → R b c → R a c)
    (hcontrol : Proc.Within R (receiveSessionControlFrame (L := L)))
    (hsleep : Proc.Within R (sleepBeforeRetry (L := L)))
    (hwrite : Proc.Within R (writeFrameBytes (L := L) bytes)) (attempts : Nat) :
    Proc.Within R (retryLoop (L := L) bytes attempts) := by
  -- By induction on the attempts left: a retry sleeps, writes the same bytes and waits again.
  induction attempts with
  | zero => exact hcontrol
  | succ left ih =>
      intro s
      have hs := hcontrol s
      rcases hr : receiveSessionControlFrame s with ⟨⟨⟩ | status | _, s1⟩ <;> rw [hr] at hs
      · rw [retryLoop_of_done hr]
        exact hs
      · cases hagain : isRetriableReceiveStatus status with
        | false =>
            rw [retryLoop_of_fail hr (Or.inl hagain)]
            exact hs
        | true =>
            rw [retryLoop_of_retry hr hagain]
            refine htrans _ _ _ hs ?_
            exact Proc.within_bind htrans hsleep (fun _ =>
              Proc.within_bind htrans hwrite fun _ => ih) s1
      · rw [retryLoop_of_waiting hr]
        exact hs

namespace WaitPrimitives

variable {R : State L → State L → Prop}

/-- What takes a frame and shows it to the session. -/
theorem within_control (h : WaitPrimitives R) :
    Proc.Within R (receiveSessionControlFrame (L := L)) :=
  Proc.within_bind h.trans h.receiveDecodedFrame h.sessionReceive

theorem within_awaitWindow (h : WaitPrimitives R) : Proc.Within R (awaitWindow (L := L)) := by
  intro s
  rw [awaitWindow]
  split
  · exact h.refl s
  · exact h.within_control s

/-- What writes, sleeps and waits again. -/
theorem within_retryLoop (h : WaitPrimitives R) (bytes : List UInt8) (attempts : Nat) :
    Proc.Within R (retryLoop (L := L) bytes attempts) :=
  retryLoop_within h.trans h.within_control h.sleepBeforeRetry (h.writeFrameBytes bytes) attempts

theorem within_controlWithRetry (h : WaitPrimitives R) (bytes : List UInt8) :
    Proc.Within R (receiveSessionControlFrameWithRetry (L := L) bytes) := fun s =>
  h.within_retryLoop bytes s.options.hdlcRetryCount.toNat s

end WaitPrimitives

namespace SendPrimitives

variable {R : State L → State L → Prop}

theorem within_require (h : SendPrimitives R) (condition : State L → Bool)
    (status : ProfileStatus) : Proc.Within R (require condition status) := by
  intro s
  rw [require]
  split <;> exact h.refl s

theorem within_requireOpen (h : SendPrimitives R) : Proc.Within R (requireOpen (L := L)) := by
  refine Proc.within_bind h.trans h.isOpen fun opened => ?_
  cases opened with
  | true => exact Proc.within_pure h.refl ()
  | false => exact Proc.within_fail h.refl _

theorem within_checked (h : SendPrimitives R) {α : Type} (result : HdlcStatus × α) :
    Proc.Within R (checked (L := L) result) := by
  intro s
  rw [checked_snd]
  exact h.refl s

theorem within_disconnectDataLink (h : SendPrimitives R) :
    Proc.Within R (disconnectDataLink (L := L)) := by
  refine Proc.within_bind h.trans (h.within_require _ _) fun _ => ?_
  refine Proc.within_bind h.trans h.within_requireOpen fun _ => ?_
  refine Proc.within_bind h.trans (h.sessionBuild _) fun bytes => ?_
  exact Proc.within_bind h.trans (h.writeFrameBytes bytes) fun _ => h.within_controlWithRetry bytes

theorem within_buildSessionInformationFrame (h : SendPrimitives R) (information : List UInt8)
    (segmented pollFinal : Bool) :
    Proc.Within R (buildSessionInformationFrame (L := L) information segmented pollFinal) := by
  refine Proc.within_bind h.trans (h.sessionBuild _) fun bytes => ?_
  split
  · refine Proc.within_bind h.trans (Proc.within_gets h.refl _) fun limits => ?_
    exact Proc.within_bind h.trans (h.within_checked _) fun decoded => h.within_checked _
  · exact Proc.within_pure h.refl bytes

theorem within_buildFrame (h : SendPrimitives R) (lpdu : List UInt8) :
    Proc.Within R (buildFrame (L := L) lpdu) := by
  refine Proc.within_bind h.trans (Proc.within_gets h.refl _) fun options => ?_
  refine Proc.within_bind h.trans (Proc.within_gets h.refl _) fun limits => ?_
  refine Proc.within_bind h.trans (h.within_checked _) fun client => ?_
  refine Proc.within_bind h.trans (h.within_checked _) fun server => ?_
  exact Proc.within_bind h.trans (h.within_checked _) fun control => h.within_checked _

/-- What a chunk consists of. -/
theorem within_sendChunk (h : SendPrimitives R) (chunk : List UInt8) (finalFrame : Bool) :
    Proc.Within R (sendChunk (L := L) chunk finalFrame) := by
  refine Proc.within_bind h.trans h.within_awaitWindow fun _ => ?_
  refine Proc.within_bind h.trans (Proc.within_gets h.refl _) fun before => ?_
  refine Proc.within_bind h.trans (h.within_buildSessionInformationFrame _ _ _) fun bytes => ?_
  refine Proc.within_bind h.trans (h.emit before bytes) fun _ => ?_
  exact Proc.within_bind h.trans (h.writeFrameBytes bytes) fun _ => h.within_controlWithRetry bytes

theorem within_sendChunks (h : SendPrimitives R) (chunkSize left : Nat) (remaining : List UInt8) :
    Proc.Within R (sendChunks (L := L) chunkSize left remaining) := by
  induction left generalizing remaining with
  | zero => exact Proc.within_pure h.refl ()
  | succ left ih =>
      exact Proc.within_bind h.trans (h.within_sendChunk _ _) fun _ => ih _

/-- And so what a whole `SendApdu` does. -/
theorem within_sendApdu (h : SendPrimitives R) (apdu : ProfileByteView) :
    Proc.Within R (sendApdu (L := L) apdu) := by
  intro s
  rw [sendApdu]
  split
  · exact h.refl s
  split
  · exact h.refl s
  simp only
  split
  · exact h.refl s
  split
  · rw [sendSessionInformation]
    split
    · exact h.refl s
    -- A session sets the limits of the frames before it writes the chunks.
    · exact h.trans _ _ _ (h.limit s _) (h.within_sendChunks _ _ _ _)
  · exact Proc.within_bind h.trans (h.within_buildFrame _) h.writeFrameBytes s

end SendPrimitives

namespace LinkPrimitives

variable {R : State L → State L → Prop}

theorem within_connectDataLink (h : LinkPrimitives R) :
    Proc.Within R (connectDataLink (L := L)) := by
  refine Proc.within_bind h.trans (h.within_require _ _) fun _ => ?_
  refine Proc.within_bind h.trans h.within_requireOpen fun _ => ?_
  refine Proc.within_bind h.trans (h.within_require _ _) fun _ => ?_
  refine Proc.within_bind h.trans h.ensureSession fun _ => ?_
  refine Proc.within_bind h.trans (h.sessionBuild _) fun bytes => ?_
  exact Proc.within_bind h.trans (h.writeFrameBytes bytes) fun _ => h.within_controlWithRetry bytes

theorem within_acceptDataLink (h : LinkPrimitives R) : Proc.Within R (acceptDataLink (L := L)) := by
  refine Proc.within_bind h.trans (h.within_require _ _) fun _ => ?_
  refine Proc.within_bind h.trans h.within_requireOpen fun _ => ?_
  refine Proc.within_bind h.trans (h.within_require _ _) fun _ => ?_
  refine Proc.within_bind h.trans h.ensureSession fun _ => ?_
  refine Proc.within_bind h.trans h.within_control fun _ => ?_
  exact Proc.within_bind h.trans (h.sessionBuild _) h.writeFrameBytes

end LinkPrimitives

namespace IntakePrimitives

variable {R : State L → State L → Prop}

/-- What becomes of a completed frame. -/
theorem within_acceptCompleted (h : IntakePrimitives R) (completed : L.Frame)
    (hasCompleted : Bool) : Proc.Within R (acceptCompleted (L := L) completed hasCompleted) := by
  refine Proc.within_bind h.trans (h.sessionReceive completed) fun _ => ?_
  split
  · exact Proc.within_pure h.refl ()
  · refine Proc.within_bind h.trans (h.decodeComplete completed) fun _ => ?_
    exact Proc.within_bind h.trans (h.receiveReady true) h.writeFrameBytes

theorem within_decodeFrame (h : IntakePrimitives R) (frame : L.Frame) :
    Proc.Within R (decodeFrameToPendingApdu frame) := by
  intro s
  simp only [decodeFrameToPendingApdu]
  split
  · split
    · exact h.refl s
    -- Without a session the frame is decoded as it stands.
    · exact h.decodeComplete frame s
  split
  · exact h.reassembler s _
  split
  · exact h.reassembler s _
  -- With one, the reassembler completed it and the session has yet to accept it.
  · exact h.trans _ _ _ (h.reassembler s _) (h.within_acceptCompleted _ _ _)

/-- A turn of the receive loop. -/
theorem within_receiveTurn (h : IntakePrimitives R) : Proc.Within R (receiveTurn (L := L)) := by
  refine Proc.within_bind h.trans h.receiveDecodedFrame fun frame => ?_
  intro s
  rw [handleFrame_snd]
  exact h.within_decodeFrame frame s

/-- The loop in front of both overloads. -/
theorem within_awaitApdu (h : IntakePrimitives R) : Proc.Within R (awaitApdu (L := L)) :=
  PendingQueue.within_await h.refl h.trans
    (Proc.within_repeatUntil h.trans h.within_receiveTurn)

end IntakePrimitives

section Logs

variable {I : State L → Prop} {P : List (Event L) → Option ProfileStatus → Prop}

/-- What the receive loop records, and the error it ends with, told by what it
    does with a frame. `NeedMoreData` sends the loop round again, so a condition
    has to pass over it. -/
theorem awaitApdu_logsFrom (hP : Proc.Joins P)
    (hpass : ∀ {events}, P events (some .needMoreData) → P events none)
    (hread : Proc.LogsFrom I (·.trace) P receiveDecodedFrame)
    (hframe : ∀ frame, Proc.LogsFrom I (·.trace) P (decodeFrameToPendingApdu frame)) :
    Proc.LogsFrom I (·.trace) P (awaitApdu (L := L)) := by
  have hturn : Proc.LogsFrom I (·.trace) P (receiveTurn (L := L)) := by
    refine Proc.logsFrom_bind hP hread fun frame s hs => ?_
    have hone := hframe frame s hs
    -- Handling a frame only changes the outcome, so the log is that of the decode.
    rw [← handleFrame_snd frame s] at hone
    rcases hone with ⟨hI, events, htrace, hevents⟩
    refine ⟨hI, events, htrace, ?_⟩
    rcases hd : decodeFrameToPendingApdu frame s with ⟨⟨⟩ | status | _, s1⟩ <;> rw [hd] at hevents
    · rw [handleFrame_of_done hd]
      exact hevents
    -- NeedMoreData is the one failure that the loop turns into another turn.
    · by_cases hne : status = .needMoreData
      · obtain rfl := hne
        rw [handleFrame_of_more hd]
        exact hpass hevents
      · rw [handleFrame_of_fail hd hne]
        exact hevents
    · rw [handleFrame_of_waiting hd]
      exact hevents
  exact PendingQueue.logsFrom_await hP (Proc.logsFrom_repeatUntil hP hturn)

/-- The same for a condition that asks nothing of the state. -/
theorem awaitApdu_logs (hP : Proc.Joins P)
    (hpass : ∀ {events}, P events (some .needMoreData) → P events none)
    (hread : Proc.Logs (·.trace) P receiveDecodedFrame)
    (hframe : ∀ frame, Proc.Logs (·.trace) P (decodeFrameToPendingApdu frame)) :
    Proc.Logs (·.trace) P (awaitApdu (L := L)) :=
  Proc.logs_iff_logsFrom.mpr (awaitApdu_logsFrom hP hpass (Proc.logs_iff_logsFrom.mp hread)
    fun frame => Proc.logs_iff_logsFrom.mp (hframe frame))

/-- What a receive call of either overload records is what the loop records. -/
theorem receive_logsFrom (hP : Proc.Joins P) (hawait : Proc.LogsFrom I (·.trace) P awaitApdu)
    (hpop : ∀ s, I s → I (pending.pop s)) (r : ReceiveCall) (s : State L) (hs : I s) :
    I ((channel L).call r s).2 ∧ ∃ events, ((channel L).call r s).2.trace = s.trace ++ events ∧
      P events ((channel L).call r s).1.error :=
  PendingQueue.logsFrom_call hP hawait hpop (fun _ => rfl) r s hs

theorem receive_logs (hP : Proc.Joins P) (hawait : Proc.Logs (·.trace) P awaitApdu)
    (r : ReceiveCall) (s : State L) :
    ∃ events, ((channel L).call r s).2.trace = s.trace ++ events ∧
      P events ((channel L).call r s).1.error :=
  (receive_logsFrom hP (Proc.logs_iff_logsFrom.mp hawait) (fun _ _ => trivial) r s trivial).2

end Logs

/-- What each of the calls keeps, a run of them keeps. -/
theorem run_preserves {I : State L → Prop} {ops : List Operation}
    (h : ∀ op ∈ ops, ∀ s, I s → I (exec op s).2) {s : State L} (hs : I s) :
    I (run ops s).2 := by
  -- By induction on the operations; a call still waiting ends the run.
  induction ops generalizing s with
  | nil => exact hs
  | cons op ops ih =>
      have hfirst := h op List.mem_cons_self s hs
      rw [run]
      split
      · exact hfirst
      · exact ih (fun op' hop => h op' (List.mem_cons_of_mem op hop)) hfirst

/-- What a new channel has and every call keeps, every reachable channel has. -/
theorem Reachable.preserves {I : State L → Prop} {options : ApduChannelOptions} {s : State L}
    (h : Reachable L options s)
    (hnew : ∀ start : State L, start.toChannel = newChannel L options → I start)
    (hcall : ∀ op s, I s → I (exec op s).2) : I s := by
  rcases h with ⟨start, ops, hstart, -, rfl⟩
  exact run_preserves (fun op _ => hcall op) (hnew start hstart)

namespace Primitives

variable {R : State L → State L → Prop}

/-- The receive loop uses some of the primitive steps. -/
theorem intake (h : Primitives R) : IntakePrimitives R :=
  ⟨h.toWaitPrimitives, fun _ => h.sessionBuild _, h.decodeComplete, h.reassembler⟩

theorem within_call (h : Primitives R) (call : ReceiveCall) (s : State L) :
    R s ((channel L).call call s).2 :=
  PendingQueue.within_call h.refl h.trans h.intake.within_awaitApdu h.pop call s

/-- Every call respects the relation, whichever way it is found. -/
theorem exec (h : Primitives R) (op : Operation) (s : State L) : R s (Hdlc.exec op s).2 := by
  cases op with
  | «open» => exact h.openStream s
  | close => exact h.closeStream s
  | isOpen => exact h.isOpen s
  | connectDataLink => exact h.within_connectDataLink s
  | acceptDataLink => exact h.within_acceptDataLink s
  | disconnectDataLink => exact h.within_disconnectDataLink s
  | send apdu => exact h.within_sendApdu apdu s
  | receive call => exact h.within_call call s

theorem run (h : Primitives R) (ops : List Operation) (s : State L) : R s (Hdlc.run ops s).2 :=
  run_preserves (fun op _ _ hs => h.trans _ _ _ hs (h.exec op _)) (h.refl s)

end Primitives

/-- What the constructor sets once is as it was. -/
def SameMake (s s' : State L) : Prop :=
  s'.options = s.options ∧ s'.readBufferSize = s.readBufferSize

theorem receiveDecodedFrameLoop_sameMake (reads : List ReadEvent) (s : State L) :
    SameMake s (receiveDecodedFrameLoop reads s).2 := by
  -- No branch sets the options or the size of the read buffer.
  induction reads generalizing s with
  | nil => exact ⟨rfl, rfl⟩
  | cons e rest ih =>
      by_cases hok : e.status = .ok
      swap
      · rw [loop_readFailed hok]
        exact ⟨rfl, rfl⟩
      by_cases he : e.bytes = []
      · rw [loop_readEmpty hok he]
        exact ⟨rfl, rfl⟩
      by_cases hp : mapHdlcStatus (L.push s.decoder e.bytes).1 = .ok
      · rcases hf : (L.push s.decoder e.bytes).2.1 with _ | ⟨frame, frames⟩
        · rw [loop_noFrame hok he hp hf]
          exact ⟨rfl, rfl⟩
        · rw [loop_completed hok he hp hf]
          exact ⟨rfl, rfl⟩
      by_cases hm : mapHdlcStatus (L.push s.decoder e.bytes).1 = .needMoreData
      · rw [loop_continued hok he hm]
        exact ih _
      · rw [loop_rejected hok he hp hm]
        exact ⟨rfl, rfl⟩

theorem sameMake_of_intake {s s' : State L} (h : SameIntake s s') : SameMake s s' :=
  ⟨h.options, h.buffer⟩

/-- Nothing a call does changes them. -/
theorem sameMake_primitives : Primitives (SameMake (L := L)) where
  refl s := ⟨rfl, rfl⟩
  trans _ _ _ h h' := ⟨h'.1.trans h.1, h'.2.trans h.2⟩
  openStream s := by
    rw [openStream, check_snd]
    exact ⟨rfl, rfl⟩
  closeStream s := by
    rw [closeStream, check_snd]
    exact ⟨rfl, rfl⟩
  isOpen s := ⟨rfl, rfl⟩
  ensureSession s := by
    simp only [ensureSession]
    split
    · exact ⟨rfl, rfl⟩
    split <;> exact ⟨rfl, rfl⟩
  sessionBuild build s := sameMake_of_intake (sessionBuild_sameIntake build s)
  sessionReceive frame s := sameMake_of_intake (sessionReceive_sameIntake frame s)
  writeFrameBytes bytes s := sameMake_of_intake (writeFrameBytes_sameIntake bytes s)
  sleepBeforeRetry s := sameMake_of_intake (sleepBeforeRetry_sameIntake s)
  receiveDecodedFrame s := by
    rcases hp : s.pendingHdlcFrames with _ | ⟨frame, frames⟩
    · by_cases hb : s.readBufferSize = 0
      · rw [receiveDecodedFrame_of_noBuffer hp hb]
        exact ⟨rfl, rfl⟩
      · rw [receiveDecodedFrame_of_empty hp hb]
        exact receiveDecodedFrameLoop_sameMake s.reads s
    · rw [receiveDecodedFrame_of_pending hp]
      exact ⟨rfl, rfl⟩
  emit before bytes s := ⟨rfl, rfl⟩
  limit s n := ⟨rfl, rfl⟩
  decodeComplete frame s := sameMake_of_intake (decodeComplete_sameIntake frame s)
  reassembler s r := ⟨rfl, rfl⟩
  pop s := ⟨rfl, rfl⟩

/-- So they are what the constructor made them. -/
theorem make_of_reachable {options : ApduChannelOptions} {s : State L}
    (h : Reachable L options s) :
    s.options = options ∧ s.readBufferSize = scratchSize options := by
  rcases h with ⟨start, ops, hnew, -, rfl⟩
  -- A run keeps both, so what the constructor set is still there.
  rcases sameMake_primitives.run ops start with ⟨ho, hb⟩
  have hoptions : start.toChannel.options = (newChannel L options).options := by rw [hnew]
  have hbuffer : start.toChannel.readBufferSize = (newChannel L options).readBufferSize := by
    rw [hnew]
  exact ⟨ho.trans hoptions, hb.trans hbuffer⟩

/-- The limits the stream decoder of a channel works within. -/
def decoderLimits (L : HdlcLib) (options : ApduChannelOptions) : HdlcCodecLimits :=
  (newChannel L options).hdlcLimits

/-- What holds of every reachable channel. -/
structure Intact {limits : HdlcCodecLimits} (law : HdlcStreamLaw L limits)
    (options : ApduChannelOptions) (s : State L) : Prop where
  buffer : s.readBufferSize = scratchSize options
  live : law.live s.decoder
  options : s.options = options

section Intact

variable {options : ApduChannelOptions} {law : HdlcStreamLaw L (decoderLimits L options)}

/-- Every branch leaves a decoder that is live. -/
theorem receiveDecodedFrameLoop_intact (reads : List ReadEvent) {s : State L}
    (hs : Intact law options s) : Intact law options (receiveDecodedFrameLoop reads s).2 := by
  induction reads generalizing s with
  | nil => exact ⟨hs.buffer, hs.live, hs.options⟩
  | cons e rest ih =>
      -- The decoder is live after any push, whatever the push reports.
      have hpush := law.follows.push_live e.bytes hs.live
      by_cases hok : e.status = .ok
      swap
      · rw [loop_readFailed hok]
        exact ⟨hs.buffer, hs.live, hs.options⟩
      by_cases he : e.bytes = []
      · rw [loop_readEmpty hok he]
        exact ⟨hs.buffer, hs.live, hs.options⟩
      by_cases hst : mapHdlcStatus (L.push s.decoder e.bytes).1 = .ok
      · rcases hf : (L.push s.decoder e.bytes).2.1 with _ | ⟨frame, frames⟩
        · rw [loop_noFrame hok he hst hf]
          exact ⟨hs.buffer, hpush, hs.options⟩
        · rw [loop_completed hok he hst hf]
          exact ⟨hs.buffer, hpush, hs.options⟩
      by_cases hm : mapHdlcStatus (L.push s.decoder e.bytes).1 = .needMoreData
      · rw [loop_continued hok he hm]
        exact ih ⟨hs.buffer, hpush, hs.options⟩
      · rw [loop_rejected hok he hst hm]
        -- A rejected push resets the decoder, which is live after that too.
        exact ⟨hs.buffer, (law.reset hpush).1, hs.options⟩

theorem receiveDecodedFrame_intact {s : State L} (hs : Intact law options s) :
    Intact law options (receiveDecodedFrame s).2 := by
  rcases hp : s.pendingHdlcFrames with _ | ⟨frame, frames⟩
  · by_cases hb : s.readBufferSize = 0
    · rw [receiveDecodedFrame_of_noBuffer hp hb]
      exact hs
    · rw [receiveDecodedFrame_of_empty hp hb]
      exact receiveDecodedFrameLoop_intact s.reads hs
  · rw [receiveDecodedFrame_of_pending hp]
    exact ⟨hs.buffer, hs.live, hs.options⟩

theorem newChannel_limits_of_made
    (h : (makeHdlcSessionOptions L options).1 = .ok) :
    decoderLimits L options = (makeHdlcSessionOptions L options).2.limits := by
  simp only [decoderLimits, newChannel, h, if_true]

/-- A decoder is replaced by a new one for the same limits only. -/
theorem ensureSession_intact {s : State L} (hs : Intact law options s) :
    Intact law options (ensureSession s).2 := by
  simp only [ensureSession, hs.options]
  split
  · exact hs
  next hmade =>
    split
    -- A new session takes its decoder from the same limits, so it is live like the first one.
    · have hdecoder : L.newDecoder (makeHdlcSessionOptions L options).2.limits =
          L.newDecoder (decoderLimits L options) := by
        rw [newChannel_limits_of_made (not_not.mp hmade)]
      refine ⟨hs.buffer, ?_, rfl⟩
      simp only
      rw [hdecoder]
      exact law.new.1
    · exact hs

/-- As does every other step of a call. -/
theorem intact_primitives :
    Primitives (fun s s' : State L => Intact law options s → Intact law options s') where
  refl _ h := h
  trans _ _ _ h h' hs := h' (h hs)
  openStream s hs := by
    rw [openStream, check_snd]
    exact ⟨hs.buffer, hs.live, hs.options⟩
  closeStream s hs := by
    rw [closeStream, check_snd]
    exact ⟨hs.buffer, (law.reset hs.live).1, hs.options⟩
  isOpen s hs := ⟨hs.buffer, hs.live, hs.options⟩
  ensureSession s hs := ensureSession_intact hs
  sessionBuild build s hs := by
    rw [sessionBuild_snd]
    exact ⟨hs.buffer, hs.live, hs.options⟩
  sessionReceive frame s hs := by
    rw [sessionReceive_snd]
    exact ⟨hs.buffer, hs.live, hs.options⟩
  writeFrameBytes bytes s hs := by
    rw [writeFrameBytes_snd]
    exact ⟨hs.buffer, hs.live, hs.options⟩
  sleepBeforeRetry s hs := by
    rw [sleepBeforeRetry]
    split
    · exact hs
    · rw [check_snd]
      exact ⟨hs.buffer, hs.live, hs.options⟩
  receiveDecodedFrame s hs := receiveDecodedFrame_intact hs
  emit before bytes s hs := ⟨hs.buffer, hs.live, hs.options⟩
  limit s n hs := ⟨hs.buffer, hs.live, hs.options⟩
  decodeComplete frame s hs := by
    have hsame := decodeComplete_sameIntake frame s
    exact ⟨hsame.buffer.trans hs.buffer, hsame.decoder ▸ hs.live, hsame.options.trans hs.options⟩
  reassembler s r hs := ⟨hs.buffer, hs.live, hs.options⟩
  pop s hs := ⟨hs.buffer, hs.live, hs.options⟩

/-- Every reachable channel is intact. -/
theorem intact_of_reachable {s : State L} (h : Reachable L options s) :
    Intact law options s := by
  refine h.preserves (fun start hnew => ⟨?_, ?_, ?_⟩) fun op s => intact_primitives.exec op s
  · rw [hnew]
    rfl
  · have hdecoder : start.decoder = L.newDecoder (decoderLimits L options) := by
      rw [hnew]
      rfl
    rw [hdecoder]
    exact law.new.1
  · rw [hnew]
    rfl

end Intact

end Hdlc

end DlmsProfile
