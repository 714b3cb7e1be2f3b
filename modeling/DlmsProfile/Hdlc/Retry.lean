import DlmsProfile.Hdlc.Segmentation
import DlmsProfile.Library.Retry

/-!
# Waiting for a Reply, and how often a Frame is written

`ReceiveSessionControlFrameWithRetry` is the bounded loop of the library: an
attempt takes a frame and shows it to the session, and before the next one the
channel sleeps and writes its frame again. The source counts attempts in a byte
and compares it with a byte, so that at the largest retry count the comparison
comes before the counter could wrap; the loop of the channel counts the attempts
left, and the two are the same.

An attempt neither sleeps nor writes. So of what the loop recorded the sleeps and
writes are those between its attempts: the same for every attempt but the last.
Around it lies the loop of `SendApdu` over its I-frames, and what that wrote is
counted by I-frames and their copies.

## Main definitions

* `Hdlc.retryFrom`: The loop, counting in a byte as the source does.
* `Hdlc.beforeRetry`: What is done between two attempts.
* `Hdlc.paced`: The sleeps and writes of a trace.
* `Hdlc.Broken`: What is recorded of a sleep or write that failed.
* `Hdlc.Retries`: How often the loop tries, what it writes, what it returns.
* `Hdlc.Copied`: So many I-frames, and so many copies of each of them.

## Theorems

* `Hdlc.retryFrom_eq`: Counting up in a byte is counting down.
* `Hdlc.retryLoop_retries`: The loop is the one of the library.
* `Hdlc.sendApdu_copied`: What a call writes.
-/

namespace DlmsProfile

namespace Hdlc

variable {L : HdlcLib}

/-- One byte further there is less to go. -/
theorem remaining_lt {attempt limit : UInt8} (h : ¬ limit ≤ attempt) :
    255 - (attempt + 1).toNat < 255 - attempt.toNat := by
  rw [UInt8.le_iff_toNat_le] at h
  have hlimit := limit.toNat_lt
  have hsucc : (attempt + 1).toNat = attempt.toNat + 1 := by
    rw [UInt8.toNat_add, Nat.mod_eq_of_lt]
    · rfl
    · have h1 : (1 : UInt8).toNat = 1 := rfl
      omega
  omega

/-- The loop of `ReceiveSessionControlFrameWithRetry`, with its counter. -/
def retryFrom (retryFrameBytes : List UInt8) (attempt : UInt8) : Call L Unit := fun s =>
  match receiveSessionControlFrame s with
  | (.done (), s1) => (.done (), s1)
  | (.waiting, s1) => (.waiting, s1)
  | (.fail status, s1) =>
    if isRetriableReceiveStatus status = false then (.fail status, s1)
    else if h : s1.options.hdlcRetryCount ≤ attempt then (.fail status, s1)
    else
      (sleepBeforeRetry >>= fun _ => writeFrameBytes retryFrameBytes >>= fun _ =>
        retryFrom retryFrameBytes (attempt + 1)) s1
termination_by 255 - attempt.toNat
decreasing_by exact remaining_lt h

theorem retryFrom_of_done {bytes : List UInt8} {attempt : UInt8} {s s1 : State L}
    (h : receiveSessionControlFrame s = (.done (), s1)) :
    retryFrom bytes attempt s = (.done (), s1) := by
  rw [retryFrom, h]

theorem retryFrom_of_waiting {bytes : List UInt8} {attempt : UInt8} {s s1 : State L}
    (h : receiveSessionControlFrame s = (.waiting, s1)) :
    retryFrom bytes attempt s = (.waiting, s1) := by
  rw [retryFrom, h]

theorem retryFrom_of_fail {bytes : List UInt8} {attempt : UInt8} {s s1 : State L}
    {status : ProfileStatus} (h : receiveSessionControlFrame s = (.fail status, s1))
    (hlast : isRetriableReceiveStatus status = false ∨ s1.options.hdlcRetryCount ≤ attempt) :
    retryFrom bytes attempt s = (.fail status, s1) := by
  rw [retryFrom, h]
  simp only
  rcases hlast with hlast | hlast
  · rw [if_pos hlast]
  · rw [dif_pos hlast, ite_self]

theorem retryFrom_of_retry {bytes : List UInt8} {attempt : UInt8} {s s1 : State L}
    {status : ProfileStatus} (h : receiveSessionControlFrame s = (.fail status, s1))
    (hagain : isRetriableReceiveStatus status = true)
    (hleft : ¬ s1.options.hdlcRetryCount ≤ attempt) :
    retryFrom bytes attempt s =
      (sleepBeforeRetry >>= fun _ => writeFrameBytes bytes >>= fun _ =>
        retryFrom bytes (attempt + 1)) s1 := by
  rw [retryFrom, h]
  simp only
  rw [hagain, if_neg Bool.noConfusion, dif_neg hleft]

/-- Counting up to the retry count in a byte is counting down to zero. -/
theorem retryFrom_eq (bytes : List UInt8) (left : Nat) (attempt : UInt8) (s : State L)
    (h : s.options.hdlcRetryCount.toNat = attempt.toNat + left) :
    retryFrom bytes attempt s = retryLoop bytes left s := by
  induction left generalizing attempt s with
  | zero =>
      have hmake := sameMake_primitives.toWaitPrimitives.within_control s
      rcases hr : receiveSessionControlFrame s with ⟨⟨⟩ | status | _, s1⟩ <;> rw [hr] at hmake
      · rw [retryFrom_of_done hr, retryLoop_of_done hr]
      · have hlast : s1.options.hdlcRetryCount ≤ attempt := by
          rw [hmake.1, UInt8.le_iff_toNat_le]
          omega
        rw [retryFrom_of_fail hr (Or.inr hlast), retryLoop_of_fail hr (Or.inr rfl)]
      · rw [retryFrom_of_waiting hr, retryLoop_of_waiting hr]
  | succ left ih =>
      have hmake := sameMake_primitives.toWaitPrimitives.within_control s
      rcases hr : receiveSessionControlFrame s with ⟨⟨⟩ | status | _, s1⟩ <;> rw [hr] at hmake
      · rw [retryFrom_of_done hr, retryLoop_of_done hr]
      · by_cases hagain : isRetriableReceiveStatus status = true
        · have hleft : ¬ s1.options.hdlcRetryCount ≤ attempt := by
            rw [hmake.1, UInt8.le_iff_toNat_le]
            omega
          rw [retryFrom_of_retry hr hagain hleft, retryLoop_of_retry hr hagain]
          -- Neither the sleep nor the write changes the retry count.
          have hsleep := sameMake_primitives.sleepBeforeRetry s1
          rcases hs : sleepBeforeRetry s1 with ⟨⟨⟩ | status' | _, s2⟩ <;> rw [hs] at hsleep
          · rw [Proc.bind_of_done _ hs, Proc.bind_of_done _ hs]
            have hwrite := sameMake_primitives.writeFrameBytes bytes s2
            rcases hw : writeFrameBytes bytes s2 with ⟨⟨⟩ | status' | _, s3⟩ <;> rw [hw] at hwrite
            · rw [Proc.bind_of_done _ hw, Proc.bind_of_done _ hw]
              refine ih (attempt + 1) s3 ?_
              have hoptions : s3.options = s.options :=
                hwrite.1.trans (hsleep.1.trans hmake.1)
              have hlimit := s.options.hdlcRetryCount.toNat_lt
              rw [hoptions, h, UInt8.toNat_add, Nat.mod_eq_of_lt]
              · have h1 : (1 : UInt8).toNat = 1 := rfl
                omega
              · have h1 : (1 : UInt8).toNat = 1 := rfl
                omega
            · rw [Proc.bind_of_fail _ hw, Proc.bind_of_fail _ hw]
            · rw [Proc.bind_of_waiting _ hw, Proc.bind_of_waiting _ hw]
          · rw [Proc.bind_of_fail _ hs, Proc.bind_of_fail _ hs]
          · rw [Proc.bind_of_waiting _ hs, Proc.bind_of_waiting _ hs]
        · have hlast := eq_false_of_ne_true hagain
          rw [retryFrom_of_fail hr (Or.inl hlast), retryLoop_of_fail hr (Or.inl hlast)]
      · rw [retryFrom_of_waiting hr, retryLoop_of_waiting hr]

/-- What is done between two attempts. -/
def beforeRetry (bytes : List UInt8) : Call L Unit :=
  sleepBeforeRetry >>= fun _ => writeFrameBytes bytes

/-- The loop is the bounded one of the library. -/
theorem retryLoop_eq (bytes : List UInt8) (left : Nat) :
    retryLoop (L := L) bytes left =
      Proc.retry receiveSessionControlFrame isRetriableReceiveStatus (beforeRetry bytes) left := by
  -- On the retries left, by what the attempt brings.
  induction left with
  | zero => rfl
  | succ left ih =>
      funext s
      rcases hr : receiveSessionControlFrame s with ⟨⟨⟩ | status | _, s1⟩
      · rw [retryLoop_of_done hr, Proc.retry_of_settled, hr]
        rintro ⟨e, he, -⟩
        rw [hr] at he
        cases he
      · by_cases hagain : isRetriableReceiveStatus status = true
        · rw [retryLoop_of_retry hr hagain, Proc.retry_of_worthy left hr hagain, ih, beforeRetry,
            Proc.bind_assoc]
        · have hlast := eq_false_of_ne_true hagain
          rw [retryLoop_of_fail hr (Or.inl hlast), Proc.retry_of_settled, hr]
          rintro ⟨e, he, hworthy⟩
          rw [hr] at he
          cases he
          exact hagain hworthy
      · rw [retryLoop_of_waiting hr, Proc.retry_of_settled, hr]
        rintro ⟨e, he, -⟩
        rw [hr] at he
        cases he

/-- The event is a sleep or a write. -/
def Event.isPace : Event L → Bool
  | .sleepFor _ _ => true
  | .transport (.write _ _) => true
  | _ => false

/-- The sleeps and writes of a trace. -/
def paced (events : List (Event L)) : List (Event L) := events.filter Event.isPace

theorem paced_append (a b : List (Event L)) : paced (a ++ b) = paced a ++ paced b :=
  List.filter_append _ _

/-- The sleep in front of a retry, if the delay asks for one. -/
def slept (delay : UInt32) : List (Event L) :=
  if delay = 0 then [] else [.sleepFor delay .ok]

/-- What one retry records: a sleep, and the frame once more. -/
def retryTurn (delay : UInt32) (bytes : List UInt8) : List (Event L) :=
  slept delay ++ [.transport (.write bytes .ok)]

/-- What is recorded of a retry that fails before its attempt, and the status. -/
inductive Broken (delay : UInt32) (bytes : List UInt8) : ProfileStatus → List (Event L) → Prop
  | sleep {status : TransportStatus} (hdelay : delay ≠ 0) (hne : status ≠ .ok) :
    Broken delay bytes (mapTransportStatus status) [.sleepFor delay status]
  | write {status : TransportStatus} (hne : status ≠ .ok) :
    Broken delay bytes (mapTransportStatus status)
      (slept delay ++ [.transport (.write bytes status)])

/-- An attempt neither sleeps nor writes. -/
theorem control_paced (s : State L) :
    paced (receiveSessionControlFrame s).2.trace = paced s.trace := by
  -- To wait for a frame takes reads, and these are left out.
  have hreads : paced (receiveDecodedFrame s).2.trace = paced s.trace := by
    rcases receiveDecodedFrame_readsOnly s with ⟨taken, -, htrace⟩
    have hnone : paced (taken.map fun e => (.transport (.read e) : Event L)) = [] := by
      refine List.filter_eq_nil_iff.mpr fun e he => ?_
      rcases List.mem_map.mp he with ⟨read, -, rfl⟩
      exact Bool.false_ne_true
    rw [htrace, paced_append, hnone, List.append_nil]
  rw [receiveSessionControlFrame]
  rcases hr : receiveDecodedFrame s with ⟨frame | status | _, s1⟩ <;> rw [hr] at hreads
  · rw [Proc.bind_of_done _ hr, sessionReceive, check_snd, ← hreads]
    exact (paced_append _ _).trans (List.append_nil _)
  · rw [Proc.bind_of_fail _ hr, hreads]
  · rw [Proc.bind_of_waiting _ hr, hreads]

/-- The sleep is skipped, or answered. -/
theorem sleepBeforeRetry_cases (s : State L) :
    (∃ s', sleepBeforeRetry s = (.done (), s') ∧
      s'.trace = s.trace ++ slept s.options.hdlcRetryDelayMilliseconds) ∨
    ∃ status s', s.options.hdlcRetryDelayMilliseconds ≠ 0 ∧ status ≠ .ok ∧
      sleepBeforeRetry s = (.fail (mapTransportStatus status), s') ∧
      s'.trace = s.trace ++ [.sleepFor s.options.hdlcRetryDelayMilliseconds status] := by
  rw [sleepBeforeRetry, slept]
  -- Without a delay the timer is not asked.
  by_cases hdelay : s.options.hdlcRetryDelayMilliseconds = 0
  · rw [if_pos hdelay, if_pos hdelay]
    exact Or.inl ⟨s, rfl, (List.append_nil _).symm⟩
  · rw [if_neg hdelay, if_neg hdelay]
    by_cases hok : s.sleeps.headD .ok = .ok
    · rw [hok]
      exact Or.inl ⟨_, rfl, rfl⟩
    · have hne : mapTransportStatus (s.sleeps.headD .ok) ≠ .ok := fun h =>
        hok (mapTransportStatus_eq_ok.mp h)
      exact Or.inr ⟨_, _, hdelay, hok, check_of_ne hne _, rfl⟩

/-- Between two attempts there is one sleep if there is a delay, and one write. -/
theorem beforeRetry_cases (bytes : List UInt8) (s : State L) :
    (∃ s', beforeRetry bytes s = (.done (), s') ∧ paced s'.trace =
      paced s.trace ++ retryTurn s.options.hdlcRetryDelayMilliseconds bytes) ∨
    ∃ status s' last, beforeRetry bytes s = (.fail status, s') ∧
      Broken s.options.hdlcRetryDelayMilliseconds bytes status last ∧
      paced s'.trace = paced s.trace ++ last := by
  have hslept : ∀ delay : UInt32, paced (slept (L := L) delay) = slept delay := by
    intro delay
    rw [slept]
    split <;> rfl
  rcases sleepBeforeRetry_cases s with
    ⟨s1, hsleep, htrace⟩ | ⟨status, s1, hdelay, hne, hsleep, htrace⟩
  -- The sleep is over. The write behind it succeeds or breaks off the retries.
  · by_cases hok : s1.writes.headD .ok = .ok
    · refine Or.inl ⟨wrote bytes s1, ?_, ?_⟩
      · rw [beforeRetry, Proc.bind_of_done _ hsleep, writeFrameBytes_of_ok hok]
      · rw [wrote, hok, htrace, paced_append, paced_append, hslept, retryTurn, List.append_assoc]
        rfl
    · refine Or.inr ⟨_, wrote bytes s1, _, ?_, Broken.write hok, ?_⟩
      · rw [beforeRetry, Proc.bind_of_done _ hsleep, writeFrameBytes_of_ne hok]
      · rw [wrote, htrace, paced_append, paced_append, hslept, List.append_assoc]
        rfl
  · refine Or.inr ⟨_, s1, _, Proc.bind_of_fail _ hsleep, Broken.sleep hdelay hne, ?_⟩
    rw [htrace, paced_append]
    rfl

/-- How the loop runs with the given number of attempts after the first: some
    attempts come to nothing, each followed by a retry, and then one attempt is
    answered with, or a sleep or write that failed. -/
inductive Retries (bytes : List UInt8) (limit : Nat) (s : State L) :
    Outcome ProfileStatus Unit × State L → Prop
  | settled {j : Nat} {s' : State L} (hj : j ≤ limit)
    (hrounds : Proc.Rounds receiveSessionControlFrame isRetriableReceiveStatus (beforeRetry bytes)
      j s s')
    (hlast : (∀ status, (receiveSessionControlFrame s').1 = .fail status →
      isRetriableReceiveStatus status = false) ∨ j = limit)
    (hpaced : paced (receiveSessionControlFrame s').2.trace = paced s.trace ++
      (List.replicate j (retryTurn s.options.hdlcRetryDelayMilliseconds bytes)).flatten) :
    Retries bytes limit s (receiveSessionControlFrame s')
  | broken {j : Nat} {s' s1 s2 : State L} {status failure : ProfileStatus} {last : List (Event L)}
    (hj : j < limit)
    (hrounds : Proc.Rounds receiveSessionControlFrame isRetriableReceiveStatus (beforeRetry bytes)
      j s s')
    (hattempt : receiveSessionControlFrame s' = (.fail status, s1))
    (hagain : isRetriableReceiveStatus status = true)
    (hbetween : beforeRetry bytes s1 = (.fail failure, s2))
    (hlast : Broken s.options.hdlcRetryDelayMilliseconds bytes failure last)
    (hpaced : paced s2.trace = paced s.trace ++
      (List.replicate j (retryTurn s.options.hdlcRetryDelayMilliseconds bytes)).flatten ++ last) :
    Retries bytes limit s (.fail failure, s2)

/-- The loop is the bounded one, and its rounds leave the sleeps and writes of a
    retry each. -/
theorem retryLoop_retries (bytes : List UInt8) (limit : Nat) (s : State L) :
    Retries bytes limit s (retryLoop bytes limit s) := by
  have hcontrol : Proc.Preserves (fun s' : State L => s'.options = s.options)
      receiveSessionControlFrame := fun s' h =>
    (sameMake_primitives.toWaitPrimitives.within_control s').1.trans h
  have hbefore : Proc.Preserves (fun s' : State L => s'.options = s.options) (beforeRetry bytes) :=
    fun s' h => (Proc.within_bind sameMake_primitives.trans sameMake_primitives.sleepBeforeRetry
      (fun _ => sameMake_primitives.writeFrameBytes bytes) s').1.trans h
  -- What a retry that succeeds records.
  have hturn : ∀ s1 s2 : State L, s1.options = s.options →
      beforeRetry bytes s1 = (.done (), s2) → paced s2.trace =
        paced s1.trace ++ retryTurn s.options.hdlcRetryDelayMilliseconds bytes := by
    intro s1 s2 hoptions h
    rcases beforeRetry_cases bytes s1 with ⟨s3, h', hpaced⟩ | ⟨_, _, _, h', -⟩
    · rw [h'] at h
      cases h
      rw [hpaced, hoptions]
    · rw [h'] at h
      cases h
  rw [retryLoop_eq]
  rcases Proc.retry_stops receiveSessionControlFrame isRetriableReceiveStatus (beforeRetry bytes)
    limit s with ⟨j, s', hj, hrounds, hstopped⟩
  have hpaced := hrounds.log_eq (fun s' => paced s'.trace) hcontrol hbefore control_paced hturn rfl
  have hoptions : s'.options = s.options := hrounds.invariant hcontrol hbefore rfl
  generalize Proc.retry receiveSessionControlFrame isRetriableReceiveStatus (beforeRetry bytes)
    limit s = r at hstopped
  cases hstopped with
  | settled hlast =>
      refine Retries.settled hj hrounds (hlast.imp_left fun h status hfail => ?_) ?_
      · exact eq_false_of_ne_true fun hagain => h ⟨status, hfail, hagain⟩
      · rw [control_paced, hpaced]
  | @failed e e' s1 s2 hleft hfail hagain hbetween =>
      have hs1 := hcontrol s' hoptions
      have hquiet := control_paced s'
      rw [hfail] at hs1 hquiet
      rcases beforeRetry_cases bytes s1 with ⟨_, h, -⟩ | ⟨status, s3, last, h, hbroken, hlast⟩
      · rw [hbetween] at h
        cases h
      · rw [hbetween] at h
        cases h
        rw [hs1] at hbroken
        refine Retries.broken hleft hrounds hfail hagain hbetween hbroken ?_
        rw [hlast, hquiet, hpaced]
  | @blocked e s1 s2 hleft hfail hagain hbetween =>
      -- Neither a sleep nor a write waits.
      rcases beforeRetry_cases bytes s1 with ⟨_, h, -⟩ | ⟨_, _, _, h, -⟩ <;> rw [hbetween] at h <;>
        cases h

/-- Nothing was written but so many I-frames, each in one go, with at most so
    many copies behind it. -/
structure Copied (retries frames : Nat) (events : List (Event L)) : Prop where
  front : (grouped events).1 = []
  frames : (grouped events).2.length ≤ frames
  same : ∀ sending ∈ (grouped events).2, ∀ w ∈ sending.2, w.1 = sending.1
  copies : ∀ sending ∈ (grouped events).2, sending.2.length ≤ retries + 1

namespace Copied

variable {retries frames frames' : Nat} {events events' : List (Event L)}

theorem of_none (h : grouped events = ([], [])) : Copied retries frames events := by
  have hmem : ∀ sending : Sending, ¬ sending ∈ (grouped events).2 := by
    rw [h]
    exact fun _ => List.not_mem_nil
  exact ⟨by rw [h], by rw [h]; exact Nat.zero_le _, fun sending hs => absurd hs (hmem sending),
    fun sending hs => absurd hs (hmem sending)⟩

theorem append (h : Copied retries frames events) (h' : Copied retries frames' events') :
    Copied retries (frames + frames') (events ++ events') := by
  have hgrouped : grouped (events ++ events') =
      ((grouped events).1, (grouped events).2 ++ (grouped events').2) := grouped_append h'.front
  -- The second part starts a sending of its own, so the groups come one after the other.
  refine ⟨by rw [hgrouped, h.front], ?_, ?_, ?_⟩ <;> rw [hgrouped]
  · rw [List.length_append]
    exact Nat.add_le_add h.frames h'.frames
  · intro sending hs
    rcases List.mem_append.mp hs with hs | hs
    · exact h.same sending hs
    · exact h'.same sending hs
  · intro sending hs
    rcases List.mem_append.mp hs with hs | hs
    · exact h.copies sending hs
    · exact h'.copies sending hs

/-- The writes are those of the I-frames, one after the other. -/
theorem written_eq (h : Copied retries frames events) :
    written events = (grouped events).2.flatMap (·.2) := by
  rw [written_grouped, h.front, List.nil_append]

theorem length_written (h : Copied retries frames events) :
    (written events).length ≤ frames * (retries + 1) := by
  have hsum : ∀ sendings : List Sending, (∀ sending ∈ sendings, sending.2.length ≤ retries + 1) →
      (sendings.flatMap (·.2)).length ≤ sendings.length * (retries + 1) := by
    intro sendings hall
    -- On the sendings, each at most as long as one transmission and its retries.
    induction sendings with
    | nil => exact Nat.zero_le _
    | cons sending sendings ih =>
        have hone := hall sending List.mem_cons_self
        have hrest := ih fun x hx => hall x (List.mem_cons_of_mem _ hx)
        rw [List.flatMap_cons, List.length_append, List.length_cons, Nat.succ_mul]
        omega
  rw [h.written_eq]
  exact Nat.le_trans (hsum _ h.copies) (Nat.mul_le_mul_right _ h.frames)

end Copied

/-- A turn of the sending loop writes one I-frame, or nothing. -/
theorem sendChunk_copied (chunk : List UInt8) (last : Bool) (s : State L) :
    ∃ events, (sendChunk chunk last s).2.trace = s.trace ++ events ∧
      Copied s.options.hdlcRetryCount.toNat 1 events := by
  have hsilent : Wordless s (awaitWindow s).2 := awaitWindow_wordless s
  have hmake := sameMake_primitives.toWaitPrimitives.within_awaitWindow s
  -- A turn that ends before anything was written.
  have hnone : ∀ {o s'}, sendChunk chunk last s = (o, s') → Wordless s s' →
      ∃ events, (sendChunk chunk last s).2.trace = s.trace ++ events ∧
        Copied s.options.hdlcRetryCount.toNat 1 events := by
    intro o s' hturn hwordless
    rcases hwordless.grouped with ⟨events, htrace, hgrouped⟩
    rw [hturn]
    exact ⟨events, htrace, Copied.of_none hgrouped⟩
  rcases sendChunk_cases chunk last s with ⟨o, s1, hw, -, hturn⟩ | ⟨s1, hw, hrest⟩ <;>
    rw [hw] at hsilent hmake
  · exact hnone hturn hsilent
  rcases hrest with ⟨status, -, hturn⟩ | ⟨built, σ, -, hrest⟩
  · exact hnone hturn hsilent
  rcases hrest with ⟨status, -, hturn⟩ | ⟨bytes, -, hturn⟩
  · exact hnone hturn hsilent
  rcases emitted_grouped bytes σ hsilent with ⟨events, writes, htrace, hgrouped, hcopies, -⟩
  have hoptions : s1.options = s.options := hmake.1
  rw [hoptions] at hcopies
  rw [hturn]
  refine ⟨events, htrace, by rw [hgrouped], by rw [hgrouped]; rfl, ?_, ?_⟩ <;> rw [hgrouped] <;>
    intro sending hs <;> rw [List.mem_singleton.mp hs]
  · exact hcopies.same
  · exact hcopies.count

/-- The loop writes at most as many I-frames as it has turns. -/
theorem sendChunks_copied (size left : Nat) (remaining : List UInt8) (s : State L) :
    ∃ events, (sendChunks size left remaining s).2.trace = s.trace ++ events ∧
      Copied s.options.hdlcRetryCount.toNat left events := by
  -- On the chunks left. A chunk that fails is the last one sent.
  induction left generalizing s remaining with
  | zero => exact ⟨[], (List.append_nil _).symm, Copied.of_none rfl⟩
  | succ left ih =>
      rcases sendChunk_copied (remaining.take size) (left == 0) s with ⟨events, htrace, hcopied⟩
      have hmake := sameMake_primitives.toLinkPrimitives.within_sendChunk (remaining.take size)
        (left == 0) s
      rcases sendChunks_cases size left remaining s with ⟨s1, hc, hloop⟩ | ⟨-, hloop⟩ <;>
        rw [hloop, Nat.add_comm left 1]
      · rw [hc] at htrace hmake
        rcases ih (remaining.drop size) s1 with ⟨rest, htrest, hrest⟩
        have hoptions : s1.options = s.options := hmake.1
        rw [hoptions] at hrest
        exact ⟨events ++ rest, by rw [htrest, htrace, List.append_assoc], hcopied.append hrest⟩
      · exact ⟨events, htrace, hcopied.front, Nat.le_add_right_of_le hcopied.frames, hcopied.same,
          hcopied.copies⟩

theorem sendApdu_copied (apdu : ProfileByteView) {s : State L}
    (huse : s.options.hdlcUseSession = true) :
    ∃ events, (sendApdu apdu s).2.trace = s.trace ++ events ∧
      Copied s.options.hdlcRetryCount.toNat (framesToSend s apdu) events := by
  by_cases hrefused : Refused s apdu
  · rcases sendApdu_of_refused huse hrefused with ⟨status, hcall⟩
    rw [hcall]
    exact ⟨[], (List.append_nil _).symm, Copied.of_none rfl⟩
  · rw [sendApdu_of_unrefused huse hrefused]
    exact sendChunks_copied _ _ _ (limited s)

/-- Waiting for a reply tries as often as it may and no more, and writes its frame
    once before every attempt but the first. So a call that sends an APDU writes
    each of its I-frames in one go, at most once more than the retry count. -/
theorem retries_exact (s : State L) :
    (∀ retryFrameBytes,
      retryFrom retryFrameBytes 0 s = receiveSessionControlFrameWithRetry retryFrameBytes s ∧
      Retries retryFrameBytes s.options.hdlcRetryCount.toNat s
        (receiveSessionControlFrameWithRetry retryFrameBytes s)) ∧
    ∀ apdu, s.options.hdlcUseSession = true →
      ∃ events, (sendApdu apdu s).2.trace = s.trace ++ events ∧
        Copied s.options.hdlcRetryCount.toNat (framesToSend s apdu) events ∧
        written events = (grouped events).2.flatMap (·.2) ∧
        (written events).length ≤ framesToSend s apdu * (s.options.hdlcRetryCount.toNat + 1) := by
  -- The loop counts up in the source and down here, from the same count.
  refine ⟨fun bytes => ⟨?_, retryLoop_retries bytes _ s⟩, fun apdu huse => ?_⟩
  · exact retryFrom_eq bytes _ 0 s (Nat.zero_add _).symm
  · rcases sendApdu_copied apdu huse with ⟨events, htrace, hcopied⟩
    exact ⟨events, htrace, hcopied, hcopied.written_eq, hcopied.length_written⟩

/-- A client that sends one I-frame and is told at every attempt that there is nothing to
    read. It makes all 256 attempts, and no more. -/
theorem retries_unanswered :
    let s := (connectDataLink (Reference.hdlcChannel
      { Reference.sessionOptions with hdlcRetryCount := 255 }
      (Reference.arrived (Reference.toClient Reference.ua []) ::
        List.replicate 300 ⟨.wouldBlock, []⟩))).2
    ((sendApdu (.of [0xC0]) s).1 = .fail .wouldBlock ∧
      (sendApdu (.of [0xC0]) s).2.reads = List.replicate 44 ⟨.wouldBlock, []⟩) ∧
    ∃ events, (sendApdu (.of [0xC0]) s).2.trace = s.trace ++ events ∧
      Copied s.options.hdlcRetryCount.toNat (framesToSend s (.of [0xC0])) events ∧
      written events = (grouped events).2.flatMap (·.2) ∧
      (written events).length ≤
        framesToSend s (.of [0xC0]) * (s.options.hdlcRetryCount.toNat + 1) :=
  ⟨by decide +kernel, (retries_exact _).2 (.of [0xC0]) (by decide +kernel)⟩

end Hdlc

end DlmsProfile
