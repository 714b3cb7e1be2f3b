import DlmsProfile.Core.Pending

/-!
# What a Receive Call reads

The receive loops of a channel are nested three deep and share no counter. What
keeps them from reading on is the same everywhere: a read that failed, or that
brought nothing, ends the call it was made in. So of the reads a call made all but
the last brought bytes, and if the last did too, the call ended for another reason
or is still inside the next one.

That is said once of a procedure that takes reads off a script, and carried over
sequencing, over a loop and over both overloads in front of a pending queue.

## Main definitions

* `Productive`: A read that succeeded and brought bytes.
* `readsOf`: The reads among calls to a transport.
* `Took`: What a procedure took off its script.
* `Takes`: It takes such reads from any state, and records them.
* `Bounded`: What a receive call may do at most.

## Theorems

* `Took.count`: There is at most one call more than productive reads.
* `Took.ne_waiting`: A read that is not productive ends the waiting.
* `takes_bind`, `takes_repeatUntil`, `PendingQueue.took_call`: Composition.
* `PendingQueue.bounded`: A channel with such a loop is bounded.
-/

namespace DlmsProfile

/-- A read that succeeded and brought bytes. -/
def Productive (e : ReadEvent) : Prop := e.status = .ok ∧ e.bytes ≠ []

instance : DecidablePred Productive := fun e =>
  inferInstanceAs (Decidable (e.status = .ok ∧ e.bytes ≠ []))

/-- The reads among calls to a transport, with what they brought. -/
def readsOf (calls : List TransportCall) : List ReadEvent :=
  calls.filterMap fun
    | .read e => some e
    | _ => none

theorem readsOf_append (a b : List TransportCall) : readsOf (a ++ b) = readsOf a ++ readsOf b :=
  List.filterMap_append

/-- A procedure that was found with `o` took so many reads off its script: only
    the last of them may have brought nothing, and then it failed; and it waits
    for another only if there is none. -/
structure Took {α : Type} (o : Outcome ProfileStatus α) (before after taken : List ReadEvent) :
    Prop where
  script : before = taken ++ after
  productive : ∀ e ∈ taken.dropLast, Productive e
  ended : (∃ status, o = .fail status) ∨ ∀ e ∈ taken, Productive e
  exhausted : o = .waiting → after = []

/-- The calls made: those answered, and the one still to be answered if it waits. -/
def callsMade {α : Type} (o : Outcome ProfileStatus α) (taken : List ReadEvent) : Nat :=
  match o with
  | .waiting => taken.length + 1
  | _ => taken.length

namespace Took

variable {α β : Type} {o : Outcome ProfileStatus α} {p : Outcome ProfileStatus β}
  {before middle after taken taken' : List ReadEvent}

/-- Nothing was read. -/
theorem nothing (ho : o ≠ .waiting) : Took o before before [] where
  script := rfl
  productive _ h := absurd h List.not_mem_nil
  ended := Or.inr fun _ h => absurd h List.not_mem_nil
  exhausted h := absurd h ho

/-- One read that brought nothing, and a failure for it. -/
theorem last {e : ReadEvent} {rest : List ReadEvent} {status : ProfileStatus} :
    Took (.fail status : Outcome ProfileStatus α) (e :: rest) rest [e] where
  script := rfl
  productive _ h := absurd h List.not_mem_nil
  ended := Or.inl ⟨status, rfl⟩
  exhausted h := by cases h

/-- One productive read. -/
theorem one {e : ReadEvent} {rest : List ReadEvent} (ho : o ≠ .waiting) (he : Productive e) :
    Took o (e :: rest) rest [e] where
  script := rfl
  productive _ h := absurd h List.not_mem_nil
  ended := Or.inr fun _ h => (List.mem_singleton.mp h) ▸ he
  exhausted h := absurd h ho

/-- Productive reads, and what was read after them. -/
theorem append (hall : ∀ e ∈ taken, Productive e) (hscript : before = taken ++ middle)
    (h : Took p middle after taken') : Took p before after (taken ++ taken') where
  script := by rw [hscript, h.script, List.append_assoc]
  -- All that was taken first is productive, and of the rest all but its last.
  productive e he := by
    by_cases hnil : taken' = []
    · rw [hnil, List.append_nil] at he
      exact hall e (List.dropLast_subset _ he)
    · rw [List.dropLast_append_of_ne_nil hnil] at he
      rcases List.mem_append.mp he with he | he
      · exact hall e he
      · exact h.productive e he
  ended := h.ended.imp_right fun hall' e he => by
    rcases List.mem_append.mp he with he | he
    · exact hall e he
    · exact hall' e he
  exhausted := h.exhausted

/-- The same reads, under an outcome that waits and fails when the other does. -/
theorem congr (h : Took o before after taken) (hwait : p = .waiting → o = .waiting)
    (hfail : (∃ status, o = .fail status) → ∃ status, p = .fail status) :
    Took p before after taken :=
  ⟨h.script, h.productive, h.ended.imp_left hfail, fun hp => h.exhausted (hwait hp)⟩

theorem all_productive (h : Took o before after taken) (ho : ¬ ∃ status, o = .fail status) :
    ∀ e ∈ taken, Productive e := h.ended.resolve_left ho

/-- At most one call was not answered with bytes. -/
theorem count (h : Took o before after taken) :
    callsMade o taken ≤ taken.countP (fun e => Productive e) + 1 := by
  have hall : (∀ e ∈ taken, Productive e) →
      taken.countP (fun e => Productive e) = taken.length := fun hp =>
    List.countP_eq_length.mpr fun e he => decide_eq_true (hp e he)
  rcases h.ended with ⟨status, rfl⟩ | hp
  · change taken.length ≤ _
    rcases List.eq_nil_or_concat taken with rfl | ⟨front, last, rfl⟩
    · exact Nat.zero_le _
    · simp only [List.concat_eq_append] at h ⊢
      -- All but the last brought bytes.
      have hfront : front.countP (fun e => Productive e) = front.length :=
        List.countP_eq_length.mpr fun e he => decide_eq_true (h.productive e (by simpa using he))
      rw [List.countP_append, hfront, List.length_append, List.length_singleton]
      omega
  · rw [hall hp]
    cases o with
    | waiting => exact Nat.le_refl _
    | done a => exact Nat.le_succ _
    | fail status => exact Nat.le_succ _

/-- A read that brings nothing is answered before the script runs out, and ends
    the call. -/
theorem ne_waiting (h : Took o before after taken) {e : ReadEvent} (he : e ∈ before)
    (hlast : ¬ Productive e) : o ≠ .waiting := by
  rintro rfl
  rw [h.script, h.exhausted rfl, List.append_nil] at he
  exact hlast (h.all_productive (fun ⟨_, hf⟩ => by cases hf) e he)

end Took

section Takes

variable {σ α β : Type} (reads made : σ → List ReadEvent)

/-- From any state the procedure takes such reads off its script, and records
    them. -/
def Takes (x : Proc σ ProfileStatus α) : Prop :=
  ∀ s, ∃ taken, made (x s).2 = made s ++ taken ∧ Took (x s).1 (reads s) (reads (x s).2) taken

variable {reads made}

/-- A procedure that does not look at the transport. -/
theorem takes_of_unread {x : Proc σ ProfileStatus α} (hwait : ∀ s, (x s).1 ≠ .waiting)
    (hreads : ∀ s, reads (x s).2 = reads s) (hmade : ∀ s, made (x s).2 = made s) :
    Takes reads made x := fun s => by
  refine ⟨[], by rw [hmade, List.append_nil], ?_⟩
  rw [hreads]
  exact Took.nothing (hwait s)

theorem takes_bind {x : Proc σ ProfileStatus α} {k : α → Proc σ ProfileStatus β}
    (hx : Takes reads made x) (hk : ∀ a, Takes reads made (k a)) :
    Takes reads made (x >>= k) := by
  intro s
  rcases hx s with ⟨taken, hmade, htook⟩
  rcases hxs : x s with ⟨a | status | _, s1⟩ <;> rw [hxs] at hmade htook
  · rw [Proc.bind_of_done _ hxs]
    -- A first part that has completed took productive reads only.
    rcases hk a s1 with ⟨taken', hmade', htook'⟩
    have hall := htook.all_productive fun ⟨_, hf⟩ => by cases hf
    exact ⟨taken ++ taken', by rw [hmade', hmade, List.append_assoc],
      Took.append hall htook.script htook'⟩
  · rw [Proc.bind_of_fail _ hxs]
    exact ⟨taken, hmade, htook.congr (fun h => by cases h) fun _ => ⟨status, rfl⟩⟩
  · rw [Proc.bind_of_waiting _ hxs]
    exact ⟨taken, hmade, htook.congr (fun _ => rfl) fun ⟨_, hf⟩ => by cases hf⟩

theorem takes_repeatUntil {size : σ → Nat} {body : Proc σ ProfileStatus Bool}
    {hsize : ∀ s s', body s = (.done false, s') → size s' < size s}
    (hbody : Takes reads made body) : Takes reads made (Proc.repeatUntil size body hsize) := by
  refine Proc.repeatUntil_induct (fun s o s' => ∃ taken, made s' = made s ++ taken ∧
    Took o (reads s) (reads s') taken) ?_ ?_ ?_ ?_
  · intro s s1 status hb
    rcases hbody s with ⟨taken, hmade, htook⟩
    rw [hb] at hmade htook
    exact ⟨taken, hmade, htook.congr (fun h => by cases h) fun _ => ⟨status, rfl⟩⟩
  · intro s s1 hb
    rcases hbody s with ⟨taken, hmade, htook⟩
    rw [hb] at hmade htook
    exact ⟨taken, hmade, htook.congr (fun _ => rfl) fun ⟨_, hf⟩ => by cases hf⟩
  · intro s s1 hb
    rcases hbody s with ⟨taken, hmade, htook⟩
    rw [hb] at hmade htook
    exact ⟨taken, hmade, htook.congr (fun h => by cases h) fun ⟨_, hf⟩ => by cases hf⟩
  · rintro s s1 o s2 hb ⟨taken', hmade', htook'⟩
    rcases hbody s with ⟨taken, hmade, htook⟩
    rw [hb] at hmade htook
    -- A turn that goes on did not fail, so all it read brought bytes.
    have hall := htook.all_productive fun ⟨_, hf⟩ => by cases hf
    exact ⟨taken ++ taken', by rw [hmade', hmade, List.append_assoc],
      Took.append hall htook.script htook'⟩

/-- What an answer says about the loop, whatever the overload. -/
def outcomeOf : Answer → Outcome ProfileStatus Unit
  | .vector (.done _) => .done ()
  | .vector (.fail status) => .fail status
  | .vector .waiting => .waiting
  | .into outcome _ => outcome

namespace PendingQueue

variable {q : PendingQueue σ} {await : Proc σ ProfileStatus Unit}

theorem takes_await {size : σ → Nat} {body : Proc σ ProfileStatus Unit}
    {hsize : ∀ s s', body s = (.done (), s') → size s' < size s} (hbody : Takes reads made body) :
    Takes reads made (q.await size body hsize) := by
  intro s
  by_cases hq : q.apdus s = []
  · rw [await_of_empty hq]
    refine takes_repeatUntil (takes_bind hbody fun _ => ?_) s
    exact takes_of_unread (fun _ h => by cases h) (fun _ => rfl) fun _ => rfl
  · rw [await_of_pending hq]
    exact ⟨[], (List.append_nil _).symm, Took.nothing fun h => by cases h⟩

theorem outcomeOf_waiting (answer : Answer) :
    answer.isWaiting = true ↔ outcomeOf answer = .waiting := by
  rcases answer with (apdu | status | _) | ⟨⟨⟩ | status | _, output⟩ <;>
    simp [Answer.isWaiting, outcomeOf]

/-- Either overload reads what the loop in front of it reads, or nothing if its
    buffer is refused, and waits if the loop does. -/
theorem took_call {s : σ} {taken : List ReadEvent} (hm : made (await s).2 = made s ++ taken)
    (htook : Took (await s).1 (reads s) (reads (await s).2) taken)
    (hreads : ∀ s, reads (q.pop s) = reads s) (hmade : ∀ s, made (q.pop s) = made s)
    (r : ReceiveCall) :
    ∃ taken', (taken' = taken ∨ taken' = []) ∧
      made ((q.channel await reads).call r s).2 = made s ++ taken' ∧
      Took (outcomeOf ((q.channel await reads).call r s).1) (reads s)
        (reads ((q.channel await reads).call r s).2) taken' ∧
      (outcomeOf ((q.channel await reads).call r s).1 = .waiting → (await s).1 = .waiting) := by
  cases r with
  | vector =>
      refine ⟨taken, Or.inl rfl, ?_⟩
      simp only [ApduChannel.call, channel]
      rcases hw : await s with ⟨⟨⟩ | status | _, s1⟩ <;> rw [hw] at hm htook
      · rw [receiveVector_of_done hw, hmade, hreads]
        exact ⟨hm, htook, fun h => by cases h⟩
      · rw [receiveVector_of_fail hw]
        exact ⟨hm, htook, fun h => by cases h⟩
      · rw [receiveVector_of_waiting hw]
        exact ⟨hm, htook, fun _ => rfl⟩
  | into output =>
      simp only [ApduChannel.call, channel]
      rcases receiveBuffer_cases (q := q) await output s with
        ⟨-, hr⟩ | ⟨-, s1, hw, -, hr⟩ | ⟨s1, hw, -, hr⟩ | ⟨status, s1, hw, hr⟩ | ⟨s1, hw, hr⟩ <;>
        rw [hr]
      · -- A refused buffer is refused before anything is read.
        exact ⟨[], Or.inr rfl, (List.append_nil _).symm, Took.nothing (fun h => by cases h),
          fun h => by cases h⟩
      all_goals
        rw [hw] at hm htook
        refine ⟨taken, Or.inl rfl, ?_⟩
      · rw [hmade, hreads]
        exact ⟨hm, htook, fun h => by cases h⟩
      · exact ⟨hm, htook.congr (fun h => by cases h) (fun _ => ⟨_, rfl⟩), fun h => by cases h⟩
      · exact ⟨hm, htook, fun h => by cases h⟩
      · exact ⟨hm, htook, fun _ => congrArg Prod.fst hw⟩

end PendingQueue

end Takes

/-- What a receive call may do at most. It reads no further than the first read
    that brings nothing, which ends it, and not at all while an APDU is pending;
    and of the frames to come it handles some from the front, in order. -/
structure Bounded {F : Type} (C : ApduChannel) (made : C.State → List ReadEvent)
    (apdus : C.State → List (List UInt8)) (incoming : C.State → List F)
    (handled : ReceiveCall → C.State → List F → Prop) (r : ReceiveCall) (s : C.State) : Prop where
  reads : ∃ taken, C.reads s = taken ++ C.reads (C.call r s).2 ∧
    made (C.call r s).2 = made s ++ taken ∧
    callsMade (outcomeOf (C.call r s).1) taken ≤ taken.countP (fun e => Productive e) + 1 ∧
    (apdus s ≠ [] → callsMade (outcomeOf (C.call r s).1) taken = 0)
  returns : (∃ e ∈ C.reads s, ¬ Productive e) → (C.call r s).1.isWaiting = false
  frames : ∃ frames, incoming s = frames ++ incoming (C.call r s).2 ∧ handled r s frames

/-- A loop that reads like that, with its frames accounted for, makes a channel
    whose calls are bounded. -/
theorem PendingQueue.bounded {σ F : Type} {q : PendingQueue σ} {await : Proc σ ProfileStatus Unit}
    {reads made : σ → List ReadEvent} {incoming : σ → List F}
    {handled : ReceiveCall → σ → List F → Prop} (hawait : Takes reads made await)
    (hpending : ∀ s, q.apdus s ≠ [] → await s = (.done (), s))
    (hreads : ∀ s, reads (q.pop s) = reads s) (hmade : ∀ s, made (q.pop s) = made s)
    (hframes : ∀ r s, ∃ frames,
      incoming s = frames ++ incoming ((q.channel await reads).call r s).2 ∧ handled r s frames)
    (r : ReceiveCall) (s : σ) :
    Bounded (q.channel await reads) made q.apdus incoming handled r s := by
  rcases hawait s with ⟨taken, hm, htook⟩
  rcases took_call hm htook hreads hmade r with ⟨taken', htaken, hm', htook', hwait⟩
  refine ⟨⟨taken', htook'.script, hm', htook'.count, fun hp => ?_⟩, ?_, hframes r s⟩
  · -- With an APDU pending the loop does not turn.
    have hsame := hpending s hp
    have hnil : taken' = [] := by
      have hscript := htook.script
      rw [hsame, List.self_eq_append_left] at hscript
      rcases htaken with h | h
      · exact h.trans hscript
      · exact h
    have hreturns : outcomeOf ((q.channel await reads).call r s).1 ≠ .waiting := fun h => by
      have hw := hwait h
      rw [hsame] at hw
      cases hw
    rw [hnil]
    cases ho : outcomeOf ((q.channel await reads).call r s).1 with
    | waiting => exact absurd ho hreturns
    | done a => rfl
    | fail status => rfl
  · rintro ⟨e, he, hlast⟩
    refine Bool.eq_false_iff.mpr fun h => ?_
    exact htook'.ne_waiting he hlast ((outcomeOf_waiting _).mp h)

end DlmsProfile
