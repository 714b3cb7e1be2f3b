import DlmsProfile.Hdlc.Delivery
import DlmsProfile.Hdlc.Handover
import DlmsProfile.Termination

/-!
# Receive Calls come to Wait

That a receiver comes to wait at all is a matter of what it has to work off. Every call of
`ReceiveApdu` that returns has used up a frame, a read or an APDU, provided that its buffer
has room for what is queued. A buffer without room is given the same answer for ever. So one
who goes on calling with room enough is blocked in the end, whichever the overload.

## Main definitions

* `ReceiveCall.HasRoom`: A call that can be given an APDU.
* `Hdlc.Blocked`: Some call has not returned.
* `Hdlc.workload`: What a receiver has to work through.

## Theorems

* `Hdlc.receiveTurn_workload`: A turn of the loop works something off, or waits.
* `Hdlc.call_workload`: So does a call.
* `Hdlc.calls_block`: One who calls often enough comes to wait.
-/

namespace DlmsProfile

/-- A call that can be given an APDU: its buffer, if it has one, is valid and holds it. -/
def ReceiveCall.HasRoom (apdu : List UInt8) (call : ReceiveCall) : Prop :=
  ∀ room, call = .into room → isValidMutableBuffer room = true ∧ apdu.length ≤ room.size

theorem ReceiveCall.hasRoom_vector (apdu : List UInt8) : ReceiveCall.vector.HasRoom apdu :=
  fun _ hcall => by cases hcall

namespace Hdlc

variable {L : HdlcLib} {s s' : State L} {call : ReceiveCall} {schedule : Nat → ReceiveCall}

/-- Some call has not returned. -/
def Blocked (results : List Result) : Prop := ∃ result ∈ results, result.isWaiting = true

instance (results : List Result) : Decidable (Blocked results) :=
  inferInstanceAs (Decidable (∃ result ∈ results, result.isWaiting = true))

theorem blocked_cons (result : Result) {results : List Result} (h : Blocked results) :
    Blocked (result :: results) := by
  rcases h with ⟨waiting, hmem, hwaits⟩
  exact ⟨waiting, List.mem_cons_of_mem result hmem, hwaits⟩

/-- What a receiver has to work through: the frames to come and the reads that bring them. -/
def workload (s : State L) : Nat := (incoming s).length + s.reads.length

theorem receiveDecodedFrame_reads_le (s : State L) :
    (receiveDecodedFrame s).2.reads.length ≤ s.reads.length := by
  rcases receiveDecodedFrame_readsOnly s with ⟨taken, htaken, -⟩
  rw [htaken, List.length_append]
  exact Nat.le_add_left _ _

/-- A turn of the receive loop that does not wait has worked something off. -/
theorem receiveTurn_workload (hb : s.readBufferSize ≠ 0) (h : (receiveTurn s).1 ≠ .waiting) :
    workload (receiveTurn s).2 < workload s := by
  have hreads := receiveDecodedFrame_reads_le s
  -- A frame taken is one less to come, and a failure costs a read.
  rcases hr : receiveDecodedFrame s with ⟨frame | status | _, s1⟩
  · have hcome := receiveDecodedFrame_done hr
    have hsame := decodeFrame_sameIntake frame s1
    rw [hr] at hreads
    have hturn : receiveTurn s = handleFrame frame s1 := Proc.bind_of_done _ hr
    have hless : s1.reads.length ≤ s.reads.length := hreads
    rw [hturn, workload, workload, handleFrame_snd, hsame.incoming, hsame.reads, hcome,
      List.length_cons]
    omega
  · rcases receiveDecodedFrame_fail hb hr with ⟨hcome, hless⟩
    have hturn : receiveTurn s = (.fail status, s1) := Proc.bind_of_fail _ hr
    rw [hturn]
    simp only [workload, hcome]
    omega
  · have hturn : receiveTurn s = (.waiting, s1) := Proc.bind_of_waiting _ hr
    exact absurd (congrArg Prod.fst hturn) h

/-- So has the loop. -/
theorem receiveNextApdu_workload (hb : s.readBufferSize ≠ 0)
    (h : (receiveNextApdu s).1 ≠ .waiting) : workload (receiveNextApdu s).2 < workload s := by
  have hturn : ∀ {t t' : State L} {o : Outcome ProfileStatus Bool}, receiveTurn t = (o, t') →
      t.readBufferSize ≠ 0 → o ≠ .waiting → workload t' < workload t := by
    intro t t' o ht hb ho
    have hless := receiveTurn_workload hb (by rwa [ht])
    rwa [ht] at hless
  -- By the turns of the loop, each of which makes it less.
  refine Proc.repeatUntil_induct (fun t o t' => t.readBufferSize ≠ 0 → o ≠ .waiting →
    workload t' < workload t) ?_ ?_ ?_ ?_ s hb h
  · intro t t1 status ht hb _
    exact hturn ht hb fun hc => by cases hc
  · intro t t1 _ _ ho
    exact absurd rfl ho
  · intro t t1 ht hb _
    exact hturn ht hb fun hc => by cases hc
  · intro t t1 o t2 ht ih hb ho
    have hmake := sameMake_primitives.intake.within_receiveTurn t
    rw [ht] at hmake
    have hb' : t1.readBufferSize ≠ 0 := hmake.2 ▸ hb
    exact (ih hb' ho).trans (hturn ht hb fun hc => by cases hc)

/-- A call whose loop waits does not return. -/
theorem exec_waiting (hvalid : call.HasRoom []) (h : awaitApdu s = (.waiting, s')) :
    (exec (.receive call) s).1.isWaiting = true := by
  cases call with
  | vector =>
      have hcall : receiveApdu s = _ := PendingQueue.receiveVector_of_waiting h
      simp only [exec, ApduChannel.call, hcall]
      rfl
  | into output =>
      have hcall : receiveApduInto output s = _ :=
        PendingQueue.receiveBuffer_of_waiting (hvalid output rfl).1 h
      simp only [exec, ApduChannel.call, hcall]
      rfl

/-- A call that does not wait has worked something off, or has taken an APDU that was there. -/
theorem call_workload (hb : s.readBufferSize ≠ 0) (hvalid : call.HasRoom [])
    (hroom : ∀ apdu ∈ s.pendingApdus, call.HasRoom apdu)
    (h : (exec (.receive call) s).1.isWaiting = false) :
    workload (exec (.receive call) s).2 < workload s ∨
      workload (exec (.receive call) s).2 = workload s ∧
        (exec (.receive call) s).2.pendingApdus.length < s.pendingApdus.length := by
  by_cases hp : s.pendingApdus = []
  · have hawait : awaitApdu s = receiveNextApdu s := awaitApdu_of_empty hp
    have hreturns : (receiveNextApdu s).1 ≠ .waiting := by
      intro hwaits
      rw [exec_waiting hvalid (hawait.trans (Prod.ext hwaits rfl))] at h
      cases h
    have hless := receiveNextApdu_workload hb hreturns
    rw [← hawait] at hless
    -- What the loop has left is what is left of the call, with or without the front.
    have hafter : ((channel L).call call s).2 = (awaitApdu s).2 ∨
        ((channel L).call call s).2 = pending.pop (awaitApdu s).2 :=
      PendingQueue.call_snd (fun output hcall => (hvalid output hcall).1) s
    refine Or.inl ?_
    change workload ((channel L).call call s).2 < workload s
    rcases hafter with hafter | hafter <;> rw [hafter]
    · exact hless
    · exact hless
  · have hawait : awaitApdu s = (.done (), s) := PendingQueue.await_of_pending hp
    have hfront : s.pendingApdus.headD [] ∈ s.pendingApdus := by
      rcases List.exists_cons_of_ne_nil hp with ⟨front, rest, hqueue⟩
      rw [hqueue]
      exact List.mem_cons_self
    have hdelivered : ((channel L).call call s).1.delivered = some (s.pendingApdus.headD []) :=
      PendingQueue.call_of_done hawait call (hroom _ hfront)
    refine Or.inr ?_
    rcases receive_cases call s with ⟨hnone, -⟩ | ⟨s1, hw, -, -, hpop⟩
    · have hsome : (exec (.receive call) s).1.delivered = some (s.pendingApdus.headD []) :=
        hdelivered
      rw [hnone] at hsome
      cases hsome
    · rw [hawait] at hw
      obtain rfl := (Prod.mk.inj hw).2
      rw [hpop]
      refine ⟨rfl, ?_⟩
      have htail : (pending.pop s).pendingApdus = s.pendingApdus.tail := rfl
      rw [htail, List.length_tail]
      exact Nat.sub_lt (List.length_pos_iff.mpr hp) Nat.one_pos

/-- One who calls often enough comes to wait, as long as there is room for what is queued. -/
theorem calls_block {I : State L → Prop} (hvalid : ∀ i, (schedule i).HasRoom [])
    (hroom : ∀ i t, I t → ∀ apdu ∈ t.pendingApdus, (schedule i).HasRoom apdu)
    (hstep : ∀ i t, I t → I (exec (.receive (schedule i)) t).2) (hb : s.readBufferSize ≠ 0)
    (h : I s) :
    ∃ n, ∀ more,
      Blocked (run (((List.range (n + more)).map schedule).map .receive) s).1 := by
  -- The induction is on the work, and among states with the same on the APDUs queued.
  induction hw : workload s using Nat.strong_induction_on generalizing s schedule with
  | _ w ih =>
    induction hp : s.pendingApdus.length using Nat.strong_induction_on generalizing s schedule with
    | _ p ihp =>
      have hcalls : ∀ count, ((List.range (count + 1)).map schedule).map Operation.receive =
          .receive (schedule 0) ::
            ((List.range count).map fun i => schedule (i + 1)).map .receive := by
        intro count
        rw [List.range_succ_eq_map, List.map_cons, List.map_cons, List.map_map (f := Nat.succ)]
        rfl
      cases hwaits : (exec (.receive (schedule 0)) s).1.isWaiting with
      | true =>
          refine ⟨1, fun more => ?_⟩
          rw [Nat.add_comm, hcalls, run_of_waiting hwaits]
          exact ⟨_, List.mem_cons_self, hwaits⟩
      | false =>
          have hb' : (exec (.receive (schedule 0)) s).2.readBufferSize ≠ 0 :=
            (sameMake_primitives.exec (.receive (schedule 0)) s).2 ▸ hb
          have hnext : ∃ n, ∀ more,
              Blocked (run (((List.range (n + more)).map fun i => schedule (i + 1)).map .receive)
                (exec (.receive (schedule 0)) s).2).1 := by
            rcases call_workload hb (hvalid 0) (hroom 0 s h) hwaits with hless | ⟨hsame, hless⟩
            · exact ih _ (hw ▸ hless) (fun i => hvalid (i + 1)) (fun i => hroom (i + 1))
                (fun i => hstep (i + 1)) hb' (hstep 0 s h) rfl
            · exact ihp _ (hp ▸ hless) (fun i => hvalid (i + 1)) (fun i => hroom (i + 1))
                (fun i => hstep (i + 1)) hb' (hstep 0 s h) (hsame.trans hw) rfl
          rcases hnext with ⟨n, hn⟩
          refine ⟨n + 1, fun more => ?_⟩
          rw [Nat.add_right_comm, hcalls, run_of_returned hwaits]
          exact blocked_cons _ (hn more)

end Hdlc

end DlmsProfile
