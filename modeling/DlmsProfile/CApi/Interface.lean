import DlmsProfile.CApi.Ownership
import DlmsProfile.Hdlc.Handover
import DlmsProfile.Reference.Channels

/-!
# The C Interface as a Whole

What a C caller can rely on over any sequence of calls, whatever is thrown during
any of them. Handles are the only thing it must keep track of. As long as it passes
those it holds, nothing is used after it was deleted, nothing is deleted twice and
nothing is forgotten. Each handle is a channel of its own, and this channel is an
object of the C++ class with the options it was created with.

## Main definitions

* `CApi.Impl.Reached`: A channel the calls of its class lead to.

## Theorems

* `CApi.misuse_iff`: What goes wrong with a handle that is not held, and only then.
* `CApi.heap_exact`: What is on the heap.
* `CApi.creation_iff`: When a creating call gives a handle, and what it leaves if not.
* `CApi.dialogue_isolated`: Handles do not influence each other.
* `CApi.dialogue_contained`: An exception is one status of one call.
* `CApi.dialogue_reached`: What the C++ classes keep is kept behind handles.
-/

namespace DlmsProfile

namespace CApi

variable {W : WrapperLib} {L : HdlcLib}

/-- A transport that answers nothing but success. -/
def idle : Transport := ⟨[], [], [], [], [], []⟩

/-- Callbacks that do. -/
def idleCallbacks : ByteStreamCallbacks := ⟨some [], some [], some [], some [], some []⟩

/-- A caller makes a channel from callbacks, fails to make another one, and sends. -/
def opening : List (Call × List Bool) :=
  [(.createHdlcFromCallbacks (some idleCallbacks) [] none, []),
    (.createWrapperTcp (some idle) none, [false, true]),
    (.request (some 2) (.method .open), [])]

/-- And uses two channels in turn. -/
def taking : List (Call × List Bool) :=
  [(.request (some 4) (.method .open), []), (.request (some 2) .isOpen, []),
    (.request (some 4) .isOpen, []), (.destroy (some 2), [])]

/-- All of this is done with handles that are held. -/
theorem taking_done :
    ∃ w w1 w2 : World Reference.wrapperLib Reference.hdlcLib,
      run opening World.initial =
        (.done [.created (some 2), .created none, .replied (.status 0)], w) ∧
      execute (.createWrapperTcp (some idle) none) [] w = (.done (.created (some 4)), w1) ∧
      run taking w1 = (.done [.replied (.status 0), .replied (.flag 1), .replied (.flag 1),
        .destroyed (some 2)], w2) := by
  have hpair : ∀ {α β : Type} {x : α × β} {a : α}, x.1 = a → x = (a, x.2) :=
    fun {_ _ _ _} h => Prod.ext h rfl
  have hopening : (run opening (World.initial : World Reference.wrapperLib Reference.hdlcLib)).1 =
      .done [.created (some 2), .created none, .replied (.status 0)] := by decide +kernel
  have hcreate : (execute (.createWrapperTcp (some idle) none) []
      (run opening (World.initial : World Reference.wrapperLib Reference.hdlcLib)).2).1 =
      .done (.created (some 4)) := by decide +kernel
  have htaking : (run taking (execute (.createWrapperTcp (some idle) none) []
      (run opening (World.initial : World Reference.wrapperLib Reference.hdlcLib)).2).2).1 =
      .done [.replied (.status 0), .replied (.flag 1), .replied (.flag 1),
        .destroyed (some 2)] := by decide +kernel
  exact ⟨_, _, _, hpair hopening, hpair hcreate, hpair htaking⟩

/-- A channel that the calls of its class lead to from its constructor, all of which
    returned. -/
def Impl.Reached (options : ApduChannelOptions) : Impl W L → Prop
  | .wrapperTcp _ t => Tcp.Reachable W options t
  | .wrapperUdp _ t => Udp.Reachable W options t
  | .hdlc t => ∃ (start : Hdlc.State L) (ops : List Hdlc.Operation),
    start.toChannel = Hdlc.newChannel L options ∧ start.trace = [] ∧
      (Hdlc.run ops start).2 = t ∧
        ∀ result ∈ (Hdlc.run ops start).1, result.isWaiting = false

/-- A constructor leads to a channel. -/
theorem Impl.reached_new (options : ApduChannelOptions) (transport : Transport)
    (kind : Implementation) : (newImpl W L options transport kind).Reached options := by
  cases kind with
  | wrapperTcp => exact .new rfl
  | wrapperUdp => exact .new rfl
  | hdlc => exact ⟨_, [], rfl, rfl, rfl, fun _ hmem => absurd hmem List.not_mem_nil⟩

/-- An HDLC call that returned leads on. -/
theorem Impl.reached_exec {options : ApduChannelOptions} {t : Hdlc.State L} (op : Hdlc.Operation)
    (h : (Impl.hdlc t : Impl W L).Reached options) (hop : (Hdlc.exec op t).1.isWaiting = false) :
    (Impl.hdlc (Hdlc.exec op t).2 : Impl W L).Reached options := by
  rcases h with ⟨start, ops, hstart, htrace, rfl, hreturned⟩
  refine ⟨start, ops ++ [op], hstart, htrace, ?_, ?_⟩
  · rw [Hdlc.run_snoc hreturned]
  · rw [Hdlc.run_snoc hreturned]
    intro result hmem
    rcases List.mem_append.mp hmem with hmem | hmem
    · exact hreturned result hmem
    · rw [List.mem_singleton.mp hmem]
      exact hop

/-- Any call that returned leads on. -/
theorem Impl.reached_answered {options : ApduChannelOptions} {impl : Impl W L} {request : Request}
    (h : impl.Reached options) (hreturned : (answered request impl).1 ≠ .blocked) :
    (answered request impl).2.Reached options := by
  cases impl with
  | wrapperTcp isOpens t =>
      cases request with
      | method method =>
          cases hop : method.tcp with
          | none => simpa only [answered, Impl.answering, hop] using h
          | some op =>
              have hstep : Tcp.Reachable W options (Tcp.exec op t) := .step op h
              rw [← Tcp.answer_snd] at hstep
              simp only [answered, Impl.answering, hop]
              exact hstep
      | isOpen => exact h
      | receiveApdu output => exact Tcp.Reachable.step (.receive (.into output)) h
  | wrapperUdp isOpens t =>
      cases request with
      | method method =>
          cases hop : method.udp with
          | none => simpa only [answered, Impl.answering, hop] using h
          | some op =>
              have hstep : Udp.Reachable W options (Udp.exec W op t) := .step op h
              rw [← Udp.answer_snd] at hstep
              simp only [answered, Impl.answering, hop]
              exact hstep
      | isOpen => exact h
      | receiveApdu output => exact Udp.Reachable.step (.receive (.into output)) h
  | hdlc t =>
      -- A call that did not return would have blocked the caller.
      cases request with
      | method method =>
          have hresult : (Hdlc.exec method.hdlc t).1 = .status (Hdlc.answer method.hdlc t).1 := by
            cases method <;> rfl
          have hop : (Hdlc.exec method.hdlc t).1.isWaiting = false := by
            rw [hresult]
            rcases hanswer : (Hdlc.answer method.hdlc t).1 with ⟨⟩ | status | _
            · rfl
            · rfl
            · refine absurd ?_ hreturned
              simp only [answered, Impl.answering, Proc.onPart, hanswer]
              rfl
          have hstep := Impl.reached_exec (W := W) _ h hop
          rw [← Hdlc.answer_snd] at hstep
          exact hstep
      | isOpen => exact Impl.reached_exec (W := W) .isOpen h rfl
      | receiveApdu output =>
          refine Impl.reached_exec (W := W) (.receive (.into output)) h ?_
          simp only [Hdlc.exec, ApduChannel.call, Hdlc.Result.isWaiting]
          rcases hanswer : (Hdlc.receiveApduInto output t).1.1 with ⟨⟩ | status | _
          · rfl
          · rfl
          · refine absurd ?_ hreturned
            have hinto : (Impl.answeringInto (.hdlc t, output) :
                Outcome ProfileStatus Unit × Impl W L × ProfileMutableBuffer).1 = .waiting :=
              hanswer
            simp only [answered, hinto]
            rfl

/-- So does a dialogue in which all calls returned. -/
theorem Impl.reached_answerAll {options : ApduChannelOptions} {impl : Impl W L}
    (h : impl.Reached options) {requests : List Request}
    (hreturned : .blocked ∉ (answerAll requests impl).1) :
    (answerAll requests impl).2.Reached options := by
  induction requests generalizing impl with
  | nil => exact h
  | cons request requests ih =>
      simp only [answerAll, List.mem_cons, not_or] at hreturned
      exact ih (Impl.reached_answered h fun heq => hreturned.1 heq.symm) hreturned.2

/-- A run from the beginning led to a heap that is a table of channels. -/
theorem represents_of_run {calls : List (Call × List Bool)} {answers : List Answer}
    {w : World W L} (hrun : run calls World.initial = (.done answers, w)) :
    ∃ t held, Represents w t held := by
  rcases run_represents represents_initial calls with
    ⟨-, answers', w', t, held, hdone, -, hrep⟩ | ⟨-, w', hfail⟩
  · obtain ⟨-, rfl⟩ := Prod.mk.inj (hrun.symm.trans hdone)
    exact ⟨t, held, hrep⟩
  · cases hrun.symm.trans hfail

/-- No object is used after it was deleted and none is deleted twice, in any sequence of
    calls and whatever allocations, constructors, containers and sinks throw on the way,
    unless a call is made with a handle that is not held. And none of these exceptions
    leaves the interface. -/
theorem misuse_iff (calls : List (Call × List Bool)) :
    (Proper (World.initial : World W L) calls ↔
      ∃ answers w, run calls (World.initial : World W L) = (.done answers, w)) ∧
    (¬ Proper (World.initial : World W L) calls ↔
      ∃ w, run calls (World.initial : World W L) = (.fail (.status .badAddress), w)) := by
  -- A proper run goes through, and any other ends in a bad address.
  rcases run_represents (represents_initial (W := W) (L := L)) calls with
    ⟨hproper, answers, w, t, held, hrun, -, -⟩ | ⟨hproper, w, hrun⟩
  · refine ⟨iff_of_true hproper ⟨answers, w, hrun⟩,
      iff_of_false (not_not.mpr hproper) ?_⟩
    rintro ⟨w', hfail⟩
    cases hrun.symm.trans hfail
  · refine ⟨iff_of_false hproper ?_, iff_of_true hproper ⟨w, hrun⟩⟩
    rintro ⟨answers, w', hdone⟩
    cases hrun.symm.trans hdone

/-- After any sequence of calls with any exceptions, the heap holds the objects of the
    handles held, each where the handle expects it and each for one handle only, and
    nothing else. -/
theorem heap_exact {calls : List (Call × List Bool)} {answers : List Answer} {w : World W L}
    (hrun : run calls World.initial = (.done answers, w)) :
    ∃ held : List Holding, held.map Holding.handle = w.held ∧
      (held.flatMap Holding.addresses).Nodup ∧
      (∀ a, w.heap.cells a ≠ none ↔ ∃ k ∈ held, a ∈ k.addresses) ∧
      ∀ k ∈ held, ∃ impl, Laid w.heap k impl := by
  rcases represents_of_run hrun with ⟨t, held, hrep⟩
  refine ⟨held, hrep.names, ?_, fun a => ?_, fun k hk => ?_⟩
  · rw [List.flatMap_def]
    exact hrep.owned.nodup
  · rw [Option.ne_none_iff_isSome, hrep.owned.live, ← List.flatMap_def, List.mem_flatMap]
  · rcases hrep.laid k hk with ⟨impl, -, hlaid⟩
    exact ⟨impl, hlaid⟩

/-- Three objects are left of a channel made and another one not made. -/
theorem heap_exact_opening :
    ∃ (w : World Reference.wrapperLib Reference.hdlcLib) (held : List Holding),
      held.map Holding.handle = w.held ∧ (held.flatMap Holding.addresses).Nodup ∧
      (∀ a, w.heap.cells a ≠ none ↔ ∃ k ∈ held, a ∈ k.addresses) ∧
      ∀ k ∈ held, ∃ impl, Laid w.heap k impl := by
  rcases taking_done with ⟨w, -, -, hopening, -, -⟩
  exact ⟨w, heap_exact hopening⟩

/-- A creating call gives a new handle exactly if its transport is there or its callbacks
    are complete, and no allocation throws. If it gives none, the heap holds what it held. -/
theorem creation_iff {calls : List (Call × List Bool)} {answers : List Answer} {w : World W L}
    (hrun : run calls World.initial = (.done answers, w)) (call : Call)
    (hcreates : (creation call : Option (Procedure W L (Option Nat))).isSome = true)
    (faults : List Bool) :
    ((∃ order ∈ call.order, Heap.Clear (order.sites L) faults) → ∃ p h',
      execute call faults w = (.done (.created (some p)), ⟨h', p :: w.held⟩) ∧ p ∉ w.held) ∧
    ((∀ order ∈ call.order, ¬ Heap.Clear (order.sites L) faults) → ∃ h',
      execute call faults w = (.done (.created none), ⟨h', w.held⟩) ∧
        h'.cells = w.heap.cells) := by
  rcases represents_of_run hrun with ⟨t, held, hrep⟩
  rcases Option.isSome_iff_exists.mp hcreates with ⟨create, hcreate⟩
  -- The sites of the order decide, and there is no order without arguments.
  rcases execute_create_cases hcreate faults w with
    ⟨order, horder, hclear, k, h', hexecute, hadds⟩ | ⟨hfails, h', hexecute, hadds⟩
  · exact ⟨fun _ => ⟨k.handle, h', hexecute, (hrep.create hadds).1⟩,
      fun hfails => absurd hclear (hfails order horder)⟩
  · refine ⟨?_, fun _ => ⟨h', hexecute, hadds.same⟩⟩
    rintro ⟨order, horder, hclear⟩
    exact absurd hclear (hfails order horder)

/-- A second channel beside the first. -/
theorem creation_iff_opening :
    ∃ (w : World Reference.wrapperLib Reference.hdlcLib) (p : Nat)
      (h' : Heap (Cell Reference.wrapperLib Reference.hdlcLib)),
      execute (.createWrapperTcp (some idle) none) [] w =
        (.done (.created (some p)), ⟨h', p :: w.held⟩) ∧ p ∉ w.held := by
  rcases taking_done with ⟨w, -, -, hopening, -, -⟩
  have hcreation := creation_iff hopening (.createWrapperTcp (some idle) none) rfl []
  exact ⟨w, hcreation.1 ⟨_, rfl, Heap.clear_nil _⟩⟩

/-- A handle from its creation on: its channel serves the dialogue alone, and stands where
    that left it if it is not destroyed. -/
theorem dialogue_of_run {before : List (Call × List Bool)} {answers0 answers : List Answer}
    {w w1 w2 : World W L} {call : Call} {faults : List Bool} {p : Nat}
    {after : List (Call × List Bool)} (hbefore : run before World.initial = (.done answers0, w))
    (hcreate : execute call faults w = (.done (.created (some p)), w1))
    (hafter : run after w1 = (.done answers, w2)) :
    ∃ order, call.order = some order ∧
      let served := serveAll ((dialogue p (after.zip answers)).map Prod.fst) (order.impl W L)
      (dialogue p (after.zip answers)).map Prod.snd = served.1 ∧
        ((∀ c ∈ after, c.1 ≠ .destroy (some p)) →
          ∃ k : Holding, k.handle = p ∧ Laid w2.heap k served.2) := by
  rcases represents_of_run hbefore with ⟨t, held, hrep⟩
  rcases creation_of_created hcreate with ⟨create, hcreates⟩
  rcases execute_create_cases hcreates faults w with
    ⟨order, horder, -, k, h', hexecute, hadds⟩ | ⟨-, h', hexecute, -⟩
  swap
  · cases hcreate.symm.trans hexecute
  obtain ⟨hanswer, rfl⟩ := Prod.mk.inj (hcreate.symm.trans hexecute)
  obtain rfl : p = k.handle := Option.some.inj (Answer.created.inj (Outcome.done.inj hanswer))
  rcases run_represents (hrep.create hadds).2 after with
    ⟨-, answers', w', t', held', hdone, hsteps, hrep'⟩ | ⟨-, w', hfail⟩
  swap
  · cases hafter.symm.trans hfail
  obtain ⟨hanswers, rfl⟩ := Prod.mk.inj (hafter.symm.trans hdone)
  obtain rfl := Outcome.done.inj hanswers
  rcases Table.dialogue_of_traces hsteps (Function.update_self _ _ _) with ⟨hreplies, hchannel⟩
  refine ⟨order, horder, hreplies, fun hno => ?_⟩
  -- If it was not destroyed it is still held, and its channel is the one of the table.
  have htable := hchannel fun x hx => hno x.1 (List.of_mem_zip hx).1
  have hheld : k.handle ∈ w2.held := by
    by_contra hnot
    rw [hrep'.other _ hnot] at htable
    cases htable
  rcases hrep'.split hheld with ⟨before', k', after', rfl, heq⟩
  rcases hrep'.laid k' (List.mem_append_right _ List.mem_cons_self) with ⟨impl, himpl, hlaid⟩
  rw [heq, htable] at himpl
  obtain rfl := Option.some.inj himpl
  exact ⟨k', heq, hlaid⟩

/-- Until something throws, a dialogue is that of the C++ channel. The call in which
    something throws first replies `InternalError`, and all it did to a caller's buffer was
    to set its written size to 0. -/
def UntilFault (impl : Impl W L) (said : List ((Request × List Bool) × Reply)) : Prop :=
  ∀ asked request thrown reply rest, said = asked ++ ((request, thrown), reply) :: rest →
    Quiet (asked.map Prod.fst) impl →
    let answered' := answerAll (asked.map fun x => x.1.1) impl
    asked.map Prod.snd = answered'.1 ∧
      reply = if Proc.firstFault thrown (sites request answered'.2) = none then
        (answered request answered'.2).1 else troubled request

/-- Every dialogue is one of the C++ channel until something throws. -/
theorem dialogue_contained {before after : List (Call × List Bool)}
    {answers0 answers : List Answer} {w w1 w2 : World W L} {call : Call} {faults : List Bool}
    {p : Nat} (hbefore : run before World.initial = (.done answers0, w))
    (hcreate : execute call faults w = (.done (.created (some p)), w1))
    (hafter : run after w1 = (.done answers, w2)) :
    ∃ order, call.order = some order ∧
      UntilFault (order.impl W L) (dialogue p (after.zip answers)) := by
  rcases dialogue_of_run hbefore hcreate hafter with ⟨order, hsome, hreplies, -⟩
  refine ⟨order, hsome, fun asked request thrown reply rest hsplit hquiet => ?_⟩
  rw [hsplit] at hreplies
  simp only [List.map_append, List.map_cons, serveAll_append, serveAll] at hreplies
  have hlength : (asked.map Prod.snd).length =
      (serveAll (asked.map Prod.fst) (order.impl W L)).1.length := by
    rw [serveAll_length, List.length_map, List.length_map]
  -- The dialogue is cut where the call in question was made.
  obtain ⟨hasked, hrest⟩ := List.append_inj hreplies hlength
  have hreply := (List.cons.inj hrest).1
  rw [serveAll_of_quiet hquiet, List.map_map] at hasked hreply
  refine ⟨hasked, ?_⟩
  -- If no site of it throws it answers as the channel does. If one does it says so.
  by_cases hfault : Proc.firstFault thrown (sites request
      (answerAll (asked.map fun x => x.1.1) (order.impl W L)).2) = none
  · rw [if_pos hfault, hreply]
    exact congrArg Prod.fst (serve_of_clear hfault)
  · rw [if_neg hfault, hreply]
    exact serve_of_fault hfault

/-- The dialogue of the channel made second. -/
theorem dialogue_contained_taking :
    ∃ order, (Call.createWrapperTcp (some idle) none).order = some order ∧
      UntilFault (order.impl Reference.wrapperLib Reference.hdlcLib)
        (dialogue 4 (taking.zip [.replied (.status 0), .replied (.flag 1), .replied (.flag 1),
          .destroyed (some 2)])) := by
  rcases taking_done with ⟨w, w1, w2, hopening, hcreate, htaking⟩
  exact dialogue_contained hopening hcreate htaking

/-- As long as nothing throws and every call returns, the object behind a handle is one
    that the calls of its C++ class lead to from its constructor with the options given. -/
theorem dialogue_reached {before after : List (Call × List Bool)}
    {answers0 answers : List Answer} {w w1 w2 : World W L} {call : Call} {faults : List Bool}
    {p : Nat} (hbefore : run before World.initial = (.done answers0, w))
    (hcreate : execute call faults w = (.done (.created (some p)), w1))
    (hafter : run after w1 = (.done answers, w2))
    (hheld : ∀ c ∈ after, c.1 ≠ .destroy (some p))
    (hreturned : .blocked ∉ (dialogue p (after.zip answers)).map Prod.snd) :
    ∃ order, call.order = some order ∧
      (Quiet ((dialogue p (after.zip answers)).map Prod.fst) (order.impl W L) →
        ∃ (k : Holding) (impl : Impl W L), k.handle = p ∧ Laid w2.heap k impl ∧
          impl.Reached (toCppOptions order.options)) := by
  rcases dialogue_of_run hbefore hcreate hafter with ⟨order, hsome, hreplies, hchannel⟩
  refine ⟨order, hsome, fun hquiet => ?_⟩
  rcases hchannel hheld with ⟨k, hk, hlaid⟩
  -- Where nothing was thrown the calls have done what those of the class do.
  rw [serveAll_of_quiet hquiet] at hreplies hlaid
  rw [hreplies] at hreturned
  exact ⟨k, _, hk, hlaid, Impl.reached_answerAll (Impl.reached_new _ _ _) hreturned⟩

/-- The channel made second, opened and asked whether it is. -/
theorem dialogue_reached_taking :
    ∃ (w2 : World Reference.wrapperLib Reference.hdlcLib) (k : Holding)
      (impl : Impl Reference.wrapperLib Reference.hdlcLib),
      k.handle = 4 ∧ Laid w2.heap k impl ∧ impl.Reached defaultApduChannelOptions := by
  rcases taking_done with ⟨w, w1, w2, hopening, hcreate, htaking⟩
  have hheld : ∀ c ∈ taking, c.1 ≠ .destroy (some 4) := by
    simp only [taking, List.mem_cons, List.not_mem_nil, or_false]
    rintro c (rfl | rfl | rfl | rfl) heq <;> cases heq
  have hreturned : .blocked ∉ (dialogue 4 (taking.zip [.replied (.status 0), .replied (.flag 1),
      .replied (.flag 1), .destroyed (some 2)])).map Prod.snd := by decide +kernel
  rcases dialogue_reached hopening hcreate htaking hheld hreturned with ⟨order, hsome, hreached⟩
  obtain rfl := Option.some.inj hsome
  rcases hreached ⟨Proc.firstFault_nil _, Proc.firstFault_nil _, trivial⟩ with
    ⟨k, impl, hk, hlaid, himpl⟩
  exact ⟨w2, k, impl, hk, hlaid, himpl⟩

end CApi

end DlmsProfile
