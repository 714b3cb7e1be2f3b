import DlmsProfile.CApi.Handles
import DlmsProfile.Library.Fifo

/-!
# Channels by Handle

What a caller may take the interface for, without addresses and owners: a table of
channels. A creating call adds a channel that stands as its constructor leaves it,
unless something is missing or an allocation throws. A destroying call takes one out.
Every other call is one channel's own business.

That the handles are kept apart is plain here. Whatever is called with other handles
in between, a caller and a channel talk to each other as if there were only the two.

## Main definitions

* `CApi.Order`: What a creating call asks for.
* `CApi.Table`: Channels by handle.
* `CApi.Table.Step`: What a call does to them.
* `CApi.dialogue`: The calls with one handle and the replies to them.
* `CApi.serveAll`, `CApi.answerAll`: A channel serves requests in order.
* `CApi.Quiet`: Nothing throws meanwhile.

## Theorems

* `CApi.creation_eq`: A creating call places its order.
* `CApi.Table.dialogue_of_traces`: A dialogue is that of the channel alone.
-/

namespace DlmsProfile

namespace CApi

/-- What a creating call asks for. -/
structure Order where
  kind : Implementation
  transport : Transport
  options : Option ChannelOptions
  owner : Option Owner

/-- The order of a creating call, if its transport is there or its callbacks are
    complete. -/
def Call.order : Call → Option Order
  | .createWrapperTcp byteStream options => byteStream.map (⟨.wrapperTcp, ·, options, none⟩)
  | .createWrapperUdp datagramTransport options =>
    datagramTransport.map (⟨.wrapperUdp, ·, options, none⟩)
  | .createHdlc byteStream options => byteStream.map (⟨.hdlc, ·, options, none⟩)
  | .createWrapperTcpFromCallbacks callbacks options =>
    (callbacks.filter fun given => validByteStreamCallbacks (some given)).map fun given =>
      ⟨.wrapperTcp, byteStreamAdapter given [], options, some .byteStream⟩
  | .createWrapperUdpFromCallbacks callbacks options =>
    (callbacks.filter fun given => validDatagramCallbacks (some given)).map fun given =>
      ⟨.wrapperUdp, datagramAdapter given, options, some .datagram⟩
  | .createHdlcFromCallbacks callbacks sleeps options =>
    (callbacks.filter fun given => validByteStreamCallbacks (some given)).map fun given =>
      ⟨.hdlc, byteStreamAdapter given sleeps, options, some .byteStream⟩
  | .destroy _ => none
  | .request _ _ => none

/-- The handle a call is made with. -/
def Call.handle : Call → Option Nat
  | .destroy channel => channel
  | .request channel _ => channel
  | _ => none

variable {W : WrapperLib} {L : HdlcLib}

/-- The channel asked for. -/
def Order.impl (W : WrapperLib) (L : HdlcLib) (order : Order) : Impl W L :=
  newImpl W L (toCppOptions order.options) order.transport order.kind

/-- The sites on the way to it: its constructor, its memory, the handle, and the
    adapter if there is one. -/
def Order.sites (L : HdlcLib) (order : Order) : Nat :=
  constructorSites L (toCppOptions order.options) order.kind + 1 + 1 +
    order.owner.toList.length

/-- The function that delivers. -/
def Order.create (order : Order) : Procedure W L (Option Nat) :=
  match order.owner with
  | none => creating order.kind (some order.transport) order.options
  | some owner => creatingFromCallbacks order.kind owner order.transport order.options

/-- Callbacks are complete, or there is no order for them. -/
theorem create_of_valid {κ : Type} (valid : κ → Bool) (place : κ → Order) (given : κ)
    {x : Procedure W L (Option Nat)} (hx : x = (place given).create) :
    (if valid given = false then pure none else x) =
      match ((some given).filter valid).map place with
      | none => pure none
      | some order => order.create := by
  by_cases hvalid : valid given = true
  · rw [if_neg (by rw [hvalid]; exact Bool.true_eq_false.mp), Option.filter_some_pos hvalid, hx]
    rfl
  · rw [Bool.not_eq_true] at hvalid
    rw [if_pos hvalid, Option.filter_some_neg hvalid]
    rfl

/-- A creating call places its order, if it has one. -/
theorem creation_eq {call : Call} {create : Procedure W L (Option Nat)}
    (h : creation call = some create) :
    create = match call.order with
      | none => pure none
      | some order => order.create := by
  -- Three of the calls are given a transport, and three callbacks that are checked first.
  cases call with
  | createWrapperTcp byteStream options => cases byteStream <;> exact (Option.some.inj h).symm
  | createWrapperUdp datagramTransport options =>
      cases datagramTransport <;> exact (Option.some.inj h).symm
  | createHdlc byteStream options => cases byteStream <;> exact (Option.some.inj h).symm
  | createWrapperTcpFromCallbacks callbacks options =>
      rw [← Option.some.inj h]
      cases callbacks with
      | none => rfl
      | some given => exact create_of_valid (fun c => validByteStreamCallbacks (some c)) _ given rfl
  | createWrapperUdpFromCallbacks callbacks options =>
      rw [← Option.some.inj h]
      cases callbacks with
      | none => rfl
      | some given => exact create_of_valid (fun c => validDatagramCallbacks (some c)) _ given rfl
  | createHdlcFromCallbacks callbacks sleeps options =>
      rw [← Option.some.inj h]
      cases callbacks with
      | none => rfl
      | some given => exact create_of_valid (fun c => validByteStreamCallbacks (some c)) _ given rfl
  | destroy channel => cases h
  | request channel request => cases h

/-- An order comes from a creating call, which is made with no handle. -/
theorem Call.handle_of_order {call : Call} {order : Order} (h : call.order = some order) :
    call.handle = none := by
  cases call with
  | destroy channel => cases h
  | request channel request => cases h
  | _ => rfl

theorem Call.handle_of_creation {call : Call}
    (h : (creation call : Option (Procedure W L (Option Nat))).isSome = true) :
    call.handle = none := by
  cases call with
  | destroy channel => cases h
  | request channel request => cases h
  | _ => rfl

/-- Channels by handle. -/
abbrev Table (W : WrapperLib) (L : HdlcLib) : Type := Nat → Option (Impl W L)

namespace Table

/-- No channels. -/
def initial : Table W L := fun _ => none

/-- What a call with some faults on its way answers and makes of a table. -/
inductive Step : Table W L → (Call × List Bool) × Answer → Table W L → Prop
  | created {t : Table W L} {call : Call} {faults : List Bool} {order : Order} {p : Nat}
      (horder : call.order = some order) (hclear : Heap.Clear (order.sites L) faults)
      (hnew : t p = none) :
      Step t ((call, faults), .created (some p)) (Function.update t p (some (order.impl W L)))
  | failed {t : Table W L} {call : Call} {faults : List Bool}
      (hcreates : (creation call : Option (Procedure W L (Option Nat))).isSome = true)
      (hfails : ∀ order ∈ call.order, ¬ Heap.Clear (order.sites L) faults) :
      Step t ((call, faults), .created none) t
  | destroyedNull {t : Table W L} {faults : List Bool} :
      Step t ((.destroy none, faults), .destroyed none) t
  | destroyed {t : Table W L} {faults : List Bool} {p : Nat} (hp : t p ≠ none) :
      Step t ((.destroy (some p), faults), .destroyed (some p)) (Function.update t p none)
  | refused {t : Table W L} {faults : List Bool} {request : Request} :
      Step t ((.request none request, faults), .replied (refused request)) t
  | replied {t : Table W L} {faults : List Bool} {p : Nat} {request : Request} {impl : Impl W L}
      (hp : t p = some impl) :
      Step t ((.request (some p) request, faults), .replied (serve request faults impl).1)
        (Function.update t p (some (serve request faults impl).2))

end Table

/-- The calls with a handle and the replies to them, until it is destroyed. -/
def dialogue (p : Nat) : List ((Call × List Bool) × Answer) → List ((Request × List Bool) × Reply)
  | [] => []
  | ((.destroy (some q), _), _) :: rest => if q = p then [] else dialogue p rest
  | ((.request (some q) request, faults), .replied reply) :: rest =>
    if q = p then ((request, faults), reply) :: dialogue p rest else dialogue p rest
  | _ :: rest => dialogue p rest

/-- A channel serves requests in order. -/
def serveAll : List (Request × List Bool) → Impl W L → List Reply × Impl W L
  | [], impl => ([], impl)
  | (request, faults) :: requests, impl =>
    let served := serve request faults impl
    (served.1 :: (serveAll requests served.2).1, (serveAll requests served.2).2)

/-- The same when nothing throws. -/
def answerAll : List Request → Impl W L → List Reply × Impl W L
  | [], impl => ([], impl)
  | request :: requests, impl =>
    let reply := answered request impl
    (reply.1 :: (answerAll requests reply.2).1, (answerAll requests reply.2).2)

/-- No site on the way of the requests throws. -/
def Quiet : List (Request × List Bool) → Impl W L → Prop
  | [], _ => True
  | (request, faults) :: requests, impl =>
    Proc.firstFault faults (sites request impl) = none ∧ Quiet requests (answered request impl).2

/-- Where nothing throws, a channel answers as it does without the interface. -/
theorem serveAll_of_quiet {requests : List (Request × List Bool)} {impl : Impl W L}
    (h : Quiet requests impl) :
    serveAll requests impl = answerAll (requests.map Prod.fst) impl := by
  induction requests generalizing impl with
  | nil => rfl
  | cons request requests ih =>
      rcases request with ⟨request, faults⟩
      simp only [serveAll, List.map_cons, answerAll, serve_of_clear h.1, ih h.2]

theorem serveAll_append (before after : List (Request × List Bool)) (impl : Impl W L) :
    serveAll (before ++ after) impl =
      ((serveAll before impl).1 ++ (serveAll after (serveAll before impl).2).1,
        (serveAll after (serveAll before impl).2).2) := by
  induction before generalizing impl with
  | nil => rfl
  | cons request before ih => simp only [List.cons_append, serveAll, ih]

theorem serveAll_length (requests : List (Request × List Bool)) (impl : Impl W L) :
    (serveAll requests impl).1.length = requests.length := by
  induction requests generalizing impl with
  | nil => rfl
  | cons request requests ih => simp only [serveAll, List.length_cons, ih]

/-- A call with no handle is no part of a dialogue. -/
theorem dialogue_of_handle_none {call : Call} (h : call.handle = none) (p : Nat)
    (faults : List Bool) (answer : Answer) (rest : List ((Call × List Bool) × Answer)) :
    dialogue p (((call, faults), answer) :: rest) = dialogue p rest := by
  cases call with
  | destroy channel =>
      obtain rfl : channel = none := h
      rfl
  | request channel request =>
      obtain rfl : channel = none := h
      rfl
  | _ => rfl

/-- A call is no part of a dialogue and leaves its channel as it was, or is answered by
    the channel, or ends the dialogue. -/
theorem Table.Step.dialogue_cases {t t1 : Table W L} {call : Call × List Bool} {answer : Answer}
    (hstep : Table.Step t (call, answer) t1) {p : Nat} {impl : Impl W L} (hp : t p = some impl)
    (rest : List ((Call × List Bool) × Answer)) :
    (dialogue p ((call, answer) :: rest) = dialogue p rest ∧ t1 p = some impl) ∨
    (∃ request, dialogue p ((call, answer) :: rest) =
        ((request, call.2), (serve request call.2 impl).1) :: dialogue p rest ∧
      t1 p = some (serve request call.2 impl).2) ∨
    (dialogue p ((call, answer) :: rest) = [] ∧ call.1 = .destroy (some p)) := by
  cases hstep with
  | created horder hclear hnew =>
      rename_i call faults order q
      -- The new handle is another one.
      have hne : p ≠ q := by
        rintro rfl
        rw [hnew] at hp
        cases hp
      exact Or.inl ⟨dialogue_of_handle_none (Call.handle_of_order horder) p faults _ rest,
        (Function.update_of_ne hne _ _).trans hp⟩
  | failed hcreates hfails =>
      exact Or.inl ⟨dialogue_of_handle_none (Call.handle_of_creation hcreates) p _ _ rest, hp⟩
  | destroyedNull => exact Or.inl ⟨rfl, hp⟩
  | destroyed hq =>
      rename_i faults q
      -- This handle is destroyed, or another one is.
      by_cases hqp : q = p
      · refine Or.inr (Or.inr ⟨?_, ?_⟩)
        · simp only [dialogue, if_pos hqp]
        · rw [hqp]
      · refine Or.inl ⟨?_, (Function.update_of_ne (Ne.symm hqp) _ _).trans hp⟩
        simp only [dialogue, if_neg hqp]
  | refused => exact Or.inl ⟨rfl, hp⟩
  | replied hq =>
      rename_i faults q request served
      by_cases hqp : q = p
      · subst hqp
        obtain rfl : impl = served := Option.some.inj (hp.symm.trans hq)
        refine Or.inr (Or.inl ⟨request, ?_, Function.update_self _ _ _⟩)
        simp only [dialogue, if_true]
      · refine Or.inl ⟨?_, (Function.update_of_ne (Ne.symm hqp) _ _).trans hp⟩
        simp only [dialogue, if_neg hqp]

/-- Whatever is called in between, the replies to the calls with a handle are those of
    its channel to these calls alone. If it is not destroyed, its channel is where they
    left it. -/
theorem Table.dialogue_of_traces {t t' : Table W L} {said : List ((Call × List Bool) × Answer)}
    (hrun : Traces Table.Step t said t') {p : Nat} {impl : Impl W L} (hp : t p = some impl) :
    let served := serveAll ((dialogue p said).map Prod.fst) impl
    (dialogue p said).map Prod.snd = served.1 ∧
      ((∀ x ∈ said, x.1.1 ≠ .destroy (some p)) → t' p = some served.2) := by
  -- On the run. A call is about another handle, asks this one, or destroys it.
  induction hrun generalizing impl with
  | nil => exact ⟨rfl, fun _ => hp⟩
  | cons hstep hrest ih =>
      rename_i label said
      rcases label with ⟨call, answer⟩
      have hcons : (∀ x ∈ (call, answer) :: said, x.1.1 ≠ .destroy (some p)) →
          ∀ x ∈ said, x.1.1 ≠ .destroy (some p) := fun hno x hmem =>
        hno x (List.mem_cons_of_mem _ hmem)
      rcases hstep.dialogue_cases hp said with
        ⟨haside, hp1⟩ | ⟨request, hasked, hp1⟩ | ⟨hended, hcall⟩
      · rw [haside]
        exact ⟨(ih hp1).1, fun hno => (ih hp1).2 (hcons hno)⟩
      · rw [hasked]
        simp only [List.map_cons, serveAll, (ih hp1).1]
        exact ⟨trivial, fun hno => (ih hp1).2 (hcons hno)⟩
      · rw [hended]
        exact ⟨rfl, fun hno => absurd hcall (hno _ List.mem_cons_self)⟩

end CApi

end DlmsProfile
