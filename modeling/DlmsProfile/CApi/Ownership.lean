import DlmsProfile.CApi.Table

/-!
# Who Owns What

For each handle a caller holds there are two or three objects on the heap: the
handle, its channel, and the adapter if the channel was made from callbacks. The
handle points to the other two and the channel to the adapter. There is nothing
else on the heap, and no object belongs to two handles.

Every call keeps this, whatever is thrown on its way, as long as the handles it is
given are held. So the heap with its pointers is a table of channels and no more,
and an address that is no handle is found to be none.

## Main definitions

* `CApi.Holding`: The objects that belong to a handle.
* `CApi.Laid`: They are where they should be.
* `CApi.Represents`: The heap is a table of channels.
* `CApi.Proper`: Calls with held handles.

## Theorems

* `CApi.Order.create_cases`: A creation makes all its objects or none.
* `CApi.destroy_of_laid`: A destruction deletes all of them.
* `CApi.execute_represents`: A call does to the heap what it does to the table.
* `CApi.run_represents`: So do calls in order.
-/

namespace DlmsProfile

namespace CApi

open Heap (Adds Removes Owned Clear)

/-- The objects that belong to a handle, by their addresses. -/
structure Holding where
  handle : Nat
  channel : Nat
  adapter : Option (Owner × Nat)

variable {W : WrapperLib} {L : HdlcLib}

namespace Holding

/-- The members of the handle. -/
def record (k : Holding) : Handle where
  impl := some k.channel
  ownedByteStream := k.adapter.bind fun a => a.1.byteStream? a.2
  ownedDatagram := k.adapter.bind fun a => a.1.datagram? a.2

/-- The objects. -/
def objects (k : Holding) (impl : Impl W L) : List (Nat × Cell W L) :=
  (k.handle, .handle k.record) :: (k.channel, .channel impl (k.adapter.map Prod.snd)) ::
    (k.adapter.map fun a => (a.2, a.1.cell)).toList

/-- Their addresses. -/
def addresses (k : Holding) : List Nat :=
  k.handle :: k.channel :: (k.adapter.map Prod.snd).toList

theorem map_objects (k : Holding) (impl : Impl W L) :
    (k.objects impl).map Prod.fst = k.addresses := by
  rcases k with ⟨handle, channel, _ | adapter⟩ <;> rfl

end Holding

/-- The objects of a handle are where they should be. -/
def Laid (h : Heap (Cell W L)) (k : Holding) (impl : Impl W L) : Prop :=
  ∀ x ∈ k.objects impl, h.cells x.1 = some x.2

section Creation

variable {h h0 : Heap (Cell W L)} {faults sites : List Bool}

/-- One site is clear if it does not throw. -/
theorem clear_one : Clear 1 faults ↔ faults.headD false = false := by
  rw [Heap.clear_succ]
  exact and_iff_left (Heap.clear_zero _)

/-- A constructor throws, or there is a channel more. -/
theorem newChannel_cases (kind : Implementation) (transport : Transport)
    (options : ApduChannelOptions) (adapter : Option Nat) (h : Heap (Cell W L))
    (faults sites : List Bool) :
    (Clear (constructorSites L options kind + 1) faults ∧ ∃ passed,
      newChannel kind transport options adapter ⟨h, faults, sites⟩ =
        (.done h.next, ⟨h.add (.channel (newImpl W L options transport kind) adapter),
          faults.drop (constructorSites L options kind + 1), passed⟩)) ∨
    (¬ Clear (constructorSites L options kind + 1) faults ∧ ∃ faults' passed,
      newChannel kind transport options adapter ⟨h, faults, sites⟩ =
        (.fail .exception, ⟨h, faults', passed⟩)) := by
  rw [Heap.clear_add, clear_one]
  -- The sites of the constructor come first, and then the one of `new`.
  rcases Heap.passing_cases (constructorSites L options kind) h faults sites with
    ⟨hclear, passed, hpass⟩ | ⟨hfault, faults', passed, hpass⟩
  · rw [newChannel, Proc.bind_of_done _ hpass, ← List.tail_drop]
    rcases Heap.new_cases (.channel (newImpl W L options transport kind) adapter) h
        (faults.drop (constructorSites L options kind)) passed with ⟨hhead, hnew⟩ | ⟨hhead, hnew⟩
    · exact Or.inl ⟨⟨hclear, hhead⟩, _, hnew⟩
    · refine Or.inr ⟨fun hboth => ?_, _, _, hnew⟩
      rw [hboth.2] at hhead
      cases hhead
  · exact Or.inr ⟨fun hboth => hfault hboth.1, faults', passed, Proc.bind_of_fail _ hpass⟩

/-- A channel gets its handle, or it goes, and its adapter with it. -/
theorem wrapChannelWithOwned_cases {channel : Nat} {adapter : Option (Owner × Nat)}
    {impl : Impl W L} (hadds : Adds h0 h ((channel, .channel impl (adapter.map Prod.snd)) ::
      (adapter.map fun a => (a.2, a.1.cell)).toList)) (faults sites : List Bool) :
    (Clear 1 faults ∧ ∃ t, wrapChannelWithOwned (some channel)
        (adapter.bind fun a => a.1.byteStream? a.2) (adapter.bind fun a => a.1.datagram? a.2)
        ⟨h, faults, sites⟩ = (.done (some h.next), t) ∧
      Adds h0 t.state (Holding.objects ⟨h.next, channel, adapter⟩ impl)) ∨
    (¬ Clear 1 faults ∧ ∃ t, wrapChannelWithOwned (some channel)
        (adapter.bind fun a => a.1.byteStream? a.2) (adapter.bind fun a => a.1.datagram? a.2)
        ⟨h, faults, sites⟩ = (.done none, t) ∧ Adds h0 t.state []) := by
  rw [clear_one]
  rcases Heap.new_cases (.handle ⟨some channel, adapter.bind fun a => a.1.byteStream? a.2,
    adapter.bind fun a => a.1.datagram? a.2⟩) h faults sites with ⟨hhead, hnew⟩ | ⟨hhead, hnew⟩
  · refine Or.inl ⟨hhead, ⟨h.add _, faults.tail, sites ++ [false]⟩, ?_, hadds.new _⟩
    exact Heap.catching_of_done (Proc.bind_of_done _ hnew)
  · refine Or.inr ⟨by rw [hhead]; exact Bool.true_eq_false.mp, ?_⟩
    have hcatch := Heap.catching_of_exception (do
      Heap.delete (some channel)
      (do
        Heap.delete (adapter.bind fun a => a.1.byteStream? a.2)
        Heap.delete (adapter.bind fun a => a.1.datagram? a.2))
      pure none) (Proc.bind_of_fail (fun p => pure (some p)) hnew)
    -- The handler deletes the channel, and then what it owned.
    rcases Heap.delete_of_adds [] hadds with ⟨hchannel, hadds⟩
    rw [Proc.bind_of_done _ hchannel] at hcatch
    rcases adapter with _ | ⟨_ | _, a⟩
    · exact ⟨_, hcatch, hadds⟩
    · rcases Heap.delete_of_adds [] hadds with ⟨hadapter, hadds⟩
      exact ⟨_, hcatch.trans (Proc.bind_of_done _ (Proc.bind_of_done _ hadapter)), hadds⟩
    · rcases Heap.delete_of_adds [] hadds with ⟨hadapter, hadds⟩
      exact ⟨_, hcatch.trans (Proc.bind_of_done _ hadapter), hadds⟩

/-- A channel and its handle are made, or what was made goes again. If the constructor
    throws, an adapter is still there. -/
theorem make_cases (kind : Implementation) (transport : Transport) (options : ApduChannelOptions)
    (adapter : Option (Owner × Nat))
    (hadds : Adds h0 h (adapter.map fun a => (a.2, a.1.cell)).toList) (faults sites : List Bool) :
    let make : Procedure W L (Option Nat) := do
      let channel ← newChannel kind transport options (adapter.map Prod.snd)
      wrapChannelWithOwned (some channel) (adapter.bind fun a => a.1.byteStream? a.2)
        (adapter.bind fun a => a.1.datagram? a.2)
    (Clear (constructorSites L options kind + 1 + 1) faults ∧ ∃ k : Holding, ∃ t,
      make ⟨h, faults, sites⟩ = (.done (some k.handle), t) ∧
        Adds h0 t.state (k.objects (newImpl W L options transport kind))) ∨
    (¬ Clear (constructorSites L options kind + 1 + 1) faults ∧
      ((∃ t, make ⟨h, faults, sites⟩ = (.done none, t) ∧ Adds h0 t.state []) ∨
        ∃ faults' passed, make ⟨h, faults, sites⟩ = (.fail .exception, ⟨h, faults', passed⟩))) := by
  intro make
  rw [Heap.clear_add _ 1]
  rcases newChannel_cases kind transport options (adapter.map Prod.snd) h faults sites with
    ⟨hclear, passed, hnew⟩ | ⟨hfault, faults', passed, hnew⟩
  -- There is a channel now, which its handle is made for.
  · have hmake : make ⟨h, faults, sites⟩ = _ := Proc.bind_of_done _ hnew
    rcases wrapChannelWithOwned_cases (hadds.new _)
      (faults.drop (constructorSites L options kind + 1)) passed with
      ⟨hone, t, hwrap, hall⟩ | ⟨hone, t, hwrap, hnone⟩
    · exact Or.inl ⟨⟨hclear, hone⟩, _, t, hmake.trans hwrap, hall⟩
    · exact Or.inr ⟨fun hboth => hone hboth.2, Or.inl ⟨t, hmake.trans hwrap, hnone⟩⟩
  · exact Or.inr ⟨fun hboth => hfault hboth.1, Or.inr ⟨faults', passed, Proc.bind_of_fail _ hnew⟩⟩

/-- A creation makes all the objects of a handle, or leaves none. -/
theorem Order.create_cases (order : Order) (h : Heap (Cell W L)) (faults sites : List Bool) :
    (Clear (order.sites L) faults ∧ ∃ k : Holding, ∃ t,
      order.create ⟨h, faults, sites⟩ = (.done (some k.handle), t) ∧
        Adds h t.state (k.objects (order.impl W L))) ∨
    (¬ Clear (order.sites L) faults ∧ ∃ t,
      order.create ⟨h, faults, sites⟩ = (.done none, t) ∧ Adds h t.state []) := by
  rcases order with ⟨kind, transport, options, _ | owner⟩
  · rcases make_cases kind transport (toCppOptions options) none (Heap.adds_refl h)
        faults sites with
      ⟨hclear, k, t, hmake, hadds⟩ | ⟨hfault, ⟨t, hmake, hadds⟩ | ⟨faults', passed, hmake⟩⟩
    · exact Or.inl ⟨hclear, k, t, Heap.catching_of_done hmake, hadds⟩
    · exact Or.inr ⟨hfault, t, Heap.catching_of_done hmake, hadds⟩
    · exact Or.inr ⟨hfault, _, Heap.catching_of_exception _ hmake, Heap.adds_refl h⟩
  · have hsites : Order.sites L ⟨kind, transport, options, some owner⟩ =
        1 + (constructorSites L (toCppOptions options) kind + 1 + 1) := Nat.add_comm _ _
    rw [hsites, Heap.clear_add, clear_one, List.drop_one]
    let make (adapter : Nat) : Procedure W L (Option Nat) := do
      let channel ← newChannel kind transport (toCppOptions options) (some adapter)
      wrapChannelWithOwned (some channel) (owner.byteStream? adapter) (owner.datagram? adapter)
    -- The adapter comes first. From then on somebody has to delete it.
    rcases Heap.new_cases owner.cell h faults sites with ⟨hhead, hnew⟩ | ⟨hhead, hnew⟩
    · have howning := Proc.bind_of_done (fun adapter => Heap.owning adapter (make adapter)) hnew
      rcases make_cases kind transport (toCppOptions options) (some (owner, h.next))
          ((Heap.adds_refl h).new owner.cell) faults.tail (sites ++ [false]) with
        ⟨hclear, k, t, hmake, hadds⟩ | ⟨hfault, ⟨t, hmake, hadds⟩ | ⟨faults', passed, hmake⟩⟩
      · refine Or.inl ⟨⟨hhead, hclear⟩, k, t, ?_, hadds⟩
        exact Heap.catching_of_done (howning.trans (Heap.catching_of_done hmake))
      · refine Or.inr ⟨fun hboth => hfault hboth.2, t, ?_, hadds⟩
        exact Heap.catching_of_done (howning.trans (Heap.catching_of_done hmake))
      · -- The constructor threw, and the adapter is deleted on the way out.
        have hadds := (Heap.adds_refl h).new (owner.cell : Cell W L)
        have hadapter := (hadds.held _ List.mem_cons_self).2
        refine Or.inr ⟨fun hboth => hfault hboth.2,
          ⟨(h.add owner.cell).remove h.next, faults', passed⟩, ?_, hadds.delete []⟩
        exact Heap.catching_of_exception _
          (howning.trans (Heap.owning_of_exception hmake hadapter))
    · refine Or.inr ⟨fun hboth => ?_, ⟨h, faults.tail, sites ++ [false]⟩, ?_, Heap.adds_refl h⟩
      · rw [hboth.1] at hhead
        cases hhead
      · exact Heap.catching_of_exception _ (Proc.bind_of_fail _ hnew)

end Creation

section Use

variable {h : Heap (Cell W L)} {k : Holding} {impl : Impl W L}

theorem Laid.handle (hlaid : Laid h k impl) : h.cells k.handle = some (.handle k.record) :=
  hlaid _ List.mem_cons_self

theorem Laid.channel (hlaid : Laid h k impl) :
    h.cells k.channel = some (.channel impl (k.adapter.map Prod.snd)) :=
  hlaid _ (List.mem_cons_of_mem _ List.mem_cons_self)

theorem Laid.adapter (hlaid : Laid h k impl) {owner : Owner} {a : Nat}
    (ha : k.adapter = some (owner, a)) : h.cells a = some owner.cell := by
  refine hlaid (a, owner.cell) ?_
  simp only [Holding.objects, ha, Option.map_some, Option.toList_some, List.mem_cons, true_or,
    or_true]

/-- What is laid stays where none of its addresses is touched. -/
theorem Laid.congr {h' : Heap (Cell W L)} (hlaid : Laid h k impl)
    (hsame : ∀ a ∈ k.addresses, h'.cells a = h.cells a) : Laid h' k impl := by
  intro x hx
  rw [hsame x.1, hlaid x hx]
  rw [← Holding.map_objects k impl]
  exact List.mem_map_of_mem hx

/-- The channel may be overwritten. -/
theorem Laid.write (hlaid : Laid h k impl) (hnodup : k.addresses.Nodup) (impl' : Impl W L) :
    Laid (h.write k.channel (.channel impl' (k.adapter.map Prod.snd))) k impl' := by
  rw [Holding.addresses, List.nodup_cons, List.nodup_cons, List.mem_cons, not_or] at hnodup
  rcases hnodup with ⟨⟨hhandle, -⟩, hadapter, -⟩
  intro x hx
  rcases List.mem_cons.mp hx with rfl | hx
  · exact (Heap.write_cells_of_ne hhandle _ _).trans hlaid.handle
  rcases List.mem_cons.mp hx with rfl | hx
  · exact Heap.write_cells_self hlaid.channel _
  -- The adapter is another object, for no address of a handle is there twice.
  · have hne : x.1 ≠ k.channel := by
      rintro heq
      rcases Option.map_eq_some_iff.mp (Option.mem_toList.mp hx) with ⟨a, ha, rfl⟩
      refine hadapter (Option.mem_toList.mpr ?_)
      rw [← heq, ha]
      rfl
    refine (Heap.write_cells_of_ne hne _ _).trans (hlaid x ?_)
    exact List.mem_cons_of_mem _ (List.mem_cons_of_mem _ hx)

/-- A held handle is loaded. -/
theorem loadHandle_of_laid (hlaid : Laid h k impl) (faults sites : List Bool) :
    loadHandle k.handle ⟨h, faults, sites⟩ = (.done k.record, ⟨h, faults, sites⟩) := by
  rw [loadHandle, Proc.bind_of_done _ (Heap.load_of_some hlaid.handle)]
  rfl

/-- What holds no handle is not loaded as one. -/
theorem loadHandle_of_none {p : Nat} (hp : ∀ handle, h.cells p ≠ some (.handle handle))
    (faults sites : List Bool) :
    (loadHandle p : Procedure W L Handle) ⟨h, faults, sites⟩ =
      (.fail (.status .badAddress), ⟨h, faults, sites⟩) := by
  unfold loadHandle
  -- At the address is nothing, or something that is no handle.
  cases hcell : h.cells p with
  | none => rw [Proc.bind_of_fail _ (Heap.load_of_none hcell)]
  | some cell =>
      rw [Proc.bind_of_done _ (Heap.load_of_some hcell)]
      cases cell with
      | handle handle => exact absurd hcell (hp handle)
      | channel impl adapter => rfl
      | byteStreamAdapter => rfl
      | datagramAdapter => rfl

/-- A channel finds the adapter it refers to. -/
theorem useAdapter_of_laid (hlaid : Laid h k impl) (faults sites : List Bool) :
    (useAdapter (k.adapter.map Prod.snd) : Procedure W L Unit) ⟨h, faults, sites⟩ =
      (.done (), ⟨h, faults, sites⟩) := by
  rcases hadapter : k.adapter with _ | ⟨owner, a⟩
  · rfl
  · rw [Option.map_some, useAdapter,
      Proc.bind_of_done _ (Heap.load_of_some (hlaid.adapter hadapter))]
    cases owner <;> rfl

/-- A call with a held handle is a call of its channel. -/
theorem forwarding_of_laid (hlaid : Laid h k impl) (request : Request) (faults sites : List Bool) :
    forwarding request (some k.handle) ⟨h, faults, sites⟩ =
      (.done (serve request faults impl).1,
        ⟨h.write k.channel (.channel (serve request faults impl).2 (k.adapter.map Prod.snd)),
          faults, sites⟩) := by
  rw [forwarding, Proc.bind_of_done _ (loadHandle_of_laid hlaid faults sites)]
  have hchannel : (loadChannel k.channel : Procedure W L _) ⟨h, faults, sites⟩ =
      (.done (impl, k.adapter.map Prod.snd), ⟨h, faults, sites⟩) := by
    rw [loadChannel, Proc.bind_of_done _ (Heap.load_of_some hlaid.channel)]
    rfl
  simp only [Holding.record]
  rw [Proc.bind_of_done _ hchannel, Proc.bind_of_done _ (useAdapter_of_laid hlaid faults sites)]
  rfl

/-- The adapter stands in one of the two members of the handle, and the other is null. -/
theorem Holding.record_cases (k : Holding) :
    (k.record.ownedByteStream = k.adapter.map Prod.snd ∧ k.record.ownedDatagram = none) ∨
      (k.record.ownedByteStream = none ∧ k.record.ownedDatagram = k.adapter.map Prod.snd) := by
  rcases k with ⟨handle, channel, _ | ⟨_ | _, a⟩⟩
  · exact Or.inl ⟨rfl, rfl⟩
  · exact Or.inl ⟨rfl, rfl⟩
  · exact Or.inr ⟨rfl, rfl⟩

/-- Something is deleted, and the member that pointed to it is set to null. -/
theorem drop_of_removes {h0 : Heap (Cell W L)} {p : Nat} {addresses : List Nat}
    (pointer : Option Nat) {old : Cell W L} (hrem : Removes h0 h p addresses)
    (hp : h.cells p = some old)
    (hlive : ∀ a ∈ pointer, a ≠ p ∧ a ∉ addresses ∧ (h0.cells a).isSome = true)
    (handle : Handle) (next : Procedure W L Unit) (faults sites : List Bool) :
    ∃ h', (do
        Heap.delete pointer
        Heap.store p (.handle handle)
        next : Procedure W L Unit) ⟨h, faults, sites⟩ = next ⟨h', faults, sites⟩ ∧
      Removes h0 h' p (pointer.toList ++ addresses) ∧ h'.cells p = some (.handle handle) := by
  -- The object is deleted, and the pointer to it forgotten.
  rcases Heap.delete_of_removes hrem hlive with ⟨h1, hdelete, hrem1, hp1⟩
  rw [← hp1] at hp
  refine ⟨h1.write p (.handle handle), ?_, hrem1.write _, Heap.write_cells_self hp _⟩
  rw [Proc.bind_of_done _ hdelete, Proc.bind_of_done _ (Heap.store_of_some hp _)]

/-- A destruction deletes all the objects of a handle. -/
theorem destroy_of_laid (hlaid : Laid h k impl) (hnodup : k.addresses.Nodup)
    (faults sites : List Bool) :
    ∃ h', dlmsProfileDestroyChannel (some k.handle) ⟨h, faults, sites⟩ =
        (.done (), ⟨h', faults, sites⟩) ∧ Removes h h' k.handle k.addresses := by
  rw [Holding.addresses, List.nodup_cons, List.nodup_cons, List.mem_cons, not_or] at hnodup
  rcases hnodup with ⟨⟨hchannel, hadapter⟩, hother, -⟩
  -- The adapter, if there is one, is neither the handle nor the channel.
  have hlive : ∀ a ∈ k.adapter.map Prod.snd,
      a ≠ k.handle ∧ a ∉ [k.channel] ∧ (h.cells a).isSome = true := by
    intro a ha
    rcases Option.map_eq_some_iff.mp ha with ⟨⟨owner, b⟩, hb, rfl⟩
    rw [hb] at hadapter hother
    simp only [Option.map_some, Option.toList_some, List.mem_singleton] at hadapter hother
    refine ⟨fun heq => hadapter heq.symm, ?_, ?_⟩
    · rw [List.mem_singleton]
      exact fun heq => hother heq.symm
    · rw [hlaid.adapter hb]
      rfl
  -- So is what each member points to, when it is its turn.
  have hbytes : ∀ a ∈ k.record.ownedByteStream,
      a ≠ k.handle ∧ a ∉ [k.channel] ∧ (h.cells a).isSome = true := by
    intro a ha
    rcases k.record_cases with ⟨hsome, -⟩ | ⟨hnone, -⟩
    · exact hlive a (hsome ▸ ha)
    · rw [hnone] at ha
      cases ha
  have hdatagrams : ∀ a ∈ k.record.ownedDatagram, a ≠ k.handle ∧
      a ∉ k.record.ownedByteStream.toList ++ [k.channel] ∧ (h.cells a).isSome = true := by
    intro a ha
    rcases k.record_cases with ⟨-, hnone⟩ | ⟨hnone, hsome⟩
    · rw [hnone] at ha
      cases ha
    · rw [hnone]
      exact hlive a (hsome ▸ ha)
  have hall : ∀ a, a ∈ k.addresses ↔
      a ∈ k.handle :: (k.record.ownedDatagram.toList ++
        (k.record.ownedByteStream.toList ++ [k.channel])) := by
    intro a
    rcases k.record_cases with ⟨hone, hnull⟩ | ⟨hnull, hone⟩
    · rw [hone, hnull, Option.toList_none, List.nil_append, Holding.addresses]
      simp only [List.mem_cons, List.mem_append, List.not_mem_nil, or_false]
      exact or_congr_right or_comm
    · rw [hone, hnull, Option.toList_none, List.nil_append, Holding.addresses]
      simp only [List.mem_cons, List.mem_append, List.not_mem_nil, or_false]
      exact or_congr_right or_comm
  rw [dlmsProfileDestroyChannel, Proc.bind_of_done _ (loadHandle_of_laid hlaid faults sites)]
  rcases drop_of_removes k.record.impl (Heap.removes_refl h k.handle) hlaid.handle
      (fun a ha => by
        obtain rfl : k.channel = a := Option.some.inj ha
        exact ⟨fun heq => hchannel heq.symm, List.not_mem_nil, by rw [hlaid.channel]; rfl⟩)
      { k.record with impl := none } _ faults sites with ⟨h1, hdrop1, hrem1, hp1⟩
  rcases drop_of_removes k.record.ownedByteStream hrem1 hp1 hbytes
      { k.record with impl := none, ownedByteStream := none } _ faults sites with
    ⟨h2, hdrop2, hrem2, hp2⟩
  rcases drop_of_removes k.record.ownedDatagram hrem2 hp2 hdatagrams ⟨none, none, none⟩ _ faults
    sites with
    ⟨h3, hdrop3, hrem3, hp3⟩
  rw [hdrop1, hdrop2, hdrop3, Heap.delete_of_some hp3]
  exact ⟨_, rfl, (hrem3.delete k.handle).congr hall⟩

end Use

/-- The heap is a table of channels: for each handle held its objects, which belong to
    no other, and nothing else. -/
structure Represents (w : World W L) (t : Table W L) (held : List Holding) : Prop where
  names : held.map Holding.handle = w.held
  owned : Owned w.heap (held.map Holding.addresses)
  laid : ∀ k ∈ held, ∃ impl, t k.handle = some impl ∧ Laid w.heap k impl
  other : ∀ p, p ∉ w.held → t p = none

theorem represents_initial : Represents (World.initial : World W L) Table.initial [] where
  names := rfl
  owned := Owned.empty
  laid _ hk := absurd hk List.not_mem_nil
  other _ _ := rfl

section Represents

variable {w : World W L} {t : Table W L} {held : List Holding}

/-- A handle held belongs to a holding. -/
theorem Represents.split (hrep : Represents w t held) {p : Nat} (hp : p ∈ w.held) :
    ∃ before k after, held = before ++ k :: after ∧ k.handle = p := by
  rw [← hrep.names] at hp
  rcases List.mem_map.mp hp with ⟨k, hk, heq⟩
  rcases List.append_of_mem hk with ⟨before, after, hsplit⟩
  exact ⟨before, k, after, hsplit, heq⟩

/-- What is not held is no handle. -/
theorem Represents.no_handle (hrep : Represents w t held) {p : Nat} (hp : p ∉ w.held)
    (handle : Handle) : w.heap.cells p ≠ some (.handle handle) := by
  intro hcell
  -- What is live is an object of some handle, and of these only the handle is one.
  have hlive : p ∈ (held.map Holding.addresses).flatten :=
    (hrep.owned.live p).mp (by rw [hcell]; rfl)
  rcases List.mem_flatten.mp hlive with ⟨as, has, hpa⟩
  rcases List.mem_map.mp has with ⟨k, hk, rfl⟩
  rcases hrep.laid k hk with ⟨impl, -, hlaid⟩
  rw [← Holding.map_objects k impl] at hpa
  rcases List.mem_map.mp hpa with ⟨⟨a, cell⟩, hx, rfl⟩
  have hobject := Option.some.inj (hcell.symm.trans (hlaid _ hx))
  simp only [Holding.objects, List.mem_cons, Prod.mk.injEq] at hx
  rcases hx with ⟨rfl, -⟩ | ⟨-, rfl⟩ | hx
  · exact hp (hrep.names ▸ List.mem_map_of_mem hk)
  · cases hobject
  · rcases Option.map_eq_some_iff.mp (Option.mem_toList.mp hx) with ⟨⟨owner, b⟩, -, heq⟩
    obtain ⟨-, rfl⟩ := Prod.mk.inj heq
    cases owner <;> cases hobject

/-- A new holding beside the others. -/
theorem Represents.create (hrep : Represents w t held) {h' : Heap (Cell W L)} {k : Holding}
    {impl : Impl W L} (hadds : Adds w.heap h' (k.objects impl)) :
    k.handle ∉ w.held ∧ Represents ⟨h', k.handle :: w.held⟩
      (Function.update t k.handle (some impl)) (k :: held) := by
  have hfree : w.heap.cells k.handle = none := (hadds.held _ List.mem_cons_self).1
  -- The address was free, and those of the handles held are not.
  have hnew : k.handle ∉ w.held := by
    intro hmem
    rcases hrep.split hmem with ⟨before, k', after, rfl, heq⟩
    rcases hrep.laid k' (List.mem_append_right _ List.mem_cons_self) with ⟨impl', -, hlaid⟩
    have hhandle := hlaid.handle
    rw [heq, hfree] at hhandle
    cases hhandle
  refine ⟨hnew, ⟨?_, ?_, fun k' hk' => ?_, fun p hp => ?_⟩⟩
  · rw [List.map_cons, hrep.names]
  · rw [List.map_cons, ← Holding.map_objects k impl]
    exact hrep.owned.adds hadds
  · rcases List.mem_cons.mp hk' with rfl | hk'
    · exact ⟨impl, Function.update_self _ _ _, fun x hx => (hadds.held x hx).2⟩
    · rcases hrep.laid k' hk' with ⟨impl', htable, hlaid⟩
      have hne : k'.handle ≠ k.handle := fun heq => by
        rw [← heq, hlaid.handle] at hfree
        cases hfree
      exact ⟨impl', (Function.update_of_ne hne _ _).trans htable,
        fun x hx => hadds.keeps (hlaid x hx)⟩
  · rw [List.mem_cons, not_or] at hp
    exact (Function.update_of_ne hp.1 _ _).trans (hrep.other p hp.2)

/-- Nothing new. -/
theorem Represents.same (hrep : Represents w t held) {h' : Heap (Cell W L)}
    (hadds : Adds w.heap h' []) : Represents ⟨h', w.held⟩ t held where
  names := hrep.names
  owned := hrep.owned.congr fun a => by rw [hadds.same]
  laid k hk := by
    rcases hrep.laid k hk with ⟨impl, htable, hlaid⟩
    exact ⟨impl, htable, fun x hx => hadds.keeps (hlaid x hx)⟩
  other := hrep.other

variable {before after : List Holding} {k : Holding}

/-- The objects of one handle are not those of another. -/
theorem Represents.apart (hrep : Represents w t (before ++ k :: after)) {k' : Holding}
    (hk' : k' ∈ before ++ after) {a : Nat} (ha : a ∈ k.addresses) : a ∉ k'.addresses := by
  have howned := hrep.owned
  rw [List.map_append, List.map_cons] at howned
  refine howned.not_mem ?_ ha
  rw [← List.map_append]
  exact List.mem_map_of_mem hk'

/-- In particular its handle is another one. -/
theorem Represents.handle_ne (hrep : Represents w t (before ++ k :: after)) {k' : Holding}
    (hk' : k' ∈ before ++ after) : k'.handle ≠ k.handle := fun heq =>
  hrep.apart hk' (heq ▸ List.mem_cons_self) List.mem_cons_self

/-- A holding less. -/
theorem Represents.destroy (hrep : Represents w t (before ++ k :: after)) {h' : Heap (Cell W L)}
    (hrem : Removes w.heap h' k.handle k.addresses) :
    Represents ⟨h', w.held.erase k.handle⟩ (Function.update t k.handle none)
      (before ++ after) where
  -- The handle is on the list once, between those before and those after it.
  names := by
    have hbefore : k.handle ∉ before.map Holding.handle := by
      intro hmem
      rcases List.mem_map.mp hmem with ⟨k', hk', heq⟩
      exact hrep.handle_ne (List.mem_append_left _ hk') heq
    rw [← hrep.names, List.map_append, List.map_append, List.map_cons,
      List.erase_append_right _ hbefore, List.erase_cons_head]
  owned := by
    have howned := hrep.owned
    rw [List.map_append, List.map_cons] at howned
    rw [List.map_append]
    exact howned.removes List.mem_cons_self hrem
  laid k' hk' := by
    rcases hrep.laid k' (by
      rw [List.mem_append, List.mem_cons]
      exact (List.mem_append.mp hk').imp_right Or.inr) with ⟨impl, htable, hlaid⟩
    refine ⟨impl, (Function.update_of_ne (hrep.handle_ne hk') _ _).trans htable, ?_⟩
    -- What belongs to another handle is at none of the addresses removed.
    refine hlaid.congr fun a ha => hrem.other a ?_ fun hmem => hrep.apart hk' hmem ha
    exact fun heq => hrep.apart hk' (heq ▸ List.mem_cons_self) ha
  other p hp := by
    by_cases heq : p = k.handle
    · rw [heq]
      exact Function.update_self _ _ _
    · refine (Function.update_of_ne heq _ _).trans (hrep.other p fun hmem => hp ?_)
      exact (List.mem_erase_of_ne heq).mpr hmem

/-- No object of a handle is there twice. -/
theorem Represents.nodup (hrep : Represents w t (before ++ k :: after)) : k.addresses.Nodup := by
  refine (List.nodup_flatten.mp hrep.owned.nodup).1 _ (List.mem_map_of_mem ?_)
  exact List.mem_append_right _ List.mem_cons_self

/-- A channel changed. -/
theorem Represents.request (hrep : Represents w t (before ++ k :: after)) {impl : Impl W L}
    (hlaid : Laid w.heap k impl) (impl' : Impl W L) :
    Represents ⟨w.heap.write k.channel (.channel impl' (k.adapter.map Prod.snd)), w.held⟩
      (Function.update t k.handle (some impl')) (before ++ k :: after) where
  names := hrep.names
  owned := hrep.owned.congr (w.heap.write_live _ _)
  laid k' hk' := by
    rw [List.mem_append, List.mem_cons] at hk'
    have hchannel : k.channel ∈ k.addresses := List.mem_cons_of_mem _ List.mem_cons_self
    by_cases hother : k' ∈ before ++ after
    · rcases hrep.laid k' (by rw [List.mem_append, List.mem_cons]; exact hk') with
        ⟨impl1, htable, hlaid1⟩
      refine ⟨impl1, (Function.update_of_ne (hrep.handle_ne hother) _ _).trans htable, ?_⟩
      refine hlaid1.congr fun a ha => Heap.write_cells_of_ne ?_ _ _
      exact fun heq => hrep.apart hother hchannel (heq ▸ ha)
    · -- Only the channel of this handle was overwritten.
      have hsame : k' = k := by
        rw [List.mem_append, not_or] at hother
        exact (hk'.resolve_left hother.1).resolve_right hother.2
      subst hsame
      exact ⟨impl', Function.update_self _ _ _, hlaid.write hrep.nodup impl'⟩
  other p hp := by
    refine (Function.update_of_ne ?_ _ _).trans (hrep.other p hp)
    rintro rfl
    rw [← hrep.names] at hp
    exact hp (List.mem_map_of_mem (List.mem_append_right _ List.mem_cons_self))

end Represents

section Execution

variable {w : World W L} {t : Table W L} {held : List Holding}

/-- A call with a handle that is none. -/
theorem execute_of_not_held (hrep : Represents w t held) {call : Call} {p : Nat}
    (hcall : call.handle = some p) (hp : p ∉ w.held) (faults : List Bool) :
    execute call faults w = (.fail (.status .badAddress), w) := by
  have hload := loadHandle_of_none (hrep.no_handle hp) faults []
  have hentry : (entry call : Procedure W L Answer) ⟨w.heap, faults, []⟩ =
      (.fail (.status .badAddress), ⟨w.heap, faults, []⟩) := by
    -- Each call that takes a handle loads it before anything else.
    cases call with
    | destroy channel =>
        obtain rfl : channel = some p := hcall
        exact Proc.bind_of_fail _ (Proc.bind_of_fail _ hload)
    | request channel request =>
        obtain rfl : channel = some p := hcall
        rw [entry, requested_eq]
        exact Proc.bind_of_fail _ (Proc.bind_of_fail _ hload)
    | _ => cases hcall
  rw [execute, hentry]

/-- A call of which the function answered. -/
theorem execute_of_done {call : Call} {faults : List Bool} {answer : Answer}
    {s : Faulty (Heap (Cell W L))}
    (hentry : entry call ⟨w.heap, faults, []⟩ = (.done answer, s)) :
    execute call faults w = (.done answer, ⟨s.state, answer.track w.held⟩) := by
  rw [execute, hentry]

/-- What gives a handle is a creating call. -/
theorem creation_of_created {call : Call} {faults : List Bool} {channel : Option Nat}
    {w' : World W L} (h : execute call faults w = (.done (.created channel), w')) :
    ∃ create : Procedure W L (Option Nat), creation call = some create := by
  rcases hentry : (entry call : Procedure W L Answer) ⟨w.heap, faults, []⟩ with ⟨answer | e | _, s⟩
  · rw [execute_of_done hentry] at h
    obtain rfl := Outcome.done.inj (Prod.mk.inj h).1
    -- The other two answer with something else.
    cases call with
    | destroy channel' =>
        rcases Proc.bind_done_iff.mp hentry with ⟨_, s1, -, hpure⟩
        cases hpure
    | request channel' request =>
        rcases Proc.bind_done_iff.mp hentry with ⟨reply, s1, -, hpure⟩
        cases hpure
    | _ => exact ⟨_, rfl⟩
  · rw [execute, hentry] at h
    cases h
  · rw [execute, hentry] at h
    cases h

/-- A creating call gives a handle and adds its objects if it has an order and nothing
    throws, and otherwise it gives none and adds nothing. -/
theorem execute_create_cases {call : Call} {create : Procedure W L (Option Nat)}
    (hcreates : creation call = some create) (faults : List Bool) (w : World W L) :
    (∃ order ∈ call.order, Clear (order.sites L) faults ∧ ∃ (k : Holding) (h' : Heap (Cell W L)),
      execute call faults w = (.done (.created (some k.handle)), ⟨h', k.handle :: w.held⟩) ∧
        Adds w.heap h' (k.objects (order.impl W L))) ∨
    ((∀ order ∈ call.order, ¬ Clear (order.sites L) faults) ∧ ∃ h' : Heap (Cell W L),
      execute call faults w = (.done (.created none), ⟨h', w.held⟩) ∧ Adds w.heap h' []) := by
  have hentry : ∀ {o : Option Nat} {s}, create ⟨w.heap, faults, []⟩ = (.done o, s) →
      execute call faults w = (.done (.created o), ⟨s.state, (Answer.created o).track w.held⟩) := by
    intro o s hcreate
    have hbody : (entry call : Procedure W L Answer) =
        create >>= fun channel => pure (.created channel) := by
      cases call with
      | destroy channel => cases hcreates
      | request channel request => cases hcreates
      | _ => rw [← Option.some.inj hcreates]; rfl
    refine execute_of_done ?_
    rw [hbody, Proc.bind_of_done _ hcreate]
    rfl
  have hcreate := creation_eq hcreates
  -- Without the arguments it needs the call makes nothing, and so throws nothing.
  cases horder : call.order with
  | none =>
      rw [horder] at hcreate
      refine Or.inr ⟨fun order hmem => absurd hmem (Option.not_mem_none order), w.heap, ?_,
        Heap.adds_refl _⟩
      exact hentry (congrFun hcreate _)
  | some order =>
      rw [horder] at hcreate
      subst hcreate
      rcases order.create_cases w.heap faults [] with
        ⟨hclear, k, s, hdone, hadds⟩ | ⟨hfault, s, hdone, hadds⟩
      · exact Or.inl ⟨order, rfl, hclear, k, s.state, hentry hdone, hadds⟩
      · refine Or.inr ⟨fun order' hmem => ?_, s.state, hentry hdone, hadds⟩
        exact Option.some.inj hmem ▸ hfault

/-- A creating call does to the heap what it does to the table. -/
theorem execute_create (hrep : Represents w t held) {call : Call}
    {create : Procedure W L (Option Nat)} (hcreates : creation call = some create)
    (faults : List Bool) :
    ∃ answer w' t' held', execute call faults w = (.done answer, w') ∧
      Table.Step t ((call, faults), answer) t' ∧ Represents w' t' held' := by
  rcases execute_create_cases hcreates faults w with
    ⟨order, horder, hclear, k, h', hexecute, hadds⟩ | ⟨hfails, h', hexecute, hadds⟩
  · rcases hrep.create hadds with ⟨hnew, hrep'⟩
    exact ⟨_, _, _, _, hexecute, .created horder hclear (hrep.other _ hnew), hrep'⟩
  · refine ⟨_, _, t, held, hexecute, .failed ?_ hfails, hrep.same hadds⟩
    rw [hcreates]
    rfl

/-- A call with a handle that is held, or with none, does to the heap what it does to
    the table. -/
theorem execute_represents (hrep : Represents w t held) {call : Call}
    (hheld : ∀ p ∈ call.handle, p ∈ w.held) (faults : List Bool) :
    ∃ answer w' t' held', execute call faults w = (.done answer, w') ∧
      Table.Step t ((call, faults), answer) t' ∧ Represents w' t' held' := by
  -- By the calls. A null handle is refused or ignored, and any other one is held.
  cases call with
  | destroy channel =>
      cases channel with
      | none => exact ⟨_, _, t, held, execute_of_done rfl, .destroyedNull, hrep⟩
      | some p =>
          rcases hrep.split (hheld p rfl) with ⟨before, k, after, rfl, rfl⟩
          rcases hrep.laid k (List.mem_append_right _ List.mem_cons_self) with
            ⟨impl, htable, hlaid⟩
          rcases destroy_of_laid hlaid hrep.nodup faults [] with ⟨h', hdestroy, hrem⟩
          refine ⟨_, _, _, _, execute_of_done (Proc.bind_of_done _ hdestroy),
            .destroyed (by rw [htable]; exact Option.some_ne_none _), hrep.destroy hrem⟩
  | request channel request =>
      cases channel with
      | none =>
          have hentry : (entry (.request none request) : Procedure W L Answer)
              ⟨w.heap, faults, []⟩ =
                (.done (.replied (refused request)), ⟨w.heap, faults, []⟩) := by
            rw [entry, requested_eq]
            rfl
          exact ⟨_, _, t, held, execute_of_done hentry, .refused, hrep⟩
      | some p =>
          rcases hrep.split (hheld p rfl) with ⟨before, k, after, rfl, rfl⟩
          rcases hrep.laid k (List.mem_append_right _ List.mem_cons_self) with
            ⟨impl, htable, hlaid⟩
          have hentry := Proc.bind_of_done (fun reply => pure (Answer.replied reply))
            (forwarding_of_laid hlaid request faults [])
          rw [← requested_eq] at hentry
          exact ⟨_, _, _, _, execute_of_done hentry, .replied htable, hrep.request hlaid _⟩
  | _ => exact execute_create hrep rfl faults

/-- Every call is made without a handle or with one that is held by then. -/
def Proper (w : World W L) (calls : List (Call × List Bool)) : Prop :=
  ∀ before call faults after answers w', calls = before ++ (call, faults) :: after →
    run before w = (.done answers, w') → ∀ p ∈ call.handle, p ∈ w'.held

/-- Calls in order do to the heap what they do to the table, or one of them is made with
    a handle that is not held. -/
theorem run_represents (hrep : Represents w t held) (calls : List (Call × List Bool)) :
    (Proper w calls ∧ ∃ answers w' t' held', run calls w = (.done answers, w') ∧
      Traces Table.Step t (calls.zip answers) t' ∧ Represents w' t' held') ∨
    (¬ Proper w calls ∧ ∃ w', run calls w = (.fail (.status .badAddress), w')) := by
  induction calls generalizing w t held with
  | nil =>
      refine Or.inl ⟨fun before call faults after answers w' hsplit => ?_, [], w, t, held, rfl,
        .nil, hrep⟩
      cases before <;> cases hsplit
  | cons call calls ih =>
      rcases call with ⟨call, faults⟩
      -- Either the first call is proper, and the rest is the induction's, or it is not.
      by_cases hheld : ∀ p ∈ call.handle, p ∈ w.held
      · rcases execute_represents hrep hheld faults with
          ⟨answer, w1, t1, held1, hexecute, hstep, hrep1⟩
        have hcons : ∀ {calls' : List (Call × List Bool)}, run ((call, faults) :: calls') w =
            (run calls' >>= fun answers => pure (answer :: answers)) w1 := fun {calls'} =>
          Proc.bind_of_done _ hexecute
        -- The calls after the first one are proper from there if all are from here.
        have hproper : Proper w ((call, faults) :: calls) ↔ Proper w1 calls := by
          constructor
          · intro hall before call' faults' after answers w' hsplit hrun
            refine hall ((call, faults) :: before) call' faults' after (answer :: answers) w' ?_ ?_
            · rw [hsplit, List.cons_append]
            · rw [hcons, Proc.bind_of_done _ hrun]
              rfl
          · intro hall before call' faults' after answers w' hsplit hrun
            cases before with
            | nil =>
                obtain ⟨hcall, -⟩ := List.cons.inj hsplit
                obtain rfl := (Prod.mk.inj hcall).1
                obtain ⟨-, rfl⟩ := Prod.mk.inj hrun
                exact hheld
            | cons first before =>
                obtain ⟨rfl, hrest⟩ := List.cons.inj hsplit
                rw [hcons] at hrun
                rcases Proc.bind_done_iff.mp hrun with ⟨answers1, w2, hrun1, hpure⟩
                obtain ⟨-, rfl⟩ := Prod.mk.inj hpure
                exact hall before call' faults' after answers1 w2 hrest hrun1
        rw [hproper, hcons]
        rcases ih hrep1 with ⟨hall, answers, w', t', held', hrun, hsteps, hrep'⟩ |
          ⟨hsome, w', hrun⟩
        · exact Or.inl ⟨hall, answer :: answers, w', t', held', Proc.bind_of_done _ hrun,
            .cons hstep hsteps, hrep'⟩
        · exact Or.inr ⟨hsome, w', Proc.bind_of_fail _ hrun⟩
      -- The first call is not proper, and ends the run.
      · rcases Classical.not_forall.mp hheld with ⟨p, hp⟩
        rcases Classical.not_imp.mp hp with ⟨hcall, hnot⟩
        refine Or.inr ⟨fun hproper => hheld ?_, w, ?_⟩
        · exact hproper [] call faults calls [] w rfl rfl
        · exact Proc.bind_of_fail _ (execute_of_not_held hrep hcall hnot faults)

end Execution

end CApi

end DlmsProfile
