import DlmsProfile.Core.Channel
import DlmsProfile.Library.Fifo

/-!
# Two Channels on One Connection

Each of two ends sends and receives, and between them run two pipes of bytes, one
in each direction. A send puts its bytes at the end of a pipe at once, or if its write
fails none of them: a write that fails half way is no step here. A receive call
takes bytes from the front of the other pipe, cut into reads in any way and with reads
that bring nothing in between. Calls at the two ends follow each other in any order.

To show that this is two queues of APDUs, it is enough to look at one end at a time.
An end has its queue of APDUs to come, which depends on the bytes still in the pipe but
not on how they will be cut. What a send puts there must append its APDU to the queue,
and must leave the queue of the sending end alone.

## Main definitions

* `StreamEnd`: A channel with the stream under it.
* `Net`, `Net.Step`: Two of them, and what can happen.
* `Carries`: What is asked of one end.

## Theorems

* `Net.simulates`: Two ends are two queues.
* `Net.carried`: What was sent is received, in order and once, or will be.
-/

namespace DlmsProfile

/-- An end of a connection. -/
inductive Side where
  | left
  | right
deriving DecidableEq, Repr

/-- The other one. -/
def Side.other : Side → Side
  | .left => .right
  | .right => .left

theorem Side.other_ne (side : Side) : side.other ≠ side := by cases side <;> decide

theorem Side.other_other (side : Side) : side.other.other = side := by cases side <;> rfl

theorem Side.eq_other_of_ne {side other : Side} (h : other ≠ side) : other = side.other := by
  cases side <;> cases other <;> first | rfl | exact absurd rfl h

/-- An APDU channel over a byte stream: what the stream has ready to be read, how it will
    answer to writes, and the bytes it has taken. -/
structure StreamEnd extends ApduChannel where
  send : ProfileByteView → Proc State ProfileStatus Unit
  offer : List ReadEvent → State → State
  grant : List TransportStatus → State → State
  wrote : State → List UInt8

/-- Two ends, and the bytes on their way to each of them. -/
structure Net (E : StreamEnd) where
  ends : Side → E.State
  wire : Side → List UInt8

/-- What a send is to an onlooker. -/
def sentLabel (side : Side) (apdu : List UInt8) :
    Outcome ProfileStatus Unit → Fifo.Label Side (List UInt8)
  | .done () => .put side.other apdu
  | _ => .idle

/-- What a receive call is. -/
def receivedLabel (side : Side) : Option (List UInt8) → Fifo.Label Side (List UInt8)
  | some apdu => .take side apdu
  | none => .idle

namespace Net

variable {E : StreamEnd}

/-- `SendApdu` at one end. A write passes on all its bytes or fails and passes on none. -/
def sent (n : Net E) (side : Side) (apdu : ProfileByteView) (writes : List TransportStatus) :
    Outcome ProfileStatus Unit × Net E :=
  let r := E.send apdu (E.grant writes (n.ends side))
  let bytes := (E.wrote r.2).drop (E.wrote (n.ends side)).length
  (r.1, ⟨Function.update n.ends side r.2,
    Function.update n.wire side.other (n.wire side.other ++ bytes)⟩)

/-- `ReceiveApdu` at one end, with the bytes on their way to it cut into reads. -/
def received (n : Net E) (side : Side) (call : ReceiveCall) (script : List ReadEvent) :
    Answer × Net E :=
  let r := E.call call (E.offer script (n.ends side))
  (r.1, ⟨Function.update n.ends side r.2,
    Function.update n.wire side (readBytes (E.reads r.2))⟩)

/-- A call at one of the ends. -/
inductive Step : Net E → Fifo.Label Side (List UInt8) → Net E → Prop
  | send (n : Net E) (side : Side) (apdu : ProfileByteView) (writes : List TransportStatus) :
      Step n (sentLabel side apdu.data (n.sent side apdu writes).1) (n.sent side apdu writes).2
  | receive (n : Net E) (side : Side) (call : ReceiveCall) (script : List ReadEvent)
      (hscript : readBytes script = n.wire side) :
      Step n (receivedLabel side (n.received side call script).1.delivered)
        (n.received side call script).2

/-- An end with the bytes on their way to it ready to be read. -/
def ready (n : Net E) (side : Side) : E.State := E.offer [⟨.ok, n.wire side⟩] (n.ends side)

end Net

/-- Bytes that append an APDU to the queue of any end they come to. -/
def Brings (E : StreamEnd) (inv : E.State → Prop) (queue : E.State → List (List UInt8))
    (bytes apdu : List UInt8) : Prop :=
  ∀ r, inv r → inv (E.offer (E.reads r ++ [⟨.ok, bytes⟩]) r) ∧
    queue (E.offer (E.reads r ++ [⟨.ok, bytes⟩]) r) = queue r ++ [apdu]

/-- What is asked of an end: it takes its results from a queue that does not depend on the
    cutting of the bytes to come, a completed send appends to the queue of the other end,
    and no send has to do with its own. -/
structure Carries (E : StreamEnd) (inv : E.State → Prop)
    (queue : E.State → List (List UInt8)) : Prop where
  delivers : Delivers E.toApduChannel inv queue
  reads_offer : ∀ script s, E.reads (E.offer script s) = script
  offer_offer : ∀ script script' s, E.offer script (E.offer script' s) = E.offer script s
  offer : ∀ {s script}, inv s → readBytes script = readBytes (E.reads s) →
    inv (E.offer script s) ∧ queue (E.offer script s) = queue s
  send : ∀ {s s' apdu writes o}, E.send apdu (E.grant writes s) = (o, s') →
    ∀ script, inv (E.offer script s) →
      (inv (E.offer script s') ∧ queue (E.offer script s') = queue (E.offer script s)) ∧
        ∃ bytes, E.wrote s' = E.wrote s ++ bytes ∧
          (o = .done () → Brings E inv queue bytes apdu.data) ∧ (o ≠ .done () → bytes = [])

namespace Net

variable {E : StreamEnd} {inv : E.State → Prop} {queue : E.State → List (List UInt8)}

/-- The queues of a net are those of its ends. -/
def Queued (inv : E.State → Prop) (queue : E.State → List (List UInt8)) (n : Net E)
    (q : Side → List (List UInt8)) : Prop :=
  ∀ side, inv (n.ready side) ∧ queue (n.ready side) = q side

/-- Whatever is offered of the bytes on their way, the queue is the same. -/
theorem ready_offer (law : Carries E inv queue) {n : Net E} {side : Side} {script : List ReadEvent}
    (h : inv (n.ready side)) (hscript : readBytes script = n.wire side) :
    inv (E.offer script (n.ends side)) ∧
      queue (E.offer script (n.ends side)) = queue (n.ready side) := by
  have hbytes : readBytes script = readBytes (E.reads (n.ready side)) := by
    rw [hscript, ready, law.reads_offer, readBytes, if_pos rfl, readBytes, List.append_nil]
  have hoffer := law.offer h hbytes
  rwa [ready, law.offer_offer] at hoffer

/-- More bytes behind those on their way. -/
theorem ready_more (law : Carries E inv queue) {n : Net E} {side : Side} (h : inv (n.ready side))
    {bytes apdu : List UInt8} (hbrings : Brings E inv queue bytes apdu) :
    let s := E.offer [⟨.ok, n.wire side ++ bytes⟩] (n.ends side)
    inv s ∧ queue s = queue (n.ready side) ++ [apdu] := by
  intro s
  rcases hbrings _ h with ⟨hinv, hqueue⟩
  rw [← hqueue]
  have hbytes : readBytes [⟨.ok, n.wire side ++ bytes⟩] = readBytes (E.reads
      (E.offer (E.reads (n.ready side) ++ [⟨.ok, bytes⟩]) (n.ready side))) := by
    rw [law.reads_offer, ready, law.reads_offer]
    simp only [readBytes, List.cons_append, List.nil_append, if_true, List.append_nil]
  have hoffer := law.offer hinv hbytes
  rwa [law.offer_offer, ready, law.offer_offer] at hoffer

/-- A send is a message put to the queue of the other end, or nothing. -/
theorem queued_send (law : Carries E inv queue) {n : Net E} {q : Side → List (List UInt8)}
    (h : Queued inv queue n q) (side : Side) (apdu : ProfileByteView)
    (writes : List TransportStatus) :
    ∃ q', Fifo.Step q (sentLabel side apdu.data (n.sent side apdu writes).1) q' ∧
      Queued inv queue (n.sent side apdu writes).2 q' := by
  rcases hsend : E.send apdu (E.grant writes (n.ends side)) with ⟨o, s'⟩
  rcases law.send hsend _ (h side).1 with ⟨⟨hinv, hqueue⟩, bytes, hwrote, hdone, hnot⟩
  have hsent : n.sent side apdu writes = (o, ⟨Function.update n.ends side s',
      Function.update n.wire side.other (n.wire side.other ++ bytes)⟩) := by
    simp only [sent, hsend, hwrote, List.drop_left]
  rw [hsent]
  have hne : side ≠ side.other := Ne.symm side.other_ne
  -- The sending end has what it had to come.
  have hown : ∀ q' : Side → List (List UInt8), q' side = q side →
      inv (ready ⟨Function.update n.ends side s',
          Function.update n.wire side.other (n.wire side.other ++ bytes)⟩ side) ∧
        queue (ready ⟨Function.update n.ends side s',
          Function.update n.wire side.other (n.wire side.other ++ bytes)⟩ side) = q' side := by
    intro q' hq'
    simp only [ready, Function.update_self, Function.update_of_ne hne]
    exact ⟨hinv, hqueue.trans ((h side).2.trans hq'.symm)⟩
  by_cases ho : o = .done ()
  · subst ho
    refine ⟨_, .put q side.other apdu.data, fun other => ?_⟩
    by_cases hside : other = side
    · rw [hside]
      exact hown _ (Function.update_of_ne hne _ _)
    · obtain rfl := Side.eq_other_of_ne hside
      have hmore := ready_more law (h side.other).1 (hdone rfl)
      rw [(h side.other).2] at hmore
      simpa only [ready, Function.update_self, Function.update_of_ne side.other_ne] using hmore
  · obtain rfl := hnot ho
    have hlabel : sentLabel side apdu.data o = .idle := by
      rcases o with ⟨⟩ | status | _
      · exact absurd rfl ho
      · rfl
      · rfl
    rw [hlabel]
    refine ⟨q, .idle q, fun other => ?_⟩
    by_cases hside : other = side
    · rw [hside]
      exact hown _ rfl
    · obtain rfl := Side.eq_other_of_ne hside
      simpa only [ready, Function.update_self, Function.update_of_ne side.other_ne,
        List.append_nil] using h side.other

/-- A receive call is a message taken from the front of the queue of its end, or nothing. -/
theorem queued_receive (law : Carries E inv queue) {n : Net E} {q : Side → List (List UInt8)}
    (h : Queued inv queue n q) {side : Side} (call : ReceiveCall) {script : List ReadEvent}
    (hscript : readBytes script = n.wire side) :
    ∃ q', Fifo.Step q (receivedLabel side (n.received side call script).1.delivered) q' ∧
      Queued inv queue (n.received side call script).2 q' := by
  rcases ready_offer law (h side).1 hscript with ⟨hinv, hqueue⟩
  rcases hcall : E.call call (E.offer script (n.ends side)) with ⟨answer, s'⟩
  have htake := law.delivers.call call hinv
  rw [hcall, hqueue, (h side).2] at htake
  rcases htake with ⟨hfront, hinv'⟩
  have hreceived : n.received side call script = (answer, ⟨Function.update n.ends side s',
      Function.update n.wire side (readBytes (E.reads s'))⟩) := by
    simp only [received, hcall]
  rw [hreceived]
  -- What is left of the script is what is left on the wire.
  have hleft : inv (E.offer [⟨.ok, readBytes (E.reads s')⟩] s') ∧
      queue (E.offer [⟨.ok, readBytes (E.reads s')⟩] s') = queue s' := by
    refine law.offer hinv' ?_
    rw [readBytes, if_pos rfl, readBytes, List.append_nil]
  have hnext : ∀ q' : Side → List (List UInt8), q' side = queue s' →
      (∀ other, other ≠ side → q' other = q other) →
      Queued inv queue ⟨Function.update n.ends side s',
        Function.update n.wire side (readBytes (E.reads s'))⟩ q' := by
    intro q' hq' hothers other
    by_cases hside : other = side
    · subst hside
      simp only [ready, Function.update_self, hq']
      exact hleft
    · simp only [ready, Function.update_of_ne hside, hothers other hside]
      exact h other
  cases hdelivered : answer.delivered with
  | some apdu =>
      rw [hdelivered] at hfront
      exact ⟨_, .take hfront, hnext _ (Function.update_self _ _ _)
        fun other hside => Function.update_of_ne hside _ _⟩
  | none =>
      rw [hdelivered] at hfront
      exact ⟨q, .idle q, hnext _ hfront fun other _ => rfl⟩

/-- Two ends are two queues. -/
theorem simulates (law : Carries E inv queue) :
    Simulates (Step (E := E)) Fifo.Step (Queued inv queue) := by
  intro n q label n' h hstep
  cases hstep with
  | send side apdu writes => exact queued_send law h side apdu writes
  | receive side call script hscript => exact queued_receive law h call hscript

/-- What was sent to an end was received there, in order and once, or is still to come, and
    whatever way the bytes on the wire are cut, enough calls receive it. -/
theorem carried (law : Carries E inv queue) {n n' : Net E}
    {labels : List (Fifo.Label Side (List UInt8))}
    (hstart : ∀ side, inv (n.ready side) ∧ queue (n.ready side) = [])
    (hrun : Traces Step n labels n') :
    ∃ q : Side → List (List UInt8), Traces Fifo.Step (fun _ => []) labels q ∧
      ∀ side, Fifo.puts side labels = Fifo.takes side labels ++ q side ∧
        ∀ script, readBytes script = n'.wire side →
          ∃ k, E.delivered (List.replicate k .vector) (E.offer script (n'.ends side)) =
            q side := by
  -- The network runs as the queues do, and what a side holds is what its queue does.
  rcases hrun.simulated (simulates law) hstart with ⟨q, hfifo, hqueued⟩
  refine ⟨q, hfifo, fun side => ⟨(Fifo.balance hfifo side).symm, fun script hscript => ?_⟩⟩
  -- Offered what is on the wire, it delivers the rest of the queue.
  rcases ready_offer law (hqueued side).1 hscript with ⟨hinv, hqueue⟩
  rcases law.delivers.all_delivered hinv with ⟨k, hk⟩
  exact ⟨k, hk.trans (hqueue.trans (hqueued side).2)⟩

end Net

end DlmsProfile
