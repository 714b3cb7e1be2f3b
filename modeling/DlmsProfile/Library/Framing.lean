import Mathlib.Data.List.Forall2
import Mathlib.Data.List.Infix

/-!
# Finding Items in a Byte Stream

A stream protocol marks where its items end inside the bytes themselves, and a
reader gets those bytes in pieces that have nothing to do with the items. This
module is the theory of that situation with the format left open.

A `Framer` looks at the front of a buffer and says one of three things: there
is a complete item here, there is not enough yet, or this can never become an
item. A reader that has to wait may forget bytes that do not matter, such as
noise in front of an item, so "not enough yet" comes with the bytes worth
keeping. The laws are that a verdict survives more bytes, be they added to the
buffer or to what was kept of it, and that an item takes up room. Everything
about reading in pieces follows from `scan_append_rest`: scanning a longer
buffer is scanning on from what was kept of the shorter one.

A decoder object that keeps bytes between pushes is tied to a framer by
`Follows`, which says that each push finds exactly the items the framer finds
in the kept bytes and the new ones together.

`feed` is a reader that loses the items of a piece in which it meets a
rejection. `feed_eq_iff` says when that costs it nothing: exactly when some
boundary between two pieces falls after the last item and before the
rejection.

## Main definitions

* `Framer`: What is at the front of a buffer, stable under more bytes.
* `Framer.scan`: All items of a buffer and what is left after them.
* `Framer.Encodes`: The bytes are one item and nothing else.
* `Follows`: A decoder object finds what the framer finds.
* `Scanner`: The decoder object that scans.
* `Framer.feed`: Reading in pieces, a rejecting piece yielding nothing.

## Theorems

* `Framer.scan_append_rest`, `Framer.scan_append_reject`: Scanning in pieces.
* `Framer.scan_encodes_append`: An encoded item in front is found first.
* `Framer.scan_flatten`: A run of encoded items scans to those items.
* `Framer.scan_prefix`, `Framer.encodes_part`, `Framer.scan_part`: Scanning a part
  of a buffer, and of an item.
* `Framer.feed_of_scan`: A reader meets the rejection the scan meets.
* `Scanner.follows_either`, `Scanner.follows`: A scanner finds what its framer finds.
* `Framer.feed_eq_iff`: When losing the items of a rejecting piece is harmless.
-/

namespace Framing

variable {β ι ε : Type}

/-- What stands at the front of a buffer. -/
inductive Front (β ι ε : Type) where
  | more (kept : List β)
  | item (x : ι) (rest : List β)
  | reject (e : ε)

/-- A judge of buffer fronts whose verdicts survive more bytes. -/
structure Framer (β ι ε : Type) where
  front : List β → Front β ι ε
  front_nil : front [] = .more []
  more_append : ∀ {b k} (c), front b = .more k → front (b ++ c) = front (k ++ c)
  item_shorter : ∀ {b x r}, front b = .item x r → r.length < b.length
  item_append : ∀ {b x r} (c), front b = .item x r → front (b ++ c) = .item x (r ++ c)
  reject_append : ∀ {b e} (c), front b = .reject e → front (b ++ c) = .reject e

/-- What is left after the last item of a buffer. -/
inductive Tail (β ε : Type) where
  | rest (kept : List β)
  | reject (e : ε)

namespace Framer

variable (F : Framer β ι ε)

/-- Every item of a buffer, and what is left after them. -/
def scan (b : List β) : List ι × Tail β ε :=
  match _h : F.front b with
  | .more k => ([], .rest k)
  | .item x r => (x :: (scan r).1, (scan r).2)
  | .reject e => ([], .reject e)
termination_by b.length
decreasing_by all_goals exact F.item_shorter _h

variable {F}

theorem scan_of_more {b k : List β} (h : F.front b = .more k) : F.scan b = ([], .rest k) := by
  rw [scan]
  split <;> simp_all only [reduceCtorEq, Front.more.injEq]

theorem scan_of_item {b r : List β} {x : ι} (h : F.front b = .item x r) :
    F.scan b = (x :: (F.scan r).1, (F.scan r).2) := by
  rw [scan]
  split <;> simp_all only [reduceCtorEq, Front.item.injEq]

theorem scan_of_reject {b : List β} {e : ε} (h : F.front b = .reject e) :
    F.scan b = ([], .reject e) := by
  rw [scan]
  split <;> simp_all only [reduceCtorEq, Front.reject.injEq]

/-- A scan sees nothing of a buffer but its front. -/
theorem scan_congr {b b' : List β} (h : F.front b = F.front b') : F.scan b = F.scan b' := by
  cases hf : F.front b with
  | more k => exact (scan_of_more hf).trans (scan_of_more (h.symm.trans hf)).symm
  | item x r => exact (scan_of_item hf).trans (scan_of_item (h.symm.trans hf)).symm
  | reject e => exact (scan_of_reject hf).trans (scan_of_reject (h.symm.trans hf)).symm

theorem scan_nil : F.scan [] = ([], .rest []) := scan_of_more F.front_nil

/-- Scanning a longer buffer is scanning on from what was kept of the shorter. -/
theorem scan_append_rest {b r : List β} {xs : List ι} (c : List β)
    (h : F.scan b = (xs, .rest r)) :
    F.scan (b ++ c) = (xs ++ (F.scan (r ++ c)).1, (F.scan (r ++ c)).2) := by
  -- On the bytes. An item is found again in front of more bytes, and so is a rest.
  induction hn : b.length using Nat.strong_induction_on generalizing b xs with
  | _ n ih =>
    cases hf : F.front b with
    | more k =>
        rw [scan_of_more hf] at h
        obtain ⟨rfl, hr⟩ := Prod.mk.inj h
        rw [← Tail.rest.inj hr, List.nil_append, scan_congr (F.more_append c hf)]
    | item x t =>
        rw [scan_of_item hf, Prod.mk.injEq] at h
        have hshort : t.length < n := hn ▸ F.item_shorter hf
        have ht : F.scan t = ((F.scan t).1, .rest r) := Prod.ext rfl h.2
        rw [scan_of_item (F.item_append c hf), ih t.length hshort ht rfl,
          ← h.1, List.cons_append]
    | reject e =>
        rw [scan_of_reject hf, Prod.mk.injEq] at h
        cases h.2

/-- A rejection is final: no further bytes change what was found. -/
theorem scan_append_reject {b : List β} {xs : List ι} {e : ε} (c : List β)
    (h : F.scan b = (xs, .reject e)) : F.scan (b ++ c) = (xs, .reject e) := by
  -- On the bytes, as for a rest. Bytes that were rejected stay so.
  induction hn : b.length using Nat.strong_induction_on generalizing b xs with
  | _ n ih =>
    cases hf : F.front b with
    | more k =>
        rw [scan_of_more hf, Prod.mk.injEq] at h
        cases h.2
    | item x t =>
        rw [scan_of_item hf, Prod.mk.injEq] at h
        have hshort : t.length < n := hn ▸ F.item_shorter hf
        have ht : F.scan t = ((F.scan t).1, .reject e) := Prod.ext rfl h.2
        rw [scan_of_item (F.item_append c hf), ih t.length hshort ht rfl, ← h.1]
    | reject e' =>
        rw [scan_of_reject hf] at h
        rw [scan_of_reject (F.reject_append c hf), h]

/-- The bytes are the item and nothing else. -/
def Encodes (F : Framer β ι ε) (w : List β) (x : ι) : Prop := F.front w = .item x []

/-- A scan rejects with what a front rejects with. -/
theorem scan_reject {b : List β} {xs : List ι} {e : ε} (h : F.scan b = (xs, .reject e)) :
    ∃ b', F.front b' = .reject e := by
  -- On the items found. What is rejected is what stands behind the last of them.
  induction xs generalizing b with
  | nil =>
      cases hf : F.front b with
      | more k =>
          rw [scan_of_more hf, Prod.mk.injEq] at h
          cases h.2
      | item x r =>
          rw [scan_of_item hf, Prod.mk.injEq] at h
          cases h.1
      | reject e' =>
          rw [scan_of_reject hf, Prod.mk.injEq] at h
          exact ⟨b, Tail.reject.inj h.2 ▸ hf⟩
  | cons x xs ih =>
      cases hf : F.front b with
      | more k =>
          rw [scan_of_more hf, Prod.mk.injEq] at h
          cases h.1
      | item y r =>
          rw [scan_of_item hf, Prod.mk.injEq, List.cons.injEq] at h
          exact ih (Prod.ext h.1.2 h.2)
      | reject e' =>
          rw [scan_of_reject hf, Prod.mk.injEq] at h
          cases h.1

theorem scan_encodes_append {w : List β} {x : ι} (h : F.Encodes w x) (b : List β) :
    F.scan (w ++ b) = (x :: (F.scan b).1, (F.scan b).2) := by
  have hw : F.front (w ++ b) = .item x ([] ++ b) := F.item_append b h
  rw [scan_of_item hw, List.nil_append]

/-- Encoded items laid end to end, and whatever follows them. -/
theorem scan_flatten_append {ws : List (List β)} {xs : List ι}
    (h : List.Forall₂ F.Encodes ws xs) (b : List β) :
    F.scan (ws.flatten ++ b) = (xs ++ (F.scan b).1, (F.scan b).2) := by
  induction h with
  | nil => rfl
  | cons hw _ ih =>
      rw [List.flatten_cons, List.append_assoc, scan_encodes_append hw, ih, List.cons_append]

theorem scan_flatten {ws : List (List β)} {xs : List ι} (h : List.Forall₂ F.Encodes ws xs) :
    F.scan ws.flatten = (xs, .rest []) := by
  have hs := scan_flatten_append h []
  rwa [List.append_nil, scan_nil, List.append_nil] at hs

/-- What a scan without a rejection finds in the front of a buffer it finds
    first in the whole buffer. -/
theorem scan_prefix {a b r : List β} {xs : List ι} (hab : a <+: b)
    (h : F.scan b = (xs, .rest r)) : ∃ ys k, F.scan a = (ys, .rest k) ∧ ys <+: xs := by
  rcases hab with ⟨c, rfl⟩
  rcases ha : F.scan a with ⟨ys, k | e⟩
  · refine ⟨ys, k, rfl, ?_⟩
    rw [scan_append_rest c ha, Prod.mk.injEq] at h
    rw [← h.1]
    exact List.prefix_append _ _
  · rw [scan_append_reject c ha, Prod.mk.injEq] at h
    cases h.2

/-- The front part of an encoded item is neither an item nor rejected, and what
    is kept of it stands for it. -/
theorem encodes_part {a c : List β} {x : ι} (hw : F.Encodes (a ++ c) x) (hc : c ≠ []) :
    ∃ k, F.scan a = ([], .rest k) ∧ F.Encodes (k ++ c) x := by
  cases hf : F.front a with
  | more k => exact ⟨k, scan_of_more hf, (F.more_append c hf).symm.trans hw⟩
  | item y r =>
      have hrest := hw.symm.trans (F.item_append c hf)
      simp only [Front.item.injEq, List.nil_eq, List.append_eq_nil_iff] at hrest
      exact absurd hrest.2.2 hc
  | reject e =>
      have hrest := hw.symm.trans (F.reject_append c hf)
      cases hrest

theorem scan_part {a w : List β} {x : ι} (hw : F.Encodes w x) (ha : a <+: w) (hne : a ≠ w) :
    ∃ k, F.scan a = ([], .rest k) := by
  rcases ha with ⟨c, rfl⟩
  have hc : c ≠ [] := by
    rintro rfl
    exact hne (List.append_nil a).symm
  rcases encodes_part hw hc with ⟨k, hscan, -⟩
  exact ⟨k, hscan⟩

/-- An item alone is found, and nothing is left. -/
theorem scan_encodes {w : List β} {x : ι} (h : F.Encodes w x) : F.scan w = ([x], .rest []) := by
  have hs := scan_encodes_append h []
  rwa [List.append_nil, scan_nil] at hs

/-- A reader that is handed the buffer left so far and then the pieces one by
    one, and to which a piece that ends in a rejection yields nothing. -/
def feed (F : Framer β ι ε) : List β → List (List β) → List ι × Option ε
  | _, [] => ([], none)
  | b, c :: cs =>
    match F.scan (b ++ c) with
    | (xs, .rest r) => (xs ++ (feed F r cs).1, (feed F r cs).2)
    | (_, .reject e) => ([], some e)

theorem feed_cons_rest {b c r : List β} {cs : List (List β)} {xs : List ι}
    (h : F.scan (b ++ c) = (xs, .rest r)) :
    F.feed b (c :: cs) = (xs ++ (F.feed r cs).1, (F.feed r cs).2) := by
  rw [feed, h]

theorem feed_cons_reject {b c : List β} {cs : List (List β)} {xs : List ι} {e : ε}
    (h : F.scan (b ++ c) = (xs, .reject e)) : F.feed b (c :: cs) = ([], some e) := by
  rw [feed, h]

/-- What a scan keeps holds no further item. -/
theorem scan_rest_self {b r : List β} {xs : List ι} (h : F.scan b = (xs, .rest r)) :
    F.scan r = ([], .rest r) := by
  have hs := scan_append_rest [] h
  rw [List.append_nil, List.append_nil, h, Prod.mk.injEq] at hs
  exact Prod.ext (List.append_right_eq_self.mp hs.1.symm) hs.2.symm

/-- The bytes behind the given items at the front of a buffer, exactly as they
    stand there. -/
inductive Strip (F : Framer β ι ε) : List β → List ι → List β → Prop where
  | nil (b : List β) : Strip F b [] b
  | cons {b r u : List β} {x : ι} {xs : List ι} (hf : F.front b = .item x r)
    (h : Strip F r xs u) : Strip F b (x :: xs) u

theorem strip_scan {b : List β} {xs : List ι} {t : Tail β ε} (h : F.scan b = (xs, t)) :
    ∃ u, Strip F b xs u := by
  -- On the items found, each of which can be taken off the front.
  induction xs generalizing b with
  | nil => exact ⟨b, Strip.nil b⟩
  | cons x xs ih =>
      cases hf : F.front b with
      | more k =>
          rw [scan_of_more hf, Prod.mk.injEq] at h
          cases h.1
      | item y r =>
          rw [scan_of_item hf, Prod.mk.injEq, List.cons.injEq] at h
          rcases ih (Prod.ext h.1.2 h.2) with ⟨u, hu⟩
          obtain rfl := h.1.1
          exact ⟨u, Strip.cons hf hu⟩
      | reject e =>
          rw [scan_of_reject hf, Prod.mk.injEq] at h
          cases h.1

theorem Strip.append {b u : List β} {xs : List ι} (c : List β) (h : Strip F b xs u) :
    Strip F (b ++ c) xs (u ++ c) := by
  induction h with
  | nil b => exact Strip.nil _
  | cons hf _ ih => exact Strip.cons (F.item_append c hf) ih

theorem Strip.unique {b u v : List β} {xs : List ι} (hu : Strip F b xs u)
    (hv : Strip F b xs v) : u = v := by
  induction hu with
  | nil b =>
      cases hv
      rfl
  | cons hf _ ih =>
      cases hv with
      | cons hf' hv =>
          obtain ⟨-, rfl⟩ := Front.item.inj (hf.symm.trans hf')
          exact ih hv

theorem strip_flatten {ws : List (List β)} {xs : List ι} (h : List.Forall₂ F.Encodes ws xs) :
    Strip F ws.flatten xs [] := by
  induction h with
  | nil => exact Strip.nil _
  | cons hw _ ih => exact Strip.cons (F.item_append _ hw) ih

/-- If the whole stream ends in a rejection the reader meets it, having been
    handed an initial run of the items. -/
theorem feed_of_scan {cs : List (List β)} {b : List β} {xs : List ι} {e : ε}
    (hb : F.scan b = ([], .rest b)) (h : F.scan (b ++ cs.flatten) = (xs, .reject e)) :
    (F.feed b cs).2 = some e ∧ (F.feed b cs).1 <+: xs := by
  -- On the pieces. The first that completes the bytes rejected ends it.
  induction cs generalizing b xs with
  | nil =>
      rw [List.flatten_nil, List.append_nil, hb, Prod.mk.injEq] at h
      cases h.2
  | cons c cs ih =>
      rw [List.flatten_cons, ← List.append_assoc] at h
      rcases hc : F.scan (b ++ c) with ⟨ys, r | e'⟩
      · rw [scan_append_rest cs.flatten hc, Prod.mk.injEq] at h
        rw [feed_cons_rest hc]
        rcases ih (scan_rest_self hc) (Prod.ext rfl h.2) with ⟨herr, hpre⟩
        refine ⟨herr, ?_⟩
        rw [← h.1]
        exact (List.prefix_append_right_inj ys).mpr hpre
      · rw [scan_append_reject cs.flatten hc] at h
        rw [feed_cons_reject hc]
        obtain ⟨-, he⟩ := Prod.mk.inj h
        exact ⟨by rw [Tail.reject.inj he], List.nil_prefix⟩

/-- A rejecting piece costs the reader nothing exactly when, at some boundary
    between two pieces, every item was already found and nothing rejected. -/
theorem feed_eq_iff_boundary {cs : List (List β)} {b : List β} {xs : List ι} {e : ε}
    (hb : F.scan b = ([], .rest b)) (h : F.scan (b ++ cs.flatten) = (xs, .reject e)) :
    (F.feed b cs).1 = xs ↔
      ∃ pre post r, cs = pre ++ post ∧ F.scan (b ++ pre.flatten) = (xs, .rest r) := by
  induction cs generalizing b xs with
  | nil =>
      rw [List.flatten_nil, List.append_nil, hb, Prod.mk.injEq] at h
      cases h.2
  | cons c cs ih =>
      rw [List.flatten_cons, ← List.append_assoc] at h
      rcases hc : F.scan (b ++ c) with ⟨ys, r | e'⟩
      · rw [scan_append_rest cs.flatten hc, Prod.mk.injEq] at h
        have htail : F.scan (r ++ cs.flatten) = ((F.scan (r ++ cs.flatten)).1, .reject e) :=
          Prod.ext rfl h.2
        rw [feed_cons_rest hc, ← h.1, List.append_cancel_left_eq, ih (scan_rest_self hc) htail]
        constructor
        · rintro ⟨pre, post, r', rfl, hr'⟩
          refine ⟨c :: pre, post, r', rfl, ?_⟩
          rw [List.flatten_cons, ← List.append_assoc, scan_append_rest _ hc, hr']
        · rintro ⟨_ | ⟨c', pre⟩, post, r', hcs, hr'⟩
          · -- The boundary lies before the first piece, so no item follows it.
            rw [List.flatten_nil, List.append_nil, hb, Prod.mk.injEq] at hr'
            obtain ⟨-, htl⟩ := List.nil_eq_append_iff.mp hr'.1
            refine ⟨[], cs, r, rfl, ?_⟩
            rw [List.flatten_nil, List.append_nil, scan_rest_self hc, htl]
          · obtain ⟨rfl, rfl⟩ := List.cons.inj hcs
            rw [List.flatten_cons, ← List.append_assoc, scan_append_rest _ hc, Prod.mk.injEq] at hr'
            exact ⟨pre, post, r', rfl, Prod.ext (List.append_cancel_left hr'.1) hr'.2⟩
      · rw [scan_append_reject cs.flatten hc, Prod.mk.injEq] at h
        rw [feed_cons_reject hc]
        constructor
        · rintro rfl
          exact ⟨[], c :: cs, b, rfl, by rw [List.flatten_nil, List.append_nil, hb]⟩
        · rintro ⟨_ | ⟨c', pre⟩, post, r', hcs, hr'⟩
          · rw [List.flatten_nil, List.append_nil, hb, Prod.mk.injEq] at hr'
            exact hr'.1
          · obtain ⟨rfl, rfl⟩ := List.cons.inj hcs
            rw [List.flatten_cons, ← List.append_assoc, scan_append_reject _ hc,
              Prod.mk.injEq] at hr'
            cases hr'.2

/-- The same boundary told by lengths: it lies at or after the end of the last
    item and before the rejection. -/
theorem feed_eq_iff {ws cs : List (List β)} {bad : List β} {xs : List ι} {e : ε}
    (hws : List.Forall₂ F.Encodes ws xs) (hbad : F.scan bad = ([], .reject e))
    (hcs : cs.flatten = ws.flatten ++ bad) :
    F.feed [] cs = (xs, some e) ↔
      ∃ pre post, cs = pre ++ post ∧ ws.flatten <+: pre.flatten ∧
        ∀ e', (F.scan pre.flatten).2 ≠ .reject e' := by
  have hscan : F.scan ([] ++ cs.flatten) = (xs, .reject e) := by
    rw [List.nil_append, hcs, scan_flatten_append hws, hbad, List.append_nil]
  have hfed := (feed_of_scan scan_nil hscan).1
  have hiff := feed_eq_iff_boundary scan_nil hscan
  rw [Prod.ext_iff, and_iff_left hfed, hiff]
  constructor
  · rintro ⟨pre, post, r, rfl, hr⟩
    rw [List.nil_append] at hr
    refine ⟨pre, post, rfl, ?_, fun e' he => by rw [hr] at he; cases he⟩
    -- Both are initial parts of the stream, and the shorter cannot hold every item.
    rcases List.prefix_or_prefix_of_prefix (List.prefix_append ws.flatten bad)
      (hcs ▸ List.flatten_append ▸ List.prefix_append pre.flatten post.flatten) with hle | ⟨t, ht⟩
    · exact hle
    · rcases strip_scan hr with ⟨u, hu⟩
      have hrest := Strip.unique (ht ▸ hu.append t) (strip_flatten hws)
      rw [← ht, (List.append_eq_nil_iff.mp hrest).2, List.append_nil]
  · rintro ⟨pre, post, rfl, ⟨t, ht⟩, hno⟩
    rw [List.flatten_append, ← ht, List.append_assoc, List.append_cancel_left_eq] at hcs
    rcases htail : F.scan t with ⟨ys, r | e'⟩
    · rw [← hcs, scan_append_rest _ htail, Prod.mk.injEq] at hbad
      refine ⟨pre, post, r, rfl, ?_⟩
      rw [List.nil_append, ← ht, scan_flatten_append hws, htail,
        (List.append_eq_nil_iff.mp hbad.1).1, List.append_nil]
    · refine absurd ?_ (hno e')
      rw [← ht, scan_flatten_append hws, htail]

end Framer

/-- A decoder object finds what the framer finds: each push scans the bytes
    kept from before (`view`) together with the new ones. A push that
    completed an item is `complete`; one that completed none may also be
    `incomplete`; one that met a rejection answers with it, its items in
    hand. Only `live` decoders are promised anything. -/
structure Follows {δ : Type} (F : Framer β ι ε) (live : δ → Prop) (view : δ → List β)
    (push : δ → List β → ε × List ι × δ) (complete incomplete : ε → Prop) : Prop where
  push_live : ∀ {d} (c), live d → live (push d c).2.2
  push_rest : ∀ {d c xs r}, live d → F.scan (view d ++ c) = (xs, .rest r) →
    (push d c).2.1 = xs ∧ view (push d c).2.2 = r ∧
      (complete (push d c).1 ∨ incomplete (push d c).1 ∧ xs = [])
  push_reject : ∀ {d c xs e}, live d → F.scan (view d ++ c) = (xs, .reject e) →
    (push d c).1 = e ∧ (push d c).2.1 = xs ∧ ¬ complete e ∧ ¬ incomplete e

/-- The decoder object that scans: what it was made for, and the bytes kept. -/
structure Scanner (κ β : Type) where
  key : κ
  kept : List β
deriving DecidableEq, Repr

namespace Scanner

variable {κ : Type}

/-- Scan the kept bytes and the new ones. A rejection leaves nothing kept. -/
def push (F : κ → Framer β ι ε) (found more : ε) (d : Scanner κ β) (bytes : List β) :
    ε × List ι × Scanner κ β :=
  match (F d.key).scan (d.kept ++ bytes) with
  | (xs, .rest kept) => (if xs.isEmpty then more else found, xs, { d with kept := kept })
  | (xs, .reject e) => (e, xs, { d with kept := [] })

/-- A scanner follows its framer, provided its two statuses are told apart from
    what the framer rejects with. It may call a push that found nothing complete. -/
theorem follows_either (F : κ → Framer β ι ε) (found more : ε) (key : κ)
    (complete incomplete : ε → Prop) (hfound : complete found)
    (hmore : complete more ∨ incomplete more)
    (hreject : ∀ b xs e, (F key).scan b = (xs, .reject e) → ¬ complete e ∧ ¬ incomplete e) :
    Follows (F key) (fun d => d.key = key) kept (push F found more) complete incomplete where
  push_live := by
    rintro d c rfl
    rw [push]
    split <;> rfl
  push_rest := by
    rintro d c xs r rfl h
    rw [push, h]
    refine ⟨rfl, rfl, ?_⟩
    -- Without an item the status may be either, and with one it says so.
    cases xs with
    | nil => exact hmore.imp_right fun hmore => ⟨hmore, rfl⟩
    | cons x xs => exact Or.inl hfound
  push_reject := by
    rintro d c xs e rfl h
    rw [push, h]
    exact ⟨rfl, rfl, hreject _ _ _ h⟩

theorem follows (F : κ → Framer β ι ε) (found more : ε) (key : κ) (complete incomplete : ε → Prop)
    (hfound : complete found) (hmore : incomplete more)
    (hreject : ∀ b xs e, (F key).scan b = (xs, .reject e) → ¬ complete e ∧ ¬ incomplete e) :
    Follows (F key) (fun d => d.key = key) kept (push F found more) complete incomplete :=
  follows_either F found more key complete incomplete hfound (Or.inr hmore) hreject

end Scanner

end Framing
