import DlmsProfile.Library.Retry

/-!
# Procedures that may Throw

A procedure that allocates or calls back may be left by an exception, which no
early return stops and only an enclosing handler does. Where that can happen is a
site, and a script says at which of the sites to come it does happen. A handler
turns an exception into an error and cleans up.

A procedure with sites shadows one without: it passes sites on its way, which do
not depend on the script, and if the script lets it pass them all it does what the
other does. Otherwise the first site at which it does not decides how it ends, by
the error if a handler encloses the site and by the exception if none does. So
whether exceptions are contained can be read off the sites of the run in which
nothing goes wrong.

## Main definitions

* `Exit`: How a procedure that may throw ends early.
* `Faulty`: A state with the faults to come and the sites passed.
* `Proc.safely`, `Proc.mayThrow`, `Proc.guarded`: No site, a site, and a handler.
* `Proc.firstFault`: The first of some sites at which a script throws.
* `Proc.Shadows`: What a procedure with sites does.
* `Proc.Contained`: No exception leaves, and a fault ends in the error.
* `Proc.Exposes`: A site without a handler is on the way.
* `Proc.Covers`: No such site is on the way, from no state.
* `Proc.Tolls`: No value without passing such a site.
* `Proc.ToldBy`: A condition tells whether there is such a site.

## Theorems

* `Proc.shadowsAt_bind`, `Proc.shadowsAt_handle`, `Proc.shadows_repeatUntil`,
  `Proc.shadows_retry`, `Proc.shadows_forEach`: Shadowing survives composition.
* `Proc.shadowsAt_guarded`: A handler changes nothing but the sites it encloses.
* `Proc.contained_iff`, `Proc.contained_forall_iff`: When exceptions are contained.
* `Proc.exposes_bind`, `Proc.exposes_handle`, `Proc.exposes_retry`,
  `Proc.exposes_repeatUntil`: What is exposed on the way of a composition.
-/

/-- How a procedure that may throw ends early: with an error, or with an exception. -/
inductive Exit (ε : Type) where
  | status (error : ε)
  | exception
deriving DecidableEq, Repr

/-- A state, whether each of the sites to come throws, none if nothing is said, and
    the sites passed, each with whether a handler encloses it. -/
structure Faulty (σ : Type) where
  state : σ
  faults : List Bool
  sites : List Bool

namespace Proc

variable {σ ε α β τ : Type}

/-- An outcome without exceptions. -/
def unthrown : Outcome ε α → Outcome (Exit ε) α
  | .done a => .done a
  | .fail e => .fail (.status e)
  | .waiting => .waiting

/-- A procedure that cannot throw. -/
def safely (x : Proc σ ε α) : Proc (Faulty σ) (Exit ε) α := fun s =>
  (unthrown (x s.state).1, { s with state := (x s.state).2 })

/-- A site. -/
def mayThrow : Proc (Faulty σ) (Exit ε) Unit := fun s =>
  let passed := { s with faults := s.faults.tail, sites := s.sites ++ [false] }
  if s.faults.headD false = true then (.fail .exception, passed) else (.done (), passed)

/-- A site, if something can go wrong there. -/
def mayThrowIf (may : Bool) : Proc (Faulty σ) (Exit ε) Unit := if may then mayThrow else pure ()

/-- `try` and `catch (...)`: an exception is cleaned up after and becomes an error. -/
def guarded (cleanUp : σ → σ) (error : ε) (x : Proc (Faulty σ) (Exit ε) α) :
    Proc (Faulty σ) (Exit ε) α := fun s =>
  let enclosed (t : Faulty σ) : List Bool := s.sites ++ t.sites.map fun _ => true
  match x { s with sites := [] } with
  | (.fail .exception, t) =>
    (.fail (.status error), { t with state := cleanUp t.state, sites := enclosed t })
  | (o, t) => (o, { t with sites := enclosed t })

/-- Go on after a value, and in another way after an error. -/
def handle (x : Proc σ ε α) (k : α → Proc σ ε β) (h : ε → Proc σ ε β) : Proc σ ε β := fun s =>
  match x s with
  | (.done a, t) => k a t
  | (.fail e, t) => h e t
  | (.waiting, t) => (.waiting, t)

/-- Go on after an error, but not after an exception. -/
def onStatus (h : ε → Proc (Faulty σ) (Exit ε) β) : Exit ε → Proc (Faulty σ) (Exit ε) β
  | .status e => h e
  | .exception => fail .exception

/-- Do something for each of a list, in order. -/
def forEach (f : τ → Proc σ ε Unit) : List τ → Proc σ ε Unit
  | [] => pure ()
  | t :: ts => f t >>= fun _ => forEach f ts

/-- The first of some sites at which a script throws. -/
def firstFault : List Bool → List Bool → Option Bool
  | _, [] => none
  | faults, site :: sites =>
    if faults.headD false = true then some site else firstFault faults.tail sites

theorem firstFault_append (faults a b : List Bool) :
    firstFault faults (a ++ b) =
      (firstFault faults a).or (firstFault (faults.drop a.length) b) := by
  induction a generalizing faults with
  | nil => rfl
  | cons site a ih =>
      simp only [List.cons_append, firstFault, List.length_cons]
      by_cases hthrows : faults.headD false = true
      · simp only [if_pos hthrows, Option.some_or]
      · simp only [if_neg hthrows, ih, List.drop_tail]

/-- A script that says nothing throws nowhere. -/
theorem firstFault_nil (sites : List Bool) : firstFault [] sites = none := by
  induction sites with
  | nil => rfl
  | cons site sites ih =>
      simp only [firstFault, List.headD_nil, Bool.false_eq_true, if_false, List.tail_nil, ih]

theorem firstFault_map (faults sites : List Bool) (f : Bool → Bool) :
    firstFault faults (sites.map f) = (firstFault faults sites).map f := by
  induction sites generalizing faults with
  | nil => rfl
  | cons site sites ih =>
      simp only [List.map_cons, firstFault]
      by_cases hthrows : faults.headD false = true
      · simp only [if_pos hthrows, Option.map_some]
      · simp only [if_neg hthrows, ih]

/-- How a procedure ends that throws at a site: with the error if a handler encloses
    it. -/
def endsAt (error : ε) (site : Bool) : Outcome (Exit ε) α :=
  .fail (if site then .status error else .exception)

/-- From a state, a procedure with sites does what another does without: it passes
    the same sites whatever the script, and the first at which it throws decides. -/
def ShadowsAt (error : ε) (x : Proc σ ε α) (y : Proc (Faulty σ) (Exit ε) α) (s : σ) : Prop :=
  ∃ passed, ∀ faults sites,
    (firstFault faults passed = none → y ⟨s, faults, sites⟩ =
      (unthrown (x s).1, ⟨(x s).2, faults.drop passed.length, sites ++ passed⟩)) ∧
    (∀ site, firstFault faults passed = some site →
      (y ⟨s, faults, sites⟩).1 = endsAt error site)

/-- The same from every state. -/
def Shadows (error : ε) (x : Proc σ ε α) (y : Proc (Faulty σ) (Exit ε) α) : Prop :=
  ∀ s, ShadowsAt error x y s

section Shadows

variable {error : ε} {x : Proc σ ε α} {y : Proc (Faulty σ) (Exit ε) α} {s : σ}

/-- Two procedures that do the same as two that shadow. -/
theorem ShadowsAt.congr {x' : Proc σ ε α} {y' : Proc (Faulty σ) (Exit ε) α} {s' : σ}
    (h : ShadowsAt error x' y' s') (hx : x s = x' s')
    (hy : ∀ faults sites, y ⟨s, faults, sites⟩ = y' ⟨s', faults, sites⟩) :
    ShadowsAt error x y s := by
  rcases h with ⟨passed, hpassed⟩
  refine ⟨passed, fun faults sites => ?_⟩
  rw [hx, hy]
  exact hpassed faults sites

/-- What a procedure that did not throw did. -/
theorem ShadowsAt.done (h : ShadowsAt error x y s) {faults sites : List Bool} {a : α}
    {t : Faulty σ} (hy : y ⟨s, faults, sites⟩ = (.done a, t)) : x s = (.done a, t.state) := by
  rcases h with ⟨passed, hpassed⟩
  rcases hpassed faults sites with ⟨hnone, hsome⟩
  cases hfault : firstFault faults passed with
  | none =>
      have hsame := (hnone hfault).symm.trans hy
      rcases hx : x s with ⟨a' | e | _, s1⟩ <;> rw [hx] at hsame
      · obtain ⟨ha, rfl⟩ := Prod.mk.inj hsame
        rw [Outcome.done.inj ha]
      · cases hsame
      · cases hsame
  | some site => cases (hsome site hfault).symm.trans (congrArg Prod.fst hy)

theorem shadows_safely (x : Proc σ ε α) : Shadows error x (safely x) := fun s =>
  ⟨[], fun faults sites => ⟨fun _ => by rw [List.append_nil]; rfl, fun _ h => by cases h⟩⟩

theorem shadows_pure (a : α) : Shadows error (pure a : Proc σ ε α) (pure a) := fun s =>
  ⟨[], fun faults sites => ⟨fun _ => by rw [List.append_nil]; rfl, fun _ h => by cases h⟩⟩

theorem shadows_fail (e : ε) : Shadows error (fail e : Proc σ ε α) (fail (.status e)) := fun s =>
  ⟨[], fun faults sites => ⟨fun _ => by rw [List.append_nil]; rfl, fun _ h => by cases h⟩⟩

/-- A site by itself does nothing. -/
theorem shadows_mayThrow : Shadows error (pure () : Proc σ ε Unit) mayThrow := by
  intro s
  refine ⟨[false], fun faults sites => ?_⟩
  simp only [firstFault, mayThrow]
  by_cases hthrows : faults.headD false = true
  · simp only [if_pos hthrows]
    exact ⟨(fun h => by cases h), fun site h => by cases h; rfl⟩
  · simp only [if_neg hthrows]
    refine ⟨fun _ => ?_, fun site h => by cases h⟩
    rw [List.length_singleton, List.drop_one]
    rfl

theorem shadows_mayThrowIf (may : Bool) :
    Shadows error (pure () : Proc σ ε Unit) (mayThrowIf may) := by
  cases may with
  | true => exact shadows_mayThrow
  | false => exact shadows_pure ()

/-- A handler changes nothing but the sites it encloses. -/
theorem shadowsAt_guarded {cleanUp : σ → σ} (h : ShadowsAt error x y s) :
    ShadowsAt error x (guarded cleanUp error y) s := by
  rcases h with ⟨passed, hpassed⟩
  refine ⟨passed.map fun _ => true, fun faults sites => ?_⟩
  rcases hpassed faults [] with ⟨hnone, hsome⟩
  rw [firstFault_map]
  constructor
  · intro h
    have hy := hnone (Option.map_eq_none_iff.mp h)
    rw [List.nil_append] at hy
    simp only [guarded, hy, List.length_map]
    -- Without exceptions nothing is handled.
    rcases (x s).1 with a | e | _ <;> rfl
  · intro site h
    rcases Option.map_eq_some_iff.mp h with ⟨inner, hinner, rfl⟩
    have hy := hsome inner hinner
    rcases hr : y ⟨s, faults, []⟩ with ⟨o, t⟩
    rw [hr] at hy
    obtain rfl : o = endsAt error inner := hy
    simp only [guarded, hr]
    cases inner <;> rfl

/-- After a value or after an error, a shadow goes on as a shadow does. The error of
    a handler must be one that is not gone on after. -/
theorem shadowsAt_handle {k : α → Proc σ ε β} {k' : α → Proc (Faulty σ) (Exit ε) β}
    {h : ε → Proc σ ε β} {h' : ε → Proc (Faulty σ) (Exit ε) β} (hx : ShadowsAt error x y s)
    (hk : ∀ a s1, x s = (.done a, s1) → ShadowsAt error (k a) (k' a) s1)
    (hh : ∀ e s1, x s = (.fail e, s1) → ShadowsAt error (h e) (h' e) s1)
    (herror : ∀ t, (h' error t).1 = .fail (.status error)) :
    ShadowsAt error (handle x k h) (handle y k' (onStatus h')) s := by
  rcases hx with ⟨passed, hpassed⟩
  -- Where the first half throws, nothing follows.
  have hthrows : ∀ {faults sites site}, firstFault faults passed = some site →
      (handle y k' (onStatus h') ⟨s, faults, sites⟩).1 = endsAt error site := by
    intro faults sites site hsite
    have hy := (hpassed faults sites).2 site hsite
    rcases hr : y ⟨s, faults, sites⟩ with ⟨o, t⟩
    rw [hr] at hy
    obtain rfl : o = endsAt error site := hy
    simp only [handle, hr, endsAt]
    cases site with
    | true => exact herror t
    | false => rfl
  -- Where it does not, the sites of the second half follow.
  have hafter : ∀ {o s1} {z : Proc σ ε β} {z' : Proc (Faulty σ) (Exit ε) β}, x s = (o, s1) →
      handle x k h s = z s1 →
      (∀ t u, y t = (unthrown o, u) → handle y k' (onStatus h') t = z' u) →
      ShadowsAt error z z' s1 →
      ShadowsAt error (handle x k h) (handle y k' (onStatus h')) s := by
    intro o s1 z z' hxs hz hz' hshadow
    rcases hshadow with ⟨rest, hrest⟩
    refine ⟨passed ++ rest, fun faults sites => ?_⟩
    rw [firstFault_append]
    cases hfault : firstFault faults passed with
    | some site =>
        rw [Option.some_or]
        exact ⟨(fun h => by cases h), fun site' h => Option.some.inj h ▸ hthrows hfault⟩
    | none =>
        rw [Option.none_or]
        have hy := (hpassed faults sites).1 hfault
        rw [hxs] at hy
        rw [hz, hz' _ _ hy, List.length_append, ← List.drop_drop, ← List.append_assoc]
        exact hrest (faults.drop passed.length) (sites ++ passed)
  rcases hxs : x s with ⟨a | e | _, s1⟩
  · refine hafter hxs ?_ ?_ (hk a s1 hxs)
    · simp only [handle, hxs]
    · intro t u hy
      simp only [handle, hy, unthrown]
  · refine hafter hxs ?_ ?_ (hh e s1 hxs)
    · simp only [handle, hxs]
    · intro t u hy
      simp only [handle, hy, unthrown, onStatus]
  · have hstay :
        ShadowsAt error (fun t => (.waiting, t) : Proc σ ε β) (fun t => (.waiting, t)) s1 :=
      shadows_safely (fun t => (.waiting, t)) s1
    refine hafter hxs ?_ ?_ hstay
    · simp only [handle, hxs]
    · intro t u hy
      simp only [handle, hy, unthrown]

theorem bind_eq_handle (x : Proc σ ε α) (k : α → Proc σ ε β) : (x >>= k) = handle x k fail := by
  funext s
  rcases hx : x s with ⟨a | e | _, s1⟩
  · rw [bind_of_done k hx, handle, hx]
  · rw [bind_of_fail k hx, handle, hx]
    rfl
  · rw [bind_of_waiting k hx, handle, hx]

theorem fail_eq_onStatus : (fail : Exit ε → Proc (Faulty σ) (Exit ε) β) =
    onStatus fun e => fail (.status e) := by
  funext e
  cases e <;> rfl

theorem shadowsAt_bind {k : α → Proc σ ε β} {k' : α → Proc (Faulty σ) (Exit ε) β}
    (hx : ShadowsAt error x y s)
    (hk : ∀ a s1, x s = (.done a, s1) → ShadowsAt error (k a) (k' a) s1) :
    ShadowsAt error (x >>= k) (y >>= k') s := by
  rw [bind_eq_handle, bind_eq_handle, fail_eq_onStatus]
  exact shadowsAt_handle hx hk (fun e s1 _ => shadows_fail e s1) fun t => rfl

theorem shadows_bind {k : α → Proc σ ε β} {k' : α → Proc (Faulty σ) (Exit ε) β}
    (hx : Shadows error x y) (hk : ∀ a, Shadows error (k a) (k' a)) :
    Shadows error (x >>= k) (y >>= k') := fun s =>
  shadowsAt_bind (hx s) fun a s1 _ => hk a s1

/-- A site in front of something. -/
theorem shadows_site {x : Proc σ ε α} {y : Proc (Faulty σ) (Exit ε) α} (may : Bool)
    (h : Shadows error x y) : Shadows error x (mayThrowIf may >>= fun _ => y) := by
  intro s
  refine ShadowsAt.congr
    (shadowsAt_bind (k := fun _ => x) (shadows_mayThrowIf may s) fun _ _ _ => h _) ?_ fun _ _ => rfl
  rfl

theorem shadows_forEach {f : τ → Proc σ ε Unit} {f' : τ → Proc (Faulty σ) (Exit ε) Unit}
    (hf : ∀ t, Shadows error (f t) (f' t)) (ts : List τ) :
    Shadows error (forEach f ts) (forEach f' ts) := by
  induction ts with
  | nil => exact shadows_pure ()
  | cons t ts ih => exact shadows_bind (hf t) fun _ => ih

/-- The error of a handler is worth no other attempt, and neither is an exception. -/
def worthStatus (again : ε → Bool) : Exit ε → Bool
  | .status e => again e
  | .exception => false

theorem retry_eq_handle (attempt : Proc σ ε α) (again : ε → Bool) (between : Proc σ ε Unit)
    (left : Nat) : retry attempt again between (left + 1) = handle attempt pure fun e =>
      if again e then between >>= fun _ => retry attempt again between left else fail e := by
  funext s
  simp only [retry, handle]
  rcases attempt s with ⟨a | e | _, s1⟩
  · rfl
  · by_cases hagain : again e = true
    · simp only [if_pos hagain]
    · simp only [if_neg hagain]
      rfl
  · rfl

theorem worthStatus_eq_onStatus (again : ε → Bool) (z : Proc (Faulty σ) (Exit ε) α) :
    (fun e => if worthStatus again e then z else fail e) =
      onStatus fun e => if again e then z else fail (.status e) := by
  funext e
  cases e <;> rfl

theorem shadows_retry {attempt : Proc σ ε α} {attempt' : Proc (Faulty σ) (Exit ε) α}
    {again : ε → Bool} {between : Proc σ ε Unit} {between' : Proc (Faulty σ) (Exit ε) Unit}
    (hattempt : Shadows error attempt attempt') (hagain : again error = false)
    (hbetween : Shadows error between between') (left : Nat) :
    Shadows error (retry attempt again between left)
      (retry attempt' (worthStatus again) between' left) := by
  -- On the attempts left. The error of an exception is not one to retry after.
  induction left with
  | zero => exact hattempt
  | succ left ih =>
      rw [retry_eq_handle, retry_eq_handle, worthStatus_eq_onStatus]
      intro s
      refine shadowsAt_handle (hattempt s) (fun a s1 _ => shadows_pure a s1) (fun e s1 _ => ?_) ?_
      · split
        · exact shadows_bind hbetween (fun _ => ih) s1
        · exact shadows_fail e s1
      · intro t
        rw [if_neg (Bool.eq_false_iff.mp hagain)]
        rfl

/-- A loop is its body, and itself once more if that answers no. -/
theorem repeatUntil_eq_bind {size : σ → Nat} {body : Proc σ ε Bool}
    {hsize : ∀ s s', body s = (.done false, s') → size s' < size s} :
    repeatUntil size body hsize =
      body >>= fun b => if b then pure () else repeatUntil size body hsize := by
  funext t
  rcases hb : body t with ⟨(_ | _) | e | _, t1⟩
  · rw [repeatUntil_of_false hb, bind_of_done _ hb]
    rfl
  · rw [repeatUntil_of_true hb, bind_of_done _ hb]
    rfl
  · rw [repeatUntil_of_fail hb, bind_of_fail _ hb]
  · rw [repeatUntil_of_waiting hb, bind_of_waiting _ hb]

theorem shadows_repeatUntil {size : σ → Nat} {size' : Faulty σ → Nat} {body : Proc σ ε Bool}
    {body' : Proc (Faulty σ) (Exit ε) Bool}
    {hsize : ∀ s s', body s = (.done false, s') → size s' < size s}
    {hsize' : ∀ s s', body' s = (.done false, s') → size' s' < size' s}
    (hbody : Shadows error body body') :
    Shadows error (repeatUntil size body hsize) (repeatUntil size' body' hsize') := by
  intro s
  -- On the size. One turn is taken, and what follows has a smaller one.
  induction hn : size s using Nat.strong_induction_on generalizing s with
  | _ n ih =>
      have hturn : ShadowsAt error (body >>= fun b =>
          if b then pure () else repeatUntil size body hsize) (body' >>= fun b =>
            if b then pure () else repeatUntil size' body' hsize') s := by
        refine shadowsAt_bind (hbody s) fun b s1 hb => ?_
        cases b with
        | true => exact shadows_pure () s1
        | false => exact ih (size s1) (hn ▸ hsize s s1 hb) s1 rfl
      exact hturn.congr (congrFun repeatUntil_eq_bind s) fun faults sites =>
        congrFun repeatUntil_eq_bind _

end Shadows

/-- Run a procedure on a part of the state, which is put back when it is done. -/
def onPart (whole : τ → σ) (part : τ) (x : Proc τ ε α) : Proc σ ε α := fun _ =>
  ((x part).1, whole (x part).2)

/-- The same of a procedure that may throw. -/
def onPartFaulty (whole : τ → σ) (part : τ) (y : Proc (Faulty τ) ε α) : Proc (Faulty σ) ε α :=
  fun s =>
    let r := y ⟨part, s.faults, s.sites⟩
    (r.1, ⟨whole r.2.state, r.2.faults, r.2.sites⟩)

/-- What shadows on the part shadows on the whole. -/
theorem shadowsAt_onPart {error : ε} {x : Proc τ ε α} {y : Proc (Faulty τ) (Exit ε) α} {part : τ}
    (h : ShadowsAt error x y part) (whole : τ → σ) (s : σ) :
    ShadowsAt error (onPart whole part x) (onPartFaulty whole part y) s := by
  rcases h with ⟨passed, hpassed⟩
  refine ⟨passed, fun faults sites => ?_⟩
  rcases hpassed faults sites with ⟨hnone, hsome⟩
  constructor
  · intro hclear
    simp only [onPartFaulty, hnone hclear, onPart]
  · intro site hsite
    exact hsome site hsite

/-- The sites a procedure passes from a state when nothing throws. -/
def sitesOf (y : Proc (Faulty σ) (Exit ε) α) (s : σ) : List Bool := (y ⟨s, [], []⟩).2.sites

/-- No exception leaves the procedure, and if one of its sites throws, it ends with
    the error. -/
def Contained (error : ε) (y : Proc (Faulty σ) (Exit ε) α) (s : σ) (faults : List Bool) : Prop :=
  (y ⟨s, faults, []⟩).1 ≠ .fail .exception ∧
    (firstFault faults (sitesOf y s) ≠ none → (y ⟨s, faults, []⟩).1 = .fail (.status error))

/-- Exceptions are contained unless the first site that throws has no handler. -/
theorem contained_iff {error : ε} {x : Proc σ ε α} {y : Proc (Faulty σ) (Exit ε) α} {s : σ}
    (h : ShadowsAt error x y s) (faults : List Bool) :
    Contained error y s faults ↔ firstFault faults (sitesOf y s) ≠ some false := by
  rcases h with ⟨passed, hpassed⟩
  have hsites : sitesOf y s = passed := by
    rw [sitesOf, (hpassed [] []).1 (firstFault_nil passed), List.nil_append]
  unfold Contained
  rw [hsites]
  rcases hpassed faults [] with ⟨hnone, hsome⟩
  -- With no fault the call answers as it would. Else the site at fault decides.
  cases hfault : firstFault faults passed with
  | none =>
      rw [hnone hfault]
      refine iff_of_true ⟨?_, fun h => absurd rfl h⟩ (fun h => by cases h)
      rcases (x s).1 with a | e | _ <;> exact fun h => by cases h
  | some site =>
      rw [hsome site hfault]
      cases site with
      | true => exact iff_of_true ⟨(fun h => by cases h), fun _ => rfl⟩ (fun h => by cases h)
      | false => exact iff_of_false (fun h => h.1 rfl) (fun h => h rfl)

/-- Some script throws first at a site without a handler exactly if there is one. -/
theorem exists_firstFault {sites : List Bool} :
    (∃ faults, firstFault faults sites = some false) ↔ false ∈ sites := by
  induction sites with
  | nil => exact iff_of_false (fun ⟨faults, h⟩ => by cases h) List.not_mem_nil
  | cons site sites ih =>
      constructor
      · rintro ⟨faults, h⟩
        rw [firstFault] at h
        split at h
        · rw [Option.some.inj h]
          exact List.mem_cons_self
        · exact List.mem_cons_of_mem _ (ih.mp ⟨faults.tail, h⟩)
      · intro h
        rcases List.mem_cons.mp h with rfl | h
        · exact ⟨[true], rfl⟩
        · -- Let the first site pass.
          rcases ih.mpr h with ⟨faults, hfaults⟩
          exact ⟨false :: faults, hfaults⟩

/-- On the way of the procedure, when nothing throws, is a site without a handler. -/
def Exposes (y : Proc (Faulty σ) (Exit ε) α) (s : σ) : Prop := false ∈ sitesOf y s

/-- Every exception is contained exactly if no site without a handler is on the way. -/
theorem contained_forall_iff {error : ε} {x : Proc σ ε α} {y : Proc (Faulty σ) (Exit ε) α} {s : σ}
    (h : ShadowsAt error x y s) : (∀ faults, Contained error y s faults) ↔ ¬ Exposes y s := by
  rw [Exposes, ← exists_firstFault, not_exists]
  exact forall_congr' fun faults => contained_iff h faults

section Exposes

variable {error : ε} {x : Proc σ ε α} {y : Proc (Faulty σ) (Exit ε) α} {s : σ}

/-- What a procedure with sites does when nothing throws. -/
theorem ShadowsAt.clear (h : ShadowsAt error x y s) (sites : List Bool) :
    y ⟨s, [], sites⟩ = (unthrown (x s).1, ⟨(x s).2, [], sites ++ sitesOf y s⟩) := by
  rcases h with ⟨passed, hpassed⟩
  have hclear : ∀ sites, y ⟨s, [], sites⟩ = (unthrown (x s).1, ⟨(x s).2, [], sites ++ passed⟩) := by
    intro sites
    rw [(hpassed [] sites).1 (firstFault_nil passed), List.drop_nil]
  rw [sitesOf, hclear [], hclear sites]
  rfl

theorem exposes_congr {y' : Proc (Faulty σ) (Exit ε) α} {s' : σ}
    (h : ∀ faults sites, y ⟨s, faults, sites⟩ = y' ⟨s', faults, sites⟩) :
    Exposes y s ↔ Exposes y' s' := by
  rw [Exposes, sitesOf, h]
  rfl

theorem not_exposes_safely (x : Proc σ ε α) (s : σ) :
    ¬ Exposes (safely x : Proc (Faulty σ) (Exit ε) α) s := List.not_mem_nil

theorem not_exposes_pure (a : α) (s : σ) :
    ¬ Exposes (pure a : Proc (Faulty σ) (Exit ε) α) s := List.not_mem_nil

theorem not_exposes_fail (e : Exit ε) (s : σ) :
    ¬ Exposes (fail e : Proc (Faulty σ) (Exit ε) α) s := List.not_mem_nil

theorem exposes_mayThrowIf {may : Bool} {s : σ} :
    Exposes (mayThrowIf may : Proc (Faulty σ) (Exit ε) Unit) s ↔ may = true := by
  cases may with
  | true => exact iff_of_true List.mem_cons_self rfl
  | false => exact iff_of_false List.not_mem_nil Bool.false_ne_true

/-- Inside a handler nothing is exposed. -/
theorem not_exposes_guarded {cleanUp : σ → σ} {error : ε} (y : Proc (Faulty σ) (Exit ε) α)
    (s : σ) : ¬ Exposes (guarded cleanUp error y) s := by
  intro h
  have hall : ∀ site ∈ sitesOf (guarded cleanUp error y) s, site = true := by
    simp only [sitesOf, guarded]
    rcases y ⟨s, [], []⟩ with ⟨a | (e | _) | _, t⟩ <;> intro site hsite <;>
      rcases List.mem_map.mp hsite with ⟨_, -, rfl⟩ <;> rfl
  cases hall false h

/-- Both halves, the second if the first gets to it. -/
theorem exposes_handle {k : α → Proc σ ε β} {k' : α → Proc (Faulty σ) (Exit ε) β}
    {h : ε → Proc σ ε β} {h' : ε → Proc (Faulty σ) (Exit ε) β} (hx : ShadowsAt error x y s)
    (hk : ∀ a s1, x s = (.done a, s1) → ShadowsAt error (k a) (k' a) s1)
    (hh : ∀ e s1, x s = (.fail e, s1) → ShadowsAt error (h e) (h' e) s1) :
    Exposes (handle y k' (onStatus h')) s ↔ Exposes y s ∨
      (∃ a s1, x s = (.done a, s1) ∧ Exposes (k' a) s1) ∨
        ∃ e s1, x s = (.fail e, s1) ∧ Exposes (h' e) s1 := by
  have hy := hx.clear []
  rw [List.nil_append] at hy
  -- By what the first part does. Its sites are followed by those of what handles it.
  rcases hxs : x s with ⟨a | e | _, s1⟩ <;> rw [hxs] at hy
  · have hsites : sitesOf (handle y k' (onStatus h')) s = sitesOf y s ++ sitesOf (k' a) s1 := by
      rw [sitesOf, handle, hy]
      simp only [unthrown]
      rw [(hk a s1 hxs).clear]
    rw [Exposes, hsites, List.mem_append]
    refine or_congr Iff.rfl ⟨fun hrest => Or.inl ⟨a, s1, rfl, hrest⟩, ?_⟩
    rintro (⟨a', s', heq, hrest⟩ | ⟨e', s', heq, -⟩)
    · obtain ⟨ha, rfl⟩ := Prod.mk.inj heq
      obtain rfl := Outcome.done.inj ha
      exact hrest
    · cases heq
  · have hsites : sitesOf (handle y k' (onStatus h')) s = sitesOf y s ++ sitesOf (h' e) s1 := by
      rw [sitesOf, handle, hy]
      simp only [unthrown, onStatus]
      rw [(hh e s1 hxs).clear]
    rw [Exposes, hsites, List.mem_append]
    refine or_congr Iff.rfl ⟨fun hrest => Or.inr ⟨e, s1, rfl, hrest⟩, ?_⟩
    rintro (⟨a', s', heq, -⟩ | ⟨e', s', heq, hrest⟩)
    · cases heq
    · obtain ⟨he, rfl⟩ := Prod.mk.inj heq
      obtain rfl := Outcome.fail.inj he
      exact hrest
  · have hsites : sitesOf (handle y k' (onStatus h')) s = sitesOf y s := by
      rw [sitesOf, handle, hy]
      rfl
    rw [Exposes, hsites]
    refine ⟨Or.inl, ?_⟩
    rintro (hrest | ⟨a', s', heq, -⟩ | ⟨e', s', heq, -⟩)
    · exact hrest
    · cases heq
    · cases heq

theorem exposes_bind {k : α → Proc σ ε β} {k' : α → Proc (Faulty σ) (Exit ε) β}
    (hx : ShadowsAt error x y s)
    (hk : ∀ a s1, x s = (.done a, s1) → ShadowsAt error (k a) (k' a) s1) :
    Exposes (y >>= k') s ↔
      Exposes y s ∨ ∃ a s1, x s = (.done a, s1) ∧ Exposes (k' a) s1 := by
  rw [bind_eq_handle, fail_eq_onStatus,
    exposes_handle hx hk fun e s1 _ => shadows_fail e s1]
  refine or_congr Iff.rfl (or_iff_left ?_)
  rintro ⟨e, s1, -, h⟩
  exact not_exposes_fail _ s1 h

/-- The first half only, if the second exposes nothing. -/
theorem exposes_bind_left {k : α → Proc σ ε β} {k' : α → Proc (Faulty σ) (Exit ε) β}
    (hx : ShadowsAt error x y s) (hk : ∀ a, Shadows error (k a) (k' a))
    (hnone : ∀ a s1, ¬ Exposes (k' a) s1) : Exposes (y >>= k') s ↔ Exposes y s := by
  rw [exposes_bind hx fun a s1 _ => hk a s1]
  exact or_iff_left fun ⟨a, s1, _, h⟩ => hnone a s1 h

/-- What is safe exposes nothing, so the second half decides. -/
theorem exposes_bind_safely {x : Proc σ ε α} {k' : α → Proc (Faulty σ) (Exit ε) β} :
    Exposes (safely x >>= k') s ↔ ∃ a s1, x s = (.done a, s1) ∧ Exposes (k' a) s1 := by
  -- The first part passes no site, so all sites are those of what follows.
  rcases hx : x s with ⟨a | e | _, s1⟩
  · have hfirst : safely x ⟨s, [], []⟩ = (.done a, ⟨s1, [], []⟩) := by
      rw [safely, hx]
      rfl
    have hsites : sitesOf (safely x >>= k') s = sitesOf (k' a) s1 := by
      rw [sitesOf, bind_of_done _ hfirst]
      rfl
    rw [Exposes, hsites]
    refine ⟨fun h => ⟨a, s1, rfl, h⟩, ?_⟩
    rintro ⟨a', s', heq, h⟩
    obtain ⟨ha, rfl⟩ := Prod.mk.inj heq
    obtain rfl := Outcome.done.inj ha
    exact h
  · have hfirst : safely x ⟨s, [], []⟩ = (.fail (.status e), ⟨s1, [], []⟩) := by
      rw [safely, hx]
      rfl
    rw [Exposes, sitesOf, bind_of_fail _ hfirst]
    exact iff_of_false List.not_mem_nil fun ⟨a, s', heq, _⟩ => by cases heq
  · have hfirst : safely x ⟨s, [], []⟩ = (.waiting, ⟨s1, [], []⟩) := by
      rw [safely, hx]
      rfl
    rw [Exposes, sitesOf, bind_of_waiting _ hfirst]
    exact iff_of_false List.not_mem_nil fun ⟨a, s', heq, _⟩ => by cases heq

theorem exposes_site (error : ε) {may : Bool} (h : Shadows error x y) :
    Exposes (mayThrowIf may >>= fun _ => y) s ↔ may = true ∨ Exposes y s := by
  rw [exposes_bind (shadows_mayThrowIf may s) fun _ s1 _ => h s1,
    exposes_mayThrowIf]
  refine or_congr Iff.rfl ⟨?_, fun hy => ⟨(), s, rfl, hy⟩⟩
  rintro ⟨_, s1, heq, hy⟩
  obtain ⟨-, rfl⟩ := Prod.mk.inj heq
  exact hy

theorem exposes_retry {attempt : Proc σ ε α} {attempt' : Proc (Faulty σ) (Exit ε) α}
    {again : ε → Bool} {between : Proc σ ε Unit} (hattempt : Shadows error attempt attempt')
    (hagain : again error = false) (left : Nat) :
    Exposes (retry attempt' (worthStatus again) (safely between) (left + 1)) s ↔
      Exposes attempt' s ∨ ∃ e s1, attempt s = (.fail e, s1) ∧ again e = true ∧
        ∃ s2, between s1 = (.done (), s2) ∧
          Exposes (retry attempt' (worthStatus again) (safely between) left) s2 := by
  have hleft : Shadows error (retry attempt again between left)
      (retry attempt' (worthStatus again) (safely between) left) :=
    shadows_retry hattempt hagain (shadows_safely between) left
  -- What follows a failed attempt, if anything does.
  have hagains : ∀ e s1, ShadowsAt error
      (if again e then between >>= fun _ => retry attempt again between left else fail e)
      (if again e then
        safely between >>= fun _ => retry attempt' (worthStatus again) (safely between) left
      else fail (.status e)) s1 := by
    intro e s1
    split
    · exact shadows_bind (shadows_safely between) (fun _ => hleft) s1
    · exact shadows_fail e s1
  rw [retry_eq_handle, worthStatus_eq_onStatus,
    exposes_handle (hattempt s) (fun a s1 _ => shadows_pure a s1) fun e s1 _ => hagains e s1]
  refine or_congr Iff.rfl ?_
  rw [or_iff_right fun ⟨a, s1, _, h⟩ => not_exposes_pure a s1 h]
  refine exists_congr fun e => exists_congr fun s1 => and_congr Iff.rfl ?_
  by_cases he : again e = true
  · rw [if_pos he, exposes_bind_safely]
    simp only [he, true_and]
    exact ⟨fun ⟨_, s2, hb, h⟩ => ⟨s2, hb, h⟩, fun ⟨s2, hb, h⟩ => ⟨(), s2, hb, h⟩⟩
  · rw [if_neg he]
    exact iff_of_false (not_exposes_fail _ s1) fun h => he h.1

theorem exposes_repeatUntil {size : σ → Nat} {size' : Faulty σ → Nat} {body : Proc σ ε Bool}
    {body' : Proc (Faulty σ) (Exit ε) Bool}
    (hsize : ∀ s s', body s = (.done false, s') → size s' < size s)
    {hsize' : ∀ s s', body' s = (.done false, s') → size' s' < size' s}
    (hbody : Shadows error body body') :
    Exposes (repeatUntil size' body' hsize') s ↔ Exposes body' s ∨
      ∃ s1, body s = (.done false, s1) ∧ Exposes (repeatUntil size' body' hsize') s1 := by
  have hloop : Shadows error (repeatUntil size body hsize) (repeatUntil size' body' hsize') :=
    shadows_repeatUntil hbody
  -- Behind a turn there is the loop again, or nothing.
  have hagain : ∀ (b : Bool) s1, body s = (.done b, s1) → ShadowsAt error
      (if b then pure () else repeatUntil size body hsize)
      (if b then pure () else repeatUntil size' body' hsize') s1 := by
    intro b s1 _
    cases b with
    | true => exact shadows_pure () s1
    | false => exact hloop s1
  rw [exposes_congr fun faults sites => congrFun repeatUntil_eq_bind _,
    exposes_bind (k := fun b => if b then pure () else repeatUntil size body hsize) (hbody s)
      hagain]
  refine or_congr Iff.rfl ⟨?_, fun ⟨s1, hb, h⟩ => ⟨false, s1, hb, h⟩⟩
  rintro ⟨_ | _, s1, hb, h⟩
  · exact ⟨s1, hb, h⟩
  · exact absurd h (not_exposes_pure () s1)

end Exposes

section Covers

variable {error : ε} {x : Proc σ ε α} {y : Proc (Faulty σ) (Exit ε) α}

/-- A procedure exposes nothing, from no state. -/
def Covers (y : Proc (Faulty σ) (Exit ε) α) : Prop := ∀ s, ¬ Exposes y s

theorem covers_bind {k : α → Proc σ ε β} {k' : α → Proc (Faulty σ) (Exit ε) β}
    (hx : Shadows error x y) (hk : ∀ a, Shadows error (k a) (k' a)) (hy : Covers y)
    (hrest : ∀ a, Covers (k' a)) : Covers (y >>= k') := by
  intro s
  rw [exposes_bind_left (hx s) hk hrest]
  exact hy s

theorem covers_bind_safely {k' : α → Proc (Faulty σ) (Exit ε) β} (hrest : ∀ a, Covers (k' a)) :
    Covers (safely x >>= k') := by
  intro s
  rw [exposes_bind_safely]
  exact fun ⟨a, s1, _, h⟩ => hrest a s1 h

theorem covers_handle {k : α → Proc σ ε β} {k' : α → Proc (Faulty σ) (Exit ε) β}
    {h : ε → Proc σ ε β} {h' : ε → Proc (Faulty σ) (Exit ε) β} (hx : Shadows error x y)
    (hk : ∀ a, Shadows error (k a) (k' a)) (hh : ∀ e, Shadows error (h e) (h' e))
    (hy : Covers y) (hdone : ∀ a, Covers (k' a)) (hfail : ∀ e, Covers (h' e)) :
    Covers (handle y k' (onStatus h')) := by
  intro s
  rw [exposes_handle (hx s) (fun a s1 _ => hk a s1) fun e s1 _ => hh e s1]
  rintro (hexposes | ⟨a, s1, -, hexposes⟩ | ⟨e, s1, -, hexposes⟩)
  · exact hy s hexposes
  · exact hdone a s1 hexposes
  · exact hfail e s1 hexposes

theorem covers_retry {again : ε → Bool} {between : Proc σ ε Unit} (hx : Shadows error x y)
    (hagain : again error = false) (hy : Covers y) (left : Nat) :
    Covers (retry y (worthStatus again) (safely between) left) := by
  induction left with
  | zero => exact hy
  | succ left ih =>
      intro s
      rw [exposes_retry hx hagain]
      rintro (hexposes | ⟨e, s1, -, -, s2, -, hexposes⟩)
      · exact hy s hexposes
      · exact ih s2 hexposes

theorem covers_repeatUntil {size : σ → Nat} {size' : Faulty σ → Nat} {body : Proc σ ε Bool}
    {body' : Proc (Faulty σ) (Exit ε) Bool}
    (hsize : ∀ s s', body s = (.done false, s') → size s' < size s)
    {hsize' : ∀ s s', body' s = (.done false, s') → size' s' < size' s}
    (hbody : Shadows error body body') (h : Covers body') :
    Covers (repeatUntil size' body' hsize') := by
  intro s
  induction hn : size s using Nat.strong_induction_on generalizing s with
  | _ n ih =>
      rw [exposes_repeatUntil hsize hbody]
      rintro (hhere | ⟨s1, hb, hrest⟩)
      · exact h s hhere
      · exact ih (size s1) (hn ▸ hsize s s1 hb) s1 rfl hrest

end Covers

section Tolls

variable {error : ε} {x : Proc σ ε α} {y : Proc (Faulty σ) (Exit ε) α}

/-- A procedure hands on a value only past an exposed site. -/
def Tolls (x : Proc σ ε α) (y : Proc (Faulty σ) (Exit ε) α) : Prop :=
  ∀ s a s1, x s = (.done a, s1) → Exposes y s

theorem tolls_bind_left {k : α → Proc σ ε β} {k' : α → Proc (Faulty σ) (Exit ε) β}
    (hx : Shadows error x y) (hk : ∀ a, Shadows error (k a) (k' a)) (h : Tolls x y) :
    Tolls (x >>= k) (y >>= k') := by
  intro s b s' hdone
  rcases bind_done_iff.mp hdone with ⟨a, s1, hfirst, -⟩
  exact (exposes_bind (hx s) fun a s1 _ => hk a s1).mpr (Or.inl (h s a s1 hfirst))

theorem tolls_bind_right {k : α → Proc σ ε β} {k' : α → Proc (Faulty σ) (Exit ε) β}
    (hx : Shadows error x y) (hk : ∀ a, Shadows error (k a) (k' a)) (h : ∀ a, Tolls (k a) (k' a)) :
    Tolls (x >>= k) (y >>= k') := by
  intro s b s' hdone
  rcases bind_done_iff.mp hdone with ⟨a, s1, hfirst, hrest⟩
  exact (exposes_bind (hx s) fun a s1 _ => hk a s1).mpr
    (Or.inr ⟨a, s1, hfirst, h a s1 b s' hrest⟩)

theorem tolls_bind_safely {k : α → Proc σ ε β} {k' : α → Proc (Faulty σ) (Exit ε) β}
    (h : ∀ a, Tolls (k a) (k' a)) : Tolls (x >>= k) (safely x >>= k') := by
  intro s b s' hdone
  rcases bind_done_iff.mp hdone with ⟨a, s1, hfirst, hrest⟩
  exact exposes_bind_safely.mpr ⟨a, s1, hfirst, h a s1 b s' hrest⟩

/-- The attempt that ends the loop well has paid. -/
theorem tolls_retry {again : ε → Bool} {between : Proc σ ε Unit} (hx : Shadows error x y)
    (hagain : again error = false) (h : Tolls x y) (left : Nat) :
    Tolls (retry x again between left) (retry y (worthStatus again) (safely between) left) := by
  -- On the attempts left. One of them has ended well, and has paid for it.
  induction left with
  | zero => exact h
  | succ left ih =>
      intro s a s' hdone
      rw [exposes_retry hx hagain]
      rcases hfirst : x s with ⟨b | e | _, s1⟩
      · exact Or.inl (h s b s1 hfirst)
      · simp only [retry, hfirst] at hdone
        split at hdone
        · next he =>
          rcases bind_done_iff.mp hdone with ⟨_, s2, hbetween, hrest⟩
          exact Or.inr ⟨e, s1, rfl, he, s2, hbetween, ih s2 a s' hrest⟩
        · cases hdone
      · simp only [retry, hfirst] at hdone
        cases hdone

theorem tolls_repeatUntil {size : σ → Nat} {size' : Faulty σ → Nat} {body : Proc σ ε Bool}
    {body' : Proc (Faulty σ) (Exit ε) Bool}
    {hsize : ∀ s s', body s = (.done false, s') → size s' < size s}
    {hsize' : ∀ s s', body' s = (.done false, s') → size' s' < size' s}
    (hbody : Shadows error body body') (h : Tolls body body') :
    Tolls (repeatUntil size body hsize) (repeatUntil size' body' hsize') := by
  intro s a s' hdone
  rw [exposes_repeatUntil hsize hbody]
  -- A loop that ends well has ended a turn, and the first will do.
  rcases hb : body s with ⟨b | e | _, s1⟩
  · exact Or.inl (h s b s1 hb)
  · rw [repeatUntil_of_fail hb] at hdone
    cases hdone
  · rw [repeatUntil_of_waiting hb] at hdone
    cases hdone

end Tolls

section ToldBy

variable {error : ε} {x : Proc σ ε α} {y : Proc (Faulty σ) (Exit ε) α} {s s1 : σ}
  {strict P condition : Prop}

/-- A condition is enough for a procedure to expose a site, and necessary in the strict
    case. -/
def ToldBy (strict P : Prop) (y : Proc (Faulty σ) (Exit ε) α) (s : σ) : Prop :=
  (P → Exposes y s) ∧ (strict → Exposes y s → P)

theorem toldBy_of_iff (h : Exposes y s ↔ P) : ToldBy strict P y s := ⟨h.mpr, fun _ => h.mp⟩

theorem toldBy_congr {y' : Proc (Faulty σ) (Exit ε) α} {s' : σ} {P' : Prop}
    (h : ∀ faults sites, y ⟨s, faults, sites⟩ = y' ⟨s', faults, sites⟩) (hp : P ↔ P') :
    ToldBy strict P y s ↔ ToldBy strict P' y' s' := by
  rw [ToldBy, exposes_congr h, hp]
  exact Iff.rfl

/-- The first half tells, if what it hands on it hands on past an exposed site. -/
theorem toldBy_bind {k : α → Proc σ ε β} {k' : α → Proc (Faulty σ) (Exit ε) β}
    (hx : ShadowsAt error x y s) (hk : ∀ a, Shadows error (k a) (k' a))
    (htolls : strict → Tolls x y) (h : ToldBy strict P y s) : ToldBy strict P (y >>= k') s := by
  rw [ToldBy, exposes_bind hx fun a s1 _ => hk a s1]
  refine ⟨fun hp => Or.inl (h.1 hp), fun hstrict hexposes => h.2 hstrict ?_⟩
  rcases hexposes with hfirst | ⟨a, s1, hdone, -⟩
  · exact hfirst
  · exact htolls hstrict s a s1 hdone

/-- After what is safe, the rest tells. -/
theorem toldBy_safely {k' : α → Proc (Faulty σ) (Exit ε) β} (a : α) (s1 : σ)
    (hdone : condition → x s = (.done a, s1)) (honly : ∀ b t, x s = (.done b, t) → condition)
    (h : ToldBy strict P (k' a) s1) : ToldBy strict (condition ∧ P) (safely x >>= k') s := by
  rw [ToldBy, exposes_bind_safely]
  constructor
  · rintro ⟨hc, hp⟩
    exact ⟨a, s1, hdone hc, h.1 hp⟩
  · rintro hstrict ⟨b, t, hb, hexposes⟩
    have hc := honly b t hb
    obtain ⟨ha, rfl⟩ := Prod.mk.inj (hb.symm.trans (hdone hc))
    obtain rfl := Outcome.done.inj ha
    exact ⟨hc, h.2 hstrict hexposes⟩

/-- The same where the rest asks for no value. -/
theorem toldBy_past {x : Proc σ ε Unit} {rest : Proc (Faulty σ) (Exit ε) β}
    (hdone : condition → x s = (.done (), s1)) (honly : ∀ t, x s = (.done (), t) → condition)
    (h : ToldBy strict P rest s1) :
    ToldBy strict (condition ∧ P) (safely x >>= fun _ => rest) s :=
  toldBy_safely () s1 hdone (fun _ => honly) h

/-- The first turn of a loop tells, if it pays. -/
theorem toldBy_repeatUntil {size : σ → Nat} {size' : Faulty σ → Nat} {body : Proc σ ε Bool}
    {body' : Proc (Faulty σ) (Exit ε) Bool}
    (hsize : ∀ s s', body s = (.done false, s') → size s' < size s)
    {hsize' : ∀ s s', body' s = (.done false, s') → size' s' < size' s}
    (hbody : Shadows error body body') (htolls : strict → Tolls body body')
    (h : ToldBy strict P body' s) : ToldBy strict P (repeatUntil size' body' hsize') s := by
  rw [ToldBy, exposes_repeatUntil hsize hbody]
  refine ⟨fun hp => Or.inl (h.1 hp), fun hstrict hexposes => h.2 hstrict ?_⟩
  rcases hexposes with hturn | ⟨s1, hdone, -⟩
  · exact hturn
  · exact htolls hstrict s false s1 hdone

end ToldBy

end Proc
