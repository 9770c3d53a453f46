import Mathlib.Tactic.Common

/-!
# What operations lead to

Building, programming, editing and surveying are operations on a state that they change also when
they fail.  `Leads P x Q E` says where such an operation goes from the states in `P`: to `Q` if it
succeeds, to `E` if it fails.

There is one rule for each way in which operations are put together.  Loops over lists have the
invariant depend on what has been done so far, `Leads.forM` and `Leads.mapM`; the inductions that
these rest on are done here once.

The operations of this program keep their effects when they fail, so a rule about successes alone
would lose what matters most of them.  That is why there are two postconditions, and why the one of
a failure sees the state in which the operation stopped.  The usual rules for weakening and
sequencing carry over; in a sequence both parts have to agree on what a failure leaves.

`Leads` is a statement about a function and not a syntax of programs, so an operation that is not
made of smaller ones, such as a request, takes part in it by any proof at all.
-/

set_option autoImplicit false

namespace SignalRoute

variable {ε σ α β : Type}

/-! ## Questions

Computations that look at no state.  A list of them is asked from the front, up to the first that
has no answer.
-/

theorem bind_eq_ok {x : Except ε α} {f : α → Except ε β} {b : β} :
    (x >>= f) = .ok b ↔ ∃ a, x = .ok a ∧ f a = .ok b := by
  cases x with
  | error e =>
    constructor
    · intro h
      cases h
    · rintro ⟨a, ha, -⟩
      cases ha
  | ok a =>
    constructor
    · intro h
      exact ⟨a, rfl, h⟩
    · rintro ⟨a, ha, h⟩
      cases ha
      exact h

theorem eq_ok_of_toOption {x : Except ε α} {a : α} (h : x.toOption = some a) : x = .ok a := by
  cases x with
  | error e => cases h
  | ok b => exact congrArg Except.ok (Option.some.inj h)

/-- What comes out of a list of questions was the answer to one of them. -/
theorem exists_of_mem_mapM {f : α → Except ε β} {l : List α} {bs : List β} (h : l.mapM f = .ok bs)
    {b : β} (hb : b ∈ bs) : ∃ a ∈ l, f a = .ok b := by
  induction l generalizing bs with
  | nil =>
    cases h
    cases hb
  | cons a rest ih =>
    rw [List.mapM_cons] at h
    obtain ⟨first, hfirst, h⟩ := bind_eq_ok.1 h
    obtain ⟨others, hothers, h⟩ := bind_eq_ok.1 h
    cases h
    rcases List.mem_cons.1 hb with rfl | hb
    · exact ⟨a, List.mem_cons_self, hfirst⟩
    · obtain ⟨a', ha', hf⟩ := ih hothers hb
      exact ⟨a', List.mem_cons_of_mem _ ha', hf⟩

/-- Two questions with the same answers, asked all along a list. -/
theorem mapM_same {f g : α → Except ε β} {l : List α}
    (h : ∀ a ∈ l, ∃ b, f a = .ok b ∧ g a = .ok b) : ∃ bs, l.mapM f = .ok bs ∧ l.mapM g = .ok bs := by
  induction l with
  | nil => exact ⟨[], rfl, rfl⟩
  | cons a rest ih =>
    obtain ⟨b, hf, hg⟩ := h a List.mem_cons_self
    obtain ⟨bs, hfs, hgs⟩ := ih fun a' ha' => h a' (List.mem_cons_of_mem _ ha')
    rw [List.mapM_cons, List.mapM_cons, hf, hg, hfs, hgs]
    exact ⟨b :: bs, rfl, rfl⟩

/-- A list of questions is answered if each of them is. -/
theorem exists_mapM_iff {f : α → Except ε β} {l : List α} :
    (∃ bs, l.mapM f = .ok bs) ↔ ∀ a ∈ l, ∃ b, f a = .ok b := by
  induction l with
  | nil => exact ⟨fun _ => List.forall_mem_nil _, fun _ => ⟨[], rfl⟩⟩
  | cons a rest ih =>
    rw [List.forall_mem_cons, ← ih, List.mapM_cons]
    constructor
    · rintro ⟨bs, h⟩
      obtain ⟨b, hb, h⟩ := bind_eq_ok.1 h
      obtain ⟨bs', hbs', -⟩ := bind_eq_ok.1 h
      exact ⟨⟨b, hb⟩, bs', hbs'⟩
    · rintro ⟨⟨b, hb⟩, bs, hbs⟩
      rw [hb, hbs]
      exact ⟨b :: bs, rfl⟩

theorem length_of_mapM {f : α → Except ε β} {l : List α} {bs : List β} (h : l.mapM f = .ok bs) :
    bs.length = l.length := by
  induction l generalizing bs with
  | nil =>
    cases h
    rfl
  | cons a rest ih =>
    rw [List.mapM_cons] at h
    obtain ⟨b, -, h⟩ := bind_eq_ok.1 h
    obtain ⟨bs', hbs', h⟩ := bind_eq_ok.1 h
    cases h
    rw [List.length_cons, List.length_cons, ih hbs']

/-- What went wrong with a list of questions went wrong with one of them. -/
theorem exists_of_mapM_error {f : α → Except ε β} {l : List α} {e : ε}
    (h : l.mapM f = .error e) : ∃ a ∈ l, f a = .error e := by
  induction l with
  | nil => cases h
  | cons a rest ih =>
    rw [List.mapM_cons] at h
    cases ha : f a with
    | error e' =>
      rw [ha] at h
      cases h
      exact ⟨a, List.mem_cons_self, ha⟩
    | ok b =>
      rw [ha] at h
      cases hrest : rest.mapM f with
      | error e' =>
        have hsame : e' = e := by
          rw [hrest] at h
          cases h
          rfl
        obtain ⟨a', ha', hf⟩ := ih (hsame ▸ hrest)
        exact ⟨a', List.mem_cons_of_mem _ ha', hf⟩
      | ok bs =>
        rw [hrest] at h
        cases h

/-! ## Operations on a state

What a sequence of operations does to a state, as equations.  They are used where a run is followed
step by step, and not summed up by what it leads to.
-/

theorem pure_apply (a : α) (s : σ) : (pure a : ExceptT ε (StateM σ) α) s = (.ok a, s) := rfl

theorem get_bind_apply (f : σ → ExceptT ε (StateM σ) β) (s : σ) :
    ((get : ExceptT ε (StateM σ) σ) >>= f) s = f s s := rfl

theorem modify_apply (f : σ → σ) (s : σ) :
    (modify f : ExceptT ε (StateM σ) PUnit) s = (.ok (), f s) := rfl

theorem bind_apply (x : ExceptT ε (StateM σ) α) (f : α → ExceptT ε (StateM σ) β) (s : σ) :
    (x >>= f) s = match x s with
      | (.ok a, s') => f a s'
      | (.error e, s') => (.error e, s') := by
  show (ExceptT.bindCont f (x s).1) (x s).2 = _
  rcases x s with ⟨_ | a, s'⟩ <;> rfl

theorem bind_apply_ok {x : ExceptT ε (StateM σ) α} {f : α → ExceptT ε (StateM σ) β} {s s' : σ}
    {a : α} (h : x s = (.ok a, s')) : (x >>= f) s = f a s' := by
  rw [bind_apply, h]

theorem bind_apply_error {x : ExceptT ε (StateM σ) α} {f : α → ExceptT ε (StateM σ) β} {s s' : σ}
    {e : ε} (h : x s = (.error e, s')) : (x >>= f) s = (.error e, s') := by
  rw [bind_apply, h]

/-- A sequence that succeeds is one of successes. -/
theorem bind_apply_eq_ok {x : ExceptT ε (StateM σ) α} {f : α → ExceptT ε (StateM σ) β} {s s' : σ}
    {b : β} : (x >>= f) s = (.ok b, s') ↔ ∃ a s₁, x s = (.ok a, s₁) ∧ f a s₁ = (.ok b, s') := by
  rw [bind_apply]
  constructor
  · intro h
    split at h
    · rename_i a s₁ hx
      exact ⟨a, s₁, hx, h⟩
    · cases h
  · rintro ⟨a, s₁, hx, hf⟩
    rw [hx]
    exact hf

/-! ## Where operations lead -/

/-- From the states in `P`, an operation leads to `Q` if it succeeds and to `E` if it fails. -/
def Leads (P : σ → Prop) (x : ExceptT ε (StateM σ) α) (Q : α → σ → Prop) (E : ε → σ → Prop) :
    Prop :=
  ∀ s, P s → match x s with
    | (.ok a, s') => Q a s'
    | (.error e, s') => E e s'

namespace Leads

variable {P P' : σ → Prop} {Q Q' : α → σ → Prop} {R : β → σ → Prop} {E E' : ε → σ → Prop}
  {x : ExceptT ε (StateM σ) α} {f : α → ExceptT ε (StateM σ) β}

theorem ok (h : Leads P x Q E) {s s' : σ} {a : α} (hs : P s) (hx : x s = (.ok a, s')) :
    Q a s' := by
  have := h s hs
  rwa [hx] at this

theorem error (h : Leads P x Q E) {s s' : σ} {e : ε} (hs : P s) (hx : x s = (.error e, s')) :
    E e s' := by
  have := h s hs
  rwa [hx] at this

/-- Fewer states to begin with, and more to end in. -/
theorem weaken (h : Leads P x Q E) (hP : ∀ s, P' s → P s) (hQ : ∀ a s, Q a s → Q' a s)
    (hE : ∀ e s, E e s → E' e s) : Leads P' x Q' E' := by
  intro s hs
  rcases hx : x s with ⟨e | a, s'⟩
  · exact hE e s' (h.error (hP s hs) hx)
  · exact hQ a s' (h.ok (hP s hs) hx)

theorem pure (a : α) (h : ∀ s, P s → Q a s) : Leads P (Pure.pure a) Q E := h

theorem bind (hx : Leads P x Q E) (hf : ∀ a, Leads (Q a) (f a) R E) : Leads P (x >>= f) R E := by
  intro s hs
  rcases h : x s with ⟨e | a, s'⟩
  · rw [bind_apply_error h]
    exact hx.error hs h
  · rw [bind_apply_ok h]
    exact hf a s' (hx.ok hs h)

/-- What does not depend on the state holds all the way. -/
theorem pull {H : Prop} (h : H → Leads P x Q E) : Leads (fun s => P s ∧ H) x Q E :=
  fun s hs => h hs.2 s hs.1

/-- An operation that looks at the state first. -/
theorem get_bind {g : σ → ExceptT ε (StateM σ) α} (h : ∀ s, P s → Leads P (g s) Q E) :
    Leads P (get >>= g) Q E := by
  intro s hs
  rw [get_bind_apply]
  exact h s hs s hs

theorem mapM (I : List α → List β → σ → Prop) (l : List α)
    (step : ∀ done out a rest, l = done ++ a :: rest →
      Leads (I done out) (f a) (fun b => I (done ++ [a]) (out ++ [b])) E) :
    Leads (I [] []) (l.mapM f) (I l) E := by
  suffices h : ∀ rest done out, l = done ++ rest →
      Leads (I done out) (rest.mapM f) (fun bs => I l (out ++ bs)) E from h l [] [] rfl
  intro rest
  induction rest with
  | nil =>
    intro done out hl
    rw [List.mapM_nil]
    refine pure [] fun s hs => ?_
    rw [hl, List.append_nil, List.append_nil]
    exact hs
  | cons a rest ih =>
    intro done out hl
    rw [List.mapM_cons]
    refine (step done out a rest hl).bind fun b => ?_
    refine (ih (done ++ [a]) (out ++ [b]) (by rw [hl]; simp)).bind fun bs => ?_
    refine pure (b :: bs) fun s hs => ?_
    simpa using hs

theorem forM {g : α → ExceptT ε (StateM σ) PUnit} (I : List α → σ → Prop) (l : List α)
    (step : ∀ done a rest, l = done ++ a :: rest →
      Leads (I done) (g a) (fun _ => I (done ++ [a])) E) :
    Leads (I []) (l.forM g) (fun _ => I l) E := by
  suffices h : ∀ rest done, l = done ++ rest →
      Leads (I done) (rest.forM g) (fun _ => I l) E from h l [] rfl
  intro rest
  induction rest with
  | nil =>
    intro done hl
    rw [List.append_nil] at hl
    rw [hl]
    exact pure _ fun _ hs => hs
  | cons a rest ih =>
    intro done hl
    exact (step done a rest hl).bind fun _ => ih (done ++ [a]) (by rw [hl]; simp)

end Leads
end SignalRoute
