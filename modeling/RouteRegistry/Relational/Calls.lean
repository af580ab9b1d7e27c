import Mathlib.Tactic.Common

/-!
# Calls over a state

A call `EStateM ε σ α` returns a value or raises, and leaves a state either way.

- `bind_eq_ok`, `bind_eq_error`, …: how an outcome of a sequence comes about.
- `Keeps R call`: however the call ends, `R` relates the state before it to the state
  after it.
- `ReadOnly call`, `AllOrNothing call`: the state stays as it was, always, or when the
  call raises.
- `Yields P call`: what the call returns satisfies `P`.
- `within`: a call on a part of a larger state.
-/

namespace Calls

variable {ε σ τ α β : Type}

/-- The state a call leaves. -/
def after (call : EStateM ε σ α) (s : σ) : σ :=
  match call s with
  | .ok _ s' => s'
  | .error _ s' => s'

/-- Raise what a computation without a state raises. -/
def ofExcept : Except ε α → EStateM ε σ α
  | .ok a => pure a
  | .error e => throw e

/-! ## Outcomes -/

section Outcomes

variable {call : EStateM ε σ α} {f : α → EStateM ε σ β} {s s' : σ} {a : α} {b : β} {e : ε}

theorem after_of_ok (h : call s = .ok a s') : after call s = s' := by
  unfold after
  rw [h]

theorem after_of_error (h : call s = .error e s') : after call s = s' := by
  unfold after
  rw [h]

theorem bind_of_ok (h : call s = .ok a s') : (call >>= f) s = f a s' := by
  show EStateM.bind call f s = _
  unfold EStateM.bind
  rw [h]

theorem bind_of_error (h : call s = .error e s') : (call >>= f) s = .error e s' := by
  show EStateM.bind call f s = _
  unfold EStateM.bind
  rw [h]

theorem bind_eq_ok :
    (call >>= f) s = .ok b s' ↔ ∃ a s₁, call s = .ok a s₁ ∧ f a s₁ = .ok b s' := by
  cases h : call s with
  | ok a s₁ => simp [bind_of_ok h]
  | error e s₁ => simp [bind_of_error h]

theorem bind_eq_error :
    (call >>= f) s = .error e s' ↔
      call s = .error e s' ∨ ∃ a s₁, call s = .ok a s₁ ∧ f a s₁ = .error e s' := by
  cases h : call s with
  | ok a s₁ => simp [bind_of_ok h]
  | error e s₁ => simp [bind_of_error h]

theorem map_eq_ok {g : α → β} :
    (g <$> call) s = .ok b s' ↔ ∃ a, call s = .ok a s' ∧ g a = b := by
  show EStateM.map g call s = _ ↔ _
  unfold EStateM.map
  cases call s <;> simp [and_comm]

theorem map_eq_error {g : α → β} : (g <$> call) s = .error e s' ↔ call s = .error e s' := by
  show EStateM.map g call s = _ ↔ _
  unfold EStateM.map
  cases call s <;> simp

/-- The states are those of a machine without save points. -/
theorem tryCatch_of_ok {h : ε → EStateM ε σ α} (hcall : call s = .ok a s') :
    tryCatch call h s = .ok a s' := by
  show EStateM.tryCatch call h s = _
  unfold EStateM.tryCatch
  rw [hcall]

theorem tryCatch_of_error {h : ε → EStateM ε σ α} (hcall : call s = .error e s') :
    tryCatch call h s = h e s' := by
  show EStateM.tryCatch call h s = _
  unfold EStateM.tryCatch
  rw [hcall]
  rfl

/-- A clause that raises again lets through what returns. -/
theorem rethrow_eq_ok {f : ε → ε} :
    tryCatch call (fun e => throw (f e)) s = .ok a s' ↔ call s = .ok a s' := by
  cases h : call s with
  | ok a' s₁ => rw [tryCatch_of_ok h]
  | error e s₁ =>
    rw [tryCatch_of_error h]
    exact iff_of_false (fun h => by cases h) (fun h => by cases h)

theorem rethrow_eq_error {f : ε → ε} :
    tryCatch call (fun e => throw (f e)) s = .error e s' ↔
      ∃ e', call s = .error e' s' ∧ f e' = e := by
  cases h : call s with
  | ok a' s₁ =>
    rw [tryCatch_of_ok h]
    exact iff_of_false (fun h => by cases h) (fun ⟨_, h, _⟩ => by cases h)
  | error e₁ s₁ =>
    rw [tryCatch_of_error h]
    constructor
    · intro h
      cases h
      exact ⟨e₁, rfl, rfl⟩
    · rintro ⟨e', h, rfl⟩
      cases h
      rfl

end Outcomes

/-! ## What a call keeps -/

/-- However the call ends, `R` relates the state before it to the state after it. -/
def Keeps (R : σ → σ → Prop) (call : EStateM ε σ α) : Prop := ∀ s, R s (after call s)

/-- The call changes nothing. -/
def ReadOnly (call : EStateM ε σ α) : Prop := Keeps (fun s s' => s' = s) call

/-- A call that raises changes nothing. -/
def AllOrNothing (call : EStateM ε σ α) : Prop := ∀ s e s', call s = .error e s' → s' = s

section Keeps

variable {R : σ → σ → Prop} {call : EStateM ε σ α} {f : α → EStateM ε σ β}

theorem keeps_pure (hrefl : ∀ s, R s s) (a : α) : Keeps R (pure a : EStateM ε σ α) := hrefl

theorem keeps_throw (hrefl : ∀ s, R s s) (e : ε) : Keeps R (throw e : EStateM ε σ α) := hrefl

theorem Keeps.bind (htrans : ∀ s s₁ s₂, R s s₁ → R s₁ s₂ → R s s₂) (hcall : Keeps R call)
    (hf : ∀ a, Keeps R (f a)) : Keeps R (call >>= f) := by
  intro s
  have hfirst := hcall s
  cases h : call s with
  | ok a s₁ =>
    rw [after_of_ok h] at hfirst
    have hrest := hf a s₁
    unfold after at hrest ⊢
    rw [bind_of_ok h]
    exact htrans s s₁ _ hfirst hrest
  | error e s₁ =>
    rw [after_of_error h] at hfirst
    rw [after_of_error (bind_of_error h)]
    exact hfirst

theorem Keeps.tryCatch (htrans : ∀ s s₁ s₂, R s s₁ → R s₁ s₂ → R s s₂) (hcall : Keeps R call)
    {h : ε → EStateM ε σ α} (hh : ∀ e, Keeps R (h e)) : Keeps R (tryCatch call h) := by
  intro s
  have hfirst := hcall s
  cases hres : call s with
  | ok a s₁ =>
    rw [after_of_ok hres] at hfirst
    rw [after_of_ok (tryCatch_of_ok hres)]
    exact hfirst
  | error e s₁ =>
    rw [after_of_error hres] at hfirst
    have hrest := hh e s₁
    unfold after at hrest ⊢
    rw [tryCatch_of_error hres]
    exact htrans s s₁ _ hfirst hrest

theorem keeps_ofExcept (hrefl : ∀ s, R s s) (x : Except ε α) :
    Keeps R (ofExcept x : EStateM ε σ α) := by
  cases x with
  | ok a => exact keeps_pure hrefl a
  | error e => exact keeps_throw hrefl e

theorem Keeps.mono {R' : σ → σ → Prop} (h : Keeps R call) (himp : ∀ s s', R s s' → R' s s') :
    Keeps R' call :=
  fun s => himp s _ (h s)

theorem ReadOnly.keeps (h : ReadOnly call) (hrefl : ∀ s, R s s) : Keeps R call := by
  intro s
  rw [show after call s = s from h s]
  exact hrefl s

end Keeps

section ReadOnly

variable {call : EStateM ε σ α} {f : α → EStateM ε σ β} {s s' : σ} {a : α} {e : ε}

theorem readOnly_pure (a : α) : ReadOnly (pure a : EStateM ε σ α) := fun _ => rfl

theorem readOnly_throw (e : ε) : ReadOnly (throw e : EStateM ε σ α) := fun _ => rfl

theorem readOnly_ofExcept (x : Except ε α) : ReadOnly (ofExcept x : EStateM ε σ α) :=
  keeps_ofExcept (R := fun s s' => s' = s) (fun _ => rfl) x

theorem ReadOnly.bind (hcall : ReadOnly call) (hf : ∀ a, ReadOnly (f a)) :
    ReadOnly (call >>= f) :=
  Keeps.bind (R := fun s s' => s' = s) (fun _ _ _ h h' => h'.trans h) hcall hf

theorem ReadOnly.tryCatch (hcall : ReadOnly call) {h : ε → EStateM ε σ α}
    (hh : ∀ e, ReadOnly (h e)) : ReadOnly (tryCatch call h) :=
  Keeps.tryCatch (R := fun s s' => s' = s) (fun _ _ _ h h' => h'.trans h) hcall hh

theorem ReadOnly.ok (h : ReadOnly call) (hres : call s = .ok a s') : s' = s :=
  (after_of_ok hres).symm.trans (h s)

theorem ReadOnly.error (h : ReadOnly call) (hres : call s = .error e s') : s' = s :=
  (after_of_error hres).symm.trans (h s)

theorem ReadOnly.allOrNothing (h : ReadOnly call) : AllOrNothing call := fun _ _ _ => h.error

/-- What follows may do nothing more than return. -/
theorem AllOrNothing.bind_pure (hcall : AllOrNothing call) (g : α → β) :
    AllOrNothing (call >>= fun a => pure (g a)) := by
  intro s e s' h
  rcases bind_eq_error.mp h with h | ⟨a, s₁, -, h⟩
  · exact hcall s e s' h
  · cases h

theorem AllOrNothing.rethrow (hcall : AllOrNothing call) (f : ε → ε) :
    AllOrNothing (tryCatch call fun e => throw (f e)) := by
  intro s e s' h
  obtain ⟨e', h, -⟩ := rethrow_eq_error.mp h
  exact hcall s e' s' h

end ReadOnly

/-! ## What a call returns -/

/-- Whatever the call returns satisfies `P`. -/
def Yields (P : α → Prop) (call : EStateM ε σ α) : Prop := ∀ s a s', call s = .ok a s' → P a

section Yields

variable {P : α → Prop} {Q : β → Prop} {call : EStateM ε σ α} {f : α → EStateM ε σ β}

theorem yields_pure {a : α} (h : P a) : Yields P (pure a : EStateM ε σ α) := by
  intro s a' s' hres
  cases hres
  exact h

theorem yields_bind (hf : ∀ a, Yields Q (f a)) : Yields Q (call >>= f) := by
  intro s b s' hres
  obtain ⟨a, s₁, -, hrest⟩ := bind_eq_ok.mp hres
  exact hf a s₁ b s' hrest

theorem yields_map {g : α → β} (h : ∀ a, Q (g a)) : Yields Q (g <$> call) := by
  intro s b s' hres
  obtain ⟨a, -, rfl⟩ := map_eq_ok.mp hres
  exact h a

end Yields

/-- What a list of conversions gives comes from one of them. -/
theorem mem_of_mapM_eq_ok {f : α → Except ε β} {xs : List α} {ys : List β}
    (h : xs.mapM f = .ok ys) {y : β} (hy : y ∈ ys) : ∃ x ∈ xs, f x = .ok y := by
  induction xs generalizing ys with
  | nil =>
    cases h
    cases hy
  | cons x xs ih =>
    rw [List.mapM_cons] at h
    cases hx : f x with
    | error e =>
      rw [hx] at h
      cases h
    | ok y' =>
      rw [hx] at h
      cases hxs : xs.mapM f with
      | error e =>
        rw [hxs] at h
        cases h
      | ok ys' =>
        rw [hxs] at h
        cases h
        rcases List.mem_cons.mp hy with rfl | hy
        · exact ⟨x, List.mem_cons_self, hx⟩
        · obtain ⟨x', hx', hy'⟩ := ih hxs hy
          exact ⟨x', List.mem_cons_of_mem x hx', hy'⟩

/-! ## Calls on a part of a state -/

/-- A call on a part of the state; the rest stays. -/
def within (get : τ → σ) (put : τ → σ → τ) (call : EStateM ε σ α) : EStateM ε τ α := fun t =>
  match call (get t) with
  | .ok a s => .ok a (put t s)
  | .error e s => .error e (put t s)

section Within

variable {get : τ → σ} {put : τ → σ → τ} {call : EStateM ε σ α} {t t' : τ} {a : α} {e : ε}

theorem within_eq_ok :
    within get put call t = .ok a t' ↔ ∃ s, call (get t) = .ok a s ∧ put t s = t' := by
  unfold within
  cases call (get t) with
  | ok a' s =>
    simp only [EStateM.Result.ok.injEq]
    constructor
    · rintro ⟨rfl, rfl⟩
      exact ⟨s, ⟨rfl, rfl⟩, rfl⟩
    · rintro ⟨s', ⟨rfl, rfl⟩, rfl⟩
      exact ⟨rfl, rfl⟩
  | error e' s => simp

theorem within_eq_error :
    within get put call t = .error e t' ↔ ∃ s, call (get t) = .error e s ∧ put t s = t' := by
  unfold within
  cases call (get t) with
  | ok a' s => simp
  | error e' s =>
    simp only [EStateM.Result.error.injEq]
    constructor
    · rintro ⟨rfl, rfl⟩
      exact ⟨s, ⟨rfl, rfl⟩, rfl⟩
    · rintro ⟨s', ⟨rfl, rfl⟩, rfl⟩
      exact ⟨rfl, rfl⟩

theorem after_within (get : τ → σ) (put : τ → σ → τ) (call : EStateM ε σ α) (t : τ) :
    after (within get put call) t = put t (after call (get t)) := by
  unfold after within
  cases call (get t) <;> rfl

/-- A call that changes nothing changes nothing of the whole. -/
theorem ReadOnly.within (hput : ∀ t, put t (get t) = t) (h : ReadOnly call) :
    ReadOnly (Calls.within get put call) := by
  intro t
  rw [after_within, show after call (get t) = get t from h (get t), hput]

theorem AllOrNothing.within (hput : ∀ t, put t (get t) = t) (h : AllOrNothing call) :
    AllOrNothing (Calls.within get put call) := by
  intro t e t' hres
  obtain ⟨s, hcall, rfl⟩ := within_eq_error.mp hres
  rw [h _ _ _ hcall, hput]

end Within

end Calls
