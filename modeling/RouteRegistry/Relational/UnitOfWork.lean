import Mathlib.Tactic.Common

/-!
# Unit-of-work programs

A unit of work is a program run against a store: it reads, may raise, and queues
changes that reach the store only when the scope around it commits.

- `Txn σ δ ε α`: such a program over stores `σ`, changes `δ` and exceptions `ε`.
  Reads and queued changes are explicit nodes, so one program serves both the
  sequential semantics below and any finer one.
- `Txn.run`: what it returns or raises against a fixed store, **together with the
  changes queued so far**. Catching an exception does not take back what was queued
  before it was raised (`Txn.run_tryCatch`).
- `Txn.Queues`: whatever the program reads, it queues only changes of one kind.
- `Scope.block`: the `with` block. A raising body leaves the store alone; otherwise the
  commit is tried, and a refused commit is given to a handler that may raise or may
  let the block end as if nothing had happened.
- `Scope.block_cases` is the only thing proofs need to know about a block, and
  `Scope.commitOrRaise_iff` says when one that ends normally has really committed.
-/

namespace UnitOfWork

/-- A unit-of-work program: reads of a store `σ`, queued changes `δ`,
exceptions `ε`. -/
inductive Txn (σ δ ε : Type) : Type → Type 1 where
  | ret {α : Type} (a : α) : Txn σ δ ε α
  | throw {α : Type} (e : ε) : Txn σ δ ε α
  | read {α β : Type} (q : σ → β) (k : β → Txn σ δ ε α) : Txn σ δ ε α
  | queue {α : Type} (c : δ) (k : Txn σ δ ε α) : Txn σ δ ε α

namespace Txn

variable {σ δ ε α β : Type}

protected def bind : Txn σ δ ε α → (α → Txn σ δ ε β) → Txn σ δ ε β
  | ret a, f => f a
  | throw e, _ => throw e
  | read q k, f => read q fun b => (k b).bind f
  | queue c k, f => queue c (k.bind f)

/-- `try … except`: the handler takes over where the body raised. -/
protected def tryCatch : Txn σ δ ε α → (ε → Txn σ δ ε α) → Txn σ δ ε α
  | ret a, _ => ret a
  | throw e, h => h e
  | read q k, h => read q fun b => (k b).tryCatch h
  | queue c k, h => queue c (k.tryCatch h)

instance : Monad (Txn σ δ ε) where
  pure := ret
  bind := Txn.bind

instance : MonadExcept ε (Txn σ δ ε) where
  throw := throw
  tryCatch := Txn.tryCatch

/-- Read a view of the store. -/
def get (q : σ → β) : Txn σ δ ε β := read q ret

/-- Queue one change. -/
def put (c : δ) : Txn σ δ ε Unit := queue c (ret ())

/-- A computation that touches no store. -/
def ofExcept : Except ε α → Txn σ δ ε α
  | .ok a => ret a
  | .error e => throw e

/-- Run against the store `s`: the outcome and the changes queued up to it. -/
def run (s : σ) : Txn σ δ ε α → Except ε α × List δ
  | ret a => (.ok a, [])
  | throw e => (.error e, [])
  | read q k => run s (k (q s))
  | queue c k => ((run s k).1, c :: (run s k).2)

variable {s : σ} {m : Txn σ δ ε α} {f : α → Txn σ δ ε β}

@[simp] theorem run_ret (a : α) : run s (ret a : Txn σ δ ε α) = (.ok a, []) := rfl

@[simp] theorem run_pure (a : α) : run s (pure a : Txn σ δ ε α) = (.ok a, []) := rfl

@[simp] theorem run_throw (e : ε) :
    run s (MonadExcept.throw e : Txn σ δ ε α) = (.error e, []) := rfl

@[simp] theorem run_get (q : σ → β) : run s (get q : Txn σ δ ε β) = (.ok (q s), []) := rfl

@[simp] theorem run_put (c : δ) : run s (put c : Txn σ δ ε Unit) = (.ok (), [c]) := rfl

@[simp] theorem run_ofExcept (x : Except ε α) :
    run s (ofExcept x : Txn σ δ ε α) = (x, []) := by
  cases x <;> rfl

/-- Sequencing: the second program runs from the first one's value, and the
queues are appended. -/
theorem run_bind (m : Txn σ δ ε α) (f : α → Txn σ δ ε β) :
    run s (m >>= f) =
      match run s m with
      | (.ok a, Δ) => ((run s (f a)).1, Δ ++ (run s (f a)).2)
      | (.error e, Δ) => (.error e, Δ) := by
  show run s (m.bind f) = _
  -- reads are resolved against the store, queued changes come in front on both sides
  induction m with
  | ret a => rfl
  | throw e => rfl
  | read q k ih => exact ih (q s)
  | queue c k ih =>
    show ((run s (k.bind f)).1, c :: (run s (k.bind f)).2) = _
    rw [ih]
    cases hk : run s k with
    | mk r Δ =>
      cases r with
      | ok a => simp [run, hk]
      | error e => simp [run, hk]

theorem run_bind_ok {a : α} {Δ : List δ} (h : run s m = (.ok a, Δ)) :
    run s (m >>= f) = ((run s (f a)).1, Δ ++ (run s (f a)).2) := by
  rw [run_bind, h]

/-- A program that queued nothing is transparent to what follows. -/
theorem run_bind_pure {a : α} (h : run s m = (.ok a, [])) :
    run s (m >>= f) = run s (f a) := by
  rw [run_bind_ok h]
  rfl

theorem run_bind_error {e : ε} {Δ : List δ} (h : run s m = (.error e, Δ)) :
    run s (m >>= f) = (.error e, Δ) := by
  rw [run_bind, h]

@[simp] theorem run_get_bind (q : σ → α) : run s (get q >>= f) = run s (f (q s)) := rfl

@[simp] theorem run_put_bind (c : δ) (k : Unit → Txn σ δ ε β) :
    run s (put c >>= k) = ((run s (k ())).1, c :: (run s (k ())).2) := rfl

@[simp] theorem run_ofExcept_ok_bind (a : α) : run s (ofExcept (.ok a) >>= f) = run s (f a) := rfl

/-- A program that queues nothing, before one that runs as `out` of a computation. -/
theorem run_bind_eq {γ : Type} {x : Except ε α} {g : α → Except ε γ}
    {out : Except ε γ → Except ε β × List δ} (hm : run s m = (x, []))
    (hout : ∀ e, out (.error e) = (.error e, [])) (h : ∀ a, run s (f a) = out (g a)) :
    run s (m >>= f) = out (x >>= g) := by
  cases x with
  | ok a => exact (run_bind_pure hm).trans (h a)
  | error e => exact (run_bind_error hm).trans (hout e).symm

/-- Catching keeps the changes queued before the exception. -/
theorem run_tryCatch (m : Txn σ δ ε α) (h : ε → Txn σ δ ε α) :
    run s (MonadExcept.tryCatch m h) =
      match run s m with
      | (.ok a, Δ) => (.ok a, Δ)
      | (.error e, Δ) => ((run s (h e)).1, Δ ++ (run s (h e)).2) := by
  show run s (m.tryCatch h) = _
  induction m with
  | ret a => rfl
  | throw e => rfl
  | read q k ih => exact ih (q s)
  | queue c k ih =>
    show ((run s (k.tryCatch h)).1, c :: (run s (k.tryCatch h)).2) = _
    rw [ih]
    cases hk : run s k with
    | mk r Δ =>
      cases r with
      | ok a => simp [run, hk]
      | error e => simp [run, hk]

/-! ### The changes a program can queue -/

/-- Whatever it reads, the program queues only changes that satisfy `P`. -/
inductive Queues (P : δ → Prop) : {α : Type} → Txn σ δ ε α → Prop where
  | ret {α : Type} (a : α) : Queues P (ret a)
  | throw {α : Type} (e : ε) : Queues P (throw e : Txn σ δ ε α)
  | read {α β : Type} (q : σ → β) {k : β → Txn σ δ ε α} (hk : ∀ b, Queues P (k b)) :
    Queues P (read q k)
  | queue {α : Type} {c : δ} {k : Txn σ δ ε α} (hc : P c) (hk : Queues P k) :
    Queues P (queue c k)

variable {P : δ → Prop}

@[simp] theorem queues_pure (a : α) : Queues P (pure a : Txn σ δ ε α) := .ret a

@[simp] theorem queues_throw (e : ε) : Queues P (MonadExcept.throw e : Txn σ δ ε α) := .throw e

@[simp] theorem queues_get (q : σ → β) : Queues P (get q : Txn σ δ ε β) := .read q fun b => .ret b

@[simp] theorem queues_put {c : δ} : Queues P (put c : Txn σ δ ε Unit) ↔ P c := by
  constructor
  · intro h
    cases h with
    | queue hc _ => exact hc
  · exact fun hc => .queue hc (.ret ())

theorem queues_ofExcept (r : Except ε α) : Queues P (ofExcept r : Txn σ δ ε α) := by
  cases r with
  | ok a => exact .ret a
  | error e => exact .throw e

theorem queues_bind (hm : Queues P m) (hf : ∀ a, Queues P (f a)) : Queues P (m >>= f) := by
  show Queues P (m.bind f)
  induction hm with
  | ret a => exact hf a
  | throw e => exact .throw e
  | read q hk ih => exact .read q fun b => ih b
  | queue hc hk ih => exact .queue hc ih

@[simp] theorem queues_put_bind {c : δ} {k : Unit → Txn σ δ ε β} :
    Queues P (put c >>= k) ↔ P c ∧ Queues P (k ()) := by
  constructor
  · intro h
    cases h with
    | queue hc hk => exact ⟨hc, hk⟩
  · exact fun ⟨hc, hk⟩ => .queue hc hk

@[simp] theorem queues_throw_bind (e : ε) :
    Queues P ((MonadExcept.throw e : Txn σ δ ε α) >>= f) := .throw e

@[simp] theorem queues_pure_bind (a : α) :
    Queues P ((pure a : Txn σ δ ε α) >>= f) ↔ Queues P (f a) := Iff.rfl

theorem queues_tryCatch {h : ε → Txn σ δ ε α} (hm : Queues P m) (hh : ∀ e, Queues P (h e)) :
    Queues P (MonadExcept.tryCatch m h) := by
  show Queues P (m.tryCatch h)
  induction hm with
  | ret a => exact .ret a
  | throw e => exact hh e
  | read q hk ih => exact .read q fun b => ih b
  | queue hc hk ih => exact .queue hc ih

theorem queues_forM {β : Type} {g : β → Txn σ δ ε Unit} {bs : List β}
    (hg : ∀ b ∈ bs, Queues P (g b)) : Queues P (bs.forM g) := by
  induction bs with
  | nil => exact .ret ()
  | cons b rest ih =>
    exact queues_bind (hg b List.mem_cons_self) fun _ =>
      ih fun b' hb' => hg b' (List.mem_cons_of_mem _ hb')

theorem Queues.mono {Q : δ → Prop} (hm : Queues P m) (h : ∀ c, P c → Q c) : Queues Q m := by
  induction hm with
  | ret a => exact .ret a
  | throw e => exact .throw e
  | read q hk ih => exact .read q ih
  | queue hc hk ih => exact .queue (h _ hc) ih

/-- Whatever a run queues is of that kind. -/
theorem Queues.run (hm : Queues P m) (s : σ) : ∀ c ∈ (m.run s).2, P c := by
  induction hm with
  | ret a => exact fun c hc => by cases hc
  | throw e => exact fun c hc => by cases hc
  | read q hk ih => exact ih (q s)
  | queue hc hk ih =>
    intro c' hc'
    rcases List.mem_cons.mp hc' with rfl | hc'
    · exact hc
    · exact ih c' hc'

end Txn

/-! ## The `with` block -/

section Scope

variable {σ τ δ ε κ α : Type}

/-- A unit-of-work scope over the store `σ`, seen by its body through `view`:
`commit` applies the queued changes or refuses with a reason `κ`, and `handler`
turns a refusal into an exception, or into none. -/
structure Scope (σ τ δ ε κ : Type) where
  view : σ → τ
  commit : σ → List δ → Except κ σ
  handler : κ → Option ε

/-- The `with` block around a body. -/
def Scope.block (S : Scope σ τ δ ε κ) (body : Txn τ δ ε α) : EStateM ε σ α := fun s =>
  match body.run (S.view s) with
  | (.error e, _) => .error e s
  | (.ok a, Δ) =>
    match S.commit s Δ with
    | .ok s' => .ok a s'
    | .error c =>
      match S.handler c with
      | some e => .error e s
      | none => .ok a s

variable {S : Scope σ τ δ ε κ} {body : Txn τ δ ε α} {s : σ}

theorem Scope.block_raised {e : ε} {Δ : List δ} (h : body.run (S.view s) = (.error e, Δ)) :
    S.block body s = .error e s := by
  simp [Scope.block, h]

theorem Scope.block_committed {a : α} {Δ : List δ} {s' : σ}
    (h : body.run (S.view s) = (.ok a, Δ)) (hc : S.commit s Δ = .ok s') :
    S.block body s = .ok a s' := by
  simp [Scope.block, h, hc]

theorem Scope.block_refused {a : α} {Δ : List δ} {c : κ} {e : ε}
    (h : body.run (S.view s) = (.ok a, Δ)) (hc : S.commit s Δ = .error c)
    (he : S.handler c = some e) : S.block body s = .error e s := by
  simp [Scope.block, h, hc, he]

theorem Scope.block_swallowed {a : α} {Δ : List δ} {c : κ}
    (h : body.run (S.view s) = (.ok a, Δ)) (hc : S.commit s Δ = .error c)
    (he : S.handler c = none) : S.block body s = .ok a s := by
  simp [Scope.block, h, hc, he]

/-- Every way a block can end. -/
theorem Scope.block_cases (S : Scope σ τ δ ε κ) (body : Txn τ δ ε α) (s : σ) :
    (∃ e Δ, body.run (S.view s) = (.error e, Δ) ∧ S.block body s = .error e s) ∨
    (∃ a Δ s', body.run (S.view s) = (.ok a, Δ) ∧ S.commit s Δ = .ok s' ∧
      S.block body s = .ok a s') ∨
    (∃ a Δ c e, body.run (S.view s) = (.ok a, Δ) ∧ S.commit s Δ = .error c ∧
      S.handler c = some e ∧ S.block body s = .error e s) ∨
    (∃ a Δ c, body.run (S.view s) = (.ok a, Δ) ∧ S.commit s Δ = .error c ∧
      S.handler c = none ∧ S.block body s = .ok a s) := by
  cases hrun : body.run (S.view s) with
  | mk r Δ =>
    cases r with
    | error e => exact .inl ⟨e, Δ, rfl, Scope.block_raised hrun⟩
    | ok a =>
      cases hc : S.commit s Δ with
      | ok s' => exact .inr (.inl ⟨a, Δ, s', rfl, hc, Scope.block_committed hrun hc⟩)
      | error c =>
        cases hh : S.handler c with
        | some e =>
          exact .inr (.inr (.inl ⟨a, Δ, c, e, rfl, hc, hh, Scope.block_refused hrun hc hh⟩))
        | none =>
          exact .inr (.inr (.inr ⟨a, Δ, c, rfl, hc, hh, Scope.block_swallowed hrun hc hh⟩))

/-- A raising block leaves the store as it was. -/
theorem Scope.block_error {e : ε} {s' : σ} (h : S.block body s = .error e s') : s' = s := by
  rcases S.block_cases body s with ⟨_, _, -, hb⟩ | ⟨_, _, _, -, -, hb⟩ |
    ⟨_, _, _, _, -, -, -, hb⟩ | ⟨_, _, _, -, -, -, hb⟩ <;> rw [hb] at h <;> cases h <;> rfl

/-- **Commit or raise**: whenever the block ends normally, the changes its body
queued were committed. -/
def Scope.CommitOrRaise (S : Scope σ τ δ ε κ) (body : Txn τ δ ε α) (s : σ) : Prop :=
  ∀ a s', S.block body s = .ok a s' →
    ∃ Δ, body.run (S.view s) = (.ok a, Δ) ∧ S.commit s Δ = .ok s'

/-- The law holds of a block exactly when its commit is not refused for a reason
the handler lets pass. -/
theorem Scope.commitOrRaise_iff :
    S.CommitOrRaise body s ↔
      ∀ a Δ c, body.run (S.view s) = (.ok a, Δ) → S.commit s Δ = .error c →
        S.handler c ≠ none := by
  constructor
  · intro h a Δ c hrun hc hh
    obtain ⟨Δ', hrun', hc'⟩ := h a s (Scope.block_swallowed hrun hc hh)
    rw [hrun] at hrun'
    cases hrun'
    rw [hc] at hc'
    cases hc'
  · intro h a s' hb
    rcases S.block_cases body s with ⟨_, _, -, hb'⟩ | ⟨a', Δ, s'', hrun, hc, hb'⟩ |
      ⟨_, _, _, _, -, -, -, hb'⟩ | ⟨a', Δ, c, hrun, hc, hh, -⟩
    · rw [hb'] at hb
      cases hb
    · rw [hb'] at hb
      cases hb
      exact ⟨Δ, hrun, hc⟩
    · rw [hb'] at hb
      cases hb
    · exact absurd hh (h a' Δ c hrun hc)

end Scope

end UnitOfWork
