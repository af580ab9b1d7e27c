import RouteRegistry.Relational.Runs
import RouteRegistry.Relational.UnitOfWork

/-!
# Units of work side by side, under read committed isolation

Several sessions run their bodies at once, one statement at a time.

- `Isolation`: a scope, with what its database does before a commit. A query reads the
  rows committed when it starts. A bulk `DELETE` finds its rows when it starts and then
  waits until no other session has deleted one of them. Everything else a body queues
  reaches the store with the commit, in one step: what a flush writes stays locked, and
  out of sight, until then.
- `InFlight`: a session between its start and its end. `Isolation.advance` is its next
  statement, and `Isolation.Advanced` lists all it can be.
- `World`: the store with its sessions; `Isolation.move` lets one of them advance.
- `Isolation.alone`: what a session comes to that has the store to itself, which is what
  its block does in one go (`Isolation.block_alone`).

The rest is a rely condition for such sessions. A `Rely` says what the others may do to
the store between two statements; `Txn.Concludes` says that a body, under it, ends with
a result and changes that fit the last view it read; and `World.Sound` is the invariant
that every session is on its way there (`World.Sound.move`).
-/

namespace UnitOfWork

/-! ## The rely condition -/

/-- What other sessions may do to what a body sees, between two of its statements. -/
structure Rely (τ : Type) where
  Keeps : τ → τ → Prop
  refl : ∀ v, Keeps v v
  trans : ∀ {v v' v'' : τ}, Keeps v v' → Keeps v' v'' → Keeps v v''

/-- The others may do anything. -/
def Rely.any (τ : Type) : Rely τ where
  Keeps _ _ := True
  refl _ := trivial
  trans _ _ := trivial

/-- The others leave alone what `q` reads. -/
def Rely.same {τ β : Type} (q : τ → β) : Rely τ where
  Keeps v v' := q v' = q v
  refl _ := rfl
  trans h h' := h'.trans h

namespace Txn

variable {τ δ ε α β : Type}

/-- Whether a query is still to come. -/
def reads : Txn τ δ ε α → Bool
  | ret _ => false
  | throw _ => false
  | read _ _ => true
  | queue _ k => k.reads

/-- Each query of the program returns the same before and after what the others do. -/
inductive Steady (R : Rely τ) : {α : Type} → Txn τ δ ε α → Prop where
  | ret {α : Type} (a : α) : Steady R (ret a)
  | throw {α : Type} (e : ε) : Steady R (throw e : Txn τ δ ε α)
  | read {α β : Type} {q : τ → β} {k : β → Txn τ δ ε α}
    (hq : ∀ v v', R.Keeps v v' → q v' = q v) (hk : ∀ b, Steady R (k b)) : Steady R (read q k)
  | queue {α : Type} (c : δ) {k : Txn τ δ ε α} (hk : Steady R k) : Steady R (queue c k)

/-- Whatever the others do between its queries, the program ends in `Post`, which speaks
of the last view it read, of its result and of the changes it has queued. -/
inductive Concludes (R : Rely τ) (Post : τ → Except ε α → List δ → Prop) :
    τ → List δ → Txn τ δ ε α → Prop where
  | ret {v : τ} {Δ : List δ} {a : α} (h : Post v (.ok a) Δ) : Concludes R Post v Δ (ret a)
  | throw {v : τ} {Δ : List δ} {e : ε} (h : Post v (.error e) Δ) : Concludes R Post v Δ (throw e)
  | read {β : Type} {v : τ} {Δ : List δ} {q : τ → β} {k : β → Txn τ δ ε α}
    (h : ∀ v', R.Keeps v v' → Concludes R Post v' Δ (k (q v'))) : Concludes R Post v Δ (read q k)
  | queue {v : τ} {Δ : List δ} {c : δ} {k : Txn τ δ ε α} (h : Concludes R Post v (Δ ++ [c]) k) :
    Concludes R Post v Δ (queue c k)

variable {R : Rely τ} {Post : τ → Except ε α → List δ → Prop} {v v' : τ} {Δ : List δ}
  {t : Txn τ δ ε α} {m : Txn τ δ ε β} {f : β → Txn τ δ ε α}

/-! ### Programs without queries -/

@[simp] theorem reads_put (c : δ) : (put c : Txn τ δ ε Unit).reads = false := rfl

theorem reads_bind (hm : m.reads = false) (hf : ∀ b, (f b).reads = false) :
    (m >>= f).reads = false := by
  show (m.bind f).reads = false
  induction m with
  | ret b => exact hf b
  | throw e => rfl
  | read q k ih => simp [reads] at hm
  | queue c k ih =>
    rw [reads] at hm
    exact ih hm

theorem reads_forM {g : β → Txn τ δ ε Unit} (hg : ∀ b, (g b).reads = false) (bs : List β) :
    (bs.forM g).reads = false := by
  induction bs with
  | nil => rfl
  | cons b rest ih => exact reads_bind (hg b) fun _ => ih

/-- With no query to come the end is settled. -/
theorem concludes_iff (ht : t.reads = false) :
    Concludes R Post v Δ t ↔ Post v (t.run v).1 (Δ ++ (t.run v).2) := by
  induction t generalizing Δ with
  | ret a =>
    rw [run, List.append_nil]
    constructor
    · rintro (h | _)
      exact h
    · exact .ret
  | throw e =>
    rw [run, List.append_nil]
    constructor
    · intro h
      cases h with
      | throw h => exact h
    · exact .throw
  | read q k ih => simp [reads] at ht
  | queue c k ih =>
    rw [reads] at ht
    have hrest : Concludes R Post v (Δ ++ [c]) k ↔ _ := ih ht
    rw [List.append_assoc] at hrest
    rw [run]
    refine Iff.trans ⟨fun h => ?_, .queue⟩ hrest
    cases h with
    | queue h => exact h

/-! ### Steady programs -/

theorem steady_ofExcept (r : Except ε α) : Steady R (ofExcept r : Txn τ δ ε α) := by
  cases r with
  | ok a => exact .ret a
  | error e => exact .throw e

theorem steady_get {q : τ → β} (hq : ∀ v v', R.Keeps v v' → q v' = q v) :
    Steady R (get q : Txn τ δ ε β) :=
  .read hq fun b => .ret b

theorem steady_put (c : δ) : Steady R (put c : Txn τ δ ε Unit) := .queue c (.ret ())

theorem steady_bind (hm : Steady R m) (hf : ∀ b, Steady R (f b)) : Steady R (m >>= f) := by
  show Steady R (m.bind f)
  induction hm with
  | ret b => exact hf b
  | throw e => exact .throw e
  | read hq hk ih => exact .read hq fun b => ih b
  | queue c hk ih => exact .queue c ih

theorem steady_tryCatch {h : ε → Txn τ δ ε α} (ht : Steady R t) (hh : ∀ e, Steady R (h e)) :
    Steady R (MonadExcept.tryCatch t h) := by
  show Steady R (t.tryCatch h)
  induction ht with
  | ret a => exact .ret a
  | throw e => exact hh e
  | read hq hk ih => exact .read hq fun b => ih b
  | queue c hk ih => exact .queue c ih

theorem steady_forM {g : β → Txn τ δ ε Unit} (hg : ∀ b, Steady R (g b)) (bs : List β) :
    Steady R (bs.forM g) := by
  induction bs with
  | nil => exact .ret ()
  | cons b rest ih => exact steady_bind (hg b) fun _ => ih

/-- A steady program runs alike before and after what the others do. -/
theorem Steady.run (ht : Steady R t) (h : R.Keeps v v') : t.run v' = t.run v := by
  induction ht with
  | ret a => rfl
  | throw e => rfl
  | read hq hk ih =>
    rename_i q k
    show (k (q v')).run v' = (k (q v)).run v
    rw [hq v v' h]
    exact ih (q v)
  | queue c hk ih =>
    rename_i k
    show ((k.run v').1, c :: (k.run v').2) = ((k.run v).1, c :: (k.run v).2)
    rw [ih]

/-- A steady program ends as it would in one go. -/
theorem Steady.concludes (ht : Steady R t)
    (hpost : ∀ v', R.Keeps v v' → Post v' (t.run v).1 (Δ ++ (t.run v).2)) :
    Concludes R Post v Δ t := by
  induction t generalizing v Δ with
  | ret a => exact .ret (by simpa [Txn.run] using hpost v (R.refl v))
  | throw e => exact .throw (by simpa [Txn.run] using hpost v (R.refl v))
  | read q k ih =>
    cases ht with
    | read hq hk =>
      refine .read fun v₁ h₁ => ih (q v₁) (hk _) fun v₂ h₂ => ?_
      have hrun : (k (q v₁)).run v₁ = (k (q v)).run v := by
        rw [hq v v₁ h₁]
        exact (hk (q v)).run h₁
      rw [hrun]
      exact hpost v₂ (R.trans h₁ h₂)
  | queue c k ih =>
    cases ht with
    | queue _ hk =>
      refine .queue (ih hk fun v₁ h₁ => ?_)
      simpa [Txn.run] using hpost v₁ h₁

/-- A steady program that queues nothing, and what follows it. -/
theorem Steady.concludes_bind (hm : Steady R m) {b : β} (hrun : m.run v = (.ok b, []))
    (h : ∀ v', R.Keeps v v' → Concludes R Post v' Δ (f b)) : Concludes R Post v Δ (m >>= f) := by
  show Concludes R Post v Δ (m.bind f)
  induction m generalizing v with
  | ret b' =>
    cases hrun
    exact h v (R.refl v)
  | throw e => cases hrun
  | read q k ih =>
    cases hm with
    | read hq hk =>
      refine .read fun v₁ h₁ => ih (q v₁) (hk _) ?_ fun v₂ h₂ => h v₂ (R.trans h₁ h₂)
      rw [(hk _).run h₁, hq v v₁ h₁]
      exact hrun
  | queue c k ih => simp [Txn.run] at hrun

/-- What is queued so far begins what is queued in the end. -/
theorem Concludes.prefix (h : Concludes R Post v Δ t) :
    ∃ v' x Δ', R.Keeps v v' ∧ Post v' x Δ' ∧ Δ <+: Δ' := by
  induction h with
  | ret h => exact ⟨_, _, _, R.refl _, h, List.prefix_rfl⟩
  | throw h => exact ⟨_, _, _, R.refl _, h, List.prefix_rfl⟩
  | read h ih =>
    rename_i v Δ q k
    obtain ⟨v', x, Δ', hv, hpost, hΔ⟩ := ih v (R.refl v)
    exact ⟨v', x, Δ', hv, hpost, hΔ⟩
  | queue h ih =>
    obtain ⟨v', x, Δ', hv, hpost, hΔ⟩ := ih
    exact ⟨v', x, Δ', hv, hpost, (List.prefix_append _ _).trans hΔ⟩

end Txn

/-! ## Sessions -/

/-- A scope with what its database does for a session before the commit. -/
structure Isolation (σ τ ρ δ ε κ : Type) extends Scope σ τ δ ε κ where
  /-- For a bulk `DELETE`, the rows it finds; `none` for a change left to the commit. -/
  finds : δ → Option (τ → List ρ)
  /-- The store without these rows. -/
  drop : σ → List ρ → σ
  /-- The change writes the key of this row, and has to wait while the row may come back. -/
  clashes : δ → ρ → Bool

/-- A session that has run a part of its body. -/
structure InFlight (ι τ ρ δ ε α : Type) where
  call : ι
  rest : Txn τ δ ε α
  /-- The view of its last query, or of its start. -/
  seen : τ
  /-- Its changes so far, bulk ones included. -/
  passed : List δ := []
  /-- The rows a bulk `DELETE` has found and not locked yet. -/
  waiting : Option (List ρ) := none
  /-- The rows it has deleted. -/
  held : List ρ := []
  outcome : Option (Except ε α) := none

namespace InFlight

variable {ι τ ρ δ ε α : Type}

/-- A session at its start. -/
def begin (body : ι → Txn τ δ ε α) (v : τ) (call : ι) : InFlight ι τ ρ δ ε α :=
  { call := call, rest := body call, seen := v }

/-- The session ends and lets its rows go. -/
def ended (p : InFlight ι τ ρ δ ε α) (x : Except ε α) : InFlight ι τ ρ δ ε α :=
  { p with held := [], outcome := some x }

/-- All that is left to do is the commit. -/
def AtCommit (p : InFlight ι τ ρ δ ε α) (a : α) : Prop :=
  p.outcome = none ∧ p.waiting = none ∧ p.rest = .ret a

/-- Rows another session has deleted for good are not waited for any longer. -/
def strike [DecidableEq ρ] (p : InFlight ι τ ρ δ ε α) (gone : List ρ) : InFlight ι τ ρ δ ε α :=
  { p with waiting := p.waiting.map fun rows => rows.filter fun r => decide (r ∉ gone) }

@[simp] theorem strike_nil [DecidableEq ρ] (p : InFlight ι τ ρ δ ε α) : p.strike [] = p := by
  cases p with
  | mk call rest seen passed waiting held outcome => cases waiting <;> simp [strike]

end InFlight

/-- A store with the sessions at work on it, ended ones included. -/
structure World (σ ι τ ρ δ ε α : Type) where
  db : σ
  sessions : List (InFlight ι τ ρ δ ε α) := []

namespace World

variable {σ ι τ ρ δ ε α : Type}

/-- The rows deleted by the sessions other than `i`. -/
def heldBeside (w : World σ ι τ ρ δ ε α) (i : Nat) : List ρ :=
  (w.sessions.eraseIdx i).flatMap InFlight.held

/-- There are two sessions, related by `I`. -/
def Pair (I : σ → InFlight ι τ ρ δ ε α → InFlight ι τ ρ δ ε α → Prop)
    (w : World σ ι τ ρ δ ε α) : Prop :=
  ∃ p q, w.sessions = [p, q] ∧ I w.db p q

/-- Every session has ended. -/
def Done (w : World σ ι τ ρ δ ε α) : Prop := ∀ p ∈ w.sessions, p.outcome ≠ none

end World

/-- What can happen to a world of sessions. -/
inductive Action (ι : Type) where
  | start (call : ι)
  | move (i : Nat)

namespace Isolation

open Runs

variable {σ τ ρ δ ε κ ι α : Type}

/-- The changes left to the commit. -/
def deferred (S : Isolation σ τ ρ δ ε κ) (Δ : List δ) : List δ :=
  Δ.filter fun c => (S.finds c).isNone

/-- How a block ends whose commit is refused. -/
def answer (S : Isolation σ τ ρ δ ε κ) (a : α) (c : κ) : Except ε α :=
  match S.handler c with
  | some e => .error e
  | none => .ok a

variable [DecidableEq ρ]

/-- The next statement of a session, unless it has ended or has to wait for the rows
`blocked`: the store, the rows that are gone for good, and the session after it. -/
def advance (S : Isolation σ τ ρ δ ε κ) (blocked : List ρ) (db : σ)
    (p : InFlight ι τ ρ δ ε α) : Option (σ × List ρ × InFlight ι τ ρ δ ε α) :=
  match p.outcome, p.waiting, p.rest with
  | some _, _, _ => none
  | none, some rows, _ =>
    if ∃ r ∈ rows, r ∈ blocked then none
    else some (db, [], { p with waiting := none, held := p.held ++ rows })
  | none, none, .read q k =>
    some (db, [], { p with rest := k (q (S.view db)), seen := S.view db })
  | none, none, .queue c k =>
    some (db, [], { p with
      rest := k
      passed := p.passed ++ [c]
      waiting := (S.finds c).map fun find => find (S.view db) })
  | none, none, .throw e => some (db, [], p.ended (.error e))
  | none, none, .ret a =>
    if ∃ c ∈ p.passed, ∃ r ∈ blocked, S.clashes c r = true then none
    else
      match S.commit (S.drop db p.held) (S.deferred p.passed) with
      | .ok db' => some (db', p.held, p.ended (.ok a))
      | .error c => some (db, [], p.ended (S.answer a c))

/-- Session `i` advances. -/
def move (S : Isolation σ τ ρ δ ε κ) (w : World σ ι τ ρ δ ε α) (i : Nat) :
    Option (World σ ι τ ρ δ ε α) :=
  match w.sessions[i]? with
  | none => none
  | some p =>
    match S.advance (w.heldBeside i) w.db p with
    | none => none
    | some (db, gone, p') => some ⟨db, (w.sessions.map fun q => q.strike gone).set i p'⟩

/-- A session starts, or one advances. -/
def step (S : Isolation σ τ ρ δ ε κ) (body : ι → Txn τ δ ε α) (w : World σ ι τ ρ δ ε α) :
    Action ι → Option (World σ ι τ ρ δ ε α)
  | .start call => some { w with sessions := w.sessions ++ [.begin body (S.view w.db) call] }
  | .move i => S.move w i

/-- Everything a session can do in one statement. -/
inductive Advanced (S : Isolation σ τ ρ δ ε κ) (blocked : List ρ) (db : σ)
    (p : InFlight ι τ ρ δ ε α) : σ → List ρ → InFlight ι τ ρ δ ε α → Prop where
  | locked {rows : List ρ} (hwait : p.waiting = some rows) (hfree : ∀ r ∈ rows, r ∉ blocked) :
    Advanced S blocked db p db [] { p with waiting := none, held := p.held ++ rows }
  | queried {β : Type} {q : τ → β} {k : β → Txn τ δ ε α} (hwait : p.waiting = none)
    (hrest : p.rest = .read q k) :
    Advanced S blocked db p db [] { p with rest := k (q (S.view db)), seen := S.view db }
  | queued {c : δ} {k : Txn τ δ ε α} (hwait : p.waiting = none) (hrest : p.rest = .queue c k) :
    Advanced S blocked db p db [] { p with
      rest := k
      passed := p.passed ++ [c]
      waiting := (S.finds c).map fun find => find (S.view db) }
  | raised {e : ε} (hwait : p.waiting = none) (hrest : p.rest = .throw e) :
    Advanced S blocked db p db [] (p.ended (.error e))
  | committed {a : α} {db' : σ} (hwait : p.waiting = none) (hrest : p.rest = .ret a)
    (hcommit : S.commit (S.drop db p.held) (S.deferred p.passed) = .ok db') :
    Advanced S blocked db p db' p.held (p.ended (.ok a))
  | refused {a : α} {c : κ} (hwait : p.waiting = none) (hrest : p.rest = .ret a)
    (hcommit : S.commit (S.drop db p.held) (S.deferred p.passed) = .error c) :
    Advanced S blocked db p db [] (p.ended (S.answer a c))

variable {S : Isolation σ τ ρ δ ε κ} {blocked gone : List ρ} {db db' : σ}
  {p p' q : InFlight ι τ ρ δ ε α} {w w' : World σ ι τ ρ δ ε α} {i : Nat}

omit [DecidableEq ρ] in
theorem Advanced.call (h : S.Advanced blocked db p db' gone p') : p'.call = p.call := by
  cases h <;> rfl

theorem advance_cases (h : S.advance blocked db p = some (db', gone, p')) :
    p.outcome = none ∧ S.Advanced blocked db p db' gone p' := by
  obtain ⟨call, rest, seen, passed, waiting, held, outcome⟩ := p
  cases outcome with
  | some x => cases h
  | none =>
    refine ⟨rfl, ?_⟩
    cases waiting with
    | some rows =>
      simp only [advance] at h
      split at h
      · cases h
      · rename_i hfree
        cases h
        exact .locked rfl fun r hr hb => hfree ⟨r, hr, hb⟩
    | none =>
      cases rest with
      | read q k =>
        cases h
        exact .queried rfl rfl
      | queue c k =>
        cases h
        exact .queued rfl rfl
      | throw e =>
        cases h
        exact .raised rfl rfl
      | ret a =>
        simp only [advance] at h
        split at h
        · cases h
        · split at h
          · rename_i hcommit
            cases h
            exact .committed rfl rfl hcommit
          · rename_i hcommit
            cases h
            exact .refused rfl rfl hcommit

/-- **What a move does**: one session advances, and the others stop waiting for the rows
that are gone. -/
theorem move_cases (h : S.move w i = some w') :
    ∃ p db' gone p', w.sessions[i]? = some p ∧ p.outcome = none ∧
      S.Advanced (w.heldBeside i) w.db p db' gone p' ∧
      w' = ⟨db', (w.sessions.map fun q => q.strike gone).set i p'⟩ := by
  unfold move at h
  split at h
  · cases h
  · rename_i p hp
    split at h
    · cases h
    · rename_i db' gone p' hadv
      cases h
      obtain ⟨hout, hcases⟩ := advance_cases hadv
      exact ⟨p, db', gone, p', hp, hout, hcases, rfl⟩

/-- The sessions after a move. -/
theorem mem_sessions_moved {q' : InFlight ι τ ρ δ ε α}
    (h : q' ∈ (w.sessions.map fun q => q.strike gone).set i p') :
    q' = p' ∨ ∃ q ∈ w.sessions, q' = q.strike gone := by
  rcases List.mem_or_eq_of_mem_set h with h | h
  · obtain ⟨q, hq, rfl⟩ := List.mem_map.mp h
    exact .inr ⟨q, hq, rfl⟩
  · exact .inl h

/-- A move in a world of two sessions is one of theirs. -/
theorem move_pair (h : S.move ⟨db, [p, q]⟩ i = some w') :
    ∃ db' gone, (∃ p', p.outcome = none ∧ S.Advanced q.held db p db' gone p' ∧
        w' = ⟨db', [p', q.strike gone]⟩) ∨
      ∃ q', q.outcome = none ∧ S.Advanced p.held db q db' gone q' ∧
        w' = ⟨db', [p.strike gone, q']⟩ := by
  obtain ⟨r, db', gone, r', hr, hout, hadv, rfl⟩ := move_cases h
  match i with
  | 0 =>
    cases hr
    exact ⟨db', gone, .inl ⟨r', hout, by simpa [World.heldBeside] using hadv, rfl⟩⟩
  | 1 =>
    cases hr
    exact ⟨db', gone, .inr ⟨r', hout, by simpa [World.heldBeside] using hadv, rfl⟩⟩
  | i + 2 => cases hr

/-- **Two sessions.** A relation that does not tell its sessions apart is kept by every
move if the first session keeps it. -/
theorem pair_step {I C : σ → InFlight ι τ ρ δ ε α → InFlight ι τ ρ δ ε α → Prop}
    (hI : ∀ db p q, I db p q → I db q p) (hC : ∀ db p q, C db p q → C db q p)
    (hadv : ∀ db p q db' gone p', I db p q → C db p q → p.outcome = none →
      S.Advanced q.held db p db' gone p' → I db' p' (q.strike gone))
    (h : w.Pair I) (hcond : ∀ p q, w = ⟨w.db, [p, q]⟩ → C w.db p q) (hmove : S.move w i = some w') :
    w'.Pair I := by
  obtain ⟨db, sessions⟩ := w
  obtain ⟨p, q, rfl, hpq⟩ := h
  have hcond : C db p q := hcond p q rfl
  obtain ⟨db', gone, ⟨p', hout, hp, rfl⟩ | ⟨q', hout, hq, rfl⟩⟩ := move_pair hmove
  · exact ⟨p', q.strike gone, rfl, hadv db p q db' gone p' hpq hcond hout hp⟩
  · refine ⟨p.strike gone, q', rfl, hI _ _ _ ?_⟩
    exact hadv db q p db' gone q' (hI _ _ _ hpq) (hC _ _ _ hcond) hout hq

/-! ### A session alone -/

omit [DecidableEq ρ] in
/-- The rows that the bulk deletes among some changes find in one view. -/
def found (S : Isolation σ τ ρ δ ε κ) (v : τ) (Δ : List δ) : List ρ :=
  Δ.flatMap fun c => ((S.finds c).map fun find => find v).getD []

omit [DecidableEq ρ] in
/-- What a session comes to that has the store to itself: the store and the outcome. -/
def alone (S : Isolation σ τ ρ δ ε κ) (db : σ) (p : InFlight ι τ ρ δ ε α) : σ × Except ε α :=
  match p.rest.run (S.view db) with
  | (.error e, _) => (db, .error e)
  | (.ok a, Δ) =>
    match S.commit (S.drop db (p.held ++ S.found (S.view db) Δ)) (S.deferred (p.passed ++ Δ)) with
    | .ok db' => (db', .ok a)
    | .error c => (db, S.answer a c)

theorem move_single (h : S.advance [] db p = some (db', gone, p')) :
    S.move ⟨db, [p]⟩ 0 = some ⟨db', [p']⟩ := by
  simp [move, World.heldBeside, h]

omit [DecidableEq ρ] in
/-- A change counts the same before it is queued and after. -/
theorem alone_queue {call : ι} {c : δ} {k : Txn τ δ ε α} {seen : τ} {passed : List δ}
    {held : List ρ} :
    S.alone db { call := call, rest := .queue c k, seen := seen, passed := passed, held := held } =
      S.alone db { call := call, rest := k, seen := seen, passed := passed ++ [c],
                   held := held ++ ((S.finds c).map fun find => find (S.view db)).getD [] } := by
  have hpassed : ∀ Δ, passed ++ c :: Δ = passed ++ [c] ++ Δ := fun Δ => by simp
  have hheld : ∀ Δ, held ++ S.found (S.view db) (c :: Δ) =
      held ++ ((S.finds c).map fun find => find (S.view db)).getD [] ++ S.found (S.view db) Δ :=
    fun Δ => by simp [found]
  unfold alone
  simp only [Txn.run]
  cases k.run (S.view db) with
  | mk r Δ =>
    cases r with
    | error e => rfl
    | ok a =>
      simp only
      rw [hpassed Δ, hheld Δ]

/-- A session that has the store to itself gets to its end. -/
theorem run_alone (hout : p.outcome = none) (hwait : p.waiting = none) :
    ∃ n p', run S.move ⟨db, [p]⟩ (List.replicate n 0) = some ⟨(S.alone db p).1, [p']⟩ ∧
      p'.outcome = some (S.alone db p).2 := by
  obtain ⟨call, rest, seen, passed, waiting, held, outcome⟩ := p
  cases hout
  cases hwait
  induction rest generalizing seen passed held with
  | ret a =>
    have hheld : held ++ S.found (S.view db) [] = held := by simp [found]
    have hpassed : passed ++ [] = passed := List.append_nil passed
    unfold alone
    simp only [Txn.run]
    rw [hheld, hpassed]
    cases hcommit : S.commit (S.drop db held) (S.deferred passed) with
    | ok db' =>
      have hended : S.advance [] db ⟨call, .ret a, seen, passed, none, held, none⟩ =
          some (db', held,
            InFlight.ended ⟨call, .ret a, seen, passed, none, held, none⟩ (.ok a)) := by
        simp [advance, hcommit]
      exact ⟨1, _, run_cons (move_single hended), rfl⟩
    | error c =>
      have hended : S.advance [] db ⟨call, .ret a, seen, passed, none, held, none⟩ =
          some (db, [], InFlight.ended ⟨call, .ret a, seen, passed, none, held, none⟩
            (S.answer a c)) := by
        simp [advance, hcommit]
      exact ⟨1, _, run_cons (move_single hended), rfl⟩
  | throw e => exact ⟨1, _, run_cons (move_single rfl), rfl⟩
  | read q k ih =>
    obtain ⟨n, p', hrun, hp'⟩ := ih (q (S.view db)) (S.view db) passed held
    exact ⟨n + 1, p', (run_cons (move_single rfl)).trans hrun, hp'⟩
  | queue c k ih =>
    cases hc : S.finds c with
    | none =>
      obtain ⟨n, p', hrun, hp'⟩ := ih seen (passed ++ [c]) held
      have hqueued : S.advance [] db ⟨call, .queue c k, seen, passed, none, held, none⟩ =
          some (db, [], ⟨call, k, seen, passed ++ [c], none, held, none⟩) := by
        simp [advance, hc]
      rw [alone_queue, hc, Option.map_none, Option.getD_none, List.append_nil]
      exact ⟨n + 1, p', (run_cons (move_single hqueued)).trans hrun, hp'⟩
    | some find =>
      obtain ⟨n, p', hrun, hp'⟩ := ih seen (passed ++ [c]) (held ++ find (S.view db))
      have hqueued : S.advance [] db ⟨call, .queue c k, seen, passed, none, held, none⟩ =
          some (db, [], ⟨call, k, seen, passed ++ [c], some (find (S.view db)), held, none⟩) := by
        simp [advance, hc]
      have hlocked : S.advance [] db
            ⟨call, k, seen, passed ++ [c], some (find (S.view db)), held, none⟩ =
          some (db, [], ⟨call, k, seen, passed ++ [c], none, held ++ find (S.view db), none⟩) := by
        simp [advance]
      rw [alone_queue, hc, Option.map_some, Option.getD_some]
      refine ⟨n + 2, p', (run_cons (move_single hqueued)).trans ?_, hp'⟩
      exact (run_cons (move_single hlocked)).trans hrun

omit [DecidableEq ρ] in
/-- What a block returns that leaves this store and this outcome. -/
def result (db : σ) : Except ε α → EStateM.Result ε σ α
  | .ok a => .ok a db
  | .error e => .error e db

omit [DecidableEq ρ] in
/-- **A session alone does what its block does**, when deleting early makes no difference
to its commit. -/
theorem block_alone {body : ι → Txn τ δ ε α} {call : ι}
    (hearly : ∀ a Δ, (body call).run (S.view db) = (.ok a, Δ) →
      S.commit (S.drop db (S.found (S.view db) Δ)) (S.deferred Δ) = S.commit db Δ) :
    S.block (body call) db =
      result (S.alone db (.begin body (S.view db) call)).1
        (S.alone db (.begin body (S.view db) call)).2 := by
  unfold Scope.block alone
  simp only [InFlight.begin, List.nil_append]
  cases hrun : (body call).run (S.view db) with
  | mk r Δ =>
    cases r with
    | error e => rfl
    | ok a =>
      simp only
      rw [hearly a Δ hrun]
      cases S.commit db Δ with
      | ok db' => rfl
      | error c =>
        unfold answer
        cases hc : S.handler c <;> simp [result, hc]

end Isolation

/-! ## The invariant of a world -/

section Sound

variable {σ τ ρ δ ε κ ι α : Type} {S : Isolation σ τ ρ δ ε κ} {R : Rely τ}
  {Post : ι → τ → Except ε α → List δ → Prop}

/-- A session is on its way to its `Post`, and the store is one that its rely condition
allows. -/
def InFlight.Sound (R : Rely τ) (Post : ι → τ → Except ε α → List δ → Prop) (now : τ)
    (p : InFlight ι τ ρ δ ε α) : Prop :=
  p.outcome = none → R.Keeps p.seen now ∧ p.rest.Concludes R (Post p.call) p.seen p.passed

def World.Sound (S : Isolation σ τ ρ δ ε κ) (R : Rely τ)
    (Post : ι → τ → Except ε α → List δ → Prop) (w : World σ ι τ ρ δ ε α) : Prop :=
  ∀ p ∈ w.sessions, p.Sound R Post (S.view w.db)

theorem InFlight.Sound.mono {p : InFlight ι τ ρ δ ε α} {now now' : τ} (h : p.Sound R Post now)
    (hkeep : R.Keeps now now') : p.Sound R Post now' := by
  intro hout
  obtain ⟨hseen, hrest⟩ := h hout
  exact ⟨R.trans hseen hkeep, hrest⟩

/-- A session starts on its way when its body leads there from every view. -/
theorem InFlight.sound_begin {body : ι → Txn τ δ ε α} {call : ι} {v : τ}
    (h : (body call).Concludes R (Post call) v []) :
    (InFlight.begin body v call : InFlight ι τ ρ δ ε α).Sound R Post v :=
  fun _ => ⟨R.refl v, h⟩

/-- What a session that commits has concluded. -/
theorem InFlight.Sound.ret {p : InFlight ι τ ρ δ ε α} {now : τ} {a : α} (h : p.Sound R Post now)
    (hout : p.outcome = none) (hret : p.rest = .ret a) :
    R.Keeps p.seen now ∧ Post p.call p.seen (.ok a) p.passed := by
  obtain ⟨hseen, hrest⟩ := h hout
  rw [hret] at hrest
  cases hrest with
  | ret hpost => exact ⟨hseen, hpost⟩

/-- What a session that raises has concluded. -/
theorem InFlight.Sound.throw {p : InFlight ι τ ρ δ ε α} {now : τ} {e : ε} (h : p.Sound R Post now)
    (hout : p.outcome = none) (hthrow : p.rest = .throw e) :
    Post p.call p.seen (.error e) p.passed := by
  obtain ⟨-, hrest⟩ := h hout
  rw [hthrow] at hrest
  cases hrest with
  | throw hpost => exact hpost

/-- A statement keeps its session on its way. -/
theorem InFlight.Sound.advance {blocked gone : List ρ} {db db' : σ} {p p' : InFlight ι τ ρ δ ε α}
    (h : p.Sound R Post (S.view db)) (hout : p.outcome = none)
    (hadv : S.Advanced blocked db p db' gone p') (hkeep : R.Keeps (S.view db) (S.view db')) :
    p'.Sound R Post (S.view db') := by
  obtain ⟨hseen, hrest⟩ := h hout
  cases hadv with
  | locked hwait hfree => exact fun _ => ⟨hseen, hrest⟩
  | queried hwait hread =>
    rw [hread] at hrest
    cases hrest with
    | read hrest => exact fun _ => ⟨R.refl _, hrest _ hseen⟩
  | queued hwait hqueue =>
    rw [hqueue] at hrest
    cases hrest with
    | queue hrest => exact fun _ => ⟨hseen, hrest⟩
  | raised hwait hthrow => exact fun h => by cases h
  | committed hwait hret hcommit => exact fun h => by cases h
  | refused hwait hret hcommit => exact fun h => by cases h

variable [DecidableEq ρ] {w w' : World σ ι τ ρ δ ε α} {i : Nat}

theorem InFlight.Sound.strike {p : InFlight ι τ ρ δ ε α} {now : τ} (h : p.Sound R Post now)
    (gone : List ρ) : (p.strike gone).Sound R Post now := h

omit [DecidableEq ρ] in
/-- A session that starts joins the others. -/
theorem World.Sound.start (h : w.Sound S R Post) {body : ι → Txn τ δ ε α} {call : ι}
    (hbody : (body call).Concludes R (Post call) (S.view w.db) []) :
    World.Sound S R Post
      { w with sessions := w.sessions ++ [.begin body (S.view w.db) call] } := by
  intro p hp
  rcases List.mem_append.mp hp with hp | hp
  · exact h p hp
  · rw [List.mem_singleton.mp hp]
    exact InFlight.sound_begin hbody

/-- **The rely rule.** When the commits of the sessions do only what the others rely on,
a move keeps every session on its way. -/
theorem World.Sound.move (h : w.Sound S R Post) (hmove : S.move w i = some w')
    (hguarantee : ∀ p ∈ w.sessions, ∀ a db', R.Keeps p.seen (S.view w.db) →
      Post p.call p.seen (.ok a) p.passed →
      S.commit (S.drop w.db p.held) (S.deferred p.passed) = .ok db' →
      R.Keeps (S.view w.db) (S.view db')) :
    w'.Sound S R Post ∧ R.Keeps (S.view w.db) (S.view w'.db) := by
  obtain ⟨p, db', gone, p', hp, hout, hadv, rfl⟩ := Isolation.move_cases hmove
  have hmem : p ∈ w.sessions := List.mem_of_getElem? hp
  have hkeep : R.Keeps (S.view w.db) (S.view db') := by
    cases hadv with
    | committed hwait hret hcommit =>
      obtain ⟨hseen, hpost⟩ := (h p hmem).ret hout hret
      exact hguarantee p hmem _ _ hseen hpost hcommit
    | _ => exact R.refl _
  refine ⟨fun q' hq' => ?_, hkeep⟩
  rcases Isolation.mem_sessions_moved hq' with rfl | ⟨q, hq, rfl⟩
  · exact (h p hmem).advance hout hadv hkeep
  · exact ((h q hq).mono hkeep).strike gone

/-! ### Sessions without bulk deletes -/

/-- Whatever the session changes is left to its commit. -/
def InFlight.Plain (S : Isolation σ τ ρ δ ε κ) (p : InFlight ι τ ρ δ ε α) : Prop :=
  p.waiting = none ∧ p.held = [] ∧ (∀ c ∈ p.passed, S.finds c = none) ∧
    p.rest.Queues fun c => S.finds c = none

omit [DecidableEq ρ] in
theorem InFlight.plain_begin {body : ι → Txn τ δ ε α} {call : ι} {v : τ}
    (h : (body call).Queues fun c => S.finds c = none) :
    (InFlight.begin body v call : InFlight ι τ ρ δ ε α).Plain S :=
  ⟨rfl, rfl, by simp [begin], h⟩

omit [DecidableEq ρ] in
theorem InFlight.Plain.advance {blocked gone : List ρ} {db db' : σ} {p p' : InFlight ι τ ρ δ ε α}
    (h : p.Plain S) (hadv : S.Advanced blocked db p db' gone p') : gone = [] ∧ p'.Plain S := by
  obtain ⟨hwait, hheld, hpassed, hrest⟩ := h
  cases hadv with
  | locked hwait' hfree =>
    rw [hwait] at hwait'
    cases hwait'
  | queried _ hread =>
    rw [hread] at hrest
    cases hrest with
    | read _ hk => exact ⟨rfl, hwait, hheld, hpassed, hk _⟩
  | queued _ hqueue =>
    rename_i c k
    rw [hqueue] at hrest
    cases hrest with
    | queue hc hk =>
      refine ⟨rfl, by rw [hc]; rfl, hheld, fun c' hc' => ?_, hk⟩
      rcases List.mem_append.mp hc' with hc' | hc'
      · exact hpassed c' hc'
      · rw [List.mem_singleton.mp hc']
        exact hc
  | raised _ _ => exact ⟨rfl, hwait, rfl, hpassed, hrest⟩
  | committed _ _ _ => exact ⟨hheld, hwait, rfl, hpassed, hrest⟩
  | refused _ _ _ => exact ⟨rfl, hwait, rfl, hpassed, hrest⟩

/-- A world of plain sessions stays one. -/
theorem World.plain_move (h : ∀ p ∈ w.sessions, p.Plain S) (hmove : S.move w i = some w') :
    ∀ p ∈ w'.sessions, p.Plain S := by
  obtain ⟨p, db', gone, p', hp, hout, hadv, rfl⟩ := Isolation.move_cases hmove
  obtain ⟨rfl, hp'⟩ := (h p (List.mem_of_getElem? hp)).advance hadv
  intro q' hq'
  rcases Isolation.mem_sessions_moved hq' with rfl | ⟨q, hq, rfl⟩
  · exact hp'
  · rw [InFlight.strike_nil]
    exact h q hq

end Sound

end UnitOfWork
