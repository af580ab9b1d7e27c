import Mathlib.Tactic.Common

/-!
# Runs of a deterministic machine

`step : σ → ε → Option σ` is one step of a machine: what an event does to a state, or
`none` when the event cannot happen there.

- `run step s es`: the state after the events `es`.
- `Along step P s es`: `P` holds of every state and event the run goes through. This is
  how a hypothesis about a whole run is stated ("no step of it releases the lock").
- `record step out s es`: what `out` observes at each step, in order. Properties that
  speak of the past ("the last successful update") are about this list.

The rules at the bottom package the induction: `run_keeps` for an invariant of the state,
`run_records` for one that also relates the state to what was recorded, `run_simulates` for a
second machine that follows the first.
-/

namespace Runs

universe u v w

variable {σ : Type u} {ε : Type v} {ω : Type w} (step : σ → ε → Option σ)

/-- The state after a list of events. -/
def run : σ → List ε → Option σ
  | s, [] => some s
  | s, e :: es =>
    match step s e with
    | some s' => run s' es
    | none => none

/-- `P` holds at every step of a run. -/
def Along (P : σ → ε → Prop) : σ → List ε → Prop
  | _, [] => True
  | s, e :: es =>
    P s e ∧
      match step s e with
      | some s' => Along P s' es
      | none => True

instance decidableAlong (P : σ → ε → Prop) [∀ s e, Decidable (P s e)] :
    (s : σ) → (es : List ε) → Decidable (Along step P s es)
  | _, [] => .isTrue trivial
  | s, e :: es =>
    have : Decidable (match step s e with
        | some s' => Along step P s' es
        | none => True) :=
      match step s e with
      | some s' => decidableAlong P s' es
      | none => .isTrue trivial
    inferInstanceAs (Decidable (P s e ∧ _))

/-- What is observed along a run. -/
def record (out : σ → ε → List ω) : σ → List ε → List ω
  | _, [] => []
  | s, e :: es =>
    out s e ++
      match step s e with
      | some s' => record out s' es
      | none => []

variable {step} {P : σ → ε → Prop} {out : σ → ε → List ω} {s s' s₁ : σ} {e : ε} {es fs : List ε}

@[simp] theorem run_nil : run step s [] = some s := rfl

theorem run_cons (h : step s e = some s₁) : run step s (e :: es) = run step s₁ es := by
  rw [run, h]

/-- A run takes its first step and goes on from there. -/
theorem run_cons_eq_some :
    run step s (e :: es) = some s' ↔ ∃ s₁, step s e = some s₁ ∧ run step s₁ es = some s' := by
  rw [run]
  cases step s e with
  | none => simp
  | some s₁ => simp

theorem run_append :
    run step s (es ++ fs) = some s' ↔
      ∃ s₁, run step s es = some s₁ ∧ run step s₁ fs = some s' := by
  induction es generalizing s with
  | nil => simp
  | cons e es ih =>
    rw [List.cons_append, run_cons_eq_some]
    constructor
    · rintro ⟨s₁, hstep, hrun⟩
      obtain ⟨s₂, h₁, h₂⟩ := ih.mp hrun
      exact ⟨s₂, run_cons_eq_some.mpr ⟨s₁, hstep, h₁⟩, h₂⟩
    · rintro ⟨s₂, h₁, h₂⟩
      obtain ⟨s₁, hstep, hrun⟩ := run_cons_eq_some.mp h₁
      exact ⟨s₁, hstep, ih.mpr ⟨s₂, hrun, h₂⟩⟩

theorem Along.cons (h : Along step P s (e :: es)) (hstep : step s e = some s₁) :
    P s e ∧ Along step P s₁ es := by
  obtain ⟨hp, hrest⟩ := h
  rw [hstep] at hrest
  exact ⟨hp, hrest⟩

theorem along_cons (hp : P s e) (hstep : step s e = some s₁) (hrest : Along step P s₁ es) :
    Along step P s (e :: es) := by
  refine ⟨hp, ?_⟩
  rw [hstep]
  exact hrest

/-- What holds along a run holds at each of its steps. -/
theorem along_iff :
    Along step P s es ↔
      ∀ es₁ e es₂ s₁, es = es₁ ++ e :: es₂ → run step s es₁ = some s₁ → P s₁ e := by
  induction es generalizing s with
  | nil => simp [Along]
  | cons a es ih =>
    constructor
    · rintro h es₁ e es₂ s₁ hsplit hrun
      cases es₁ with
      | nil =>
        cases hsplit
        cases hrun
        exact h.1
      | cons b es₁ =>
        cases hsplit
        obtain ⟨s₂, hstep, hrest⟩ := run_cons_eq_some.mp hrun
        exact ih.mp (h.cons hstep).2 es₁ e es₂ s₁ rfl hrest
    · intro h
      refine ⟨h [] a es s rfl rfl, ?_⟩
      cases hstep : step s a with
      | none => trivial
      | some s₂ =>
        refine ih.mpr fun es₁ e es₂ s₁ hsplit hrun => ?_
        exact h (a :: es₁) e es₂ s₁ (congrArg (a :: ·) hsplit) ((run_cons hstep).trans hrun)

/-- A condition along a run holds along its beginning. -/
theorem Along.left (h : Along step P s (es ++ fs)) : Along step P s es := by
  refine along_iff.mpr fun es₁ e es₂ s₁ hsplit hrun => ?_
  exact along_iff.mp h es₁ e (es₂ ++ fs) s₁ (by simp [hsplit]) hrun

/-- Under an assumption about the whole run, each step satisfies `P`. -/
theorem along_of_imp {F : Prop} (h : F → Along step P s es) :
    Along step (fun s e => F → P s e) s es := by
  induction es generalizing s with
  | nil => trivial
  | cons e es ih =>
    refine ⟨fun hF => (h hF).1, ?_⟩
    cases hstep : step s e with
    | none => trivial
    | some s₁ => exact ih fun hF => ((h hF).cons hstep).2

theorem Along.imp {Q : σ → ε → Prop} (h : ∀ s e, P s e → Q s e) (hp : Along step P s es) :
    Along step Q s es :=
  along_iff.mpr fun es₁ e es₂ s₁ hsplit hrun => h s₁ e (along_iff.mp hp es₁ e es₂ s₁ hsplit hrun)

theorem Along.and {Q : σ → ε → Prop} (hp : Along step P s es) (hq : Along step Q s es) :
    Along step (fun s e => P s e ∧ Q s e) s es := by
  induction es generalizing s with
  | nil => trivial
  | cons e es ih =>
    refine ⟨⟨hp.1, hq.1⟩, ?_⟩
    cases hstep : step s e with
    | none => trivial
    | some s₁ => exact ih (hp.cons hstep).2 (hq.cons hstep).2

/-- A condition on every event holds along the run. -/
theorem along_of_forall {Q : ε → Prop} (h : ∀ e ∈ es, Q e) : Along step (fun _ e => Q e) s es := by
  induction es generalizing s with
  | nil => trivial
  | cons e es ih =>
    refine ⟨h e List.mem_cons_self, ?_⟩
    cases step s e with
    | none => trivial
    | some s₁ => exact ih fun e' he' => h e' (List.mem_cons_of_mem e he')

theorem record_cons (hstep : step s e = some s₁) :
    record step out s (e :: es) = out s e ++ record step out s₁ es := by
  rw [record, hstep]

/-- What is recorded is observed at some step of the run. -/
theorem mem_record {w : ω} (hw : w ∈ record step out s es) :
    ∃ es₁ e es₂ s₁, es = es₁ ++ e :: es₂ ∧ run step s es₁ = some s₁ ∧ w ∈ out s₁ e := by
  induction es generalizing s with
  | nil => cases hw
  | cons e es ih =>
    rcases List.mem_append.mp hw with hw | hw
    · exact ⟨[], e, es, s, rfl, rfl, hw⟩
    · cases hstep : step s e with
      | none =>
        rw [hstep] at hw
        cases hw
      | some s₁ =>
        rw [hstep] at hw
        obtain ⟨es₁, e', es₂, s₂, rfl, hrun, hw⟩ := ih hw
        exact ⟨e :: es₁, e', es₂, s₂, rfl, (run_cons hstep).trans hrun, hw⟩

/-- The beginning of a run has the beginning of its record. -/
theorem record_append (hrun : run step s es = some s') :
    record step out s (es ++ fs) = record step out s es ++ record step out s' fs := by
  induction es generalizing s with
  | nil =>
    cases hrun
    rfl
  | cons e es ih =>
    obtain ⟨s₁, hstep, hrest⟩ := run_cons_eq_some.mp hrun
    rw [List.cons_append, record_cons hstep, record_cons hstep, ih hrest, List.append_assoc]

/-- **The invariant rule.** What every step allowed by `P` keeps, a run along `P`
keeps. -/
theorem run_keeps {I : σ → Prop}
    (hkeep : ∀ s e s', I s → P s e → step s e = some s' → I s')
    (hP : Along step P s es) (hrun : run step s es = some s') (hI : I s) : I s' := by
  induction es generalizing s with
  | nil =>
    cases hrun
    exact hI
  | cons e es ih =>
    obtain ⟨s₁, hstep, hrest⟩ := run_cons_eq_some.mp hrun
    obtain ⟨hp, hP'⟩ := hP.cons hstep
    exact ih hP' hrest (hkeep s e s₁ hI hp hstep)

/-- **The history rule.** An invariant that relates the state to what was recorded so
far holds at the end with the whole record. -/
theorem run_records {I : List ω → σ → Prop}
    (hkeep : ∀ log s e s', I log s → P s e → step s e = some s' → I (log ++ out s e) s')
    {log : List ω} (hP : Along step P s es) (hrun : run step s es = some s') (hI : I log s) :
    I (log ++ record step out s es) s' := by
  induction es generalizing s log with
  | nil =>
    cases hrun
    rw [record, List.append_nil]
    exact hI
  | cons e es ih =>
    obtain ⟨s₁, hstep, hrest⟩ := run_cons_eq_some.mp hrun
    obtain ⟨hp, hP'⟩ := hP.cons hstep
    rw [record_cons hstep, ← List.append_assoc]
    exact ih hP' hrest (hkeep log s e s₁ hI hp hstep)

/-- **The simulation rule.** A second machine follows a part `abs` of the state: what a step does
to that part is nothing, or one step of the other machine that `Q` allows there. Then a run of
the first is a run of the second along `Q`. -/
theorem run_simulates {τ : Type*} {φ : Type*} {step' : τ → φ → Option τ} (abs : σ → τ)
    {Q : τ → φ → Prop}
    (hsim : ∀ s e s', P s e → step s e = some s' →
      abs s' = abs s ∨ ∃ f, Q (abs s) f ∧ step' (abs s) f = some (abs s'))
    (hP : Along step P s es) (hrun : run step s es = some s') :
    ∃ fs, run step' (abs s) fs = some (abs s') ∧ Along step' Q (abs s) fs := by
  induction es generalizing s with
  | nil =>
    cases hrun
    exact ⟨[], rfl, trivial⟩
  | cons e es ih =>
    obtain ⟨s₁, hstep, hrest⟩ := run_cons_eq_some.mp hrun
    obtain ⟨hp, hP'⟩ := hP.cons hstep
    obtain ⟨fs, hfs, hQ⟩ := ih hP' hrest
    rcases hsim s e s₁ hp hstep with hsame | ⟨f, hf, hfirst⟩
    · rw [← hsame]
      exact ⟨fs, hfs, hQ⟩
    · exact ⟨f :: fs, (run_cons hfirst).trans hfs, along_cons hf hfirst hQ⟩

end Runs
