import RouteRegistry.Registry.Repository
import RouteRegistry.Registry.Writes
import RouteRegistry.Relational.ReadCommitted

/-!
# Sessions at the same time

`make_engine` leaves the isolation level alone, which on PostgreSQL is READ COMMITTED.
The API threads, the tracker and the task workers each have a session of their own, so
their `with` blocks interleave statement by statement.

The only statement that writes before the commit is the bulk `DELETE` of
`SqlRuleRepo.remove_for_route`. Whatever else a session changes waits for the flush.
-/

namespace RouteRegistry

open Relational UnitOfWork

/-! ## What the database does before a commit -/

/-- The rows a statement deletes, among those it sees. -/
def Change.finds : Change → Option (Store → List Rule)
  | .deleteRules routeId => some fun s => s.rulesOf routeId
  | _ => none

/-- An `INSERT` waits for a session that has deleted the row with its key. -/
def Change.clashes : Change → Rule → Bool
  | .addRule r, r' => decide (r.key = r'.key)
  | _, _ => false

/-- The store without some rules. -/
def Store.dropRules (s : Store) (gone : List Rule) : Store :=
  { s with rules := s.rules.filter fun r => decide (r ∉ gone) }

theorem Store.Valid.dropRules {s : Store} (hv : s.Valid) (gone : List Rule) :
    (s.dropRules gone).Valid := by
  have hsub : ∀ r ∈ (s.dropRules gone).rules, r ∈ s.rules := fun r hr => List.mem_of_mem_filter hr
  exact { hv with
    ruleKeys := hv.ruleKeys.filter _
    ruleRoute := fun r hr => hv.ruleRoute r (hsub r hr)
    ruleEntity := fun r hr => hv.ruleEntity r (hsub r hr) }

@[simp] theorem Store.dropRules_nil (s : Store) : s.dropRules [] = s := by
  simp [Store.dropRules]

def Database.dropRules (db : Database) (gone : List Rule) : Database :=
  ⟨db.store.dropRules gone, db.valid.dropRules gone⟩

@[simp] theorem Database.dropRules_nil (db : Database) : db.dropRules [] = db :=
  Database.ext db.store.dropRules_nil

/-- The unit of work on a database under READ COMMITTED. -/
def readCommitted (eng : Engine) : Isolation Database Store Rule Change Exc CommitError :=
  { makeSqlUow eng with
    finds := Change.finds
    drop := Database.dropRules
    clashes := Change.clashes }

/-- The `with` block of a call, part of the way through. -/
abbrev Running (ι α : Type) := InFlight ι Store Rule Change Exc α

/-- A database with the blocks at work on it. -/
abbrev Sessions (ι α : Type) := World Database ι Store Rule Change Exc α

section Commit

variable {eng : Engine} {α ι : Type} {db db' : Database} {held : List Rule} {Δ : List Change}

/-- Without a bulk `DELETE` every change is left to the commit. -/
theorem deferred_eq_self (h : ∀ c ∈ Δ, c.finds = none) : (readCommitted eng).deferred Δ = Δ := by
  refine List.filter_eq_self.mpr ?_
  intro c hc
  show (c.finds).isNone = true
  rw [h c hc]
  rfl

/-- A bulk `DELETE` that comes first is the one change that is not. -/
theorem deferred_delete {routeId : String} (h : ∀ c ∈ Δ, c.finds = none) :
    (readCommitted eng).deferred (.deleteRules routeId :: Δ) = Δ :=
  (List.filter_cons_of_neg (by simp [readCommitted, Change.finds])).trans (deferred_eq_self h)

theorem found_eq_nil {s : Store} (h : ∀ c ∈ Δ, c.finds = none) :
    (readCommitted eng).found s Δ = [] := by
  refine List.flatMap_eq_nil_iff.mpr ?_
  intro c hc
  show ((c.finds).map _).getD [] = []
  rw [h c hc]
  rfl

theorem found_delete {s : Store} {routeId : String} (h : ∀ c ∈ Δ, c.finds = none) :
    (readCommitted eng).found s (.deleteRules routeId :: Δ) = s.rulesOf routeId := by
  have hrest : (readCommitted eng).found s Δ = [] := found_eq_nil h
  unfold Isolation.found at *
  rw [List.flatMap_cons, hrest, List.append_nil]
  rfl

/-- What a commit that goes through has done. -/
theorem readCommitted_commit
    (h : (readCommitted eng).commit ((readCommitted eng).drop db held)
      ((readCommitted eng).deferred Δ) = .ok db') :
    flush (db.store.dropRules held) ((readCommitted eng).deferred Δ) = .ok db'.store :=
  eng.committed (db.dropRules held) _ db' h

/-- A commit that breaks a unique constraint makes the block raise the unit of work's
`AlreadyExists`. -/
theorem answer_of_unique {c : CommitError} (a : α) (hc : eng.commit db Δ = .error c)
    (hf : flush db.store Δ = .error (.integrity .unique)) :
    ∃ msg, (readCommitted eng).answer a c = .error ⟨.uowAlreadyExists, msg, none⟩ := by
  obtain ⟨orig, msg, hc', hnamed⟩ := eng.refused db Δ .unique hf
  cases hc.symm.trans hc'
  refine ⟨msg, ?_⟩
  simp [Isolation.answer, readCommitted, makeSqlUow, commitHandler,
    ConstraintKind.namesUnique_of_namedIn hnamed]

end Commit

/-! ## A session alone -/

section Alone

variable {eng : Engine} {ι α : Type} {body : ι → Session α} {call : ι} {db : Database}

/-- A session that nobody interferes with does what its `with` block does in one go. -/
theorem withUOW_alone (hearly : ∀ a Δ, (body call).run db.store = (.ok a, Δ) →
    eng.commit (db.dropRules ((readCommitted eng).found db.store Δ))
      ((readCommitted eng).deferred Δ) = eng.commit db Δ) :
    ∃ n db' x p', Runs.run (readCommitted eng).move ⟨db, [.begin body db.store call]⟩
        (List.replicate n 0) = some ⟨db', [p']⟩ ∧
      p'.outcome = some x ∧ withUOW eng (body call) db = Isolation.result db' x := by
  let p : Running ι α := .begin body db.store call
  obtain ⟨n, p', hrun, hp'⟩ : ∃ n p', Runs.run (readCommitted eng).move ⟨db, [p]⟩
      (List.replicate n 0) = some ⟨((readCommitted eng).alone db p).1, [p']⟩ ∧
      p'.outcome = some ((readCommitted eng).alone db p).2 := Isolation.run_alone rfl rfl
  have hblock : (readCommitted eng).block (body call) db =
      Isolation.result ((readCommitted eng).alone db p).1 ((readCommitted eng).alone db p).2 :=
    Isolation.block_alone hearly
  exact ⟨n, _, _, p', hrun, hp', hblock⟩

theorem withUOW_alone_plain (hplain : (body call).Queues fun c => c.finds = none) :
    ∃ n db' x p', Runs.run (readCommitted eng).move ⟨db, [.begin body db.store call]⟩
        (List.replicate n 0) = some ⟨db', [p']⟩ ∧
      p'.outcome = some x ∧ withUOW eng (body call) db = Isolation.result db' x := by
  refine withUOW_alone ?_
  intro a Δ hrun
  have hΔ : ∀ c ∈ Δ, c.finds = none := by
    have h := hplain.run db.store
    rw [hrun] at h
    exact h
  rw [found_eq_nil hΔ, Database.dropRules_nil, deferred_eq_self hΔ]

end Alone

/-! ## Queries while others commit -/

section Queries

variable {R : Rely Store} {α β κ : Type} {table : Store → List α}

/-- A query on a table that the others leave alone. -/
theorem steady_queryOne (htable : ∀ v v', R.Keeps v v' → table v' = table v) (p : α → Bool) :
    (queryOne table p).Steady R := by
  refine Txn.steady_bind (Txn.steady_get fun v v' h => ?_) fun rows => ?_
  · rw [htable v v' h]
  · unfold scalarOneOrNone
    split
    · exact .ret _
    · exact .ret _
    · exact .throw _

/-- A query for one row by a unique column goes on with what its lookup finds. -/
theorem concludes_queryOne [DecidableEq κ] {key : α → κ} {k : κ} {v : Store} {Δ : List Change}
    {Post : Store → Except Exc β → List Change → Prop} {f : Option α → Session β}
    (hkeyed : ∀ v', R.Keeps v v' → Keyed key (table v'))
    (h : ∀ v', R.Keeps v v' → (f (lookup key k (table v'))).Concludes R Post v' Δ) :
    ((queryOne table fun r => decide (key r = k)) >>= f).Concludes R Post v Δ := by
  refine .read ?_
  intro v' hv'
  show ((scalarOneOrNone ((table v').filter fun r => decide (key r = k))) >>= f).Concludes R Post
    v' Δ
  have hf := h v' hv'
  rw [filter_key_eq_toList (hkeyed v' hv')]
  cases hl : lookup key k (table v') with
  | none =>
    rw [hl] at hf
    exact hf
  | some a =>
    rw [hl] at hf
    exact hf

end Queries

/-! ## Moves of sessions without a bulk `DELETE` -/

section Plain

variable {eng : Engine} {ι α : Type} {w w' : Sessions ι α} {i : Nat} {p : Running ι α} {a : α}

theorem plain_commit (db : Database) (hplain : p.Plain (readCommitted eng)) :
    (readCommitted eng).commit ((readCommitted eng).drop db p.held)
      ((readCommitted eng).deferred p.passed) = eng.commit db p.passed := by
  obtain ⟨-, hheld, hpassed, -⟩ := hplain
  rw [deferred_eq_self hpassed, hheld]
  show eng.commit (db.dropRules []) p.passed = _
  rw [Database.dropRules_nil]

/-- A move leaves the store alone, unless it commits what its session has queued. -/
theorem plain_move_cases (hplain : ∀ p ∈ w.sessions, p.Plain (readCommitted eng))
    (hmove : (readCommitted eng).move w i = some w') :
    w'.db = w.db ∨ ∃ p a, w.sessions[i]? = some p ∧ p.AtCommit a ∧
      flush w.db.store p.passed = .ok w'.db.store := by
  obtain ⟨p, db', gone, p', hp, hout, hadv, rfl⟩ := Isolation.move_cases hmove
  cases hadv with
  | committed hwait hret hcommit =>
    rw [plain_commit _ (hplain p (List.mem_of_getElem? hp))] at hcommit
    exact .inr ⟨p, _, hp, ⟨hout, hwait, hret⟩, eng.committed _ _ _ hcommit⟩
  | _ => exact .inl rfl

/-- A reliable engine commits a session that flushes. -/
theorem plain_commits (hrel : eng.Reliable) (hplain : p.Plain (readCommitted eng))
    (hp : w.sessions[i]? = some p) (hcommit : p.AtCommit a) {s' : Store}
    (hf : flush w.db.store p.passed = .ok s') (hmove : (readCommitted eng).move w i = some w') :
    w'.db.store = s' := by
  obtain ⟨q, db', gone, p', hq, -, hadv, rfl⟩ := Isolation.move_cases hmove
  obtain rfl : q = p := Option.some.inj (hq.symm.trans hp)
  obtain ⟨-, hwait, hret⟩ := hcommit
  obtain ⟨db'', hc⟩ := hrel w.db q.passed s' hf
  cases hadv with
  | locked hwait' _ =>
    rw [hwait] at hwait'
    cases hwait'
  | queried _ hrest | queued _ hrest | raised _ hrest =>
    rw [hret] at hrest
    cases hrest
  | committed _ _ hc' =>
    rw [plain_commit _ hplain] at hc'
    exact Except.ok.inj ((eng.committed _ _ _ hc').symm.trans hf)
  | refused _ _ hc' =>
    rw [plain_commit _ hplain, hc] at hc'
    cases hc'

end Plain

end RouteRegistry
