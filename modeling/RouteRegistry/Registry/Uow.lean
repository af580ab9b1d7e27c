import Mathlib.Data.List.Sort
import RouteRegistry.Formats.Like
import RouteRegistry.Registry.Flush
import RouteRegistry.Relational.UnitOfWork

/-!
# The unit of work (`service/uow.py`)

- `Engine`: SQLAlchemy and the database below the session. A commit applies the
  whole session or raises; a violated constraint raises an `IntegrityError` whose text
  names the kind of constraint, and nothing else does. Which text, and whether a commit
  fails for reasons of its own, is left open, and so are the dialect of `LIKE` and the order
  of a relationship that is loaded without one.
- `commitHandler`: the `except` clauses of `make_sql_uow`.
- `withUOW`: `with UOW() as uow: …`.

What a block does is read off three lemmas: `withUOW_error` (a raising block changes
nothing), `withUOW_ok` (a block that ends normally was committed, or a `NOT NULL` or
`FOREIGN KEY` violation was dropped; `withUOW_ok_of_flush` and `withUOW_ok_of_refused`
are its two halves for a known flush) and `withUOW_of_flush` (a session that flushes is
committed by an engine that does not fail on its own).
-/

namespace RouteRegistry

open UnitOfWork

/-- A service body inside its `with` block. -/
abbrev Session (α : Type) := Txn Store Change Exc α

/-- A service call: it may raise, and what it committed before stays. -/
abbrev Service (α : Type) := EStateM Exc Database α

/-- The database after a call, whether it returned or raised. -/
def Service.after {α : Type} (call : Service α) (db : Database) : Database :=
  match call db with
  | .ok _ db' => db'
  | .error _ db' => db'

theorem Service.after_of_ok {α : Type} {call : Service α} {db db' : Database} {a : α}
    (h : call db = .ok a db') : call.after db = db' := by
  unfold Service.after
  rw [h]

theorem Service.after_of_error {α : Type} {call : Service α} {db db' : Database} {e : Exc}
    (h : call db = .error e db') : call.after db = db' := by
  unfold Service.after
  rw [h]

/-- A call that returns hands its value and its database on. -/
theorem Service.bind_of_ok {α β : Type} {call : Service α} {f : α → Service β}
    {db db' : Database} {a : α} (h : call db = .ok a db') : (call >>= f) db = f a db' := by
  show EStateM.bind call f db = _
  unfold EStateM.bind
  rw [h]

theorem Service.bind_of_error {α β : Type} {call : Service α} {f : α → Service β}
    {db db' : Database} {e : Exc} (h : call db = .error e db') :
    (call >>= f) db = .error e db' := by
  show EStateM.bind call f db = _
  unfold EStateM.bind
  rw [h]

theorem Service.after_bind {α β : Type} (call : Service α) (f : α → Service β) (db : Database) :
    (call >>= f).after db =
      match call db with
      | .ok a db' => (f a).after db'
      | .error _ db' => db' := by
  show Service.after (EStateM.bind call f) db = _
  unfold Service.after EStateM.bind
  cases call db <;> rfl

/-- Raising something else leaves the store alike. -/
theorem Service.after_throw {α : Type} (call : Service α) (f : Exc → Exc) (db : Database) :
    Service.after (tryCatch call fun e => throw (f e)) db = call.after db := by
  show Service.after (EStateM.tryCatch call _) db = _
  unfold Service.after EStateM.tryCatch
  cases call db <;> rfl

section TryCatch

variable {α : Type} {call : Service α} {f : Exc → Exc} {db db' : Database}

/-- An `except` clause that only raises lets through what returns. -/
theorem tryCatch_throw_eq_ok {a : α} :
    tryCatch call (fun e => throw (f e)) db = .ok a db' ↔ call db = .ok a db' := by
  show EStateM.tryCatch call _ db = _ ↔ _
  unfold EStateM.tryCatch
  cases call db with
  | ok a' db'' => exact Iff.rfl
  | error e db'' => exact iff_of_false (fun h => by cases h) (fun h => by cases h)

theorem tryCatch_throw_eq_error {e : Exc}
    (h : tryCatch call (fun e => throw (f e)) db = .error e db') :
    ∃ e', call db = .error e' db' := by
  change EStateM.tryCatch call _ db = _ at h
  unfold EStateM.tryCatch at h
  cases hcall : call db with
  | ok a' db'' =>
    rw [hcall] at h
    cases h
  | error e' db'' =>
    rw [hcall] at h
    cases h
    exact ⟨e', rfl⟩

theorem bind_return_eq_ok {call : Service Unit} {a b : α} :
    (call >>= fun _ => pure a : Service α) db = .ok b db' ↔ call db = .ok () db' ∧ a = b := by
  show EStateM.bind call _ db = _ ↔ _
  unfold EStateM.bind
  cases call db with
  | ok u db'' =>
    constructor
    · intro h
      cases h
      exact ⟨rfl, rfl⟩
    · rintro ⟨h, rfl⟩
      cases h
      rfl
  | error e db'' => exact iff_of_false (fun h => by cases h) (fun h => by cases h.1)

theorem bind_return_eq_error {call : Service Unit} {a : α} {e : Exc}
    (h : (call >>= fun _ => pure a : Service α) db = .error e db') : call db = .error e db' := by
  change EStateM.bind call _ db = _ at h
  unfold EStateM.bind at h
  cases hcall : call db with
  | ok u db'' =>
    rw [hcall] at h
    cases h
  | error e' db'' =>
    rw [hcall] at h
    cases h
    rfl

end TryCatch

/-- What `session.commit()` raises. `orig` is the text of the driver's error. -/
inductive CommitError where
  | integrityError (orig msg : String)
  | notFound (msg : String)
  | other (msg : String)
deriving DecidableEq, Repr

/-- How error texts spell the kind of a constraint. -/
def ConstraintKind.spellings : ConstraintKind → List String
  | .notNull => ["not null", "not-null"]
  | .unique => ["unique"]
  | .foreignKey => ["foreign key"]

/-- The text names the kind of the violated constraint. -/
def ConstraintKind.namedIn (k : ConstraintKind) (text : String) : Prop :=
  ∃ name ∈ k.spellings, Text.contains name (Text.lower text) = true

/-- SQLAlchemy and the database, as seen by a session. -/
structure Engine where
  commit : Database → List Change → Except CommitError Database
  /-- A commit that does not raise applied the whole session. -/
  committed : ∀ db Δ db', commit db Δ = .ok db' → flush db.store Δ = .ok db'.store
  /-- A violated constraint raises `IntegrityError`, naming its kind. -/
  refused : ∀ db Δ k, flush db.store Δ = .error (.integrity k) →
    ∃ orig msg, commit db Δ = .error (.integrityError orig msg) ∧ k.namedIn orig
  /-- Nothing else raises `IntegrityError`. -/
  violated : ∀ db Δ orig msg, commit db Δ = .error (.integrityError orig msg) →
    ∃ k, flush db.store Δ = .error (.integrity k)
  dialect : Text.Dialect
  /-- `LIKE`, pattern first. -/
  like : List Char → List Char → Bool
  documented : dialect.Documents like
  /-- `user.communities`: the query has no `ORDER BY`, so the order is the database's. -/
  communitiesOf : Store → (entityId : String) → List Community
  listed : ∀ s entityId, (communitiesOf s entityId).Perm
    (s.communities.filter fun c => decide (c.entityId = entityId))
  /-- `f"{route}"` and `f"{community}"`: attrs prints all attributes of a mapped object, among them
  the objects that SQLAlchemy loads for it, with the tokens of the routes. -/
  routeText : Store → Route → String
  communityText : Store → Community → String

theorem Engine.mem_communitiesOf {eng : Engine} {s : Store} {entityId : String} {c : Community} :
    c ∈ eng.communitiesOf s entityId ↔ c ∈ s.communities ∧ c.entityId = entityId := by
  rw [(eng.listed s entityId).mem_iff, List.mem_filter, decide_eq_true_eq]

/-- An engine whose commits fail only when the flush does. -/
def Engine.Reliable (eng : Engine) : Prop :=
  ∀ db Δ s', flush db.store Δ = .ok s' → ∃ db', eng.commit db Δ = .ok db'

/-- The test `"unique" in str(e.orig).lower()`. -/
def namesUnique (orig : String) : Bool := Text.contains "unique" (Text.lower orig)

/-- The `except` clauses around `session.commit()`. -/
def commitHandler : CommitError → Option Exc
  | .integrityError orig msg =>
    -- the clause has no `else`: any other violation ends here, rolled back
    if namesUnique orig then some ⟨.uowAlreadyExists, msg, none⟩ else none
  | .notFound msg => some ⟨.uowNotFound, msg, none⟩
  | .other msg => some ⟨.uowException, msg, none⟩

def makeSqlUow (eng : Engine) : Scope Database Store Change Exc CommitError where
  view := Database.store
  commit := eng.commit
  handler := commitHandler

/-- `with UOW() as uow: body`. -/
def withUOW {α : Type} (eng : Engine) (body : Session α) : Service α :=
  (makeSqlUow eng).block body

theorem ConstraintKind.namesUnique_of_namedIn {orig : String}
    (h : ConstraintKind.unique.namedIn orig) : namesUnique orig = true := by
  obtain ⟨name, hname, hin⟩ := h
  rw [ConstraintKind.spellings, List.mem_singleton] at hname
  subst hname
  exact hin

section Blocks

variable {α : Type} {eng : Engine} {body : Session α} {db db' : Database} {a : α} {e : Exc}
  {Δ : List Change}

/-- A raising block changes nothing. -/
theorem withUOW_error (h : withUOW eng body db = .error e db') : db' = db :=
  Scope.block_error h

theorem withUOW_raised (h : body.run db.store = (.error e, Δ)) :
    withUOW eng body db = .error e db :=
  Scope.block_raised h

/-- What a block raises comes from its body or from the commit. -/
theorem withUOW_error_cases (h : withUOW eng body db = .error e db') :
    (∃ Δ, body.run db.store = (.error e, Δ)) ∨ ∃ c, commitHandler c = some e := by
  rcases (makeSqlUow eng).block_cases body db with ⟨e', Δ, hrun, hb⟩ | ⟨_, _, _, -, -, hb⟩ |
    ⟨_, _, c, e', -, -, hh, hb⟩ | ⟨_, _, _, -, -, -, hb⟩
  · rw [withUOW, hb] at h
    cases h
    exact .inl ⟨Δ, hrun⟩
  · rw [withUOW, hb] at h
    cases h
  · rw [withUOW, hb] at h
    cases h
    exact .inr ⟨c, hh⟩
  · rw [withUOW, hb] at h
    cases h

/-- What the handler lets pass: a `NOT NULL` or `FOREIGN KEY` violation. -/
theorem swallowed_cases {c : CommitError} (hc : eng.commit db Δ = .error c)
    (hh : commitHandler c = none) :
    ∃ k : ConstraintKind, k ≠ .unique ∧ flush db.store Δ = .error (.integrity k) ∧
      ∃ orig msg, c = .integrityError orig msg ∧ namesUnique orig = false := by
  cases c with
  | integrityError orig msg =>
    have hnot : namesUnique orig = false := by simpa [commitHandler] using hh
    obtain ⟨k, hk⟩ := eng.violated db Δ orig msg hc
    obtain ⟨orig', msg', hc', hnamed⟩ := eng.refused db Δ k hk
    cases hc.symm.trans hc'
    refine ⟨k, ?_, hk, orig, msg, rfl, hnot⟩
    -- a unique violation is named as one
    rintro rfl
    rw [ConstraintKind.namesUnique_of_namedIn hnamed] at hnot
    cases hnot
  | notFound msg => simp [commitHandler] at hh
  | other msg => simp [commitHandler] at hh

/-- A block that ends normally was committed, or violated a `NOT NULL` or `FOREIGN KEY`
constraint and left the store as it was. -/
theorem withUOW_ok (h : withUOW eng body db = .ok a db') :
    ∃ Δ, body.run db.store = (.ok a, Δ) ∧
      (flush db.store Δ = .ok db'.store ∨
        db' = db ∧ ∃ k orig msg, k ≠ .unique ∧ flush db.store Δ = .error (.integrity k) ∧
          eng.commit db Δ = .error (.integrityError orig msg) ∧ namesUnique orig = false) := by
  rcases (makeSqlUow eng).block_cases body db with ⟨_, _, -, hb⟩ | ⟨a', Δ, db'', hrun, hc, hb⟩ |
    ⟨_, _, _, _, -, -, -, hb⟩ | ⟨a', Δ, c, hrun, hc, hh, hb⟩
  · rw [withUOW, hb] at h
    cases h
  · rw [withUOW, hb] at h
    cases h
    exact ⟨Δ, hrun, .inl (eng.committed db Δ db' hc)⟩
  · rw [withUOW, hb] at h
    cases h
  · rw [withUOW, hb] at h
    cases h
    obtain ⟨k, hk, hf, orig, msg, rfl, hnot⟩ := swallowed_cases hc hh
    exact ⟨Δ, hrun, .inr ⟨rfl, k, orig, msg, hk, hf, hc, hnot⟩⟩

/-- A block that ends normally over a session that flushes committed it. -/
theorem withUOW_ok_of_flush {a' : α} {s' : Store} (h : withUOW eng body db = .ok a db')
    (hrun : body.run db.store = (.ok a', Δ)) (hf : flush db.store Δ = .ok s') :
    a = a' ∧ db'.store = s' := by
  obtain ⟨Δ', hrun', hcases⟩ := withUOW_ok h
  rw [hrun] at hrun'
  cases hrun'
  refine ⟨rfl, ?_⟩
  rcases hcases with hf' | ⟨-, k, -, -, -, hf', -, -⟩
  · rw [hf] at hf'
    exact (Except.ok.inj hf').symm
  · rw [hf] at hf'
    cases hf'

/-- A block that ends normally over a session that does not flush violated a `NOT NULL`
or `FOREIGN KEY` constraint, and changed nothing. -/
theorem withUOW_ok_of_refused {a' : α} {err : FlushError} (h : withUOW eng body db = .ok a db')
    (hrun : body.run db.store = (.ok a', Δ)) (hf : flush db.store Δ = .error err) :
    a = a' ∧ db' = db ∧ ∃ k, err = .integrity k ∧ k ≠ .unique := by
  obtain ⟨Δ', hrun', hcases⟩ := withUOW_ok h
  rw [hrun] at hrun'
  cases hrun'
  refine ⟨rfl, ?_⟩
  rcases hcases with hf' | ⟨hdb, k, -, -, hk, hf', -, -⟩
  · rw [hf] at hf'
    cases hf'
  · rw [hf] at hf'
    exact ⟨hdb, k, Except.error.inj hf', hk⟩

/-- A session that flushes is committed by a reliable engine. -/
theorem withUOW_of_flush (hrel : eng.Reliable) {s' : Store}
    (hrun : body.run db.store = (.ok a, Δ)) (hf : flush db.store Δ = .ok s') :
    ∃ db', withUOW eng body db = .ok a db' ∧ db'.store = s' := by
  obtain ⟨db', hc⟩ := hrel db Δ s' hf
  refine ⟨db', Scope.block_committed hrun hc, ?_⟩
  have := eng.committed db Δ db' hc
  rw [hf] at this
  cases this
  rfl

/-- A session that violates a unique constraint makes the block raise
`AlreadyExists`. -/
theorem withUOW_of_unique (hrun : body.run db.store = (.ok a, Δ))
    (hf : flush db.store Δ = .error (.integrity .unique)) :
    ∃ msg, withUOW eng body db = .error ⟨.uowAlreadyExists, msg, none⟩ db := by
  obtain ⟨orig, msg, hc, hnamed⟩ := eng.refused db Δ .unique hf
  refine ⟨msg, Scope.block_refused hrun hc ?_⟩
  simp [makeSqlUow, commitHandler, ConstraintKind.namesUnique_of_namedIn hnamed]

/-- A session without changes leaves the store alone, however the block ends. -/
theorem withUOW_readonly (eng : Engine) (hrun : (body.run db.store).2 = []) :
    (∃ a, withUOW eng body db = .ok a db) ∨ ∃ e, withUOW eng body db = .error e db := by
  cases h : withUOW eng body db with
  | error e db' => exact .inr ⟨e, by rw [withUOW_error h]⟩
  | ok a db' =>
    obtain ⟨Δ, hrun', hf | ⟨rfl, -⟩⟩ := withUOW_ok h
    · rw [hrun'] at hrun
      subst hrun
      rw [flush_nil] at hf
      exact .inl ⟨a, by rw [Database.ext (Except.ok.inj hf)]⟩
    · exact .inl ⟨a, rfl⟩

/-- A block leaves the store alone or flushes what its body queues. -/
theorem withUOW_after_run (eng : Engine) (body : Session α) (db : Database) :
    (withUOW eng body).after db = db ∨
      ∃ a Δ, body.run db.store = (.ok a, Δ) ∧
        flush db.store Δ = .ok ((withUOW eng body).after db).store := by
  unfold Service.after
  cases h : withUOW eng body db with
  | error e db' => exact .inl (withUOW_error h)
  | ok a db' =>
    obtain ⟨Δ, hrun, hf | ⟨hdb, -⟩⟩ := withUOW_ok h
    · exact .inr ⟨a, Δ, hrun, hf⟩
    · exact .inl hdb

/-- A block leaves the store alone or flushes changes its session can queue. -/
theorem withUOW_after_cases {P : Change → Prop} (hq : body.Queues P) (db : Database) :
    (withUOW eng body).after db = db ∨
      ∃ Δ, flush db.store Δ = .ok ((withUOW eng body).after db).store ∧ ∀ c ∈ Δ, P c := by
  rcases withUOW_after_run eng body db with hsame | ⟨a, Δ, hrun, hf⟩
  · exact .inl hsame
  · have hΔ := hq.run db.store
    rw [hrun] at hΔ
    exact .inr ⟨Δ, hf, hΔ⟩

end Blocks

/-! ## A concrete engine -/

/-- SQLite's error texts. -/
def ConstraintKind.sqliteText : ConstraintKind → String
  | .notNull => "NOT NULL constraint failed"
  | .unique => "UNIQUE constraint failed"
  | .foreignKey => "FOREIGN KEY constraint failed"

/-- An engine that fails only when the flush does, with SQLite's texts. -/
def sqliteCommit (db : Database) (Δ : List Change) : Except CommitError Database :=
  match h : flush db.store Δ with
  | .ok s' => .ok ⟨s', flush_valid db.valid h⟩
  | .error (.integrity k) => .error (.integrityError k.sqliteText k.sqliteText)
  | .error .assertion => .error (.other "Dependency rule tried to blank-out primary key column")
  | .error .staleData => .error (.other "UPDATE statement on table expected to update 1 row(s)")

theorem sqliteCommit_of_ok {db : Database} {Δ : List Change} {s' : Store}
    (h : flush db.store Δ = .ok s') : sqliteCommit db Δ = .ok ⟨s', flush_valid db.valid h⟩ := by
  unfold sqliteCommit
  split <;> rename_i heq <;> rw [h] at heq <;> cases heq
  rfl

theorem sqliteCommit_of_integrity {db : Database} {Δ : List Change} {k : ConstraintKind}
    (h : flush db.store Δ = .error (.integrity k)) :
    sqliteCommit db Δ = .error (.integrityError k.sqliteText k.sqliteText) := by
  unfold sqliteCommit
  split <;> rename_i heq <;> rw [h] at heq <;> cases heq
  rfl

/-- The result depends on nothing but the flush. -/
theorem sqliteCommit_congr {db db' : Database} {Δ Δ' : List Change}
    (h : flush db.store Δ = flush db'.store Δ') : sqliteCommit db Δ = sqliteCommit db' Δ' := by
  cases hf : flush db'.store Δ' with
  | ok s' => rw [sqliteCommit_of_ok hf, sqliteCommit_of_ok (h.trans hf)]
  | error e =>
    have hboth : ∀ {db : Database} {Δ : List Change}, flush db.store Δ = .error e →
        sqliteCommit db Δ = .error (match e with
          | .integrity k => .integrityError k.sqliteText k.sqliteText
          | .assertion => .other "Dependency rule tried to blank-out primary key column"
          | .staleData => .other "UPDATE statement on table expected to update 1 row(s)") := by
      intro db Δ hf
      unfold sqliteCommit
      split <;> rename_i heq <;> rw [hf] at heq <;> cases heq <;> rfl
    rw [hboth hf, hboth (h.trans hf)]

/-- SQLite. -/
def Engine.sqlite : Engine where
  commit := sqliteCommit
  committed db Δ db' h := by
    unfold sqliteCommit at h
    split at h <;> cases h
    assumption
  refused db Δ k h := by
    refine ⟨_, _, sqliteCommit_of_integrity h, ?_⟩
    cases k
    · exact ⟨"not null", by decide, by decide⟩
    · exact ⟨"unique", by decide, by decide⟩
    · exact ⟨"foreign key", by decide, by decide⟩
  violated db Δ orig msg h := by
    unfold sqliteCommit at h
    split at h <;> cases h
    exact ⟨_, by assumption⟩
  dialect := .sqlite
  like := Text.Dialect.sqlite.like
  documented := Text.Dialect.sqlite.documents
  -- answered through the index of the unique constraint, whose second column is the name
  communitiesOf s entityId :=
    (s.communities.filter fun c => decide (c.entityId = entityId)).insertionSort
      fun c c' => c'.name.toList.lex c.name.toList (fun a b => a.toNat.blt b.toNat) = false
  listed s entityId := List.perm_insertionSort _ _
  -- in short: no message that is looked at shows an object
  routeText _ r := "Route(id='" ++ r.id ++ "', ...)"
  communityText _ c := "Community(id='" ++ c.id ++ "', ...)"

theorem Engine.sqlite_reliable : Engine.sqlite.Reliable :=
  fun _ _ _ h => ⟨_, sqliteCommit_of_ok h⟩

end RouteRegistry
