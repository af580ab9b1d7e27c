import RouteRegistry.Registry.Transactions
import RouteRegistry.Registry.Updates
import RouteRegistry.Relational.Runs

/-!
# The registry as a system

API calls, tasks and tracker passes run at the same time; each block commits at once, so
a run is an interleaving of blocks.

- `System`: the database, the clock, and the passes of `check_routes` in flight. A pass
  reads the clock, then lists the active routes, then works through the list as it read
  it: one update and one look at the age for each route.
- `step`: one event. `step_db` says what an event can do to the database.
- `checkRoutes_isRun`: the loop of `check_routes`, run on its own, is such a run.
-/

namespace RouteRegistry

open Relational UnitOfWork Runs

/-- Where a pass stands. -/
inductive Stage where
  /-- The clock is read, the list is not. -/
  | opened
  /-- The first of these routes is to be updated next. -/
  | atRoutes (routes : List Route)
  /-- `route` has been updated; its age is to be looked at. -/
  | updated (route : Route) (rest : List Route)
deriving DecidableEq, Repr

/-- A run of `check_routes` in flight. -/
structure Pass where
  now : Time
  staleDuration : Nat
  stage : Stage := .opened
deriving DecidableEq, Repr

structure System where
  db : Database
  clock : Time
  passes : List Pass := []

inductive Event where
  | tick (t : Time)
  /-- A block of an API call or a task. -/
  | transact (t : Transaction)
  | openPass (staleDuration : Nat)
  | passList (i : Nat)
  | passUpdate (i : Nat) (fetch : Fetch)
  | passDecide (i : Nat)

/-- The system with a new database, and its pass `i` at a new stage. -/
def System.moved (s : System) (db : Database) (i : Nat) (stage : Stage) : System :=
  { s with db := db, passes := s.passes.modify i fun p => { p with stage := stage } }

/-- `list_active`; an exception ends the pass. -/
def Pass.list (eng : Engine) (s : System) (i : Nat) : System :=
  match withUOW eng RouteRepo.listActive s.db with
  | .ok routes db => s.moved db i (.atRoutes routes)
  | .error _ db => s.moved db i (.atRoutes [])

/-- The id a pass calls `unverify_route` with when it looks at the age of its route. -/
def Pass.unverifies (pendulum : Pendulum) (p : Pass) : Option String :=
  match p.stage with
  | .updated route _ =>
    if p.staleDuration < pendulum.inDays p.now route.lastContact then some route.id else none
  | _ => none

/-- The look at the age of a route; an exception of `unverify_route` ends the pass. -/
def Pass.decide (eng : Engine) (pendulum : Pendulum) (s : System) (i : Nat) (p : Pass)
    (rest : List Route) : System :=
  match p.unverifies pendulum with
  | some id =>
    match unverifyRoute eng id s.db with
    | .ok _ db => s.moved db i (.atRoutes rest)
    | .error _ db => s.moved db i (.atRoutes [])
  | none => s.moved s.db i (.atRoutes rest)

/-- One event; `none` when the pass it is about is not at that point. -/
def step (eng : Engine) (setup : Setup) (s : System) : Event → Option System
  | .tick t => some { s with clock := t }
  | .transact t => some { s with db := (t.run eng setup s.clock).after s.db }
  | .openPass staleDuration => some { s with passes := s.passes ++ [⟨s.clock, staleDuration, .opened⟩] }
  | .passList i =>
    match s.passes[i]? with
    | some ⟨_, _, .opened⟩ => some (Pass.list eng s i)
    | _ => none
  | .passUpdate i fetch =>
    match s.passes[i]? with
    | some ⟨_, _, .atRoutes (route :: rest)⟩ =>
      some (s.moved ((updateRoute eng setup.schema route.id fetch s.clock).after s.db) i
        (.updated route rest))
    | _ => none
  | .passDecide i =>
    match s.passes[i]? with
    | some ⟨now, staleDuration, .updated route rest⟩ =>
      some (Pass.decide eng setup.pendulum s i ⟨now, staleDuration, .updated route rest⟩ rest)
    | _ => none

variable {eng : Engine} {setup : Setup} {s s' : System}

/-! ## What a step does -/

theorem step_passList {i : Nat} (h : step eng setup s (.passList i) = some s') :
    ∃ now d, s.passes[i]? = some ⟨now, d, .opened⟩ ∧ s' = Pass.list eng s i := by
  simp only [step] at h
  split at h
  · rename_i now d hp
    exact ⟨now, d, hp, (Option.some.inj h).symm⟩
  · cases h

theorem step_passUpdate {i : Nat} {fetch : Fetch}
    (h : step eng setup s (.passUpdate i fetch) = some s') :
    ∃ now d route rest, s.passes[i]? = some ⟨now, d, .atRoutes (route :: rest)⟩ ∧
      s' = s.moved ((updateRoute eng setup.schema route.id fetch s.clock).after s.db) i
        (.updated route rest) := by
  simp only [step] at h
  split at h
  · rename_i now d route rest hp
    exact ⟨now, d, route, rest, hp, (Option.some.inj h).symm⟩
  · cases h

theorem step_passDecide {i : Nat} (h : step eng setup s (.passDecide i) = some s') :
    ∃ now d route rest, s.passes[i]? = some ⟨now, d, .updated route rest⟩ ∧
      s' = Pass.decide eng setup.pendulum s i ⟨now, d, .updated route rest⟩ rest := by
  simp only [step] at h
  split at h
  · rename_i now d route rest hp
    exact ⟨now, d, route, rest, hp, (Option.some.inj h).symm⟩
  · cases h

/-- `update_route` does to the store what its block does. -/
theorem updateRoute_after (setup : Setup) (id : String) (fetch : Fetch) (now : Time)
    (db : Database) :
    (updateRoute eng setup.schema id fetch now).after db =
      ((Transaction.updateRoute id fetch).run eng setup now).after db := by
  show (updateRoute eng setup.schema id fetch now).after db =
    (withUOW eng (updateRouteBody id fetch setup.schema now)).after db
  unfold Service.after
  cases h : withUOW eng (updateRouteBody id fetch setup.schema now) db with
  | error e db' => rw [updateRoute_of_block_error h]
  | ok res db' =>
    cases res with
    | none => rw [updateRoute_of_block h]
    | some e => rw [updateRoute_of_block_caught h]

theorem Pass.list_db (eng : Engine) (s : System) (i : Nat) : (Pass.list eng s i).db = s.db := by
  have hrun : (RouteRepo.listActive.run s.db.store).2 = [] := rfl
  unfold Pass.list
  rcases withUOW_readonly eng hrun with ⟨routes, h⟩ | ⟨e, h⟩
  · rw [h]
    rfl
  · rw [h]
    rfl

/-- The database after a look at the age: as it was, or after `unverify_route`. -/
theorem Pass.decide_db (eng : Engine) (pendulum : Pendulum) (s : System) (i : Nat) (p : Pass)
    (rest : List Route) :
    (Pass.decide eng pendulum s i p rest).db =
      match p.unverifies pendulum with
      | some id => (unverifyRoute eng id).after s.db
      | none => s.db := by
  unfold Pass.decide
  cases p.unverifies pendulum with
  | some id =>
    unfold Service.after
    dsimp only
    cases unverifyRoute eng id s.db <;> rfl
  | none => rfl

/-- A pass calls `unverify_route` for the route it has just updated, if that is too old. -/
theorem Pass.unverifies_eq_some {pendulum : Pendulum} {p : Pass} {id : String} :
    p.unverifies pendulum = some id ↔
      ∃ route rest, p.stage = .updated route rest ∧ route.id = id ∧
        p.staleDuration < pendulum.inDays p.now route.lastContact := by
  obtain ⟨now, d, stage⟩ := p
  cases stage with
  | updated route rest => simp [Pass.unverifies, and_comm]
  | _ => simp [Pass.unverifies]

/-- **What an event does to the database**: nothing, or a block, which for the events of
a pass updates or unverifies a route. -/
theorem step_db {e : Event} (h : step eng setup s e = some s') :
    s'.db = s.db ∨ ∃ t : Transaction, s'.db = (t.run eng setup s.clock).after s.db ∧
      (e = .transact t ∨ (∃ id fetch, t = .updateRoute id fetch) ∨ ∃ id, t = .unverifyRoute id) := by
  cases e with
  | tick t =>
    cases h
    exact .inl rfl
  | transact t =>
    cases h
    exact .inr ⟨t, rfl, .inl rfl⟩
  | openPass d =>
    cases h
    exact .inl rfl
  | passList i =>
    obtain ⟨now, d, -, rfl⟩ := step_passList h
    exact .inl (Pass.list_db eng s i)
  | passUpdate i fetch =>
    obtain ⟨now, d, route, rest, -, rfl⟩ := step_passUpdate h
    exact .inr ⟨.updateRoute route.id fetch, updateRoute_after setup _ _ _ _,
      .inr (.inl ⟨_, _, rfl⟩)⟩
  | passDecide i =>
    obtain ⟨now, d, route, rest, -, rfl⟩ := step_passDecide h
    rw [Pass.decide_db]
    split
    · exact .inr ⟨.unverifyRoute _, rfl, .inr (.inr ⟨_, rfl⟩)⟩
    · exact .inl rfl

/-! ## The loop of `check_routes` is a run -/

section Loop

variable {pendulum : Pendulum} {schema : Json.Schema} {d : Nat} {now : Time} {env : PassEnv}

/-- The body of the loop: an update whose exception is dropped, then the age. -/
theorem checkRoute_eq (route : Route) (db : Database) :
    checkRoute eng pendulum schema d now env route db =
      (if d < pendulum.inDays now route.lastContact then unverifyRoute eng route.id else pure ())
        ((updateRoute eng schema route.id (env.fetch route.id) (env.clock route.id)).after db) := by
  unfold checkRoute Service.after
  show EStateM.bind (EStateM.tryCatch _ _) _ db = _
  unfold EStateM.bind EStateM.tryCatch
  cases updateRoute eng schema route.id (env.fetch route.id) (env.clock route.id) db <;> rfl

theorem forM_checkRoute_cons (route : Route) (rest : List Route) (db : Database) :
    (route :: rest).forM (checkRoute eng pendulum schema d now env) db =
      match checkRoute eng pendulum schema d now env route db with
      | .ok _ db' => rest.forM (checkRoute eng pendulum schema d now env) db'
      | .error e db' => .error e db' := by
  show EStateM.bind _ _ db = _
  unfold EStateM.bind
  cases checkRoute eng pendulum schema d now env route db <;> rfl

/-- The last pass of a system moves on. -/
theorem moved_last (db db' : Database) (clock : Time) (ps : List Pass) (p : Pass) (stage : Stage) :
    System.moved ⟨db, clock, ps ++ [p]⟩ db' ps.length stage =
      ⟨db', clock, ps ++ [{ p with stage := stage }]⟩ := by
  have hmodify : ∀ (ps : List Pass) (f : Pass → Pass),
      (ps ++ [p]).modify ps.length f = ps ++ [f p] := by
    intro ps f
    induction ps with
    | nil => rfl
    | cons q ps ih => exact congrArg (q :: ·) ih
  unfold System.moved
  rw [hmodify]

/-- One round of the loop, as the last pass of the system: the clock is set, the route
is updated, its age is looked at. -/
theorem run_checkRoute (eng : Engine) (setup : Setup) (d : Nat) (now : Time) (env : PassEnv)
    (ps : List Pass) (route : Route) (rest : List Route) (clock : Time) (db : Database)
    (es : List Event) :
    run (step eng setup) ⟨db, clock, ps ++ [⟨now, d, .atRoutes (route :: rest)⟩]⟩
        (.tick (env.clock route.id) :: .passUpdate ps.length (env.fetch route.id) ::
          .passDecide ps.length :: es) =
      run (step eng setup) (Pass.decide eng setup.pendulum
        ⟨(updateRoute eng setup.schema route.id (env.fetch route.id)
          (env.clock route.id)).after db, env.clock route.id,
          ps ++ [⟨now, d, .updated route rest⟩]⟩ ps.length ⟨now, d, .updated route rest⟩
          rest) es := by
  have hupdate : step eng setup ⟨db, env.clock route.id, ps ++ [⟨now, d, .atRoutes (route :: rest)⟩]⟩
      (.passUpdate ps.length (env.fetch route.id)) =
        some ⟨(updateRoute eng setup.schema route.id (env.fetch route.id)
          (env.clock route.id)).after db, env.clock route.id,
          ps ++ [⟨now, d, .updated route rest⟩]⟩ := by
    simp [step, moved_last]
  rw [run_cons (show step eng setup _ (.tick (env.clock route.id)) = some _ from rfl),
    run_cons hupdate, run_cons]
  simp [step]

/-- The rest of the loop, as the last pass of the system. -/
theorem forM_checkRoute_isRun (eng : Engine) (setup : Setup) (d : Nat) (now : Time)
    (env : PassEnv) (routes : List Route) (clock : Time) (ps : List Pass) (db : Database) :
    ∃ es s', run (step eng setup) ⟨db, clock, ps ++ [⟨now, d, .atRoutes routes⟩]⟩ es = some s' ∧
      s'.db = Service.after (routes.forM (checkRoute eng setup.pendulum setup.schema d now env)) db ∧
      ∀ t, .transact t ∉ es := by
  induction routes generalizing clock db with
  | nil => exact ⟨[], _, rfl, rfl, by simp⟩
  | cons route rest ih =>
    have hloop : (route :: rest).forM (checkRoute eng setup.pendulum setup.schema d now env) db = _ :=
      forM_checkRoute_cons route rest db
    have hround := run_checkRoute eng setup d now env ps route rest clock db
    rw [checkRoute_eq] at hloop
    generalize (updateRoute eng setup.schema route.id (env.fetch route.id)
      (env.clock route.id)).after db = db₁ at hloop hround
    by_cases hstale : d < setup.pendulum.inDays now route.lastContact
    · rw [if_pos hstale] at hloop
      cases hun : unverifyRoute eng route.id db₁ with
      | ok u db₂ =>
        rw [hun] at hloop
        obtain ⟨es, s', hrun, hdb, hes⟩ := ih (env.clock route.id) db₂
        refine ⟨_, s', (hround es).trans (Eq.trans ?_ hrun), hdb.trans ?_, by simpa using hes⟩
        · simp [Pass.decide, Pass.unverifies, hstale, hun, moved_last]
        · unfold Service.after
          rw [hloop]
      | error e db₂ =>
        rw [hun] at hloop
        refine ⟨_, _, (hround []).trans rfl, ?_, by simp⟩
        rw [Service.after_of_error hloop, Pass.decide_db,
          Pass.unverifies_eq_some.mpr ⟨route, rest, rfl, rfl, hstale⟩]
        exact Service.after_of_error hun
    · rw [if_neg hstale] at hloop
      obtain ⟨es, s', hrun, hdb, hes⟩ := ih (env.clock route.id) db₁
      refine ⟨_, s', (hround es).trans (Eq.trans ?_ hrun), hdb.trans ?_, by simpa using hes⟩
      · simp [Pass.decide, Pass.unverifies, hstale, moved_last]
      · unfold Service.after
        rw [hloop]
        rfl

/-- **`check_routes`, run on its own, is a run of the system**, whatever passes there
have been before. -/
theorem checkRoutes_isRun (eng : Engine) (setup : Setup) (d : Nat) (now : Time) (env : PassEnv)
    (s : System) :
    ∃ es s', run (step eng setup) s es = some s' ∧
      s'.db = (checkRoutes eng setup.pendulum setup.schema d now env).after s.db ∧
      ∀ t, .transact t ∉ es := by
  obtain ⟨db, clock, ps⟩ := s
  have hopen : ∀ es, run (step eng setup) ⟨db, clock, ps⟩
      (.tick now :: .openPass d :: .passList ps.length :: es) =
      run (step eng setup) (Pass.list eng ⟨db, now, ps ++ [⟨now, d, .opened⟩]⟩ ps.length) es := by
    intro es
    rw [run_cons (show step eng setup _ (.tick now) = some _ from rfl),
      run_cons (show step eng setup _ (.openPass d) = some _ from rfl), run_cons]
    simp [step]
  cases hlist : withUOW eng RouteRepo.listActive db with
  | error e db' =>
    refine ⟨_, _, (hopen []).trans rfl, ?_, by simp⟩
    have hcheck : checkRoutes eng setup.pendulum setup.schema d now env db = .error e db' :=
      (Service.bind_of_error hlist :)
    rw [Service.after_of_error hcheck, Pass.list_db]
    exact (withUOW_error hlist).symm
  | ok routes db' =>
    obtain ⟨es, s', hrun, hdb, hes⟩ :=
      forM_checkRoute_isRun eng setup d now env routes now ps db'
    have hcheck : checkRoutes eng setup.pendulum setup.schema d now env db =
        routes.forM (checkRoute eng setup.pendulum setup.schema d now env) db' :=
      (Service.bind_of_ok hlist :)
    refine ⟨_, s', (hopen es).trans (Eq.trans ?_ hrun), hdb.trans ?_, by simpa using hes⟩
    · simp [Pass.list, hlist, moved_last]
    · unfold Service.after
      rw [hcheck]

end Loop

end RouteRegistry
