import RouteRegistry.Registry.Tasks

/-!
# The deployed registry

Servers, workers and trackers share one database and one queue. A request goes through its
guard, then through its handler, and anything may happen in between; a registration stops once
more, between the lookup of its community and the block that registers.

Each `with UOW()` block is a single step here: blocks run one at a time, as under serializable
isolation. What two blocks do to each other between their queries and commits is the matter of
`Defaults`, `NameRace` and `RuleRace`.

- `Server.proceed`: the next step of a request in flight, with `Proceeds` for all it can do.
- `act`: one activity of the deployment, and `Activity.Does` the event of `System` it is.
- `deployment_refines`: a run of the deployment is a run of `System`, and what is known of the
  activities is known of its events.
-/

namespace RouteRegistry

open UnitOfWork Calls Runs

/-! ## Requests in flight -/

/-- Where a request stands. -/
inductive CallStage where
  | arrived
  | refused (e : Exc)
  /-- The guard let the request through. -/
  | admitted (since : Time) (admitted : Admitted)
  /-- A registration has looked for its community. -/
  | located (since : Time) (params : List String) (user : User) (data : RegistrationRequest)
      (community : Option Community)
  | answered (since : Time) (admitted : Admitted) (now : Time) (outcome : Except Exc Reply)

/-- A request, with what it meets. -/
structure InFlight where
  env : Env
  request : HttpRequest
  stage : CallStage := .arrived

/-- What a handler returns or raises is the answer. -/
def settle (since : Time) (admitted : Admitted) (now : Time) :
    EStateM.Result Exc Backend Reply → Backend × CallStage
  | .ok reply b => (b, .answered since admitted now (.ok reply))
  | .error e b => (b, .answered since admitted now (.error e))

/-- A registration looks for its community. -/
def Server.seek (server : Server) (now : Time) (b : Backend) (call : InFlight) (since : Time)
    (params : List String) (user : User) : Backend × CallStage :=
  match call.request.body with
  | some (.registration data) =>
    match onStore (server.locate user data) b with
    | .ok community b' => (b', .located since params user data community)
    | .error e b' => (b', .answered since ⟨.register, params, user⟩ now (.error e))
  | _ => (b, .answered since ⟨.register, params, user⟩ now (.error unprocessable))

/-- The next step of a request. -/
def Server.proceed (server : Server) (now : Time) (b : Backend) (call : InFlight) :
    Option (Backend × CallStage) :=
  match call.stage with
  | .arrived =>
    match onStore (server.admission call.env now call.request) b with
    | .ok admitted b' => some (b', .admitted now admitted)
    | .error e b' => some (b', .refused e)
  | .admitted since ⟨.register, params, user⟩ => some (server.seek now b call since params user)
  | .admitted since admitted =>
    some (settle since admitted now (server.handle call.env now call.request admitted b))
  | .located since params user data community =>
    some (settle since ⟨.register, params, user⟩ now
      (server.registerLocated call.env now user data community b))
  | .refused _ | .answered _ _ _ _ => none

/-- Everything the next step of a request can be. -/
inductive Proceeds (server : Server) (now : Time) (b : Backend) (call : InFlight) :
    Backend → CallStage → Prop where
  | admitted {a : Admitted} (stage : call.stage = .arrived)
      (guard : server.admission call.env now call.request b.db = .ok a b.db) :
      Proceeds server now b call b (.admitted now a)
  | refused {e : Exc} (stage : call.stage = .arrived) : Proceeds server now b call b (.refused e)
  | located {since : Time} {params : List String} {user : User} {data : RegistrationRequest}
      {community : Option Community}
      (stage : call.stage = .admitted since ⟨.register, params, user⟩)
      (body : call.request.body = some (.registration data))
      (lookup : server.locate user data b.db = .ok community b.db) :
      Proceeds server now b call b (.located since params user data community)
  | unlocated {since : Time} {params : List String} {user : User} {e : Exc}
      (stage : call.stage = .admitted since ⟨.register, params, user⟩) :
      Proceeds server now b call b (.answered since ⟨.register, params, user⟩ now (.error e))
  | registered {since : Time} {params : List String} {user : User} {data : RegistrationRequest}
      {community : Option Community} {reply : Reply} {b' : Backend}
      (stage : call.stage = .located since params user data community)
      (run : server.registerLocated call.env now user data community b = .ok reply b') :
      Proceeds server now b call b' (.answered since ⟨.register, params, user⟩ now (.ok reply))
  | unregistered {since : Time} {params : List String} {user : User} {data : RegistrationRequest}
      {community : Option Community} {e : Exc} {b' : Backend}
      (stage : call.stage = .located since params user data community)
      (run : server.registerLocated call.env now user data community b = .error e b') :
      Proceeds server now b call b' (.answered since ⟨.register, params, user⟩ now (.error e))
  | rotated {since : Time} {params : List String} {route : Route} {b' : Backend}
      {outcome : Except Exc Reply} (stage : call.stage = .admitted since ⟨.jwt, params, route⟩)
      (run : settle since ⟨.jwt, params, route⟩ now (server.rotate call.env now route b) =
        (b', .answered since ⟨.jwt, params, route⟩ now outcome)) :
      Proceeds server now b call b' (.answered since ⟨.jwt, params, route⟩ now outcome)
  | called {since : Time} {a : Admitted} {db : Database} {outcome : Except Exc Reply}
      (stage : call.stage = .admitted since a) (other : a.handler ≠ .register ∧ a.handler ≠ .jwt)
      (run : settle since a now (onStore
        (server.call call.env call.request a.params a.handler a.caller) b) =
          (b.withDb db, .answered since a now outcome)) :
      Proceeds server now b call (b.withDb db) (.answered since a now outcome)

section Proceeds

variable {server : Server} {now : Time} {b b' : Backend} {call : InFlight} {stage : CallStage}

theorem settle_snd (since : Time) (a : Admitted) (now : Time)
    (res : EStateM.Result Exc Backend Reply) :
    ∃ outcome, (settle since a now res).2 = .answered since a now outcome := by
  cases res <;> exact ⟨_, rfl⟩

theorem seek_proceeds (server : Server) (now : Time) (b : Backend) {since : Time}
    {params : List String} {user : User}
    (hstage : call.stage = .admitted since ⟨.register, params, user⟩) :
    Proceeds server now b call (server.seek now b call since params user).1
      (server.seek now b call since params user).2 := by
  have hread : ∀ data, ReadOnly (onStore (server.locate user data)) := fun data =>
    ((readOnly_registrationCommunity _ _ _).tryCatch fun _ => readOnly_throw _).within
      Backend.withDb_self
  unfold Server.seek
  cases hbody : call.request.body with
  | none => exact .unlocated hstage
  | some body =>
    cases body with
    | registration data =>
      dsimp only
      cases hlocate : onStore (server.locate user data) b with
      | ok community b' =>
        obtain rfl := (hread data).ok hlocate
        obtain ⟨db, hlookup, hdb⟩ := within_eq_ok.mp hlocate
        have hsame : db = b'.db := congrArg Backend.db hdb
        exact .located hstage hbody (hsame ▸ hlookup)
      | error e b' =>
        obtain rfl := (hread data).error hlocate
        exact .unlocated hstage
    | _ => exact .unlocated hstage

theorem handle_proceeds (server : Server) (now : Time) (b : Backend) {since : Time}
    {a : Admitted} (hstage : call.stage = .admitted since a) (hother : a.handler ≠ .register) :
    Proceeds server now b call
      (settle since a now (server.handle call.env now call.request a b)).1
      (settle since a now (server.handle call.env now call.request a b)).2 := by
  obtain ⟨handler, params, caller⟩ := a
  have hcall : handler ≠ .jwt → Proceeds server now b call
      (settle since ⟨handler, params, caller⟩ now (onStore
        (server.call call.env call.request params handler caller) b)).1
      (settle since ⟨handler, params, caller⟩ now (onStore
        (server.call call.env call.request params handler caller) b)).2 := by
    intro hjwt
    have hdb : ∃ db, (settle since ⟨handler, params, caller⟩ now (onStore
        (server.call call.env call.request params handler caller) b)).1 = b.withDb db := by
      unfold onStore within
      cases server.call call.env call.request params handler caller b.db <;> exact ⟨_, rfl⟩
    obtain ⟨db, hdb⟩ := hdb
    obtain ⟨outcome, houtcome⟩ := settle_snd since ⟨handler, params, caller⟩ now
      (onStore (server.call call.env call.request params handler caller) b)
    rw [hdb, houtcome]
    exact .called hstage ⟨hother, hjwt⟩ (Prod.ext hdb houtcome)
  cases handler with
  | register => exact absurd rfl hother
  | jwt =>
    obtain ⟨outcome, houtcome⟩ := settle_snd since ⟨.jwt, params, caller⟩ now
      (server.rotate call.env now caller b)
    show Proceeds server now b call (settle _ _ _ (server.rotate call.env now caller b)).1 _
    have hsnd : (settle since ⟨.jwt, params, caller⟩ now
        (server.handle call.env now call.request ⟨.jwt, params, caller⟩ b)).2 =
          .answered since ⟨.jwt, params, caller⟩ now outcome := houtcome
    rw [hsnd]
    exact .rotated hstage (Prod.ext rfl houtcome)
  | _ => exact hcall (by decide)

/-- **The next step of a request**, case by case. -/
theorem proceed_cases (h : server.proceed now b call = some (b', stage)) :
    Proceeds server now b call b' stage := by
  have hread : ReadOnly (onStore (server.admission call.env now call.request)) :=
    (readOnly_admission _ _ _ _).within Backend.withDb_self
  unfold Server.proceed at h
  split at h
  · rename_i hstage
    cases hadmission : onStore (server.admission call.env now call.request) b with
    | ok a b₁ =>
      rw [hadmission] at h
      cases h
      obtain rfl := hread.ok hadmission
      obtain ⟨db, hguard, hdb⟩ := within_eq_ok.mp hadmission
      have hsame : db = b'.db := congrArg Backend.db hdb
      exact .admitted hstage (hsame ▸ hguard)
    | error e b₁ =>
      rw [hadmission] at h
      cases h
      obtain rfl := hread.error hadmission
      exact .refused hstage
  · rename_i hstage
    have hseek := seek_proceeds server now b hstage
    rw [Option.some.inj h] at hseek
    exact hseek
  · rename_i since a hne hstage
    have hother : a.handler ≠ .register := by
      intro hregister
      obtain ⟨handler, params, caller⟩ := a
      subst hregister
      exact hne params caller rfl
    have hhandle := handle_proceeds server now b hstage hother
    rw [Option.some.inj h] at hhandle
    exact hhandle
  · rename_i since params user data community hstage
    cases hrun : server.registerLocated call.env now user data community b with
    | ok reply b₁ =>
      rw [hrun] at h
      cases h
      exact .registered hstage hrun
    | error e b₁ =>
      rw [hrun] at h
      cases h
      exact .unregistered hstage hrun
  · cases h
  · cases h

end Proceeds

/-! ## Activities -/

/-- The state of the deployment. -/
structure Deployment where
  sys : System
  queue : List Message := []
  calls : List InFlight := []

def Deployment.backend (d : Deployment) : Backend := ⟨d.sys.db, d.queue⟩

def Deployment.put (d : Deployment) (b : Backend) : Deployment :=
  { d with sys := { d.sys with db := b.db }, queue := b.queue }

/-- What goes on in a deployment. -/
inductive Activity where
  /-- Time passes, or a tracker moves on. -/
  | background (e : Event)
  /-- The two blocks of the command `seed-dev-user`. -/
  | seedUser (user : User)
  | seedFlag (uid : String) (isAdmin : Bool)
  | arrive (env : Env) (request : HttpRequest)
  | advance (i : Nat)
  | attempt (i : Nat) (fetch : Fetch)
  | lose (i : Nat)

/-- A block on the database of the deployment. -/
def Deployment.transact (d : Deployment) (server : Server) (t : Transaction) : Deployment :=
  { d with sys := { d.sys with db := (t.run server.eng server.setup d.sys.clock).after d.sys.db } }

/-- One activity; `none` when it cannot happen there. -/
def act (server : Server) (table : TaskTable) (d : Deployment) : Activity → Option Deployment
  | .background (.transact _) => none
  | .background e => (step server.eng server.setup d.sys e).map fun sys => { d with sys := sys }
  | .seedUser user => some (d.transact server (.createUser user))
  | .seedFlag uid isAdmin => some (d.transact server (.reconcileAdmin uid isAdmin))
  | .arrive env request => some { d with calls := d.calls ++ [⟨env, request, .arrived⟩] }
  | .advance i =>
    match d.calls[i]? with
    | none => none
    | some call =>
      (server.proceed d.sys.clock d.backend call).map fun (b, stage) =>
        { d.put b with calls := d.calls.set i { call with stage := stage } }
  | .attempt i fetch =>
    (attempt server.eng server.setup table d.sys.clock fetch i d.backend).map d.put
  | .lose i => (lose i d.backend).map d.put

@[simp] theorem Deployment.put_backend (d : Deployment) (b : Backend) : (d.put b).backend = b := rfl

@[simp] theorem Deployment.put_calls (d : Deployment) (b : Backend) :
    (d.put b).calls = d.calls := rfl

/-- The block a request runs in its next step. -/
inductive InFlight.Runs (server : Server) (now : Time) (call : InFlight) : Transaction → Prop where
  | block {since : Time} {a : Admitted} {t : Transaction} (stage : call.stage = .admitted since a)
      (block : Server.block call.env call.request a.params a.handler a.caller = some t) :
      InFlight.Runs server now call t
  | registration {since : Time} {params : List String} {user : User} {data : RegistrationRequest}
      {community : Option Community}
      (stage : call.stage = .located since params user data community) :
      InFlight.Runs server now call (.registerRoute
        ⟨Text.fieldText user.uid, data.name, data.domainName, server.url.tunnelUrl,
          server.url.bindSubdomain, community⟩
        ⟨now, call.env.uuid, call.env.token, call.env.nameId⟩)

section Activities

variable {server : Server} {table : TaskTable} {d d' : Deployment} {now : Time} {b b' : Backend}
  {call : InFlight} {stage : CallStage}

theorem registration_after (server : Server) (env : Env) (now : Time) (user : User)
    (data : RegistrationRequest) (community : Option Community) (db : Database) :
    (server.registration env now user data community).after db =
      ((Transaction.registerRoute ⟨Text.fieldText user.uid, data.name, data.domainName,
        server.url.tunnelUrl, server.url.bindSubdomain, community⟩
        ⟨now, env.uuid, env.token, env.nameId⟩).run server.eng server.setup now).after db :=
  Service.after_throw _ _ db

/-- A registration that is refused changes nothing; whatever else happens, it is its block that
decides what becomes of the store. -/
theorem registerLocated_after {env : Env} {user : User} {data : RegistrationRequest}
    {community : Option Community}
    (h : (∃ reply, server.registerLocated env now user data community b = .ok reply b') ∨
      ∃ e, server.registerLocated env now user data community b = .error e b') :
    b'.db = b.db ∨ b'.db = (server.registration env now user data community).after b.db := by
  rcases h with ⟨reply, h⟩ | ⟨e, h⟩
  · obtain ⟨route, jwt, hreg, -⟩ := registerLocated_ok h
    exact .inr (Service.after_of_ok hreg).symm
  · rcases registerLocated_error h with rfl | ⟨route, hreg, -⟩
    · exact .inl rfl
    · exact .inr (Service.after_of_ok hreg).symm

/-- What a step of a request does to the store: nothing, or what its block does. -/
theorem Proceeds.db (h : Proceeds server now b call b' stage) :
    b'.db = b.db ∨ ∃ t, call.Runs server now t ∧
      b'.db = (t.run server.eng server.setup now).after b.db := by
  cases h with
  | admitted | refused | located | unlocated => exact .inl rfl
  | registered hstage hrun =>
    rcases registerLocated_after (.inl ⟨_, hrun⟩) with hsame | hafter
    · exact .inl hsame
    · exact .inr ⟨_, .registration hstage, hafter.trans (registration_after ..)⟩
  | unregistered hstage hrun =>
    rcases registerLocated_after (.inr ⟨_, hrun⟩) with hsame | hafter
    · exact .inl hsame
    · exact .inr ⟨_, .registration hstage, hafter.trans (registration_after ..)⟩
  | @rotated since params route b' outcome hstage hrun =>
    refine .inl ?_
    cases hrotate : server.rotate call.env now route b with
    | ok reply b₁ =>
      rw [hrotate] at hrun
      cases hrun
      rw [(rotate_ok hrotate).2]
      split <;> rfl
    | error e b₁ =>
      rw [hrotate] at hrun
      cases hrun
      rcases rotate_error hrotate with rfl | ⟨rfl, -⟩ <;> rfl
  | @called since a db outcome hstage hother hrun =>
    have hafter :
        db = (server.call call.env call.request a.params a.handler a.caller).after b.db := by
      unfold onStore within Service.after at *
      cases hcall : server.call call.env call.request a.params a.handler a.caller b.db with
      | ok reply db₁ =>
        rw [hcall] at hrun
        exact (congrArg (fun p => p.1.db) hrun).symm
      | error e db₁ =>
        rw [hcall] at hrun
        exact (congrArg (fun p => p.1.db) hrun).symm
    rw [after_call server call.env now] at hafter
    cases hblock : Server.block call.env call.request a.params a.handler a.caller with
    | none =>
      rw [hblock] at hafter
      exact .inl hafter
    | some t =>
      rw [hblock] at hafter
      exact .inr ⟨t, .block hstage hblock, hafter⟩

/-- Whose block an activity runs. -/
inductive Activity.Runs (server : Server) (d : Deployment) : Activity → Transaction → Prop where
  | request {i : Nat} {call : InFlight} {t : Transaction} (flying : d.calls[i]? = some call)
      (runs : call.Runs server d.sys.clock t) : Activity.Runs server d (.advance i) t
  | task {i : Nat} {fetch : Fetch} {id authzPath : String} {retries : Nat}
      (message : d.queue[i]? = some ⟨.updateRoute id authzPath, retries⟩) :
      Activity.Runs server d (.attempt i fetch) (.updateRoute id fetch)
  | seedUser {user : User} : Activity.Runs server d (.seedUser user) (.createUser user)
  | seedFlag {uid : String} {isAdmin : Bool} :
      Activity.Runs server d (.seedFlag uid isAdmin) (.reconcileAdmin uid isAdmin)

/-- The event of `System` that an activity is. -/
inductive Activity.Does (server : Server) (d : Deployment) : Activity → Event → Prop where
  | background {e : Event} (other : ∀ t, e ≠ .transact t) :
      Activity.Does server d (.background e) e
  | block {a : Activity} {t : Transaction} (runs : a.Runs server d t) :
      Activity.Does server d a (.transact t)

/-- A request that moves on. -/
theorem act_advance {i : Nat} (h : act server table d (.advance i) = some d') :
    ∃ call b stage, d.calls[i]? = some call ∧ Proceeds server d.sys.clock d.backend call b stage ∧
      d' = { d.put b with calls := d.calls.set i { call with stage := stage } } := by
  unfold act at h
  dsimp only at h
  split at h
  · cases h
  · rename_i call hcall
    obtain ⟨⟨b, stage⟩, hproceed, rfl⟩ := Option.map_eq_some_iff.mp h
    exact ⟨call, b, stage, hcall, proceed_cases hproceed, rfl⟩

theorem act_background {e : Event} (h : act server table d (.background e) = some d') :
    (∀ t, e ≠ .transact t) ∧ ∃ sys, step server.eng server.setup d.sys e = some sys ∧
      d' = { d with sys := sys } := by
  have hmap : (∀ t, e ≠ .transact t) →
      (step server.eng server.setup d.sys e).map (fun sys => { d with sys := sys }) = some d' →
      ∃ sys, step server.eng server.setup d.sys e = some sys ∧ d' = { d with sys := sys } := by
    intro _ h
    obtain ⟨sys, hstep, rfl⟩ := Option.map_eq_some_iff.mp h
    exact ⟨sys, hstep, rfl⟩
  cases e with
  | transact t => cases h
  | _ => exact ⟨fun t ht => (by cases ht), hmap (fun t ht => (by cases ht)) h⟩

/-- A block of `System` that leaves the clock and the passes alone. -/
theorem step_transact_of {t : Transaction} (hsys : d'.sys = { d.sys with db := d'.sys.db })
    (hdb : d'.sys.db = (t.run server.eng server.setup d.sys.clock).after d.sys.db) :
    step server.eng server.setup d.sys (.transact t) = some d'.sys := by
  rw [hsys, hdb]
  rfl

/-- **An activity is at most one event of `System`.** -/
theorem act_simulates {e : Activity} (h : act server table d e = some d') :
    d'.sys = d.sys ∨ ∃ ev, e.Does server d ev ∧
      step server.eng server.setup d.sys ev = some d'.sys := by
  cases e with
  | background ev =>
    obtain ⟨hnot, sys, hstep, rfl⟩ := act_background h
    exact .inr ⟨ev, .background hnot, hstep⟩
  | seedUser user =>
    cases h
    exact .inr ⟨_, .block .seedUser, rfl⟩
  | seedFlag uid isAdmin =>
    cases h
    exact .inr ⟨_, .block .seedFlag, rfl⟩
  | arrive env request =>
    cases h
    exact .inl rfl
  | advance i =>
    obtain ⟨call, b, stage, hcall, hproceeds, rfl⟩ := act_advance h
    rcases hproceeds.db with hsame | ⟨t, ht, hdb⟩
    · exact .inl (by rw [Deployment.put, hsame]; rfl)
    · exact .inr ⟨_, .block (.request hcall ht), step_transact_of rfl hdb⟩
  | attempt i fetch =>
    obtain ⟨b, hattempt, rfl⟩ := Option.map_eq_some_iff.mp h
    obtain ⟨⟨task, retries⟩, hm, hdb, -⟩ := attempt_cases hattempt
    rcases Task.after_run server.eng server.setup d.sys.clock fetch task d.backend.db with
      hsame | ⟨id, authzPath, rfl, hafter⟩
    · exact .inl (by rw [Deployment.put, hdb.trans hsame]; rfl)
    · exact .inr ⟨_, .block (.task hm), step_transact_of rfl (hdb.trans hafter)⟩
  | lose i =>
    obtain ⟨b, hlose, rfl⟩ := Option.map_eq_some_iff.mp h
    exact .inl (by rw [Deployment.put, (lose_cases hlose).2.1]; rfl)

end Activities

/-- **A deployment refines the system of its blocks.** Whatever requests, tasks and trackers do in
between each other, what becomes of the store, the clock and the passes is what a run of `System`
makes of them; and what the activities satisfy, its events do. -/
theorem deployment_refines (server : Server) (table : TaskTable)
    (P : Deployment → Activity → Prop) (Q : System → Event → Prop)
    (hQ : ∀ d e ev, P d e → e.Does server d ev → Q d.sys ev)
    (d d' : Deployment) (es : List Activity) (hP : Along (act server table) P d es)
    (hrun : run (act server table) d es = some d') :
    ∃ events, run (step server.eng server.setup) d.sys events = some d'.sys ∧
      Along (step server.eng server.setup) Q d.sys events := by
  refine run_simulates Deployment.sys (fun d e d' hp hact => ?_) hP hrun
  exact (act_simulates hact).imp_right fun ⟨ev, hdoes, hstep⟩ => ⟨ev, hQ d e ev hp hdoes, hstep⟩

/-- Nothing is under way yet, and there is one route. -/
def launched : Deployment where
  sys := ⟨oneRoute, 0, []⟩

/-- A registration is a run of blocks, none of which validates a route. -/
theorem deployment_refines_site : ∃ d' events,
    run (act (smallServer []) {}) launched
        [.arrive calmEnv siteRegistration, .advance 0, .advance 0, .advance 0] = some d' ∧
      run (step .sqlite (smallServer []).setup) launched.sys events = some d'.sys ∧
      Along (step .sqlite (smallServer []).setup)
        (fun _ ev => ∀ id fetch, ev ≠ .transact (.validateRoute id fetch)) launched.sys events := by
  have hends : (run (act (smallServer []) {}) launched
      [.arrive calmEnv siteRegistration, .advance 0, .advance 0, .advance 0]).isSome := by
    decide +kernel
  obtain ⟨d', hrun⟩ := Option.isSome_iff_exists.mp hends
  have hblocks : ∀ (d : Deployment) (e : Activity) (ev : Event), True →
      e.Does (smallServer []) d ev → ∀ id fetch, ev ≠ .transact (.validateRoute id fetch) := by
    rintro d e ev - hdoes id fetch rfl
    cases hdoes with
    | background hnot => exact hnot _ rfl
    | block hruns =>
      cases hruns with
      | request hcall hruns =>
        cases hruns with
        | @block since a t hstage hblock =>
          obtain ⟨handler, params, caller⟩ := a
          cases block_cases hblock
  obtain ⟨events, hevents, halong⟩ := deployment_refines (smallServer []) {} (fun _ _ => True)
    (fun _ ev => ∀ id fetch, ev ≠ .transact (.validateRoute id fetch)) hblocks launched d' _
    (along_of_forall fun _ _ => trivial) hrun
  exact ⟨d', events, hrun, hevents, halong⟩

/-- What the changes keep that an activity may make, the activity keeps. -/
theorem act_keeps {server : Server} {table : TaskTable} {d d' : Deployment} {e : Activity}
    {I : Store → Prop} (h : act server table d e = some d')
    (hkeep : ∀ t, (e.Runs server d t ∨ (∃ id fetch, t = .updateRoute id fetch) ∨
      ∃ id, t = .unverifyRoute id) → ∀ c, t.mayQueue d.sys.clock c → ∀ s, I s → I (c.effect s))
    (hI : I d.sys.db.store) : I d'.sys.db.store := by
  have hblock : ∀ t, (e.Runs server d t ∨ (∃ id fetch, t = .updateRoute id fetch) ∨
      ∃ id, t = .unverifyRoute id) →
      I ((t.run server.eng server.setup d.sys.clock).after d.sys.db).store := by
    intro t ht
    rcases t.after_cases server.eng server.setup d.sys.clock d.sys.db with hsame | ⟨Δ, hf, hmay⟩
    · rw [hsame]
      exact hI
    · exact flush_keeps (fun s hs c hc => hkeep t ht c (hmay c hc) s hs) hf hI
  rcases act_simulates h with hsame | ⟨ev, hdoes, hstep⟩
  · rw [hsame]
    exact hI
  · cases hdoes with
    | background hnot =>
      rcases step_db hstep with hsame | ⟨t, hdb, rfl | htracker⟩
      · rw [hsame]
        exact hI
      · exact absurd rfl (hnot t)
      · rw [hdb]
        exact hblock t (.inr htracker)
    | block hruns =>
      rw [← Option.some.inj hstep]
      exact hblock _ (.inl hruns)

/-! ## A request on its own -/

/-- How a request was answered that left the backend `b`. -/
def CallStage.outcome (b : Backend) : CallStage → Option (EStateM.Result Exc Backend HttpResponse)
  | .refused e => some (.error e b)
  | .answered _ a _ (.ok reply) => some (.ok ⟨a.code reply, reply⟩ b)
  | .answered _ _ _ (.error e) => some (.error e b)
  | _ => none

/-- The deployment with another backend, and its request `i` replaced. -/
def Deployment.moved (d : Deployment) (i : Nat) (b : Backend) (call : InFlight) : Deployment :=
  { d.put b with calls := d.calls.set i call }

section Alone

variable {server : Server} {table : TaskTable} {d : Deployment} {i : Nat} {b b' : Backend}
  {call : InFlight} {stage : CallStage}

theorem Deployment.moved_self (h : d.calls[i]? = some call) : d.moved i d.backend call = d := by
  obtain ⟨hi, rfl⟩ := List.getElem?_eq_some_iff.mp h
  unfold Deployment.moved
  rw [List.set_getElem_self]
  rfl

/-- The request moves on, wherever it stands. -/
theorem act_moved (table : TaskTable) (hi : i < d.calls.length)
    (h : server.proceed d.sys.clock b call = some (b', stage)) :
    act server table (d.moved i b call) (.advance i) =
      some (d.moved i b' { call with stage := stage }) := by
  have hcall : (d.moved i b call).calls[i]? = some call := List.getElem?_set_self hi
  have hproceed : server.proceed (d.moved i b call).sys.clock (d.moved i b call).backend call =
      some (b', stage) := h
  unfold act
  simp only [hcall, hproceed, Option.map_some]
  unfold Deployment.moved
  simp only [List.set_set]
  rfl

/-- How a handler ends is how the request is answered. -/
theorem settle_outcome (since : Time) (a : Admitted) (now : Time) (action : Action Reply)
    (b : Backend) :
    (settle since a now (action b)).2.outcome (settle since a now (action b)).1 =
      some ((do let reply ← action; return ⟨a.code reply, reply⟩ : Action HttpResponse) b) := by
  cases h : action b with
  | ok reply b' =>
    rw [bind_of_ok h]
    rfl
  | error e b' =>
    rw [bind_of_error h]
    rfl

/-- The two steps of a registration do what its handler does. -/
theorem register_alone (hi : i < d.calls.length) (env : Env) (request : HttpRequest) (since : Time)
    (params : List String) (user : User) (b : Backend) : ∃ n ≤ 2, ∃ b' stage,
      run (act server table)
          (d.moved i b ⟨env, request, .admitted since ⟨.register, params, user⟩⟩)
          (List.replicate n (.advance i)) = some (d.moved i b' ⟨env, request, stage⟩) ∧
      stage.outcome b' = some ((do
        let reply ← server.register env d.sys.clock request user
        return ⟨Admitted.code ⟨.register, params, user⟩ reply, reply⟩ : Action HttpResponse) b) := by
  -- without a registration in its body, and without its community, the request is answered at once
  have hrefused : ∀ {b' : Backend} {e : Exc},
      server.seek d.sys.clock b ⟨env, request, .admitted since ⟨.register, params, user⟩⟩ since
          params user = (b', .answered since ⟨.register, params, user⟩ d.sys.clock (.error e)) →
      server.register env d.sys.clock request user b = .error e b' →
      ∃ n ≤ 2, ∃ b' stage, run (act server table)
          (d.moved i b ⟨env, request, .admitted since ⟨.register, params, user⟩⟩)
          (List.replicate n (.advance i)) = some (d.moved i b' ⟨env, request, stage⟩) ∧
        stage.outcome b' = some ((do
          let reply ← server.register env d.sys.clock request user
          return ⟨Admitted.code ⟨.register, params, user⟩ reply, reply⟩ : Action HttpResponse)
            b) := by
    intro b' e hseek hregister
    refine ⟨1, by decide, b', _, run_cons (act_moved table hi (congrArg some hseek)), ?_⟩
    rw [bind_of_error hregister]
    rfl
  have hother : (∀ data, request.body ≠ some (.registration data)) →
      server.seek d.sys.clock b ⟨env, request, .admitted since ⟨.register, params, user⟩⟩ since
          params user =
        (b, .answered since ⟨.register, params, user⟩ d.sys.clock (.error unprocessable)) ∧
      server.register env d.sys.clock request user b = .error unprocessable b := by
    intro hbody
    unfold Server.seek Server.register
    cases h : request.body with
    | none => exact ⟨rfl, rfl⟩
    | some body =>
      cases body with
      | registration data => exact absurd h (hbody data)
      | _ => exact ⟨rfl, rfl⟩
  cases hbody : request.body with
  | none =>
    obtain ⟨hseek, hregister⟩ := hother fun data h => by cases hbody.symm.trans h
    exact hrefused hseek hregister
  | some body =>
    cases body with
    | registration data =>
      cases hlocate : onStore (server.locate user data) b with
      | error e b' =>
        have hseek : server.seek d.sys.clock b
            ⟨env, request, .admitted since ⟨.register, params, user⟩⟩ since params user =
              (b', .answered since ⟨.register, params, user⟩ d.sys.clock (.error e)) := by
          unfold Server.seek
          simp only [hbody, hlocate]
        refine hrefused hseek ?_
        unfold Server.register
        simp only [hbody]
        exact bind_of_error hlocate
      | ok community b₁ =>
        have hseek : server.seek d.sys.clock b
            ⟨env, request, .admitted since ⟨.register, params, user⟩⟩ since params user =
              (b₁, .located since params user data community) := by
          unfold Server.seek
          simp only [hbody, hlocate]
        have hregister : server.register env d.sys.clock request user b =
            server.registerLocated env d.sys.clock user data community b₁ := by
          unfold Server.register
          simp only [hbody]
          exact bind_of_ok hlocate
        have houtcome := settle_outcome since ⟨.register, params, user⟩ d.sys.clock
          (server.registerLocated env d.sys.clock user data community) b₁
        rcases hsettle : settle since ⟨.register, params, user⟩ d.sys.clock
          (server.registerLocated env d.sys.clock user data community b₁) with ⟨b', stage⟩
        rw [hsettle] at houtcome
        have hfirst : server.proceed d.sys.clock b
            ⟨env, request, .admitted since ⟨.register, params, user⟩⟩ =
              some (b₁, .located since params user data community) := congrArg some hseek
        have hsecond : server.proceed d.sys.clock b₁
            ⟨env, request, .located since params user data community⟩ = some (b', stage) :=
          congrArg some hsettle
        refine ⟨2, le_refl 2, b', stage, ?_, ?_⟩
        · exact (run_cons (act_moved table hi hfirst)).trans
            (run_cons (act_moved table hi hsecond))
        · refine houtcome.trans (congrArg some ?_)
          show EStateM.bind _ _ _ = EStateM.bind _ _ _
          unfold EStateM.bind
          rw [hregister]
    | _ =>
      obtain ⟨hseek, hregister⟩ := hother fun data h => by cases hbody.symm.trans h
      exact hrefused hseek hregister

/-- From past its guard, a request gets to its answer in one or two steps. -/
theorem handle_alone (table : TaskTable) (hi : i < d.calls.length) (env : Env)
    (request : HttpRequest) (since : Time) (a : Admitted) (b : Backend) : ∃ n ≤ 2, ∃ b' stage,
      run (act server table) (d.moved i b ⟨env, request, .admitted since a⟩)
          (List.replicate n (.advance i)) = some (d.moved i b' ⟨env, request, stage⟩) ∧
      stage.outcome b' = some ((do
        let reply ← server.handle env d.sys.clock request a
        return ⟨a.code reply, reply⟩ : Action HttpResponse) b) := by
  obtain ⟨handler, params, caller⟩ := a
  by_cases hregister : handler = .register
  · subst hregister
    exact register_alone hi env request since params caller b
  · have hproceed : server.proceed d.sys.clock b
        ⟨env, request, .admitted since ⟨handler, params, caller⟩⟩ =
          some (settle since ⟨handler, params, caller⟩ d.sys.clock
            (server.handle env d.sys.clock request ⟨handler, params, caller⟩ b)) := by
      cases handler with
      | register => exact absurd rfl hregister
      | _ => rfl
    have houtcome := settle_outcome since ⟨handler, params, caller⟩ d.sys.clock
      (server.handle env d.sys.clock request ⟨handler, params, caller⟩) b
    rcases hsettle : settle since ⟨handler, params, caller⟩ d.sys.clock
      (server.handle env d.sys.clock request ⟨handler, params, caller⟩ b) with ⟨b', stage⟩
    rw [hsettle] at houtcome hproceed
    exact ⟨1, by decide, b', stage, run_cons (act_moved table hi hproceed), houtcome⟩

/-- **A request on its own is served.** When nothing comes in between the steps of a request, they
do together what `serve` does: within three steps it is answered as `serve` answers it, and the
backend is as `serve` leaves it. -/
theorem serve_alone (server : Server) (table : TaskTable) (d : Deployment) (i : Nat) (env : Env)
    (request : HttpRequest) (hcall : d.calls[i]? = some ⟨env, request, .arrived⟩) :
    ∃ n ≤ 3, ∃ b stage, run (act server table) d (List.replicate n (.advance i)) =
        some (d.moved i b ⟨env, request, stage⟩) ∧
      stage.outcome b = some (server.serve env d.sys.clock request d.backend) := by
  have hi := (List.getElem?_eq_some_iff.mp hcall).1
  have hself := Deployment.moved_self hcall
  cases hadmission : onStore (server.admission env d.sys.clock request) d.backend with
  | error e b =>
    have hproceed : server.proceed d.sys.clock d.backend ⟨env, request, .arrived⟩ =
        some (b, .refused e) := by
      unfold Server.proceed
      simp only [hadmission]
    have hact := act_moved table hi hproceed
    rw [hself] at hact
    refine ⟨1, by decide, b, _, run_cons hact, ?_⟩
    exact congrArg some (bind_of_error hadmission).symm
  | ok a b₁ =>
    have hproceed : server.proceed d.sys.clock d.backend ⟨env, request, .arrived⟩ =
        some (b₁, .admitted d.sys.clock a) := by
      unfold Server.proceed
      simp only [hadmission]
    have hact := act_moved table hi hproceed
    rw [hself] at hact
    obtain ⟨n, hn, b, stage, hrun, houtcome⟩ := handle_alone table hi env request
      d.sys.clock a b₁
    refine ⟨n + 1, Nat.succ_le_succ hn, b, stage, (run_cons hact).trans hrun, ?_⟩
    rw [houtcome]
    unfold Server.serve
    rw [bind_of_ok hadmission]

end Alone

/-- A registration has arrived. -/
def siteArrived : Deployment :=
  { launched with calls := [⟨calmEnv, siteRegistration, .arrived⟩] }

theorem serve_alone_site : ∃ n ≤ 3, ∃ b stage,
    run (act (smallServer []) {}) siteArrived (List.replicate n (.advance 0)) =
        some (siteArrived.moved 0 b ⟨calmEnv, siteRegistration, stage⟩) ∧
      stage.outcome b = some ((smallServer []).serve calmEnv 0 siteRegistration ⟨oneRoute, []⟩) :=
  serve_alone (smallServer []) {} siteArrived 0 calmEnv siteRegistration rfl

end RouteRegistry
