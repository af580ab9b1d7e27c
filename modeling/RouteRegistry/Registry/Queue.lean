import RouteRegistry.Registry.Mediation
import RouteRegistry.Registry.Requests

/-!
# The queue of a deployment

- `Proceeds.queued`: what a request puts in the queue, and for which route.
- `attempts_bounded`: each time a task is queued, it is tried at most once more often than it
  may be retried.
- `named_routes_stored`: the routes that tasks, JWTs and answers name are stored, but for those
  of registrations that lost their community on the way.
-/

namespace RouteRegistry

open Relational UnitOfWork Calls Runs

/-! ## What requests queue -/

section Queued

variable {server : Server} {now : Time} {b b' : Backend} {call : InFlight} {stage : CallStage}

/-- The route that a request is about, when it queues an update for it. -/
inductive InFlight.Updates (server : Server) (now : Time) (db db' : Database) (call : InFlight) :
    String → Prop where
  | rotation {since : Time} {params : List String} {route : Route}
      (stage : call.stage = .admitted since ⟨.jwt, params, route⟩) :
      InFlight.Updates server now db db' call route.id
  | registration {since : Time} {params : List String} {user : User} {data : RegistrationRequest}
      {community : Option Community} {route : Route}
      (stage : call.stage = .located since params user data community)
      (run : server.registration call.env now user data community db = .ok route db') :
      InFlight.Updates server now db db' call route.id

/-- **What a request queues**: tasks behind those that are there, and updates for its own route
only. -/
theorem Proceeds.queued (h : Proceeds server now b call b' stage) :
    ∃ tasks : List Task, b'.queue = b.queue ++ tasks.map (⟨·, 0⟩) ∧
      ∀ id authzPath, .updateRoute id authzPath ∈ tasks → call.Updates server now b.db b'.db id := by
  have hnone : b'.queue = b.queue → ∃ tasks : List Task, b'.queue = b.queue ++ tasks.map (⟨·, 0⟩) ∧
      ∀ id authzPath, .updateRoute id authzPath ∈ tasks →
        call.Updates server now b.db b'.db id :=
    fun hqueue => ⟨[], by simpa using hqueue, fun _ _ h => by cases h⟩
  have hupdate : ∀ {route : Route} {id authzPath : String},
      Task.updateRoute id authzPath ∈ [server.updateTask route] → route.id = id := by
    intro route id authzPath h
    cases List.mem_singleton.mp h
    rfl
  have hboth : ∀ {route : Route} {id authzPath : String},
      Task.updateRoute id authzPath ∈ [server.updateTask route, .notifyRouteTableUpdate] →
        route.id = id := by
    intro route id authzPath h
    rcases List.mem_cons.mp h with h | h
    · cases h
      rfl
    · cases List.mem_singleton.mp h
  cases h with
  | admitted | refused | located | unlocated | called => exact hnone rfl
  | registered hstage hrun =>
    obtain ⟨route, jwt, hreg, hqueue, -⟩ := registerLocated_ok hrun
    exact ⟨[server.updateTask route, .notifyRouteTableUpdate], hqueue,
      fun id authzPath h => hboth h ▸ .registration hstage hreg⟩
  | unregistered hstage hrun =>
    rcases registerLocated_error hrun with rfl | ⟨route, hreg, hqueue⟩
    · exact hnone rfl
    · rcases hqueue with ⟨hqueue, -⟩ | ⟨hqueue, -⟩ | ⟨hqueue, -⟩
      · exact hnone hqueue
      · exact ⟨[server.updateTask route], hqueue,
          fun id authzPath h => hupdate h ▸ .registration hstage hreg⟩
      · exact ⟨[server.updateTask route, .notifyRouteTableUpdate], hqueue,
          fun id authzPath h => hboth h ▸ .registration hstage hreg⟩
  | @rotated since params route b' outcome hstage hrun =>
    have hwake : b' = b ∨ b' = b.enqueue (server.updateTask route) := by
      cases hrotate : server.rotate call.env now route b with
      | ok reply b₁ =>
        rw [hrotate] at hrun
        cases hrun
        rw [(rotate_ok hrotate).2]
        split
        · exact .inr rfl
        · exact .inl rfl
      | error e b₁ =>
        rw [hrotate] at hrun
        cases hrun
        exact (rotate_error hrotate).imp_right fun h => h.1
    rcases hwake with rfl | rfl
    · exact hnone rfl
    · exact ⟨[server.updateTask route], rfl, fun id authzPath h => hupdate h ▸ .rotation hstage⟩

end Queued

/-- The tasks that an activity queues. -/
def queued (server : Server) (d : Deployment) : Activity → List Task
  | .advance i =>
    match d.calls[i]? with
    | some call =>
      match server.proceed d.sys.clock d.backend call with
      | some (b, _) => (b.queue.drop d.queue.length).map Message.task
      | none => []
    | none => []
  | _ => []

/-- The task that an activity tries. -/
def tried (d : Deployment) : Activity → List Task
  | .attempt i _ => (d.queue[i]?).toList.map Message.task
  | _ => []

/-! ## Tries -/

section Tries

variable {server : Server} {table : TaskTable} {d d' : Deployment}

/-- No message has been retried more often than it may. -/
def Deployment.Bounded (table : TaskTable) (d : Deployment) : Prop :=
  ∀ m ∈ d.queue, m.retries ≤ table.maxRetries m.task

theorem TaskTable.left_fresh (table : TaskTable) (task : Task) (tasks : List Task) :
    table.left task (tasks.map (⟨·, 0⟩)) = tasks.count task * (table.maxRetries task + 1) := by
  induction tasks with
  | nil => exact (Nat.zero_mul _).symm
  | cons t tasks ih =>
    rw [List.map_cons, TaskTable.left, ih, List.count_cons]
    by_cases h : t = task
    · simp only [h, if_true, beq_self_eq_true, Nat.add_mul, Nat.one_mul, Nat.sub_zero]
      omega
    · simp only [h, if_false, beq_iff_eq, Nat.add_zero, Nat.zero_add]

/-- **One activity**: what it tries was left to be tried, or has just been queued. -/
theorem act_tries {e : Activity} (hact : act server table d e = some d') (hbound : d.Bounded table)
    (task : Task) :
    d'.Bounded table ∧ (tried d e).count task + table.left task d'.queue ≤
      table.left task d.queue + (queued server d e).count task * (table.maxRetries task + 1) := by
  cases e with
  | background ev =>
    obtain ⟨-, sys, -, rfl⟩ := act_background hact
    exact ⟨hbound, by simp [tried, queued]⟩
  | seedUser | seedFlag | arrive =>
    cases hact
    exact ⟨hbound, by simp [tried, queued, Deployment.transact]⟩
  | advance i =>
    unfold act at hact
    dsimp only at hact
    split at hact
    · cases hact
    · rename_i call hcall
      obtain ⟨⟨b, stage⟩, hproceed, rfl⟩ := Option.map_eq_some_iff.mp hact
      obtain ⟨tasks, hqueue, -⟩ := (proceed_cases hproceed).queued
      have hqueue : b.queue = d.queue ++ tasks.map (⟨·, 0⟩) := hqueue
      have hqueued : queued server d (.advance i) = tasks := by
        simp only [queued, hcall, hproceed, hqueue, List.drop_left, List.map_map]
        exact List.map_id tasks
      refine ⟨fun m hm => ?_, ?_⟩
      · rcases List.mem_append.mp (hqueue ▸ hm : m ∈ d.queue ++ tasks.map (⟨·, 0⟩)) with hm | hm
        · exact hbound m hm
        · obtain ⟨t, -, rfl⟩ := List.mem_map.mp hm
          exact Nat.zero_le _
      · rw [hqueued, ← table.left_fresh]
        show ([] : List Task).count task + table.left task b.queue ≤ _
        rw [hqueue, table.left_append, List.count_nil, Nat.zero_add]
  | attempt i fetch =>
    obtain ⟨b, hattempt, rfl⟩ := Option.map_eq_some_iff.mp hact
    obtain ⟨m, hm, hleft⟩ := attempt_left hattempt hbound task
    have hm : d.queue[i]? = some m := hm
    refine ⟨fun m' hm' => ?_, ?_⟩
    · rcases attempt_queue hattempt hm' with hm' | ⟨-, -, -, hretries⟩
      · exact hbound m' hm'
      · exact hretries
    · have htried : (tried d (.attempt i fetch)).count task = if m.task = task then 1 else 0 := by
        simp [tried, hm, List.count_singleton]
      rw [htried]
      simp only [queued, List.count_nil, Nat.zero_mul, Nat.add_zero]
      rw [Nat.add_comm]
      exact hleft
  | lose i =>
    obtain ⟨b, hlose, rfl⟩ := Option.map_eq_some_iff.mp hact
    refine ⟨fun m hm => hbound m ?_, ?_⟩
    · rw [show (d.put b).queue = d.queue.eraseIdx i from (lose_cases hlose).2.2] at hm
      exact List.mem_of_mem_eraseIdx hm
    · have hleft : table.left task (d.put b).queue ≤ table.left task d.queue :=
        lose_left hlose task
      simpa [tried, queued] using hleft

/-- **No task is tried for ever.** In any run that starts with an empty queue, with whatever losses
of messages and answers of the apps: a task is tried at most `max_retries + 1` times for each time a
request queued it. -/
theorem attempts_bounded (server : Server) (table : TaskTable) (d d' : Deployment)
    (es : List Activity) (hqueue : d.queue = [])
    (hrun : run (act server table) d es = some d') (task : Task) :
    (record (act server table) tried d es).count task ≤
      (record (act server table) (queued server) d es).count task *
        (table.maxRetries task + 1) := by
  -- with what is left to be tried on either side, by induction on the run
  have hall : ∀ es d, d.Bounded table → run (act server table) d es = some d' →
      (record (act server table) tried d es).count task + table.left task d'.queue ≤
        table.left task d.queue + (record (act server table) (queued server) d es).count task *
          (table.maxRetries task + 1) := by
    intro es
    induction es with
    | nil =>
      intro d _ hrun
      cases hrun
      simp [record]
    | cons e es ih =>
      intro d hbound hrun
      obtain ⟨d₁, hact, hrest⟩ := run_cons_eq_some.mp hrun
      obtain ⟨hbound₁, hstep⟩ := act_tries hact hbound task
      have htail := ih d₁ hbound₁ hrest
      rw [record_cons hact, record_cons hact, List.count_append, List.count_append, Nat.add_mul]
      omega
  have hbound : d.Bounded table := by
    intro m hm
    rw [hqueue] at hm
    cases hm
  have htotal := hall es d hbound hrun
  rw [hqueue] at htotal
  simp only [TaskTable.left] at htotal
  omega

end Tries

/-! ## Named routes -/

/-- The routes that a deployment names: in its tasks, as callers, and in its answers. -/
inductive Deployment.Names (d : Deployment) : String → Prop where
  | task {m : Message} {id authzPath : String} (hm : m ∈ d.queue)
      (update : m.task = .updateRoute id authzPath) : d.Names id
  | caller {call : InFlight} {since : Time} {params : List String} {route : Route}
      (hcall : call ∈ d.calls) (stage : call.stage = .admitted since ⟨.jwt, params, route⟩) :
      d.Names route.id
  | answer {call : InFlight} {since now : Time} {params : List String} {user : User}
      {response : RegistrationResponse} {id : String} (hcall : call ∈ d.calls)
      (stage : call.stage = .answered since ⟨.register, params, user⟩ now
        (.ok (.registration response))) (endpoint : response.endpoint = some id) : d.Names id

/-- The registrations that go on although the community they found is gone. -/
def stranded (d : Deployment) : Activity → List InFlight
  | .advance i =>
    match d.calls[i]? with
    | some call =>
      match call.stage with
      | .located _ _ _ _ (some community) =>
        if community.id ∈ d.sys.db.store.communityIds then [] else [call]
      | _ => []
    | none => []
  | _ => []

section Names

variable {server : Server} {table : TaskTable} {d d' : Deployment}

/-- Routes are never deleted. -/
theorem Change.effect_routeIds {s : Store} {c : Change} {id : String} (h : id ∈ s.routeIds) :
    id ∈ (c.effect s).routeIds := by
  cases c with
  | addRoute r =>
    obtain ⟨r₀, hr₀, hid⟩ := List.mem_map.mp h
    exact List.mem_map.mpr ⟨r₀, List.mem_append_left _ hr₀, hid⟩
  | setRoute id' a =>
    rw [← Store.routeIds_modify Route.id id' a] at h
    exact h
  | deleteCommunity cid =>
    rw [← Store.routeIds_modify Route.communityId (some cid) (.community none)] at h
    exact h
  | _ => exact h

theorem act_routeIds {e : Activity} (hact : act server table d e = some d') {id : String}
    (h : id ∈ d.sys.db.store.routeIds) : id ∈ d'.sys.db.store.routeIds :=
  act_keeps (I := fun s => id ∈ s.routeIds) hact (fun _ _ _ _ _ h => Change.effect_routeIds h) h

/-- The route of a registration is stored, or has lost its community and its new id with it. -/
theorem registration_named {env : Env} {now : Time} {user : User} {data : RegistrationRequest}
    {community : Option Community} {db db' : Database} {route : Route}
    (h : server.registration env now user data community db = .ok route db') :
    route.id ∈ db'.store.routeIds ∨
      (∃ c, community = some c ∧ c.id ∉ db.store.communityIds) ∧ route.id = env.uuid := by
  have hblock : registerRoute server.eng ⟨Text.fieldText user.uid, data.name, data.domainName,
      server.url.tunnelUrl, server.url.bindSubdomain, community⟩
      ⟨now, env.uuid, env.token, env.nameId⟩ db = .ok route db' := rethrow_eq_ok.mp h
  have hregistered := registerRoute_ok hblock
  obtain ⟨Δ, hrun, -⟩ := withUOW_ok hblock
  have hbody := registerRouteBody_registers db.valid
    ⟨Text.fieldText user.uid, data.name, data.domainName, server.url.tunnelUrl,
      server.url.bindSubdomain, community⟩ ⟨now, env.uuid, env.token, env.nameId⟩
  rw [hrun] at hbody
  generalize db'.store = s' at hregistered ⊢
  cases hregistered with
  | @rebound d u src r hres hr hown hret =>
    refine .inl ?_
    rw [hret, Route.rebind_id, Store.routeIds_withAttrs]
    exact Store.mem_routeIds_of_src hr
  | created hres hr hd hret hfresh =>
    refine .inl ?_
    rw [Store.routeIds_withRoute]
    exact List.mem_append_right _ (List.mem_singleton_self _)
  | dropped hc hcs =>
    cases hbody with
    | rebound hres hr hown =>
      exact .inl (by rw [Route.rebind_id]; exact Store.mem_routeIds_of_src hr)
    | created hres hr hd => exact .inr ⟨⟨_, hc, hcs⟩, rfl⟩

/-- The routes that are named are stored, but for the new ones of stranded registrations. -/
def Deployment.Named (log : List InFlight) (d : Deployment) : Prop :=
  ∀ id, d.Names id → id ∈ d.sys.db.store.routeIds ∨ ∃ call ∈ log, call.env.uuid = id

/-- A registration that goes on names its route. -/
theorem registration_stranded {i : Nat} {call : InFlight} {since : Time} {params : List String}
    {user : User} {data : RegistrationRequest} {community : Option Community} {route : Route}
    {db' : Database} (hcall : d.calls[i]? = some call)
    (hstage : call.stage = .located since params user data community)
    (h : server.registration call.env d.sys.clock user data community d.sys.db = .ok route db') :
    route.id ∈ db'.store.routeIds ∨
      ∃ call ∈ stranded d (.advance i), call.env.uuid = route.id := by
  refine (registration_named h).imp_right ?_
  rintro ⟨⟨c, rfl, hgone⟩, hid⟩
  refine ⟨call, ?_, hid.symm⟩
  simp only [stranded, hcall, hstage, if_neg hgone, List.mem_singleton]

/-- A message after an activity is about a task that was there, or has just been queued. -/
theorem act_queue {e : Activity} (hact : act server table d e = some d') {m : Message}
    (hm : m ∈ d'.queue) :
    (∃ m₀ ∈ d.queue, m.task = m₀.task) ∨
      ∃ i call, e = .advance i ∧ d.calls[i]? = some call ∧
        ∀ id authzPath, m.task = .updateRoute id authzPath →
          call.Updates server d.sys.clock d.sys.db d'.sys.db id := by
  cases e with
  | background ev =>
    obtain ⟨-, sys, -, rfl⟩ := act_background hact
    exact .inl ⟨m, hm, rfl⟩
  | seedUser | seedFlag | arrive =>
    cases hact
    exact .inl ⟨m, hm, rfl⟩
  | advance i =>
    obtain ⟨call, b, stage, hcall, hproceeds, rfl⟩ := act_advance hact
    obtain ⟨tasks, hqueue, htasks⟩ := hproceeds.queued
    rcases List.mem_append.mp (hqueue ▸ hm : m ∈ d.queue ++ tasks.map (⟨·, 0⟩)) with hm | hm
    · exact .inl ⟨m, hm, rfl⟩
    · obtain ⟨t, ht, rfl⟩ := List.mem_map.mp hm
      exact .inr ⟨i, call, rfl, hcall, fun id authzPath htask => htasks id authzPath (htask ▸ ht)⟩
  | attempt i fetch =>
    obtain ⟨b, hattempt, rfl⟩ := Option.map_eq_some_iff.mp hact
    rcases attempt_queue hattempt hm with hm | ⟨m₀, hm₀, htask, -⟩
    · exact .inl ⟨m, hm, rfl⟩
    · exact .inl ⟨m₀, hm₀, htask⟩
  | lose i =>
    obtain ⟨b, hlose, rfl⟩ := Option.map_eq_some_iff.mp hact
    refine .inl ⟨m, ?_, rfl⟩
    rw [show (d.put b).queue = d.queue.eraseIdx i from (lose_cases hlose).2.2] at hm
    exact List.mem_of_mem_eraseIdx hm

/-- **One activity** names stored routes only, or strands a registration. -/
theorem act_named {log : List InFlight} {e : Activity} (h : d.Named log)
    (hact : act server table d e = some d') : d'.Named (log ++ stranded d e) := by
  -- what was named before is still accounted for
  have hold : ∀ id, d.Names id → id ∈ d'.sys.db.store.routeIds ∨
      ∃ call ∈ log ++ stranded d e, call.env.uuid = id := by
    intro id hnames
    rcases h id hnames with hid | ⟨call, hcall, hid⟩
    · exact .inl (act_routeIds hact hid)
    · exact .inr ⟨call, List.mem_append_left _ hcall, hid⟩
  have hnew : ∀ {id}, (id ∈ d'.sys.db.store.routeIds ∨
      ∃ call ∈ stranded d e, call.env.uuid = id) → id ∈ d'.sys.db.store.routeIds ∨
        ∃ call ∈ log ++ stranded d e, call.env.uuid = id :=
    fun hid => hid.imp_right fun ⟨call, hcall, hid⟩ => ⟨call, List.mem_append_right _ hcall, hid⟩
  intro id hnames
  cases hnames with
  | @task m id authzPath hm hupdate =>
    rcases act_queue hact hm with ⟨m₀, hm₀, htask⟩ | ⟨i, call, rfl, hcall, hupdates⟩
    · exact hold id (.task hm₀ (htask ▸ hupdate))
    · cases hupdates id authzPath hupdate with
      | rotation hstage => exact hold _ (.caller (List.mem_of_getElem? hcall) hstage)
      | registration hstage hrun => exact hnew (registration_stranded hcall hstage hrun)
  | @caller call since params route hcall hstage =>
    rcases act_calls hact hcall with hcall | harrived | ⟨i, before, b, rfl, -, hproceeds, -, -⟩
    · exact hold _ (.caller hcall hstage)
    · cases harrived.symm.trans hstage
    · rw [hstage] at hproceeds
      cases hproceeds with
      | admitted _ hguard =>
        obtain ⟨xJwt, claims, -, -, -, hroute, -⟩ := admission_ok hguard
        exact .inl (act_routeIds hact (List.mem_map.mpr ⟨route, lookup_mem hroute⟩))
  | @answer call since now params user response id hcall hstage hendpoint =>
    rcases act_calls hact hcall with
      hcall | harrived | ⟨i, before, b, rfl, hbefore, hproceeds, hdb, -⟩
    · exact hold _ (.answer hcall hstage hendpoint)
    · cases harrived.symm.trans hstage
    · rw [hstage] at hproceeds
      cases hproceeds with
      | registered hlocated hrun =>
        obtain ⟨route, jwt, hreg, -, -, hreply⟩ := registerLocated_ok hrun
        cases hreply
        cases hendpoint
        exact hnew (registration_stranded hbefore hlocated (hdb ▸ hreg))
      | called hstage hother => exact absurd rfl hother.1

/-- **Named routes are stored.** In any run of a deployment that starts with nothing under way,
the routes that its tasks are about, that its answered registrations name and whose JWTs it has
let through are stored; but for what a registration would have stored that went on after its
community had been deleted, which is answered and has its tasks queued all the same. (Blocks run one
at a time here. One that overlaps the removal of its domain or user is lost in the same way.) -/
theorem named_routes_stored (server : Server) (table : TaskTable) (d d' : Deployment)
    (es : List Activity) (hcalls : d.calls = []) (hqueue : d.queue = [])
    (hrun : run (act server table) d es = some d') (id : String) (hnames : d'.Names id) :
    id ∈ d'.sys.db.store.routeIds ∨
      ∃ call ∈ record (act server table) stranded d es, call.env.uuid = id := by
  have hstart : d.Named [] := by
    intro id hnames
    cases hnames with
    | task hm =>
      rw [hqueue] at hm
      cases hm
    | caller hcall | answer hcall =>
      rw [hcalls] at hcall
      cases hcall
  have hkeep : ∀ (log : List InFlight) (d₁ : Deployment) (e : Activity) (d₂ : Deployment),
      d₁.Named log → True → act server table d₁ e = some d₂ → d₂.Named (log ++ stranded d₁ e) :=
    fun log d₁ e d₂ h _ hact => act_named h hact
  have hend : d'.Named (record (act server table) stranded d es) :=
    run_records (I := fun log d₁ => d₁.Named log) hkeep (along_of_forall fun _ _ => trivial) hrun
      hstart
  exact hend id hnames

end Names

/-! ## A registration that loses its community -/

/-- Alice has a club. -/
def clubhouse : Deployment where
  sys := ⟨oneClub, 0, []⟩

def joinClub : HttpRequest where
  method := .post
  path := "/api/v1/route".toList
  xToken := some "alice"
  body := some (.registration { name := "site", communityName := some "club" })

def leaveClub : HttpRequest where
  method := .delete
  path := "/api/v1/community/club".toList

/-- She registers a route in it, and deletes it before the route is stored. -/
def joinAndLeave : List Activity :=
  [.arrive calmEnv joinClub, .advance 0, .advance 0, .arrive calmEnv leaveClub, .advance 1,
    .advance 1, .advance 0]

/-- She gets the route, which is not there. -/
theorem named_routes_stored_club : ∃ d',
    run (act (smallServer []) {}) clubhouse joinAndLeave = some d' ∧
      d'.sys.db.store.routeIds = ["r"] ∧
      ("new" ∈ d'.sys.db.store.routeIds ∨ ∃ call ∈ record (act (smallServer []) {}) stranded
        clubhouse joinAndLeave, call.env.uuid = "new") := by
  have hends : (match run (act (smallServer []) {}) clubhouse joinAndLeave with
      | some d => decide (d.sys.db.store.routeIds = ["r"] ∧
          d.queue.any fun m => decide (m.task = .updateRoute "new" "authorization.json"))
      | none => false) = true := by
    decide +kernel
  cases hrun : run (act (smallServer []) {}) clubhouse joinAndLeave with
  | none =>
    rw [hrun] at hends
    cases hends
  | some d' =>
    rw [hrun] at hends
    obtain ⟨hids, hqueue⟩ := of_decide_eq_true hends
    obtain ⟨m, hm, htask⟩ := List.any_eq_true.mp hqueue
    exact ⟨d', rfl, hids, named_routes_stored (smallServer []) {} clubhouse d' joinAndLeave rfl rfl
      hrun "new" (.task hm (of_decide_eq_true htask))⟩

/-- Its update fails until it is given up. -/
def sixTries : List Activity :=
  joinAndLeave ++ .attempt 0 (.failed .connectionError) ::
    List.replicate 5 (.attempt 1 (.failed .connectionError))

theorem attempts_bounded_club :
    (record (act (smallServer []) {}) tried clubhouse sixTries).count
        (.updateRoute "new" "authorization.json") = 6 ∧
      6 ≤ (record (act (smallServer []) {}) (queued (smallServer [])) clubhouse sixTries).count
        (.updateRoute "new" "authorization.json") * (5 + 1) := by
  have htries : (record (act (smallServer []) {}) tried clubhouse sixTries).count
      (.updateRoute "new" "authorization.json") = 6 := by
    decide +kernel
  have hends : (run (act (smallServer []) {}) clubhouse sixTries).isSome := by decide +kernel
  obtain ⟨d', hrun⟩ := Option.isSome_iff_exists.mp hends
  have hbound := attempts_bounded (smallServer []) {} clubhouse d' sixTries rfl hrun
    (.updateRoute "new" "authorization.json")
  rw [htries] at hbound
  exact ⟨htries, hbound⟩

end RouteRegistry
