import RouteRegistry.Registry.Credentials
import RouteRegistry.Registry.Verification

/-!
# Whose routes are verified

- `bindings`: the registrations that go through.
- `owners_registered`: who owns a route has registered it.
- `verified_by_owner`: a route is verified for an owner who has registered it; until then it is
  locked out (`locked_out_until_registered`).

Both are about owners whom the token service vouched for when they registered.
-/

namespace RouteRegistry

open Relational UnitOfWork Calls Runs

/-! ## What a step of a request does to the store -/

section Effect

variable {server : Server} {now : Time} {b b' : Backend} {call : InFlight} {stage : CallStage}

/-- Nothing, what its block does, or a registration that goes through. -/
theorem Proceeds.effect (h : Proceeds server now b call b' stage) :
    b'.db = b.db ∨
    (∃ since a t, call.stage = .admitted since a ∧
      Server.block call.env call.request a.params a.handler a.caller = some t ∧
      b'.db = (t.run server.eng server.setup now).after b.db) ∨
    ∃ since params user data community route,
      call.stage = .located since params user data community ∧
      server.registration call.env now user data community b.db = .ok route b'.db := by
  rcases h.db with hsame | ⟨t, ht, hdb⟩
  · exact .inl hsame
  · cases ht with
    | block hstage hblock => exact .inr (.inl ⟨_, _, t, hstage, hblock, hdb⟩)
    | registration hstage =>
      cases h with
      | registered hlocated hrun =>
        obtain ⟨route, jwt, hreg, -⟩ := registerLocated_ok hrun
        exact .inr (.inr ⟨_, _, _, _, _, route, hlocated, hreg⟩)
      | unregistered hlocated hrun =>
        rcases registerLocated_error hrun with rfl | ⟨route, hreg, -⟩
        · exact .inl rfl
        · exact .inr (.inr ⟨_, _, _, _, _, route, hlocated, hreg⟩)
      | admitted h | refused h | located h | unlocated h | rotated h | called h =>
        cases h.symm.trans hstage

end Effect

/-! ## Registrations that go through -/

/-- A registration that has gone through, and what it left. -/
structure Binding where
  request : HttpRequest
  user : User
  route : Route
  store : Store

/-- The registration that goes through in an activity. -/
def bindings (server : Server) (d : Deployment) : Activity → List Binding
  | .advance i =>
    match d.calls[i]? with
    | some ⟨env, request, .located _ _ user data community⟩ =>
      match server.registration env d.sys.clock user data community d.sys.db with
      | .ok route db => [⟨request, user, route, db.store⟩]
      | .error _ _ => []
    | _ => []
  | _ => []

/-- The owner of the route for whom it was registered. -/
structure Binding.Owner (b : Binding) (owner : User) : Prop where
  mem : owner ∈ b.store.users
  owns : owner.id ∈ b.store.owners b.route.id
  uid : owner.uid = some (Text.fieldText b.user.uid)

/-- Nobody owns more routes than before, and no more routes are verified. -/
structure Store.Ungained (s s' : Store) : Prop where
  owners : ∀ o ∈ s'.ownerships, o ∈ s.ownerships
  verified : Part.verified.Same s s'

section Gains

variable {s s₁ s' : Store} {c : Change} {t : Transaction} {now : Time}

theorem Store.Ungained.refl (s : Store) : s.Ungained s :=
  ⟨fun _ ho => ho, Part.verified.same_refl s⟩

theorem Store.Ungained.trans (h : s.Ungained s₁) (h' : s₁.Ungained s') : s.Ungained s' :=
  ⟨fun o ho => h.owners o (h'.owners o ho), h.verified.trans h'.verified⟩

/-- A change that makes somebody an owner or a route verified. -/
def Change.Gains (c : Change) : Prop := .verified ∈ c.parts ∨ ∃ o, c = .addOwnership o

theorem Change.effect_ungained (h : ¬ c.Gains) : s.Ungained (c.effect s) := by
  refine ⟨fun o ho => ?_, Change.effect_same fun hpart => h (.inl hpart)⟩
  cases c with
  | addOwnership o' => exact absurd (.inr ⟨o', rfl⟩) h
  | deleteEntity id => exact (mem_discard.mp ho).1
  | _ => exact ho

/-- Such changes are queued where routes are registered and validated. -/
theorem Transaction.gains (hmay : t.mayQueue now c) (h : c.Gains) :
    (∃ reg draws, t = .registerRoute reg draws) ∨
      ∃ routeId fetch, t = .validateRoute routeId fetch := by
  rcases h with hpart | ⟨o, rfl⟩
  · cases c with
    | addRoute r =>
      cases t with
      | registerRoute reg draws => exact .inl ⟨reg, draws, rfl⟩
      | _ => simp [Transaction.mayQueue] at hmay
    | setRoute id a =>
      cases a with
      | verificationStatus v =>
        cases v with
        | verified => exact (Transaction.sets_verified hmay).resolve_left fun h => by cases h
        | _ => cases hpart
      | _ => simp [Change.parts] at hpart
    | _ => simp [Change.parts] at hpart
  · cases t with
    | registerRoute reg draws => exact .inl ⟨reg, draws, rfl⟩
    | _ => simp [Transaction.mayQueue] at hmay

/-- Other blocks leave owners and verified routes alone. -/
theorem Transaction.after_ungained {eng : Engine} {setup : Setup}
    (hreg : ∀ reg draws, t ≠ .registerRoute reg draws)
    (hval : ∀ routeId fetch, t ≠ .validateRoute routeId fetch) (db : Database) :
    db.store.Ungained ((t.run eng setup now).after db).store := by
  rcases t.after_cases eng setup now db with hsame | ⟨Δ, hf, hmay⟩
  · rw [hsame]
    exact .refl _
  · refine flush_keeps (I := db.store.Ungained) (fun s hs c hc => ?_) hf (.refl _)
    refine hs.trans (Change.effect_ungained fun hgains => ?_)
    rcases Transaction.gains (hmay c hc) hgains with ⟨reg, draws, rfl⟩ | ⟨routeId, fetch, rfl⟩
    · exact hreg reg draws rfl
    · exact hval routeId fetch rfl

/-- No handler but `register` registers or validates a route. -/
theorem Blocks.ungained {env : Env} {request : HttpRequest} {params : List String}
    {handler : Handler} {caller : handler.guard.Caller} {eng : Engine} {setup : Setup}
    (h : Blocks env request params handler caller t) (db : Database) :
    db.store.Ungained ((t.run eng setup now).after db).store := by
  refine Transaction.after_ungained (fun reg draws => ?_) (fun routeId fetch => ?_) db <;>
  · rintro rfl
    cases h

/-- The stores of two owners and verified routes, apart by one registration. -/
structure Binding.Gained (b : Binding) (s : Store) : Prop where
  owners : ∀ o ∈ b.store.ownerships, o ∈ s.ownerships ∨
    b.route.id = o.routeId ∧ ∃ owner, b.Owner owner ∧ owner.id = o.entityId
  verified : ∀ r' ∈ b.store.routes, r'.verificationStatus = .verified →
    (∃ r ∈ s.routes, r.id = r'.id ∧ r.verificationStatus = .verified) ∨
      b.route.id = r'.id ∧ ∃ owner, b.Owner owner

/-- **A registration** verifies the route of its owner, and makes its user the owner of a new
one. -/
theorem registration_gained {server : Server} {env : Env} {user : User}
    {data : RegistrationRequest} {community : Option Community} {db db' : Database} {route : Route}
    (request : HttpRequest)
    (h : server.registration env now user data community db = .ok route db') :
    (⟨request, user, route, db'.store⟩ : Binding).Gained db.store := by
  have hregistered := registerRoute_ok (rethrow_eq_ok.mp h)
  generalize db'.store = s' at hregistered ⊢
  cases hregistered with
  | @rebound d u src r hres hr hown hret =>
    have howner : Binding.Owner ⟨request, user, route, db.store.withAttrs r.id
        (rebindAttrs r community now)⟩ u := by
      refine ⟨hres.user_mem.1, ?_, hres.user_mem.2⟩
      rw [hret, Route.rebind_id]
      exact hown
    refine ⟨fun o ho => .inl ho, fun r' hr' hv => ?_⟩
    rcases mem_modify.mp hr' with ⟨hmem, -⟩ | ⟨r₀, -, hid, rfl⟩
    · exact .inl ⟨r', hmem, rfl, hv⟩
    · refine .inr ⟨?_, u, howner⟩
      rw [hret, Route.rebind_id, RouteAttr.setAll_id]
      exact hid.symm
  | @created d u src hres hr hd hret hfresh =>
    have howner : Binding.Owner ⟨request, user, route, db.store.withRoute route u.id⟩ u := by
      refine ⟨hres.user_mem.1, ?_, hres.user_mem.2⟩
      rw [Store.owners_withRoute, if_pos rfl]
      exact List.mem_append_right _ (List.mem_singleton_self _)
    refine ⟨fun o ho => ?_, fun r' hr' hv => ?_⟩
    · rcases List.mem_append.mp ho with ho | ho
      · exact .inl ho
      · cases List.mem_singleton.mp ho
        exact .inr ⟨rfl, u, howner, rfl⟩
    · rcases List.mem_append.mp hr' with hr' | hr'
      · exact .inl ⟨r', hr', rfl, hv⟩
      · cases List.mem_singleton.mp hr'
        exact .inr ⟨rfl, u, howner⟩
  | dropped => exact ⟨fun o ho => .inl ho, fun r' hr' hv => .inl ⟨r', hr', rfl, hv⟩⟩

end Gains

/-! ## Runs -/

section Runs

variable {server : Server} {table : TaskTable} {d d' : Deployment} {es : List Activity}

/-- **One activity** makes owners and verifies routes by a registration only. -/
theorem act_gained {e : Activity} (hact : act server table d e = some d') :
    d.sys.db.store.Ungained d'.sys.db.store ∨
      ∃ b ∈ bindings server d e, b.store = d'.sys.db.store ∧ b.Gained d.sys.db.store := by
  rcases act_simulates hact with hsame | ⟨ev, hdoes, hstep⟩
  · rw [hsame]
    exact .inl (.refl _)
  cases hdoes with
  | background hnot =>
    refine .inl ?_
    rcases step_db hstep with hsame | ⟨t, hdb, rfl | ⟨id, fetch, rfl⟩ | ⟨id, rfl⟩⟩
    · rw [hsame]
      exact .refl _
    · exact absurd rfl (hnot t)
    · rw [hdb]
      exact Transaction.after_ungained (fun _ _ h => by cases h) (fun _ _ h => by cases h) _
    · rw [hdb]
      exact Transaction.after_ungained (fun _ _ h => by cases h) (fun _ _ h => by cases h) _
  | @block _ t hruns =>
    cases hruns with
    | request =>
      obtain ⟨⟨env, request, stage⟩, b, stage', hcall, hproceeds, rfl⟩ := act_advance hact
      rcases hproceeds.effect with hsame | ⟨since, a, t, hstage, hblock, hdb⟩ |
        ⟨since, params, user, data, community, route, hstage, hreg⟩
      · exact .inl (by rw [show (d.put b).sys.db = d.sys.db from hsame]; exact .refl _)
      · refine .inl ?_
        rw [show (d.put b).sys.db = _ from hdb]
        exact (block_cases hblock).ungained _
      · obtain rfl : stage = _ := hstage
        refine .inr ⟨⟨request, user, route, b.db.store⟩, ?_, rfl, registration_gained request hreg⟩
        have hreg : server.registration env d.sys.clock user data community d.sys.db =
          .ok route b.db := hreg
        simp only [bindings, hcall, hreg, List.mem_singleton]
    | task | seedUser | seedFlag =>
      rw [← Option.some.inj hstep]
      exact .inl (Transaction.after_ungained (fun _ _ h => by cases h) (fun _ _ h => by cases h) _)

/-- The token service vouched for the user of a registration. -/
structure Binding.Vouched (server : Server) (log : List Passage) (b : Binding) : Prop where
  passed : ∃ p ∈ log, p.Checked server ∧ p.request = b.request ∧
    ∃ params, p.admitted = ⟨.register, params, b.user⟩

/-- A registration that goes through has been let through before. -/
theorem binding_vouched (hcalls : d.calls = []) {b : Binding}
    (hb : b ∈ record (act server table) (bindings server) d es) :
    b.Vouched server (record (act server table) (passages server) d es) := by
  obtain ⟨es₁, e, es₂, d₁, rfl, hrun, hb⟩ := mem_record hb
  unfold bindings at hb
  split at hb
  · split at hb
    · rename_i i env request since params user data community hcall
      split at hb
      · cases List.mem_singleton.mp hb
        obtain ⟨s, hlog⟩ := run_vouched hcalls hrun _ (List.mem_of_getElem? hcall) since
          ⟨.register, params, user⟩ rfl
        obtain ⟨_, _, _, _, -, -, hpassage⟩ := mem_record hlog
        refine ⟨_, ?_, mem_passages hpassage, rfl, params, rfl⟩
        rw [record_append hrun]
        exact List.mem_append_left _ hlog
      · cases hb
    · cases hb
  · cases hb

/-- The owners and the verified routes, next to the registrations that went through. -/
structure Deployment.Bound (s : Store) (log : List Binding) (d : Deployment) : Prop where
  owners : ∀ o ∈ d.sys.db.store.ownerships, o ∈ s.ownerships ∨
    ∃ b ∈ log, b.route.id = o.routeId ∧ ∃ owner, b.Owner owner ∧ owner.id = o.entityId
  verified : ∀ r' ∈ d.sys.db.store.routes, r'.verificationStatus = .verified →
    (∃ r ∈ s.routes, r.id = r'.id ∧ r.verificationStatus = .verified) ∨
      ∃ b ∈ log, b.route.id = r'.id ∧ ∃ owner, b.Owner owner

theorem act_bound {s : Store} {log : List Binding} {e : Activity} (h : d.Bound s log)
    (hact : act server table d e = some d') : d'.Bound s (log ++ bindings server d e) := by
  have hold : ∀ {P : Binding → Prop}, (∃ b ∈ log, P b) → ∃ b ∈ log ++ bindings server d e, P b :=
    fun ⟨b, hb, hP⟩ => ⟨b, List.mem_append_left _ hb, hP⟩
  rcases act_gained hact with hungained | ⟨b, hb, hstore, hgained⟩
  · refine ⟨fun o ho => ?_, fun r' hr' hv => ?_⟩
    · exact (h.owners o (hungained.owners o ho)).imp_right hold
    · obtain ⟨r₁, hr₁, hid₁, hv₁⟩ := hungained.verified r' hr' hv
      rw [← hid₁]
      exact (h.verified r₁ hr₁ hv₁).imp_right hold
  · have hnew := List.mem_append_right log hb
    refine ⟨fun o ho => ?_, fun r' hr' hv => ?_⟩
    · rcases hgained.owners o (hstore ▸ ho) with ho | hgain
      · exact (h.owners o ho).imp_right hold
      · exact .inr ⟨b, hnew, hgain⟩
    · rcases hgained.verified r' (hstore ▸ hr') hv with ⟨r₁, hr₁, hid₁, hv₁⟩ | hgain
      · rw [← hid₁]
        exact (h.verified r₁ hr₁ hv₁).imp_right hold
      · exact .inr ⟨b, hnew, hgain⟩

theorem run_bound (hrun : run (act server table) d es = some d') :
    d'.Bound d.sys.db.store (record (act server table) (bindings server) d es) := by
  have hkeep : ∀ (log : List Binding) (d₁ : Deployment) (e : Activity) (d₂ : Deployment),
      d₁.Bound d.sys.db.store log → True → act server table d₁ e = some d₂ →
      d₂.Bound d.sys.db.store (log ++ bindings server d₁ e) :=
    fun log d₁ e d₂ h _ hact => act_bound h hact
  have hstart : d.Bound d.sys.db.store [] :=
    ⟨fun o ho => .inl ho, fun r' hr' hv => .inl ⟨r', hr', rfl, hv⟩⟩
  exact run_records (I := fun log d₁ => d₁.Bound d.sys.db.store log) hkeep
    (along_of_forall fun _ _ => trivial) hrun hstart

/-- **Who owns a route has registered it.** In any run of a deployment that starts without requests
in flight, whatever requests, tasks and passes there are: an owner of a route has owned it from the
start, or the route was registered for that owner by a request that the token service vouched
for. -/
theorem owners_registered (server : Server) (table : TaskTable) (d d' : Deployment)
    (es : List Activity) (hcalls : d.calls = [])
    (hrun : run (act server table) d es = some d') (o : Ownership)
    (ho : o ∈ d'.sys.db.store.ownerships) :
    o ∈ d.sys.db.store.ownerships ∨
      ∃ b ∈ record (act server table) (bindings server) d es, b.route.id = o.routeId ∧
        (∃ owner, b.Owner owner ∧ owner.id = o.entityId) ∧
        b.Vouched server (record (act server table) (passages server) d es) := by
  refine ((run_bound hrun).owners o ho).imp_right ?_
  rintro ⟨b, hb, hid, howner⟩
  exact ⟨b, hb, hid, howner, binding_vouched hcalls hb⟩

/-- Alice registers a site. -/
def registerSite : List Activity :=
  [.arrive calmEnv siteRegistration, .advance 0, .advance 0, .advance 0]

/-- It is hers. -/
theorem owners_registered_site : ∃ d',
    run (act (smallServer siteJwts) {}) launched registerSite = some d' ∧
    ∃ o ∈ d'.sys.db.store.ownerships, o.routeId = "new" ∧ (o ∈ oneRoute.store.ownerships ∨
      ∃ b ∈ record (act (smallServer siteJwts) {}) (bindings (smallServer siteJwts)) launched
          registerSite,
        b.route.id = o.routeId ∧ (∃ owner, b.Owner owner ∧ owner.id = o.entityId) ∧
          b.Vouched (smallServer siteJwts) (record (act (smallServer siteJwts) {})
            (passages (smallServer siteJwts)) launched registerSite)) := by
  have hends : (match run (act (smallServer siteJwts) {}) launched registerSite with
      | some d => d.sys.db.store.ownerships.any fun o => decide (o.routeId = "new")
      | none => false) = true := by
    decide +kernel
  cases hrun : run (act (smallServer siteJwts) {}) launched registerSite with
  | none =>
    rw [hrun] at hends
    cases hends
  | some d' =>
    rw [hrun] at hends
    obtain ⟨o, ho, hid⟩ := List.any_eq_true.mp hends
    exact ⟨d', rfl, o, ho, of_decide_eq_true hid,
      owners_registered (smallServer siteJwts) {} _ d' registerSite rfl hrun o ho⟩

/-- **A route is verified for its owner.** In any run of a deployment that starts without requests
in flight, whatever requests, tasks and passes there are: a verified route was so at the start, or
it was registered by a request that the token service vouched for, for a user who owned it then. -/
theorem verified_by_owner (server : Server) (table : TaskTable) (d d' : Deployment)
    (es : List Activity) (hcalls : d.calls = [])
    (hrun : run (act server table) d es = some d') (r' : Route)
    (hr' : r' ∈ d'.sys.db.store.routes) (hv : r'.verificationStatus = .verified) :
    (∃ r ∈ d.sys.db.store.routes, r.id = r'.id ∧ r.verificationStatus = .verified) ∨
      ∃ b ∈ record (act server table) (bindings server) d es, b.route.id = r'.id ∧
        (∃ owner, b.Owner owner) ∧
        b.Vouched server (record (act server table) (passages server) d es) := by
  refine ((run_bound hrun).verified r' hr' hv).imp_right ?_
  rintro ⟨b, hb, hid, howner⟩
  exact ⟨b, hb, hid, howner, binding_vouched hcalls hb⟩

theorem verified_by_owner_site : ∃ d',
    run (act (smallServer siteJwts) {}) launched registerSite = some d' ∧
    ∃ r' ∈ d'.sys.db.store.routes, r'.id = "new" ∧
      ((∃ r ∈ oneRoute.store.routes, r.id = r'.id ∧ r.verificationStatus = .verified) ∨
        ∃ b ∈ record (act (smallServer siteJwts) {}) (bindings (smallServer siteJwts)) launched
            registerSite,
          b.route.id = r'.id ∧ (∃ owner, b.Owner owner) ∧
            b.Vouched (smallServer siteJwts) (record (act (smallServer siteJwts) {})
              (passages (smallServer siteJwts)) launched registerSite)) := by
  have hends : (match run (act (smallServer siteJwts) {}) launched registerSite with
      | some d => d.sys.db.store.routes.any fun r =>
          decide (r.id = "new" ∧ r.verificationStatus = .verified)
      | none => false) = true := by
    decide +kernel
  cases hrun : run (act (smallServer siteJwts) {}) launched registerSite with
  | none =>
    rw [hrun] at hends
    cases hends
  | some d' =>
    rw [hrun] at hends
    obtain ⟨r', hr', hnew⟩ := List.any_eq_true.mp hends
    obtain ⟨hid, hv⟩ := of_decide_eq_true hnew
    exact ⟨d', rfl, r', hr', hid,
      verified_by_owner (smallServer siteJwts) {} _ d' registerSite rfl hrun r' hr' hv⟩

/-- **A route that is not verified is locked out until its owner registers it.** In any run of a
deployment in which no registration of the route goes through, whatever JWTs of it there are and
whatever else is done: a route that is not verified at the start is not verified at the end, and at
no time in between is a request let through as the route's. -/
theorem locked_out_until_registered (server : Server) (table : TaskTable) (d d' : Deployment)
    (es : List Activity) (hrun : run (act server table) d es = some d') (id : String)
    (hstart : ∀ r ∈ d.sys.db.store.routes, r.id = id → r.verificationStatus ≠ .verified)
    (hnone : ∀ b ∈ record (act server table) (bindings server) d es, b.route.id ≠ id) :
    (∀ r ∈ d'.sys.db.store.routes, r.id = id → r.verificationStatus ≠ .verified) ∧
    ∀ p ∈ record (act server table) (passages server) d es, ∀ params route,
      p.admitted = ⟨.jwt, params, route⟩ → route.id ≠ id := by
  have hlocked : ∀ es₁ es₂ d₁, es = es₁ ++ es₂ → run (act server table) d es₁ = some d₁ →
      ∀ r ∈ d₁.sys.db.store.routes, r.id = id → r.verificationStatus ≠ .verified := by
    rintro es₁ es₂ d₁ rfl hrun₁ r hr rfl hv
    rcases (run_bound hrun₁).verified r hr hv with ⟨r₀, hr₀, hid, hv₀⟩ | ⟨b, hb, hid, -⟩
    · exact hstart r₀ hr₀ hid hv₀
    · refine hnone b ?_ hid
      rw [record_append hrun₁]
      exact List.mem_append_left _ hb
  refine ⟨hlocked es [] d' (List.append_nil es).symm hrun, ?_⟩
  intro p hp params route hadmitted hid
  obtain ⟨hchecked, es₁, es₂, d₁, hsplit, hrun₁, hstore⟩ := passage_store hp
  unfold Passage.Checked at hchecked
  rw [hadmitted] at hchecked
  obtain ⟨xJwt, claims, -, -, -, hroute, hv⟩ := hchecked
  rw [hstore] at hroute
  exact hlocked es₁ es₂ d₁ hsplit hrun₁ route (lookup_mem hroute).1 hid hv

/-- The route of Alice has been unverified. -/
def lapsed : Deployment where
  sys := ⟨.load [.addUser alice, .addDomain openDomain,
    .addRoute { appRoute with verificationStatus := .unverified },
    .addOwnership ⟨alice.id, appRoute.id⟩], 0, []⟩

/-- Her JWT is not out of date. -/
def rotateApp : HttpRequest where
  method := .post
  path := "/api/v1/jwt".toList
  xJwt := some "app.jwt"

/-- It does not help her. -/
theorem locked_out_until_registered_app : ∃ d',
    run (act (smallServer [appJwt]) {}) lapsed [.arrive calmEnv rotateApp, .advance 0] = some d' ∧
    (∀ r ∈ d'.sys.db.store.routes, r.id = "r" → r.verificationStatus ≠ .verified) ∧
    ∀ p ∈ record (act (smallServer [appJwt]) {}) (passages (smallServer [appJwt])) lapsed
      [.arrive calmEnv rotateApp, .advance 0], ∀ params route,
        p.admitted = ⟨.jwt, params, route⟩ → route.id ≠ "r" := by
  have hends : (run (act (smallServer [appJwt]) {}) lapsed
      [.arrive calmEnv rotateApp, .advance 0]).isSome := by decide +kernel
  obtain ⟨d', hrun⟩ := Option.isSome_iff_exists.mp hends
  have hnone : ∀ b ∈ record (act (smallServer [appJwt]) {}) (bindings (smallServer [appJwt])) lapsed
      [.arrive calmEnv rotateApp, .advance 0], b.route.id ≠ "r" := by decide +kernel
  exact ⟨d', hrun, locked_out_until_registered (smallServer [appJwt]) {} lapsed d' _ hrun "r"
    (by decide +kernel) hnone⟩

end Runs

end RouteRegistry
