import RouteRegistry.Registry.Mediation

/-!
# Who sees which routes

Wire objects of routes show all there is to know of them, their tokens too. They are in the
answers of the listings and of the communities.

- `Reply.shown`: the routes that an answer shows.
- `Admitted.Sees`: the routes that a request may be shown.
- `answers_visible`: no answer but an error shows any other.
-/

namespace RouteRegistry

open Relational UnitOfWork Calls Runs

/-! ## What answers show -/

/-- The wire objects of routes in an answer. -/
def Reply.shown : Reply → List PydanticRoute
  | .routes pRoutes => pRoutes
  | .communities pCommunities => pCommunities.flatMap PydanticCommunity.routes
  | .community pCommunity => pCommunity.toList.flatMap PydanticCommunity.routes
  | _ => []

/-- The same, of a request that was answered. -/
def CallStage.shown : CallStage → List PydanticRoute
  | .answered _ _ _ (.ok reply) => reply.shown
  | _ => []

theorem CallStage.shown_ne_nil {stage : CallStage} (h : stage.shown ≠ []) :
    ∃ since a now reply, stage = .answered since a now (.ok reply) ∧ stage.shown = reply.shown := by
  cases stage with
  | answered since a now outcome =>
    cases outcome with
    | ok reply => exact ⟨since, a, now, reply, rfl, rfl⟩
    | error e => exact absurd rfl h
  | _ => exact absurd rfl h

/-- The user that a guard lets through. -/
def Guard.user : (guard : Guard) → guard.Caller → Option User
  | .tokenOrFallback, (user : User) => some user
  | .tokenService, (user : User) => some user
  | .admin, (user : User) => some user
  | _, _ => none

/-- The routes that a request may be shown. (Who has an empty id is not told from others.) -/
inductive Admitted.Sees (s : Store) (a : Admitted) (r : Route) : Prop where
  /-- Everybody sees the routes that are verified and up. -/
  | published (verified : r.verificationStatus = .verified) (up : r.status = .up)
  /-- Observers see all. -/
  | observer (guard : a.handler.guard = .adminRole .observer)
  | owner {user : User} (caller : a.handler.guard.user a.caller = some user)
      (owns : user.id ≠ "" → user.id ∈ s.owners r.id)
  /-- The owner of a community sees the routes in it. -/
  | community {user : User} {c : Community} (caller : a.handler.guard.user a.caller = some user)
      (mem : c ∈ s.communities) (owns : user.id ≠ "" → c.entityId = user.id)
      (member : r.communityId = some c.id)

/-- A wire object of a stored route that the request may be shown. -/
def Admitted.Shows (s : Store) (a : Admitted) (pRoute : PydanticRoute) : Prop :=
  ∃ r ∈ s.routes, a.Sees s r ∧ ∃ withRules, fromRoute (s.load r) withRules = .ok pRoute

/-! ## Handlers -/

section Handlers

variable {server : Server} {env : Env} {request : HttpRequest} {db db' : Database} {reply : Reply}

theorem listLoadedRoutes_ok {eng : Engine} {vs : Option VerificationStatus} {st : Option Status}
    {name entityId : Option String} {routes : List LoadedRoute}
    (h : listLoadedRoutes eng vs st name entityId db = .ok routes db') :
    routes = (db.store.routes.filter
      (RouteRepo.matchesFilters eng.like db.store vs st name entityId)).map db.store.load := by
  obtain ⟨Δ, hrun, -⟩ := withUOW_ok h
  rw [run_listLoaded] at hrun
  exact (Except.ok.inj (Prod.mk.inj hrun).1).symm

/-- The wire objects of a listing. -/
theorem listed_ok {routes : List LoadedRoute} {rows : List Route} {pRoutes : List PydanticRoute}
    {s : Store} (hload : routes = rows.map s.load)
    (h : (routes.mapM fun r => fromRoute r) = .ok pRoutes) {pRoute : PydanticRoute}
    (hp : pRoute ∈ pRoutes) : ∃ r ∈ rows, fromRoute (s.load r) = .ok pRoute := by
  obtain ⟨loaded, hloaded, hfrom⟩ := mem_of_mapM_eq_ok h hp
  rw [hload] at hloaded
  obtain ⟨r, hr, rfl⟩ := List.mem_map.mp hloaded
  exact ⟨r, hr, hfrom⟩

/-- The wire objects of a query pass its filters. -/
theorem queryRoutes_ok {filters : Filters} {entityId : Option String}
    (h : server.queryRoutes filters entityId db = .ok reply db') {pRoute : PydanticRoute}
    (hp : pRoute ∈ reply.shown) :
    ∃ r ∈ db.store.routes, fromRoute (db.store.load r) = .ok pRoute ∧
      (Text.truthy entityId = true → Text.fieldText entityId ∈ db.store.owners r.id) := by
  obtain ⟨vs, db₁, hvs, h⟩ := bind_eq_ok.mp h
  obtain ⟨-, rfl⟩ := ofExcept_eq_ok.mp hvs
  obtain ⟨st, db₂, hst, h⟩ := bind_eq_ok.mp h
  obtain ⟨-, rfl⟩ := ofExcept_eq_ok.mp hst
  obtain ⟨routes, db₃, hlist, h⟩ := bind_eq_ok.mp h
  obtain ⟨pRoutes, hfrom, rfl⟩ := map_eq_ok.mp h
  obtain ⟨hfrom, -⟩ := ofExcept_eq_ok.mp hfrom
  obtain ⟨r, hr, hpRoute⟩ := listed_ok (listLoadedRoutes_ok hlist) hfrom hp
  obtain ⟨hr, hmatch⟩ := List.mem_filter.mp hr
  refine ⟨r, hr, hpRoute, fun htruthy => ?_⟩
  simp only [RouteRepo.matchesFilters, Bool.and_eq_true, htruthy, Bool.not_true, Bool.false_or,
    decide_eq_true_eq] at hmatch
  exact hmatch.2

theorem activeRoutes_ok (h : server.activeRoutes db = .ok reply db') {pRoute : PydanticRoute}
    (hp : pRoute ∈ reply.shown) :
    ∃ r ∈ db.store.routes, fromRoute (db.store.load r) = .ok pRoute ∧
      r.verificationStatus = .verified ∧ r.status = .up := by
  obtain ⟨routes, db₁, hlist, h⟩ := bind_eq_ok.mp h
  obtain ⟨pRoutes, hfrom, rfl⟩ := map_eq_ok.mp h
  obtain ⟨hfrom, -⟩ := ofExcept_eq_ok.mp hfrom
  obtain ⟨r, hr, hpRoute⟩ := listed_ok (listLoadedRoutes_ok hlist) hfrom hp
  obtain ⟨hr, hmatch⟩ := List.mem_filter.mp hr
  simp only [RouteRepo.matchesFilters, Bool.and_eq_true, decide_eq_true_eq] at hmatch
  exact ⟨r, hr, hpRoute, hmatch.1.1.1, hmatch.1.1.2⟩

/-- The wire objects in a loaded community are of its routes. -/
theorem fromCommunity_ok {s : Store} {c : Community} {pCommunity : PydanticCommunity}
    (h : fromCommunity (s.loadCommunity c) = .ok pCommunity) {pRoute : PydanticRoute}
    (hp : pRoute ∈ pCommunity.routes) :
    ∃ r ∈ s.routes, r.communityId = some c.id ∧ fromRoute (s.load r) false = .ok pRoute := by
  unfold fromCommunity at h
  cases hroutes : (s.loadCommunity c).routes.mapM fun r => fromRoute r false with
  | error e =>
    rw [hroutes] at h
    cases h
  | ok pRoutes =>
    rw [hroutes] at h
    cases h
    obtain ⟨loaded, hloaded, hfrom⟩ := mem_of_mapM_eq_ok hroutes hp
    obtain ⟨r, hr, rfl⟩ := List.mem_map.mp hloaded
    obtain ⟨hr, hmember⟩ := List.mem_filter.mp hr
    exact ⟨r, hr, of_decide_eq_true hmember, hfrom⟩

/-- A community that is found for an owner is that owner's. -/
theorem ownedBy_some {entityId : String} {c : Community}
    (h : CommunityRepo.ownedBy (some entityId) c = true) :
    entityId ≠ "" → c.entityId = entityId := by
  intro hne
  simpa [CommunityRepo.ownedBy, Text.truthy, hne] using h

theorem listLoadedCommunities_ok {eng : Engine} {entityId : String}
    {communities : List LoadedCommunity}
    (h : listLoadedCommunities eng (some entityId) db = .ok communities db') :
    communities = (db.store.communities.filter
      (CommunityRepo.ownedBy (some entityId))).map db.store.loadCommunity := by
  obtain ⟨Δ, hrun, -⟩ := withUOW_ok h
  exact (Except.ok.inj (Prod.mk.inj hrun).1).symm

theorem getLoadedCommunity_ok {eng : Engine} {user : User} {idOrName : String}
    {community : Option LoadedCommunity}
    (h : getLoadedCommunity eng user idOrName db = .ok community db') :
    ∀ loaded, community = some loaded → ∃ c ∈ db.store.communities,
      loaded = db.store.loadCommunity c ∧ (user.id ≠ "" → c.entityId = user.id) := by
  obtain ⟨Δ, hrun, -⟩ := withUOW_ok h
  have hget := run_getCommunity db.store idOrName (some user.id)
  cases hfound : db.store.communityFor idOrName (some user.id) with
  | error e =>
    rw [hfound] at hget
    rw [Txn.run_bind_error hget] at hrun
    cases hrun
  | ok found =>
    rw [hfound] at hget
    rw [Txn.run_bind_pure hget] at hrun
    cases hrun
    intro loaded hloaded
    obtain ⟨c, rfl, rfl⟩ := Option.map_eq_some_iff.mp hloaded
    obtain ⟨hmem, hmatch⟩ := Store.communityFor_mem hfound
    unfold Community.matchesKey at hmatch
    exact ⟨c, hmem, rfl, ownedBy_some (Bool.and_eq_true_iff.mp hmatch).2⟩

/-- **What a handler shows** the request may see. -/
theorem call_shows {params : List String} {handler : Handler} {caller : handler.guard.Caller}
    (h : server.call env request params handler caller db = .ok reply db') {pRoute : PydanticRoute}
    (hp : pRoute ∈ reply.shown) : Admitted.Shows db.store ⟨handler, params, caller⟩ pRoute := by
  have hnone : Yields (fun reply : Reply => reply.shown = [])
      (server.call env request params handler caller) →
      Admitted.Shows db.store ⟨handler, params, caller⟩ pRoute := by
    intro hyields
    rw [hyields db reply db' h] at hp
    cases hp
  obtain ⟨method, path, xToken, xJwt, xTarget, session, filters, body⟩ := request
  cases handler with
  | listRoutes =>
    obtain ⟨r, hr, hfrom, -⟩ := queryRoutes_ok h hp
    exact ⟨r, hr, .observer rfl, true, hfrom⟩
  | listActive =>
    obtain ⟨r, hr, hfrom, hv, hup⟩ := activeRoutes_ok h hp
    exact ⟨r, hr, .published hv hup, true, hfrom⟩
  | listAvailable =>
    obtain ⟨r, hr, hfrom, hv, hup⟩ := activeRoutes_ok h hp
    exact ⟨r, hr, .published hv hup, true, hfrom⟩
  | listUserRoutes =>
    obtain ⟨r, hr, hfrom, hown⟩ := queryRoutes_ok h hp
    refine ⟨r, hr, .owner rfl fun hne => hown ?_, true, hfrom⟩
    simpa [Text.truthy] using hne
  | listCommunities =>
    obtain ⟨communities, db₁, hlist, h⟩ := bind_eq_ok.mp h
    obtain ⟨pCommunities, hfrom, rfl⟩ := map_eq_ok.mp h
    obtain ⟨hfrom, -⟩ := ofExcept_eq_ok.mp hfrom
    obtain ⟨pCommunity, hpCommunity, hp⟩ := List.mem_flatMap.mp hp
    obtain ⟨loaded, hloaded, hcommunity⟩ := mem_of_mapM_eq_ok hfrom hpCommunity
    rw [listLoadedCommunities_ok hlist] at hloaded
    obtain ⟨c, hc, rfl⟩ := List.mem_map.mp hloaded
    obtain ⟨hc, howned⟩ := List.mem_filter.mp hc
    obtain ⟨r, hr, hmember, hpRoute⟩ := fromCommunity_ok hcommunity hp
    exact ⟨r, hr, .community rfl hc (ownedBy_some howned) hmember, false, hpRoute⟩
  | getCommunity =>
    obtain ⟨community, db₁, hget, h⟩ := bind_eq_ok.mp h
    obtain ⟨pCommunity, hfrom, rfl⟩ := map_eq_ok.mp h
    obtain ⟨hfrom, -⟩ := ofExcept_eq_ok.mp hfrom
    cases community with
    | none =>
      cases hfrom
      cases hp
    | some loaded =>
      obtain ⟨c, hc, rfl, howned⟩ := getLoadedCommunity_ok hget loaded rfl
      cases hcommunity : fromCommunity (db.store.loadCommunity c) with
      | error e =>
        rw [Option.mapM_some, hcommunity] at hfrom
        cases hfrom
      | ok pCommunity' =>
        rw [Option.mapM_some, hcommunity] at hfrom
        cases hfrom
        have hp : pRoute ∈ pCommunity'.routes := by simpa [Reply.shown] using hp
        obtain ⟨r, hr, hmember, hpRoute⟩ := fromCommunity_ok hcommunity hp
        exact ⟨r, hr, .community rfl hc howned hmember, false, hpRoute⟩
  | createCommunity =>
    cases body with
    | none => cases h
    | some body =>
      cases body with
      | community pCommunity =>
        refine hnone (yields_bind fun community => ?_)
        intro db reply db' h
        cases h
        rfl
      | _ => cases h
  | createDomain | createUser | createGroup =>
    cases body with
    | none => cases h
    | some body =>
      cases body <;> first | exact hnone (yields_bind fun _ => yields_pure rfl) | cases h
  | createToken =>
    cases body with
    | none => cases h
    | some body =>
      cases body <;> first | exact hnone (yields_map fun _ => rfl) | cases h
  | addRoute =>
    refine hnone (yields_bind fun m => ?_)
    cases m with
    | none => exact yields_pure rfl
    | some m => exact yields_pure rfl
  | listDomains | listUsers | listGroups | listTokens | removeFromCommunity | removeCommunity
  | makeDefaultDomain | deleteDomain | deleteUser | grantAdminRole | revokeAdminRole | deleteGroup
  | deleteByValue => exact hnone (yields_bind fun _ => yields_pure rfl)
  | jwks | hello | jwt | register => exact hnone (yields_pure rfl)

/-- What the next step of a request answers, the request may be shown. -/
theorem Proceeds.shows {now : Time} {b b' : Backend} {call : InFlight} {since : Time}
    {a : Admitted} {now' : Time}
    (h : Proceeds server now b call b' (.answered since a now' (.ok reply)))
    {pRoute : PydanticRoute} (hp : pRoute ∈ reply.shown) : a.Shows b.db.store pRoute := by
  cases h with
  | registered hstage hrun =>
    obtain ⟨route, jwt, -, -, -, rfl⟩ := registerLocated_ok hrun
    cases hp
  | @rotated _ _ route _ _ hstage hrun =>
    cases hrotate : server.rotate call.env now route b with
    | ok reply' b₁ =>
      rw [hrotate] at hrun
      cases hrun
      obtain ⟨⟨jwt, rfl, -⟩, -⟩ := rotate_ok hrotate
      cases hp
    | error e b₁ =>
      rw [hrotate] at hrun
      cases hrun
  | @called _ _ db _ hstage hother hrun =>
    unfold onStore within at hrun
    cases hcall : server.call call.env call.request a.params a.handler a.caller b.db with
    | ok reply' db' =>
      rw [hcall] at hrun
      cases hrun
      exact call_shows hcall hp
    | error e db' =>
      rw [hcall] at hrun
      cases hrun

end Handlers

/-! ## Runs -/

/-- The store that an activity finds. -/
def found (d : Deployment) (_ : Activity) : List Store := [d.sys.db.store]

/-- What the answers show was so at some time. -/
def Deployment.Discreet (log : List Store) (d : Deployment) : Prop :=
  ∀ call ∈ d.calls, ∀ since a now reply, call.stage = .answered since a now (.ok reply) →
    ∃ s ∈ log, ∀ pRoute ∈ reply.shown, a.Shows s pRoute

section Runs

variable {server : Server} {table : TaskTable} {d d' : Deployment}

theorem act_discreet {log : List Store} {e : Activity} (h : d.Discreet log)
    (hact : act server table d e = some d') : d'.Discreet (log ++ found d e) := by
  intro call hcall since a now reply hstage
  rcases act_calls hact hcall with hold | harrived | ⟨i, before, b, -, -, hproceeds, -, -⟩
  · obtain ⟨s, hs, hshows⟩ := h call hold since a now reply hstage
    exact ⟨s, List.mem_append_left _ hs, hshows⟩
  · cases harrived.symm.trans hstage
  · rw [hstage] at hproceeds
    exact ⟨_, List.mem_append_right _ (List.mem_singleton_self _), fun pRoute hp =>
      hproceeds.shows hp⟩

/-- **Answers show nobody more than they may see.** In any run of a deployment that starts without
requests in flight, whatever else goes on: a request that was answered, with a reply and not with an
error, has been let through by its guard, and at one time in the run the routes that the reply shows
were as it shows them, and were open to everybody, the caller's own or in the caller's community, or
the caller is an observer. (Errors may show more: `addRouteToCommunityBody` prints a community.) -/
theorem answers_visible (server : Server) (table : TaskTable) (d d' : Deployment)
    (es : List Activity) (hcalls : d.calls = [])
    (hrun : run (act server table) d es = some d') (call : InFlight) (hcall : call ∈ d'.calls)
    (since : Time) (a : Admitted) (now : Time) (reply : Reply)
    (hstage : call.stage = .answered since a now (.ok reply)) :
    (∃ p ∈ record (act server table) (passages server) d es, p.Checked server ∧
      p.request = call.request ∧ p.admitted = a) ∧
    ∃ s ∈ record (act server table) found d es, ∀ pRoute ∈ reply.shown, a.Shows s pRoute := by
  have hstart : d.Discreet [] := by
    intro call hcall
    rw [hcalls] at hcall
    cases hcall
  have hkeep : ∀ (log : List Store) (d₁ : Deployment) (e : Activity) (d₂ : Deployment),
      d₁.Discreet log → True → act server table d₁ e = some d₂ →
      d₂.Discreet (log ++ found d₁ e) :=
    fun log d₁ e d₂ h _ hact => act_discreet h hact
  refine ⟨?_, ?_⟩
  · obtain ⟨s, hlog⟩ := run_vouched hcalls hrun call hcall since a (by rw [hstage]; rfl)
    obtain ⟨_, _, _, _, -, -, hpassage⟩ := mem_record hlog
    exact ⟨_, hlog, mem_passages hpassage, rfl, rfl⟩
  · have hend : d'.Discreet (record (act server table) found d es) :=
      run_records (I := fun log d₁ => d₁.Discreet log) hkeep (along_of_forall fun _ _ => trivial)
        hrun hstart
    exact hend call hcall since a now reply hstage

end Runs

/-- Alice asks for her routes. -/
def ownRoutes : HttpRequest where
  method := .get
  path := "/api/latest/route".toList

/-- She is shown the one she has, which is down. -/
theorem answers_visible_own : ∃ d' since a now reply pRoute,
    run (act (smallServer []) {}) launched [.arrive calmEnv ownRoutes, .advance 0, .advance 0] =
        some d' ∧
      (∃ call ∈ d'.calls, call.stage = .answered since a now (.ok reply)) ∧
      reply.shown = [pRoute] ∧ ∃ s ∈ record (act (smallServer []) {}) found launched
        [.arrive calmEnv ownRoutes, .advance 0, .advance 0], a.Shows s pRoute := by
  have hends : (match run (act (smallServer []) {}) launched
        [.arrive calmEnv ownRoutes, .advance 0, .advance 0] with
      | some d => d.calls.any fun call => decide (call.stage.shown.length = 1)
      | none => false) = true := by
    decide +kernel
  cases hrun : run (act (smallServer []) {}) launched
      [.arrive calmEnv ownRoutes, .advance 0, .advance 0] with
  | none =>
    rw [hrun] at hends
    cases hends
  | some d' =>
    rw [hrun] at hends
    obtain ⟨call, hcall, hanswer⟩ := List.any_eq_true.mp hends
    obtain ⟨pRoute, hone⟩ := List.length_eq_one_iff.mp (of_decide_eq_true hanswer)
    obtain ⟨since, a, now, reply, hstage, hshown⟩ :=
      CallStage.shown_ne_nil (hone ▸ List.cons_ne_nil pRoute [])
    have hone := hshown.symm.trans hone
    obtain ⟨-, s, hs, hshows⟩ := answers_visible (smallServer []) {} launched d' _ rfl hrun call
      hcall since a now reply hstage
    exact ⟨d', since, a, now, reply, pRoute, rfl, ⟨call, hcall, hstage⟩, hone, s, hs,
      hshows pRoute (hone ▸ List.mem_singleton_self _)⟩

end RouteRegistry
