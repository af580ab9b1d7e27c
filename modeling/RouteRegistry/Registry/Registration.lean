import RouteRegistry.Registry.Services
import RouteRegistry.Registry.Writes

/-!
# Registrations

What one `register_route` call does, and from it what a sequence of calls does.

- `Resolves`: the domain, the user and the generated `src` of a call.
- `Registers`: every way the session body can end. `registerRouteBody_registers` is the
  one place where the body is unfolded.
- `Registered`: every way a call that returns normally can leave the store
  (`registerRoute_ok`). A call that raises leaves it alone (`registerRoute_error`).
-/

namespace RouteRegistry

open Relational UnitOfWork

/-! ## What a call resolves to -/

/-- The domain `register_route` works with: the named one, else the default. -/
def Store.domainFor (s : Store) (domainName : Option String) : Except Exc Domain :=
  ((findDomain domainName).run s).1

/-- Looking for the domain queues nothing, and finds a stored one. -/
theorem run_findDomain {s : Store} (hv : s.Valid) (domainName : Option String) :
    (findDomain domainName).run s = (s.domainFor domainName, []) ∧
      ∀ d, s.domainFor domainName = .ok d → d ∈ s.domains := by
  unfold Store.domainFor findDomain
  rw [Txn.run_bind_pure (DomainRepo.run_getByName hv domainName)]
  cases hname : domainName.bind fun n => lookup Domain.name n s.domains with
  | some d =>
    refine ⟨rfl, fun d' hd' => ?_⟩
    cases hd'
    obtain ⟨n, -, hl⟩ := Option.bind_eq_some_iff.mp hname
    exact (lookup_mem hl).1
  | none =>
    -- the default: none, one, or several of them
    have hfilter : ∀ d ∈ s.domains.filter Domain.default, d ∈ s.domains :=
      fun d hd => List.mem_of_mem_filter hd
    show DomainRepo.getDefault.run s = ((DomainRepo.getDefault.run s).1, []) ∧
      ∀ d, (DomainRepo.getDefault.run s).1 = .ok d → d ∈ s.domains
    have hquery : (queryOne Store.domains Domain.default).run s =
        (scalarOneOrNone (s.domains.filter Domain.default)).run s := rfl
    unfold DomainRepo.getDefault
    cases hds : s.domains.filter Domain.default with
    | nil =>
      rw [hds] at hquery
      rw [Txn.run_bind_pure hquery]
      exact ⟨rfl, fun d hd => by cases hd⟩
    | cons d rest =>
      rw [hds] at hquery
      cases rest with
      | nil =>
        rw [Txn.run_bind_pure hquery]
        refine ⟨rfl, fun d' hd' => ?_⟩
        cases hd'
        exact hfilter d (by rw [hds]; exact List.mem_cons_self)
      | cons d' rest =>
        rw [Txn.run_bind_error hquery]
        exact ⟨rfl, fun d hd => by cases hd⟩

/-- The call works with the domain `d` for the user `u` and generates `src`. -/
structure Resolves (s : Store) (reg : Registration) (draws : Draws) (d : Domain) (u : User)
    (src : String) : Prop where
  domain : s.domainFor reg.domainName = .ok d
  user : s.userOf (some reg.userUid) = some u
  url : d.urlOf (d.finalName reg.routeName u draws.nameId) reg.bindSubdomain = src

theorem Resolves.domain_mem {s : Store} (hv : s.Valid) {reg : Registration} {draws : Draws}
    {d : Domain} {u : User} {src : String} (h : Resolves s reg draws d u src) : d ∈ s.domains :=
  (run_findDomain hv reg.domainName).2 d h.domain

theorem Resolves.user_mem {s : Store} {reg : Registration} {draws : Draws}
    {d : Domain} {u : User} {src : String} (h : Resolves s reg draws d u src) :
    u ∈ s.users ∧ u.uid = some reg.userUid :=
  lookup_mem h.user

/-- A call resolves in at most one way. -/
theorem Resolves.unique {s : Store} {reg : Registration} {draws : Draws} {d d' : Domain}
    {u u' : User} {src src' : String} (h : Resolves s reg draws d u src)
    (h' : Resolves s reg draws d' u' src') : d = d' ∧ u = u' ∧ src = src' := by
  have hd : d = d' := by
    have := h.domain.symm.trans h'.domain
    cases this
    rfl
  have hu : u = u' := Option.some.inj (h.user.symm.trans h'.user)
  subst hd hu
  exact ⟨rfl, rfl, h.url.symm.trans h'.url⟩

/-! ## One call -/

/-- The attributes an owner's repeated call sets. -/
def rebindAttrs (route : Route) (community : Option Community) (now : Time) : List RouteAttr :=
  (match community, route.communityId with
    | some c, none => [.community (some c.id)]
    | _, _ => []) ++ [.lastContact now, .verificationStatus .verified]

/-- The route after a repeated call. -/
def Route.rebind (route : Route) (community : Option Community) (now : Time) : Route :=
  RouteAttr.setAll (rebindAttrs route community now) route

@[simp] theorem Route.rebind_id (route : Route) (community : Option Community) (now : Time) :
    (route.rebind community now).id = route.id :=
  RouteAttr.setAll_id _ route

@[simp] theorem Route.rebind_verificationStatus (route : Route) (community : Option Community)
    (now : Time) : (route.rebind community now).verificationStatus = .verified := by
  unfold Route.rebind rebindAttrs
  cases community <;> cases route.communityId <;> rfl

@[simp] theorem Route.rebind_status (route : Route) (community : Option Community)
    (now : Time) : (route.rebind community now).status = route.status := by
  unfold Route.rebind rebindAttrs
  cases community <;> cases route.communityId <;> rfl

/-- A repeated call keeps the community of a route that has one, and gives the one it
names to a route without. -/
theorem Route.rebind_communityId (route : Route) (community : Option Community) (now : Time) :
    (route.rebind community now).communityId =
      match route.communityId with
      | some c => some c
      | none => community.map Community.id := by
  unfold Route.rebind rebindAttrs
  cases community <;> cases h : route.communityId <;> simp [RouteAttr.setAll, RouteAttr.set, h]

theorem run_rebindRoute (s : Store) (route : Route) (community : Option Community) (now : Time) :
    (rebindRoute route community now).run s =
      (.ok (route.rebind community now),
        (rebindAttrs route community now).map (.setRoute route.id)) := by
  unfold rebindRoute Route.rebind rebindAttrs
  cases community with
  | none => rfl
  | some c => cases route.communityId <;> rfl

/-- Every way the body of `register_route` can end. -/
inductive Registers (s : Store) (reg : Registration) (draws : Draws) :
    Except Exc Route × List Change → Prop where
  /-- There is no domain or no such user. -/
  | unresolved {e : Exc} (h : ∀ d u src, ¬ Resolves s reg draws d u src) :
    Registers s reg draws (.error e, [])
  | taken {d : Domain} {u : User} {src : String} {r : Route} (h : Resolves s reg draws d u src)
      (hr : s.routeOfSrc src = some r) (hown : u.id ∉ s.owners r.id) :
    Registers s reg draws (.error ⟨.notAllowed, "Route already taken", none⟩, [])
  | rebound {d : Domain} {u : User} {src : String} {r : Route}
      (h : Resolves s reg draws d u src) (hr : s.routeOfSrc src = some r)
      (hown : u.id ∈ s.owners r.id) :
    Registers s reg draws (.ok (r.rebind reg.community draws.now),
      (rebindAttrs r reg.community draws.now).map (.setRoute r.id))
  | restricted {d : Domain} {u : User} {src : String} (h : Resolves s reg draws d u src)
      (hr : s.routeOfSrc src = none) (hd : d.restricted = true) :
    Registers s reg draws
      (.error ⟨.notAllowed, "Unable to register with restricted domain", none⟩, [])
  | created {d : Domain} {u : User} {src : String} (h : Resolves s reg draws d u src)
      (hr : s.routeOfSrc src = none) (hd : d.restricted = false) :
    Registers s reg draws (.ok (newRoute d src reg draws),
      [.addRoute (newRoute d src reg draws),
        .addOwnership ⟨u.id, (newRoute d src reg draws).id⟩])

/-- **The body of `register_route`, case by case.** -/
theorem registerRouteBody_registers {s : Store} (hv : s.Valid) (reg : Registration)
    (draws : Draws) : Registers s reg draws ((registerRouteBody reg draws).run s) := by
  unfold registerRouteBody
  cases hdom : s.domainFor reg.domainName with
  | error e =>
    have hfind := (run_findDomain hv reg.domainName).1
    rw [hdom] at hfind
    rw [Txn.run_bind_error hfind]
    exact .unresolved fun d u src h => by
      have := hdom.symm.trans h.domain
      cases this
  | ok d =>
    have hfind := (run_findDomain hv reg.domainName).1
    rw [hdom] at hfind
    rw [Txn.run_bind_pure hfind]
    cases huser : s.userOf (some reg.userUid) with
    | none =>
      rw [Txn.run_bind_error (EntityRepo.run_getUser_none hv huser)]
      exact .unresolved fun d u src h => by
        have := huser.symm.trans h.user
        cases this
    | some u =>
      -- with a user at hand the URL is generated in every type of domain
      rw [Txn.run_bind_pure (EntityRepo.run_getUser_some hv huser), d.createSrcUrl_some,
        Txn.run_ofExcept_ok_bind, Txn.run_bind_pure (RouteRepo.run_getBySrc hv _)]
      have hres : Resolves s reg draws d u
          (d.urlOf (d.finalName reg.routeName u draws.nameId) reg.bindSubdomain) :=
        ⟨hdom, huser, rfl⟩
      cases hr : s.routeOfSrc
          (d.urlOf (d.finalName reg.routeName u draws.nameId) reg.bindSubdomain) with
      | some r =>
        simp only [RouteRepo.entities, Txn.run_get_bind]
        by_cases hown : u.id ∈ s.owners r.id
        · rw [if_neg (not_not.mpr hown)]
          refine (run_rebindRoute s r reg.community draws.now).symm ▸ ?_
          exact .rebound hres hr hown
        · rw [if_pos hown]
          exact .taken hres hr hown
      | none =>
        cases hd : d.restricted with
        | true => exact .restricted hres hr hd
        | false => exact .created hres hr hd

/-- A call that raises changes nothing. -/
theorem registerRoute_error {eng : Engine} {reg : Registration} {draws : Draws}
    {db db' : Database} {e : Exc} (h : registerRoute eng reg draws db = .error e db') :
    db' = db :=
  withUOW_error h

/-- Every way a call that returns `r'` can leave the store. -/
inductive Registered (s : Store) (reg : Registration) (draws : Draws) (r' : Route) :
    Store → Prop where
  | rebound {d : Domain} {u : User} {src : String} {r : Route}
      (h : Resolves s reg draws d u src) (hr : s.routeOfSrc src = some r)
      (hown : u.id ∈ s.owners r.id) (hret : r' = r.rebind reg.community draws.now) :
    Registered s reg draws r' (s.withAttrs r.id (rebindAttrs r reg.community draws.now))
  | created {d : Domain} {u : User} {src : String} (h : Resolves s reg draws d u src)
      (hr : s.routeOfSrc src = none) (hd : d.restricted = false)
      (hret : r' = newRoute d src reg draws) (hfresh : s.FreshFor r') :
    Registered s reg draws r' (s.withRoute r' u.id)
  /-- The commit broke a foreign key, and the handler let it pass. -/
  | dropped {c : Community} (hc : reg.community = some c) (hcs : c.id ∉ s.communityIds) :
    Registered s reg draws r' s

/-- A rebinding goes through unless it names a community that is not stored. -/
theorem flush_rebind {s : Store} {r : Route} (community : Option Community) (now : Time)
    (hr : r.id ∈ s.routeIds) (hc : ∀ c, community = some c → c.id ∈ s.communityIds) :
    flush s ((rebindAttrs r community now).map (.setRoute r.id)) =
      .ok (s.withAttrs r.id (rebindAttrs r community now)) := by
  refine flush_setRoute _ hr fun a ha c hca => ?_
  unfold rebindAttrs at ha
  rcases List.mem_append.mp ha with ha | ha
  · cases hcomm : community with
    | none =>
      rw [hcomm] at ha
      cases ha
    | some c' =>
      rw [hcomm] at ha
      cases hrc : r.communityId with
      | none =>
        rw [hrc, List.mem_singleton] at ha
        subst ha
        cases hca
        exact hc c' hcomm
      | some _ =>
        rw [hrc] at ha
        cases ha
  · rcases List.mem_cons.mp ha with rfl | ha
    · cases hca
    · rw [List.mem_singleton] at ha
      subst ha
      cases hca

/-- A rebinding breaks a foreign key when it writes a community that is not stored. -/
theorem flush_rebind_cases {s : Store} {r : Route} (community : Option Community) (now : Time)
    (hr : r.id ∈ s.routeIds) :
    (((∃ c, community = some c ∧ c.id ∉ s.communityIds) ∧ r.communityId = none) ∧
        flush s ((rebindAttrs r community now).map (.setRoute r.id)) =
          .error (.integrity .foreignKey)) ∨
      (¬ ((∃ c, community = some c ∧ c.id ∉ s.communityIds) ∧ r.communityId = none) ∧
        flush s ((rebindAttrs r community now).map (.setRoute r.id)) =
          .ok (s.withAttrs r.id (rebindAttrs r community now))) := by
  by_cases hc : ∃ c, community = some c ∧ c.id ∉ s.communityIds
  · obtain ⟨c, rfl, hcs⟩ := hc
    cases hrc : r.communityId with
    | none =>
      refine .inl ⟨⟨⟨c, rfl, hcs⟩, rfl⟩, ?_⟩
      simp only [rebindAttrs, hrc, List.singleton_append, List.map_cons]
      exact flush_setCommunity_dangling hr hcs
    | some c' =>
      -- the route keeps the community it has, so the named one is not written
      have hattrs : rebindAttrs r (some c) now = rebindAttrs r none now := by
        simp [rebindAttrs, hrc]
      refine .inr ⟨by simp, ?_⟩
      rw [hattrs]
      exact flush_rebind none now hr (by simp)
  · exact .inr ⟨fun h => hc h.1,
      flush_rebind community now hr fun c hcomm => by_contra fun hcs => hc ⟨c, hcomm, hcs⟩⟩

theorem Store.routeOfSrc_mem {s : Store} {src : String} {r : Route}
    (h : s.routeOfSrc src = some r) : r ∈ s.routes ∧ r.src = src :=
  lookup_mem h

theorem Store.mem_routeIds_of_src {s : Store} {src : String} {r : Route}
    (h : s.routeOfSrc src = some r) : r.id ∈ s.routeIds :=
  List.mem_map.mpr ⟨r, (Store.routeOfSrc_mem h).1, rfl⟩

theorem Store.routeOfSrc_none {s : Store} {src : String} (h : s.routeOfSrc src = none) :
    src ∉ s.routes.map Route.src := by
  rw [← lookup_isSome_iff]
  simp [show lookup Route.src src s.routes = none from h]

/-- A creation breaks a unique constraint when its draws are not fresh, and a foreign key
when the community it names is not stored. -/
theorem flush_created_cases {s : Store} (hv : s.Valid) {reg : Registration} {draws : Draws}
    {d : Domain} {u : User} {src : String} (hres : Resolves s reg draws d u src)
    (hr : s.routeOfSrc src = none) :
    let route := newRoute d src reg draws
    let Δ : List Change := [.addRoute route, .addOwnership ⟨u.id, route.id⟩]
    (¬ s.FreshFor route ∧ flush s Δ = .error (.integrity .unique)) ∨
      (s.FreshFor route ∧ (∃ c, reg.community = some c ∧ c.id ∉ s.communityIds) ∧
        flush s Δ = .error (.integrity .foreignKey)) ∨
      (s.FreshFor route ∧ (¬ ∃ c, reg.community = some c ∧ c.id ∉ s.communityIds) ∧
        flush s Δ = .ok (s.withRoute route u.id)) := by
  intro route Δ
  have hsrc : route.src ∉ s.routes.map Route.src := Store.routeOfSrc_none hr
  have hdomain : route.domainId ∈ s.domainIds :=
    List.mem_map.mpr ⟨d, hres.domain_mem hv, rfl⟩
  have howner : u.id ∈ s.entityIds := Store.user_mem_entityIds hres.user_mem.1
  by_cases hfresh : s.FreshFor route
  · by_cases hc : ∃ c, reg.community = some c ∧ c.id ∉ s.communityIds
    · obtain ⟨c, hcomm, hcs⟩ := hc
      have hrc : route.communityId = some c.id := by simp [route, newRoute, hcomm]
      exact .inr (.inl ⟨hfresh, ⟨c, hcomm, hcs⟩,
        flush_newRoute_dangling hfresh hsrc hdomain hrc hcs⟩)
    · have hstored : ∀ c, route.communityId = some c → c ∈ s.communityIds := by
        intro c hrc
        obtain ⟨c', hcomm, rfl⟩ := Option.map_eq_some_iff.mp hrc
        exact by_contra fun hcs => hc ⟨c', hcomm, hcs⟩
      exact .inr (.inr ⟨hfresh, hc, flush_newRoute hv hfresh hsrc hdomain howner hstored⟩)
  · exact .inl ⟨hfresh, flush_newRoute_stale hfresh hsrc⟩

/-- **A `register_route` call that returns normally.** -/
theorem registerRoute_ok {eng : Engine} {reg : Registration} {draws : Draws}
    {db db' : Database} {r' : Route} (h : registerRoute eng reg draws db = .ok r' db') :
    Registered db.store reg draws r' db'.store := by
  obtain ⟨Δ, hrun, -⟩ := withUOW_ok h
  have hbody := registerRouteBody_registers db.valid reg draws
  rw [hrun] at hbody
  cases hbody with
  | @rebound d u src r hres hr hown =>
    rcases flush_rebind_cases reg.community draws.now (Store.mem_routeIds_of_src hr) with
      ⟨⟨⟨c, hc, hcs⟩, -⟩, hf⟩ | ⟨-, hf⟩
    · rw [(withUOW_ok_of_refused h hrun hf).2.1]
      exact .dropped hc hcs
    · rw [(withUOW_ok_of_flush h hrun hf).2]
      exact .rebound hres hr hown rfl
  | @created d u src hres hr hd =>
    -- a stale draw raises, a dangling community is swallowed
    rcases flush_created_cases db.valid hres hr with
      ⟨-, hf⟩ | ⟨-, ⟨c, hc, hcs⟩, hf⟩ | ⟨hfresh, -, hf⟩
    · obtain ⟨-, -, k, hk, hne⟩ := withUOW_ok_of_refused h hrun hf
      cases hk
      exact absurd rfl hne
    · rw [(withUOW_ok_of_refused h hrun hf).2.1]
      exact .dropped hc hcs
    · rw [(withUOW_ok_of_flush h hrun hf).2]
      exact .created hres hr hd rfl hfresh

/-- What a call does to the store: nothing, or what a call that returns does. -/
theorem registerRoute_after_cases (eng : Engine) (reg : Registration) (draws : Draws)
    (db : Database) :
    ((registerRoute eng reg draws).after db).store = db.store ∨
      ∃ r' db', registerRoute eng reg draws db = .ok r' db' ∧
        Registered db.store reg draws r' ((registerRoute eng reg draws).after db).store := by
  cases hcall : registerRoute eng reg draws db with
  | error e db' =>
    left
    rw [Service.after_of_error hcall, registerRoute_error hcall]
  | ok r' db' =>
    right
    refine ⟨r', db', rfl, ?_⟩
    rw [Service.after_of_ok hcall]
    exact registerRoute_ok hcall

end RouteRegistry
