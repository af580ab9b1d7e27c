import RouteRegistry.Registry.Communities
import RouteRegistry.Registry.Ownership
import RouteRegistry.Registry.Transactions
import RouteRegistry.Relational.Runs

/-!
# Routes in communities

A route shares the policy of the community it is in, so its presence there is the
community owner's business: the owner also owns the route, or has approved a request
for it (`Store.Admits`). In runs of the five calls that touch communities:

- the registration endpoint looks the community up for its caller, who owns the route
  (`register_after`, `register_consented`);
- `add_route_to_community` asks who owns the route, not who owns the community, so it
  keeps to this only where a call happens to (`CommunityCall.Consents`).
-/

namespace RouteRegistry

open Relational UnitOfWork Runs

/-! ## Consent -/

/-- The community admits the route: its owner owns the route, or has approved a request
for it. -/
def Store.Admits (s : Store) (c : Community) (routeId : String) : Prop :=
  c.entityId ∈ s.owners routeId ∨
    ∃ m ∈ s.requests, m.communityId = c.id ∧ m.routeId = routeId ∧ m.status = .approved

/-- Every route in a community is admitted there. -/
def Store.Consented (s : Store) : Prop :=
  ∀ r ∈ s.routes, ∀ c ∈ s.communities, r.communityId = some c.id → s.Admits c r.id

theorem Store.Admits.mono {s s' : Store} {c : Community} {routeId : String}
    (h : s.Admits c routeId) (howners : ∀ e ∈ s.owners routeId, e ∈ s'.owners routeId)
    (hrequests : ∀ m ∈ s.requests, m ∈ s'.requests) : s'.Admits c routeId := by
  rcases h with h | ⟨m, hm, h⟩
  · exact .inl (howners _ h)
  · exact .inr ⟨m, hrequests m hm, h⟩

/-- Attributes set on a route keep consent when the community they leave it in admits it. -/
theorem Store.Consented.withAttrs {s : Store} (hv : s.Valid) {route : Route}
    (hroute : route ∈ s.routes) {as : List RouteAttr} (h : s.Consented)
    (hadmits : ∀ c ∈ s.communities, (RouteAttr.setAll as route).communityId = some c.id →
      s.Admits c route.id) : (s.withAttrs route.id as).Consented := by
  intro r hr c hc hrc
  rcases mem_modify.mp hr with ⟨hr, -⟩ | ⟨r₀, hr₀, hr₀id, rfl⟩
  · exact h r hr c hc hrc
  · -- the one route that has changed
    obtain rfl : r₀ = route := hv.routeKeys.inj hr₀ hroute hr₀id
    rw [RouteAttr.setAll_id]
    exact hadmits c hc hrc

/-- A new route keeps consent when it is in no community but one of its owner's. -/
theorem Store.Consented.withRoute {s : Store} {route : Route} {owner : String} (h : s.Consented)
    (hown : ∀ c ∈ s.communities, route.communityId = some c.id → c.entityId = owner) :
    (s.withRoute route owner).Consented := by
  intro r hr c hc hrc
  rcases List.mem_append.mp hr with hr | hr
  · refine (h r hr c hc hrc).mono (fun e he => ?_) fun m hm => hm
    rw [Store.owners_withRoute]
    split
    · exact List.mem_append_left _ he
    · exact he
  · rw [List.mem_singleton] at hr
    subst hr
    refine .inl ?_
    rw [Store.owners_withRoute, if_pos rfl, hown c hc hrc]
    exact List.mem_append_right _ (List.mem_singleton_self _)

/-- Changes that put no route into a community. -/
def Change.attachesNothing : Change → Prop
  | .addCommunity _ | .addRequest _ | .deleteCommunity _ => True
  | .setRoute _ a => a.newCommunity = none
  | _ => False

/-- **One change** that puts no route into a community keeps consent, and the users. -/
theorem Change.apply_consented {s s' : Store} {ch : Change} (hv : s.Valid)
    (happly : ch.apply s = .ok s') (hch : ch.attachesNothing) (h : s.Consented) :
    s'.Consented ∧ s'.users = s.users := by
  cases ch with
  | addCommunity c' =>
    simp only [Change.apply, check_bind_eq_ok, pure_eq_ok] at happly
    obtain ⟨hid, -, -, rfl⟩ := happly
    refine ⟨fun r hr c hc hrc => ?_, rfl⟩
    rcases List.mem_append.mp hc with hc | hc
    · exact h r hr c hc hrc
    · -- no route is in a community that was not there
      rw [List.mem_singleton] at hc
      subst hc
      exact absurd (hv.routeCommunity r hr _ hrc) hid
  | addRequest m =>
    obtain rfl := Change.apply_effect happly
    exact ⟨fun r hr c hc hrc => (h r hr c hc hrc).mono (fun _ => id)
      fun m hm => List.mem_append_left _ hm, rfl⟩
  | deleteCommunity cid =>
    obtain rfl := Change.apply_effect happly
    refine ⟨fun r hr c hc hrc => ?_, rfl⟩
    rcases mem_modify.mp hr with ⟨hr, -⟩ | ⟨r₀, -, -, rfl⟩
    · exact h r hr c (mem_discard.mp hc).1 hrc
    · cases hrc
  | setRoute id a =>
    obtain rfl := Change.apply_effect happly
    refine ⟨fun r hr c hc hrc => ?_, rfl⟩
    rcases mem_modify.mp hr with ⟨hr, -⟩ | ⟨r₀, hr₀, -, rfl⟩
    · exact h r hr c hc hrc
    · rw [a.set_id]
      rcases a.set_communityId_cases r₀ with hold | hnew
      · exact h r₀ hr₀ c hc (hold ▸ hrc)
      · rw [hrc, show a.newCommunity = none from hch] at hnew
        cases hnew
  | _ => exact hch.elim

theorem flush_consented {s s' : Store} {Δ : List Change} (hv : s.Valid)
    (hf : flush s Δ = .ok s') (hΔ : ∀ ch ∈ Δ, ch.attachesNothing) (h : s.Consented) :
    s'.Consented ∧ s'.users = s.users := by
  induction Δ generalizing s with
  | nil =>
    cases hf
    exact ⟨h, rfl⟩
  | cons ch Δ ih =>
    obtain ⟨s₁, happly, hrest⟩ := flush_cons_eq_ok.mp hf
    obtain ⟨h₁, husers⟩ := Change.apply_consented hv happly (hΔ ch List.mem_cons_self) h
    obtain ⟨h', husers'⟩ := ih (Change.apply_valid hv happly) hrest
      (fun ch' hch' => hΔ ch' (List.mem_cons_of_mem _ hch')) h₁
    exact ⟨h', husers'.trans husers⟩

section Blocks

variable {eng : Engine} {db : Database}

/-- A block that puts no route into a community keeps consent, and the users. -/
theorem withUOW_consented {α : Type} {body : Session α} (hq : body.Queues Change.attachesNothing)
    (h : db.store.Consented) :
    ((withUOW eng body).after db).store.Consented ∧
      ((withUOW eng body).after db).store.users = db.store.users := by
  rcases withUOW_after_cases hq db with hdb | ⟨Δ, hf, hΔ⟩
  · rw [hdb]
    exact ⟨h, rfl⟩
  · exact flush_consented db.valid hf hΔ h

/-! ## `add_route_to_community` -/

/-- An owner's route goes into the community named; consent is kept if that one admits
the route. -/
theorem addRouteToCommunity_consented {user : User} {routeId communityId : String}
    (hadmits : ∀ u route c, Targets db.store user routeId communityId u route c →
      u.id ∈ db.store.owners route.id → db.store.Admits c route.id)
    (h : db.store.Consented) :
    ((addRouteToCommunity eng user routeId communityId).after db).store.Consented ∧
      ((addRouteToCommunity eng user routeId communityId).after db).store.users =
        db.store.users := by
  unfold Service.after
  cases hcall : addRouteToCommunity eng user routeId communityId db with
  | error e db' =>
    cases withUOW_error hcall
    exact ⟨h, rfl⟩
  | ok m db' =>
    show db'.store.Consented ∧ db'.store.users = db.store.users
    obtain ⟨Δ, hrun, hf | ⟨rfl, -⟩⟩ := withUOW_ok hcall
    · have hbody := addRouteToCommunityBody_attaches eng db.valid user routeId communityId
      rw [hrun] at hbody
      cases hbody with
      | waiting htargets hown hm =>
        rw [flush_nil] at hf
        rw [← Except.ok.inj hf]
        exact ⟨h, rfl⟩
      | requested htargets hown hm =>
        exact flush_consented db.valid hf (List.forall_mem_singleton.mpr trivial) h
      | @attached u route c htargets hown hc =>
        obtain ⟨hroute, hrid⟩ := Store.routeOf_mem htargets.route
        obtain ⟨hcomm, -⟩ := Store.communityFor_mem htargets.community
        have hflush := flush_setCommunity htargets.route_mem htargets.community_mem
        rw [← Except.ok.inj (hflush.symm.trans hf)]
        refine ⟨h.withAttrs db.valid hroute fun c' hc' hrc => ?_, rfl⟩
        obtain rfl : c = c' := db.valid.communityKeys.inj hcomm hc' (Option.some.inj hrc)
        exact hadmits u route c htargets hown
    · exact ⟨h, rfl⟩

/-! ## The registration endpoint -/

/-- The endpoint finds no community but the caller's own. -/
theorem registrationCommunity_ok {user : User} {name : Option String} {db' : Database}
    {community : Option Community} (hid : user.id ≠ "")
    (h : registrationCommunity eng user name db = .ok community db') :
    db' = db ∧ ∀ c, community = some c → c ∈ db.store.communities ∧ c.entityId = user.id := by
  rcases registrationCommunity_cases eng user name db with ⟨found, hok, hfound⟩ | ⟨e, herror, -⟩
  · rw [hok] at h
    cases h
    refine ⟨rfl, fun c hc => ?_⟩
    obtain ⟨hmem, hkey⟩ := Store.communityFor_mem (hfound c hc)
    refine ⟨hmem, ?_⟩
    simp only [Community.matchesKey, CommunityRepo.ownedBy, Text.truthy, Bool.and_eq_true,
      Bool.or_eq_true, decide_eq_true_eq, Option.some.injEq] at hkey
    simpa [hid] using hkey.2
  · rw [herror] at h
    cases h

theorem registrationCommunity_error {user : User} {name : Option String} {db' : Database} {e : Exc}
    (h : registrationCommunity eng user name db = .error e db') : db' = db := by
  rcases registrationCommunity_cases eng user name db with ⟨found, hok, -⟩ | ⟨e', herror, -⟩
  · rw [hok] at h
    cases h
  · rw [herror] at h
    cases h
    rfl

/-- What the endpoint does to the store: nothing, or a registration by the caller for no
community or one of the caller's own. -/
theorem register_after (eng : Engine) (config : UrlConfig) {user : User}
    (data : RegistrationRequest) (draws : Draws) (db : Database) (hid : user.id ≠ "") :
    (register eng config user data draws).after db = db ∨
      ∃ community : Option Community,
        (∀ c, community = some c → c ∈ db.store.communities ∧ c.entityId = user.id) ∧
        (register eng config user data draws).after db =
          (registerRoute eng ⟨Text.fieldText user.uid, data.name, data.domainName,
            config.tunnelUrl, config.bindSubdomain, community⟩ draws).after db := by
  rw [register, Service.after_throw, Service.after_bind]
  cases hcomm : registrationCommunity eng user data.communityName db with
  | error e db' =>
    refine .inl (registrationCommunity_error hcomm)
  | ok community db' =>
    obtain ⟨rfl, hown⟩ := registrationCommunity_ok hid hcomm
    exact .inr ⟨community, hown, rfl⟩

/-- A registration for a community of the caller's own keeps consent. -/
theorem registerRoute_consented {reg : Registration} {draws : Draws} {user : User}
    (huser : user ∈ db.store.users) (huid : user.uid = some reg.userUid)
    (hown : ∀ c, reg.community = some c → c ∈ db.store.communities ∧ c.entityId = user.id)
    (h : db.store.Consented) : ((registerRoute eng reg draws).after db).store.Consented := by
  rcases registerRoute_after_cases eng reg draws db with hsame | ⟨r', db', -, hreg⟩
  · rw [hsame]
    exact h
  generalize ((registerRoute eng reg draws).after db).store = s' at hreg ⊢
  have hcaller : ∀ {d u src}, Resolves db.store reg draws d u src → u = user := fun hres =>
    db.valid.uids.inj hres.user_mem.1 huser (hres.user_mem.2.trans huid.symm)
  -- a community of the caller's admits the caller's routes
  have hadmits : ∀ c ∈ db.store.communities, reg.community.map Community.id = some c.id →
      c.entityId = user.id := by
    intro c hc hcomm
    obtain ⟨c', hc', hid⟩ := Option.map_eq_some_iff.mp hcomm
    obtain ⟨hmem, hent⟩ := hown c' hc'
    rwa [db.valid.communityKeys.inj hmem hc hid] at hent
  cases hreg with
  | @rebound d u src r hres hr hu hret =>
    have hmem := (Store.routeOfSrc_mem hr).1
    refine h.withAttrs db.valid hmem fun c hc hrc => ?_
    rw [show (RouteAttr.setAll (rebindAttrs r reg.community draws.now) r).communityId =
      _ from Route.rebind_communityId r reg.community draws.now] at hrc
    cases hcid : r.communityId with
    | some c₀ =>
      rw [hcid] at hrc
      exact h r hmem c hc (hcid.trans hrc)
    | none =>
      rw [hcid] at hrc
      refine .inl ?_
      rw [hadmits c hc hrc, ← hcaller hres]
      exact hu
  | @created d u src hres hr hd hret hfresh =>
    refine h.withRoute fun c hc hrc => ?_
    rw [hret] at hrc
    rw [hadmits c hc hrc, hcaller hres]
  | dropped hc hcs => exact h

/-- **The endpoint keeps consent.** -/
theorem register_consented {config : UrlConfig} {user : User} {data : RegistrationRequest}
    {draws : Draws} (huser : user ∈ db.store.users) (hid : user.id ≠ "")
    (h : db.store.Consented) :
    ((register eng config user data draws).after db).store.Consented ∧
      ((register eng config user data draws).after db).store.users = db.store.users := by
  obtain ⟨uid, huid⟩ := Option.ne_none_iff_exists'.mp (db.valid.uidNotNull user huser)
  rcases register_after eng config data draws db hid with hdb | ⟨community, hown, hdb⟩
  · rw [hdb]
    exact ⟨h, rfl⟩
  · rw [hdb, huid]
    exact ⟨registerRoute_consented huser huid hown h, (registerRoute_step eng _ draws db).1⟩

end Blocks

/-! ## Runs -/

/-- The calls that touch communities, with the users who make them. -/
inductive CommunityCall where
  | createCommunity (user : User) (community : Community)
  | register (config : UrlConfig) (user : User) (data : RegistrationRequest) (draws : Draws)
  | addRouteToCommunity (user : User) (routeId communityId : String)
  | removeRouteFromCommunity (user : User) (routeId communityId : String)
  | removeUserCommunity (user : User) (idOrName : String)

namespace CommunityCall

def caller : CommunityCall → User
  | createCommunity user _ => user
  | register _ user _ _ => user
  | addRouteToCommunity user _ _ => user
  | removeRouteFromCommunity user _ _ => user
  | removeUserCommunity user _ => user

/-- The database after a call, whether it returned or raised. -/
def after (eng : Engine) (db : Database) : CommunityCall → Database
  | createCommunity user community => (RouteRegistry.createCommunity eng user community).after db
  | register config user data draws => (RouteRegistry.register eng config user data draws).after db
  | addRouteToCommunity user routeId communityId =>
    (RouteRegistry.addRouteToCommunity eng user routeId communityId).after db
  | removeRouteFromCommunity user routeId communityId =>
    (RouteRegistry.removeRouteFromCommunity eng user routeId communityId).after db
  | removeUserCommunity user idOrName =>
    (RouteRegistry.removeUserCommunity eng user idOrName).after db

/-- Calls as the steps of a machine. -/
def step (eng : Engine) (db : Database) (call : CommunityCall) : Option Database :=
  some (call.after eng db)

/-- An owner who adds a route to a community names one that admits it. -/
def Consents (db : Database) : CommunityCall → Prop
  | addRouteToCommunity user routeId communityId =>
    ∀ u route c, Targets db.store user routeId communityId u route c →
      u.id ∈ db.store.owners route.id → db.store.Admits c route.id
  | _ => True

/-- **One call** keeps consent, if it is such a call. -/
theorem after_consented {eng : Engine} {db : Database} {call : CommunityCall}
    (hcaller : call.caller ∈ db.store.users) (hid : call.caller.id ≠ "")
    (hconsents : call.Consents db) (h : db.store.Consented) :
    (call.after eng db).store.Consented ∧ (call.after eng db).store.users = db.store.users := by
  cases call with
  | createCommunity user community =>
    simp only [after, RouteRegistry.createCommunity, reraise, Service.after_throw]
    exact withUOW_consented (queues_createCommunityBody fun _ => trivial) h
  | register config user data draws => exact register_consented hcaller hid h
  | addRouteToCommunity user routeId communityId =>
    exact addRouteToCommunity_consented hconsents h
  | removeRouteFromCommunity user routeId communityId =>
    exact withUOW_consented (queues_removeRouteFromCommunityBody fun _ => rfl) h
  | removeUserCommunity user idOrName =>
    simp only [after, RouteRegistry.removeUserCommunity, reraise, Service.after_throw]
    exact withUOW_consented (queues_removeUserCommunityBody fun _ => trivial) h

end CommunityCall

/-- **Consent, as far as it goes.** In a run of calls by stored users from a store without
routes, whose owners add routes only to communities that admit them, every route is in a
community that admits it. -/
theorem communities_consented (eng : Engine) (db : Database) (hroutes : db.store.routes = [])
    (calls : List CommunityCall)
    (hcallers : ∀ call ∈ calls, call.caller ∈ db.store.users ∧ call.caller.id ≠ "")
    (hconsents : Along (CommunityCall.step eng) (fun db call => call.Consents db) db calls)
    (db' : Database) (hrun : run (CommunityCall.step eng) db calls = some db') :
    ∀ r ∈ db'.store.routes, ∀ c ∈ db'.store.communities, r.communityId = some c.id →
      c.entityId ∈ db'.store.owners r.id ∨
        ∃ m ∈ db'.store.requests, m.communityId = c.id ∧ m.routeId = r.id ∧
          m.status = .approved := by
  have hstart : db.store.Consented := by
    intro r hr
    rw [hroutes] at hr
    cases hr
  have hkeep : ∀ (db₁ : Database) (call : CommunityCall) (db₂ : Database),
      db₁.store.Consented ∧ db₁.store.users = db.store.users →
      (call.caller ∈ db.store.users ∧ call.caller.id ≠ "") ∧ call.Consents db₁ →
      CommunityCall.step eng db₁ call = some db₂ →
      db₂.store.Consented ∧ db₂.store.users = db.store.users := by
    rintro db₁ call db₂ ⟨h, husers⟩ ⟨⟨hcaller, hid⟩, hconsents⟩ hstep
    cases hstep
    obtain ⟨h', husers'⟩ := CommunityCall.after_consented (husers.symm ▸ hcaller) hid hconsents h
    exact ⟨h', husers'.trans husers⟩
  exact (run_keeps (I := fun db' => db'.store.Consented ∧ db'.store.users = db.store.users)
    hkeep ((along_of_forall hcallers).and hconsents) hrun ⟨hstart, rfl⟩).1

def bob : User := { id := "2", uid := some "bob" }

/-- Two users and a domain. -/
def twoMembers : Database := .load [.addUser alice, .addUser bob, .addDomain openDomain]

/-- Alice creates a community; `user` registers a route and adds it there. -/
def joinedBy (user : User) : List CommunityCall :=
  [.createCommunity alice ⟨"c", "team", ""⟩,
    .register ⟨"tunnel", false⟩ user { name := "app" } ⟨0, "r", "t", ""⟩,
    .addRouteToCommunity user "r" "team"]

def afterJoin (user : User) : Database :=
  (run (CommunityCall.step .sqlite) twoMembers (joinedBy user)).getD twoMembers

theorem communities_consented_alice :
    ((afterJoin alice).store.routes.map Route.communityId = [some "c"]) ∧
      ∀ r ∈ (afterJoin alice).store.routes, ∀ c ∈ (afterJoin alice).store.communities,
        r.communityId = some c.id → c.entityId ∈ (afterJoin alice).store.owners r.id ∨
          ∃ m ∈ (afterJoin alice).store.requests, m.communityId = c.id ∧ m.routeId = r.id ∧
            m.status = .approved := by
  refine ⟨by decide, communities_consented .sqlite twoMembers (by decide) (joinedBy alice)
    (by decide) ⟨trivial, trivial, fun u route c htargets hown => .inl ?_, trivial⟩ _ rfl⟩
  cases (show _ = Except.ok (some (⟨"c", "team", "1"⟩ : Community)) from rfl).symm.trans
    htargets.community
  cases (show _ = some alice from rfl).symm.trans htargets.user
  exact hown

/-- Bob puts his route into Alice's community, without asking her. -/
theorem communities_consented_not_bob :
    ¬ ∀ (eng : Engine) (db : Database), db.store.communities = [] → db.store.routes = [] →
      db.store.requests = [] → ∀ calls : List CommunityCall,
      (∀ call ∈ calls, call.caller ∈ db.store.users ∧ call.caller.id ≠ "") →
      ∀ db', run (CommunityCall.step eng) db calls = some db' →
      ∀ r ∈ db'.store.routes, ∀ c ∈ db'.store.communities, r.communityId = some c.id →
        c.entityId ∈ db'.store.owners r.id ∨
          ∃ m ∈ db'.store.requests, m.communityId = c.id ∧ m.routeId = r.id ∧
            m.status = .approved := by
  intro h
  have hbad := h .sqlite twoMembers (by decide) (by decide) (by decide) (joinedBy bob) (by decide)
    (afterJoin bob) rfl
  exact absurd hbad (by decide)

end RouteRegistry
