import RouteRegistry.Registry.Api
import RouteRegistry.Registry.Writes

/-!
# Transactions

`Transaction` lists the `with UOW() as uow:` blocks of the registry with what their
bodies take, and `Transaction.body` is each block's session. A service is its block
with `except` clauses around it, so what a service does to the store is what its block
does.

- `Transaction.mayQueue`: what a block can write, whatever it reads
  (`Transaction.body_queues`). Every invariant below is derived from it.
- `flush_routeOf`: a stored route stays stored through any flush, changed only by the
  attributes the session set on it, and by the loss of a deleted community.
-/

namespace RouteRegistry

open Relational UnitOfWork

/-- A `with UOW()` block with its arguments. -/
inductive Transaction where
  -- users, groups and domains
  | getUser (uid : String)
  | listUsers
  | createUser (user : User)
  | removeUser (user : String)
  | reconcileAdmin (uid : String) (isAdmin : Bool)
  | listGroups
  | createGroup (group : Group)
  | removeGroup (group : String)
  | listDomains
  | createDomain (domain : Domain)
  | setDefaultDomain (domainId : String)
  | removeDomain (domainId : String)
  -- communities
  | getUserCommunity (user : User) (idOrName : String)
  | listCommunities (entityId : Option String)
  | createCommunity (user : User) (community : Community)
  | addRouteToCommunity (user : User) (routeId communityId : String)
  | removeRouteFromCommunity (user : User) (routeId communityId : String)
  | removeUserCommunity (user : User) (idOrName : String)
  -- routes
  | listRoutes (verificationStatus : Option VerificationStatus) (status : Option Status)
      (name entityId : Option String)
  | listActive
  | listRules (routeId : String)
  | registerRoute (reg : Registration) (draws : Draws)
  | updateRoute (routeId : String) (fetch : Fetch)
  | unverifyRoute (routeId : String)
  | validateRoute (routeId : String) (fetch : Fetch)
  | rotateJwt (claims : Claims)
  -- administrators
  | authenticate (xToken : String)
  | listAdminTokens
  | createAdminToken (salt : String) (token : AdminToken)
  | removeAdminToken (value : String)
  | addAdmin (userUid : String)
  | removeAdmin (userUid : String)

/-- What the services are set up with. -/
structure Setup where
  schema : Json.Schema
  bcrypt : Bcrypt
  pendulum : Pendulum

namespace Transaction

/-- What a block returns. -/
abbrev Result : Transaction → Type
  | getUser _ => User
  | listUsers => List User
  | listGroups => List Group
  | listDomains => List Domain
  | getUserCommunity _ _ => Option Community
  | listCommunities _ => List Community
  | createCommunity _ _ => Community
  | addRouteToCommunity _ _ _ => Option MembershipRequest
  | listRoutes _ _ _ _ => List Route
  | listActive => List Route
  | listRules _ => List Rule
  | registerRoute _ _ => Route
  | updateRoute _ _ => Option Exc
  | rotateJwt _ => Route
  | authenticate _ => AdminToken
  | listAdminTokens => List AdminToken
  | _ => Unit

/-- The session of a block, at the time `now`. -/
def body (eng : Engine) (setup : Setup) (now : Time) : (t : Transaction) → Session t.Result
  | getUser uid => EntityRepo.getUser (some uid)
  | listUsers => Txn.get Store.users
  | createUser user => Txn.put (.addUser user)
  | removeUser user => EntityRepo.removeUser user
  | reconcileAdmin uid isAdmin => reconcileAdminBody uid isAdmin
  | listGroups => Txn.get Store.groups
  | createGroup group => Txn.put (.addGroup group)
  | removeGroup group => EntityRepo.removeGroup group
  | listDomains => DomainRepo.list
  | createDomain domain => Txn.put (.addDomain domain)
  | setDefaultDomain domainId => setDefaultDomainBody domainId
  | removeDomain domainId => DomainRepo.remove domainId
  | getUserCommunity user idOrName => CommunityRepo.get idOrName (some user.id)
  | listCommunities entityId => CommunityRepo.list entityId
  | createCommunity user community => createCommunityBody user community
  | addRouteToCommunity user routeId communityId =>
    addRouteToCommunityBody eng user routeId communityId
  | removeRouteFromCommunity user routeId communityId =>
    removeRouteFromCommunityBody user routeId communityId
  | removeUserCommunity user idOrName => removeUserCommunityBody eng user idOrName
  | listRoutes verificationStatus status name entityId =>
    RouteRepo.list eng.like verificationStatus status name entityId
  | listActive => RouteRepo.listActive
  | listRules routeId => Txn.get fun s => s.rulesOf routeId
  | registerRoute reg draws => registerRouteBody reg { draws with now := now }
  | updateRoute routeId fetch => updateRouteBody routeId fetch setup.schema now
  | unverifyRoute routeId => unverifyRouteBody routeId
  | validateRoute routeId fetch => validateRouteBody setup.bcrypt routeId fetch setup.schema now
  | rotateJwt claims => verifiedRouteBody claims
  | authenticate xToken => authenticateBody setup.bcrypt xToken
  | listAdminTokens => Txn.get Store.adminTokens
  | createAdminToken salt token => createAdminTokenBody setup.bcrypt salt token
  | removeAdminToken value => removeAdminTokenBody value
  | addAdmin _ =>
    throw ⟨.lib .attributeError, "'SqlUOW' object has no attribute 'user_repo'", none⟩
  | removeAdmin _ =>
    throw ⟨.lib .attributeError, "'SqlUOW' object has no attribute 'user_repo'", none⟩

/-- The block. -/
def run (eng : Engine) (setup : Setup) (now : Time) (t : Transaction) : Service t.Result :=
  withUOW eng (t.body eng setup now)

/-- What a block can write, at the time `now`. -/
def mayQueue (now : Time) : Transaction → Change → Prop
  | createUser user, c => c = .addUser user
  | createGroup group, c => c = .addGroup group
  | createDomain domain, c => c = .addDomain domain
  | removeUser _, c => ∃ id, c = .deleteEntity id
  | removeGroup _, c => ∃ id, c = .deleteEntity id
  | reconcileAdmin _ isAdmin, c => ∃ id, c = .setUserAdmin id isAdmin
  | setDefaultDomain _, c => ∃ id value, c = .setDomainDefault id value
  | removeDomain _, c => ∃ id, c = .deleteDomain id
  | createCommunity _ _, c => ∃ community, c = .addCommunity community
  | addRouteToCommunity _ _ _, c =>
    (∃ m, c = .addRequest m) ∨ ∃ id community, c = .setRoute id (.community (some community))
  | removeRouteFromCommunity _ _ _, c => ∃ id, c = .setRoute id (.community none)
  | removeUserCommunity _ _, c => ∃ id, c = .deleteCommunity id
  | registerRoute _ _, c =>
    (∃ r, c = .addRoute r) ∨ (∃ o, c = .addOwnership o) ∨
      ∃ id a, c = .setRoute id a ∧
        ((∃ community, a = .community (some community)) ∨ a = .lastContact now ∨
          a = .verificationStatus .verified)
  | updateRoute _ _, c =>
    (∃ id, c = .deleteRules id) ∨ (∃ r, c = .addRule r) ∨
      ∃ id a, c = .setRoute id a ∧ ((∃ st, a = .status st) ∨ a = .lastContact now)
  | unverifyRoute _, c =>
    ∃ id a, c = .setRoute id a ∧ (a = .verificationStatus .unverified ∨ a = .status .down)
  | validateRoute _ _, c =>
    (∃ id, c = .deleteRules id) ∨ (∃ r, c = .addRule r) ∨
      ∃ id a, c = .setRoute id a ∧
        (a = .verificationStatus .verified ∨ a = .status .up ∨ a = .lastContact now)
  | createAdminToken _ _, c => ∃ t, c = .addAdminToken t
  | removeAdminToken _, c => ∃ id, c = .deleteAdminToken id
  | _, _ => False

end Transaction

/-! ## What the sessions can queue -/

section Queues

variable {P : Change → Prop}

/-- Queries queue nothing. -/
theorem queues_queryOne {α : Type} (table : Store → List α) (p : α → Bool) :
    (queryOne table p).Queues P := by
  refine Txn.queues_bind (Txn.queues_get _) fun rows => ?_
  unfold scalarOneOrNone
  split <;> simp

theorem queues_getUser (uid : Option String) : (EntityRepo.getUser uid).Queues P := by
  refine Txn.queues_bind (queues_queryOne _ _) fun u => ?_
  cases u <;> simp

theorem queues_getUsers (uids : List String) : (EntityRepo.getUsers uids).Queues P := by
  refine Txn.queues_bind (Txn.queues_get _) fun us => ?_
  split <;> simp

theorem queues_getGroups (names : List String) : (EntityRepo.getGroups names).Queues P := by
  refine Txn.queues_bind (Txn.queues_get _) fun gs => ?_
  split <;> simp

theorem queues_getCommunity (idOrName : String) (entityId : Option String) :
    (CommunityRepo.get idOrName entityId).Queues P := by
  unfold CommunityRepo.get
  by_cases h : Text.isUuid idOrName = true
  · rw [if_pos h]
    exact queues_queryOne _ _
  · rw [if_neg h]
    exact queues_queryOne _ _

theorem queues_findDomain (domainName : Option String) : (findDomain domainName).Queues P := by
  refine Txn.queues_bind (queues_queryOne _ _) fun d => ?_
  cases d with
  | some d => simp
  | none =>
    refine Txn.queues_bind (queues_queryOne _ _) fun d => ?_
    cases d <;> simp

theorem queues_rebindRoute {route : Route} {community : Option Community} {now : Time}
    (hc : ∀ id c, P (.setRoute id (.community (some c))))
    (ht : ∀ id, P (.setRoute id (.lastContact now)))
    (hv : ∀ id, P (.setRoute id (.verificationStatus .verified))) :
    (rebindRoute route community now).Queues P := by
  unfold rebindRoute
  cases community with
  | none => simp [ht, hv]
  | some c =>
    cases route.communityId with
    | none => simp [hc, ht, hv]
    | some c' => simp [ht, hv]

theorem queues_registerRouteBody {reg : Registration} {draws : Draws}
    (hr : ∀ r, P (.addRoute r)) (ho : ∀ o, P (.addOwnership o))
    (hc : ∀ id c, P (.setRoute id (.community (some c))))
    (ht : ∀ id, P (.setRoute id (.lastContact draws.now)))
    (hv : ∀ id, P (.setRoute id (.verificationStatus .verified))) :
    (registerRouteBody reg draws).Queues P := by
  refine Txn.queues_bind (queues_findDomain _) fun d => ?_
  refine Txn.queues_bind (queues_getUser _) fun u => ?_
  refine Txn.queues_bind (Txn.queues_ofExcept _) fun src => ?_
  refine Txn.queues_bind (queues_queryOne _ _) fun route => ?_
  cases route with
  | some route =>
    refine Txn.queues_bind (Txn.queues_get _) fun owners => ?_
    split
    · simp
    · exact queues_rebindRoute hc ht hv
  | none =>
    cases d.restricted with
    | true => simp
    | false => simp [hr, ho]

theorem queues_storeRules {route : Route} {authz : Authorization}
    (hd : ∀ id, P (.deleteRules id)) (ha : ∀ r, P (.addRule r)) :
    (storeRules route authz).Queues P := by
  refine Txn.queues_bind (queues_getUsers _) fun au => ?_
  refine Txn.queues_bind (queues_getUsers _) fun du => ?_
  refine Txn.queues_bind (queues_getGroups _) fun ag => ?_
  refine Txn.queues_bind (queues_getGroups _) fun dg => ?_
  exact Txn.queues_put_bind.mpr
    ⟨hd _, Txn.queues_forM fun r _ => Txn.queues_put.mpr (ha r)⟩

theorem queues_updateRouteBody {routeId : String} {fetch : Fetch} {schema : Json.Schema}
    {now : Time} (hd : ∀ id, P (.deleteRules id)) (ha : ∀ r, P (.addRule r))
    (hs : ∀ id st, P (.setRoute id (.status st)))
    (ht : ∀ id, P (.setRoute id (.lastContact now))) :
    (updateRouteBody routeId fetch schema now).Queues P := by
  refine Txn.queues_bind (queues_queryOne _ _) fun route => ?_
  cases route with
  | none => simp
  | some route =>
    refine Txn.queues_tryCatch ?_ fun e => ?_
    · refine Txn.queues_bind (Txn.queues_ofExcept _) fun data => ?_
      refine Txn.queues_bind (Txn.queues_ofExcept _) fun _ => ?_
      refine Txn.queues_bind (Txn.queues_ofExcept _) fun authz => ?_
      exact Txn.queues_bind (queues_storeRules hd ha) fun _ => by simp [hs, ht]
    · split
      · simp [hs]
      · simp

theorem queues_validateStored {bcrypt : Bcrypt} {route : Route} {fetch : Fetch}
    {schema : Json.Schema} {now : Time} (hd : ∀ id, P (.deleteRules id))
    (ha : ∀ r, P (.addRule r)) (hv : P (.setRoute route.id (.verificationStatus .verified)))
    (hs : P (.setRoute route.id (.status .up))) (ht : P (.setRoute route.id (.lastContact now))) :
    (validateStored bcrypt route fetch schema now).Queues P := by
  refine Txn.queues_bind (Txn.queues_ofExcept _) fun data => ?_
  refine Txn.queues_bind (Txn.queues_ofExcept _) fun token => ?_
  refine Txn.queues_bind (Txn.queues_ofExcept _) fun matched => ?_
  cases matched with
  | false => simp
  | true =>
    refine Txn.queues_bind (Txn.queues_ofExcept _) fun authz => ?_
    exact Txn.queues_bind (queues_storeRules hd ha) fun _ => by simp [hv, hs, ht]

theorem queues_createCommunityBody {user : User} {community : Community}
    (hc : ∀ c, P (.addCommunity c)) : (createCommunityBody user community).Queues P :=
  Txn.queues_bind (queues_getUser _) fun u => Txn.queues_put_bind.mpr ⟨hc _, by simp⟩

theorem queues_removeRouteFromCommunityBody {user : User} {routeId communityId : String}
    (hc : ∀ id, P (.setRoute id (.community none))) :
    (removeRouteFromCommunityBody user routeId communityId).Queues P := by
  refine Txn.queues_bind (queues_getUser _) fun u => ?_
  refine Txn.queues_bind (Txn.queues_get _) fun route => ?_
  cases route with
  | none => simp
  | some route =>
    dsimp only
    split
    · simp
    · exact Txn.queues_put.mpr (hc _)

theorem queues_addRouteToCommunityBody {eng : Engine} {user : User} {routeId communityId : String}
    (hm : ∀ m, P (.addRequest m)) (hc : ∀ id c, P (.setRoute id (.community (some c)))) :
    (addRouteToCommunityBody eng user routeId communityId).Queues P := by
  refine Txn.queues_bind (queues_getUser _) fun u => ?_
  refine Txn.queues_bind (queues_queryOne _ _) fun route => ?_
  cases route with
  | none => simp
  | some route =>
    refine Txn.queues_bind (queues_getCommunity _ _) fun community => ?_
    cases community with
    | none => simp
    | some community =>
      refine Txn.queues_bind (Txn.queues_get _) fun owners => ?_
      split
      · refine Txn.queues_bind (queues_queryOne _ _) fun request => ?_
        cases request with
        | some request => simp
        | none => simp [hm]
      · split
        · exact Txn.queues_bind (Txn.queues_get _) fun _ => Txn.queues_throw _
        · simp [hc]

theorem queues_removeUserCommunityBody {eng : Engine} {user : User} {idOrName : String}
    (hd : ∀ id, P (.deleteCommunity id)) : (removeUserCommunityBody eng user idOrName).Queues P := by
  refine Txn.queues_bind (queues_getUser _) fun u => ?_
  refine Txn.queues_bind (Txn.queues_get _) fun community => ?_
  cases community with
  | none => simp
  | some community =>
    show (CommunityRepo.remove community.id).Queues P
    unfold CommunityRepo.remove
    refine Txn.queues_bind (queues_getCommunity _ _) fun community => ?_
    cases community with
    | none => simp
    | some community => simp [hd]

theorem queues_authenticateBody (bcrypt : Bcrypt) (xToken : String) :
    (authenticateBody bcrypt xToken).Queues P := by
  refine Txn.queues_bind (Txn.queues_tryCatch ?_ fun e => ?_) fun _ => ?_
  · refine Txn.queues_bind ?_ fun valid => ?_
    · refine Txn.queues_bind (Txn.queues_ofExcept _) fun parts => ?_
      refine Txn.queues_bind (queues_queryOne _ _) fun token => ?_
      cases token with
      | none => simp
      | some token => exact Txn.queues_ofExcept _
    · cases valid <;> simp
  · split <;> simp
  · refine Txn.queues_bind (Txn.queues_ofExcept _) fun parts => ?_
    refine Txn.queues_bind (queues_queryOne _ _) fun token => ?_
    cases token <;> simp

end Queues

/-- **A block writes only what it may.** -/
theorem Transaction.body_queues (eng : Engine) (setup : Setup) (now : Time) (t : Transaction) :
    (t.body eng setup now).Queues (t.mayQueue now) := by
  cases t with
  | getUser uid => exact queues_getUser _
  | listUsers | listGroups | listDomains | listAdminTokens | listCommunities | listRoutes
  | listActive | listRules => exact Txn.queues_get _
  | createUser | createGroup | createDomain => exact Txn.queues_put.mpr rfl
  | removeUser | removeGroup | removeDomain =>
    refine Txn.queues_bind (queues_queryOne _ _) fun row => ?_
    cases row with
    | none => simp
    | some row => exact Txn.queues_put.mpr ⟨_, rfl⟩
  | reconcileAdmin uid isAdmin =>
    refine Txn.queues_bind (queues_getUser _) fun u => ?_
    split
    · simp
    · exact Txn.queues_put.mpr ⟨_, rfl⟩
  | setDefaultDomain domainId =>
    refine Txn.queues_bind (Txn.queues_get _) fun domains => ?_
    refine Txn.queues_bind (Txn.queues_forM fun c hc => ?_) fun _ => ?_
    · obtain ⟨d, -, rfl⟩ := List.mem_map.mp hc
      exact Txn.queues_put.mpr ⟨_, _, rfl⟩
    · split <;> simp
  | getUserCommunity user idOrName => exact queues_getCommunity _ _
  | createCommunity user community => exact queues_createCommunityBody fun c => ⟨c, rfl⟩
  | addRouteToCommunity user routeId communityId =>
    exact queues_addRouteToCommunityBody (fun m => .inl ⟨m, rfl⟩) fun id c => .inr ⟨id, c, rfl⟩
  | removeRouteFromCommunity user routeId communityId =>
    exact queues_removeRouteFromCommunityBody fun id => ⟨id, rfl⟩
  | removeUserCommunity user idOrName => exact queues_removeUserCommunityBody fun id => ⟨id, rfl⟩
  | registerRoute reg draws =>
    exact queues_registerRouteBody (fun r => .inl ⟨r, rfl⟩) (fun o => .inr (.inl ⟨o, rfl⟩))
      (fun id c => .inr (.inr ⟨id, _, rfl, .inl ⟨c, rfl⟩⟩))
      (fun id => .inr (.inr ⟨id, _, rfl, .inr (.inl rfl)⟩))
      (fun id => .inr (.inr ⟨id, _, rfl, .inr (.inr rfl)⟩))
  | updateRoute routeId fetch =>
    exact queues_updateRouteBody (fun id => .inl ⟨id, rfl⟩) (fun r => .inr (.inl ⟨r, rfl⟩))
      (fun id st => .inr (.inr ⟨id, _, rfl, .inl ⟨st, rfl⟩⟩))
      (fun id => .inr (.inr ⟨id, _, rfl, .inr rfl⟩))
  | unverifyRoute routeId =>
    refine Txn.queues_bind (queues_queryOne _ _) fun route => ?_
    cases route with
    | none => simp
    | some route =>
      exact Txn.queues_put_bind.mpr
        ⟨⟨_, _, rfl, .inl rfl⟩, Txn.queues_put.mpr ⟨_, _, rfl, .inr rfl⟩⟩
  | validateRoute routeId fetch =>
    refine Txn.queues_bind (queues_queryOne _ _) fun route => ?_
    cases route with
    | none => simp
    | some route =>
      exact queues_validateStored (fun id => .inl ⟨id, rfl⟩) (fun r => .inr (.inl ⟨r, rfl⟩))
        (.inr (.inr ⟨_, _, rfl, .inl rfl⟩)) (.inr (.inr ⟨_, _, rfl, .inr (.inl rfl)⟩))
        (.inr (.inr ⟨_, _, rfl, .inr (.inr rfl)⟩))
  | rotateJwt claims =>
    refine Txn.queues_bind (Txn.queues_ofExcept _) fun sub => ?_
    refine Txn.queues_bind (queues_queryOne _ _) fun route => ?_
    cases route with
    | none => simp
    | some route =>
      dsimp only
      split <;> simp
  | authenticate xToken => exact queues_authenticateBody _ _
  | createAdminToken salt token =>
    exact Txn.queues_bind (Txn.queues_ofExcept _) fun hashed => Txn.queues_put.mpr ⟨_, rfl⟩
  | removeAdminToken value =>
    refine Txn.queues_bind (Txn.queues_ofExcept _) fun parts => ?_
    refine Txn.queues_bind (queues_queryOne _ _) fun row => ?_
    cases row with
    | none => simp
    | some row => exact Txn.queues_put.mpr ⟨_, rfl⟩
  | addAdmin | removeAdmin => exact Txn.queues_throw _

/-! ## What a flush can do to a stored route -/

/-- The row of a stored route when a community is deleted: it may lose its community. -/
theorem Change.routeOf_deleteCommunity {s : Store} {id : String} {r : Route} (cid : String)
    (hr : s.routeOf id = some r) :
    ((Change.deleteCommunity cid).effect s).routeOf id =
      some (if r.communityId = some cid then (RouteAttr.community none).set r else r) := by
  have hkeep : ∀ r : Route, (if r.communityId = some cid then
      (RouteAttr.community none).set r else r).id = r.id := by
    intro r
    split <;> rfl
  have hl : lookup Route.id id (s.routes.map _) = _ := lookup_map hkeep id s.routes
  rw [show lookup Route.id id s.routes = some r from hr, Option.map_some] at hl
  exact hl

/-- A change sets attributes of a stored route, or takes it out of its community. -/
theorem Change.apply_routeOf {s s' : Store} {c : Change} {id : String} {r : Route}
    (h : c.apply s = .ok s') (hr : s.routeOf id = some r) :
    ∃ as, s'.routeOf id = some (RouteAttr.setAll as r) ∧
      ∀ a ∈ as, a = .community none ∨ c = .setRoute id a := by
  obtain rfl : s' = c.effect s := Change.apply_effect h
  cases c with
  | setRoute id' a =>
    have hl : lookup Route.id id (modify Route.id id' a.set s.routes) = _ :=
      lookup_modify a.set_id s.routes
    rw [show lookup Route.id id s.routes = some r from hr] at hl
    by_cases hid : id = id'
    · subst hid
      refine ⟨[a], hl.trans (by simp [RouteAttr.setAll]), fun a' ha' => ?_⟩
      rw [List.mem_singleton] at ha'
      exact .inr (by rw [ha'])
    · exact ⟨[], hl.trans (by simp [hid, RouteAttr.setAll]), fun a ha => by cases ha⟩
  | deleteCommunity cid =>
    -- of the other changes only this one touches the row
    have hl := Change.routeOf_deleteCommunity cid hr
    by_cases hc : r.communityId = some cid
    · rw [if_pos hc] at hl
      refine ⟨[.community none], hl, fun a ha => .inl ?_⟩
      rwa [List.mem_singleton] at ha
    · rw [if_neg hc] at hl
      exact ⟨[], hl, fun a ha => by cases ha⟩
  | addRoute r' => exact ⟨[], lookup_append_of_some hr, fun a ha => by cases ha⟩
  | _ => exact ⟨[], hr, fun a ha => by cases ha⟩

/-- **A stored route stays stored**, changed by attributes the session sets on it. -/
theorem flush_routeOf {s s' : Store} {Δ : List Change} {id : String} {r : Route}
    (h : flush s Δ = .ok s') (hr : s.routeOf id = some r) :
    ∃ as, s'.routeOf id = some (RouteAttr.setAll as r) ∧
      ∀ a ∈ as, a = .community none ∨ .setRoute id a ∈ Δ := by
  -- each change adds the attributes it sets to those of the earlier ones
  induction Δ generalizing s r with
  | nil =>
    cases h
    exact ⟨[], hr, fun a ha => by cases ha⟩
  | cons c Δ ih =>
    obtain ⟨s₁, hc, hΔ⟩ := flush_cons_eq_ok.mp h
    obtain ⟨as, hr₁, has⟩ := Change.apply_routeOf hc hr
    obtain ⟨bs, hr', hbs⟩ := ih hΔ hr₁
    refine ⟨as ++ bs, hr'.trans (by rw [RouteAttr.setAll_append]), fun a ha => ?_⟩
    rcases List.mem_append.mp ha with ha | ha
    · exact (has a ha).imp_right fun hc => List.mem_cons.mpr (.inl hc.symm)
    · exact (hbs a ha).imp_right (List.mem_cons_of_mem c)

/-- The status of verification after attributes are set is the old one or one of them. -/
theorem RouteAttr.setAll_verificationStatus (as : List RouteAttr) (r : Route) :
    (RouteAttr.setAll as r).verificationStatus = r.verificationStatus ∨
      .verificationStatus (RouteAttr.setAll as r).verificationStatus ∈ as := by
  induction as generalizing r with
  | nil => exact .inl rfl
  | cons a as ih =>
    rcases ih (a.set r) with h | h
    · cases a with
      | verificationStatus v => exact .inr (List.mem_cons.mpr (.inl (congrArg _ h)))
      | _ => exact .inl h
    · exact .inr (List.mem_cons_of_mem _ h)

theorem RouteAttr.setAll_lastContact (as : List RouteAttr) (r : Route) :
    (RouteAttr.setAll as r).lastContact = r.lastContact ∨
      .lastContact (RouteAttr.setAll as r).lastContact ∈ as := by
  induction as generalizing r with
  | nil => exact .inl rfl
  | cons a as ih =>
    rcases ih (a.set r) with h | h
    · cases a with
      | lastContact t => exact .inr (List.mem_cons.mpr (.inl (congrArg _ h)))
      | _ => exact .inl h
    · exact .inr (List.mem_cons_of_mem _ h)

/-! ## What a block does to the store -/

namespace Transaction

variable {eng : Engine} {setup : Setup} {now : Time} {db : Database}

/-- A block leaves the store alone or flushes what its body queues, which it may write. -/
theorem after_run (eng : Engine) (setup : Setup) (now : Time) (t : Transaction) (db : Database) :
    (t.run eng setup now).after db = db ∨
      ∃ a Δ, (t.body eng setup now).run db.store = (.ok a, Δ) ∧
        flush db.store Δ = .ok ((t.run eng setup now).after db).store ∧
        ∀ c ∈ Δ, t.mayQueue now c := by
  rcases withUOW_after_run eng (t.body eng setup now) db with hsame | ⟨a, Δ, hrun, hf⟩
  · exact .inl hsame
  · have hΔ := (t.body_queues eng setup now).run db.store
    rw [hrun] at hΔ
    exact .inr ⟨a, Δ, hrun, hf, hΔ⟩

/-- A block leaves the store alone or flushes changes it may write. -/
theorem after_cases (eng : Engine) (setup : Setup) (now : Time) (t : Transaction)
    (db : Database) :
    (t.run eng setup now).after db = db ∨
      ∃ Δ, flush db.store Δ = .ok ((t.run eng setup now).after db).store ∧
        ∀ c ∈ Δ, t.mayQueue now c :=
  (after_run eng setup now t db).imp_right fun ⟨_, Δ, _, hf, hΔ⟩ => ⟨Δ, hf, hΔ⟩

/-- What a block does to a stored route: it sets attributes the block may write. -/
theorem after_routeOf (eng : Engine) (setup : Setup) (now : Time) (t : Transaction) {id : String}
    {r : Route} (hr : db.store.routeOf id = some r) :
    ∃ as, ((t.run eng setup now).after db).store.routeOf id = some (RouteAttr.setAll as r) ∧
      ∀ a ∈ as, a = .community none ∨ t.mayQueue now (.setRoute id a) := by
  rcases after_cases eng setup now t db with h | ⟨Δ, hf, hmay⟩
  · exact ⟨[], by rw [h]; exact hr, fun a ha => by cases ha⟩
  · obtain ⟨as, hr', has⟩ := flush_routeOf hf hr
    exact ⟨as, hr', fun a ha => (has a ha).imp_right (hmay _)⟩

end Transaction

end RouteRegistry
