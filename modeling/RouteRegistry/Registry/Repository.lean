import RouteRegistry.Registry.Uow

/-!
# Repositories (`store/repository.py`)

Queries as reads of the session's store, and the changes the repositories queue. A
query for one row filters the table and then insists on at most one result
(`scalarOneOrNone`); on a unique column that is a lookup (`run_queryOne`).
-/

namespace RouteRegistry

open Relational UnitOfWork

/-- The rows of a table that satisfy a condition. -/
def select {α : Type} (table : Store → List α) (p : α → Bool) : Session (List α) :=
  Txn.get fun s => (table s).filter p

/-- `.scalar_one_or_none()`. -/
def scalarOneOrNone {α : Type} : List α → Session (Option α)
  | [] => pure none
  | [a] => pure (some a)
  | _ => throw ⟨.lib .multipleResultsFound,
    "Multiple rows were found when one or none was required", none⟩

/-- A query for at most one row. -/
def queryOne {α : Type} (table : Store → List α) (p : α → Bool) : Session (Option α) := do
  scalarOneOrNone (← select table p)

/-- On a unique column a query for one row is a lookup. -/
theorem run_queryOne {α κ : Type} [DecidableEq κ] {s : Store} {table : Store → List α}
    {key : α → κ} (h : Keyed key (table s)) (k : κ) :
    (queryOne table fun r => decide (key r = k)).run s =
      (.ok (lookup key k (table s)), []) := by
  show (scalarOneOrNone ((table s).filter fun r => decide (key r = k))).run s = _
  rw [filter_key_eq_toList h]
  cases lookup key k (table s) <;> rfl

/-! ## `SqlEntityRepo` -/

namespace EntityRepo

/-- `where(User.uid == uid)`, which for `None` is `IS NULL`. -/
def getUser (uid : Option String) : Session User := do
  match ← queryOne Store.users fun u => decide (u.uid = uid) with
  | some user => pure user
  | none => throw ⟨.repoNotFound, s!"User with uid {Text.fieldText uid} not found", none⟩

/-- `get_users`: as many rows as uids, so a uid that is listed twice counts as missing. -/
def getUsers (uids : List String) : Session (List User) := do
  let users ← select Store.users fun u => decide (∃ uid ∈ uids, u.uid = some uid)
  if uids.length ≠ users.length then
    throw ⟨.missingEntities, s!"Requested {uids.length} users and got {users.length}", none⟩
  return users

/-- `get_groups`, with the message of `get_users`. -/
def getGroups (names : List String) : Session (List Group) := do
  let groups ← select Store.groups fun g => decide (∃ name ∈ names, g.name = some name)
  if names.length ≠ groups.length then
    throw ⟨.missingEntities, s!"Requested {names.length} users and got {groups.length}", none⟩
  return groups

/-- `remove_user`: the row of the entity goes, with what hangs on it. -/
def removeUser (uid : String) : Session Unit := do
  match ← queryOne Store.users fun u => decide (u.uid = some uid) with
  | some u => Txn.put (.deleteEntity u.id)
  | none => throw ⟨.repoNotFound, s!"Unable to find user with uid {uid}", none⟩

/-- `remove_group`. -/
def removeGroup (name : String) : Session Unit := do
  match ← queryOne Store.groups fun g => decide (g.name = some name) with
  | some g => Txn.put (.deleteEntity g.id)
  | none => throw ⟨.repoNotFound, s!"Unable to find group with name {name}", none⟩

end EntityRepo

/-! ## `SqlDomainRepo` -/

namespace DomainRepo

/-- `get`, by the id. -/
def get (domainId : String) : Session (Option Domain) :=
  queryOne Store.domains fun d => decide (d.id = domainId)

/-- `get_default`, which fails on several defaults as well as on none. -/
def getDefault : Session Domain := do
  match ← queryOne Store.domains Domain.default with
  | some domain => pure domain
  | none => throw ⟨.repoNotFound, "Unable to find default domain", none⟩

/-- `where(Domain.name == name)`, which for `None` is `IS NULL`. -/
def getByName (name : Option String) : Session (Option Domain) :=
  queryOne Store.domains fun d => decide (some d.name = name)

/-- `remove`. -/
def remove (domainId : String) : Session Unit := do
  match ← get domainId with
  | some domain => Txn.put (.deleteDomain domain.id)
  | none => throw ⟨.repoNotFound, s!"Domain with id {domainId} not found", none⟩

/-- `list`, of all domains. -/
def list : Session (List Domain) := Txn.get Store.domains

end DomainRepo

/-! ## `SqlMembershipRequestRepo` -/

namespace MembershipRequestRepo

/-- `get`, by the whole key. -/
def get (entityId communityId routeId : String) : Session (Option MembershipRequest) :=
  queryOne Store.requests fun m =>
    decide ((m.entityId, m.communityId, m.routeId) = (entityId, communityId, routeId))

end MembershipRequestRepo

/-! ## `SqlCommunityRepo` -/

namespace CommunityRepo

/-- The optional restriction to one owner. -/
def ownedBy (entityId : Option String) (c : Community) : Bool :=
  !Text.truthy entityId || decide (some c.entityId = entityId)

/-- `get_by_id`, of the communities of one owner if an owner is given. -/
def getById (communityId : String) (entityId : Option String) : Session (Option Community) :=
  queryOne Store.communities fun c => decide (c.id = communityId) && ownedBy entityId c

/-- `get_by_name`: without an owner, several communities may have the name. -/
def getByName (name : String) (entityId : Option String) : Session (Option Community) :=
  queryOne Store.communities fun c => decide (c.name = name) && ownedBy entityId c

/-- A string that parses as a UUID is an id, any other a name. -/
def get (idOrName : String) (entityId : Option String) : Session (Option Community) :=
  if Text.isUuid idOrName then getById idOrName entityId else getByName idOrName entityId

/-- `remove`, of whoever it is. -/
def remove (communityId : String) : Session Unit := do
  match ← get communityId none with
  | some community => Txn.put (.deleteCommunity community.id)
  | none => throw ⟨.repoNotFound, s!"Community with id {communityId} not found", none⟩

/-- `list`. -/
def list (entityId : Option String) : Session (List Community) :=
  select Store.communities (ownedBy entityId)

end CommunityRepo

/-! ## `SqlRouteRepo` -/

namespace RouteRepo

/-- `get`, by the id. -/
def get (routeId : String) : Session (Option Route) :=
  queryOne Store.routes fun r => decide (r.id = routeId)

/-- `get_by_src`: the URL tells routes apart, the name need not. -/
def getBySrc (src : String) : Session (Option Route) :=
  queryOne Store.routes fun r => decide (r.src = src)

/-- The ids of `route.entities`. -/
def entities (routeId : String) : Session (List String) := Txn.get fun s => s.owners routeId

/-- The conditions `list` adds for the filters it is given. -/
def matchesFilters (like : List Char → List Char → Bool) (s : Store)
    (verification : Option VerificationStatus) (status : Option Status)
    (name entityId : Option String) (r : Route) : Bool :=
  (match verification with
    | some v => decide (r.verificationStatus = v)
    | none => true) &&
  (match status with
    | some st => decide (r.status = st)
    | none => true) &&
  (!Text.truthy name || like (Text.fieldText name).toList r.name.toList) &&
  (!Text.truthy entityId || decide (Text.fieldText entityId ∈ s.owners r.id))

/-- `list`, with the pattern match of the database. -/
def list (like : List Char → List Char → Bool) (verification : Option VerificationStatus)
    (status : Option Status) (name entityId : Option String) : Session (List Route) :=
  Txn.get fun s => s.routes.filter (matchesFilters like s verification status name entityId)

/-- `list_active`'s condition: verified, and up or down. -/
def isActive (r : Route) : Bool :=
  decide (r.verificationStatus = .verified) && (decide (r.status = .up) || decide (r.status = .down))

/-- `list_active`, which a pass starts with. -/
def listActive : Session (List Route) := select Store.routes isActive

end RouteRepo

/-! ## `SqlRuleRepo` -/

namespace RuleRepo

/-- `remove_for_route`: one `DELETE` for all rules of the route. -/
def removeForRoute (routeId : String) : Session Unit := Txn.put (.deleteRules routeId)

/-- `add`. -/
def add (rule : Rule) : Session Unit := Txn.put (.addRule rule)

end RuleRepo

/-! ## `SqlAdminTokenRepo` -/

namespace AdminTokenRepo

/-- `get`, by the id. -/
def get (adminTokenId : String) : Session (Option AdminToken) :=
  queryOne Store.adminTokens fun t => decide (t.id = adminTokenId)

/-- `remove`. -/
def remove (adminTokenId : String) : Session Unit := do
  match ← get adminTokenId with
  | some a => Txn.put (.deleteAdminToken a.id)
  | none => throw ⟨.repoNotFound, s!"AdminToken with id {adminTokenId} does not exist.", none⟩

end AdminTokenRepo

/-! ## What the queries find in a valid store -/

namespace Store

/-- The user of a uid. -/
def userOf (s : Store) (uid : Option String) : Option User := lookup User.uid uid s.users

/-- The group of a name. -/
def groupOf (s : Store) (name : String) : Option Group := lookup Group.name (some name) s.groups

/-- The route of an id. -/
def routeOf (s : Store) (routeId : String) : Option Route := lookup Route.id routeId s.routes

/-- The route of a source URL. -/
def routeOfSrc (s : Store) (src : String) : Option Route := lookup Route.src src s.routes

/-- The admin token of an id. -/
def tokenOf (s : Store) (tokenId : String) : Option AdminToken :=
  lookup AdminToken.id tokenId s.adminTokens

end Store

theorem Store.routeOf_mem {s : Store} {id : String} {r : Route} (h : s.routeOf id = some r) :
    r ∈ s.routes ∧ r.id = id :=
  lookup_mem h

theorem Store.mem_routeIds_iff {s : Store} {id : String} :
    id ∈ s.routeIds ↔ ∃ r, s.routeOf id = some r := by
  rw [← Option.isSome_iff_exists]
  exact lookup_isSome_iff.symm

section Queries

variable {s : Store}

theorem EntityRepo.run_getUser_some (hv : s.Valid) {uid : Option String} {u : User}
    (h : s.userOf uid = some u) : (EntityRepo.getUser uid).run s = (.ok u, []) := by
  unfold EntityRepo.getUser
  rw [Txn.run_bind_pure (run_queryOne hv.uids uid)]
  simp [show lookup User.uid uid s.users = some u from h]

theorem EntityRepo.run_getUser_none (hv : s.Valid) {uid : Option String}
    (h : s.userOf uid = none) :
    (EntityRepo.getUser uid).run s =
      (.error ⟨.repoNotFound, s!"User with uid {Text.fieldText uid} not found", none⟩, []) := by
  unfold EntityRepo.getUser
  rw [Txn.run_bind_pure (run_queryOne hv.uids uid)]
  simp [show lookup User.uid uid s.users = none from h]

theorem EntityRepo.run_removeUser (hv : s.Valid) (uid : String) :
    (EntityRepo.removeUser uid).run s =
      match s.userOf (some uid) with
      | some u => (.ok (), [.deleteEntity u.id])
      | none => (.error ⟨.repoNotFound, s!"Unable to find user with uid {uid}", none⟩, []) := by
  unfold EntityRepo.removeUser Store.userOf
  rw [Txn.run_bind_pure (run_queryOne hv.uids (some uid))]
  cases lookup User.uid (some uid) s.users <;> rfl

theorem EntityRepo.run_removeGroup (hv : s.Valid) (name : String) :
    (EntityRepo.removeGroup name).run s =
      match s.groupOf name with
      | some g => (.ok (), [.deleteEntity g.id])
      | none => (.error ⟨.repoNotFound, s!"Unable to find group with name {name}", none⟩, []) := by
  unfold EntityRepo.removeGroup Store.groupOf
  rw [Txn.run_bind_pure (run_queryOne hv.groupNames (some name))]
  cases lookup Group.name (some name) s.groups <;> rfl

theorem RouteRepo.run_get (hv : s.Valid) (routeId : String) :
    (RouteRepo.get routeId).run s = (.ok (s.routeOf routeId), []) :=
  run_queryOne hv.routeKeys routeId

theorem RouteRepo.run_getBySrc (hv : s.Valid) (src : String) :
    (RouteRepo.getBySrc src).run s = (.ok (s.routeOfSrc src), []) :=
  run_queryOne hv.routeSrcs src

theorem DomainRepo.run_getByName (hv : s.Valid) (name : Option String) :
    (DomainRepo.getByName name).run s =
      (.ok (name.bind fun n => lookup Domain.name n s.domains), []) := by
  cases name with
  | none =>
    have : (s.domains.filter fun d => decide (some d.name = none)) = [] := by simp
    show (scalarOneOrNone (s.domains.filter fun d => decide (some d.name = none))).run s = _
    rw [this]
    rfl
  | some n =>
    have : (queryOne Store.domains fun d => decide (d.name = n)).run s = _ :=
      run_queryOne hv.domainNames n
    simpa [DomainRepo.getByName] using this

theorem DomainRepo.run_get (hv : s.Valid) (domainId : String) :
    (DomainRepo.get domainId).run s = (.ok (lookup Domain.id domainId s.domains), []) :=
  run_queryOne hv.domainKeys domainId

theorem DomainRepo.run_remove (hv : s.Valid) (domainId : String) :
    (DomainRepo.remove domainId).run s =
      if domainId ∈ s.domainIds then (.ok (), [.deleteDomain domainId])
      else (.error ⟨.repoNotFound, s!"Domain with id {domainId} not found", none⟩, []) := by
  unfold DomainRepo.remove
  rw [Txn.run_bind_pure (DomainRepo.run_get hv domainId)]
  have hfound : (lookup Domain.id domainId s.domains).isSome ↔ domainId ∈ s.domainIds :=
    lookup_isSome_iff
  cases hl : lookup Domain.id domainId s.domains with
  | none =>
    rw [hl] at hfound
    rw [if_neg (mt hfound.mpr (by simp))]
    rfl
  | some d =>
    rw [hl] at hfound
    rw [if_pos (hfound.mp rfl)]
    obtain ⟨-, rfl⟩ := lookup_mem hl
    rfl

theorem AdminTokenRepo.run_get (hv : s.Valid) (tokenId : String) :
    (AdminTokenRepo.get tokenId).run s = (.ok (s.tokenOf tokenId), []) :=
  run_queryOne hv.tokenKeys tokenId

theorem MembershipRequestRepo.run_get (hv : s.Valid) (e c r : String) :
    (MembershipRequestRepo.get e c r).run s =
      (.ok (lookup (fun m => (m.entityId, m.communityId, m.routeId)) (e, c, r) s.requests), []) :=
  run_queryOne hv.requestKeys (e, c, r)

end Queries

end RouteRegistry
