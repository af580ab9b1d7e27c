import RouteRegistry.Registry.Clients
import RouteRegistry.Registry.Repository

/-!
# Services (`services.py`)

Each service is its session body (`…Body`) inside `withUOW`, with the service's own
`except` clauses around it. What Python draws from its environment is an argument:
the clock (`now`), fresh ids, tokens and salts, and the outcome of a fetch.
-/

namespace RouteRegistry

open UnitOfWork

/-- Values `register_route` draws: the clock, a route id, a token, and the id in an
ephemeral name. -/
structure Draws where
  now : Time
  routeId : String
  token : String
  nameId : String
deriving DecidableEq, Repr

/-- `bcrypt`; both functions raise on passwords they cannot take. -/
structure Bcrypt where
  hashpw : (password salt : String) → Except Exc String
  checkpw : (password hashed : String) → Except Exc Bool

/-- `except cls: raise new`. -/
def reraise {α : Type} (cls : ExcClass) (new : Exc) (call : Service α) : Service α :=
  tryCatch call fun e => throw (if e.isInstance cls then new else e)

/-! ## Routes -/

/-- The arguments of one `register_route` call. -/
structure Registration where
  userUid : String
  routeName : String
  domainName : Option String
  tunnelUrl : String
  bindSubdomain : Bool
  community : Option Community := none
deriving DecidableEq, Repr

/-- `get_by_name(domain_name) or get_default()`. -/
def findDomain (domainName : Option String) : Session Domain := do
  match ← DomainRepo.getByName domainName with
  | some domain => pure domain
  | none => DomainRepo.getDefault

/-- An owner calls again: the route is bound to the community it lacked and is
verified anew. -/
def rebindRoute (route : Route) (community : Option Community) (now : Time) : Session Route := do
  let route ←
    match community, route.communityId with
    | some c, none => do
      Txn.put (.setRoute route.id (.community (some c.id)))
      pure { route with communityId := some c.id }
    | _, _ => pure route
  Txn.put (.setRoute route.id (.lastContact now))
  Txn.put (.setRoute route.id (.verificationStatus .verified))
  return { route with lastContact := now, verificationStatus := .verified }

/-- The route object a first registration builds. -/
def newRoute (domain : Domain) (src : String) (reg : Registration) (draws : Draws) : Route where
  id := draws.routeId
  domainId := domain.id
  communityId := reg.community.map Community.id
  name := reg.routeName
  src := src
  dst := reg.tunnelUrl
  token := draws.token
  verificationStatus := .verified
  status := .down
  lastContact := draws.now

/-- The `with` block of `register_route`: who may have the name is decided by the source URL. -/
def registerRouteBody (reg : Registration) (draws : Draws) : Session Route := do
  let domain ← findDomain reg.domainName
  let user ← EntityRepo.getUser (some reg.userUid)
  let srcUrl ← Txn.ofExcept
    (domain.createSrcUrl reg.routeName (some user) reg.bindSubdomain draws.nameId)
  match ← RouteRepo.getBySrc srcUrl with
  | some route =>
    -- nothing is written before this check
    if user.id ∉ (← RouteRepo.entities route.id) then
      throw ⟨.notAllowed, "Route already taken", none⟩
    rebindRoute route reg.community draws.now
  | none =>
    -- the record decides, not the generated `src`
    if domain.restricted then
      throw ⟨.notAllowed, "Unable to register with restricted domain", none⟩
    let route := newRoute domain srcUrl reg draws
    Txn.put (.addRoute route)
    Txn.put (.addOwnership ⟨user.id, route.id⟩)
    return route

/-- `register_route`, with no `except` clause of its own. -/
def registerRoute (eng : Engine) (reg : Registration) (draws : Draws) : Service Route :=
  withUOW eng (registerRouteBody reg draws)

/-- `list_routes`: each filter that is given narrows the list. -/
def listRoutes (eng : Engine) (verificationStatus : Option VerificationStatus)
    (status : Option Status) (name entityId : Option String) : Service (List Route) :=
  withUOW eng (RouteRepo.list eng.like verificationStatus status name entityId)

/-- `list_available_routes`: those that are verified and up, whoever asks. -/
def listAvailableRoutes (eng : Engine) : Service (List Route) :=
  withUOW eng (RouteRepo.list eng.like (some .verified) (some .up) none none)

/-- The `with` block of `unverify_route`, which expects the route to be there. -/
def unverifyRouteBody (routeId : String) : Session Unit := do
  match ← RouteRepo.get routeId with
  | none => throw (noneAttributeError "verification_status")
  | some route =>
    Txn.put (.setRoute route.id (.verificationStatus .unverified))
    Txn.put (.setRoute route.id (.status .down))

/-- `unverify_route`, at the end of a pass. -/
def unverifyRoute (eng : Engine) (routeId : String) : Service Unit :=
  withUOW eng (unverifyRouteBody routeId)

/-- The rules `store_rules` adds: one for each listed entity. -/
def policyRules (routeId : String) (allowedUsers deniedUsers : List User)
    (allowedGroups deniedGroups : List Group) : List Rule :=
  allowedUsers.map (fun u => ⟨routeId, u.id, .allow⟩) ++
  deniedUsers.map (fun u => ⟨routeId, u.id, .deny⟩) ++
  (allowedGroups.map (fun g => ⟨routeId, g.id, .allow⟩) ++
  deniedGroups.map (fun g => ⟨routeId, g.id, .deny⟩))

/-- `store_rules`: the rules of a document in place of those of the route. -/
def storeRules (route : Route) (authz : Authorization) : Session Unit := do
  let allowedUsers ← EntityRepo.getUsers authz.allowed.uids
  let deniedUsers ← EntityRepo.getUsers authz.disallowed.uids
  let allowedGroups ← EntityRepo.getGroups authz.allowed.groupNames
  let deniedGroups ← EntityRepo.getGroups authz.disallowed.groupNames
  -- all names are known by now, so missing ones leave the old rules in place
  RuleRepo.removeForRoute route.id
  (policyRules route.id allowedUsers deniedUsers allowedGroups deniedGroups).forM RuleRepo.add

/-- `list_rules`. -/
def listRules (eng : Engine) (route : Route) : Service (List Rule) :=
  withUOW eng (Txn.get fun s => s.rulesOf route.id)

/-- `fetch_authorization`: a plain `requests.get`, whatever the status code. -/
def fetchAuthorization (fetch : Fetch) (schema : Json.Schema) : Except Exc Json := do
  let authz ← match fetch with
    | .unsent e => .error (libExc e)
    | .failed e => .error (libExc e)
    | .answered r => r.json.mapError libExc
  if schema.accepts authz then return authz
  else .error ⟨.lib .valueError, "Authorization file is invalid", none⟩

/-- `authz.get("token").encode()`. -/
def plainToken (authz : Json) : Except Exc String :=
  match authz.member? "token" with
  | some (.str token) => .ok token
  | some _ => .error ⟨.lib .attributeError, "object has no attribute 'encode'", none⟩
  | none => .error (noneAttributeError "encode")

/-- `validate_route` once it has the route. -/
def validateStored (bcrypt : Bcrypt) (route : Route) (fetch : Fetch) (schema : Json.Schema)
    (now : Time) : Session Unit := do
  let authz ← Txn.ofExcept (fetchAuthorization fetch schema)
  let token ← Txn.ofExcept (plainToken authz)
  if !(← Txn.ofExcept (bcrypt.checkpw token route.token)) then
    throw ⟨.lib .valueError, "Invalid token in authoriztion.json file", none⟩
  storeRules route (← Txn.ofExcept (Authorization.ofData authz))
  Txn.put (.setRoute route.id (.verificationStatus .verified))
  Txn.put (.setRoute route.id (.status .up))
  Txn.put (.setRoute route.id (.lastContact now))

/-- The `with` block of `validate_route`. -/
def validateRouteBody (bcrypt : Bcrypt) (routeId : String) (fetch : Fetch)
    (schema : Json.Schema) (now : Time) : Session Unit := do
  match ← RouteRepo.get routeId with
  | none => throw (noneAttributeError "dst")
  | some route => validateStored bcrypt route fetch schema now

/-- `validate_route`. No task and no endpoint calls it. -/
def validateRoute (eng : Engine) (bcrypt : Bcrypt) (routeId : String) (fetch : Fetch)
    (schema : Json.Schema) (now : Time) : Service Unit :=
  withUOW eng (validateRouteBody bcrypt routeId fetch schema now)

/-- The status each `except` clause of `update_route` sets, in clause order. -/
def failureStatus (e : Exc) : Option Status :=
  -- the class of the last clause is a base of the first one's
  if e.isInstance .connectionException then some .down
  else if e.isInstance (.lib .validationError) then some .misconfigured
  else if e.isInstance .missingEntities then some .missingEntity
  else if e.isInstance .authorizationClientException then some .serverError
  else none

/-- The `try` block of `update_route`. -/
def refreshRoute (route : Route) (fetch : Fetch) (schema : Json.Schema) (now : Time) :
    Session (Option Exc) := do
  let authz ← Txn.ofExcept (getAuthorization fetch)
  Txn.ofExcept (validate authz schema)
  storeRules route (← Txn.ofExcept (Authorization.ofData authz))
  Txn.put (.setRoute route.id (.status .up))
  Txn.put (.setRoute route.id (.lastContact now))
  return none

/-- The `with` block of `update_route`; it returns `err`. -/
def updateRouteBody (routeId : String) (fetch : Fetch) (schema : Json.Schema) (now : Time) :
    Session (Option Exc) := do
  match ← RouteRepo.get routeId with
  | none => throw (noneAttributeError "id")
  | some route =>
    tryCatch (refreshRoute route fetch schema now) fun e =>
      match failureStatus e with
      | some status => do
        Txn.put (.setRoute route.id (.status status))
        return some e
      | none => throw e

/-- `update_route`. -/
def updateRoute (eng : Engine) (schema : Json.Schema) (routeId : String) (fetch : Fetch)
    (now : Time) : Service Unit := do
  -- the status is committed before `err` is raised
  match ← withUOW eng (updateRouteBody routeId fetch schema now) with
  | some e => throw e
  | none => pure ()

/-- What a tracker pass meets: the clock and the fetch result at the update of each
route. -/
structure PassEnv where
  clock : String → Time
  fetch : String → Fetch

/-- The loop body of `check_routes`. `route` is the detached object the pass read at
its start. -/
def checkRoute (eng : Engine) (pendulum : Pendulum) (schema : Json.Schema) (staleDuration : Nat)
    (now : Time) (env : PassEnv) (route : Route) : Service Unit := do
  tryCatch (updateRoute eng schema route.id (env.fetch route.id) (env.clock route.id))
    fun _ => pure ()
  -- the contact the pass listed, whatever the update has just stored
  if staleDuration < pendulum.inDays now route.lastContact then
    unverifyRoute eng route.id

/-- `check_routes`: one pass of the tracker, over the active routes it starts with. -/
def checkRoutes (eng : Engine) (pendulum : Pendulum) (schema : Json.Schema) (staleDuration : Nat)
    (now : Time) (env : PassEnv) : Service Unit := do
  let routes ← withUOW eng RouteRepo.listActive
  routes.forM (checkRoute eng pendulum schema staleDuration now env)

/-! ## Users, groups and domains -/

/-- `list_users`. -/
def listUsers (eng : Engine) : Service (List User) := withUOW eng (Txn.get Store.users)

/-- `list_groups`. -/
def listGroups (eng : Engine) : Service (List Group) := withUOW eng (Txn.get Store.groups)

/-- `create_user`: a uid that is taken is answered as such. -/
def createUser (eng : Engine) (user : User) : Service User := do
  reraise .uowAlreadyExists
    ⟨.alreadyExists, s!"User {Text.fieldText user.uid} already exists", none⟩
    (withUOW eng (Txn.put (.addUser user)))
  return user

/-- The router passes the uid itself, so the `except` clause, which reads `user.uid`,
raises on the string. -/
def removeUser (eng : Engine) (user : String) : Service Unit :=
  reraise .repoNotFound ⟨.lib .attributeError, "'str' object has no attribute 'uid'", none⟩
    (withUOW eng (EntityRepo.removeUser user))

/-- `create_group`, as `createUser`. -/
def createGroup (eng : Engine) (group : Group) : Service Group := do
  reraise .uowAlreadyExists
    ⟨.alreadyExists, s!"Group {Text.fieldText group.name} already exists", none⟩
    (withUOW eng (Txn.put (.addGroup group)))
  return group

/-- As with `removeUser`, the router passes the name itself. -/
def removeGroup (eng : Engine) (group : String) : Service Unit :=
  reraise .repoNotFound ⟨.lib .attributeError, "'str' object has no attribute 'name'", none⟩
    (withUOW eng (EntityRepo.removeGroup group))

/-- `create_domain`. The flag of the default is not set here. -/
def createDomain (eng : Engine) (domain : Domain) : Service Domain := do
  reraise .uowAlreadyExists ⟨.alreadyExists, s!"Domain {domain.name} already exists", none⟩
    (withUOW eng (Txn.put (.addDomain domain)))
  return domain

/-- The flags whose value the loop changes. -/
def defaultChanges (domainId : String) (domains : List Domain) : List Change :=
  (domains.filter fun d => decide (d.default ≠ decide (d.id = domainId))).map fun d =>
    .setDomainDefault d.id (decide (d.id = domainId))

/-- The `with` block of `set_default_domain`, a loop over all domains. -/
def setDefaultDomainBody (domainId : String) : Session Unit := do
  let domains ← DomainRepo.list
  (defaultChanges domainId domains).forM Txn.put
  -- an unknown id is noticed after the loop, and raising drops the flags
  if !domains.any fun d => decide (d.id = domainId) then
    throw ⟨.domainNotFound, s!"Unable to find domain with id {domainId}", none⟩

/-- `set_default_domain`. -/
def setDefaultDomain (eng : Engine) (domainId : String) : Service Unit :=
  withUOW eng (setDefaultDomainBody domainId)

/-- `remove_domain`: the routes of the domain stand in its way. -/
def removeDomain (eng : Engine) (domainId : String) : Service Unit :=
  reraise .repoNotFound ⟨.domainNotFound, s!"Unable to find domain {domainId}", none⟩
    (withUOW eng (DomainRepo.remove domainId))

/-- `list_domains`. -/
def listDomains (eng : Engine) : Service (List Domain) := withUOW eng DomainRepo.list

/-! ## Communities -/

/-- `get_user_community`: of the communities of the user only. -/
def getUserCommunity (eng : Engine) (user : User) (idOrName : String) :
    Service (Option Community) :=
  withUOW eng (CommunityRepo.get idOrName (some user.id))

/-- `community.entity` is assigned before the community is added; its own
`entity_id` does not count. -/
def createCommunityBody (user : User) (community : Community) : Session Community := do
  let user ← EntityRepo.getUser user.uid
  let community := { community with entityId := user.id }
  Txn.put (.addCommunity community)
  return community

/-- `create_community`. -/
def createCommunity (eng : Engine) (user : User) (community : Community) : Service Community :=
  reraise .uowAlreadyExists
    ⟨.alreadyExists, s!"Community {community.name} already exists", none⟩
    (withUOW eng (createCommunityBody user community))

/-- The `with` block of `add_route_to_community`: owners of the route put it in, others ask. -/
def addRouteToCommunityBody (eng : Engine) (user : User) (routeId communityId : String) :
    Session (Option MembershipRequest) := do
  let user ← EntityRepo.getUser user.uid
  match ← RouteRepo.get routeId with
  | none => throw ⟨.notFound, s!"Unable to find route with id {routeId}", none⟩
  | some route =>
    match ← CommunityRepo.get communityId none with
    | none => throw ⟨.notFound, s!"Unable to find community with id {communityId}", none⟩
    | some community =>
      -- who owns the community is not asked
      if user.id ∉ (← RouteRepo.entities route.id) then
        -- the request refers to the string passed, which may be the name
        match ← MembershipRequestRepo.get user.id communityId routeId with
        | some request => return some request
        | none =>
          let request : MembershipRequest := ⟨user.id, communityId, routeId, .pending⟩
          Txn.put (.addRequest request)
          return some request
      else if route.communityId = some community.id then
        let texts ← Txn.get fun s => (eng.routeText s route, eng.communityText s community)
        throw ⟨.alreadyExists, s!"Route {texts.1} already in {texts.2}", none⟩
      else
        Txn.put (.setRoute route.id (.community (some community.id)))
        return none

/-- `add_route_to_community`: the request that was made or found, if it took one. -/
def addRouteToCommunity (eng : Engine) (user : User) (routeId communityId : String) :
    Service (Option MembershipRequest) :=
  withUOW eng (addRouteToCommunityBody eng user routeId communityId)

/-- The `with` block of `remove_route_from_community`. Only the id of the community will do. -/
def removeRouteFromCommunityBody (user : User) (routeId communityId : String) :
    Session Unit := do
  let user ← EntityRepo.getUser user.uid
  let route ← Txn.get fun s =>
    s.routes.find? fun r => decide (r.id = routeId ∧ user.id ∈ s.owners r.id)
  match route with
  -- a route of somebody else's counts as absent
  | none => throw ⟨.notFound, s!"Route {routeId} not found", none⟩
  | some route =>
    if route.communityId ≠ some communityId then
      throw ⟨.notFound, s!"Community {communityId} not found", none⟩
    Txn.put (.setRoute route.id (.community none))

/-- `remove_route_from_community`. -/
def removeRouteFromCommunity (eng : Engine) (user : User) (routeId communityId : String) :
    Service Unit :=
  withUOW eng (removeRouteFromCommunityBody user routeId communityId)

/-- The `with` block of `remove_user_community`: the first listed community with the id or name. -/
def removeUserCommunityBody (eng : Engine) (user : User) (idOrName : String) : Session Unit := do
  let user ← EntityRepo.getUser user.uid
  let community ← Txn.get fun s =>
    (eng.communitiesOf s user.id).find? fun c => decide (c.id = idOrName ∨ c.name = idOrName)
  match community with
  -- `community.id` is read without a check
  | none => throw (noneAttributeError "id")
  | some community => CommunityRepo.remove community.id

/-- `remove_user_community`. -/
def removeUserCommunity (eng : Engine) (user : User) (idOrName : String) : Service Unit :=
  reraise .repoNotFound ⟨.notFound, s!"Unable to find community {idOrName}", none⟩
    (withUOW eng (removeUserCommunityBody eng user idOrName))

/-- `list_communities`, of one owner or of all. -/
def listCommunities (eng : Engine) (entityId : Option String) : Service (List Community) :=
  withUOW eng (CommunityRepo.list entityId)

/-! ## Administrators -/

/-- `admin_token_value.split(".")` unpacked into two names. -/
def unpackToken (value : String) : Except Exc (String × String) :=
  match Text.splitAt '.' value with
  | [adminTokenId, plain] => .ok (adminTokenId, plain)
  | [_] => .error ⟨.lib .valueError, "not enough values to unpack (expected 2, got 1)", none⟩
  | _ => .error ⟨.lib .valueError, "too many values to unpack (expected 2)", none⟩

/-- `validate_admin_token`: an id that is not stored makes it invalid, a bad format raises. -/
def validateAdminToken (bcrypt : Bcrypt) (value : String) : Session Bool := do
  let (adminTokenId, plain) ← Txn.ofExcept (unpackToken value)
  match ← AdminTokenRepo.get adminTokenId with
  | none => return false
  | some token => Txn.ofExcept (bcrypt.checkpw plain token.value)

/-- `get_admin_token`. The secret is not looked at again. -/
def getAdminToken (value : String) : Session AdminToken := do
  let (adminTokenId, _) ← Txn.ofExcept (unpackToken value)
  match ← AdminTokenRepo.get adminTokenId with
  | none => throw ⟨.notFound, s!"AdminToken with id {adminTokenId} not found", none⟩
  | some token => return token

/-- `uow.user_repo` is not an attribute of `SqlUOW`. -/
def addAdmin (eng : Engine) (_userUid : String) : Service Unit :=
  withUOW eng (throw ⟨.lib .attributeError, "'SqlUOW' object has no attribute 'user_repo'", none⟩)

/-- As `addAdmin`. -/
def removeAdmin (eng : Engine) (_userUid : String) : Service Unit :=
  withUOW eng (throw ⟨.lib .attributeError, "'SqlUOW' object has no attribute 'user_repo'", none⟩)

/-- The body of `create_admin_token`: the stored value is the hash. -/
def createAdminTokenBody (bcrypt : Bcrypt) (salt : String) (token : AdminToken) :
    Session Unit := do
  let hashed ← Txn.ofExcept (bcrypt.hashpw token.value salt)
  Txn.put (.addAdminToken { token with value := hashed })

/-- The `except` clauses of `create_admin_token`; the first takes the subclass before the
second takes its base. -/
def createAdminTokenError (token : AdminToken) (e : Exc) : Exc :=
  if e.isInstance .uowAlreadyExists then
    ⟨.alreadyExists, s!"Admin Token name {token.name} already exists.", none⟩
  else if e.isInstance .uowException then ⟨.baseServiceException, e.msg, none⟩
  else e

/-- `create_admin_token`: the secret is returned here, and never again. -/
def createAdminToken (eng : Engine) (bcrypt : Bcrypt) (salt : String) (token : AdminToken) :
    Service String := do
  tryCatch (withUOW eng (createAdminTokenBody bcrypt salt token)) fun e =>
    throw (createAdminTokenError token e)
  return token.id ++ "." ++ token.value

/-- `list_admin_tokens`. -/
def listAdminTokens (eng : Engine) : Service (List AdminToken) :=
  withUOW eng (Txn.get Store.adminTokens)

/-- The `with` block of `remove_admin_token`: the secret may be wrong. -/
def removeAdminTokenBody (value : String) : Session Unit := do
  let (adminTokenId, _) ← Txn.ofExcept (unpackToken value)
  AdminTokenRepo.remove adminTokenId

/-- The `except` clauses of `remove_admin_token`. -/
def removeAdminTokenError (e : Exc) : Exc :=
  if e.isInstance .repoNotFound then ⟨.notFound, "Admin Token not found", none⟩
  else if e.isInstance (.lib .valueError) then ⟨.lib .valueError, "Invalid Token Format", none⟩
  else e

/-- `remove_admin_token`. -/
def removeAdminToken (eng : Engine) (value : String) : Service Unit :=
  tryCatch (withUOW eng (removeAdminTokenBody value)) fun e => throw (removeAdminTokenError e)

end RouteRegistry
