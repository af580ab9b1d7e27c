import RouteRegistry.Registry.Authentication
import RouteRegistry.Registry.Handlers
import RouteRegistry.Registry.Jwts
import RouteRegistry.Registry.Routing

/-!
# Endpoints (`routers/`, `internal/`)

- `Backend`: what a request acts on, the database and the queue of the workers.
- `Server.admission`: the route of a request and its guard, which decide who calls which
  handler. Nothing is written there (`readOnly_admission`).
- `Server.handle`: the handlers. All but `register` are one `with` block and what the block
  returns; `register` looks for the community first (`Server.locate`), then registers, queues
  two tasks and signs a JWT (`Server.registerLocated`).
- `Server.serve`: a request from its arrival to its answer. Asked for its keys, a server shows public
  ones (`serve_publicKeys`).
-/

namespace RouteRegistry

open UnitOfWork Calls Templates

/-! ## The backend -/

/-- The tasks that requests queue. -/
inductive Task where
  | updateRoute (routeId authzPath : String)
  | notifyRouteTableUpdate
deriving DecidableEq, Repr

/-- A task in the queue, and how often it has been tried again. -/
structure Message where
  task : Task
  retries : Nat := 0
deriving DecidableEq, Repr

/-- What the requests of all servers share: the database, and the queue of the broker. -/
structure Backend where
  db : Database
  queue : List Message := []

/-- What a request does. -/
abbrev Action (α : Type) := EStateM Exc Backend α

/-- The queue is left as it is. -/
def Backend.withDb (b : Backend) (db : Database) : Backend := { b with db := db }

/-- A message that has not been tried yet. -/
def Backend.enqueue (b : Backend) (task : Task) : Backend :=
  { b with queue := b.queue ++ [⟨task, 0⟩] }

@[simp] theorem Backend.withDb_db (b : Backend) (db : Database) : (b.withDb db).db = db := rfl

@[simp] theorem Backend.withDb_queue (b : Backend) (db : Database) :
    (b.withDb db).queue = b.queue := rfl

@[simp] theorem Backend.withDb_self (b : Backend) : b.withDb b.db = b := rfl

@[simp] theorem Backend.enqueue_db (b : Backend) (task : Task) : (b.enqueue task).db = b.db := rfl

@[simp] theorem Backend.enqueue_queue (b : Backend) (task : Task) :
    (b.enqueue task).queue = b.queue ++ [⟨task, 0⟩] := rfl

/-- A service call of a request. -/
def onStore {α : Type} (call : Service α) : Action α := within Backend.db Backend.withDb call

/-- `task.delay(…)`, which raises when the broker does not take the message. -/
def delay (publish : Task → Except Exc Unit) (task : Task) : Action Unit := fun b =>
  match publish task with
  | .ok _ => .ok () (b.enqueue task)
  | .error e => .error e b

/-! ## The server -/

/-- What `make_app` is called with, and the libraries below. -/
structure Server where
  eng : Engine
  setup : Setup
  auth : UserAuth
  bearer : BearerJose
  rfc : Joserfc
  jwtConfig : JWTConfig rfc
  url : UrlConfig
  tunnelConnectUrl : String
  tokenServiceUrl : String
  authzPath : String
  apiVersion : List Char

/-- What a request meets beside the backend: drawn values, the token service and the broker. -/
structure Env where
  uuid : String
  token : String
  nameId : String
  salt : String
  tokenService : TokenService
  publish : Task → Except Exc Unit

/-- What the handlers return. -/
inductive Reply where
  | jwt (token : String)
  | jwks (keys : List Json)
  | communities (pCommunities : List PydanticCommunity)
  | community (pCommunity : Option PydanticCommunity)
  | membershipRequest (pRequest : PydanticMembershipRequest)
  | routes (pRoutes : List PydanticRoute)
  | domains (pDomains : List PydanticDomain)
  | domain (pDomain : PydanticDomain)
  | users (pUsers : List PydanticUser)
  | user (pUser : PydanticUser)
  | groups (pGroups : List PydanticGroup)
  | group (pGroup : PydanticGroup)
  | tokens (pTokens : List PydanticAdminToken)
  | text (value : String)
  | registration (response : RegistrationResponse)
  | empty

/-- What a client is sent: the code and the body. -/
structure HttpResponse where
  code : Nat
  reply : Reply

/-- The code of an answer that nothing went wrong with. -/
def Handler.successCode : Handler → Nat
  | .createDomain | .createToken => 201
  | .makeDefaultDomain => 202
  | .removeFromCommunity | .removeCommunity | .deleteDomain | .deleteUser | .grantAdminRole
  | .revokeAdminRole | .deleteGroup | .deleteByValue => 204
  | .createGroup => 201
  | _ => 200

/-- A parameter that is missing or does not parse. -/
def unprocessable : Exc := httpException 422 "Unprocessable Entity"

/-- A required header. -/
def requireHeader (header : Option String) : Except Exc String :=
  match header with
  | some value => .ok value
  | none => .error unprocessable

/-! ## Guards -/

/-- What a guard lets through. -/
abbrev Guard.Caller : Guard → Type
  | nobody | adminRole _ => Unit
  | routeJwt => Route
  | tokenOrFallback | tokenService | admin => User

/-- `TokenOrFallbackAuthenticator.token_auth`. -/
def Server.tokenAuth (server : Server) (env : Env) (xToken : String) : Service User :=
  tokenServiceAuthenticator server.eng server.bearer env.tokenService xToken

/-- The dependencies of a handler. -/
def Server.check (server : Server) (env : Env) (now : Time) (request : HttpRequest) :
    (guard : Guard) → Service guard.Caller
  | .nobody => pure ()
  | .routeJwt => do
    jwtAuthenticator server.eng (server.jwtConfig.jose now)
      (← Calls.ofExcept (requireHeader request.xJwt))
  | .adminRole role => do
    requireAdminRole role (adminTokenAuthenticator server.eng server.setup.bcrypt
      (← Calls.ofExcept (requireHeader request.xToken)))
  | .tokenOrFallback =>
    tokenOrFallback (server.tokenAuth env) (server.auth.call request) request.xToken
  | .tokenService => do server.tokenAuth env (← Calls.ofExcept (requireHeader request.xToken))
  -- the fallback alone: a token does not make an administrator
  | .admin => requireAdmin (server.auth.call request)

/-- A request that got to a handler: the values in its path, and who calls. -/
structure Admitted where
  handler : Handler
  params : List String
  caller : handler.guard.Caller

/-- The router, and the guard of the handler it finds. -/
def Server.admission (server : Server) (env : Env) (now : Time) (request : HttpRequest) :
    Service Admitted :=
  match resolve (makeApp server.apiVersion) request.method request.path with
  | .found handler params => do
    let caller ← server.check env now request handler.guard
    return ⟨handler, params.map String.ofList, caller⟩
  | .methodNotAllowed => throw (httpException 405 "Method Not Allowed")
  | .redirect => throw (httpException 307 "Temporary Redirect")
  | .notFound => throw (httpException 404 "Not Found")

/-! ## Handlers -/

/-- `except NotFound as e: raise HTTPException(status_code=404, detail=e.msg)` and its like. -/
def answerWith (codes : List (ExcClass × Nat)) (e : Exc) : Exc :=
  match codes.find? fun code => e.isInstance code.1 with
  | some (_, code) => httpException code e.msg
  | none => e

/-- The `except` clauses of a handler around the call of its service. -/
def answering {α : Type} (codes : List (ExcClass × Nat)) (call : Service α) : Service α :=
  tryCatch call fun e => throw (answerWith codes e)

/-- The members of the enumerations, as a query names them. -/
def Status.ofText : String → Except Exc Status
  | "UP" => .ok .up
  | "MISCONFIGURED" => .ok .misconfigured
  | "MISSING_ENTITY" => .ok .missingEntity
  | "UPGRADE_REQUIRED" => .ok .upgradeRequired
  | "SERVER_ERROR" => .ok .serverError
  | "DOWN" => .ok .down
  | _ => .error unprocessable

/-- Those of the other filter. -/
def VerificationStatus.ofText : String → Except Exc VerificationStatus
  | "VERIFIED" => .ok .verified
  | "PENDING" => .ok .pending
  | "UNVERIFIED" => .ok .unverified
  | _ => .error unprocessable

/-- The routes that a query asks for, as wire objects. -/
def Server.queryRoutes (server : Server) (filters : Filters) (entityId : Option String) :
    Service Reply := do
  let verificationStatus ← Calls.ofExcept (filters.verificationStatus.mapM VerificationStatus.ofText)
  let status ← Calls.ofExcept (filters.status.mapM Status.ofText)
  let routes ← listLoadedRoutes server.eng verificationStatus status filters.name entityId
  Reply.routes <$> Calls.ofExcept (routes.mapM fun r => fromRoute r)

/-- The routes of the listings that have no filters: verified and up. -/
def Server.activeRoutes (server : Server) : Service Reply := do
  let routes ← listLoadedRoutes server.eng (some .verified) (some .up) none none
  Reply.routes <$> Calls.ofExcept (routes.mapM fun r => fromRoute r)

/-- The community a registration names. -/
def Server.locate (server : Server) (user : User) (data : RegistrationRequest) :
    Service (Option Community) :=
  tryCatch (registrationCommunity server.eng user data.communityName)
    fun e => throw (registerError e)

/-- `register_route` in `register`, with its `except` clauses. -/
def Server.registration (server : Server) (env : Env) (now : Time) (user : User)
    (data : RegistrationRequest) (community : Option Community) : Service Route :=
  tryCatch
    (registerRoute server.eng ⟨Text.fieldText user.uid, data.name, data.domainName,
      server.url.tunnelUrl, server.url.bindSubdomain, community⟩
      ⟨now, env.uuid, env.token, env.nameId⟩)
    fun e => throw (registerError e)

/-- The task that a registration and a rotation queue. -/
def Server.updateTask (server : Server) (route : Route) : Task :=
  .updateRoute route.id server.authzPath

/-- What a registration is answered with. -/
def Server.response (server : Server) (route : Route) (jwt : String) : RegistrationResponse where
  url := route.src
  airlock := { jwtIssuerUrl := some server.tokenServiceUrl }
  tunnel := { url := some server.tunnelConnectUrl, jwt := some jwt, endpoint := some route.id }
  jwt := some jwt
  endpoint := some route.id

/-- The rest of `register`: the route is committed before its tasks are queued and its JWT is
signed. -/
def Server.registerLocated (server : Server) (env : Env) (now : Time) (user : User)
    (data : RegistrationRequest) (community : Option Community) : Action Reply := do
  let route ← onStore (server.registration env now user data community)
  delay env.publish (server.updateTask route)
  delay env.publish .notifyRouteTableUpdate
  let jwt ← Calls.ofExcept (createPikoJwt route server.jwtConfig none now)
  return .registration (server.response route jwt)

/-- The task that `_jwt` queues for a route that is down. -/
def Server.wake (server : Server) (env : Env) (route : Route) : Action Unit :=
  if route.status = .down then delay env.publish (server.updateTask route) else pure ()

/-- `_jwt`. -/
def Server.rotate (server : Server) (env : Env) (now : Time) (route : Route) : Action Reply := do
  server.wake env route
  Reply.jwt <$> Calls.ofExcept (createPikoJwt route server.jwtConfig none now)

/-- The handlers that are one service call. -/
def Server.call (server : Server) (env : Env) (request : HttpRequest) (params : List String) :
    (handler : Handler) → handler.guard.Caller → Service Reply
  | .listCommunities, (user : User) => do
    let communities ← listLoadedCommunities server.eng (some user.id)
    Reply.communities <$> Calls.ofExcept (communities.mapM fromCommunity)
  | .getCommunity, (user : User) => do
    let community ← getLoadedCommunity server.eng user (params.getD 0 "")
    Reply.community <$> Calls.ofExcept (community.mapM fromCommunity)
  | .createCommunity, (user : User) =>
    match request.body with
    | some (.community pCommunity) => do
      let community ← answering [(.alreadyExists, 409)]
        (createCommunity server.eng user (toCommunity env.uuid pCommunity))
      -- a new community has no routes
      Reply.community <$> some <$> Calls.ofExcept (fromCommunity ⟨community, []⟩)
    | _ => throw unprocessable
  | .addRoute, (user : User) => do
    let membershipRequest ← answering [(.notFound, 404), (.alreadyExists, 409)]
      (addRouteToCommunity server.eng user (params.getD 1 "") (params.getD 0 ""))
    match membershipRequest with
    | some m => return .membershipRequest (fromMembershipRequest m)
    | none => return .empty
  | .removeFromCommunity, (user : User) => do
    answering [(.notFound, 404)]
      (removeRouteFromCommunity server.eng user (params.getD 1 "") (params.getD 0 ""))
    return .empty
  | .removeCommunity, (user : User) => do
    CommunityRouter.remove server.eng user (params.getD 0 "")
    return .empty
  | .listRoutes, _ => server.queryRoutes request.filters none
  | .listActive, _ => server.activeRoutes
  | .listDomains, _ => do return .domains ((← listDomains server.eng).map fromDomain)
  | .createDomain, _ =>
    match request.body with
    | some (.domain pDomain) => do
      let domain ← answering [(.alreadyExists, 400)]
        (createDomain server.eng (pDomain.toDomain env.uuid))
      return .domain (fromDomain domain)
    | _ => throw unprocessable
  | .makeDefaultDomain, _ => do
    DomainRouter.makeDefaultDomain server.eng (params.getD 0 "")
    return .empty
  | .deleteDomain, _ => do
    DomainRouter.delete server.eng (params.getD 0 "")
    return .empty
  | .listUsers, _ => do return .users ((← listUsers server.eng).map fromUser)
  | .createUser, _ =>
    match request.body with
    | some (.user pUser) => do
      let user ← answering [(.alreadyExists, 400)] (createUser server.eng (toUser env.uuid pUser))
      return .user (fromUser user)
    | _ => throw unprocessable
  | .deleteUser, _ => do
    UserRouter.delete server.eng (params.getD 0 "")
    return .empty
  | .grantAdminRole, _ => do
    answering [(.notFound, 404)] (addAdmin server.eng (params.getD 0 ""))
    return .empty
  | .revokeAdminRole, _ => do
    answering [(.notFound, 404)] (removeAdmin server.eng (params.getD 0 ""))
    return .empty
  | .listGroups, _ => do return .groups ((← listGroups server.eng).map fromGroup)
  | .createGroup, _ =>
    match request.body with
    | some (.group pGroup) => do
      let group ← answering [(.alreadyExists, 400)]
        (createGroup server.eng (toGroup env.uuid pGroup))
      return .group (fromGroup group)
    | _ => throw unprocessable
  | .deleteGroup, _ => do
    GroupRouter.delete server.eng (params.getD 0 "")
    return .empty
  | .createToken, _ =>
    match request.body with
    | some (.adminToken pToken) =>
      Reply.text <$> answering [(.alreadyExists, 409), (.baseServiceException, 500)]
        (createAdminToken server.eng server.setup.bcrypt env.salt
          (toAdminToken env.uuid env.token pToken))
    | _ => throw unprocessable
  | .listTokens, _ => do return .tokens ((← listAdminTokens server.eng).map fromAdminToken)
  | .deleteByValue, _ => do
    tryCatch (removeAdminToken server.eng (params.getD 0 "")) fun e =>
      throw (if e.isInstance .notFound then httpException 404 e.msg
        else if e.isInstance (.lib .valueError) then httpException 400 "Bad Request"
        else e)
    return .empty
  | .listAvailable, _ => server.activeRoutes
  | .listUserRoutes, (user : User) => server.queryRoutes request.filters (some user.id)
  | .jwks, _ => return .jwks server.jwtConfig.jwks.keys
  | .hello, _ => return .empty
  -- the two that act on the queue
  | .jwt, _ | .register, _ => return .empty

/-- The code an answer is sent with; a route that was added at once has no request to show. -/
def Admitted.code (admitted : Admitted) (reply : Reply) : Nat :=
  match admitted.handler, reply with
  | .addRoute, .empty => 204
  | handler, _ => handler.successCode

/-- `register`. -/
def Server.register (server : Server) (env : Env) (now : Time) (request : HttpRequest)
    (user : User) : Action Reply :=
  match request.body with
  | some (.registration data) => do
    let community ← onStore (server.locate user data)
    server.registerLocated env now user data community
  | _ => throw unprocessable

/-- A handler, from its call to its reply. -/
def Server.handle (server : Server) (env : Env) (now : Time) (request : HttpRequest) :
    Admitted → Action Reply
  | ⟨.jwt, _, route⟩ => server.rotate env now route
  | ⟨.register, _, user⟩ => server.register env now request user
  | ⟨handler, params, caller⟩ => onStore (server.call env request params handler caller)

/-- A request, with nothing in between. -/
def Server.serve (server : Server) (env : Env) (now : Time) (request : HttpRequest) :
    Action HttpResponse := do
  let admitted ← onStore (server.admission env now request)
  let reply ← server.handle env now request admitted
  return ⟨admitted.code reply, reply⟩

/-- **No private key is served.** A server whose keys are those of a table answers a request for its
key set, whatever else is in it, with keys that are read off public texts of the table. -/
theorem serve_publicKeys (server : Server) (table : JwtTable)
    (hconfig : JWTConfig.ofConfig server.rfc table = .ok server.jwtConfig) (env : Env) (now : Time)
    (request : HttpRequest) (params : List (List Char))
    (hfound : resolve (makeApp server.apiVersion) request.method request.path = .found .jwks params)
    (b : Backend) :
    ∃ served, server.serve env now request b = .ok ⟨200, .jwks served⟩ b ∧
      ∀ key ∈ served, ∃ kid keys pem, (kid, keys) ∈ table.keys ∧
        importPem server.rfc keys.publicPem keys.keyType (some kid) = .ok (some pem) ∧
        key = server.rfc.asDict pem := by
  refine ⟨server.jwtConfig.jwks.keys, ?_, (JWTConfig.ofConfig_ok hconfig).2⟩
  have hadmission : server.admission env now request =
      pure ⟨.jwks, params.map String.ofList, ()⟩ := by
    unfold Server.admission
    rw [hfound]
    rfl
  unfold Server.serve
  rw [hadmission]
  rfl

/-! ## A small server -/

/-- A token service for which a token is the name of its user. -/
def namingService : TokenService where
  jwks := .ok ⟨200, .ok (.obj [("keys", .arr [])])⟩
  tokenJwt xToken := .ok ⟨200, .ok (.obj [("jwt", .str xToken)])⟩

/-- Each bearer token is the uid of its user. -/
def namingJose : BearerJose where
  decode
    | _, .str uid => .ok { sub := some (.text uid) }
    | _, _ => .error ⟨.lib .valueError, "", none⟩
  validate _ := .ok ()

/-- A server on SQLite, with Alice at its keyboard. -/
def smallServer (table : List KnownJwt) : Server where
  eng := .sqlite
  setup := ⟨authorizationSchema, openBcrypt, .utc⟩
  auth := .localDev .sqlite "alice"
  bearer := namingJose
  rfc := .ofTable table
  jwtConfig := hourly table
  url := ⟨"tunnel", false⟩
  tunnelConnectUrl := "wss://tunnel"
  tokenServiceUrl := "https://tokens"
  authzPath := "authorization.json"
  apiVersion := "v1".toList

/-- Its authenticator is one that the factory makes. -/
example : makeAuthenticator .sqlite { authName := "local_dev", localDev := some (some "alice") }
    "root" = .ok (smallServer []).auth := rfl

/-- What a request draws and meets, with a broker that takes all messages. -/
def calmEnv : Env where
  uuid := "new"
  token := "token"
  nameId := "name"
  salt := ""
  tokenService := namingService
  publish _ := .ok ()

end RouteRegistry
