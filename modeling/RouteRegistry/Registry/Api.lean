import RouteRegistry.Registry.Services

/-!
# Authenticators and endpoints (`dependencies.py`, `routers/`)

The parts of the HTTP layer that decide something: which token or JWT is let through,
which community a registration is made for, and how exceptions become status codes.
-/

namespace RouteRegistry

open UnitOfWork

/-! ## Admin tokens -/

def authenticateBody (bcrypt : Bcrypt) (xToken : String) : Session AdminToken := do
  tryCatch
    (do
      if !(← validateAdminToken bcrypt xToken) then
        throw (httpException 401 "Invalid Token"))
    fun e =>
      -- a value that does not unpack, or one too long for `checkpw`
      if e.isInstance (.lib .valueError) then throw (httpException 401 "Invalid Token")
      else throw e
  getAdminToken xToken

/-- `AdminTokenAuthenticator.__call__`. -/
def adminTokenAuthenticator (eng : Engine) (bcrypt : Bcrypt) (xToken : String) :
    Service AdminToken :=
  withUOW eng (authenticateBody bcrypt xToken)

/-- The wrapper the three `require_admin_*_role` functions share. -/
def requireAdminRole (role : AdminRole) (adminTokenAuth : Service AdminToken) : Service Unit := do
  let adminToken ← adminTokenAuth
  if adminToken.role ∉ [role, .any] then throw (httpException 403 "Forbidden")

def requireAdminIdentityRole : Service AdminToken → Service Unit := requireAdminRole .identity

def requireAdminObserverRole : Service AdminToken → Service Unit := requireAdminRole .observer

def requireAdminDomainRole : Service AdminToken → Service Unit := requireAdminRole .domain

/-! ## Route JWTs -/

/-- The value of the claim `sub`. One that is no string is kept as what the database makes
of it next to a text column: the text it is compared as, or nothing, when it is refused. -/
inductive Subject where
  | text (s : String)
  | other (bound : Option String)
deriving DecidableEq, Repr

/-- The claims of a decoded JWT: `sub`, and the others the claims registry looks at. -/
structure Claims where
  sub : Option Subject := none
  others : List (String × Json) := []

/-- `joserfc`: `jwt.decode` under the configured key set, and the claims registry. -/
structure Jose where
  decode : String → Except Exc Claims
  validate : Claims → Except Exc Unit

/-- The first `try` block of `JWTAuthenticator.__call__`. -/
def decodeJwt (jose : Jose) (xJwt : String) : Except Exc Claims :=
  let checked := do
    let claims ← jose.decode xJwt
    jose.validate claims
    return claims
  match checked with
  | .ok claims => .ok claims
  | .error e =>
    if e.isInstance (.lib .invalidClaimError) || e.isInstance (.lib .missingClaimError) ||
        e.isInstance (.lib .expiredTokenError) then .error (httpException 401 e.msg)
    else .error e

/-- `token.claims["sub"]`, as the query of the route repository takes it. -/
def Claims.subject (claims : Claims) : Except Exc String :=
  match claims.sub with
  | some (.text s) => .ok s
  | some (.other (some s)) => .ok s
  | some (.other none) => .error ⟨.lib (.other "StatementError"), "unsupported type", none⟩
  | none => .error ⟨.lib .keyError, "'sub'", none⟩

def verifiedRouteBody (claims : Claims) : Session Route := do
  match ← RouteRepo.get (← Txn.ofExcept claims.subject) with
  | none => throw (httpException 401 "Unauthorized")
  | some route =>
    if route.verificationStatus ≠ .verified then
      throw (httpException 401 "Cannot rotate jwt for unverified route")
    return route

/-- `JWTAuthenticator.__call__`. -/
def jwtAuthenticator (eng : Engine) (jose : Jose) (xJwt : String) : Service Route := do
  match decodeJwt jose xJwt with
  | .ok claims => withUOW eng (verifiedRouteBody claims)
  | .error e => throw e

/-! ## The register endpoint -/

/-- The body of a registration request. -/
structure RegistrationRequest where
  name : String
  domainName : Option String := none
  communityName : Option String := none
deriving DecidableEq, Repr

/-- The parts of the `url` configuration the endpoint uses. -/
structure UrlConfig where
  tunnelUrl : String
  bindSubdomain : Bool
deriving DecidableEq, Repr

/-- The community lookup of `register`. -/
def registrationCommunity (eng : Engine) (user : User) (communityName : Option String) :
    Service (Option Community) := do
  if Text.truthy communityName then
    match ← getUserCommunity eng user (Text.fieldText communityName) with
    | some community => return some community
    | none =>
      throw (httpException 400 s!"Community {Text.fieldText communityName} does not exist")
  else return none

/-- The `except` clauses of `register`. -/
def registerError (e : Exc) : Exc :=
  if e.isInstance .notFound then httpException 404 e.msg
  else if e.isInstance .alreadyExists then httpException 400 e.msg
  else if e.isInstance .notAllowed then httpException 403 e.msg
  else e

/-- `POST /route`, up to the tasks and the JWT of the answer. -/
def register (eng : Engine) (config : UrlConfig) (user : User) (data : RegistrationRequest)
    (draws : Draws) : Service Route :=
  tryCatch
    (do
      -- a block of its own: the community is detached when the route is registered
      let community ← registrationCommunity eng user data.communityName
      registerRoute eng
        ⟨Text.fieldText user.uid, data.name, data.domainName, config.tunnelUrl,
          config.bindSubdomain, community⟩ draws)
    fun e => throw (registerError e)

/-! ## Seeding (`command.py`) -/

/-- The second step of `seed_dev_user`: the stored user gets the asked flag. -/
def reconcileAdminBody (uid : String) (isAdmin : Bool) : Session Unit := do
  let user ← EntityRepo.getUser (some uid)
  if user.isAdmin = isAdmin then return ()
  Txn.put (.setUserAdmin user.id isAdmin)

/-- `seed_dev_user`. -/
def seedDevUser (eng : Engine) (user : User) : Service Unit := do
  let seeded ←
    tryCatch (do
      let _ ← createUser eng user
      return true)
      fun e => if e.isInstance .alreadyExists then return false else throw e
  if !seeded then withUOW eng (reconcileAdminBody (Text.fieldText user.uid) user.isAdmin)

end RouteRegistry
