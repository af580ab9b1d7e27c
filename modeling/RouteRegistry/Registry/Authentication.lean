import RouteRegistry.Registry.AdminTokens
import RouteRegistry.Registry.Login
import RouteRegistry.Registry.Transactions
import RouteRegistry.Registry.Wire
import RouteRegistry.Relational.Calls

/-!
# Authenticators of users (`dependencies.py`)

- `HttpRequest`: what of a request the authenticators and handlers look at.
- `tokenServiceAuthenticator`, `localDevAuthenticator`, `oidcAuthenticator`: who the caller is.
- `UserAuth`: an authenticator that changes nothing and lets through stored users only.
  `makeAuthenticator` picks one by name, which lets in nobody it has not identified
  (`makeAuthenticator_identifies`), and `tokenOrFallback` puts the token service in front of it.
-/

namespace RouteRegistry

open Relational UnitOfWork Calls

/-! ## Requests -/

/-- The body of a request, as the wire model of its endpoint takes it. -/
inductive Body where
  | registration (data : RegistrationRequest)
  | community (pCommunity : PydanticCommunity)
  | user (pUser : PydanticUser)
  | group (pGroup : PydanticGroup)
  | domain (pDomain : PydanticDomain)
  | adminToken (pToken : PydanticAdminToken)
deriving DecidableEq, Repr

/-- The optional query parameters of the listing endpoints. -/
structure Filters where
  name : Option String := none
  status : Option String := none
  verificationStatus : Option String := none
deriving DecidableEq, Repr

structure HttpRequest where
  method : Method
  path : List Char
  xToken : Option String := none
  xJwt : Option String := none
  /-- `headers.get("X-Target", "")`. -/
  xTarget : List Char := []
  session : WebSession := {}
  filters : Filters := {}
  body : Option Body := none

/-! ## Sessions that only read -/

section Reads

variable {α : Type} {eng : Engine} {body : Session α}

theorem readOnly_withUOW (eng : Engine) (h : body.Queues fun _ => False) :
    ReadOnly (withUOW eng body) := by
  intro db
  have hrun : (body.run db.store).2 = [] :=
    List.eq_nil_iff_forall_not_mem.mpr fun c hc => h.run db.store c hc
  rcases withUOW_readonly eng hrun with ⟨a, hok⟩ | ⟨e, herror⟩
  · exact after_of_ok hok
  · exact after_of_error herror

theorem allOrNothing_withUOW (eng : Engine) (body : Session α) : AllOrNothing (withUOW eng body) :=
  fun _ _ _ h => withUOW_error h

/-- The user a block looks up is stored. -/
theorem withUOW_getUser_mem {uid : Option String} {db db' : Database} {user : User}
    (h : withUOW eng (EntityRepo.getUser uid) db = .ok user db') :
    user ∈ db.store.users ∧ user.uid = uid := by
  obtain ⟨Δ, hrun, -⟩ := withUOW_ok h
  cases hu : db.store.userOf uid with
  | none =>
    rw [EntityRepo.run_getUser_none db.valid hu] at hrun
    cases hrun
  | some u =>
    rw [EntityRepo.run_getUser_some db.valid hu] at hrun
    cases hrun
    exact lookup_mem hu

/-- As is the one a decoded token is about. -/
theorem withUOW_sessionUser_mem {claims : Claims} {db db' : Database} {user : User}
    (h : withUOW eng (sessionUserBody claims) db = .ok user db') :
    user ∈ db.store.users ∧ ∃ sub, claims.subject = .ok sub ∧ user.uid = some sub := by
  cases hsub : claims.subject with
  | error e =>
    have hrun : (sessionUserBody claims).run db.store = (.error e, []) := by
      unfold sessionUserBody
      rw [hsub]
      rfl
    cases (withUOW_raised hrun).symm.trans h
  | ok sub =>
    have hbody : sessionUserBody claims = EntityRepo.getUser (some sub) := by
      unfold sessionUserBody
      rw [hsub]
      rfl
    rw [hbody] at h
    obtain ⟨hmem, huid⟩ := withUOW_getUser_mem h
    exact ⟨hmem, sub, rfl, huid⟩

end Reads

/-! ## Authenticators -/

/-- An authenticator of users. It changes nothing, and whom it lets through is stored. -/
structure UserAuth where
  call : HttpRequest → Service User
  readOnly : ∀ request, ReadOnly (call request)
  stored : ∀ request db user db', call request db = .ok user db' → user ∈ db.store.users

/-- A request is let in for a user, with the store as it is. -/
def UserAuth.LetsIn (auth : UserAuth) (request : HttpRequest) (s : Store) (user : User) : Prop :=
  ∃ db : Database, db.store = s ∧ auth.call request db = .ok user db

/-- `BaseUserAuthDependency.__call__`. -/
def baseUserAuth : Service User := throw ⟨.lib (.other "NotImplementedError"), "", none⟩

/-- `LocalDevAuthenticator.__call__`. -/
def localDevAuthenticator (eng : Engine) (uid : String) : Service User :=
  tryCatch (withUOW eng (EntityRepo.getUser (some uid))) fun e =>
    throw (if e.isInstance .repoNotFound then
      httpException 401
        ("Local dev user '" ++ uid ++ "' is not seeded. Run: wormhole_route_registry seed-dev-user")
      else e)

/-- The `except NotFound` clause of the other authenticators. -/
def orUnauthorized (e : Exc) : Exc :=
  if e.isInstance .repoNotFound then httpException 401 "Unauthorized" else e

/-- `AuthLibOIDCAuthenticator.__call__` on any request; the redirect is raised. -/
def oidcAuthenticator (eng : Engine) (session : WebSession) : Service User :=
  match session.user.filter Claims.truthy with
  | none => throw (httpException 307 "Temporary Redirect")
  | some claims =>
    tryCatch (withUOW eng (sessionUserBody claims)) fun e => throw (orUnauthorized e)

section Sound

variable {eng : Engine}

theorem readOnly_getUser (eng : Engine) (uid : Option String) :
    ReadOnly (withUOW eng (EntityRepo.getUser uid)) :=
  readOnly_withUOW eng (queues_getUser uid)

theorem readOnly_sessionUser (eng : Engine) (claims : Claims) :
    ReadOnly (withUOW eng (sessionUserBody claims)) :=
  readOnly_withUOW eng (Txn.queues_bind (Txn.queues_ofExcept _) fun _ => queues_getUser _)

end Sound

def UserAuth.base : UserAuth where
  call _ := baseUserAuth
  readOnly _ := readOnly_throw _
  stored _ _ _ _ h := by cases h

def UserAuth.localDev (eng : Engine) (uid : String) : UserAuth where
  call _ := localDevAuthenticator eng uid
  readOnly _ := (readOnly_getUser eng (some uid)).tryCatch fun _ => readOnly_throw _
  stored _ _ _ _ h := (withUOW_getUser_mem (rethrow_eq_ok.mp h)).1

theorem readOnly_oidcAuthenticator (eng : Engine) (session : WebSession) :
    ReadOnly (oidcAuthenticator eng session) := by
  unfold oidcAuthenticator
  cases session.user.filter Claims.truthy with
  | none => exact readOnly_throw _
  | some claims => exact (readOnly_sessionUser eng claims).tryCatch fun _ => readOnly_throw _

/-- The user is stored, and is the one the session is about. -/
theorem oidcAuthenticator_ok {eng : Engine} {session : WebSession} {user : User}
    {db db' : Database} (h : oidcAuthenticator eng session db = .ok user db') :
    user ∈ db.store.users ∧ ∃ claims sub, session.user = some claims ∧
      claims.subject = .ok sub ∧ user.uid = some sub := by
  unfold oidcAuthenticator at h
  cases hclaims : session.user.filter Claims.truthy with
  | none =>
    rw [hclaims] at h
    cases h
  | some claims =>
    rw [hclaims] at h
    obtain ⟨hmem, sub, hsub, huid⟩ := withUOW_sessionUser_mem (rethrow_eq_ok.mp h)
    exact ⟨hmem, claims, sub, (Option.filter_eq_some_iff.mp hclaims).1, hsub, huid⟩

def UserAuth.oidc (eng : Engine) : UserAuth where
  call request := oidcAuthenticator eng request.session
  readOnly request := readOnly_oidcAuthenticator eng request.session
  stored _ _ _ _ h := (oidcAuthenticator_ok h).1

theorem UserAuth.letsIn_of_ok (auth : UserAuth) {request : HttpRequest} {user : User}
    {db db' : Database} (h : auth.call request db = .ok user db') :
    auth.LetsIn request db.store user := by
  obtain rfl := (auth.readOnly request).ok h
  exact ⟨_, rfl, h⟩

/-- On the requests of `Login`, the two authenticators agree. -/
theorem authLibOIDCAuthenticator_eq (eng : Engine) (url : List Char) (session : WebSession)
    (request : ProtectedRequest) (db : Database) :
    authLibOIDCAuthenticator eng url session request db =
      match session.user.filter Claims.truthy with
      | none => .ok (.redirect (loginLocation url request)) db
      | some _ => (Admission.user <$> oidcAuthenticator eng session) db := by
  unfold authLibOIDCAuthenticator oidcAuthenticator
  cases session.user.filter Claims.truthy with
  | none => rfl
  | some claims =>
    show EStateM.tryCatch (EStateM.map _ _) _ db = EStateM.map _ (EStateM.tryCatch _ _) db
    unfold EStateM.tryCatch EStateM.map orUnauthorized
    dsimp only
    cases withUOW eng (sessionUserBody claims) db with
    | ok user db' => rfl
    | error e db' =>
      dsimp only
      cases e.isInstance .repoNotFound <;> rfl

/-! ## The factory -/

/-- The tables of the `auth` configuration. -/
structure AuthConfig where
  authName : String
  baseAuth : Bool := false
  authlibOidc : Bool := false
  /-- The uid of `local_dev`. -/
  localDev : Option (Option String) := none

/-- `config.get("uid") or get_local_username()`. -/
def localDevUid (uid : Option String) (username : String) : String :=
  if Text.truthy uid then Text.fieldText uid else username

/-- `AuthenticatorFactory.make_authenticator`. -/
def makeAuthenticator (eng : Engine) (config : AuthConfig) (username : String) :
    Except Exc UserAuth :=
  let keyError : Except Exc UserAuth := .error ⟨.lib .keyError, s!"'{config.authName}'", none⟩
  match config.authName with
  | "base_auth" => if config.baseAuth then .ok .base else keyError
  | "authlib_oidc" => if config.authlibOidc then .ok (.oidc eng) else keyError
  | "local_dev" =>
    match config.localDev with
    | some uid => .ok (.localDev eng (localDevUid uid username))
    | none => keyError
  | _ => keyError

/-- What tells the configured authenticator whose request it is: a session, or the operating
system. -/
def AuthConfig.Identifies (config : AuthConfig) (username : String) (request : HttpRequest)
    (user : User) : Prop :=
  (config.authName = "authlib_oidc" ∧ ∃ claims sub, request.session.user = some claims ∧
    claims.subject = .ok sub ∧ user.uid = some sub) ∨
  (config.authName = "local_dev" ∧ ∃ uid, config.localDev = some uid ∧
    user.uid = some (localDevUid uid username))

/-- **The factory** makes no authenticator that lets in whom it has not identified. -/
theorem makeAuthenticator_identifies {eng : Engine} {config : AuthConfig} {username : String}
    {auth : UserAuth} (hmade : makeAuthenticator eng config username = .ok auth)
    {request : HttpRequest} {s : Store} {user : User} (h : auth.LetsIn request s user) :
    config.Identifies username request user := by
  obtain ⟨db, -, hcall⟩ := h
  unfold makeAuthenticator at hmade
  dsimp only at hmade
  split at hmade
  · split at hmade
    · cases hmade
      cases hcall
    · cases hmade
  · rename_i hname
    split at hmade
    · cases hmade
      exact .inl ⟨hname, (oidcAuthenticator_ok hcall).2⟩
    · cases hmade
  · rename_i hname
    split at hmade
    · rename_i uid huid
      cases hmade
      exact .inr ⟨hname, uid, huid, (withUOW_getUser_mem (rethrow_eq_ok.mp hcall)).2⟩
    · cases hmade
  · cases hmade

/-! ## The token service -/

/-- What the token service answers, or what asking it raises. -/
structure TokenService where
  /-- `GET /.well-known/jwks.json`. -/
  jwks : Except LibExc Response
  /-- `GET /token/jwt`, with the header `X-Token`. -/
  tokenJwt : String → Except LibExc Response

/-- `joserfc` for the tokens of the token service: `jwt.decode` under a key set, and the claims
registry of `extract_uid`. -/
structure BearerJose where
  decode : (jwks bearer : Json) → Except Exc Claims
  validate : Claims → Except Exc Unit

/-- `extract_uid`, up to the type of the claim. -/
def extractUid (jose : BearerJose) (jwks bearer : Json) : Except Exc Claims := do
  let claims ← jose.decode jwks bearer
  jose.validate claims
  if claims.sub.isNone then .error ⟨.lib .keyError, "'sub'", none⟩ else return claims

/-- The `try` block of `TokenServiceAuthenticator.__call__`. -/
def tokenClaims (jose : BearerJose) (jwks : Json) (resp : Response) : Except Exc Claims := do
  if resp.isHttpError then .error (libExc .httpError)
  let answer ← resp.json.mapError libExc
  extractUid jose jwks (← getItem answer "jwt")

/-- The `except` clause of that block, which does not name expired tokens. -/
def tokenError (e : Exc) : Exc :=
  if e.isInstance (.lib .httpError) || e.isInstance (.lib .invalidJSONError) ||
      e.isInstance (.lib .keyError) || e.isInstance (.lib .invalidClaimError) ||
      e.isInstance (.lib .missingClaimError) then
    httpException 500 "Failed validating token"
  else e

/-- What the authenticator asks of the token service, before it looks at the store. -/
def askTokenService (jose : BearerJose) (service : TokenService) (xToken : String) :
    Except Exc Claims := do
  let keys ← service.jwks.mapError libExc
  let jwks ← keys.json.mapError libExc
  let resp ← (service.tokenJwt xToken).mapError libExc
  if resp.statusCode = 401 then .error (httpException 401 "Invalid token")
  (tokenClaims jose jwks resp).mapError tokenError

/-- `TokenServiceAuthenticator.__call__`. -/
def tokenServiceAuthenticator (eng : Engine) (jose : BearerJose) (service : TokenService)
    (xToken : String) : Service User := do
  let claims ← Calls.ofExcept (askTokenService jose service xToken)
  tryCatch (withUOW eng (sessionUserBody claims)) fun e => throw (orUnauthorized e)

/-- `TokenOrFallbackAuthenticator.__call__`: an empty header counts as none. -/
def tokenOrFallback (tokenAuth : String → Service User) (fallbackAuth : Service User)
    (xToken : Option String) : Service User :=
  if Text.truthy xToken then tokenAuth (Text.fieldText xToken) else fallbackAuth

/-- `require_admin`. -/
def requireAdmin (userAuth : Service User) : Service User := do
  let user ← userAuth
  if !user.isAdmin then throw (httpException 403 "Forbidden")
  return user

section TokenService

variable {eng : Engine} {jose : BearerJose} {service : TokenService} {xToken : String}
  {db db' : Database} {user : User}

theorem readOnly_tokenServiceAuthenticator (eng : Engine) (jose : BearerJose)
    (service : TokenService) (xToken : String) :
    ReadOnly (tokenServiceAuthenticator eng jose service xToken) :=
  (readOnly_ofExcept _).bind fun claims =>
    (readOnly_sessionUser eng claims).tryCatch fun _ => readOnly_throw _

/-- The user is stored, and is the subject of what the service gave for the token. -/
theorem tokenServiceAuthenticator_ok
    (h : tokenServiceAuthenticator eng jose service xToken db = .ok user db') :
    user ∈ db.store.users ∧ ∃ claims sub, askTokenService jose service xToken = .ok claims ∧
      claims.subject = .ok sub ∧ user.uid = some sub := by
  obtain ⟨claims, db₁, hask, hcall⟩ := bind_eq_ok.mp h
  obtain rfl := (readOnly_ofExcept _).ok hask
  cases hres : askTokenService jose service xToken with
  | error e =>
    rw [hres] at hask
    cases hask
  | ok claims' =>
    rw [hres] at hask
    cases hask
    obtain ⟨hmem, sub, hsub, huid⟩ := withUOW_sessionUser_mem (rethrow_eq_ok.mp hcall)
    exact ⟨hmem, claims, sub, rfl, hsub, huid⟩

theorem requireAdmin_ok {userAuth : Service User} (hread : ReadOnly userAuth)
    (h : requireAdmin userAuth db = .ok user db') :
    userAuth db = .ok user db ∧ user.isAdmin = true ∧ db' = db := by
  obtain ⟨user', db₁, hauth, hcheck⟩ := bind_eq_ok.mp h
  obtain rfl := hread.ok hauth
  cases hadmin : user'.isAdmin with
  | true =>
    rw [hadmin] at hcheck
    cases hcheck
    exact ⟨hauth, hadmin, rfl⟩
  | false =>
    rw [hadmin] at hcheck
    cases hcheck

theorem readOnly_requireAdmin {userAuth : Service User} (hread : ReadOnly userAuth) :
    ReadOnly (requireAdmin userAuth) := by
  refine hread.bind fun user => ?_
  cases user.isAdmin with
  | true => exact readOnly_pure user
  | false => exact (readOnly_throw _).bind fun _ => readOnly_pure user

end TokenService

end RouteRegistry
