import RouteRegistry.Registry.Endpoints

/-!
# What requests do

- `Server.block`: the `with` block of a handler that may write, if it has one, and `Blocks` for
  all it can be. What a handler does to the store is what its block does (`after_call`).
- `serve_error`: what a request leaves behind that is not answered. All handlers do all or
  nothing, but a route is registered before its tasks are queued and its JWT is signed.
-/

namespace RouteRegistry

open UnitOfWork Calls Templates

/-! ## Service calls -/

section Services

variable {α β : Type} {call : Service α} {db : Database}

theorem after_eq_after (call : Service α) (db : Database) :
    call.after db = Calls.after call db := by
  unfold Service.after Calls.after
  cases call db <;> rfl

theorem after_readOnly (h : ReadOnly call) (db : Database) : call.after db = db :=
  (after_eq_after call db).trans (h db)

theorem after_answering (codes : List (ExcClass × Nat)) (call : Service α) (db : Database) :
    (answering codes call).after db = call.after db :=
  Service.after_throw call _ db

theorem after_reraise (cls : ExcClass) (new : Exc) (call : Service α) (db : Database) :
    (reraise cls new call).after db = call.after db :=
  Service.after_throw call _ db

/-- What follows a call changes nothing. -/
theorem after_bind_readOnly {f : α → Service β} (hf : ∀ a, ReadOnly (f a)) (db : Database) :
    (call >>= f).after db = call.after db := by
  rw [Service.after_bind]
  cases h : call db with
  | ok a db' => exact (after_readOnly (hf a) db').trans (Service.after_of_ok h).symm
  | error e db' => exact (Service.after_of_error h).symm

theorem after_map (f : α → β) (call : Service α) (db : Database) :
    Service.after (f <$> call) db = call.after db :=
  after_bind_readOnly (fun a => readOnly_pure (f a)) db

theorem readOnly_map {call : Service α} (f : α → β) (h : ReadOnly call) : ReadOnly (f <$> call) :=
  h.bind fun a => readOnly_pure (f a)

end Services

section Reads

variable {eng : Engine}

theorem readOnly_listLoadedRoutes (eng : Engine) (vs : Option VerificationStatus)
    (st : Option Status) (name entityId : Option String) :
    ReadOnly (listLoadedRoutes eng vs st name entityId) :=
  readOnly_withUOW eng (Txn.queues_bind (Txn.queues_get _) fun _ => Txn.queues_get _)

theorem readOnly_listLoadedCommunities (eng : Engine) (entityId : Option String) :
    ReadOnly (listLoadedCommunities eng entityId) :=
  readOnly_withUOW eng (Txn.queues_bind (Txn.queues_get _) fun _ => Txn.queues_get _)

theorem readOnly_getLoadedCommunity (eng : Engine) (user : User) (idOrName : String) :
    ReadOnly (getLoadedCommunity eng user idOrName) :=
  readOnly_withUOW eng (Txn.queues_bind (queues_getCommunity _ _) fun _ => Txn.queues_get _)

theorem readOnly_registrationCommunity (eng : Engine) (user : User) (name : Option String) :
    ReadOnly (registrationCommunity eng user name) := by
  have hget : ReadOnly (getUserCommunity eng user (Text.fieldText name)) :=
    readOnly_withUOW eng (queues_getCommunity _ _)
  unfold registrationCommunity
  split
  · refine hget.bind fun community => ?_
    cases community with
    | some community => exact readOnly_pure _
    | none => exact readOnly_throw _
  · exact readOnly_pure _

theorem readOnly_jwtAuthenticator (eng : Engine) (jose : Jose) (xJwt : String) :
    ReadOnly (jwtAuthenticator eng jose xJwt) := by
  have hbody : ∀ claims, (verifiedRouteBody claims).Queues fun _ => False := by
    intro claims
    refine Txn.queues_bind (Txn.queues_ofExcept _) fun sub => ?_
    refine Txn.queues_bind (queues_queryOne _ _) fun route => ?_
    cases route with
    | none => simp
    | some route =>
      dsimp only
      split <;> simp
  unfold jwtAuthenticator
  split
  · exact readOnly_withUOW eng (hbody _)
  · exact readOnly_throw _

theorem readOnly_adminTokenAuthenticator (eng : Engine) (bcrypt : Bcrypt) (xToken : String) :
    ReadOnly (adminTokenAuthenticator eng bcrypt xToken) := by
  refine readOnly_withUOW eng ?_
  exact (Transaction.body_queues eng ⟨authorizationSchema, bcrypt, .utc⟩ 0 (.authenticate xToken)).mono
    fun c h => h

theorem readOnly_requireAdminRole {role : AdminRole} {adminTokenAuth : Service AdminToken}
    (h : ReadOnly adminTokenAuth) : ReadOnly (requireAdminRole role adminTokenAuth) := by
  refine h.bind fun adminToken => ?_
  split
  · exact readOnly_throw _
  · exact readOnly_pure _

end Reads

/-! ## Guards -/

section Guards

variable {server : Server} {env : Env} {now : Time} {request : HttpRequest}

theorem readOnly_tokenAuth (server : Server) (env : Env) (xToken : String) :
    ReadOnly (server.tokenAuth env xToken) :=
  readOnly_tokenServiceAuthenticator _ _ _ _

/-- A guard changes nothing. -/
theorem readOnly_check (server : Server) (env : Env) (now : Time) (request : HttpRequest)
    (guard : Guard) : ReadOnly (server.check env now request guard) := by
  cases guard with
  | nobody => exact readOnly_pure _
  | routeJwt =>
    exact (readOnly_ofExcept _).bind fun xJwt => readOnly_jwtAuthenticator _ _ xJwt
  | adminRole role =>
    exact (readOnly_ofExcept _).bind fun xToken =>
      readOnly_requireAdminRole (readOnly_adminTokenAuthenticator _ _ xToken)
  | tokenOrFallback =>
    show ReadOnly (RouteRegistry.tokenOrFallback _ _ _)
    unfold RouteRegistry.tokenOrFallback
    split
    · exact readOnly_tokenAuth _ _ _
    · exact server.auth.readOnly request
  | tokenService => exact (readOnly_ofExcept _).bind fun xToken => readOnly_tokenAuth _ _ xToken
  | admin => exact readOnly_requireAdmin (server.auth.readOnly request)

/-- Neither does the way to a handler. -/
theorem readOnly_admission (server : Server) (env : Env) (now : Time) (request : HttpRequest) :
    ReadOnly (server.admission env now request) := by
  unfold Server.admission
  split
  · exact (readOnly_check _ _ _ _ _).bind fun _ => readOnly_pure _
  · exact readOnly_throw _
  · exact readOnly_throw _
  · exact readOnly_throw _

end Guards

/-! ## Handlers -/

/-- The block of a handler that may write. -/
def Server.block (env : Env) (request : HttpRequest) (params : List String) :
    (handler : Handler) → handler.guard.Caller → Option Transaction
  | .createCommunity, (user : User) =>
    match request.body with
    | some (.community pCommunity) =>
      some (.createCommunity user (toCommunity env.uuid pCommunity))
    | _ => none
  | .addRoute, (user : User) =>
    some (.addRouteToCommunity user (params.getD 1 "") (params.getD 0 ""))
  | .removeFromCommunity, (user : User) =>
    some (.removeRouteFromCommunity user (params.getD 1 "") (params.getD 0 ""))
  | .removeCommunity, (user : User) => some (.removeUserCommunity user (params.getD 0 ""))
  | .createDomain, _ =>
    match request.body with
    | some (.domain pDomain) => some (.createDomain (pDomain.toDomain env.uuid))
    | _ => none
  | .makeDefaultDomain, _ => some (.setDefaultDomain (params.getD 0 ""))
  | .deleteDomain, _ => some (.removeDomain (params.getD 0 ""))
  | .createUser, _ =>
    match request.body with
    | some (.user pUser) => some (.createUser (toUser env.uuid pUser))
    | _ => none
  | .deleteUser, _ => some (.removeUser (params.getD 0 ""))
  | .grantAdminRole, _ => some (.addAdmin (params.getD 0 ""))
  | .revokeAdminRole, _ => some (.removeAdmin (params.getD 0 ""))
  | .createGroup, _ =>
    match request.body with
    | some (.group pGroup) => some (.createGroup (toGroup env.uuid pGroup))
    | _ => none
  | .deleteGroup, _ => some (.removeGroup (params.getD 0 ""))
  | .createToken, _ =>
    match request.body with
    | some (.adminToken pToken) =>
      some (.createAdminToken env.salt (toAdminToken env.uuid env.token pToken))
    | _ => none
  | .deleteByValue, _ => some (.removeAdminToken (params.getD 0 ""))
  | _, _ => none

/-- Everything the block of a handler can be. -/
inductive Blocks (env : Env) (request : HttpRequest) (params : List String) :
    (handler : Handler) → handler.guard.Caller → Transaction → Prop where
  | createCommunity (user : User) (pCommunity : PydanticCommunity)
      (body : request.body = some (.community pCommunity)) :
      Blocks env request params .createCommunity user
        (.createCommunity user (toCommunity env.uuid pCommunity))
  | addRoute (user : User) : Blocks env request params .addRoute user
      (.addRouteToCommunity user (params.getD 1 "") (params.getD 0 ""))
  | removeFromCommunity (user : User) : Blocks env request params .removeFromCommunity user
      (.removeRouteFromCommunity user (params.getD 1 "") (params.getD 0 ""))
  | removeCommunity (user : User) : Blocks env request params .removeCommunity user
      (.removeUserCommunity user (params.getD 0 ""))
  | createDomain (pDomain : PydanticDomain) (body : request.body = some (.domain pDomain)) :
      Blocks env request params .createDomain () (.createDomain (pDomain.toDomain env.uuid))
  | makeDefaultDomain : Blocks env request params .makeDefaultDomain ()
      (.setDefaultDomain (params.getD 0 ""))
  | deleteDomain : Blocks env request params .deleteDomain () (.removeDomain (params.getD 0 ""))
  | createUser (pUser : PydanticUser) (body : request.body = some (.user pUser)) :
      Blocks env request params .createUser () (.createUser (toUser env.uuid pUser))
  | deleteUser : Blocks env request params .deleteUser () (.removeUser (params.getD 0 ""))
  | grantAdminRole (user : User) : Blocks env request params .grantAdminRole user
      (.addAdmin (params.getD 0 ""))
  | revokeAdminRole (user : User) : Blocks env request params .revokeAdminRole user
      (.removeAdmin (params.getD 0 ""))
  | createGroup (pGroup : PydanticGroup) (body : request.body = some (.group pGroup)) :
      Blocks env request params .createGroup () (.createGroup (toGroup env.uuid pGroup))
  | deleteGroup : Blocks env request params .deleteGroup () (.removeGroup (params.getD 0 ""))
  | createToken (user : User) (pToken : PydanticAdminToken)
      (body : request.body = some (.adminToken pToken)) :
      Blocks env request params .createToken user
        (.createAdminToken env.salt (toAdminToken env.uuid env.token pToken))
  | deleteByValue (user : User) : Blocks env request params .deleteByValue user
      (.removeAdminToken (params.getD 0 ""))

theorem block_cases {env : Env} {request : HttpRequest} {params : List String} {handler : Handler}
    {caller : handler.guard.Caller} {t : Transaction}
    (h : Server.block env request params handler caller = some t) :
    Blocks env request params handler caller t := by
  cases handler with
  | addRoute | removeFromCommunity | removeCommunity | makeDefaultDomain | deleteDomain
  | deleteUser | grantAdminRole | revokeAdminRole | deleteGroup | deleteByValue =>
    cases h
    constructor
  | createCommunity | createDomain | createUser | createGroup | createToken =>
    -- these five have a body to look at
    unfold Server.block at h
    dsimp only at h
    split at h
    · cases h
      constructor
      assumption
    · cases h
  | _ => cases h

section Handlers

variable {server : Server} {env : Env} {request : HttpRequest} {params : List String}

theorem readOnly_queryRoutes (server : Server) (filters : Filters) (entityId : Option String) :
    ReadOnly (server.queryRoutes filters entityId) :=
  (readOnly_ofExcept _).bind fun _ => (readOnly_ofExcept _).bind fun _ =>
    (readOnly_listLoadedRoutes _ _ _ _ _).bind fun _ => readOnly_map _ (readOnly_ofExcept _)

theorem readOnly_activeRoutes (server : Server) : ReadOnly server.activeRoutes :=
  (readOnly_listLoadedRoutes _ _ _ _ _).bind fun _ => readOnly_map _ (readOnly_ofExcept _)

/-- Creating a record: the block, and the record returned. -/
theorem after_creates {α β : Type} (codes : List (ExcClass × Nat)) (cls : ExcClass) (new : Exc)
    (block : Service Unit) (a : α) (f : α → Service β) (hf : ∀ a, ReadOnly (f a)) (db : Database) :
    Service.after (answering codes (reraise cls new block >>= fun _ => pure a) >>= f) db =
      block.after db := by
  rw [after_bind_readOnly hf, after_answering, after_bind_readOnly fun _ => readOnly_pure a,
    after_reraise]

/-- **What a handler does to the store** is what its block does. -/
theorem after_call (server : Server) (env : Env) (now : Time) (request : HttpRequest)
    (params : List String) (handler : Handler) (caller : handler.guard.Caller) (db : Database) :
    (server.call env request params handler caller).after db =
      match Server.block env request params handler caller with
      | some t => (t.run server.eng server.setup now).after db
      | none => db := by
  obtain ⟨method, path, xToken, xJwt, xTarget, session, filters, body⟩ := request
  cases handler with
  | jwt => rfl
  | jwks => rfl
  | hello => rfl
  | register => rfl
  | listCommunities =>
    exact after_readOnly ((readOnly_listLoadedCommunities _ _).bind fun _ =>
      readOnly_map _ (readOnly_ofExcept _)) db
  | getCommunity =>
    exact after_readOnly ((readOnly_getLoadedCommunity _ _ _).bind fun _ =>
      readOnly_map _ (readOnly_ofExcept _)) db
  | listRoutes => exact after_readOnly (readOnly_queryRoutes _ _ _) db
  | listActive => exact after_readOnly (readOnly_activeRoutes _) db
  | listAvailable => exact after_readOnly (readOnly_activeRoutes _) db
  | listUserRoutes => exact after_readOnly (readOnly_queryRoutes _ _ _) db
  | listDomains =>
    exact after_readOnly ((readOnly_withUOW _ (Txn.queues_get _)).bind fun _ => readOnly_pure _) db
  | listUsers =>
    exact after_readOnly ((readOnly_withUOW _ (Txn.queues_get _)).bind fun _ => readOnly_pure _) db
  | listGroups =>
    exact after_readOnly ((readOnly_withUOW _ (Txn.queues_get _)).bind fun _ => readOnly_pure _) db
  | listTokens =>
    exact after_readOnly ((readOnly_withUOW _ (Txn.queues_get _)).bind fun _ => readOnly_pure _) db
  | createCommunity =>
    cases body with
    | none => rfl
    | some body =>
      cases body with
      | community pCommunity =>
        refine (after_bind_readOnly (fun _ => ?_) db).trans ?_
        · exact readOnly_map _ (readOnly_map _ (readOnly_ofExcept _))
        · exact (after_answering _ _ db).trans (after_reraise _ _ _ db)
      | _ => rfl
  | createDomain =>
    cases body with
    | none => rfl
    | some body =>
      cases body with
      | domain pDomain => exact after_creates _ _ _ _ _ _ (fun _ => readOnly_pure _) db
      | _ => rfl
  | createUser =>
    cases body with
    | none => rfl
    | some body =>
      cases body with
      | user pUser => exact after_creates _ _ _ _ _ _ (fun _ => readOnly_pure _) db
      | _ => rfl
  | createGroup =>
    cases body with
    | none => rfl
    | some body =>
      cases body with
      | group pGroup => exact after_creates _ _ _ _ _ _ (fun _ => readOnly_pure _) db
      | _ => rfl
  | createToken =>
    cases body with
    | none => rfl
    | some body =>
      cases body with
      | adminToken pToken =>
        refine (after_map _ _ db).trans ((after_answering _ _ db).trans ?_)
        exact (after_bind_readOnly (fun _ => readOnly_pure _) db).trans (Service.after_throw _ _ db)
      | _ => rfl
  | addRoute =>
    refine (after_bind_readOnly (fun m => ?_) db).trans (after_answering _ _ db)
    cases m <;> exact readOnly_pure _
  | removeFromCommunity =>
    exact (after_bind_readOnly (fun _ => readOnly_pure _) db).trans (after_answering _ _ db)
  | removeCommunity =>
    exact (after_bind_readOnly (fun _ => readOnly_pure _) db).trans (after_reraise _ _ _ db)
  | grantAdminRole =>
    exact (after_bind_readOnly (fun _ => readOnly_pure _) db).trans (after_answering _ _ db)
  | revokeAdminRole =>
    exact (after_bind_readOnly (fun _ => readOnly_pure _) db).trans (after_answering _ _ db)
  | makeDefaultDomain =>
    exact (after_bind_readOnly (fun _ => readOnly_pure _) db).trans (after_reraise _ _ _ db)
  | deleteDomain =>
    exact (after_bind_readOnly (fun _ => readOnly_pure _) db).trans
      ((after_reraise _ _ _ db).trans (after_reraise _ _ _ db))
  | deleteUser =>
    exact (after_bind_readOnly (fun _ => readOnly_pure _) db).trans
      ((after_reraise _ _ _ db).trans (after_reraise _ _ _ db))
  | deleteGroup =>
    exact (after_bind_readOnly (fun _ => readOnly_pure _) db).trans
      ((after_reraise _ _ _ db).trans (after_reraise _ _ _ db))
  | deleteByValue =>
    exact (after_bind_readOnly (fun _ => readOnly_pure _) db).trans
      ((Service.after_throw _ _ db).trans (Service.after_throw _ _ db))

/-- A call that creates a record and returns it. -/
theorem allOrNothing_creates {α β : Type} (codes : List (ExcClass × Nat)) (cls : ExcClass)
    (new : Exc) (eng : Engine) (body : Session Unit) (a : α) (f : α → β) :
    AllOrNothing (answering codes (reraise cls new (withUOW eng body) >>= fun _ => pure a) >>=
      fun a => pure (f a)) :=
  ((((allOrNothing_withUOW eng body).rethrow _).bind_pure fun _ => a).rethrow _).bind_pure f

/-- **A handler that raises changes nothing.** -/
theorem allOrNothing_call (server : Server) (env : Env) (request : HttpRequest)
    (params : List String) (handler : Handler) (caller : handler.guard.Caller) :
    AllOrNothing (server.call env request params handler caller) := by
  obtain ⟨method, path, xToken, xJwt, xTarget, session, filters, body⟩ := request
  have hblock : ∀ {α : Type} (body : Session α), AllOrNothing (withUOW server.eng body) :=
    fun body => allOrNothing_withUOW server.eng body
  cases handler with
  | jwt => exact (readOnly_pure _).allOrNothing
  | jwks => exact (readOnly_pure _).allOrNothing
  | hello => exact (readOnly_pure _).allOrNothing
  | register => exact (readOnly_pure _).allOrNothing
  | listCommunities =>
    exact ((readOnly_listLoadedCommunities _ _).bind fun _ =>
      readOnly_map _ (readOnly_ofExcept _)).allOrNothing
  | getCommunity =>
    exact ((readOnly_getLoadedCommunity _ _ _).bind fun _ =>
      readOnly_map _ (readOnly_ofExcept _)).allOrNothing
  | listRoutes => exact (readOnly_queryRoutes _ _ _).allOrNothing
  | listActive => exact (readOnly_activeRoutes _).allOrNothing
  | listAvailable => exact (readOnly_activeRoutes _).allOrNothing
  | listUserRoutes => exact (readOnly_queryRoutes _ _ _).allOrNothing
  | listDomains => exact (hblock _).bind_pure _
  | listUsers => exact (hblock _).bind_pure _
  | listGroups => exact (hblock _).bind_pure _
  | listTokens => exact (hblock _).bind_pure _
  | createCommunity =>
    cases body with
    | none => exact (readOnly_throw _).allOrNothing
    | some body =>
      cases body with
      | community pCommunity =>
        -- nothing after the commit can fail
        exact (((hblock _).rethrow _).rethrow _).bind_pure
          fun c : Community => Reply.community (some { id := some c.id, name := c.name })
      | _ => exact (readOnly_throw _).allOrNothing
  | createDomain =>
    cases body with
    | none => exact (readOnly_throw _).allOrNothing
    | some body =>
      cases body with
      | domain pDomain => exact allOrNothing_creates _ _ _ _ _ _ _
      | _ => exact (readOnly_throw _).allOrNothing
  | createUser =>
    cases body with
    | none => exact (readOnly_throw _).allOrNothing
    | some body =>
      cases body with
      | user pUser => exact allOrNothing_creates _ _ _ _ _ _ _
      | _ => exact (readOnly_throw _).allOrNothing
  | createGroup =>
    cases body with
    | none => exact (readOnly_throw _).allOrNothing
    | some body =>
      cases body with
      | group pGroup => exact allOrNothing_creates _ _ _ _ _ _ _
      | _ => exact (readOnly_throw _).allOrNothing
  | createToken =>
    cases body with
    | none => exact (readOnly_throw _).allOrNothing
    | some body =>
      cases body with
      | adminToken pToken =>
        exact ((((hblock _).rethrow _).bind_pure _).rethrow _).bind_pure Reply.text
      | _ => exact (readOnly_throw _).allOrNothing
  | addRoute =>
    have hcall := ((hblock (addRouteToCommunityBody server.eng caller (params.getD 1 "")
      (params.getD 0 ""))).rethrow (answerWith [(.notFound, 404), (.alreadyExists, 409)])).bind_pure
        fun m => m.elim Reply.empty fun m => .membershipRequest (fromMembershipRequest m)
    intro db e db' h
    refine hcall db e db' (Eq.trans ?_ h)
    refine congrFun (congrArg (_ >>= ·) (funext fun m => ?_)) db
    cases m <;> rfl
  | removeFromCommunity => exact ((hblock _).rethrow _).bind_pure _
  | removeCommunity => exact ((hblock _).rethrow _).bind_pure _
  | grantAdminRole => exact ((hblock _).rethrow _).bind_pure _
  | revokeAdminRole => exact ((hblock _).rethrow _).bind_pure _
  | makeDefaultDomain => exact ((hblock _).rethrow _).bind_pure _
  | deleteDomain => exact (((hblock _).rethrow _).rethrow _).bind_pure _
  | deleteUser => exact (((hblock _).rethrow _).rethrow _).bind_pure _
  | deleteGroup => exact (((hblock _).rethrow _).rethrow _).bind_pure _
  | deleteByValue => exact (((hblock _).rethrow _).rethrow _).bind_pure _

end Handlers

/-! ## Registrations and rotations -/

section Queued

variable {server : Server} {env : Env} {now : Time} {request : HttpRequest} {b b' : Backend}
  {e : Exc}

theorem delay_eq_ok {publish : Task → Except Exc Unit} {task : Task} {u : Unit} :
    delay publish task b = .ok u b' ↔ publish task = .ok () ∧ b.enqueue task = b' := by
  unfold delay
  cases publish task <;> simp

theorem delay_eq_error {publish : Task → Except Exc Unit} {task : Task} :
    delay publish task b = .error e b' ↔ publish task = .error e ∧ b = b' := by
  unfold delay
  cases publish task <;> simp

theorem ofExcept_eq_ok {σ α : Type} {x : Except Exc α} {s s' : σ} {a : α} :
    Calls.ofExcept x s = (.ok a s' : EStateM.Result Exc σ α) ↔ x = .ok a ∧ s = s' := by
  cases x with
  | ok a' =>
    constructor
    · intro h
      cases h
      exact ⟨rfl, rfl⟩
    · rintro ⟨h, rfl⟩
      cases h
      rfl
  | error e => exact iff_of_false (fun h => by cases h) (fun h => by cases h.1)

theorem ofExcept_eq_error {σ α : Type} {x : Except Exc α} {s s' : σ} :
    Calls.ofExcept x s = (.error e s' : EStateM.Result Exc σ α) ↔ x = .error e ∧ s = s' := by
  cases x with
  | ok a' => exact iff_of_false (fun h => by cases h) (fun h => by cases h.1)
  | error e' =>
    constructor
    · intro h
      cases h
      exact ⟨rfl, rfl⟩
    · rintro ⟨h, rfl⟩
      cases h
      rfl

variable {user : User} {data : RegistrationRequest} {community : Option Community}

/-- A registration that is answered has been committed, its two tasks are queued, and its JWT
is signed. -/
theorem registerLocated_ok {reply : Reply}
    (h : server.registerLocated env now user data community b = .ok reply b') :
    ∃ route jwt, server.registration env now user data community b.db = .ok route b'.db ∧
      b'.queue = b.queue ++ [⟨server.updateTask route, 0⟩, ⟨.notifyRouteTableUpdate, 0⟩] ∧
      createPikoJwt route server.jwtConfig none now = .ok jwt ∧
      reply = .registration (server.response route jwt) := by
  obtain ⟨route, b₁, hstore, h⟩ := bind_eq_ok.mp h
  obtain ⟨db₁, hreg, rfl⟩ := within_eq_ok.mp hstore
  obtain ⟨_, b₂, hupdate, h⟩ := bind_eq_ok.mp h
  obtain ⟨-, rfl⟩ := delay_eq_ok.mp hupdate
  obtain ⟨_, b₃, hnotify, h⟩ := bind_eq_ok.mp h
  obtain ⟨-, rfl⟩ := delay_eq_ok.mp hnotify
  obtain ⟨jwt, b₄, hsign, h⟩ := bind_eq_ok.mp h
  obtain ⟨hjwt, rfl⟩ := ofExcept_eq_ok.mp hsign
  cases h
  exact ⟨route, jwt, hreg, by simp, hjwt, rfl⟩

/-- What a registration leaves behind that is not answered: nothing, or the committed route with
as many of its tasks as were queued. -/
theorem registerLocated_error
    (h : server.registerLocated env now user data community b = .error e b') :
    b' = b ∨ ∃ route, server.registration env now user data community b.db = .ok route b'.db ∧
      ((b'.queue = b.queue ∧ env.publish (server.updateTask route) = .error e) ∨
        (b'.queue = b.queue ++ [⟨server.updateTask route, 0⟩] ∧
          env.publish .notifyRouteTableUpdate = .error e) ∨
        (b'.queue = b.queue ++ [⟨server.updateTask route, 0⟩, ⟨.notifyRouteTableUpdate, 0⟩] ∧
          createPikoJwt route server.jwtConfig none now = .error e)) := by
  rcases bind_eq_error.mp h with hstore | ⟨route, b₁, hstore, h⟩
  · have hnothing : AllOrNothing (onStore (server.registration env now user data community)) :=
      ((allOrNothing_withUOW _ _).rethrow _).within Backend.withDb_self
    exact .inl (hnothing _ _ _ hstore)
  obtain ⟨db₁, hreg, rfl⟩ := within_eq_ok.mp hstore
  refine .inr ⟨route, ?_⟩
  rcases bind_eq_error.mp h with hupdate | ⟨_, b₂, hupdate, h⟩
  · obtain ⟨hpublish, rfl⟩ := delay_eq_error.mp hupdate
    exact ⟨hreg, .inl ⟨rfl, hpublish⟩⟩
  obtain ⟨-, rfl⟩ := delay_eq_ok.mp hupdate
  rcases bind_eq_error.mp h with hnotify | ⟨_, b₃, hnotify, h⟩
  · obtain ⟨hpublish, rfl⟩ := delay_eq_error.mp hnotify
    exact ⟨hreg, .inr (.inl ⟨rfl, hpublish⟩)⟩
  obtain ⟨-, rfl⟩ := delay_eq_ok.mp hnotify
  rcases bind_eq_error.mp h with hsign | ⟨jwt, b₄, hsign, h⟩
  · obtain ⟨hjwt, rfl⟩ := ofExcept_eq_error.mp hsign
    exact ⟨hreg, .inr (.inr ⟨by simp, hjwt⟩)⟩
  · cases h

theorem wake_eq_ok {route : Route} {u : Unit} (h : server.wake env route b = .ok u b') :
    b' = if route.status = .down then b.enqueue (server.updateTask route) else b := by
  unfold Server.wake at h
  by_cases hdown : route.status = .down
  · rw [if_pos hdown] at h ⊢
    exact (delay_eq_ok.mp h).2.symm
  · rw [if_neg hdown] at h ⊢
    cases h
    rfl

theorem wake_eq_error {route : Route} (h : server.wake env route b = .error e b') : b' = b := by
  unfold Server.wake at h
  by_cases hdown : route.status = .down
  · rw [if_pos hdown] at h
    exact (delay_eq_error.mp h).2.symm
  · rw [if_neg hdown] at h
    cases h

/-- A rotation leaves the store alone, and queues an update of a route that is down. -/
theorem rotate_ok {route : Route} {reply : Reply}
    (h : server.rotate env now route b = .ok reply b') :
    (∃ jwt, reply = .jwt jwt ∧ createPikoJwt route server.jwtConfig none now = .ok jwt) ∧
      b' = if route.status = .down then b.enqueue (server.updateTask route) else b := by
  obtain ⟨_, b₁, hwake, h⟩ := bind_eq_ok.mp h
  obtain ⟨jwt, hsign, rfl⟩ := map_eq_ok.mp h
  obtain ⟨hjwt, rfl⟩ := ofExcept_eq_ok.mp hsign
  exact ⟨⟨jwt, rfl, hjwt⟩, wake_eq_ok hwake⟩

theorem rotate_error {route : Route} (h : server.rotate env now route b = .error e b') :
    b' = b ∨ (b' = b.enqueue (server.updateTask route) ∧ route.status = .down ∧
      createPikoJwt route server.jwtConfig none now = .error e) := by
  rcases bind_eq_error.mp h with hwake | ⟨_, b₁, hwake, h⟩
  · exact .inl (wake_eq_error hwake)
  · obtain ⟨hjwt, rfl⟩ := ofExcept_eq_error.mp (map_eq_error.mp h)
    have hb := wake_eq_ok hwake
    by_cases hdown : route.status = .down
    · rw [if_pos hdown] at hb
      exact .inr ⟨hb, hdown, hjwt⟩
    · rw [if_neg hdown] at hb
      exact .inl hb

/-- What a request that is not answered may leave behind. -/
inductive LeftBehind (server : Server) (env : Env) (now : Time) (request : HttpRequest)
    (b : Backend) (e : Exc) : Backend → Prop where
  | nothing : LeftBehind server env now request b e b
  /-- A committed registration, with as many of its tasks as were queued. -/
  | registration {b' : Backend} (params : List String) (user : User) (data : RegistrationRequest)
      (community : Option Community) (route : Route)
      (admitted : server.admission env now request b.db = .ok ⟨.register, params, user⟩ b.db)
      (body : request.body = some (.registration data))
      (committed : server.registration env now user data community b.db = .ok route b'.db)
      (queued : (b'.queue = b.queue ∧ env.publish (server.updateTask route) = .error e) ∨
        (b'.queue = b.queue ++ [⟨server.updateTask route, 0⟩] ∧
          env.publish .notifyRouteTableUpdate = .error e) ∨
        (b'.queue = b.queue ++ [⟨server.updateTask route, 0⟩, ⟨.notifyRouteTableUpdate, 0⟩] ∧
          createPikoJwt route server.jwtConfig none now = .error e)) :
      LeftBehind server env now request b e b'
  /-- The task that wakes a route, whose JWT was not signed. -/
  | task (params : List String) (route : Route)
      (admitted : server.admission env now request b.db = .ok ⟨.jwt, params, route⟩ b.db)
      (down : route.status = .down)
      (unsigned : createPikoJwt route server.jwtConfig none now = .error e) :
      LeftBehind server env now request b e (b.enqueue (server.updateTask route))

/-- A handler with a call of its own changes nothing when it raises. -/
theorem handle_error {admitted : Admitted}
    (hadmitted : server.admission env now request b.db = .ok admitted b.db)
    (h : server.handle env now request admitted b = .error e b') :
    LeftBehind server env now request b e b' := by
  obtain ⟨handler, params, caller⟩ := admitted
  have hcall : onStore (server.call env request params handler caller) b = .error e b' →
      LeftBehind server env now request b e b' := by
    intro h
    have hnothing := (allOrNothing_call server env request params handler caller).within
      Backend.withDb_self
    rw [hnothing _ _ _ h]
    exact .nothing
  cases handler with
  | jwt =>
    rcases rotate_error h with rfl | ⟨rfl, hdown, hjwt⟩
    · exact .nothing
    · exact .task params caller hadmitted hdown hjwt
  | register =>
    change server.register env now request caller b = _ at h
    unfold Server.register at h
    cases hbody : request.body with
    | none =>
      rw [hbody] at h
      cases h
      exact .nothing
    | some body =>
      rw [hbody] at h
      cases body with
      | registration data =>
        have hlocate : ReadOnly (onStore (server.locate caller data)) :=
          ((readOnly_registrationCommunity _ _ _).tryCatch fun _ => readOnly_throw _).within
            Backend.withDb_self
        rcases bind_eq_error.mp h with h | ⟨community, b₁, hcommunity, h⟩
        · rw [hlocate.error h]
          exact .nothing
        · rw [hlocate.ok hcommunity] at h
          rcases registerLocated_error h with rfl | ⟨route, hcommitted, hqueued⟩
          · exact .nothing
          · exact .registration params caller data community route hadmitted hbody hcommitted
              hqueued
      | _ =>
        cases h
        exact .nothing
  | _ => exact hcall h

/-- **A request that is not answered leaves nothing behind**, but for a registration whose tasks
were not all queued or whose JWT was not signed, which has been committed; and for the task that
wakes a route whose new JWT was not signed. -/
theorem serve_error (server : Server) (env : Env) (now : Time) (request : HttpRequest)
    (b b' : Backend) (e : Exc) (h : server.serve env now request b = .error e b') :
    LeftBehind server env now request b e b' := by
  have hadmission : ReadOnly (onStore (server.admission env now request)) :=
    (readOnly_admission server env now request).within Backend.withDb_self
  rcases bind_eq_error.mp h with hrefused | ⟨admitted, b₁, hadmitted, hrest⟩
  · rw [hadmission.error hrefused]
    exact .nothing
  · rw [hadmission.ok hadmitted] at hrest
    obtain ⟨db, hcall, -⟩ := within_eq_ok.mp hadmitted
    rw [(readOnly_admission server env now request).ok hcall] at hcall
    rcases bind_eq_error.mp hrest with hhandle | ⟨reply, b₂, -, hreply⟩
    · exact handle_error hcall hhandle
    · cases hreply

end Queued

/-- Alice registers a route while the broker is away. -/
def siteRegistration : HttpRequest where
  method := .post
  path := "/api/v1/route".toList
  xToken := some "alice"
  body := some (.registration { name := "site" })

def brokerAway : Env :=
  { calmEnv with publish := fun _ => .error ⟨.lib (.other "OperationalError"), "", none⟩ }

/-- She gets an error, and the route is there. -/
theorem serve_error_site : ∃ e b', LeftBehind (smallServer []) brokerAway 0 siteRegistration
    ⟨oneRoute, []⟩ e b' ∧ b'.db.store.routeIds = ["r", "new"] ∧ b'.queue = [] := by
  have hanswer : (match (smallServer []).serve brokerAway 0 siteRegistration ⟨oneRoute, []⟩ with
      | .ok _ _ => false
      | .error _ b' => decide (b'.db.store.routeIds = ["r", "new"] ∧ b'.queue = [])) = true := by
    decide +kernel
  cases hserve : (smallServer []).serve brokerAway 0 siteRegistration ⟨oneRoute, []⟩ with
  | ok response b' =>
    rw [hserve] at hanswer
    cases hanswer
  | error e b' =>
    rw [hserve] at hanswer
    exact ⟨e, b', serve_error _ _ _ _ _ _ _ hserve, of_decide_eq_true hanswer⟩

end RouteRegistry
