import RouteRegistry.Registry.Deployment

/-!
# Who may change what

- `Guard.Checked`: what a guard has seen of whom it lets through; `check_ok` reads it off the
  authenticators, and `Guard.Checked.identified` off the configuration.
- `passages`: the record of the requests that were let through.
- `Part`: the parts of the store, with the guards of the requests that may write them.
- `changes_guarded`: a part that has changed in a run was open to a request let through before.
-/

namespace RouteRegistry

open Relational UnitOfWork Calls Runs Templates

/-! ## What a guard has seen -/

/-- The token service vouches for a user: the user is whom the JWT that it gives for the token is
about. -/
def Server.VouchesFor (server : Server) (env : Env) (xToken : String) (user : User) : Prop :=
  ∃ claims sub, askTokenService server.bearer env.tokenService xToken = .ok claims ∧
    claims.subject = .ok sub ∧ user.uid = some sub

/-- What a guard has seen, at the time and in the store it looked at. -/
def Guard.Checked (server : Server) (env : Env) (now : Time) (request : HttpRequest) (s : Store) :
    (guard : Guard) → guard.Caller → Prop
  | .nobody, _ => True
  | .routeJwt, (route : Route) =>
    ∃ xJwt claims, request.xJwt = some xJwt ∧
      decodeJwt (server.jwtConfig.jose now) xJwt = .ok claims ∧
      claims.subject = .ok route.id ∧ s.routeOf route.id = some route ∧
      route.verificationStatus = .verified
  | .adminRole role, _ =>
    ∃ xToken id plain row, request.xToken = some xToken ∧ unpackToken xToken = .ok (id, plain) ∧
      s.tokenOf id = some row ∧ server.setup.bcrypt.checkpw plain row.value = .ok true ∧
      (row.role = role ∨ row.role = .any)
  -- an empty header is none: the authenticator of the server has to know the caller
  | .tokenOrFallback, (user : User) =>
    user ∈ s.users ∧
      if Text.truthy request.xToken then
        server.VouchesFor env (Text.fieldText request.xToken) user
      else server.auth.LetsIn request s user
  | .tokenService, (user : User) =>
    user ∈ s.users ∧ ∃ xToken, request.xToken = some xToken ∧ server.VouchesFor env xToken user
  | .admin, (user : User) =>
    user ∈ s.users ∧ user.isAdmin = true ∧ server.auth.LetsIn request s user

section Checked

variable {server : Server} {env : Env} {now : Time} {request : HttpRequest} {db db' : Database}

/-- A route is let through for its JWT. -/
theorem jwtAuthenticator_claims {eng : Engine} {jose : Jose} {xJwt : String} {r : Route}
    (h : jwtAuthenticator eng jose xJwt db = .ok r db') :
    ∃ claims, decodeJwt jose xJwt = .ok claims ∧ claims.subject = .ok r.id ∧
      db.store.routeOf r.id = some r ∧ r.verificationStatus = .verified := by
  unfold jwtAuthenticator at h
  cases hdec : decodeJwt jose xJwt with
  | error e =>
    rw [hdec] at h
    cases h
  | ok claims =>
    rw [hdec] at h
    obtain ⟨Δ, hrun, -⟩ := withUOW_ok h
    rw [run_verifiedRouteBody db.valid] at hrun
    obtain ⟨sub, hsub, hr, hv⟩ := Store.verifiedRoute_eq_ok.mp (Prod.mk.inj hrun).1
    obtain rfl := (Store.routeOf_mem hr).2
    exact ⟨claims, rfl, hsub, hr, hv⟩

/-- An admin token is let through when its secret matches the stored hash. -/
theorem adminTokenAuthenticator_ok {eng : Engine} {bcrypt : Bcrypt} {xToken : String}
    {row : AdminToken} (h : adminTokenAuthenticator eng bcrypt xToken db = .ok row db') :
    ∃ id plain, unpackToken xToken = .ok (id, plain) ∧ db.store.tokenOf id = some row ∧
      bcrypt.checkpw plain row.value = .ok true := by
  obtain ⟨Δ, hrun, -⟩ := withUOW_ok h
  rw [run_authenticateBody bcrypt db.valid] at hrun
  cases hvalid : db.store.validates bcrypt xToken with
  | error e =>
    rw [hvalid] at hrun
    cases hrun
  | ok valid =>
    rw [hvalid] at hrun
    cases valid with
    | false => cases hrun
    | true =>
      unfold Store.validates at hvalid
      cases hparts : unpackToken xToken with
      | error e =>
        rw [hparts] at hvalid
        cases hvalid
      | ok parts =>
        obtain ⟨id, plain⟩ := parts
        rw [hparts] at hvalid
        dsimp only at hvalid
        cases htoken : db.store.tokenOf id with
        | none =>
          rw [htoken] at hvalid
          cases hvalid
        | some token =>
          rw [htoken] at hvalid
          dsimp only at hrun
          rw [run_getAdminToken db.valid hparts htoken] at hrun
          cases hrun
          exact ⟨id, plain, rfl, htoken, hvalid⟩

theorem requireAdminRole_ok {role : AdminRole} {adminTokenAuth : Service AdminToken} {u : Unit}
    (h : requireAdminRole role adminTokenAuth db = .ok u db') :
    ∃ row, adminTokenAuth db = .ok row db' ∧ (row.role = role ∨ row.role = .any) := by
  obtain ⟨row, db₁, hauth, hrole⟩ := bind_eq_ok.mp h
  by_cases hin : row.role ∈ [role, .any]
  · rw [if_neg (not_not.mpr hin)] at hrole
    cases hrole
    exact ⟨row, hauth, by simpa using hin⟩
  · rw [if_pos hin] at hrole
    cases hrole

theorem requireHeader_eq_ok {header : Option String} {value : String}
    (h : requireHeader header = .ok value) : header = some value := by
  cases header with
  | none => cases h
  | some value' =>
    cases h
    rfl

/-- **A guard lets through what it has seen.** -/
theorem check_ok {guard : Guard} {caller : guard.Caller}
    (h : server.check env now request guard db = .ok caller db') :
    guard.Checked server env now request db.store caller := by
  cases guard with
  | nobody => trivial
  | routeJwt =>
    obtain ⟨xJwt, db₁, hheader, hcall⟩ := bind_eq_ok.mp h
    obtain ⟨hx, rfl⟩ := ofExcept_eq_ok.mp hheader
    obtain ⟨claims, hdec, hsub, hr, hv⟩ := jwtAuthenticator_claims hcall
    exact ⟨xJwt, claims, requireHeader_eq_ok hx, hdec, hsub, hr, hv⟩
  | adminRole role =>
    obtain ⟨xToken, db₁, hheader, hcall⟩ := bind_eq_ok.mp h
    obtain ⟨hx, rfl⟩ := ofExcept_eq_ok.mp hheader
    obtain ⟨row, hauth, hrole⟩ := requireAdminRole_ok hcall
    obtain ⟨id, plain, hparts, hrow, hmatch⟩ := adminTokenAuthenticator_ok hauth
    exact ⟨xToken, id, plain, row, requireHeader_eq_ok hx, hparts, hrow, hmatch, hrole⟩
  | tokenOrFallback =>
    change RouteRegistry.tokenOrFallback _ _ _ db = _ at h
    unfold RouteRegistry.tokenOrFallback at h
    change caller ∈ db.store.users ∧ ite _ _ _
    cases htoken : Text.truthy request.xToken with
    | true =>
      rw [htoken] at h
      exact tokenServiceAuthenticator_ok h
    | false =>
      rw [htoken] at h
      exact ⟨server.auth.stored request db caller db' h, server.auth.letsIn_of_ok h⟩
  | tokenService =>
    obtain ⟨xToken, db₁, hheader, hcall⟩ := bind_eq_ok.mp h
    obtain ⟨hx, rfl⟩ := ofExcept_eq_ok.mp hheader
    obtain ⟨hmem, claims, sub, hask, hsub, huid⟩ := tokenServiceAuthenticator_ok hcall
    exact ⟨hmem, xToken, requireHeader_eq_ok hx, claims, sub, hask, hsub, huid⟩
  | admin =>
    obtain ⟨hauth, hadmin, -⟩ := requireAdmin_ok (server.auth.readOnly request) h
    exact ⟨server.auth.stored request db caller db hauth, hadmin, server.auth.letsIn_of_ok hauth⟩

/-- Behind the fallback of a server with an authenticator of the factory, the caller is whom the
token service vouches for, or whom the configuration identifies. -/
theorem Guard.Checked.identified {config : AuthConfig} {username : String} {s : Store} {user : User}
    (hmade : makeAuthenticator server.eng config username = .ok server.auth)
    (h : Guard.tokenOrFallback.Checked server env now request s user) :
    (∃ xToken, request.xToken = some xToken ∧ server.VouchesFor env xToken user) ∨
      config.Identifies username request user := by
  obtain ⟨-, hcredential⟩ := h
  cases htoken : request.xToken with
  | none =>
    rw [htoken] at hcredential
    exact .inr (makeAuthenticator_identifies hmade hcredential)
  | some xToken =>
    rw [htoken] at hcredential
    split at hcredential
    · exact .inl ⟨xToken, rfl, hcredential⟩
    · exact .inr (makeAuthenticator_identifies hmade hcredential)

theorem admission_ok {a : Admitted} (h : server.admission env now request db = .ok a db') :
    a.handler.guard.Checked server env now request db.store a.caller := by
  unfold Server.admission at h
  cases hres : resolve (makeApp server.apiVersion) request.method request.path with
  | found handler params =>
    rw [hres] at h
    obtain ⟨caller, db₁, hcheck, hret⟩ := bind_eq_ok.mp h
    cases hret
    exact check_ok hcheck
  | methodNotAllowed | redirect | notFound =>
    rw [hres] at h
    cases h

end Checked

/-! ## The requests that were let through -/

/-- A request that was let through, and what it was let through in. -/
structure Passage where
  now : Time
  store : Store
  env : Env
  request : HttpRequest
  admitted : Admitted

def Passage.Checked (server : Server) (p : Passage) : Prop :=
  p.admitted.handler.guard.Checked server p.env p.now p.request p.store
    p.admitted.caller

/-- What an activity adds to the record of the requests that were let through. -/
def passages (server : Server) (d : Deployment) : Activity → List Passage
  | .advance i =>
    match d.calls[i]? with
    | some ⟨env, request, .arrived⟩ =>
      match server.admission env d.sys.clock request d.sys.db with
      | .ok admitted _ => [⟨d.sys.clock, d.sys.db.store, env, request, admitted⟩]
      | .error _ _ => []
    | _ => []
  | _ => []

/-- When a request was let through, and as what. -/
def CallStage.passed : CallStage → Option (Time × Admitted)
  | .admitted since a => some (since, a)
  | .located since params user _ _ => some (since, ⟨.register, params, user⟩)
  | .answered since a _ _ => some (since, a)
  | .arrived | .refused _ => none

/-- The requests in flight that are past their guards are on record. -/
def Deployment.Vouched (log : List Passage) (d : Deployment) : Prop :=
  ∀ call ∈ d.calls, ∀ since a, call.stage.passed = some (since, a) →
    ∃ s, ⟨since, s, call.env, call.request, a⟩ ∈ log

section Vouched

variable {server : Server} {table : TaskTable} {d d' : Deployment} {log : List Passage}

theorem mem_passages {p : Passage} {e : Activity} (h : p ∈ passages server d e) :
    p.Checked server := by
  unfold passages at h
  split at h
  · split at h
    · split at h
      · rename_i hadmission
        rw [List.mem_singleton] at h
        subst h
        exact admission_ok hadmission
      · cases h
    · cases h
  · cases h

/-- The next step of a request is to get past its guard, or leaves what it passed as. -/
theorem Proceeds.passed {now : Time} {b b' : Backend} {call : InFlight} {stage : CallStage}
    (h : Proceeds server now b call b' stage) :
    stage.passed = call.stage.passed ∨ ∃ a, call.stage = .arrived ∧ stage = .admitted now a ∧
      server.admission call.env now call.request b.db = .ok a b.db := by
  cases h with
  | admitted hstage hguard => exact .inr ⟨_, hstage, rfl, hguard⟩
  | refused hstage | located hstage | unlocated hstage | registered hstage | unregistered hstage
  | rotated hstage | called hstage => exact .inl (by rw [hstage]; rfl)

/-- A request in flight after an activity was so before, has just arrived, or has moved on. -/
theorem act_calls {e : Activity} (h : act server table d e = some d') {call : InFlight}
    (hcall : call ∈ d'.calls) :
    call ∈ d.calls ∨ call.stage = .arrived ∨
      ∃ i before b, e = .advance i ∧ d.calls[i]? = some before ∧
        Proceeds server d.sys.clock d.backend before b call.stage ∧ d'.sys.db = b.db ∧
        call = { before with stage := call.stage } := by
  cases e with
  | background ev =>
    obtain ⟨-, sys, -, rfl⟩ := act_background h
    exact .inl hcall
  | seedUser user =>
    cases h
    exact .inl hcall
  | seedFlag uid isAdmin =>
    cases h
    exact .inl hcall
  | arrive env request =>
    cases h
    rcases List.mem_append.mp hcall with hcall | hcall
    · exact .inl hcall
    · rw [List.mem_singleton] at hcall
      subst hcall
      exact .inr (.inl rfl)
  | advance i =>
    obtain ⟨before, b, stage, hbefore, hproceeds, rfl⟩ := act_advance h
    rcases List.mem_or_eq_of_mem_set hcall with hcall | rfl
    · exact .inl hcall
    · exact .inr (.inr ⟨i, before, b, rfl, hbefore, hproceeds, rfl, rfl⟩)
  | attempt i fetch =>
    obtain ⟨b, -, rfl⟩ := Option.map_eq_some_iff.mp h
    exact .inl hcall
  | lose i =>
    obtain ⟨b, -, rfl⟩ := Option.map_eq_some_iff.mp h
    exact .inl hcall

/-- **One activity** keeps the record complete. -/
theorem act_vouched {e : Activity} (h : act server table d e = some d') (hlog : d.Vouched log) :
    d'.Vouched (log ++ passages server d e) := by
  intro call hcall since a hpassed
  rcases act_calls h hcall with
    hold | harrived | ⟨i, before, b, rfl, hbefore, hproceeds, -, hsame⟩
  · obtain ⟨s, hs⟩ := hlog call hold since a hpassed
    exact ⟨s, List.mem_append_left _ hs⟩
  · rw [harrived] at hpassed
    cases hpassed
  · have henv : call.env = before.env := by rw [hsame]
    have hrequest : call.request = before.request := by rw [hsame]
    rw [henv, hrequest]
    rcases hproceeds.passed with hkeep | ⟨a', harrived, hstage, hguard⟩
    · rw [hkeep] at hpassed
      obtain ⟨s, hs⟩ := hlog before (List.mem_of_getElem? hbefore) since a hpassed
      exact ⟨s, List.mem_append_left _ hs⟩
    · rw [hstage] at hpassed
      cases hpassed
      refine ⟨d.sys.db.store, List.mem_append_right _ ?_⟩
      obtain ⟨env, request, stage⟩ := before
      obtain rfl : stage = .arrived := harrived
      have hadmission : server.admission env d.sys.clock request d.sys.db = .ok a d.sys.db := hguard
      simp only [passages, hbefore, hadmission, List.mem_singleton]

/-- **A run** that starts without requests in flight has a complete record. -/
theorem run_vouched {es : List Activity} (hcalls : d.calls = [])
    (hrun : run (act server table) d es = some d') :
    d'.Vouched (record (act server table) (passages server) d es) := by
  have hstart : d.Vouched [] := by
    intro call hcall
    rw [hcalls] at hcall
    cases hcall
  have hkeep : ∀ (log : List Passage) (d₁ : Deployment) (e : Activity) (d₂ : Deployment),
      d₁.Vouched log → True → act server table d₁ e = some d₂ →
      d₂.Vouched (log ++ passages server d₁ e) :=
    fun log d₁ e d₂ h _ hact => act_vouched hact h
  exact run_records (I := fun log d₁ => d₁.Vouched log) hkeep (along_of_forall fun _ _ => trivial)
    hrun hstart

/-- What was let through was let through in a state of the run. -/
theorem passage_store {es : List Activity} {p : Passage}
    (hp : p ∈ record (act server table) (passages server) d es) :
    p.Checked server ∧ ∃ es₁ es₂ d₁, es = es₁ ++ es₂ ∧ run (act server table) d es₁ = some d₁ ∧
      p.store = d₁.sys.db.store := by
  obtain ⟨es₁, e, es₂, d₁, hsplit, hrun, hp⟩ := mem_record hp
  refine ⟨mem_passages hp, es₁, e :: es₂, d₁, hsplit, hrun, ?_⟩
  unfold passages at hp
  split at hp
  · split at hp
    · split at hp
      · rw [List.mem_singleton.mp hp]
      · cases hp
    · cases hp
  · cases hp

end Vouched

/-! ## The parts of the store -/

inductive Part where
  | domains
  /-- Users and groups, with the flags of the administrators. -/
  | identities
  | adminTokens
  | communities
  | requests
  /-- Which routes there are, with their names, URLs, tokens and domains. -/
  | routes
  | owners
  /-- Which community a route is in. -/
  | memberships
  /-- Which routes are verified. -/
  | verified
  | rules
deriving DecidableEq, Repr

/-- The guards of the requests that may write a part. -/
def Part.guards : Part → List Guard
  | domains => [.adminRole .domain]
  | identities => [.adminRole .identity]
  | adminTokens => [.admin]
  | communities | requests => [.tokenOrFallback]
  | routes | verified => [.tokenService]
  | owners => [.tokenService, .adminRole .identity]
  | memberships => [.tokenOrFallback, .tokenService]
  | rules => []

/-- What no request has a hand in: users are seeded, and updates write the rules. -/
def Activity.parts : Activity → List Part
  | .seedUser _ | .seedFlag _ _ => [.identities]
  | .attempt _ _ | .background _ => [.rules]
  | .arrive _ _ | .advance _ | .lose _ => []

/-- The part is as it was. Of the verified routes, none is there that was not: passes unverify
routes, and no request has a hand in it. -/
def Part.Same (s s' : Store) : Part → Prop
  | domains => s'.domains = s.domains
  | identities => s'.users = s.users ∧ s'.groups = s.groups
  | adminTokens => s'.adminTokens = s.adminTokens
  | communities => s'.communities = s.communities
  | requests => s'.requests = s.requests
  | routes => s'.routes.map (fun r => (r.id, r.name, r.src, r.dst, r.token, r.domainId)) =
      s.routes.map fun r => (r.id, r.name, r.src, r.dst, r.token, r.domainId)
  | owners => s'.ownerships = s.ownerships
  | memberships => s'.routes.map (fun r => (r.id, r.communityId)) =
      s.routes.map fun r => (r.id, r.communityId)
  | verified => ∀ r' ∈ s'.routes, r'.verificationStatus = .verified →
      ∃ r ∈ s.routes, r.id = r'.id ∧ r.verificationStatus = .verified
  | rules => s'.rules = s.rules

/-- The parts a change writes. -/
def Change.parts : Change → List Part
  | .addUser _ | .addGroup _ | .setUserAdmin _ _ => [.identities]
  | .deleteEntity _ => [.identities, .owners]
  | .addDomain _ | .setDomainDefault _ _ | .deleteDomain _ => [.domains]
  | .addCommunity _ => [.communities]
  | .deleteCommunity _ => [.communities, .memberships]
  | .addRoute _ => [.routes, .memberships, .verified]
  | .addOwnership _ => [.owners]
  | .addRule _ | .deleteRules _ => [.rules]
  | .addRequest _ => [.requests]
  | .addAdminToken _ | .deleteAdminToken _ => [.adminTokens]
  | .setRoute _ (.verificationStatus .verified) => [.verified]
  | .setRoute _ (.community _) => [.memberships]
  | .setRoute _ _ => []

section Parts

variable {part : Part} {s s₁ s' : Store} {c : Change}

theorem Part.same_refl (part : Part) (s : Store) : part.Same s s := by
  cases part with
  | identities => exact ⟨rfl, rfl⟩
  | verified => exact fun r hr hv => ⟨r, hr, rfl, hv⟩
  | _ => rfl

theorem Part.Same.trans (h : part.Same s s₁) (h' : part.Same s₁ s') : part.Same s s' := by
  cases part with
  | identities => exact ⟨h'.1.trans h.1, h'.2.trans h.2⟩
  | verified =>
    intro r' hr' hv'
    obtain ⟨r₁, hr₁, hid₁, hv₁⟩ := h' r' hr' hv'
    obtain ⟨r, hr, hid, hv⟩ := h r₁ hr₁ hv₁
    exact ⟨r, hr, hid.trans hid₁, hv⟩
  | _ => exact Eq.trans h' h

/-- Attributes of routes that are of no part. -/
theorem Part.same_modify {κ : Type} [DecidableEq κ] {key : Route → κ} {k : κ} {a : RouteAttr}
    (hverified : part = .verified → a ≠ .verificationStatus .verified)
    (hcommunity : part = .memberships → ∀ c, a ≠ .community c) :
    part.Same s { s with routes := modify key k a.set s.routes } := by
  cases part with
  | routes => exact map_modify key k (fun r => by cases a <;> rfl) s.routes
  | memberships =>
    refine map_modify key k (fun r => ?_) s.routes
    cases a with
    | community c => exact absurd rfl (hcommunity rfl c)
    | _ => rfl
  | verified =>
    intro r' hr' hv'
    rcases mem_modify.mp hr' with ⟨hr, -⟩ | ⟨r, hr, -, rfl⟩
    · exact ⟨r', hr, rfl, hv'⟩
    · refine ⟨r, hr, (a.set_id r).symm, ?_⟩
      cases a with
      | verificationStatus v =>
        obtain rfl : v = .verified := hv'
        exact absurd rfl (hverified rfl)
      | _ => exact hv'
  | identities => exact ⟨rfl, rfl⟩
  | _ => rfl

/-- **A change writes its parts only.** -/
theorem Change.effect_same (h : part ∉ c.parts) : part.Same s (c.effect s) := by
  have hrefl := part.same_refl s
  cases c with
  | setRoute id a =>
    refine Part.same_modify (fun hpart ha => h ?_) fun hpart community ha => h ?_
    · subst hpart ha
      exact List.mem_singleton_self _
    · subst hpart ha
      exact List.mem_singleton_self _
  | deleteCommunity id =>
    have hroutes : part.Same s { s with
        routes := modify Route.communityId (some id) (RouteAttr.community none).set s.routes } :=
      Part.same_modify (fun _ ha => by cases ha)
        fun hpart _ _ => h (hpart ▸ List.mem_cons_of_mem _ (List.mem_singleton_self _))
    cases part with
    | communities => exact absurd List.mem_cons_self h
    | _ => exact hroutes
  -- the other changes leave the tables of all parts but their own
  | _ => cases part <;> first | exact hrefl | simp [Change.parts] at h

/-- So does a block. -/
theorem Transaction.after_same {eng : Engine} {setup : Setup} {now : Time} {t : Transaction}
    (h : ∀ c, t.mayQueue now c → part ∉ c.parts) (db : Database) :
    part.Same db.store ((t.run eng setup now).after db).store := by
  rcases t.after_cases eng setup now db with hsame | ⟨Δ, hf, hmay⟩
  · rw [hsame]
    exact part.same_refl _
  · refine flush_keeps (I := part.Same db.store) (fun s hs c hc => ?_) hf (part.same_refl _)
    exact hs.trans (Change.effect_same (h c (hmay c hc)))

/-- Updates write the rules, and nothing else of these parts. -/
theorem updateRoute_parts {now : Time} {id : String} {fetch : Fetch}
    (h : (Transaction.updateRoute id fetch).mayQueue now c) (hpart : part ∈ c.parts) :
    part = .rules := by
  rcases h with ⟨_, rfl⟩ | ⟨_, rfl⟩ | ⟨_, a, rfl, ⟨_, rfl⟩ | rfl⟩
  · exact List.mem_singleton.mp hpart
  · exact List.mem_singleton.mp hpart
  · cases hpart
  · cases hpart

theorem unverifyRoute_parts {now : Time} {id : String}
    (h : (Transaction.unverifyRoute id).mayQueue now c) : part ∉ c.parts := by
  rcases h with ⟨_, a, rfl, rfl | rfl⟩ <;> exact List.not_mem_nil

theorem registerRoute_parts {now : Time} {reg : Registration} {draws : Draws}
    (h : (Transaction.registerRoute reg draws).mayQueue now c) (hpart : part ∈ c.parts) :
    .tokenService ∈ part.guards := by
  have hall : ∀ part ∈ [Part.routes, .memberships, .verified, .owners],
      Guard.tokenService ∈ part.guards := by decide
  refine hall part ?_
  rcases h with ⟨_, rfl⟩ | ⟨_, rfl⟩ | ⟨_, a, rfl, ⟨_, rfl⟩ | rfl | rfl⟩
  · rcases hpart with _ | ⟨_, _ | ⟨_, _ | ⟨_, hpart⟩⟩⟩
    · decide
    · decide
    · decide
    · cases hpart
  · obtain rfl := List.mem_singleton.mp hpart
    decide
  · obtain rfl := List.mem_singleton.mp hpart
    decide
  · cases hpart
  · obtain rfl := List.mem_singleton.mp hpart
    decide

/-- **What the block of a handler may write is behind the guard of the handler.** -/
theorem Blocks.guard {env : Env} {request : HttpRequest} {params : List String}
    {handler : Handler} {caller : handler.guard.Caller} {t : Transaction} {now : Time}
    (h : Blocks env request params handler caller t) (hmay : t.mayQueue now c)
    (hpart : part ∈ c.parts) : handler.guard ∈ part.guards := by
  have hone : ∀ {p : Part}, part ∈ [p] → handler.guard ∈ p.guards →
      handler.guard ∈ part.guards := by
    intro p hin hguard
    rw [List.mem_singleton.mp hin]
    exact hguard
  cases h with
  | createCommunity | removeFromCommunity | deleteDomain | createToken | deleteByValue =>
    obtain ⟨_, rfl⟩ := hmay
    exact hone hpart (by decide)
  | createDomain | createUser | createGroup =>
    obtain rfl := hmay
    exact hone hpart (by decide)
  | addRoute =>
    rcases hmay with ⟨_, rfl⟩ | ⟨_, _, rfl⟩ <;> exact hone hpart (by decide)
  | makeDefaultDomain =>
    obtain ⟨_, _, rfl⟩ := hmay
    exact hone hpart (by decide)
  | removeCommunity | deleteUser | deleteGroup =>
    obtain ⟨_, rfl⟩ := hmay
    rcases List.mem_cons.mp hpart with rfl | hpart
    · decide
    · exact hone hpart (by decide)
  | grantAdminRole | revokeAdminRole => cases hmay

end Parts

/-! ## Runs -/

section Runs

variable {server : Server} {table : TaskTable} {part : Part}

/-- A request writes what is behind the guard it has passed. -/
theorem InFlight.Runs.guard {now : Time} {call : InFlight} {t : Transaction} {c : Change}
    (h : call.Runs server now t) (hmay : t.mayQueue now c) (hpart : part ∈ c.parts) :
    ∃ since a, call.stage.passed = some (since, a) ∧ a.handler.guard ∈ part.guards := by
  cases h with
  | @block since a t hstage hblock =>
    exact ⟨since, a, by rw [hstage]; rfl, (block_cases hblock).guard hmay hpart⟩
  | @registration since params user data community hstage =>
    exact ⟨since, ⟨.register, params, user⟩, by rw [hstage]; rfl, registerRoute_parts hmay hpart⟩

/-- **One activity** leaves a part alone, unless it may write it by itself or a request in flight
has passed a guard of the part. -/
theorem act_same {d d' : Deployment} {e : Activity} (h : act server table d e = some d')
    (hquiet : part ∉ e.parts) :
    part.Same d.sys.db.store d'.sys.db.store ∨
      ∃ call ∈ d.calls, ∃ since a, call.stage.passed = some (since, a) ∧
        a.handler.guard ∈ part.guards := by
  rcases act_simulates h with hsame | ⟨ev, hdoes, hstep⟩
  · rw [hsame]
    exact .inl (part.same_refl _)
  cases hdoes with
  | background hnot =>
    refine .inl ?_
    rcases step_db hstep with hsame | ⟨t, hdb, rfl | ⟨id, fetch, rfl⟩ | ⟨id, rfl⟩⟩
    · rw [hsame]
      exact part.same_refl _
    · exact absurd rfl (hnot t)
    · rw [hdb]
      refine Transaction.after_same (fun c hmay hpart => hquiet ?_) _
      rw [updateRoute_parts hmay hpart]
      exact List.mem_singleton_self _
    · rw [hdb]
      exact Transaction.after_same (fun c hmay => unverifyRoute_parts hmay) _
  | @block _ t hruns =>
    rw [← Option.some.inj hstep]
    cases hruns with
    | @request i call t hcall hruns =>
      by_cases hopen : ∃ since a, call.stage.passed = some (since, a) ∧
          a.handler.guard ∈ part.guards
      · exact .inr ⟨call, List.mem_of_getElem? hcall, hopen⟩
      · exact .inl (Transaction.after_same (fun c hmay hpart => hopen (hruns.guard hmay hpart)) _)
    | task =>
      refine .inl (Transaction.after_same (fun c hmay hpart => hquiet ?_) _)
      rw [updateRoute_parts hmay hpart]
      exact List.mem_singleton_self _
    | seedUser =>
      refine .inl (Transaction.after_same (fun c hmay hpart => hquiet ?_) _)
      obtain rfl : c = _ := hmay
      exact hpart
    | seedFlag =>
      refine .inl (Transaction.after_same (fun c hmay hpart => hquiet ?_) _)
      obtain ⟨_, rfl⟩ := hmay
      exact hpart

/-- The record is complete, and opens the part before it changes. -/
structure Deployment.Mediated (server : Server) (part : Part) (s : Store) (log : List Passage)
    (d : Deployment) : Prop where
  vouched : d.Vouched log
  checked : ∀ p ∈ log, p.Checked server
  guarded : part.Same s d.sys.db.store ∨ ∃ p ∈ log, p.admitted.handler.guard ∈ part.guards

theorem act_mediated {s : Store} {log : List Passage} {d d' : Deployment} {e : Activity}
    (hlog : d.Mediated server part s log) (hquiet : part ∉ e.parts)
    (hact : act server table d e = some d') :
    d'.Mediated server part s (log ++ passages server d e) := by
  refine ⟨act_vouched hact hlog.vouched, fun p hp => ?_, ?_⟩
  · rcases List.mem_append.mp hp with hp | hp
    · exact hlog.checked p hp
    · exact mem_passages hp
  · rcases hlog.guarded with hsame | ⟨p, hp, hguard⟩
    · rcases act_same hact hquiet with hstep | ⟨call, hcall, since, a, hpassed, hguard⟩
      · exact .inl (hsame.trans hstep)
      · obtain ⟨s, hs⟩ := hlog.vouched call hcall since a hpassed
        exact .inr ⟨_, List.mem_append_left _ hs, hguard⟩
    · exact .inr ⟨p, List.mem_append_left _ hp, hguard⟩

/-- **A run** of a deployment that starts without requests in flight. -/
theorem run_mediated {d d' : Deployment} {es : List Activity} (hcalls : d.calls = [])
    (hrun : run (act server table) d es = some d') (hquiet : ∀ e ∈ es, part ∉ e.parts) :
    d'.Mediated server part d.sys.db.store (record (act server table) (passages server) d es) := by
  have hstart : d.Mediated server part d.sys.db.store [] := by
    refine ⟨fun call hcall => ?_, fun p hp => (by cases hp), .inl (part.same_refl _)⟩
    rw [hcalls] at hcall
    cases hcall
  have hkeep : ∀ (log : List Passage) (d₁ : Deployment) (e : Activity) (d₂ : Deployment),
      d₁.Mediated server part d.sys.db.store log → part ∉ e.parts →
      act server table d₁ e = some d₂ →
      d₂.Mediated server part d.sys.db.store (log ++ passages server d₁ e) :=
    fun log d₁ e d₂ hlog hquiet hact => act_mediated hlog hquiet hact
  exact run_records (I := fun log d₁ => d₁.Mediated server part d.sys.db.store log) hkeep
    (along_of_forall hquiet) hrun hstart

end Runs

def labDomain : HttpRequest where
  method := .post
  path := "/api/latest/admin/domain".toList
  xToken := some "id-1.secret"
  body := some (.domain { name := "lab", value := "lab.example.com" })

end RouteRegistry
