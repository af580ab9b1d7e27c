import RouteRegistry.Formats.Queries
import RouteRegistry.Registry.Api

/-!
# Logging in (`AuthLibOIDCAuthenticator`)

A request without a user in the session is sent to `/auth/login` with its target behind
`next=`, the login endpoint keeps what it reads of that in the session, and the callback
redirects to it. The target is put into the query as it is, is decoded there and once more by
the endpoint, and is quoted by the redirect; and without an `X-Target` it is the template of the
path that stands for the path. `login_returns_iff` says which requests come back.
-/

namespace RouteRegistry

open UnitOfWork Url Urllib Percent

inductive Method where
  | get
  | post
  | put
  | delete
deriving DecidableEq, Repr

/-- The endpoints behind the authenticator, as their routers declare them. -/
def endpoints : List (Method × List Char) :=
  [(.get, "/community"), (.get, "/community/{id_or_name}"), (.post, "/community"),
    (.put, "/community/{community_id}/route/{route_id}"),
    (.delete, "/community/{community_id}/route/{route_id}"),
    (.delete, "/community/{id_or_name}"), (.get, "/route"), (.get, "/route/hello-world"),
    (.put, "/admin/users/{user_uid}/admin"), (.delete, "/admin/users/{user_uid}/admin"),
    (.post, "/admin/token"), (.get, "/admin/token"),
    (.delete, "/admin/token/{admin_token_value}")].map fun e => (e.1, e.2.toList)

theorem endpoints_plain : ∀ e ∈ endpoints, PlainPath e.2 := by decide

/-- A request to an endpoint behind the authenticator: what it reads of it, and the path. -/
structure ProtectedRequest where
  endpoint : Method × List Char
  /-- `API_VERSION`, or a version of the endpoint. -/
  version : List Char
  path : List Char
  /-- `headers.get("X-Target", "")`. -/
  xTarget : List Char := []
  behind : endpoint ∈ endpoints
  plain : PlainPath version
  rooted : path.head? = some '/'

/-- `scope["route"].path`. -/
def ProtectedRequest.template (request : ProtectedRequest) : List Char :=
  "/api/".toList ++ request.version ++ request.endpoint.2

/-- What the authenticator keeps in `request.session`. -/
structure WebSession where
  user : Option Claims := none
  next : Option (List Char) := none

/-- A dictionary is true when it is not empty. -/
def Claims.truthy (claims : Claims) : Bool := claims.sub.isSome || !claims.others.isEmpty

def WebSession.loggedIn (session : WebSession) : Bool := session.user.any Claims.truthy

/-- A request is redirected, or has a user. -/
inductive Admission where
  | redirect (location : List Char)
  | user (user : User)

/-! ## The authenticator and its router -/

def nextUrl (url : List Char) (request : ProtectedRequest) : List Char :=
  if request.xTarget = [] then url ++ request.template else request.xTarget

/-- The prefix of the router and the path of the endpoint. -/
def loginPath : List Char := "/auth/login".toList

def loginLocation (url : List Char) (request : ProtectedRequest) : List Char :=
  url ++ "/auth/login?next=".toList ++ nextUrl url request

def sessionUserBody (claims : Claims) : Session User := do
  EntityRepo.getUser (← Txn.ofExcept claims.subject)

/-- `AuthLibOIDCAuthenticator.__call__`. -/
def authLibOIDCAuthenticator (eng : Engine) (url : List Char) (session : WebSession)
    (request : ProtectedRequest) : Service Admission := do
  match session.user.filter Claims.truthy with
  | none => return .redirect (loginLocation url request)
  | some claims =>
    tryCatch (Admission.user <$> withUOW eng (sessionUserBody claims)) fun e =>
      if e.isInstance .repoNotFound then throw (httpException 401 "Unauthorized") else throw e

/-- `GET /auth/login`, up to the redirect to the provider. -/
def login (session : WebSession) (query : List Char) : WebSession :=
  { session with next := some (unquote ((queryParam "next".toList query).getD ['/'])) }

/-- What Starlette does not quote in a location. -/
def locationSafe : List Char := ":/%#?=@[]!$&'()*+,;".toList

/-- `RedirectResponse`: the location of the redirect. -/
def redirectResponse (url : List Char) : List Char := quote locationSafe url

/-- `GET /auth/callback`, once the token has been fetched. -/
def authCallback (session : WebSession) (userInfo : Claims) : WebSession × List Char :=
  (⟨some userInfo, none⟩, redirectResponse (session.next.getD ['/']))

/-! ## Following the redirect -/

/-- The query with which a browser reaches the login endpoint, if it does. A `307` is followed
with the method of the request, and without the fragment of the location. -/
def followed (url : List Char) (method : Method) (location : List Char) : Option (List Char) :=
  let (target, _) := splitFirst '#' location
  let (path, query) := splitFirst '?' target
  if method = .get ∧ path = url ++ loginPath then some (query.getD []) else none

/-- The request is redirected, the login endpoint is reached, and the callback redirects to the
target. -/
def ReturnsTo (eng : Engine) (url : List Char) (session : WebSession) (request : ProtectedRequest)
    (target : List Char) : Prop :=
  ∀ (db : Database) (userInfo : Claims), ∃ location query,
    authLibOIDCAuthenticator eng url session request db = .ok (.redirect location) db ∧
      followed url request.endpoint.1 location = some query ∧
      (authCallback (login session query) userInfo).2 = target

/-- Where the user started. -/
def ProtectedRequest.start (url : List Char) (request : ProtectedRequest) : List Char :=
  if request.xTarget = [] then url ++ request.path else request.xTarget

/-- The method is the one of the login endpoint, the configured URL leads to the endpoint, and
what is put into the query is quoted already. -/
structure Returnable (url : List Char) (request : ProtectedRequest) : Prop where
  method : request.endpoint.1 = .get
  base : '?' ∉ url ∧ '#' ∉ url
  target : request.xTarget ≠ [] → Quoted locationSafe request.xTarget
  path : request.xTarget = [] →
    Quoted locationSafe url ∧ request.path = quote locationSafe request.template

section Login

variable {eng : Engine} {url target location query : List Char} {session : WebSession}
  {request : ProtectedRequest} {method : Method}

theorem loginLocation_eq (url : List Char) (request : ProtectedRequest) :
    loginLocation url request =
      (url ++ loginPath) ++ '?' :: ("next".toList ++ '=' :: nextUrl url request) := by
  have htext : "/auth/login?next=".toList = loginPath ++ '?' :: ("next".toList ++ ['=']) := by decide
  unfold loginLocation
  rw [htext]
  simp only [List.append_assoc, List.cons_append, List.nil_append]

/-- Without a user a request is redirected. -/
theorem authLibOIDCAuthenticator_redirects (h : session.loggedIn = false) (db : Database) :
    authLibOIDCAuthenticator eng url session request db =
      .ok (.redirect (loginLocation url request)) db := by
  have hnone : session.user.filter Claims.truthy = none := by
    unfold WebSession.loggedIn at h
    cases huser : session.user with
    | none => rfl
    | some claims =>
      rw [huser] at h
      exact Option.filter_eq_none_iff.mpr fun c hc => by
        cases hc
        simpa using h
  unfold authLibOIDCAuthenticator
  rw [hnone]
  rfl

/-- Only a base without delimiters leads to the login endpoint. -/
theorem followed_eq_some (h : followed url method location = some query) :
    method = .get ∧ '?' ∉ url ∧ '#' ∉ url := by
  unfold followed at h
  obtain ⟨htarget, hhash⟩ := splitFirst_spec '#' location
  obtain ⟨hpath, hquestion⟩ := splitFirst_spec '?' (splitFirst '#' location).1
  simp only at h
  split at h
  · rename_i hcond
    obtain ⟨hmethod, hurl⟩ := hcond
    rw [hpath] at hhash
    rw [hurl] at hquestion hhash
    exact ⟨hmethod, fun hmem => hquestion (List.mem_append_left _ hmem),
      fun hmem => hhash (List.mem_append_left _ (List.mem_append_left _ hmem))⟩
  · cases h

/-- The fragment of the target does not reach the endpoint. -/
theorem followed_loginLocation (hquestion : '?' ∉ url) (hhash : '#' ∉ url) :
    followed url .get (loginLocation url request) =
      some ("next".toList ++ '=' :: (splitFirst '#' (nextUrl url request)).1) := by
  have hpath : '?' ∉ url ++ loginPath := by
    rw [List.mem_append]
    exact not_or.mpr ⟨hquestion, by decide⟩
  have hfront : '#' ∉ (url ++ loginPath) ++ '?' :: ("next".toList ++ ['=']) := by
    rw [List.mem_append, List.mem_append]
    exact not_or.mpr ⟨not_or.mpr ⟨hhash, by decide⟩, by decide⟩
  have hcut := splitFirst_append hfront (nextUrl url request)
  simp only [List.append_assoc, List.cons_append, List.nil_append] at hcut
  have hquery : splitFirst '?' ((url ++ loginPath) ++ '?' :: ("next".toList ++ '=' ::
      (splitFirst '#' (nextUrl url request)).1)) = (url ++ loginPath, some ("next".toList ++ '=' ::
      (splitFirst '#' (nextUrl url request)).1)) := splitFirst_eq_iff.mpr ⟨rfl, hpath⟩
  simp only [List.append_assoc] at hquery
  unfold followed
  simp only [loginLocation_eq, List.append_assoc, hcut, hquery, true_and, if_true,
    Option.getD_some]

theorem plainName_next : PlainName "next".toList := ⟨by decide, by decide, by decide⟩

theorem targetSafe_locationSafe : TargetSafe locationSafe :=
  ⟨List.forall_iff_forall_mem.mp (by decide), by decide,
    List.forall_iff_forall_mem.mp (by decide)⟩

/-- Whether the target is reached is decided by what is read of it and quoted. -/
theorem returnsTo_iff (h : session.loggedIn = false) :
    ReturnsTo eng url session request target ↔
      request.endpoint.1 = .get ∧ ('?' ∉ url ∧ '#' ∉ url) ∧
        ∃ v, queryParam "next".toList
            ("next".toList ++ '=' :: (splitFirst '#' (nextUrl url request)).1) = some v ∧
          quote locationSafe (unquote v) = target := by
  obtain ⟨v, hv, -⟩ := queryParam_value plainName_next (splitFirst '#' (nextUrl url request)).1
  have hback : ∀ {query}, some query =
        some ("next".toList ++ '=' :: (splitFirst '#' (nextUrl url request)).1) →
      ∀ userInfo, (authCallback (login session query) userInfo).2 =
        quote locationSafe (unquote v) := by
    rintro _ ⟨⟩ userInfo
    unfold authCallback login redirectResponse
    rw [Option.getD_some, hv, Option.getD_some]
  constructor
  · intro hreturns
    obtain ⟨location, query, hcall, hfollowed, hend⟩ := hreturns ⟨{}, Store.empty_valid⟩ {}
    rw [authLibOIDCAuthenticator_redirects h] at hcall
    cases hcall
    obtain ⟨hmethod, hquestion, hhash⟩ := followed_eq_some hfollowed
    rw [hmethod, followed_loginLocation hquestion hhash] at hfollowed
    exact ⟨hmethod, ⟨hquestion, hhash⟩, v, hv, (hback hfollowed.symm {}).symm.trans hend⟩
  · rintro ⟨hmethod, ⟨hquestion, hhash⟩, v', hv', hend⟩ db userInfo
    obtain rfl : v = v' := Option.some.inj (hv.symm.trans hv')
    refine ⟨_, _, authLibOIDCAuthenticator_redirects h db, ?_, (hback rfl userInfo).trans hend⟩
    rw [hmethod]
    exact followed_loginLocation hquestion hhash

theorem ProtectedRequest.template_eq (request : ProtectedRequest) :
    ∃ t, request.template = '/' :: t ∧ PlainPath t := by
  have hapi : PlainPath "api/".toList := by decide
  have hend := endpoints_plain request.endpoint request.behind
  exact ⟨"api/".toList ++ request.version ++ request.endpoint.2, rfl,
    (hapi.append request.plain).append hend⟩

theorem ProtectedRequest.path_eq (request : ProtectedRequest) : ∃ p, request.path = '/' :: p := by
  have hrooted := request.rooted
  cases hp : request.path with
  | nil =>
    rw [hp] at hrooted
    cases hrooted
  | cons c p =>
    rw [hp] at hrooted
    cases hrooted
    exact ⟨p, rfl⟩

/-- With an `X-Target` it is that which has to be quoted. -/
theorem returnsTo_xTarget_iff (h : session.loggedIn = false) (htarget : request.xTarget ≠ []) :
    ReturnsTo eng url session request request.xTarget ↔
      request.endpoint.1 = .get ∧ ('?' ∉ url ∧ '#' ∉ url) ∧
        Quoted locationSafe request.xTarget := by
  have hnext : nextUrl url request = request.xTarget := if_neg htarget
  rw [returnsTo_iff h, hnext, comesBack_iff targetSafe_locationSafe plainName_next]

/-- Without one it is the configured URL, and the template has to be the path. -/
theorem returnsTo_path_iff (h : session.loggedIn = false) (htarget : request.xTarget = []) :
    ReturnsTo eng url session request (url ++ request.path) ↔
      request.endpoint.1 = .get ∧ ('?' ∉ url ∧ '#' ∉ url) ∧
        Quoted locationSafe url ∧ request.path = quote locationSafe request.template := by
  obtain ⟨t, htemplate, ht⟩ := request.template_eq
  obtain ⟨p, hpath⟩ := request.path_eq
  have hnext : nextUrl url request = url ++ '/' :: t := by
    rw [nextUrl, if_pos htarget, htemplate]
  have hquote : quote locationSafe ('/' :: t) = '/' :: quote locationSafe t :=
    targetSafe_locationSafe.quote_append [] t
  rw [returnsTo_iff h, hnext, hpath, htemplate, hquote, List.cons.injEq, eq_self_iff_true, true_and]
  refine and_congr_right fun _ => and_congr_right fun ⟨_, hhash⟩ => ?_
  have hwhole : '#' ∉ url ++ '/' :: t := by simp [hhash, ht.hash]
  rw [splitFirst_of_notMem hwhole]
  exact comesBack_path_iff targetSafe_locationSafe plainName_next (by decide) ht hhash

/-- A login ends in one place. -/
theorem ReturnsTo.unique {target' : List Char} (h : ReturnsTo eng url session request target)
    (h' : ReturnsTo eng url session request target') : target = target' := by
  obtain ⟨location, query, hcall, hfollowed, rfl⟩ := h ⟨{}, Store.empty_valid⟩ {}
  obtain ⟨location', query', hcall', hfollowed', rfl⟩ := h' ⟨{}, Store.empty_valid⟩ {}
  rw [hcall] at hcall'
  cases hcall'
  rw [hfollowed] at hfollowed'
  cases hfollowed'
  rfl

/-- **A login returns** a request without a user to where it started exactly if the method is
`GET`, the configured URL has no `?` and no `#`, and the target is quoted already; without an
`X-Target`, if also the path is the quoted template. -/
theorem login_returns_iff (eng : Engine) (url : List Char) (session : WebSession)
    (request : ProtectedRequest) (h : session.loggedIn = false) :
    ReturnsTo eng url session request (request.start url) ↔ Returnable url request := by
  by_cases htarget : request.xTarget = []
  · have hstart : request.start url = url ++ request.path := if_pos htarget
    rw [hstart, returnsTo_path_iff h htarget]
    constructor
    · rintro ⟨hmethod, hbase, hpath⟩
      exact ⟨hmethod, hbase, fun hne => absurd htarget hne, fun _ => hpath⟩
    · rintro ⟨hmethod, hbase, -, hpath⟩
      exact ⟨hmethod, hbase, hpath htarget⟩
  · have hstart : request.start url = request.xTarget := if_neg htarget
    rw [hstart, returnsTo_xTarget_iff h htarget]
    constructor
    · rintro ⟨hmethod, hbase, hquoted⟩
      exact ⟨hmethod, hbase, fun _ => hquoted, fun hnil => absurd hnil htarget⟩
    · rintro ⟨hmethod, hbase, hquoted, -⟩
      exact ⟨hmethod, hbase, hquoted htarget⟩

end Login

/-- A request for the list of routes, with a target. -/
def userRoutes (xTarget : List Char) : ProtectedRequest where
  endpoint := (.get, "/route".toList)
  version := "v2".toList
  path := "/api/v2/route".toList
  xTarget := xTarget
  behind := by decide
  plain := by decide
  rooted := rfl

/-- A request for a community. -/
def getClub : ProtectedRequest where
  endpoint := (.get, "/community/{id_or_name}".toList)
  version := "v1".toList
  path := "/api/v1/community/club".toList
  behind := by decide
  plain := by decide
  rooted := rfl

def localUrl : List Char := "http://localhost:8443".toList

/-- The list of routes comes back, as does a quoted target. -/
theorem login_returns_list :
    ReturnsTo .sqlite localUrl {} (userRoutes []) "http://localhost:8443/api/v2/route".toList ∧
      ReturnsTo .sqlite localUrl {} (userRoutes "/app?name=my%20route".toList)
        "/app?name=my%20route".toList := by
  have hlocal : Quoted locationSafe localUrl :=
    ⟨localUrl, by decide, not_hasEscape_of_notMem (by decide), by decide, by decide, by decide⟩
  have htarget : Quoted locationSafe "/app?name=my%20route".toList :=
    ⟨"/app?name=my route".toList, by decide, not_hasEscape_of_notMem (by decide), by decide,
      by decide, by decide⟩
  constructor
  · exact (login_returns_iff .sqlite localUrl {} (userRoutes []) rfl).mpr
      ⟨rfl, by decide, nofun, fun _ => ⟨hlocal, by decide⟩⟩
  · exact (login_returns_iff .sqlite localUrl {} (userRoutes _) rfl).mpr
      ⟨rfl, by decide, fun _ => htarget, nofun⟩

/-- A target loses what follows its `&`, and a path comes back as its template. -/
theorem login_elsewhere :
    (ReturnsTo .sqlite localUrl {} (userRoutes "/app?name=a&tab=2".toList) "/app?name=a".toList ∧
      ¬ ReturnsTo .sqlite localUrl {} (userRoutes "/app?name=a&tab=2".toList)
        ((userRoutes "/app?name=a&tab=2".toList).start localUrl)) ∧
    (ReturnsTo .sqlite localUrl {} getClub
        "http://localhost:8443/api/v1/community/%7Bid_or_name%7D".toList ∧
      ¬ ReturnsTo .sqlite localUrl {} getClub (getClub.start localUrl)) := by
  have htarget : ReturnsTo .sqlite localUrl {} (userRoutes "/app?name=a&tab=2".toList)
      "/app?name=a".toList :=
    (returnsTo_iff rfl).mpr ⟨rfl, by decide, "/app?name=a".toList, by decide, by decide⟩
  have hpath : ReturnsTo .sqlite localUrl {} getClub
      "http://localhost:8443/api/v1/community/%7Bid_or_name%7D".toList :=
    (returnsTo_iff rfl).mpr ⟨rfl, by decide,
      "http://localhost:8443/api/v1/community/{id_or_name}".toList, by decide, by decide⟩
  exact ⟨⟨htarget, fun h => absurd (htarget.unique h) (by decide)⟩,
    hpath, fun h => absurd (hpath.unique h) (by decide)⟩

end RouteRegistry
