import RouteRegistry.Formats.Templates
import RouteRegistry.Registry.Login

/-!
# Routing (`server.py`, `routers/`, `internal/`)

- `Handler`: the functions that answer requests, with their guards.
- `makeApp`: the routers, bound once for each of their versions. `stable` stands for the
  configured `API_VERSION`.
- `makeApp_unambiguous`: whatever that version is, no request has two routes. So the order of
  the endpoints does not matter, and a request for given parameters gets to its handler with
  them (`dispatch_sound`).
-/

namespace RouteRegistry

open Templates

/-! ## Handlers -/

/-- The functions that answer requests, by what they are called in their routers. -/
inductive Handler where
  -- routers/jwt.py, routers/well_known.py
  | jwt
  | jwks
  -- routers/community.py
  | listCommunities
  | getCommunity
  | createCommunity
  | addRoute
  | removeFromCommunity
  | removeCommunity
  -- internal/route.py
  | listRoutes
  | listActive
  -- internal/domain.py
  | listDomains
  | createDomain
  | makeDefaultDomain
  | deleteDomain
  -- internal/user.py
  | listUsers
  | createUser
  | deleteUser
  | grantAdminRole
  | revokeAdminRole
  -- internal/group.py
  | listGroups
  | createGroup
  | deleteGroup
  -- internal/token.py
  | createToken
  | listTokens
  | deleteByValue
  -- routers/route.py
  | listAvailable
  | listUserRoutes
  | register
  | hello
deriving DecidableEq, Repr

/-- What a handler depends on. -/
inductive Guard where
  | nobody
  /-- `JWTAuthenticator`. -/
  | routeJwt
  /-- `require_admin_*_role`. -/
  | adminRole (role : AdminRole)
  /-- `TokenOrFallbackAuthenticator`. -/
  | tokenOrFallback
  /-- Its `token_auth`. -/
  | tokenService
  /-- `require_admin(user_auth)`. -/
  | admin
deriving DecidableEq, Repr

/-- The dependencies that the routers and their functions declare. -/
def Handler.guard : Handler → Guard
  | .jwt => .routeJwt
  | .jwks | .listAvailable => .nobody
  | .listCommunities | .getCommunity | .createCommunity | .addRoute | .removeFromCommunity
  | .removeCommunity | .listUserRoutes | .hello => .tokenOrFallback
  | .listRoutes | .listActive => .adminRole .observer
  | .listDomains | .createDomain | .makeDefaultDomain | .deleteDomain => .adminRole .domain
  | .listUsers | .createUser | .deleteUser | .listGroups | .createGroup | .deleteGroup =>
    .adminRole .identity
  | .grantAdminRole | .revokeAdminRole | .createToken | .listTokens | .deleteByValue => .admin
  | .register => .tokenService

/-! ## Endpoints -/

/-- `APIRouter`: the path in front, and the routes behind it. -/
structure Router where
  path : List Char
  routes : List (Method × List Char × Handler)

structure Endpoint where
  currentVersion : List Char
  router : Router
  path : List Char := "/api".toList
  versions : List (List Char) := ["stable".toList, "latest".toList]

def jwtRouter : Router := ⟨"/jwt".toList, [(.post, [], .jwt)]⟩

def wellKnownRouter : Router := ⟨"/.well-known".toList, [(.get, "/jwks.json".toList, .jwks)]⟩

def communityRouter : Router := ⟨"/community".toList,
  [(.get, [], .listCommunities), (.get, "/{id_or_name}".toList, .getCommunity),
    (.post, [], .createCommunity), (.put, "/{community_id}/route/{route_id}".toList, .addRoute),
    (.delete, "/{community_id}/route/{route_id}".toList, .removeFromCommunity),
    (.delete, "/{id_or_name}".toList, .removeCommunity)]⟩

def adminRouteRouter : Router := ⟨"/admin/route".toList,
  [(.get, [], .listRoutes), (.get, "/active".toList, .listActive)]⟩

def adminDomainRouter : Router := ⟨"/admin/domain".toList,
  [(.get, [], .listDomains), (.post, [], .createDomain),
    (.put, "/default/{domain_id}".toList, .makeDefaultDomain),
    (.delete, "/{domain_id}".toList, .deleteDomain)]⟩

def adminUserRouter : Router := ⟨"/admin/users".toList,
  [(.get, [], .listUsers), (.post, [], .createUser), (.delete, "/{uid}".toList, .deleteUser),
    (.put, "/{user_uid}/admin".toList, .grantAdminRole),
    (.delete, "/{user_uid}/admin".toList, .revokeAdminRole)]⟩

def adminGroupRouter : Router := ⟨"/admin/groups".toList,
  [(.get, [], .listGroups), (.post, [], .createGroup), (.delete, "/{name}".toList, .deleteGroup)]⟩

def adminTokenRouter : Router := ⟨"/admin/token".toList,
  [(.post, [], .createToken), (.get, [], .listTokens),
    (.delete, "/{admin_token_value}".toList, .deleteByValue)]⟩

def legacyListRouter : Router := ⟨"/route".toList, [(.get, [], .listAvailable)]⟩

def userListRouter : Router := ⟨"/route".toList, [(.get, [], .listUserRoutes)]⟩

def routeRouter : Router := ⟨"/route".toList,
  [(.post, [], .register), (.get, "/hello-world".toList, .hello)]⟩

/-- The endpoints of `make_app`. -/
def appEndpoints (apiVersion : List Char) : List Endpoint :=
  [{ currentVersion := apiVersion, router := jwtRouter },
    { currentVersion := apiVersion, router := wellKnownRouter, path := [], versions := [] },
    { currentVersion := apiVersion, router := communityRouter },
    { currentVersion := apiVersion, router := adminRouteRouter },
    { currentVersion := apiVersion, router := adminDomainRouter },
    { currentVersion := apiVersion, router := adminUserRouter },
    { currentVersion := apiVersion, router := adminGroupRouter },
    { currentVersion := apiVersion, router := adminTokenRouter },
    { currentVersion := apiVersion, router := legacyListRouter, versions := ["v1".toList] },
    { currentVersion := apiVersion, router := userListRouter,
      versions := ["v2".toList, "latest".toList] },
    { currentVersion := apiVersion, router := routeRouter,
      versions := ["v1".toList, "v2".toList, "latest".toList] }]

/-- `app.include_router` under a path. -/
def bindEndpoint (endpoint : Endpoint) (path : List Char) : List (BoundRoute Method Handler) :=
  endpoint.router.routes.map fun (method, rest, handler) =>
    ⟨method, compilePath (path ++ (endpoint.router.path ++ rest)), handler⟩

/-- The version of an endpoint in a path. -/
def Endpoint.versionText (endpoint : Endpoint) (version : List Char) : List Char :=
  if version = "stable".toList then endpoint.currentVersion else version

def bindEndpoints (endpoints : List Endpoint) : List (BoundRoute Method Handler) :=
  endpoints.flatMap fun ep =>
    if ep.versions = [] then bindEndpoint ep []
    else ep.versions.flatMap fun version =>
      bindEndpoint ep (ep.path ++ '/' :: ep.versionText version)

/-- The routes of the application. -/
def makeApp (apiVersion : List Char) : List (BoundRoute Method Handler) :=
  bindEndpoints (appEndpoints apiVersion)

/-! ## No two routes for a request -/

/-- A version that is one text in a path, whatever follows it. -/
structure PlainVersion (version : List Char) : Prop where
  given : version ≠ []
  segment : '/' ∉ version
  text : '{' ∉ version
  line : '\n' ∉ version

/-- A route under a version: which one, its method, its path behind the version, its handler. -/
abbrev Versioned := List Char × Method × List Segment × Handler

/-- The routes of the application with their versions still to be filled in. -/
def versionedRoutes : List Versioned :=
  (appEndpoints []).flatMap fun ep => ep.versions.flatMap fun version =>
    ep.router.routes.map fun (method, rest, handler) =>
      (version, method, compilePath (ep.router.path.tail ++ rest), handler)

/-- The route of a row, for a configured version. -/
def bindVersioned (apiVersion : List Char) (row : Versioned) : BoundRoute Method Handler where
  method := row.2.1
  template := .literal [] :: .literal "api".toList ::
    .literal (if row.1 = "stable".toList then apiVersion else row.1) :: row.2.2.1
  endpoint := row.2.2.2

def jwksRoute : BoundRoute Method Handler :=
  ⟨.get, [.literal [], .literal ".well-known".toList, .literal "jwks.json".toList], .jwks⟩

section Unambiguous

variable {apiVersion version : List Char}

theorem compilePath_append_cons (p q : List Char) :
    compilePath (p ++ '/' :: q) = compilePath p ++ compilePath q := by
  unfold compilePath
  rw [List.splitOn_append_cons_self, List.map_append]

theorem compilePath_of_plain (h : PlainVersion version) :
    compilePath version = [.literal version] := by
  unfold compilePath compileSegment
  rw [List.splitOn_eq_singleton h.segment]
  have hhead : version.head? ≠ some '{' := fun hhead => h.text (List.mem_of_mem_head? hhead)
  simp [hhead]

theorem plainVersion_texts :
    ∀ version ∈ ["latest".toList, "v1".toList, "v2".toList], PlainVersion version := by
  intro version h
  simp only [List.mem_cons, List.not_mem_nil, or_false] at h
  rcases h with rfl | rfl | rfl <;> exact ⟨by decide, by decide, by decide, by decide⟩

/-- The version of an endpoint is the configured one or a plain text. -/
theorem versions_plain (h : PlainVersion apiVersion) {ep : Endpoint} (hep : ep ∈ appEndpoints [])
    (hversion : version ∈ ep.versions) :
    PlainVersion (if version = "stable".toList then apiVersion else version) := by
  have htag : ∀ ep ∈ appEndpoints [], ∀ version ∈ ep.versions, version ≠ "stable".toList →
      version ∈ ["latest".toList, "v1".toList, "v2".toList] := by decide
  by_cases hstable : version = "stable".toList
  · rw [if_pos hstable]
    exact h
  · rw [if_neg hstable]
    exact plainVersion_texts version (htag ep hep version hversion hstable)

/-- The routes of an endpoint under one of its versions. -/
theorem bindEndpoint_version (ep : Endpoint) (hpath : ep.path = "/api".toList)
    (hrooted : ep.router.path = '/' :: ep.router.path.tail) (hplain : PlainVersion version) :
    bindEndpoint ep (ep.path ++ '/' :: version) = ep.router.routes.map fun (method, rest, handler) =>
      ⟨method, .literal [] :: .literal "api".toList :: .literal version ::
        compilePath (ep.router.path.tail ++ rest), handler⟩ := by
  unfold bindEndpoint
  refine List.map_congr_left fun ⟨method, rest, handler⟩ _ => ?_
  have hsplit : ep.path ++ '/' :: version ++ (ep.router.path ++ rest) =
      ("/api".toList ++ '/' :: version) ++ '/' :: (ep.router.path.tail ++ rest) := by
    rw [hpath, hrooted]
    rfl
  have hapi : compilePath "/api".toList = [.literal [], .literal "api".toList] := by decide
  dsimp only
  rw [hsplit, compilePath_append_cons, compilePath_append_cons, hapi, compilePath_of_plain hplain]
  rfl

/-- The configured version is kept by the endpoints, and decides nothing else. -/
theorem appEndpoints_eq (apiVersion : List Char) :
    appEndpoints apiVersion =
      (appEndpoints []).map fun ep => { ep with currentVersion := apiVersion } := rfl

theorem appEndpoints_shape : ∀ ep ∈ appEndpoints [],
    (ep.versions = [] ∧ bindEndpoint ep [] = [jwksRoute]) ∨
      (ep.versions ≠ [] ∧ ep.path = "/api".toList ∧
        ep.router.path = '/' :: ep.router.path.tail) := by
  decide

theorem mem_versionedRoutes {row : Versioned} :
    row ∈ versionedRoutes ↔ ∃ ep ∈ appEndpoints [], ∃ version ∈ ep.versions,
      ∃ x ∈ ep.router.routes,
        (version, x.1, compilePath (ep.router.path.tail ++ x.2.1), x.2.2) = row := by
  unfold versionedRoutes
  simp only [List.mem_flatMap, List.mem_map]

/-- Texts without newlines are the same for a request if they are equal. -/
theorem eq_of_sameText {t u : List Char} (ht : '\n' ∉ t) (hu : '\n' ∉ u)
    (h : sameText t u = true) : t = u := by
  unfold sameText at h
  simp only [Bool.or_eq_true, decide_eq_true_eq] at h
  rcases h with (rfl | rfl) | rfl
  · rfl
  · exact absurd (List.mem_append_right _ (List.mem_singleton_self _)) hu
  · exact absurd (List.mem_append_right _ (List.mem_singleton_self _)) ht

theorem versionedRoutes_plain (h : PlainVersion apiVersion) {row : Versioned}
    (hrow : row ∈ versionedRoutes) :
    PlainVersion (if row.1 = "stable".toList then apiVersion else row.1) := by
  obtain ⟨ep, hep, version, hversion, x, -, rfl⟩ := mem_versionedRoutes.mp hrow
  exact versions_plain h hep hversion

/-- The routes of the application: the key set's, and those of the rows. -/
theorem mem_makeApp_iff (h : PlainVersion apiVersion) {r : BoundRoute Method Handler} :
    r ∈ makeApp apiVersion ↔
      r = jwksRoute ∨ ∃ row ∈ versionedRoutes, bindVersioned apiVersion row = r := by
  have hbound : ∀ ep ∈ appEndpoints [], ep.versions ≠ [] → ∀ version ∈ ep.versions,
      (r ∈ bindEndpoint { ep with currentVersion := apiVersion } (ep.path ++ '/' ::
          (if version = "stable".toList then apiVersion else version)) ↔
        ∃ x ∈ ep.router.routes, bindVersioned apiVersion
          (version, x.1, compilePath (ep.router.path.tail ++ x.2.1), x.2.2) = r) := by
    intro ep hep hne version hversion
    rcases appEndpoints_shape ep hep with ⟨hnil, -⟩ | ⟨-, hpath, hrooted⟩
    · exact absurd hnil hne
    · rw [bindEndpoint_version { ep with currentVersion := apiVersion } hpath hrooted
        (versions_plain h hep hversion), List.mem_map]
      rfl
  have hmem : r ∈ makeApp apiVersion ↔ ∃ ep ∈ appEndpoints [],
      r ∈ if ep.versions = [] then bindEndpoint { ep with currentVersion := apiVersion } []
        else ep.versions.flatMap fun version =>
          bindEndpoint { ep with currentVersion := apiVersion } (ep.path ++ '/' ::
            (if version = "stable".toList then apiVersion else version)) := by
    unfold makeApp bindEndpoints
    rw [appEndpoints_eq, List.mem_flatMap]
    simp only [List.mem_map, exists_exists_and_eq_and]
    rfl
  rw [hmem]
  constructor
  · rintro ⟨ep, hep, hr⟩
    rcases appEndpoints_shape ep hep with ⟨hnil, hjwks⟩ | ⟨hne, -, -⟩
    · rw [if_pos hnil] at hr
      exact .inl (List.mem_singleton.mp (hjwks ▸ hr))
    · rw [if_neg hne] at hr
      obtain ⟨version, hversion, hr⟩ := List.mem_flatMap.mp hr
      obtain ⟨x, hx, rfl⟩ := (hbound ep hep hne version hversion).mp hr
      exact .inr ⟨_, mem_versionedRoutes.mpr ⟨ep, hep, version, hversion, x, hx, rfl⟩, rfl⟩
  · rintro (rfl | ⟨row, hrow, rfl⟩)
    · have hwellKnown : ∃ ep ∈ appEndpoints [], ep.versions = [] ∧
          jwksRoute ∈ bindEndpoint ep [] := by decide
      obtain ⟨ep, hep, hnil, hin⟩ := hwellKnown
      refine ⟨ep, hep, ?_⟩
      rw [if_pos hnil]
      exact hin
    · obtain ⟨ep, hep, version, hversion, x, hx, rfl⟩ := mem_versionedRoutes.mp hrow
      have hne : ep.versions ≠ [] := List.ne_nil_of_mem hversion
      refine ⟨ep, hep, ?_⟩
      rw [if_neg hne]
      exact List.mem_flatMap.mpr
        ⟨version, hversion, (hbound ep hep hne version hversion).mpr ⟨x, hx, rfl⟩⟩

/-- Rows of one method whose paths overlap behind the version have one path there, and one
handler or two fixed versions. -/
theorem versionedRoutes_overlaps : ∀ row ∈ versionedRoutes, ∀ row' ∈ versionedRoutes,
    row.2.1 = row'.2.1 → overlaps row.2.2.1 row'.2.2.1 = true →
      row.2.2.1 = row'.2.2.1 ∧ (row.2.2.2 = row'.2.2.2 ∨
        (row.1 ≠ row'.1 ∧ row.1 ≠ "stable".toList ∧ row'.1 ≠ "stable".toList)) := by
  decide +kernel

/-- **No request has two routes**, whatever the configured version is. -/
theorem makeApp_unambiguous (h : PlainVersion apiVersion) : Unambiguous (makeApp apiVersion) := by
  intro r hr r' hr' hmethod hover
  rcases (mem_makeApp_iff h).mp hr with rfl | ⟨row, hrow, rfl⟩
  · rcases (mem_makeApp_iff h).mp hr' with rfl | ⟨row', hrow', rfl⟩
    · rfl
    · cases hover
  · rcases (mem_makeApp_iff h).mp hr' with rfl | ⟨row', hrow', rfl⟩
    · cases hover
    · have hboth : sameText
          (if row.1 = "stable".toList then apiVersion else row.1)
          (if row'.1 = "stable".toList then apiVersion else row'.1) = true ∧
            overlaps row.2.2.1 row'.2.2.1 = true := Bool.and_eq_true_iff.mp hover
      have hversion := eq_of_sameText (versionedRoutes_plain h hrow).line
        (versionedRoutes_plain h hrow').line hboth.1
      obtain ⟨hrest, hhandler | ⟨hne, hfixed, hfixed'⟩⟩ :=
        versionedRoutes_overlaps row hrow row' hrow' hmethod hboth.2
      · have hmethod : row.2.1 = row'.2.1 := hmethod
        unfold bindVersioned
        rw [hversion, hrest, hhandler, hmethod]
      · rw [if_neg hfixed, if_neg hfixed'] at hversion
        exact absurd hversion hne

/-- Every template is that of a path. -/
theorem template_compiled {r : BoundRoute Method Handler} (hr : r ∈ makeApp apiVersion) :
    ∃ path, r.template = compilePath path := by
  have hbind : ∀ ep path, r ∈ bindEndpoint ep path → ∃ path, r.template = compilePath path := by
    intro ep path h
    obtain ⟨x, -, rfl⟩ := List.mem_map.mp h
    exact ⟨_, rfl⟩
  obtain ⟨ep, -, h⟩ := List.mem_flatMap.mp hr
  split at h
  · exact hbind _ _ h
  · obtain ⟨version, -, h⟩ := List.mem_flatMap.mp h
    exact hbind _ _ h

/-- **Requests get where they belong**, whatever the configured version is and in whatever
order the endpoints are bound: a request is dispatched exactly if some route matches it, to the
handler of that route; and a path filled in from the template of a route gets to its handler
with what was filled in. -/
theorem dispatch_sound (apiVersion : List Char) (h : PlainVersion apiVersion)
    (routes : List (BoundRoute Method Handler))
    (hroutes : ∀ r, r ∈ makeApp apiVersion ↔ r ∈ routes) :
    (∀ method path handler params, resolve routes method path = .found handler params ↔
      ∃ r ∈ makeApp apiVersion, r.method = method ∧ r.endpoint = handler ∧
        matchPath r.template path = some params) ∧
    ∀ r ∈ makeApp apiVersion, ∀ params : List (List Char), params.length = arity r.template →
      (∀ p ∈ params, Value p) →
        resolve routes r.method (fillPath r.template params) = .found r.endpoint params := by
  have hfound : ∀ method path handler params,
      resolve routes method path = .found handler params ↔
        ∃ r ∈ makeApp apiVersion, r.method = method ∧ r.endpoint = handler ∧
          matchPath r.template path = some params := by
    intro method path handler params
    rw [resolve_congr (makeApp_unambiguous h) hroutes,
      resolve_eq_found_iff (makeApp_unambiguous h)]
  refine ⟨hfound, fun r hr params hlength hvalues => ?_⟩
  obtain ⟨path, hpath⟩ := template_compiled hr
  refine (hfound _ _ _ _).mpr ⟨r, hr, rfl, rfl, matchPath_fillPath ?_ ?_ hlength hvalues⟩
  · exact hpath ▸ compilePath_ne_nil path
  · exact hpath ▸ plain_compilePath path

/-- With the shipped version, and the endpoints bound the other way round. -/
theorem dispatch_addRoute :
    resolve (makeApp "v1".toList).reverse .put "/api/latest/community/c/route/r".toList =
      .found .addRoute ["c".toList, "r".toList] := by
  have hplain : PlainVersion "v1".toList := plainVersion_texts _ (by simp)
  have hmem : (⟨.put, compilePath "/api/latest/community/{community_id}/route/{route_id}".toList,
      .addRoute⟩ : BoundRoute Method Handler) ∈ makeApp "v1".toList := by decide +kernel
  exact (dispatch_sound _ hplain _ (fun r => List.mem_reverse.symm)).2 _ hmem
    ["c".toList, "r".toList] (by decide) (by unfold Value; decide)

end Unambiguous

end RouteRegistry
