import RouteRegistry.Formats.Joining
import RouteRegistry.Registry.Engine
import RouteRegistry.Registry.Registrants

/-!
# Where authorization files are fetched (`utils.py`, `clients/`)

- `PikoAuthorizationClient.request`: the URL and the header that `get_authorization` sends for a
  route.
- `routes_fixed`: what of a route is written once.
- `authorization_requests`: all files are fetched from the tunnel, and only the header tells the
  routes apart.
-/

namespace RouteRegistry

open Relational UnitOfWork Calls Runs Urllib

/-! ## Requests -/

/-- `s.rstrip("/")`. -/
def rstrip (s : List Char) : List Char := (lstrip s.reverse).reverse

/-- What a client is told of `urllib.parse`. -/
structure Joiner where
  checks : Checks
  bare : List Char → List Char → List Char

/-- `lib_urljoin`. -/
def Joiner.join (joiner : Joiner) (base path : List Char) : Except LibExc (List Char) :=
  match libUrljoin joiner.checks joiner.bare base path with
  | .ok url => .ok url
  | .error _ => .error .valueError

/-- `utils.urljoin`; an empty text has no first or last character. -/
def urljoin (joiner : Joiner) (base path : List Char) (replace : Bool) :
    Except LibExc (List Char) :=
  if replace then
    match path.head? with
    | none => .error (.other "IndexError")
    | some c => joiner.join (rstrip base) (if c = '/' then path else '/' :: path)
  else
    match base.getLast? with
    | none => .error (.other "IndexError")
    | some c => joiner.join (if c = '/' then base else base ++ ['/']) (lstrip path)

/-- The settings `URL` that the client reads; `none` where a key is absent. -/
structure AuthorizationConfig where
  tunnelBaseUrl : Option String := none
  targetHeader : Option String := none
  authorizationPath : Option String := none

structure PikoAuthorizationClient where
  url : String
  authzPath : String
  pikoHeader : String

/-- The defaults of the attributes. -/
def AuthorizationConfig.client (config : AuthorizationConfig) : PikoAuthorizationClient where
  url := config.tunnelBaseUrl.getD ""
  authzPath := config.authorizationPath.getD "authorization.json"
  pikoHeader := config.targetHeader.getD "X-Piko-Endpoint"

/-- A `GET` as `_prepare` is given it. -/
structure Prepared where
  url : List Char
  headers : List (String × String)
deriving DecidableEq, Repr

/-- What `get_authorization` sends for a route. -/
def PikoAuthorizationClient.request (joiner : Joiner) (client : PikoAuthorizationClient)
    (route : Route) : Except LibExc Prepared := do
  let url ← urljoin joiner (if route.dst ≠ "" then route.dst else client.url).toList
    client.authzPath.toList false
  return ⟨url, [(client.pikoHeader, route.id)]⟩

/-- A URL of a directory, with or without the slash at its end. -/
structure DirectoryUrl (checks : Checks) (url scheme netloc base : List Char) : Prop where
  directory : Directory checks scheme netloc base
  written : url = scheme ++ ':' :: '/' :: '/' :: (netloc ++ (base ++ ['/'])) ∨
    base.getLast? ≠ some '/' ∧ url = scheme ++ ':' :: '/' :: '/' :: (netloc ++ base)

section Requests

variable {joiner : Joiner} {url scheme netloc base path file : List Char}
  {directories : List (List Char)}

/-- The slash at its end is put there, if it is missing. -/
theorem urljoin_directory (h : DirectoryUrl joiner.checks url scheme netloc base)
    (href : Reference (lstrip path) directories file) :
    urljoin joiner url path false =
      .ok (fileUrl scheme netloc (destination (folders base) directories file)) := by
  have hjoin : joiner.join (scheme ++ ':' :: '/' :: '/' :: (netloc ++ (base ++ ['/'])))
      (lstrip path) =
        .ok (fileUrl scheme netloc (destination (folders base) directories file)) := by
    unfold Joiner.join
    rw [libUrljoin_written joiner.bare h.directory href]
  have hends : ∀ rest : List Char, (scheme ++ ':' :: '/' :: '/' :: rest).getLast? =
      rest.getLast?.or (some '/') := by
    intro rest
    have hsplit : scheme ++ ':' :: '/' :: '/' :: rest = (scheme ++ [':', '/', '/']) ++ rest := by
      simp
    have hslash : (scheme ++ [':', '/', '/']).getLast? = some '/' := by
      rw [List.getLast?_append]
      rfl
    rw [hsplit, List.getLast?_append, hslash]
  rcases h.written with rfl | ⟨hbase, rfl⟩
  · have hlast : (scheme ++ ':' :: '/' :: '/' :: (netloc ++ (base ++ ['/']))).getLast? =
        some '/' := by
      rw [hends, ← List.append_assoc, List.getLast?_concat]
      rfl
    unfold urljoin
    simp only [hlast, if_true, Bool.false_eq_true, if_false]
    exact hjoin
  · -- the last character is one of the path, or of the authority
    obtain ⟨c, hlast, hne⟩ : ∃ c, (netloc ++ base).getLast? = some c ∧ c ≠ '/' := by
      rw [List.getLast?_append]
      cases hc : base.getLast? with
      | some c => exact ⟨c, rfl, fun hslash => hbase (by rw [hc, hslash])⟩
      | none =>
        obtain ⟨c, hc⟩ := Option.isSome_iff_exists.mp
          (List.getLast?_isSome.mpr h.directory.given.2)
        refine ⟨c, hc, fun hslash => ?_⟩
        have hstops := (h.directory.sound.netloc c (List.mem_of_getLast? hc)).1
        rw [hslash] at hstops
        cases hstops
    unfold urljoin
    rw [hends, hlast]
    simp only [Option.some_or, hne, Bool.false_eq_true, if_false]
    rw [← hjoin]
    simp

end Requests

/-! ## What of a route is written once -/

/-- The columns of a route that no change sets. -/
structure FixedRoute where
  id : String
  domainId : String
  name : String
  src : String
  dst : String
  token : String
deriving DecidableEq, Repr

def Route.fixed (r : Route) : FixedRoute := ⟨r.id, r.domainId, r.name, r.src, r.dst, r.token⟩

def Store.fixedRoutes (s : Store) : List FixedRoute := s.routes.map Route.fixed

section Fixed

variable {s s' : Store} {c : Change} {t : Transaction} {now : Time}

@[simp] theorem RouteAttr.set_fixed (a : RouteAttr) (r : Route) : (a.set r).fixed = r.fixed := by
  cases a <;> rfl

@[simp] theorem RouteAttr.setAll_fixed (as : List RouteAttr) (r : Route) :
    (RouteAttr.setAll as r).fixed = r.fixed := by
  induction as generalizing r with
  | nil => rfl
  | cons a as ih => exact (ih (a.set r)).trans (a.set_fixed r)

theorem Change.effect_fixed (h : ∀ r, c ≠ .addRoute r) :
    (c.effect s).fixedRoutes = s.fixedRoutes := by
  cases c with
  | addRoute r => exact absurd rfl (h r)
  | setRoute id a => exact map_modify Route.id id a.set_fixed s.routes
  | deleteCommunity id =>
    exact map_modify Route.communityId (some id) (RouteAttr.community none).set_fixed s.routes
  | _ => rfl

/-- Routes are added where they are registered. -/
theorem Transaction.after_fixed {eng : Engine} {setup : Setup}
    (hreg : ∀ reg draws, t ≠ .registerRoute reg draws) (db : Database) :
    ((t.run eng setup now).after db).store.fixedRoutes = db.store.fixedRoutes := by
  rcases t.after_cases eng setup now db with hsame | ⟨Δ, hf, hmay⟩
  · rw [hsame]
  · refine flush_keeps (I := fun s => s.fixedRoutes = db.store.fixedRoutes)
      (fun s hs c hc => (Change.effect_fixed ?_).trans hs) hf rfl
    rintro r rfl
    have hadd := hmay _ hc
    cases t with
    | registerRoute reg draws => exact hreg reg draws rfl
    | _ => simp [Transaction.mayQueue] at hadd

theorem Blocks.after_fixed {env : Env} {request : HttpRequest} {params : List String}
    {handler : Handler} {caller : handler.guard.Caller} {eng : Engine} {setup : Setup}
    (h : Blocks env request params handler caller t) (db : Database) :
    ((t.run eng setup now).after db).store.fixedRoutes = db.store.fixedRoutes := by
  refine Transaction.after_fixed (fun reg draws => ?_) db
  rintro rfl
  cases h

/-- A registration adds a route to the tunnel, or none. -/
theorem registration_fixed {server : Server} {env : Env} {user : User}
    {data : RegistrationRequest} {community : Option Community} {db db' : Database} {route : Route}
    (h : server.registration env now user data community db = .ok route db') :
    ∃ new, db'.store.fixedRoutes = db.store.fixedRoutes ++ new ∧
      ∀ f ∈ new, f = route.fixed ∧ f.dst = server.url.tunnelUrl := by
  have hregistered := registerRoute_ok (rethrow_eq_ok.mp h)
  generalize db'.store = s' at hregistered ⊢
  cases hregistered with
  | rebound =>
    refine ⟨[], ?_, fun f hf => by cases hf⟩
    rw [List.append_nil]
    exact map_modify _ _ (RouteAttr.setAll_fixed _) _
  | created _ _ _ hret =>
    refine ⟨[route.fixed], List.map_append, fun f hf => ?_⟩
    rw [List.mem_singleton.mp hf]
    exact ⟨rfl, by rw [hret]; rfl⟩
  | dropped => exact ⟨[], (List.append_nil _).symm, fun f hf => by cases hf⟩

end Fixed

section Runs

variable {server : Server} {table : TaskTable} {d d' : Deployment} {es : List Activity}

theorem act_fixed {e : Activity} (hact : act server table d e = some d') :
    ∃ new, d'.sys.db.store.fixedRoutes = d.sys.db.store.fixedRoutes ++ new ∧
      ∀ f ∈ new, f.dst = server.url.tunnelUrl ∧ ∃ b ∈ bindings server d e, b.route.fixed = f := by
  have hsame : d'.sys.db.store.fixedRoutes = d.sys.db.store.fixedRoutes →
      ∃ new, d'.sys.db.store.fixedRoutes = d.sys.db.store.fixedRoutes ++ new ∧
        ∀ f ∈ new, f.dst = server.url.tunnelUrl ∧ ∃ b ∈ bindings server d e, b.route.fixed = f :=
    fun h => ⟨[], by rw [h, List.append_nil], fun f hf => by cases hf⟩
  rcases act_simulates hact with hunchanged | ⟨ev, hdoes, hstep⟩
  · exact hsame (by rw [hunchanged])
  cases hdoes with
  | background hnot =>
    refine hsame ?_
    rcases step_db hstep with hunchanged | ⟨t, hdb, rfl | ⟨id, fetch, rfl⟩ | ⟨id, rfl⟩⟩
    · rw [hunchanged]
    · exact absurd rfl (hnot t)
    · rw [hdb]
      exact Transaction.after_fixed (fun _ _ h => by cases h) _
    · rw [hdb]
      exact Transaction.after_fixed (fun _ _ h => by cases h) _
  | @block _ t hruns =>
    cases hruns with
    | request =>
      obtain ⟨⟨env, request, stage⟩, b, stage', hcall, hproceeds, rfl⟩ := act_advance hact
      rcases hproceeds.effect with hunchanged | ⟨since, a, t, hstage, hblock, hdb⟩ |
        ⟨since, params, user, data, community, route, hstage, hreg⟩
      · exact hsame (by rw [show (d.put b).sys.db = d.sys.db from hunchanged])
      · refine hsame ?_
        rw [show (d.put b).sys.db = _ from hdb]
        exact (block_cases hblock).after_fixed _
      · obtain rfl : stage = _ := hstage
        obtain ⟨new, hfixed, hnew⟩ := registration_fixed hreg
        refine ⟨new, hfixed, fun f hf => ⟨(hnew f hf).2, ⟨request, user, route, b.db.store⟩, ?_,
          (hnew f hf).1.symm⟩⟩
        have hreg : server.registration env d.sys.clock user data community d.sys.db =
          .ok route b.db := hreg
        simp only [bindings, hcall, hreg, List.mem_singleton]
    | task | seedUser | seedFlag =>
      refine hsame ?_
      rw [← Option.some.inj hstep]
      exact Transaction.after_fixed (fun _ _ h => by cases h) _

/-- To the routes there were, some have been added, to the tunnel. -/
def Deployment.Grown (server : Server) (before : List FixedRoute) (log : List Binding)
    (d : Deployment) : Prop :=
  ∃ new, d.sys.db.store.fixedRoutes = before ++ new ∧
    ∀ f ∈ new, f.dst = server.url.tunnelUrl ∧ ∃ b ∈ log, b.route.fixed = f

theorem act_grown {before : List FixedRoute} {log : List Binding} {e : Activity}
    (h : d.Grown server before log) (hact : act server table d e = some d') :
    d'.Grown server before (log ++ bindings server d e) := by
  obtain ⟨new, hfixed, hnew⟩ := h
  obtain ⟨more, hfixed', hmore⟩ := act_fixed hact
  refine ⟨new ++ more, by rw [hfixed', hfixed, List.append_assoc], fun f hf => ?_⟩
  rcases List.mem_append.mp hf with hf | hf
  · obtain ⟨hdst, b, hb, hroute⟩ := hnew f hf
    exact ⟨hdst, b, List.mem_append_left _ hb, hroute⟩
  · obtain ⟨hdst, b, hb, hroute⟩ := hmore f hf
    exact ⟨hdst, b, List.mem_append_right _ hb, hroute⟩

theorem run_grown (hrun : run (act server table) d es = some d') :
    d'.Grown server d.sys.db.store.fixedRoutes
      (record (act server table) (bindings server) d es) := by
  have hkeep : ∀ (log : List Binding) (d₁ : Deployment) (e : Activity) (d₂ : Deployment),
      d₁.Grown server d.sys.db.store.fixedRoutes log → True → act server table d₁ e = some d₂ →
      d₂.Grown server d.sys.db.store.fixedRoutes (log ++ bindings server d₁ e) :=
    fun log d₁ e d₂ h _ hact => act_grown h hact
  have hstart : d.Grown server d.sys.db.store.fixedRoutes [] :=
    ⟨[], (List.append_nil _).symm, fun f hf => by cases hf⟩
  exact run_records (I := fun log d₁ => d₁.Grown server d.sys.db.store.fixedRoutes log) hkeep
    (along_of_forall fun _ _ => trivial) hrun hstart

/-- **What is registered stays.** In any run of a deployment that starts without requests in
flight, whatever requests, tasks and passes there are: the routes there were are still there, with
the name, the URLs, the token and the domain they had; and those that have been added lead to the
tunnel, and were registered by requests that the token service vouched for. -/
theorem routes_fixed (server : Server) (table : TaskTable) (d d' : Deployment)
    (es : List Activity) (hcalls : d.calls = [])
    (hrun : run (act server table) d es = some d') :
    ∃ new, d'.sys.db.store.fixedRoutes = d.sys.db.store.fixedRoutes ++ new ∧
      ∀ f ∈ new, f.dst = server.url.tunnelUrl ∧
        ∃ b ∈ record (act server table) (bindings server) d es, b.route.fixed = f ∧
          b.Vouched server (record (act server table) (passages server) d es) := by
  obtain ⟨new, hfixed, hnew⟩ := run_grown hrun
  refine ⟨new, hfixed, fun f hf => ?_⟩
  obtain ⟨hdst, b, hb, hroute⟩ := hnew f hf
  exact ⟨hdst, b, hb, hroute, binding_vouched hcalls hb⟩

theorem routes_fixed_site : ∃ d',
    run (act (smallServer siteJwts) {}) launched registerSite = some d' ∧
    ∃ new, d'.sys.db.store.fixedRoutes = oneRoute.store.fixedRoutes ++ new ∧
      ∀ f ∈ new, f.dst = "tunnel" ∧
        ∃ b ∈ record (act (smallServer siteJwts) {}) (bindings (smallServer siteJwts)) launched
            registerSite,
          b.route.fixed = f ∧ b.Vouched (smallServer siteJwts)
            (record (act (smallServer siteJwts) {}) (passages (smallServer siteJwts)) launched
              registerSite) := by
  have hends : (run (act (smallServer siteJwts) {}) launched registerSite).isSome := by
    decide +kernel
  obtain ⟨d', hrun⟩ := Option.isSome_iff_exists.mp hends
  exact ⟨d', hrun, routes_fixed (smallServer siteJwts) {} launched d' registerSite rfl hrun⟩

/-- **All authorization files are fetched from the tunnel.** Let the tunnel be a directory of a
scheme that `urllib` joins, and the configured path that of a file. In any run of a deployment that
starts with routes to the tunnel, whatever is done in it: for every route there then is, the client
sends a request for one file, below the root of the tunnel's authority; the header tells it which
route is meant. -/
theorem authorization_requests (server : Server) (table : TaskTable) (joiner : Joiner)
    (config : AuthorizationConfig) (scheme netloc base : List Char)
    (directories : List (List Char)) (file : List Char)
    (htunnel : DirectoryUrl joiner.checks server.url.tunnelUrl.toList scheme netloc base)
    (hpath : Reference (lstrip config.client.authzPath.toList) directories file)
    (d d' : Deployment) (es : List Activity) (hrun : run (act server table) d es = some d')
    (hstart : ∀ r ∈ d.sys.db.store.routes, r.dst = server.url.tunnelUrl) :
    ∃ url, urlparse joiner.checks url =
        .ok (fileParts scheme netloc (destination (folders base) directories file)) ∧
      ∀ r ∈ d'.sys.db.store.routes,
        config.client.request joiner r = .ok ⟨url, [(config.client.pikoHeader, r.id)]⟩ := by
  refine ⟨_, urlparse_fileUrl htunnel.directory hpath, fun r hr => ?_⟩
  have hdst : r.dst = server.url.tunnelUrl := by
    obtain ⟨new, hfixed, hnew⟩ := run_grown hrun
    have hmem : r.fixed ∈ d'.sys.db.store.fixedRoutes := List.mem_map_of_mem hr
    rw [hfixed] at hmem
    rcases List.mem_append.mp hmem with hmem | hmem
    · obtain ⟨r₀, hr₀, hsame⟩ := List.mem_map.mp hmem
      have hdst : r₀.dst = r.dst := congrArg FixedRoute.dst hsame
      rw [← hdst]
      exact hstart r₀ hr₀
    · exact (hnew r.fixed hmem).1
  have hne : r.dst ≠ "" := by
    rw [hdst]
    intro hempty
    rcases htunnel.written with hwritten | ⟨-, hwritten⟩ <;>
    · rw [hempty] at hwritten
      simp at hwritten
  unfold PikoAuthorizationClient.request
  rw [if_pos hne, hdst, urljoin_directory htunnel hpath]
  rfl

/-- A server before its tunnel. -/
def tunnelServer : Server :=
  { smallServer siteJwts with url := ⟨"http://piko:5002/tunnel", false⟩ }

/-- A registry without routes. -/
def unused : Deployment where
  sys := ⟨.load [.addUser alice, .addDomain openDomain], 0, []⟩

/-- A release of the library. -/
def plainJoiner : Joiner := ⟨.ascii, fun _ path => path⟩

theorem tunnel_directory : DirectoryUrl Checks.ascii tunnelServer.url.tunnelUrl.toList
    "http".toList "piko:5002".toList "/tunnel".toList where
  directory :=
    { sound :=
        { scheme := .inr (by decide)
          netloc := List.forall_iff_forall_mem.mp (by decide)
          path := List.forall_iff_forall_mem.mp (by decide)
          rooted := fun _ c hc => by
            cases hc
            rfl
          params := fun _ => by decide
          brackets := rfl
          normal := by decide }
      given := by decide
      joined := by decide }
  written := .inr (by decide)

/-- The site of Alice is asked for its file at the tunnel. -/
theorem authorization_requests_site : ∃ d',
    run (act tunnelServer {}) unused registerSite = some d' ∧ d'.sys.db.store.routes ≠ [] ∧
    ∃ url, urlparse Checks.ascii url = .ok (fileParts "http".toList "piko:5002".toList
        (destination (folders "/tunnel".toList) [] "authorization.json".toList)) ∧
      ∀ r ∈ d'.sys.db.store.routes, ({} : AuthorizationConfig).client.request plainJoiner r =
        .ok ⟨url, [("X-Piko-Endpoint", r.id)]⟩ := by
  have hends : (match run (act tunnelServer {}) unused registerSite with
      | some d => decide (d.sys.db.store.routes ≠ [])
      | none => false) = true := by
    decide +kernel
  have hpath : Reference (lstrip ({} : AuthorizationConfig).client.authzPath.toList) []
      "authorization.json".toList :=
    ⟨by decide, List.forall_iff_forall_mem.mp (by decide), by decide, by decide⟩
  cases hrun : run (act tunnelServer {}) unused registerSite with
  | none =>
    rw [hrun] at hends
    cases hends
  | some d' =>
    rw [hrun] at hends
    exact ⟨d', rfl, of_decide_eq_true hends,
      authorization_requests tunnelServer {} plainJoiner {} _ _ _ [] _ tunnel_directory hpath unused
        d' registerSite hrun (by decide +kernel)⟩

end Runs

end RouteRegistry
