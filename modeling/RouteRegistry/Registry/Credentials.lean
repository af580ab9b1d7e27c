import RouteRegistry.Registry.Mediation

/-!
# The JWTs in circulation

A registration is answered with a JWT for its route, and whoever presents a JWT that passes gets
a new one. So the JWTs of a route form chains.

- `InFlight.hands`: the JWT that an answer hands out.
- `Unforged`: only JWTs that have been handed out verify.
- `jwts_descend`: each JWT goes back, by rotations in the windows of the ones before it, to a
  registration that the token service vouched for.
-/

namespace RouteRegistry

open Calls Runs

/-! ## What answers hand out -/

/-- A JWT that was handed out: of which route, and when. -/
structure HandedJwt where
  routeId : String
  issued : Time
  text : String
deriving DecidableEq, Repr

/-- The JWT that an answer hands out. -/
def InFlight.hands (call : InFlight) : Option HandedJwt :=
  match call.stage with
  | .answered _ ⟨.register, _, _⟩ now (.ok (.registration response)) =>
    match response.endpoint, response.jwt with
    | some id, some jwt => some ⟨id, now, jwt⟩
    | _, _ => none
  | .answered _ ⟨.jwt, _, route⟩ now (.ok (.jwt jwt)) => some ⟨route.id, now, jwt⟩
  | _ => none

/-- The JWT of a request that has got to its guard. -/
def presented (d : Deployment) : Activity → Option String
  | .advance i =>
    match d.calls[i]? with
    | some ⟨_, request, .arrived⟩ => request.xJwt
    | _ => none
  | _ => none

/-- What a request presents was handed out before, if it verifies: nobody else signs with the key
of the registry. -/
def Unforged (server : Server) (d : Deployment) (e : Activity) : Prop :=
  ∀ xJwt claims, presented d e = some xJwt →
    server.rfc.decode xJwt server.jwtConfig.jwks.keys = .ok claims →
      ∃ call ∈ d.calls, ∃ jwt, call.hands = some jwt ∧ jwt.text = xJwt

/-- How a JWT has come about: from the registration `root`, by rotations. -/
inductive Lineage {rfc : Joserfc} (config : JWTConfig rfc) (calls : List InFlight)
    (root : Passage) : HandedJwt → Prop where
  | registered {call : InFlight} {jwt : HandedJwt} (hcall : call ∈ calls)
      (request : call.request = root.request)
      (passed : call.stage.passed = some (root.now, root.admitted))
      (register : root.admitted.handler = .register) (hands : call.hands = some jwt) :
      Lineage config calls root jwt
  | rotated {call : InFlight} {jwt jwt' : HandedJwt} {since : Time} {params : List String}
      {route : Route} (old : Lineage config calls root jwt) (hcall : call ∈ calls)
      (presented : call.request.xJwt = some jwt.text)
      (passed : call.stage.passed = some (since, ⟨.jwt, params, route⟩))
      (window : config.Accepts jwt.issued none since) (same : jwt'.routeId = jwt.routeId)
      (hands : call.hands = some jwt') : Lineage config calls root jwt'

section Hands

variable {server : Server} {table : TaskTable} {d d' : Deployment} {now : Time} {b b' : Backend}
  {call : InFlight} {stage : CallStage} {jwt : HandedJwt}

/-- Two handlers hand out JWTs. -/
theorem InFlight.hands_eq_some (h : call.hands = some jwt) :
    (∃ since params user response, call.stage = .answered since ⟨.register, params, user⟩ jwt.issued
        (.ok (.registration response)) ∧ response.endpoint = some jwt.routeId ∧
        response.jwt = some jwt.text) ∨
      ∃ since params route, call.stage = .answered since ⟨.jwt, params, route⟩ jwt.issued
        (.ok (.jwt jwt.text)) ∧ route.id = jwt.routeId := by
  unfold InFlight.hands at h
  split at h
  · rename_i since params user now response hstage
    split at h
    · rename_i id text hid htext
      cases h
      exact .inl ⟨since, params, user, response, hstage, hid, htext⟩
    · cases h
  · rename_i since params route now text hstage
    cases h
    exact .inr ⟨since, params, route, hstage, rfl⟩
  · cases h

/-- What the next step of a request hands out has just been signed, for its route. -/
theorem Proceeds.hands (h : Proceeds server now b call b' stage)
    (hhands : { call with stage := stage }.hands = some jwt) :
    (∃ route, route.id = jwt.routeId ∧
      createPikoJwt route server.jwtConfig none jwt.issued = .ok jwt.text) ∧
    ((∃ since params user data community,
        call.stage = .located since params user data community ∧
        stage.passed = some (since, ⟨.register, params, user⟩)) ∨
      ∃ since params route, call.stage = .admitted since ⟨.jwt, params, route⟩ ∧
        stage.passed = some (since, ⟨.jwt, params, route⟩) ∧ route.id = jwt.routeId) := by
  obtain ⟨id, issued, text⟩ := jwt
  rcases InFlight.hands_eq_some hhands with
    ⟨since, params, user, response, hstage, hid, htext⟩ | ⟨since, params, route, hstage, hid⟩
  · obtain rfl : stage = _ := hstage
    cases h with
    | registered hlocated hrun =>
      obtain ⟨route, jwt, -, -, hjwt, hreply⟩ := registerLocated_ok hrun
      cases hreply
      cases hid
      cases htext
      exact ⟨⟨route, rfl, hjwt⟩, .inl ⟨_, _, _, _, _, hlocated, rfl⟩⟩
    | called _ hother => exact absurd rfl hother.1
  · obtain rfl : stage = _ := hstage
    cases h with
    | rotated hadmitted hrun =>
      cases hrotate : server.rotate call.env issued route b with
      | ok reply b₁ =>
        rw [hrotate] at hrun
        obtain ⟨⟨jwt, rfl, hjwt⟩, -⟩ := rotate_ok hrotate
        cases hrun
        exact ⟨⟨route, hid, hjwt⟩, .inr ⟨_, _, _, hadmitted, rfl, hid⟩⟩
      | error e b₁ =>
        rw [hrotate] at hrun
        cases hrun
    | called _ hother => exact absurd rfl hother.2

/-- An answer stays. -/
theorem act_answered {e : Activity} (hact : act server table d e = some d') (hcall : call ∈ d.calls)
    (hhands : call.hands = some jwt) : call ∈ d'.calls := by
  cases e with
  | background ev =>
    obtain ⟨-, sys, -, rfl⟩ := act_background hact
    exact hcall
  | seedUser | seedFlag =>
    cases hact
    exact hcall
  | arrive env request =>
    cases hact
    exact List.mem_append_left _ hcall
  | advance i =>
    obtain ⟨before, b, stage, hbefore, hproceeds, rfl⟩ := act_advance hact
    obtain ⟨j, hj⟩ := List.mem_iff_getElem?.mp hcall
    -- an answered request has no next step, so it is another one that moves
    have hne : i ≠ j := by
      rintro rfl
      rw [hj] at hbefore
      cases hbefore
      rcases InFlight.hands_eq_some hhands with ⟨_, _, _, _, hstage, -⟩ | ⟨_, _, _, hstage, -⟩
      all_goals
        cases hproceeds with
        | admitted h | refused h | located h | unlocated h | registered h | unregistered h
        | rotated h | called h => cases h.symm.trans hstage
    refine List.mem_iff_getElem?.mpr ⟨j, ?_⟩
    exact (List.getElem?_set_ne hne).trans hj
  | attempt i fetch =>
    obtain ⟨b, -, rfl⟩ := Option.map_eq_some_iff.mp hact
    exact hcall
  | lose i =>
    obtain ⟨b, -, rfl⟩ := Option.map_eq_some_iff.mp hact
    exact hcall

theorem Lineage.mono {rfc : Joserfc} {config : JWTConfig rfc} {calls calls' : List InFlight}
    {root : Passage} (h : Lineage config calls root jwt)
    (hcalls : ∀ call ∈ calls, ∀ jwt, call.hands = some jwt → call ∈ calls') :
    Lineage config calls' root jwt := by
  induction h with
  | registered hcall hrequest hpassed hregister hhands =>
    exact .registered (hcalls _ hcall _ hhands) hrequest hpassed hregister hhands
  | rotated _ hcall hpresented hpassed hwindow hsame hhands ih =>
    exact .rotated ih (hcalls _ hcall _ hhands) hpresented hpassed hwindow hsame hhands

end Hands

/-! ## Runs -/

/-- The JWTs of a deployment, next to the record of who was let through. -/
structure Deployment.Lineal (server : Server) (log : List Passage) (d : Deployment) : Prop where
  vouched : d.Vouched log
  signed : ∀ call ∈ d.calls, ∀ jwt, call.hands = some jwt → ∃ route, route.id = jwt.routeId ∧
    createPikoJwt route server.jwtConfig none jwt.issued = .ok jwt.text
  handed : ∀ call ∈ d.calls, ∀ jwt, call.hands = some jwt →
    ∃ root ∈ log, Lineage server.jwtConfig d.calls root jwt
  /-- Who waits for a new JWT has presented one that was handed out, in its window. -/
  waiting : ∀ call ∈ d.calls, ∀ since params route,
    call.stage = .admitted since ⟨.jwt, params, route⟩ →
      ∃ jwt : HandedJwt, call.request.xJwt = some jwt.text ∧ route.id = jwt.routeId ∧
        server.jwtConfig.Accepts jwt.issued none since ∧
        ∃ root ∈ log, Lineage server.jwtConfig d.calls root jwt

section Runs

variable {server : Server} {table : TaskTable} {d d' : Deployment} {log : List Passage}

/-- A request that is let through for its JWT presents one that was handed out for that route, in
its window. -/
theorem Deployment.Lineal.admits (h : d.Lineal server log)
    (hdoc : server.rfc.Documented server.jwtConfig) {i : Nat} {env : Env} {request : HttpRequest}
    (hcall : d.calls[i]? = some ⟨env, request, .arrived⟩)
    (hunforged : Unforged server d (.advance i)) {params : List String} {route : Route}
    (hguard : server.admission env d.sys.clock request d.sys.db =
      .ok ⟨.jwt, params, route⟩ d.sys.db) :
    ∃ jwt : HandedJwt, request.xJwt = some jwt.text ∧ route.id = jwt.routeId ∧
      server.jwtConfig.Accepts jwt.issued none d.sys.clock ∧
      ∃ root ∈ log, Lineage server.jwtConfig d.calls root jwt := by
  obtain ⟨xJwt, claims, hx, hdecode, hsub, -, -⟩ := admission_ok hguard
  obtain ⟨hverified, hvalid⟩ := decodeJwt_eq_ok.mp hdecode
  have hpresented : presented d (.advance i) = some xJwt := by
    simp only [presented, hcall, hx]
  obtain ⟨call, hmem, jwt, hhands, rfl⟩ := hunforged xJwt claims hpresented hverified
  obtain ⟨signer, hid, hjwt⟩ := h.signed call hmem jwt hhands
  have hclaims := hdoc.verifies _ _ _ _ hjwt
  rw [show server.rfc.decode jwt.text server.jwtConfig.jwks.keys = .ok claims
    from hverified] at hclaims
  cases hclaims
  have hroute : signer.id = route.id := Except.ok.inj hsub
  exact ⟨jwt, hx, hroute.symm.trans hid, hdoc.timely _ _ _ _ hvalid, h.handed call hmem jwt hhands⟩

/-- **One activity** hands out JWTs that descend from those before. -/
theorem act_lineal (hdoc : server.rfc.Documented server.jwtConfig) {e : Activity}
    (h : d.Lineal server log) (hunforged : Unforged server d e)
    (hact : act server table d e = some d') :
    d'.Lineal server (log ++ passages server d e) := by
  have hmono : ∀ {jwt}, (∃ root ∈ log, Lineage server.jwtConfig d.calls root jwt) →
      ∃ root ∈ log ++ passages server d e, Lineage server.jwtConfig d'.calls root jwt := by
    rintro jwt ⟨root, hroot, hlineage⟩
    exact ⟨root, List.mem_append_left _ hroot,
      hlineage.mono fun call hcall _ hhands => act_answered hact hcall hhands⟩
  refine ⟨act_vouched hact h.vouched, fun call hcall jwt hhands => ?_,
    fun call hcall jwt hhands => ?_, fun call hcall since params route hstage => ?_⟩
  · rcases act_calls hact hcall with hold | harrived | ⟨i, before, b, -, -, hproceeds, -, hsame⟩
    · exact h.signed call hold jwt hhands
    · rw [InFlight.hands, harrived] at hhands
      cases hhands
    · rw [hsame] at hhands
      exact (hproceeds.hands hhands).1
  · rcases act_calls hact hcall with
      hold | harrived | ⟨i, before, b, -, hbefore, hproceeds, -, hsame⟩
    · exact hmono (h.handed call hold jwt hhands)
    · rw [InFlight.hands, harrived] at hhands
      cases hhands
    · have hmem := List.mem_of_getElem? hbefore
      have hrequest : call.request = before.request := by rw [hsame]
      rcases (hproceeds.hands (hsame ▸ hhands)).2 with
        ⟨since, params, user, data, community, hlocated, hpassed⟩ |
          ⟨since, params, route, hadmitted, hpassed, hid⟩
      · obtain ⟨s, hlog⟩ := h.vouched before hmem since ⟨.register, params, user⟩
          (by rw [hlocated]; rfl)
        exact ⟨_, List.mem_append_left _ hlog, .registered hcall hrequest hpassed rfl hhands⟩
      · obtain ⟨old, hx, hold, hwindow, hlineage⟩ :=
          h.waiting before hmem since params route hadmitted
        obtain ⟨root, hroot, hlineage⟩ := hmono hlineage
        exact ⟨root, hroot, .rotated hlineage hcall (hrequest ▸ hx) hpassed hwindow
          (hid.symm.trans hold) hhands⟩
  · rcases act_calls hact hcall with
      hold | harrived | ⟨i, before, b, rfl, hbefore, hproceeds, -, hsame⟩
    · obtain ⟨jwt, hx, hid, hwindow, hlineage⟩ := h.waiting call hold since params route hstage
      exact ⟨jwt, hx, hid, hwindow, hmono hlineage⟩
    · cases harrived.symm.trans hstage
    · have hrequest : call.request = before.request := by rw [hsame]
      rw [hstage] at hproceeds
      cases hproceeds with
      | admitted harrived hguard =>
        obtain ⟨env, request, stage⟩ := before
        obtain rfl : stage = .arrived := harrived
        obtain ⟨jwt, hx, hid, hwindow, hlineage⟩ := h.admits hdoc hbefore hunforged hguard
        exact ⟨jwt, hrequest ▸ hx, hid, hwindow, hmono hlineage⟩

/-- **Each JWT goes back to a registration.** In any run of a deployment that starts without
requests in flight and in which no JWT is forged, whatever requests there are: a JWT that is handed
out comes, by rotations that each presented the JWT before it in its window, from the answer to a
registration of the route, which was let through for a user that the token service vouched for. -/
theorem jwts_descend (server : Server) (table : TaskTable)
    (hdoc : server.rfc.Documented server.jwtConfig) (d d' : Deployment) (es : List Activity)
    (hcalls : d.calls = []) (hunforged : Along (act server table) (Unforged server) d es)
    (hrun : run (act server table) d es = some d') (call : InFlight) (hcall : call ∈ d'.calls)
    (jwt : HandedJwt) (hhands : call.hands = some jwt) :
    ∃ root ∈ record (act server table) (passages server) d es,
      root.Checked server ∧ Lineage server.jwtConfig d'.calls root jwt := by
  have hstart : d.Lineal server [] := by
    constructor <;>
    · intro call hcall
      rw [hcalls] at hcall
      cases hcall
  have hkeep : ∀ (log : List Passage) (d₁ : Deployment) (e : Activity) (d₂ : Deployment),
      d₁.Lineal server log → Unforged server d₁ e → act server table d₁ e = some d₂ →
      d₂.Lineal server (log ++ passages server d₁ e) :=
    fun log d₁ e d₂ h hunforged hact => act_lineal hdoc h hunforged hact
  have hend : d'.Lineal server (record (act server table) (passages server) d es) :=
    run_records (I := fun log d₁ => d₁.Lineal server log) hkeep hunforged hrun hstart
  obtain ⟨root, hroot, hlineage⟩ := hend.handed call hcall jwt hhands
  obtain ⟨es₁, e, es₂, d₁, -, -, hpassage⟩ := mem_record hroot
  exact ⟨root, hroot, mem_passages hpassage, hlineage⟩

end Runs

/-- The JWTs of a site, from its registration and from an hour later. -/
def siteJwts : List KnownJwt :=
  [⟨"first.jwt", "new", 0, Time.addSeconds 0 3600⟩,
    ⟨"second.jwt", "new", Time.addSeconds 0 3600, Time.addSeconds 0 7200⟩]

def rotateSite : HttpRequest where
  method := .post
  path := "/api/v1/jwt".toList
  xJwt := some "first.jwt"

/-- Alice registers a site, whose JWT is rotated an hour later. -/
def registerAndRotate : List Activity :=
  [.arrive calmEnv siteRegistration, .advance 0, .advance 0, .advance 0,
    .background (.tick (Time.addSeconds 0 3600)), .arrive calmEnv rotateSite, .advance 1,
    .advance 1]

/-- The second JWT goes back to her registration. -/
theorem jwts_descend_site : ∃ d' root,
    run (act (smallServer siteJwts) {}) launched registerAndRotate = some d' ∧
      root.Checked (smallServer siteJwts) ∧
      Lineage (hourly siteJwts) d'.calls root ⟨"new", Time.addSeconds 0 3600, "second.jwt"⟩ := by
  have hunforged : Along (act (smallServer siteJwts) {}) (fun d e => (presented d e).all fun x =>
      d.calls.any fun call => decide (call.hands.map HandedJwt.text = some x))
      launched registerAndRotate := by
    decide +kernel
  have hends : (match run (act (smallServer siteJwts) {}) launched
        registerAndRotate with
      | some d => d.calls.any fun call =>
          decide (call.hands = some ⟨"new", Time.addSeconds 0 3600, "second.jwt"⟩)
      | none => false) = true := by
    decide +kernel
  cases hrun : run (act (smallServer siteJwts) {}) launched
      registerAndRotate with
  | none =>
    rw [hrun] at hends
    cases hends
  | some d' =>
    rw [hrun] at hends
    obtain ⟨call, hcall, hhands⟩ := List.any_eq_true.mp hends
    have hdoc : (smallServer siteJwts).rfc.Documented (smallServer siteJwts).jwtConfig :=
      Joserfc.ofTable_documented siteJwts (by decide) (hourly siteJwts)
    have hunforged : Along (act (smallServer siteJwts) {}) (Unforged (smallServer siteJwts))
        launched registerAndRotate := by
      refine hunforged.imp fun d e hall xJwt claims hpresented _ => ?_
      rw [hpresented] at hall
      obtain ⟨call, hcall, htext⟩ := List.any_eq_true.mp hall
      exact ⟨call, hcall, Option.map_eq_some_iff.mp (of_decide_eq_true htext)⟩
    obtain ⟨root, -, hchecked, hlineage⟩ := jwts_descend (smallServer siteJwts) {} hdoc
      launched d' registerAndRotate rfl hunforged hrun call hcall _
      (of_decide_eq_true hhands)
    exact ⟨d', root, rfl, hchecked, hlineage⟩

end RouteRegistry
