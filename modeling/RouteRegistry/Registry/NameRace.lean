import RouteRegistry.Registry.Concurrent
import RouteRegistry.Registry.Ownership
import RouteRegistry.Registry.Transactions

/-!
# Two registrations of one name

`register_route` looks its `src` up and later inserts it. Two calls can both find it
free, and then the unique constraint stops the one that commits last. The exception it
meets is the unit of work's `AlreadyExists`, which neither `register_route` nor the
endpoint catches.

- `Registering`: what a registration may do to the store while another one is at work.
- `Decides`: what a call has decided on the last view it read (`registers_concludes`).
- `Race`: both calls are past their last query, and the name is still free.
- `registerRace_iff`: every call gets a proper answer exactly when that never happens.
-/

namespace RouteRegistry

open Relational UnitOfWork Runs

/-- A call of `register_route` with what it draws. -/
structure RegisterCall where
  reg : Registration
  draws : Draws
deriving DecidableEq, Repr

def RegisterCall.body (c : RegisterCall) : Session Route := registerRouteBody c.reg c.draws

/-- A registration leaves all its changes to the commit. -/
theorem RegisterCall.body_plain (c : RegisterCall) : c.body.Queues fun c => c.finds = none :=
  queues_registerRouteBody (fun _ => rfl) (fun _ => rfl) (fun _ _ => rfl) (fun _ => rfl)
    fun _ => rfl

/-- A registration that nobody interferes with does what `register_route` does in one go. -/
theorem registerCall_alone (eng : Engine) (db : Database) (c : RegisterCall) :
    ∃ n db' x p', run (readCommitted eng).move ⟨db, [.begin RegisterCall.body db.store c]⟩
        (List.replicate n 0) = some ⟨db', [p']⟩ ∧
      p'.outcome = some x ∧ registerRoute eng c.reg c.draws db = Isolation.result db' x :=
  withUOW_alone_plain c.body_plain

/-! ## What another registration may do -/

/-- Registrations leave users, domains and communities alone. Routes keep their `src`, and
nobody loses a route. -/
structure Registering (v v' : Store) : Prop where
  valid : v.Valid → v'.Valid
  users : v'.users = v.users
  domains : v'.domains = v.domains
  communities : v'.communities = v.communities
  routes : ∀ r ∈ v.routes, ∃ r' ∈ v'.routes, r'.id = r.id ∧ r'.src = r.src
  ownerships : ∀ o ∈ v.ownerships, o ∈ v'.ownerships

def registering : Rely Store where
  Keeps := Registering
  refl v := ⟨id, rfl, rfl, rfl, fun r hr => ⟨r, hr, rfl, rfl⟩, fun _ ho => ho⟩
  trans {v v' v''} h h' := by
    refine ⟨h'.valid ∘ h.valid, h'.users.trans h.users, h'.domains.trans h.domains,
      h'.communities.trans h.communities, fun r hr => ?_,
      fun o ho => h'.ownerships o (h.ownerships o ho)⟩
    obtain ⟨r', hr', hid, hsrc⟩ := h.routes r hr
    obtain ⟨r'', hr'', hid', hsrc'⟩ := h'.routes r' hr'
    exact ⟨r'', hr'', hid'.trans hid, hsrc'.trans hsrc⟩

/-- The name is in use. -/
def Store.Taken (s : Store) (src : String) : Prop := src ∈ s.routes.map Route.src

section Keeps

variable {v v' : Store} {src : String} {c : RegisterCall} {d : Domain} {u : User}

theorem Registering.taken (h : Registering v v') (ht : v.Taken src) : v'.Taken src := by
  obtain ⟨r, hr, rfl⟩ := List.mem_map.mp ht
  obtain ⟨r', hr', -, hsrc⟩ := h.routes r hr
  exact List.mem_map.mpr ⟨r', hr', hsrc⟩

/-- Which domain is found depends on the domains only. -/
theorem steady_findDomain {R : Rely Store} (hR : ∀ v v', R.Keeps v v' → v'.domains = v.domains)
    (domainName : Option String) : (findDomain domainName).Steady R := by
  refine Txn.steady_bind (steady_queryOne hR _) fun d => ?_
  cases d with
  | some d => exact .ret d
  | none =>
    refine Txn.steady_bind (steady_queryOne hR _) fun d => ?_
    cases d with
    | some d => exact .ret d
    | none => exact .throw _

theorem steady_getUser (uid : Option String) : (EntityRepo.getUser uid).Steady registering := by
  refine Txn.steady_bind (steady_queryOne (R := registering) (fun _ _ h => h.users) _) fun u => ?_
  cases u with
  | some u => exact .ret u
  | none => exact .throw _

theorem Store.domainFor_congr (h : v'.domains = v.domains) (domainName : Option String) :
    v'.domainFor domainName = v.domainFor domainName :=
  congrArg Prod.fst
    ((steady_findDomain (R := .same Store.domains) (fun _ _ h => h) domainName).run h)

theorem Registering.domainFor (h : Registering v v') (domainName : Option String) :
    v'.domainFor domainName = v.domainFor domainName :=
  Store.domainFor_congr h.domains domainName

theorem Registering.userOf (h : Registering v v') (uid : Option String) :
    v'.userOf uid = v.userOf uid := by
  unfold Store.userOf
  rw [h.users]

/-- A call goes on resolving as it did. -/
theorem Registering.resolves (h : Registering v v')
    (hres : Resolves v c.reg c.draws d u src) : Resolves v' c.reg c.draws d u src :=
  ⟨(h.domainFor _).trans hres.domain, (h.userOf _).trans hres.user, hres.url⟩

end Keeps

/-! ## What a call decides -/

/-- What a call has decided on the view `v`, with its changes. -/
inductive Decides (src : String) (c : RegisterCall) (v : Store) :
    Except Exc Route → List Change → Prop where
  | refused {d : Domain} {u : User} {msg : String} (h : Resolves v c.reg c.draws d u src)
    (hwhy : v.Taken src ∨ d.restricted = true) :
    Decides src c v (.error ⟨.notAllowed, msg, none⟩) []
  | rebound {d : Domain} {u : User} {r : Route} (h : Resolves v c.reg c.draws d u src)
    (hr : ∃ r' ∈ v.routes, r'.id = r.id ∧ r'.src = src) (hown : u.id ∈ v.owners r.id) :
    Decides src c v (.ok (r.rebind c.reg.community c.draws.now))
      ((rebindAttrs r c.reg.community c.draws.now).map (.setRoute r.id))
  | created {d : Domain} {u : User} (h : Resolves v c.reg c.draws d u src)
    (hr : ¬ v.Taken src) (hd : d.restricted = false) :
    Decides src c v (.ok (newRoute d src c.reg c.draws))
      [.addRoute (newRoute d src c.reg c.draws),
        .addOwnership ⟨u.id, (newRoute d src c.reg c.draws).id⟩]

theorem reads_rebindRoute (route : Route) (community : Option Community) (now : Time) :
    (rebindRoute route community now).reads = false := by
  unfold rebindRoute
  cases community with
  | none => rfl
  | some c => cases route.communityId <;> rfl

/-- **What a call decides while others register**: it looks its name up once, and what it
does fits the last view it has read. -/
theorem registers_concludes {src : String} {c : RegisterCall} {v : Store} {d : Domain} {u : User}
    (hv : v.Valid) (hres : Resolves v c.reg c.draws d u src) :
    c.body.Concludes registering (Decides src c) v [] := by
  unfold RegisterCall.body registerRouteBody
  have hfind : (findDomain c.reg.domainName).run v = (.ok d, []) :=
    (run_findDomain hv _).1.trans (by rw [hres.domain])
  refine (steady_findDomain (R := registering) (fun _ _ h => h.domains) _).concludes_bind hfind ?_
  intro v₁ h₁
  have hv₁ : v₁.Valid := h₁.valid hv
  have hres₁ := h₁.resolves hres
  refine (steady_getUser _).concludes_bind (EntityRepo.run_getUser_some hv₁ hres₁.user) ?_
  intro v₂ h₂
  have hurl : d.createSrcUrl c.reg.routeName (some u) c.reg.bindSubdomain c.draws.nameId =
      .ok src := by
    rw [d.createSrcUrl_some, hres.url]
  rw [hurl]
  have hv₂ : v₂.Valid := h₂.valid hv₁
  have hres₂ := h₂.resolves hres₁
  show (RouteRepo.getBySrc src >>= _).Concludes registering (Decides src c) v₂ []
  refine concludes_queryOne (fun v₃ h₃ => (h₃.valid hv₂).routeSrcs) fun v₃ h₃ => ?_
  have hres₃ := h₃.resolves hres₂
  cases hr : lookup Route.src src v₃.routes with
  | some r =>
    obtain ⟨hmem, hsrc⟩ := lookup_mem hr
    refine .read ?_
    intro v₄ h₄
    have hres₄ := h₄.resolves hres₃
    obtain ⟨r', hr', hid, hsrc'⟩ := h₄.routes r hmem
    show (if u.id ∉ v₄.owners r.id then _ else _ : Session Route).Concludes _ _ _ _
    by_cases hown : u.id ∈ v₄.owners r.id
    · rw [if_neg (not_not.mpr hown)]
      refine (Txn.concludes_iff (reads_rebindRoute _ _ _)).mpr ?_
      rw [run_rebindRoute]
      exact .rebound hres₄ ⟨r', hr', hid, hsrc'.trans hsrc⟩ hown
    · rw [if_pos hown]
      exact .throw (.refused hres₄ (.inl (h₄.taken (List.mem_map.mpr ⟨r, hmem, hsrc⟩))))
  | none =>
    have hfree : ¬ v₃.Taken src := Store.routeOfSrc_none hr
    show (if d.restricted = true then _ else _ : Session Route).Concludes _ _ _ _
    by_cases hd : d.restricted = true
    · rw [if_pos hd]
      exact .throw (.refused hres₃ (.inr hd))
    · rw [if_neg hd]
      refine (Txn.concludes_iff rfl).mpr ?_
      exact .created hres₃ hfree (eq_false_of_ne_true hd)

/-! ## What a call commits -/

/-- No stored route has the id or the token a call has drawn. -/
def Store.FreshDraws (s : Store) (draws : Draws) : Prop :=
  draws.routeId ∉ s.routeIds ∧ draws.token ∉ s.routes.map Route.token

/-- The call generates `src`, its draws are new, and the community it is given is stored. -/
structure RegisterCall.Ready (src : String) (s : Store) (c : RegisterCall) : Prop where
  resolves : ∃ d u, Resolves s c.reg c.draws d u src
  fresh : s.FreshDraws c.draws
  community : ∀ community, c.reg.community = some community → community.id ∈ s.communityIds

/-- What a call can write. -/
def RegisterCall.mayQueue (c : RegisterCall) : Change → Prop
  | .addRoute r => r.id = c.draws.routeId ∧ r.token = c.draws.token
  | .addOwnership _ => True
  | .setRoute _ _ => True
  | _ => False

section Commit

variable {src : String} {c c' : RegisterCall} {v s s' : Store} {x : Except Exc Route}
  {Δ : List Change} {a : Route}

theorem Decides.mayQueue (h : Decides src c v x Δ) : ∀ ch ∈ Δ, c.mayQueue ch := by
  intro ch hch
  cases h with
  | refused _ _ => cases hch
  | rebound _ _ _ =>
    obtain ⟨attr, -, rfl⟩ := List.mem_map.mp hch
    trivial
  | created _ _ _ =>
    simp only [List.mem_cons, List.not_mem_nil, or_false] at hch
    rcases hch with rfl | rfl
    · exact ⟨rfl, rfl⟩
    · trivial

/-- A commit does what the other call relies on. -/
theorem flush_registering (hΔ : ∀ ch ∈ Δ, c.mayQueue ch) (hf : flush s Δ = .ok s') :
    Registering s s' := by
  have hkept : s'.users = s.users ∧ s'.domains = s.domains ∧ s'.communities = s.communities ∧
      (∀ r ∈ s.routes, ∃ r' ∈ s'.routes, r'.id = r.id ∧ r'.src = r.src) ∧
      ∀ o ∈ s.ownerships, o ∈ s'.ownerships := by
    refine flush_keeps (I := fun s' => s'.users = s.users ∧ s'.domains = s.domains ∧
      s'.communities = s.communities ∧
      (∀ r ∈ s.routes, ∃ r' ∈ s'.routes, r'.id = r.id ∧ r'.src = r.src) ∧
      ∀ o ∈ s.ownerships, o ∈ s'.ownerships) ?_ hf
      ⟨rfl, rfl, rfl, fun r hr => ⟨r, hr, rfl, rfl⟩, fun _ ho => ho⟩
    rintro s₁ ⟨husers, hdomains, hcommunities, hroutes, howners⟩ ch hch
    have hmay := hΔ ch hch
    cases ch with
    | addRoute r =>
      refine ⟨husers, hdomains, hcommunities, fun r₀ hr₀ => ?_, howners⟩
      obtain ⟨r₁, hr₁, hkept⟩ := hroutes r₀ hr₀
      exact ⟨r₁, List.mem_append_left _ hr₁, hkept⟩
    | addOwnership o =>
      exact ⟨husers, hdomains, hcommunities, hroutes,
        fun o' ho' => List.mem_append_left _ (howners o' ho')⟩
    | setRoute id attr =>
      refine ⟨husers, hdomains, hcommunities, fun r₀ hr₀ => ?_, howners⟩
      obtain ⟨r₁, hr₁, hid, hsrc⟩ := hroutes r₀ hr₀
      by_cases hrow : r₁.id = id
      · exact ⟨attr.set r₁, mem_modify.mpr (.inr ⟨r₁, hr₁, hrow, rfl⟩), by simp [hid], by simp [hsrc]⟩
      · exact ⟨r₁, mem_modify.mpr (.inl ⟨hr₁, hrow⟩), hid, hsrc⟩
    | _ => exact hmay.elim
  obtain ⟨husers, hdomains, hcommunities, hroutes, howners⟩ := hkept
  exact ⟨fun hv => flush_valid hv hf, husers, hdomains, hcommunities, hroutes, howners⟩

/-- A commit leaves the draws of another call new. -/
theorem flush_freshDraws (hΔ : ∀ ch ∈ Δ, c.mayQueue ch) (hf : flush s Δ = .ok s')
    (hid : c.draws.routeId ≠ c'.draws.routeId) (htoken : c.draws.token ≠ c'.draws.token)
    (h : s.FreshDraws c'.draws) : s'.FreshDraws c'.draws := by
  refine flush_keeps (I := fun s => s.FreshDraws c'.draws) ?_ hf h
  rintro s₁ ⟨hid₁, htoken₁⟩ ch hch
  have hmay := hΔ ch hch
  cases ch with
  | addRoute r =>
    obtain ⟨hrid, hrtoken⟩ := hmay
    have happend : ∀ (key : Route → String) (k : String), k ∉ s₁.routes.map key → key r ≠ k →
        k ∉ (s₁.routes ++ [r]).map key := by
      intro key k hold hne hmem
      rw [List.map_append, List.mem_append, List.map_singleton, List.mem_singleton] at hmem
      rcases hmem with hmem | hmem
      · exact hold hmem
      · exact hne hmem.symm
    exact ⟨happend Route.id _ hid₁ fun h => hid (hrid.symm.trans h),
      happend Route.token _ htoken₁ fun h => htoken (hrtoken.symm.trans h)⟩
  | addOwnership o => exact ⟨hid₁, htoken₁⟩
  | setRoute id attr =>
    have hids : (modify Route.id id attr.set s₁.routes).map Route.id = s₁.routeIds :=
      map_modify Route.id id attr.set_id s₁.routes
    have htokens : (modify Route.id id attr.set s₁.routes).map Route.token =
        s₁.routes.map Route.token := map_modify Route.id id attr.set_token s₁.routes
    refine ⟨fun hmem => hid₁ ?_, fun hmem => htoken₁ ?_⟩
    · exact hids ▸ hmem
    · exact htokens ▸ hmem
  | _ => exact hmay.elim

/-- A call goes on being ready while another one commits. -/
theorem RegisterCall.Ready.keeps (h : c'.Ready src s) (hkeeps : Registering s s')
    (hfresh : s'.FreshDraws c'.draws) : c'.Ready src s' := by
  obtain ⟨d, u, hres⟩ := h.resolves
  refine ⟨⟨d, u, hkeeps.resolves hres⟩, hfresh, fun community hc => ?_⟩
  unfold Store.communityIds
  rw [hkeeps.communities]
  exact h.community community hc

/-- A call gets a proper answer: a stored route of its caller, or one of the exceptions the
endpoint catches. -/
def Answers (s : Store) (src : String) (c : RegisterCall) : Except Exc Route → Prop
  | .ok r => (∃ r' ∈ s.routes, r'.id = r.id ∧ r'.src = src) ∧
      ∃ u, s.userOf (some c.reg.userUid) = some u ∧ u.id ∈ s.owners r.id
  | .error e => e.isInstance .notFound = true ∨ e.isInstance .alreadyExists = true ∨
      e.isInstance .notAllowed = true

theorem Answers.keeps (h : Answers s src c x) (hkeeps : Registering s s') :
    Answers s' src c x := by
  cases x with
  | error e => exact h
  | ok r =>
    obtain ⟨⟨r', hr', hid, hsrc⟩, u, hu, hown⟩ := h
    obtain ⟨r'', hr'', hid', hsrc'⟩ := hkeeps.routes r' hr'
    refine ⟨⟨r'', hr'', hid'.trans hid, hsrc'.trans hsrc⟩, u, (hkeeps.userOf _).trans hu, ?_⟩
    exact Store.mem_owners.mpr (hkeeps.ownerships _ (Store.mem_owners.mp hown))

/-- What became of the changes of a call, in the store as it is at the commit: they go
through and give the call its answer, or the name has been taken since it was looked up. -/
theorem Decides.flush_cases (h : Decides src c v (.ok a) Δ) (hkeeps : Registering v s)
    (hv : s.Valid) (hready : c.Ready src s) :
    ((s.Taken src → v.Taken src) ∧ ∃ s', flush s Δ = .ok s' ∧ Answers s' src c (.ok a)) ∨
      (¬ v.Taken src ∧ s.Taken src ∧ flush s Δ = .error (.integrity .unique)) := by
  have hΔ := h.mayQueue
  cases h with
  | @rebound d u r hres hr hown =>
    obtain ⟨r₁, hr₁, hid₁, hsrc₁⟩ := hr
    obtain ⟨r₂, hr₂, hid₂, hsrc₂⟩ := hkeeps.routes r₁ hr₁
    have hid : r.id ∈ s.routeIds := List.mem_map.mpr ⟨r₂, hr₂, hid₂.trans hid₁⟩
    have hf := flush_rebind (r := r) c.reg.community c.draws.now hid hready.community
    have hkeeps' := flush_registering hΔ hf
    obtain ⟨r₃, hr₃, hid₃, hsrc₃⟩ := hkeeps'.routes r₂ hr₂
    have htaken : v.Taken src := List.mem_map.mpr ⟨r₁, hr₁, hsrc₁⟩
    refine .inl ⟨fun _ => htaken, _, hf, ⟨r₃, hr₃, ?_, hsrc₃.trans (hsrc₂.trans hsrc₁)⟩, u, ?_, ?_⟩
    · rw [Route.rebind_id]
      exact hid₃.trans (hid₂.trans hid₁)
    · exact ((hkeeps'.resolves (c := c) (hkeeps.resolves hres))).user
    · rw [Route.rebind_id, Store.owners_withAttrs]
      exact Store.mem_owners.mpr (hkeeps.ownerships _ (Store.mem_owners.mp hown))
  | @created d u hres hfree hd =>
    have hres' := hkeeps.resolves hres
    by_cases htaken : s.Taken src
    · exact .inr ⟨hfree, htaken, flush_newRoute_taken htaken⟩
    · have hdomain : (newRoute d src c.reg c.draws).domainId ∈ s.domainIds :=
        List.mem_map.mpr ⟨d, hres'.domain_mem hv, rfl⟩
      have hcommunity : ∀ id, (newRoute d src c.reg c.draws).communityId = some id →
          id ∈ s.communityIds := by
        intro id hid
        obtain ⟨community, hcomm, rfl⟩ := Option.map_eq_some_iff.mp hid
        exact hready.community community hcomm
      have hf := flush_newRoute (r := newRoute d src c.reg c.draws) hv hready.fresh htaken hdomain
        (Store.user_mem_entityIds hres'.user_mem.1) hcommunity
      refine .inl ⟨fun ht => absurd ht htaken, _, hf,
        ⟨newRoute d src c.reg c.draws, ?_, rfl, rfl⟩, u, hres'.user, ?_⟩
      · exact List.mem_append_right _ (List.mem_singleton.mpr rfl)
      · rw [Store.owners_withRoute, if_pos rfl]
        exact List.mem_append_right _ (List.mem_singleton.mpr rfl)

end Commit

/-! ## Two calls -/

/-- Two calls that have just started. -/
def twoCalls (db : Database) (c₁ c₂ : RegisterCall) : Sessions RegisterCall Route :=
  ⟨db, [.begin RegisterCall.body db.store c₁, .begin RegisterCall.body db.store c₂]⟩

/-- New routes may be registered in the domain of the call. -/
def Unrestricted (s : Store) (c : RegisterCall) : Prop :=
  ∀ d, s.domainFor c.reg.domainName = .ok d → d.restricted = false

/-- The call is past its last query and can still insert. -/
def Inserting (s : Store) (p : Running RegisterCall Route) : Prop :=
  p.outcome = none ∧ p.rest.reads = false ∧ Unrestricted s p.call

/-- All calls are past their last query while the name is free. -/
def Race (src : String) (w : Sessions RegisterCall Route) : Prop :=
  ¬ w.db.store.Taken src ∧ ∀ p ∈ w.sessions, Inserting w.db.store p

/-- What holds of a call at every step. -/
structure Caller (eng : Engine) (src : String) (s : Store) (p : Running RegisterCall Route) :
    Prop where
  sound : p.Sound registering (Decides src) s
  plain : p.Plain (readCommitted eng)
  ready : p.outcome = none → p.call.Ready src s

structure Callers (eng : Engine) (src : String) (db : Database)
    (p q : Running RegisterCall Route) : Prop where
  left : Caller eng src db.store p
  right : Caller eng src db.store q
  ids : p.call.draws.routeId ≠ q.call.draws.routeId
  tokens : p.call.draws.token ≠ q.call.draws.token

section Race

variable {eng : Engine} {src : String} {db db' : Database} {p p' q : Running RegisterCall Route}
  {blocked gone : List Rule} {a : Route} {s s' : Store} {c : RegisterCall}

theorem Callers.symm (h : Callers eng src db p q) : Callers eng src db q p :=
  ⟨h.right, h.left, h.ids.symm, h.tokens.symm⟩

theorem Unrestricted.keeps (h : Registering s s') : Unrestricted s' c ↔ Unrestricted s c := by
  unfold Unrestricted
  rw [h.domainFor]

theorem Inserting.keeps (h : Registering s s') : Inserting s' p ↔ Inserting s p := by
  unfold Inserting
  rw [Unrestricted.keeps h]

/-- A call raises because it is not allowed. -/
theorem Decides.of_error {v : Store} {Δ : List Change} {e : Exc}
    (h : Decides src c v (.error e) Δ) :
    (∃ msg, e = ⟨.notAllowed, msg, none⟩) ∧
      (v.Taken src ∨ ∃ d, v.domainFor c.reg.domainName = .ok d ∧ d.restricted = true) := by
  cases h with
  | @refused d u msg hres hwhy =>
    exact ⟨⟨msg, rfl⟩, hwhy.imp_right fun hd => ⟨d, hres.domain, hd⟩⟩

/-- A call that inserts has an unrestricted domain. -/
theorem Decides.unrestricted {v : Store} {Δ : List Change} (h : Decides src c v (.ok a) Δ)
    (hfree : ¬ v.Taken src) : Unrestricted v c := by
  cases h with
  | rebound hres hr hown =>
    obtain ⟨r, hr, -, hsrc⟩ := hr
    exact absurd (List.mem_map.mpr ⟨r, hr, hsrc⟩) hfree
  | created hres hr hd =>
    intro d hd'
    cases hres.domain.symm.trans hd'
    exact hd

/-- A move of one call keeps both going. -/
theorem Callers.advance (h : Callers eng src db p q) (hout : p.outcome = none)
    (hadv : (readCommitted eng).Advanced blocked db p db' gone p') :
    Callers eng src db' p' q ∧ Registering db.store db'.store ∧ gone = [] := by
  obtain ⟨hgone, hplain⟩ := h.left.plain.advance hadv
  have hcall : p'.call = p.call := hadv.call
  have hcommit : Registering db.store db'.store ∧
      (q.outcome = none → db'.store.FreshDraws q.call.draws) ∧
      (p'.outcome = none → db'.store.FreshDraws p.call.draws) := by
    cases hadv with
    | committed hwait hret hcommit =>
      rw [plain_commit _ h.left.plain] at hcommit
      have hf := eng.committed _ _ _ hcommit
      have hΔ := (h.left.sound.ret hout hret).2.mayQueue
      refine ⟨flush_registering hΔ hf, fun hq => ?_, fun hp => by cases hp⟩
      exact flush_freshDraws hΔ hf h.ids h.tokens (h.right.ready hq).fresh
    | _ =>
      exact ⟨registering.refl _, fun hq => (h.right.ready hq).fresh,
        fun _ => (h.left.ready hout).fresh⟩
  obtain ⟨hkeeps, hfresh, hfresh'⟩ := hcommit
  refine ⟨⟨⟨h.left.sound.advance hout hadv hkeeps, hplain, fun hp => ?_⟩,
    ⟨h.right.sound.mono hkeeps, h.right.plain,
      fun hq => (h.right.ready hq).keeps hkeeps (hfresh hq)⟩,
    ?_, ?_⟩, hkeeps, hgone⟩
  · rw [hcall]
    exact (h.left.ready hout).keeps hkeeps (hfresh' hp)
  · rw [hcall]
    exact h.ids
  · rw [hcall]
    exact h.tokens

/-- What the commit of a call meets: its changes go through, or the name has been taken
since it was looked up. -/
theorem Caller.commit_cases (h : Caller eng src db.store p) (hrel : eng.Reliable)
    (hcommit : p.AtCommit a) :
    ((db.store.Taken src → p.seen.Taken src) ∧ ∃ db', eng.commit db p.passed = .ok db' ∧
        Answers db'.store src p.call (.ok a)) ∨
      (¬ p.seen.Taken src ∧ db.store.Taken src ∧
        flush db.store p.passed = .error (.integrity .unique)) := by
  obtain ⟨hout, -, hret⟩ := hcommit
  obtain ⟨hkeeps, hdecides⟩ := h.sound.ret hout hret
  rcases hdecides.flush_cases hkeeps db.valid (h.ready hout) with ⟨hup, s', hf, hans⟩ | hlate
  · obtain ⟨db', hc⟩ := hrel db p.passed s' hf
    have hdb : db'.store = s' := Except.ok.inj ((eng.committed _ _ _ hc).symm.trans hf)
    exact .inl ⟨hup, db', hc, hdb ▸ hans⟩
  · exact .inr hlate

theorem Caller.inserting (h : Caller eng src db.store p) (hcommit : p.AtCommit a)
    (hfree : ¬ p.seen.Taken src) : Inserting db.store p := by
  obtain ⟨hout, -, hret⟩ := hcommit
  obtain ⟨hkeeps, hdecides⟩ := h.sound.ret hout hret
  refine ⟨hout, ?_, (Unrestricted.keeps hkeeps).mpr (hdecides.unrestricted hfree)⟩
  rw [hret]
  rfl

/-! ### Runs without a race -/

/-- A call that has ended has got its answer, and one that can still insert has seen
whether the name is taken. -/
structure Served (src : String) (s : Store) (p : Running RegisterCall Route) : Prop where
  answers : ∀ x, p.outcome = some x → Answers s src p.call x
  upToDate : Inserting s p → s.Taken src → p.seen.Taken src

/-- What a call meets that cannot have been overtaken. -/
theorem served_advance (hrel : eng.Reliable) (h : Callers eng src db p q)
    (hp : Served src db.store p) (hq : Served src db.store q) (hno : ¬ Race src ⟨db, [p, q]⟩)
    (hout : p.outcome = none) (hadv : (readCommitted eng).Advanced blocked db p db' gone p') :
    Served src db'.store p' ∧ Served src db'.store q := by
  cases hadv with
  | locked hwait _ =>
    rw [h.left.plain.1] at hwait
    cases hwait
  | queried _ _ => exact ⟨⟨fun x hx => hp.answers x hx, fun _ ht => ht⟩, hq⟩
  | queued _ hrest =>
    refine ⟨⟨fun x hx => hp.answers x hx, fun hins ht => hp.upToDate ⟨hout, ?_, hins.2.2⟩ ht⟩, hq⟩
    rw [hrest]
    exact hins.2.1
  | raised _ hrest =>
    refine ⟨⟨fun x hx => ?_, fun hins => by cases hins.1⟩, hq⟩
    cases hx
    obtain ⟨⟨msg, rfl⟩, -⟩ := (h.left.sound.throw hout hrest).of_error
    exact .inr (.inr rfl)
  | @committed a _ hwait hret hcommit =>
    have hat : p.AtCommit a := ⟨hout, hwait, hret⟩
    rw [plain_commit _ h.left.plain] at hcommit
    have hkeeps := flush_registering (h.left.sound.ret hout hret).2.mayQueue
      (eng.committed _ _ _ hcommit)
    rcases h.left.commit_cases hrel hat with ⟨hup, db'', hc, hans⟩ | ⟨-, -, hf⟩
    · cases hcommit.symm.trans hc
      refine ⟨⟨fun x hx => ?_, fun hins => by cases hins.1⟩,
        ⟨fun x hx => (hq.answers x hx).keeps hkeeps, fun hins _ => ?_⟩⟩
      · cases hx
        exact hans
      · have hins' := (Inserting.keeps hkeeps).mp hins
        by_cases ht : db.store.Taken src
        · exact hq.upToDate hins' ht
        · -- both were past their last query, and the name was free
          refine absurd ⟨ht, fun r hr => ?_⟩ hno
          have hfree : ¬ p.seen.Taken src := fun hs => ht ((h.left.sound.ret hout hret).1.taken hs)
          simp only [List.mem_cons, List.not_mem_nil, or_false] at hr
          rcases hr with rfl | rfl
          · exact h.left.inserting hat hfree
          · exact hins'
    · rw [eng.committed _ _ _ hcommit] at hf
      cases hf
  | @refused a c hwait hret hcommit =>
    have hat : p.AtCommit a := ⟨hout, hwait, hret⟩
    rw [plain_commit _ h.left.plain] at hcommit
    rcases h.left.commit_cases hrel hat with ⟨-, db'', hc, -⟩ | ⟨hfree, htaken, -⟩
    · rw [hc] at hcommit
      cases hcommit
    · exact absurd (hp.upToDate (h.left.inserting hat hfree) htaken) hfree

/-! ### Runs with a race -/

/-- The call has found the name free and is going to insert. -/
def Doomed (src : String) (s : Store) (p : Running RegisterCall Route) : Prop :=
  Inserting s p ∧ ¬ p.seen.Taken src

/-- The call has raised the unit of work's `AlreadyExists`. -/
def Failed (p : Running RegisterCall Route) : Prop :=
  ∃ msg, p.outcome = some (.error ⟨.uowAlreadyExists, msg, none⟩)

/-- After a race: nobody has inserted yet, or the other call has and this one has yet to
find out, or it has. -/
def Overtaken (src : String) (s : Store) (p q : Running RegisterCall Route) : Prop :=
  (¬ s.Taken src ∧ Doomed src s p ∧ Doomed src s q) ∨
    (s.Taken src ∧ Doomed src s p ∧ q.outcome ≠ none) ∨
    (s.Taken src ∧ Doomed src s q ∧ p.outcome ≠ none) ∨ Failed p ∨ Failed q

theorem Overtaken.symm (h : Overtaken src s p q) : Overtaken src s q p := by
  rcases h with ⟨hfree, hp, hq⟩ | h | h | h | h
  · exact .inl ⟨hfree, hq, hp⟩
  · exact .inr (.inr (.inl h))
  · exact .inr (.inl h)
  · exact .inr (.inr (.inr (.inr h)))
  · exact .inr (.inr (.inr (.inl h)))

/-- A doomed call inserts: it takes the name, or is told that it is taken. -/
theorem doomed_advance (hrel : eng.Reliable) (h : Callers eng src db p q)
    (hdoomed : Doomed src db.store p)
    (hadv : (readCommitted eng).Advanced blocked db p db' gone p') :
    (db' = db ∧ Doomed src db.store p') ∨
      (¬ db.store.Taken src ∧ db'.store.Taken src ∧ p'.outcome ≠ none) ∨
      (db.store.Taken src ∧ Failed p') := by
  obtain ⟨⟨hout, hreads, hopen⟩, hfree⟩ := hdoomed
  cases hadv with
  | locked hwait _ =>
    rw [h.left.plain.1] at hwait
    cases hwait
  | queried _ hrest =>
    rw [hrest] at hreads
    cases hreads
  | queued _ hrest =>
    rw [hrest] at hreads
    exact .inl ⟨rfl, ⟨hout, hreads, hopen⟩, hfree⟩
  | raised _ hrest =>
    have hkeeps := (h.left.sound hout).1
    rcases (h.left.sound.throw hout hrest).of_error.2 with ht | ⟨d, hd, hrestricted⟩
    · exact absurd ht hfree
    · rw [hopen d ((hkeeps.domainFor _).trans hd)] at hrestricted
      cases hrestricted
  | @committed a _ hwait hret hcommit =>
    rw [plain_commit _ h.left.plain] at hcommit
    rcases h.left.commit_cases hrel ⟨hout, hwait, hret⟩ with ⟨hup, db'', hc, hans⟩ | ⟨-, -, hf⟩
    · cases hcommit.symm.trans hc
      obtain ⟨⟨r', hr', -, hsrc⟩, -⟩ := hans
      exact .inr (.inl ⟨fun ht => hfree (hup ht), List.mem_map.mpr ⟨r', hr', hsrc⟩, by
        simp [InFlight.ended]⟩)
    · rw [eng.committed _ _ _ hcommit] at hf
      cases hf
  | @refused a c hwait hret hcommit =>
    rw [plain_commit _ h.left.plain] at hcommit
    rcases h.left.commit_cases hrel ⟨hout, hwait, hret⟩ with ⟨-, db'', hc, -⟩ | ⟨-, htaken, hf⟩
    · rw [hc] at hcommit
      cases hcommit
    · obtain ⟨msg, hmsg⟩ := answer_of_unique a hcommit hf
      exact .inr (.inr ⟨htaken, msg, congrArg some hmsg⟩)

theorem overtaken_advance (hrel : eng.Reliable) (h : Callers eng src db p q)
    (hover : Overtaken src db.store p q) (hout : p.outcome = none)
    (hadv : (readCommitted eng).Advanced blocked db p db' gone p') :
    Overtaken src db'.store p' q := by
  have hkeeps := (h.advance hout hadv).2.1
  rcases hover with ⟨hfree, hp, hq⟩ | ⟨htaken, hp, hq⟩ | ⟨-, -, hp⟩ | ⟨msg, hp⟩ | hq
  · rcases doomed_advance hrel h hp hadv with ⟨rfl, hp'⟩ | ⟨-, htaken, hp'⟩ | ⟨htaken, -⟩
    · exact .inl ⟨hfree, hp', hq⟩
    · exact .inr (.inr (.inl ⟨htaken, ⟨(Inserting.keeps hkeeps).mpr hq.1, hq.2⟩, hp'⟩))
    · exact absurd htaken hfree
  · rcases doomed_advance hrel h hp hadv with ⟨rfl, hp'⟩ | ⟨hfree, -, -⟩ | ⟨-, hp'⟩
    · exact .inr (.inl ⟨htaken, hp', hq⟩)
    · exact absurd htaken hfree
    · exact .inr (.inr (.inr (.inl hp')))
  · exact absurd hout hp
  · rw [hp] at hout
    cases hout
  · exact .inr (.inr (.inr (.inr hq)))

end Race

/-! ### The theorem -/

/-- There is at most one new route of that name, and each call has got its answer. -/
structure RaceSettled (s₀ : Store) (src : String) (w : Sessions RegisterCall Route) : Prop where
  oneRoute : (w.db.store.routes.filter fun r =>
    decide (r.src = src ∧ r.id ∉ s₀.routeIds)).length ≤ 1
  answers : ∀ p ∈ w.sessions, ∃ x, p.outcome = some x ∧ Answers w.db.store src p.call x

section Theorem

variable {eng : Engine} {src : String} {db : Database} {c₁ c₂ : RegisterCall}
  {w w' : Sessions RegisterCall Route} {i : Nat}

theorem Store.Valid.one_of_src {s : Store} (hv : s.Valid) (src : String) (p : Route → Bool) :
    (s.routes.filter fun r => decide (r.src = src) && p r).length ≤ 1 := by
  have hsub : (s.routes.filter fun r => decide (r.src = src) && p r).Sublist
      (s.routes.filter fun r => decide (r.src = src)) :=
    List.monotone_filter_right _ fun r hr => (Bool.and_eq_true _ _ ▸ hr).1
  refine hsub.length_le.trans ?_
  rw [filter_key_eq_toList hv.routeSrcs src]
  cases lookup Route.src src s.routes <;> simp

theorem twoCalls_callers (h₁ : c₁.Ready src db.store) (h₂ : c₂.Ready src db.store)
    (hid : c₁.draws.routeId ≠ c₂.draws.routeId) (htoken : c₁.draws.token ≠ c₂.draws.token) :
    (twoCalls db c₁ c₂).Pair (Callers eng src) := by
  have hcaller : ∀ c : RegisterCall, c.Ready src db.store →
      Caller eng src db.store (.begin RegisterCall.body db.store c) := by
    intro c hc
    obtain ⟨d, u, hres⟩ := hc.resolves
    exact ⟨InFlight.sound_begin (registers_concludes db.valid hres),
      InFlight.plain_begin c.body_plain, fun _ => hc⟩
  exact ⟨_, _, rfl, hcaller c₁ h₁, hcaller c₂ h₂, hid, htoken⟩

/-- Two calls with something that a call's move keeps. -/
theorem callers_step
    {I C : Database → Running RegisterCall Route → Running RegisterCall Route → Prop}
    (hI : ∀ db p q, I db p q → I db q p) (hC : ∀ db p q, C db p q → C db q p)
    (hadv : ∀ db p q blocked db' gone p', Callers eng src db p q → I db p q → C db p q →
      p.outcome = none → (readCommitted eng).Advanced blocked db p db' gone p' → I db' p' q)
    (h : w.Pair fun db p q => Callers eng src db p q ∧ I db p q)
    (hcond : ∀ p q, w = ⟨w.db, [p, q]⟩ → C w.db p q)
    (hmove : (readCommitted eng).move w i = some w') :
    w'.Pair fun db p q => Callers eng src db p q ∧ I db p q := by
  refine Isolation.pair_step (fun db p q h => ⟨h.1.symm, hI db p q h.2⟩) hC ?_ h hcond hmove
  intro db p q db' gone p' ⟨hcallers, hpq⟩ hc hout hp
  obtain ⟨hcallers', -, rfl⟩ := hcallers.advance hout hp
  rw [InFlight.strike_nil]
  exact ⟨hcallers', hadv db p q _ db' [] p' hcallers hpq hc hout hp⟩

/-- What holds of two calls holds after every run of theirs. -/
theorem callers_run {is : List Nat} (hcallers : w.Pair (Callers eng src))
    (hrun : run (readCommitted eng).move w is = some w') : w'.Pair (Callers eng src) := by
  have hkept : w'.Pair fun db p q => Callers eng src db p q ∧ True := by
    refine run_keeps (P := fun _ _ => True) ?_ (along_of_forall fun _ _ => trivial) hrun
      (hcallers.imp fun p => Exists.imp fun q h => ⟨h.1, h.2, trivial⟩)
    exact fun _ _ _ h _ hmove => callers_step (C := fun _ _ _ => True) (fun _ _ _ h => h)
      (fun _ _ _ h => h) (fun _ _ _ _ _ _ _ _ h _ _ _ => h) h (fun _ _ _ => trivial) hmove
  exact hkept.imp fun p => Exists.imp fun q h => ⟨h.1, h.2.1⟩

/-- From a race on, one call is told that the name is taken. -/
theorem failed_of_race (hrel : eng.Reliable) {is : List Nat} (hcallers : w.Pair (Callers eng src))
    (hrace : Race src w) (hrun : run (readCommitted eng).move w is = some w')
    (hdone : w'.Done) : ∃ r ∈ w'.sessions, Failed r := by
  have hover : w'.Pair fun db p q => Callers eng src db p q ∧ Overtaken src db.store p q := by
    obtain ⟨p, q, hsessions, hcallers⟩ := hcallers
    obtain ⟨hfree, hins⟩ := hrace
    rw [hsessions] at hins
    have hdoomed : ∀ r ∈ [p, q], Caller eng src w.db.store r → Doomed src w.db.store r :=
      fun r hr hc => ⟨hins r hr, fun hs => hfree ((hc.sound (hins r hr).1).1.taken hs)⟩
    refine run_keeps (P := fun _ _ => True) ?_ (along_of_forall fun _ _ => trivial) hrun
      ⟨p, q, hsessions, hcallers, .inl ⟨hfree, hdoomed p (by simp) hcallers.left,
        hdoomed q (by simp) hcallers.right⟩⟩
    exact fun _ _ _ h _ hmove => callers_step (C := fun _ _ _ => True)
      (fun _ _ _ h => h.symm) (fun _ _ _ h => h)
      (fun _ _ _ _ _ _ _ hc h _ hout hadv => overtaken_advance hrel hc h hout hadv) h
      (fun _ _ _ => trivial) hmove
  obtain ⟨p, q, hsessions, -, hover⟩ := hover
  rw [World.Done, hsessions] at hdone
  rw [hsessions]
  rcases hover with ⟨-, hp, -⟩ | ⟨-, hp, -⟩ | ⟨-, hq, -⟩ | hp | hq
  · exact absurd hp.1.1 (hdone p (by simp))
  · exact absurd hp.1.1 (hdone p (by simp))
  · exact absurd hq.1.1 (hdone q (by simp))
  · exact ⟨p, by simp, hp⟩
  · exact ⟨q, by simp, hq⟩

/-- Without a race each call gets its answer. -/
theorem served_of_noRace (hrel : eng.Reliable) {is : List Nat} (h₁ : c₁.Ready src db.store)
    (h₂ : c₂.Ready src db.store) (hid : c₁.draws.routeId ≠ c₂.draws.routeId)
    (htoken : c₁.draws.token ≠ c₂.draws.token)
    (hno : Along (readCommitted eng).move (fun w _ => ¬ Race src w) (twoCalls db c₁ c₂) is)
    (hrun : run (readCommitted eng).move (twoCalls db c₁ c₂) is = some w) :
    ∀ p ∈ w.sessions, Served src w.db.store p := by
  have hserved : w.Pair fun db p q => Callers eng src db p q ∧
      Served src db.store p ∧ Served src db.store q := by
    obtain ⟨p, q, hsessions, hcallers⟩ : (twoCalls db c₁ c₂).Pair (Callers eng src) :=
      twoCalls_callers h₁ h₂ hid htoken
    have hbegin : ∀ c : RegisterCall, Served src db.store (.begin RegisterCall.body db.store c) :=
      fun c => ⟨by simp [InFlight.begin], fun _ ht => ht⟩
    cases hsessions
    refine run_keeps (P := fun w _ => ¬ Race src w) ?_ hno hrun
      ⟨_, _, rfl, hcallers, hbegin c₁, hbegin c₂⟩
    refine fun w i w' h hno hmove => callers_step (C := fun db p q => ¬ Race src ⟨db, [p, q]⟩)
      (fun _ _ _ h => ⟨h.2, h.1⟩) (fun db p q h hrace => h ⟨hrace.1, fun r hr => hrace.2 r ?_⟩)
      (fun _ _ _ _ _ _ _ hc h hno hout hadv => served_advance hrel hc h.1 h.2 hno hout hadv) h
      (fun p q hw => hw ▸ hno) hmove
    simp only [List.mem_cons, List.not_mem_nil, or_false] at hr ⊢
    exact hr.symm
  obtain ⟨p, q, hsessions, -, hp, hq⟩ := hserved
  rw [hsessions]
  intro r hr
  simp only [List.mem_cons, List.not_mem_nil, or_false] at hr
  rcases hr with rfl | rfl
  · exact hp
  · exact hq

end Theorem

/-- **Two registrations of one name.** Let two ready calls run side by side to their ends,
in any interleaving. At most one new route of that name is stored and both calls get a
proper answer exactly when at no moment both are past their last query, in unrestricted
domains, while the name is free. -/
theorem registerRace_iff (eng : Engine) (hrel : eng.Reliable) (db : Database) (src : String)
    (c₁ c₂ : RegisterCall) (h₁ : c₁.Ready src db.store) (h₂ : c₂.Ready src db.store)
    (hid : c₁.draws.routeId ≠ c₂.draws.routeId) (htoken : c₁.draws.token ≠ c₂.draws.token)
    (is : List Nat) (w : Sessions RegisterCall Route)
    (hrun : run (readCommitted eng).move (twoCalls db c₁ c₂) is = some w) (hdone : w.Done) :
    RaceSettled db.store src w ↔
      Along (readCommitted eng).move (fun w _ => ¬ Race src w) (twoCalls db c₁ c₂) is := by
  constructor
  · intro h
    refine along_iff.mpr ?_
    intro is₁ i is₂ w₁ hsplit hrun₁ hrace
    obtain ⟨w₁', hrun₁', hrest⟩ := run_append.mp (hsplit ▸ hrun)
    obtain rfl : w₁ = w₁' := Option.some.inj (hrun₁.symm.trans hrun₁')
    have hcallers₁ : w₁.Pair (Callers eng src) :=
      callers_run (twoCalls_callers h₁ h₂ hid htoken) hrun₁
    obtain ⟨r, hr, msg, hmsg⟩ := failed_of_race hrel hcallers₁ hrace hrest hdone
    obtain ⟨x, hx, hans⟩ := h.answers r hr
    cases hmsg.symm.trans hx
    rcases hans with hans | hans | hans <;> cases hans
  · intro hno
    have hserved := served_of_noRace hrel h₁ h₂ hid htoken hno hrun
    refine ⟨?_, fun r hr => ?_⟩
    · have hone := w.db.valid.one_of_src src fun r => decide (r.id ∉ db.store.routeIds)
      simpa [Bool.decide_and] using hone
    · obtain ⟨x, hx⟩ := Option.ne_none_iff_exists'.mp (hdone r hr)
      exact ⟨x, hx, (hserved r hr).answers x hx⟩

/-- Alice and Bob both want the name `app`. -/
def aliceCall : RegisterCall := ⟨(callBy "alice" "app" 0).1, (callBy "alice" "app" 0).2⟩

def bobCall : RegisterCall := ⟨(callBy "bob" "app" 1).1, (callBy "bob" "app" 1).2⟩

/-- Both calls, by the statements each one's turn has. -/
def aliceAndBob (is : List Nat) : Sessions RegisterCall Route :=
  (run (readCommitted .sqlite).move (twoCalls twoUsers aliceCall bobCall) is).getD
    (twoCalls twoUsers aliceCall bobCall)

theorem aliceCall_ready : aliceCall.Ready "https://example.com/app" twoUsers.store :=
  ⟨⟨_, _, rfl, rfl, rfl⟩, ⟨by decide, by decide⟩, fun _ h => by cases h⟩

theorem bobCall_ready : bobCall.Ready "https://example.com/app" twoUsers.store :=
  ⟨⟨_, _, rfl, rfl, rfl⟩, ⟨by decide, by decide⟩, fun _ h => by cases h⟩

/-- Bob comes second and is turned away. -/
def bobSecond : List Nat := [0, 0, 0, 0, 0, 0, 0, 1, 1, 1, 1, 1, 1]

theorem bobSecond_settled :
    RaceSettled twoUsers.store "https://example.com/app" (aliceAndBob bobSecond) := by
  refine (registerRace_iff .sqlite Engine.sqlite_reliable twoUsers "https://example.com/app"
    aliceCall bobCall aliceCall_ready bobCall_ready (by decide) (by decide) bobSecond
    (aliceAndBob bobSecond) rfl ?_).mpr ?_
  · have hended : ∀ p ∈ (aliceAndBob bobSecond).sessions, p.outcome.isSome = true := by decide
    exact fun p hp => Option.isSome_iff_ne_none.mp (hended p hp)
  · -- a call is still reading, or the name is in use
    have hquiet : ∀ is ∈ bobSecond.inits, (∃ p ∈ (aliceAndBob is).sessions, p.rest.reads = true) ∨
        "https://example.com/app" ∈ (aliceAndBob is).db.store.routes.map Route.src := by decide
    refine along_iff.mpr ?_
    intro is₁ i is₂ w₁ hsplit hrun₁ hrace
    have hw : aliceAndBob is₁ = w₁ := by
      unfold aliceAndBob
      rw [hrun₁]
      rfl
    have hinit : is₁ ∈ bobSecond.inits := (List.mem_inits _ _).mpr ⟨i :: is₂, hsplit.symm⟩
    rcases hquiet is₁ hinit with ⟨p, hp, hreads⟩ | htaken
    · rw [hw] at hp
      cases hreads.symm.trans (hrace.2 p hp).2.1
    · rw [hw] at htaken
      exact hrace.1 htaken

/-- Both calls look the name up before one inserts. -/
def sideBySide : List Nat := [0, 0, 0, 0, 1, 1, 1, 1, 0, 0, 0, 1, 1, 1]

/-- Bob's call raises what the endpoint lets through. -/
theorem sideBySide_raises :
    run (readCommitted .sqlite).move (twoCalls twoUsers aliceCall bobCall) sideBySide =
        some (aliceAndBob sideBySide) ∧
      ∃ p ∈ (aliceAndBob sideBySide).sessions, ∃ e, p.outcome = some (.error e) ∧
        e.cls = .uowAlreadyExists ∧ registerError e = e :=
  ⟨rfl, _, List.mem_cons_of_mem _ List.mem_cons_self, _, rfl, rfl, rfl⟩

end RouteRegistry
