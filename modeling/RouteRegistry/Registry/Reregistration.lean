import RouteRegistry.Registry.NameRace
import RouteRegistry.Registry.Verification

/-!
# Registering again

A route does not record how its `src` came about. `register_route` generates the URL anew
from the current domain, name and caller, and takes it for the route's own when the two
agree.

- `registrations`: the calls of a run that create a route.
- `Traced`: every route goes back to one of them, and its `src` is still what its domain,
  its name and its owner generate (`step_traced`).
- `registerRoute_repeated`: so further calls for the route change what they should, and
  nothing else.
-/

namespace RouteRegistry

open Relational UnitOfWork Runs

/-! ## The URL of a stored route -/

/-- The `src` is what each owner generates for the route's name in its domain. -/
def Route.Generated (s : Store) (r : Route) (bind : Bool) : Prop :=
  ∀ d ∈ s.domains, d.id = r.domainId → d.domainType ≠ .ephemeral →
    ∀ u ∈ s.users, u.id ∈ s.owners r.id → d.urlOf (d.finalName r.name u "") bind = r.src

/-- Only ephemeral names contain a drawn id. -/
theorem Domain.finalName_draw {d : Domain} (hd : d.domainType ≠ .ephemeral) (n : String) (u : User)
    (x y : String) : d.finalName n u x = d.finalName n u y := by
  unfold Domain.finalName
  cases ht : d.domainType with
  | ephemeral => exact absurd ht hd
  | standard => rfl
  | user => rfl

/-- URLs depend on the value and type of the domain and on the uid alone. -/
theorem Domain.urlOf_finalName_congr {d d' : Domain} {u u' : User} (hvalue : d.value = d'.value)
    (htype : d.domainType = d'.domainType) (huid : u.uid = u'.uid) (n x : String) (bind : Bool) :
    d.urlOf (d.finalName n u x) bind = d'.urlOf (d'.finalName n u' x) bind := by
  unfold Domain.urlOf Domain.finalName
  rw [hvalue, htype, huid]

section Change

variable {s s' : Store} {r r' : Route} {bind : Bool}

/-- A URL stays generated when domains keep their values, users their uids, and nobody
becomes an owner. -/
theorem Route.Generated.keep (hv : s.Valid) (hr : r ∈ s.routes) (h : r.Generated s bind)
    (hid : r'.id = r.id) (hname : r'.name = r.name) (hsrc : r'.src = r.src)
    (hdomain : r'.domainId = r.domainId)
    (hdomains : ∀ d' ∈ s'.domains, d'.id ∈ s.domainIds →
      ∃ d ∈ s.domains, d.id = d'.id ∧ d.value = d'.value ∧ d.domainType = d'.domainType)
    (husers : ∀ u' ∈ s'.users, u'.id ∈ s.entityIds → ∃ u ∈ s.users, u.id = u'.id ∧ u.uid = u'.uid)
    (howners : ∀ o ∈ s'.ownerships, o ∈ s.ownerships) : r'.Generated s' bind := by
  intro d' hd' hdid htype u' hu' hown'
  rw [hid] at hown'
  have hown : u'.id ∈ s.owners r.id := Store.mem_owners.mpr (howners _ (Store.mem_owners.mp hown'))
  rw [hdomain] at hdid
  obtain ⟨d, hd, hid₁, hvalue, htype₁⟩ := hdomains d' hd' (hdid ▸ hv.routeDomain r hr)
  obtain ⟨u, hu, hid₂, huid⟩ := husers u' hu' (hv.ownershipEntity _ (Store.mem_owners.mp hown))
  rw [hname, hsrc, ← Domain.urlOf_finalName_congr hvalue htype₁ huid]
  exact h d hd (hid₁.trans hdid) (htype₁ ▸ htype) u hu (hid₂ ▸ hown)

/-- No route is new, and each is generated as it was. -/
structure Descends (s s' : Store) : Prop where
  routeIds : s'.routeIds = s.routeIds
  routes : ∀ r' ∈ s'.routes, ∃ r ∈ s.routes, r'.id = r.id ∧ r'.name = r.name ∧
    ∀ bind, r.Generated s bind → r'.Generated s' bind

theorem Descends.refl (s : Store) : Descends s s :=
  ⟨rfl, fun r hr => ⟨r, hr, rfl, rfl, fun _ h => h⟩⟩

theorem Descends.trans {s₁ : Store} (h : Descends s s₁) (h' : Descends s₁ s') : Descends s s' := by
  refine ⟨h'.routeIds.trans h.routeIds, fun r' hr' => ?_⟩
  obtain ⟨r₁, hr₁, hid', hname', hgen'⟩ := h'.routes r' hr'
  obtain ⟨r, hr, hid, hname, hgen⟩ := h.routes r₁ hr₁
  exact ⟨r, hr, hid'.trans hid, hname'.trans hname, fun bind hb => hgen' bind (hgen bind hb)⟩

/-- The changes that only a registration makes. -/
def Change.Creates : Change → Prop
  | .addRoute _ | .addOwnership _ => True
  | _ => False

/-- The columns that the URL of a route goes by. -/
def Route.SameName (r r' : Route) : Prop :=
  r'.id = r.id ∧ r'.name = r.name ∧ r'.src = r.src ∧ r'.domainId = r.domainId

theorem RouteAttr.set_sameName (a : RouteAttr) (r : Route) : r.SameName (a.set r) := by
  cases a <;> exact ⟨rfl, rfl, rfl, rfl⟩

theorem RouteAttr.setAll_sameName (as : List RouteAttr) (r : Route) :
    r.SameName (RouteAttr.setAll as r) := by
  induction as generalizing r with
  | nil => exact ⟨rfl, rfl, rfl, rfl⟩
  | cons a as ih =>
    obtain ⟨hid, hname, hsrc, hdomain⟩ := ih (a.set r)
    obtain ⟨hid₀, hname₀, hsrc₀, hdomain₀⟩ := a.set_sameName r
    exact ⟨hid.trans hid₀, hname.trans hname₀, hsrc.trans hsrc₀, hdomain.trans hdomain₀⟩

/-- Rewriting routes under their names. -/
theorem descends_modify (hv : s.Valid) {κ : Type} [DecidableEq κ] (key : Route → κ) (k : κ)
    {f : Route → Route} (hf : ∀ r : Route, r.SameName (f r)) {communities : List Community} :
    Descends s { s with communities := communities, routes := modify key k f s.routes } := by
  refine ⟨map_modify key k (fun r => (hf r).1) s.routes, fun r' hr' => ?_⟩
  have hsame : ∀ r ∈ s.routes, r.SameName r' → ∃ r ∈ s.routes, r'.id = r.id ∧ r'.name = r.name ∧
      ∀ bind, r.Generated s bind →
        r'.Generated { s with communities := communities, routes := modify key k f s.routes }
          bind := by
    rintro r hr ⟨hid, hname, hsrc, hdomain⟩
    refine ⟨r, hr, hid, hname, fun bind h => ?_⟩
    exact h.keep hv hr hid hname hsrc hdomain (fun d hd _ => ⟨d, hd, rfl, rfl, rfl⟩)
      (fun u hu _ => ⟨u, hu, rfl, rfl⟩) fun _ ho => ho
  rcases mem_modify.mp hr' with ⟨hr, -⟩ | ⟨r, hr, -, rfl⟩
  · exact hsame r' hr ⟨rfl, rfl, rfl, rfl⟩
  · exact hsame r hr (hf r)

/-- Tables other than routes, when domains, users and owners are kept. -/
theorem descends_of_routes (hv : s.Valid) (hroutes : s'.routes = s.routes)
    (hdomains : ∀ d' ∈ s'.domains, d'.id ∈ s.domainIds →
      ∃ d ∈ s.domains, d.id = d'.id ∧ d.value = d'.value ∧ d.domainType = d'.domainType)
    (husers : ∀ u' ∈ s'.users, u'.id ∈ s.entityIds → ∃ u ∈ s.users, u.id = u'.id ∧ u.uid = u'.uid)
    (howners : ∀ o ∈ s'.ownerships, o ∈ s.ownerships) : Descends s s' := by
  refine ⟨by rw [Store.routeIds, hroutes]; rfl, fun r hr => ?_⟩
  rw [hroutes] at hr
  exact ⟨r, hr, rfl, rfl, fun _ h => h.keep hv hr rfl rfl rfl rfl hdomains husers howners⟩

/-- **One change** that no registration makes leaves URLs generated. -/
theorem Change.apply_descends (hv : s.Valid) {c : Change} (h : c.apply s = .ok s')
    (hc : ¬ c.Creates) : Descends s s' := by
  have hdomain : ∀ d ∈ s.domains, d.id ∈ s.domainIds →
      ∃ d₀ ∈ s.domains, d₀.id = d.id ∧ d₀.value = d.value ∧ d₀.domainType = d.domainType :=
    fun d hd _ => ⟨d, hd, rfl, rfl, rfl⟩
  have huser : ∀ u ∈ s.users, u.id ∈ s.entityIds → ∃ u₀ ∈ s.users, u₀.id = u.id ∧ u₀.uid = u.uid :=
    fun u hu _ => ⟨u, hu, rfl, rfl⟩
  have hown : ∀ o ∈ s.ownerships, o ∈ s.ownerships := fun _ ho => ho
  cases c with
  | addRoute | addOwnership => exact absurd trivial hc
  | addUser u =>
    simp only [Change.apply, check_bind_eq_ok, pure_eq_ok] at h
    obtain ⟨hid, -, -, rfl⟩ := h
    refine descends_of_routes hv rfl hdomain (fun u' hu' hstored => ?_) hown
    rcases List.mem_append.mp hu' with hu' | hu'
    · exact huser u' hu' hstored
    · -- a new user is nobody's namesake by id
      rw [List.mem_singleton.mp hu'] at hstored
      exact absurd hstored hid
  | addDomain d =>
    simp only [Change.apply, check_bind_eq_ok, pure_eq_ok] at h
    obtain ⟨hid, -, -, rfl⟩ := h
    refine descends_of_routes hv rfl (fun d' hd' hstored => ?_) huser hown
    rcases List.mem_append.mp hd' with hd' | hd'
    · exact hdomain d' hd' hstored
    · rw [List.mem_singleton.mp hd'] at hstored
      exact absurd hstored hid
  | setRoute id a =>
    obtain rfl := Change.apply_effect h
    exact descends_modify hv Route.id id a.set_sameName
  | deleteCommunity id =>
    obtain rfl := Change.apply_effect h
    exact descends_modify hv Route.communityId (some id) (RouteAttr.community none).set_sameName
  | setDomainDefault id value =>
    obtain rfl := Change.apply_effect h
    refine descends_of_routes hv rfl (fun d' hd' hstored => ?_) huser hown
    rcases mem_modify.mp hd' with ⟨hd', -⟩ | ⟨d, hd, -, rfl⟩
    · exact hdomain d' hd' hstored
    · exact ⟨d, hd, rfl, rfl, rfl⟩
  | setUserAdmin id value =>
    obtain rfl := Change.apply_effect h
    refine descends_of_routes hv rfl hdomain (fun u' hu' hstored => ?_) hown
    rcases mem_modify.mp hu' with ⟨hu', -⟩ | ⟨u, hu, -, rfl⟩
    · exact huser u' hu' hstored
    · exact ⟨u, hu, rfl, rfl⟩
  | deleteEntity id =>
    obtain rfl := Change.apply_effect h
    exact descends_of_routes hv rfl hdomain
      (fun u' hu' hstored => huser u' (mem_discard.mp hu').1 hstored)
      fun o ho => (mem_discard.mp ho).1
  | deleteDomain id =>
    obtain rfl := Change.apply_effect h
    exact descends_of_routes hv rfl
      (fun d' hd' hstored => hdomain d' (mem_discard.mp hd').1 hstored) huser hown
  | _ =>
    obtain rfl := Change.apply_effect h
    exact descends_of_routes hv rfl hdomain huser hown

theorem flush_descends (hv : s.Valid) {Δ : List Change} (h : flush s Δ = .ok s')
    (hΔ : ∀ c ∈ Δ, ¬ c.Creates) : Descends s s' := by
  induction Δ generalizing s with
  | nil =>
    cases h
    exact Descends.refl _
  | cons c Δ ih =>
    obtain ⟨s₁, hc, hrest⟩ := flush_cons_eq_ok.mp h
    have h₁ := Change.apply_descends hv hc (hΔ c List.mem_cons_self)
    exact h₁.trans (ih (Change.apply_valid hv hc) hrest fun c' hc' =>
      hΔ c' (List.mem_cons_of_mem c hc'))

end Change

/-! ## The registrations of a run -/

/-- A registration that creates a route, with the route's id. -/
def registrations (eng : Engine) (setup : Setup) (s : System) : Event → List (String × Registration)
  | .transact (.registerRoute reg draws) =>
    let s' := (((Transaction.registerRoute reg draws).run eng setup s.clock).after s.db).store
    if draws.routeId ∉ s.db.store.routeIds ∧ draws.routeId ∈ s'.routeIds then
      [(draws.routeId, reg)]
    else []
  | _ => []

/-- Every route goes back to a logged registration, and its `src` is what the name and the
layout of that registration generate. -/
structure Traced (log : List (String × Registration)) (s : Store) : Prop where
  logged : ∀ r ∈ s.routes, ∃ reg, (r.id, reg) ∈ log
  stored : ∀ e ∈ log, e.1 ∈ s.routeIds
  generated : ∀ r ∈ s.routes, ∀ reg, (r.id, reg) ∈ log →
    reg.routeName = r.name ∧ r.Generated s reg.bindSubdomain

section Log

variable {eng : Engine} {setup : Setup} {log : List (String × Registration)}

theorem Traced.descends {s s' : Store} (h : Traced log s) (hd : Descends s s') : Traced log s' := by
  refine ⟨fun r' hr' => ?_, fun e he => ?_, fun r' hr' reg hreg => ?_⟩
  · obtain ⟨r, hr, hid, -, -⟩ := hd.routes r' hr'
    rw [hid]
    exact h.logged r hr
  · rw [hd.routeIds]
    exact h.stored e he
  · obtain ⟨r, hr, hid, hname, hgen⟩ := hd.routes r' hr'
    rw [hid] at hreg
    obtain ⟨hname₀, hgen₀⟩ := h.generated r hr reg hreg
    exact ⟨hname₀.trans hname.symm, hgen _ hgen₀⟩

/-- A new route is generated for its one owner. -/
theorem Route.generated_withRoute {db : Database} {reg : Registration} {draws : Draws} {d : Domain}
    {u : User} {src : String} (hres : Resolves db.store reg draws d u src)
    (hfresh : db.store.FreshFor (newRoute d src reg draws)) :
    (newRoute d src reg draws).Generated (db.store.withRoute (newRoute d src reg draws) u.id)
      reg.bindSubdomain := by
  intro d' hd' hdid htype u' hu' hown
  rw [Store.owners_withRoute, if_pos rfl, db.valid.owners_eq_nil hfresh.1, List.nil_append,
    List.mem_singleton] at hown
  obtain rfl : d' = d := db.valid.domainKeys.inj hd' (hres.domain_mem db.valid) hdid
  have hids : Keyed User.id db.store.users := (List.nodup_append.mp db.valid.entityKeys).1
  obtain rfl : u' = u := hids.inj hu' hres.user_mem.1 hown
  rw [Domain.finalName_draw htype _ _ "" draws.nameId]
  exact hres.url

/-- A new route is logged with its registration. -/
theorem Traced.withRoute {s : Store} (h : Traced log s) {r : Route} {owner : String}
    {reg : Registration} (hnew : r.id ∉ s.routeIds) (hname : reg.routeName = r.name)
    (hgen : r.Generated (s.withRoute r owner) reg.bindSubdomain) :
    Traced (log ++ [(r.id, reg)]) (s.withRoute r owner) := by
  refine ⟨fun r' hr' => ?_, fun e he => ?_, fun r' hr' reg' hreg' => ?_⟩
  · rcases List.mem_append.mp hr' with hr' | hr'
    · obtain ⟨reg', hreg'⟩ := h.logged r' hr'
      exact ⟨reg', List.mem_append_left _ hreg'⟩
    · rw [List.mem_singleton.mp hr']
      exact ⟨reg, List.mem_append_right _ (List.mem_singleton_self _)⟩
  · rw [Store.routeIds_withRoute]
    rcases List.mem_append.mp he with he | he
    · exact List.mem_append_left _ (h.stored e he)
    · rw [List.mem_singleton.mp he]
      exact List.mem_append_right _ (List.mem_singleton_self _)
  -- the new id is logged once, and no other route has it
  · rcases List.mem_append.mp hr' with hr' | hr'
    · have hid : r'.id ∈ s.routeIds := List.mem_map.mpr ⟨r', hr', rfl⟩
      have hne : r.id ≠ r'.id := by
        intro heq
        exact hnew (heq ▸ hid)
      rcases List.mem_append.mp hreg' with hreg' | hreg'
      · obtain ⟨hname', hgen'⟩ := h.generated r' hr' reg' hreg'
        refine ⟨hname', fun d hd hdid htype u hu hown => ?_⟩
        rw [Store.owners_withRoute, if_neg hne] at hown
        exact hgen' d hd hdid htype u hu hown
      · exact absurd (congrArg Prod.fst (List.mem_singleton.mp hreg')).symm hne
    · obtain rfl := List.mem_singleton.mp hr'
      rcases List.mem_append.mp hreg' with hreg' | hreg'
      · exact absurd (h.stored _ hreg') hnew
      · obtain rfl : reg' = reg := congrArg Prod.snd (List.mem_singleton.mp hreg')
        exact ⟨hname, hgen⟩

/-- **One registration** is logged where it creates a route. -/
theorem registerRoute_traced (eng : Engine) (setup : Setup) (s : System) (reg : Registration)
    (draws : Draws) (h : Traced log s.db.store) :
    Traced (log ++ registrations eng setup s (.transact (.registerRoute reg draws)))
      ((registerRoute eng reg { draws with now := s.clock }).after s.db).store := by
  show Traced (log ++
    if draws.routeId ∉ s.db.store.routeIds ∧ draws.routeId ∈
        ((registerRoute eng reg { draws with now := s.clock }).after s.db).store.routeIds then
      [(draws.routeId, reg)]
    else []) _
  have hquiet : ∀ s' : Store, s'.routeIds = s.db.store.routeIds →
      (if draws.routeId ∉ s.db.store.routeIds ∧ draws.routeId ∈ s'.routeIds then
        [(draws.routeId, reg)] else []) = [] := by
    intro s' hids
    rw [hids]
    exact if_neg fun hboth => hboth.1 hboth.2
  rcases registerRoute_after_cases eng reg { draws with now := s.clock } s.db with
    hsame | ⟨r', db', -, hreg⟩
  · rw [hsame, hquiet _ rfl, List.append_nil]
    exact h
  generalize ((registerRoute eng reg { draws with now := s.clock }).after s.db).store = s' at hreg ⊢
  cases hreg with
  | rebound hres hr hown hret =>
    rw [hquiet _ (Store.routeIds_withAttrs _ _ _), List.append_nil]
    exact h.descends (descends_modify s.db.valid Route.id _ (RouteAttr.setAll_sameName _))
  | @created d u src hres hr hd hret hfresh =>
    subst hret
    have hids := Store.routeIds_withRoute s.db.store
      (newRoute d src reg { draws with now := s.clock }) u.id
    have hlogged : draws.routeId ∉ s.db.store.routeIds ∧ draws.routeId ∈ (s.db.store.withRoute
        (newRoute d src reg { draws with now := s.clock }) u.id).routeIds := by
      refine ⟨hfresh.1, ?_⟩
      rw [hids]
      exact List.mem_append_right _ (List.mem_singleton_self _)
    rw [if_pos hlogged]
    exact h.withRoute hfresh.1 rfl (Route.generated_withRoute hres hfresh)
  | dropped hc hcs =>
    rw [hquiet _ rfl, List.append_nil]
    exact h

/-- **One block.** -/
theorem transact_traced (eng : Engine) (setup : Setup) (s : System) (t : Transaction)
    (h : Traced log s.db.store) :
    Traced (log ++ registrations eng setup s (.transact t))
      ((t.run eng setup s.clock).after s.db).store := by
  have hother : registrations eng setup s (.transact t) = [] →
      (∀ c, t.mayQueue s.clock c → ¬ c.Creates) →
      Traced (log ++ registrations eng setup s (.transact t))
        ((t.run eng setup s.clock).after s.db).store := by
    intro hlog hmay
    rw [hlog, List.append_nil]
    rcases t.after_cases eng setup s.clock s.db with hsame | ⟨Δ, hf, hΔ⟩
    · rw [hsame]
      exact h
    · exact h.descends (flush_descends s.db.valid hf fun c hc => hmay c (hΔ c hc))
  cases t with
  | registerRoute reg draws => exact registerRoute_traced eng setup s reg draws h
  | _ =>
    refine hother rfl fun c hc hcreates => ?_
    cases c with
    | addRoute | addOwnership => simp [Transaction.mayQueue] at hc
    | _ => exact hcreates.elim

/-- **One event.** -/
theorem step_traced {s s' : System} {e : Event} (h : Traced log s.db.store)
    (hstep : step eng setup s e = some s') :
    Traced (log ++ registrations eng setup s e) s'.db.store := by
  have hother : registrations eng setup s e = [] → (∀ t, e ≠ .transact t) →
      Traced (log ++ registrations eng setup s e) s'.db.store := by
    intro hlog hne
    rw [hlog, List.append_nil]
    rcases step_db hstep with hdb | ⟨t, hdb, rfl | ⟨id, fetch, rfl⟩ | ⟨id, rfl⟩⟩
    · rw [hdb]
      exact h
    · exact absurd rfl (hne t)
    -- a pass updates and unverifies routes
    · have hblock := transact_traced eng setup s (.updateRoute id fetch) h
      rw [hdb]
      rwa [show registrations eng setup s _ = [] from rfl, List.append_nil] at hblock
    · have hblock := transact_traced eng setup s (.unverifyRoute id) h
      rw [hdb]
      rwa [show registrations eng setup s _ = [] from rfl, List.append_nil] at hblock
  cases e with
  | transact t =>
    cases hstep
    exact transact_traced eng setup s t h
  | _ => exact hother rfl fun t => Event.noConfusion

/-- **Every run** from a state without routes. -/
theorem run_traced {s s' : System} (hroutes : s.db.store.routes = []) {es : List Event}
    (hrun : run (step eng setup) s es = some s') :
    Traced (record (step eng setup) (registrations eng setup) s es) s'.db.store := by
  have hstart : Traced [] s.db.store := by
    constructor <;> simp [hroutes]
  have hend := run_records (I := fun log (s : System) => Traced log s.db.store)
    (P := fun _ _ => True) (fun _ _ _ _ h _ hstep => step_traced h hstep)
    (along_of_forall fun e _ => trivial) hrun hstart
  rwa [List.nil_append] at hend

end Log

/-! ## Further calls -/

/-- A call by the user `u` for the domain `d`, with the name and the layout of `reg₀`, and
no community or a stored one. -/
structure Repeats (s : Store) (reg₀ : Registration) (d : Domain) (u : User) (reg : Registration) :
    Prop where
  domain : s.domainFor reg.domainName = .ok d
  user : s.userOf (some reg.userUid) = some u
  name : reg.routeName = reg₀.routeName
  bind : reg.bindSubdomain = reg₀.bindSubdomain
  community : ∀ c, reg.community = some c → c.id ∈ s.communityIds

/-- Calls one after the other. -/
def registerEach (eng : Engine) : List RegisterCall → Service (List Route)
  | [] => pure []
  | c :: calls => do
    let r ← registerRoute eng c.reg c.draws
    let rs ← registerEach eng calls
    return r :: rs

/-- A route after further calls: it keeps its community or gets the first one named, and is
verified, last in contact at the last call. -/
def Route.recalled (calls : List RegisterCall) (r : Route) : Route :=
  match calls.getLast? with
  | none => r
  | some last =>
    { r with
      communityId := r.communityId <|>
        (calls.findSome? fun c => c.reg.community).map Community.id
      verificationStatus := .verified
      lastContact := last.draws.now }

theorem Route.rebind_eq (r : Route) (community : Option Community) (now : Time) :
    r.rebind community now =
      { r with
        communityId := r.communityId <|> community.map Community.id
        verificationStatus := .verified
        lastContact := now } := by
  unfold Route.rebind rebindAttrs
  cases community <;> cases h : r.communityId <;> simp [RouteAttr.setAll, RouteAttr.set, h]

/-- The first of the calls, then the others. -/
theorem Route.recalled_cons (c : RegisterCall) (calls : List RegisterCall) (r : Route) :
    r.recalled (c :: calls) = (r.rebind c.reg.community c.draws.now).recalled calls := by
  rw [Route.rebind_eq]
  unfold Route.recalled
  cases calls with
  | nil => simp
  | cons c' calls =>
    rw [List.getLast?_cons_cons, List.getLast?_eq_some_getLast (List.cons_ne_nil c' calls)]
    cases hc : c.reg.community with
    | none => simp [hc]
    | some community => cases r.communityId <;> simp [hc]

section Again

variable {eng : Engine} {db : Database} {r : Route} {d : Domain} {u : User} {reg₀ : Registration}

/-- What makes a call take the route for its own. -/
structure Recognised (s : Store) (r : Route) (d : Domain) (u : User) (reg₀ : Registration) :
    Prop where
  stored : r ∈ s.routes
  owner : u.id ∈ s.owners r.id
  type : d.domainType ≠ .ephemeral
  url : d.urlOf (d.finalName reg₀.routeName u "") reg₀.bindSubdomain = r.src

/-- **One further call.** -/
theorem registerRoute_again (hrel : eng.Reliable) (h : Recognised db.store r d u reg₀)
    {c : RegisterCall} (hc : Repeats db.store reg₀ d u c.reg) :
    ∃ db', registerRoute eng c.reg c.draws db =
        .ok (r.rebind c.reg.community c.draws.now) db' ∧
      db'.store = db.store.withAttrs r.id (rebindAttrs r c.reg.community c.draws.now) := by
  have hres : Resolves db.store c.reg c.draws d u r.src := by
    refine ⟨hc.domain, hc.user, ?_⟩
    rw [hc.name, hc.bind, Domain.finalName_draw h.type _ _ c.draws.nameId ""]
    exact h.url
  have hsrc : db.store.routeOfSrc r.src = some r :=
    (lookup_eq_some_iff db.valid.routeSrcs).mpr ⟨h.stored, rfl⟩
  have hrun : (registerRouteBody c.reg c.draws).run db.store =
      (.ok (r.rebind c.reg.community c.draws.now),
        (rebindAttrs r c.reg.community c.draws.now).map (.setRoute r.id)) := by
    have hbody := registerRouteBody_registers db.valid c.reg c.draws
    generalize (registerRouteBody c.reg c.draws).run db.store = out at hbody
    -- the call resolves in one way, so it finds this route
    cases hbody with
    | unresolved hno => exact absurd hres (hno _ _ _)
    | taken hres' hr hown =>
      obtain ⟨-, rfl, rfl⟩ := hres.unique hres'
      rw [hsrc] at hr
      cases hr
      exact absurd h.owner hown
    | rebound hres' hr _ =>
      obtain ⟨-, -, rfl⟩ := hres.unique hres'
      rw [hsrc] at hr
      cases hr
      rfl
    | restricted hres' hr _ | created hres' hr _ =>
      obtain ⟨-, -, rfl⟩ := hres.unique hres'
      rw [hsrc] at hr
      cases hr
  have hid : r.id ∈ db.store.routeIds := List.mem_map.mpr ⟨r, h.stored, rfl⟩
  exact withUOW_of_flush hrel hrun (flush_rebind _ _ hid hc.community)

/-- The route is still recognised after a call, and further calls still repeat the first. -/
theorem Recognised.rebind (h : Recognised db.store r d u reg₀) {db' : Database} {c : RegisterCall}
    (hdb' : db'.store = db.store.withAttrs r.id (rebindAttrs r c.reg.community c.draws.now)) :
    Recognised db'.store (r.rebind c.reg.community c.draws.now) d u reg₀ ∧
      ∀ reg, Repeats db.store reg₀ d u reg → Repeats db'.store reg₀ d u reg := by
  have hsame := RouteAttr.setAll_sameName (rebindAttrs r c.reg.community c.draws.now) r
  constructor
  · refine ⟨?_, ?_, h.type, h.url.trans hsame.2.2.1.symm⟩
    · rw [hdb']
      exact Store.mem_routes_withAttrs.mpr (.inr ⟨r, h.stored, rfl, rfl⟩)
    · rw [hdb', Store.owners_withAttrs, Route.rebind_id]
      exact h.owner
  · intro reg hreg
    have hkeeps : Registering db.store db'.store := by
      refine ⟨fun _ => db'.valid, by rw [hdb']; rfl, by rw [hdb']; rfl, by rw [hdb']; rfl,
        fun r₀ hr₀ => ?_, by rw [hdb']; exact fun _ ho => ho⟩
      rw [hdb']
      by_cases hid : r₀.id = r.id
      · have hsame₀ := RouteAttr.setAll_sameName (rebindAttrs r c.reg.community c.draws.now) r₀
        exact ⟨_, Store.mem_routes_withAttrs.mpr (.inr ⟨r₀, hr₀, hid, rfl⟩), hsame₀.1, hsame₀.2.2.1⟩
      · exact ⟨r₀, Store.mem_routes_withAttrs.mpr (.inl ⟨hr₀, hid⟩), rfl, rfl⟩
    exact ⟨(hkeeps.domainFor _).trans hreg.domain, (hkeeps.userOf _).trans hreg.user, hreg.name,
      hreg.bind, fun c hc => by rw [hdb']; exact hreg.community c hc⟩

/-- **Any number of further calls**: they all return the route, and rewrite its row alone. -/
theorem registerEach_again (hrel : eng.Reliable) (calls : List RegisterCall)
    (h : Recognised db.store r d u reg₀) (hcalls : ∀ c ∈ calls, Repeats db.store reg₀ d u c.reg) :
    ∃ rs db', registerEach eng calls db = .ok rs db' ∧ rs.length = calls.length ∧
      (∀ r' ∈ rs, r'.id = r.id) ∧
      db'.store = { db.store with
        routes := modify Route.id r.id (Route.recalled calls) db.store.routes } := by
  induction calls generalizing db r with
  | nil =>
    refine ⟨[], db, rfl, rfl, by simp, ?_⟩
    have hnone : Relational.modify Route.id r.id (Route.recalled []) db.store.routes =
        db.store.routes := by
      unfold Relational.modify
      simp [Route.recalled]
    rw [hnone]
  | cons c calls ih =>
    obtain ⟨db₁, hcall, hdb₁⟩ := registerRoute_again hrel h (hcalls c List.mem_cons_self)
    obtain ⟨h₁, hkeep⟩ := h.rebind hdb₁
    obtain ⟨rs, db', hrest, hlen, hids, hdb'⟩ :=
      ih h₁ fun c' hc' => hkeep _ (hcalls c' (List.mem_cons_of_mem c hc'))
    refine ⟨r.rebind c.reg.community c.draws.now :: rs, db', ?_, by simp [hlen], ?_, ?_⟩
    · unfold registerEach
      rw [Service.bind_of_ok hcall, Service.bind_of_ok hrest]
      rfl
    · intro r' hr'
      rcases List.mem_cons.mp hr' with rfl | hr'
      · exact Route.rebind_id _ _ _
      · exact (hids r' hr').trans (Route.rebind_id _ _ _)
    · have hroutes : modify Route.id r.id (Route.recalled calls) db₁.store.routes =
          modify Route.id r.id (Route.recalled (c :: calls)) db.store.routes := by
        rw [hdb₁]
        show Relational.modify _ _ _ (Relational.modify Route.id r.id _ db.store.routes) = _
        rw [modify_modify (RouteAttr.setAll_id _)]
        refine modify_congr fun r₀ hr₀ hid => ?_
        obtain rfl : r₀ = r := db.valid.routeKeys.inj hr₀ h.stored hid
        exact (Route.recalled_cons c calls r₀).symm
      rw [hdb', Route.rebind_id, hroutes, hdb₁]
      rfl

end Again

/-- The store with other restrictions on its domains. -/
def Store.restrict (s : Store) (restricted : Domain → Bool) : Store :=
  { s with domains := s.domains.map fun d => { d with restricted := restricted d } }

theorem Store.Valid.restrict {s : Store} (hv : s.Valid) (restricted : Domain → Bool) :
    (s.restrict restricted).Valid := by
  have hcolumn : ∀ column : Domain → String,
      (∀ d, column { d with restricted := restricted d } = column d) →
      (s.restrict restricted).domains.map column = s.domains.map column := by
    intro column hkeep
    unfold Store.restrict
    rw [List.map_map]
    exact List.map_congr_left fun d _ => hkeep d
  refine { hv with domainKeys := ?_, domainNames := ?_, domainValues := ?_, routeDomain := ?_ }
  · unfold Keyed
    rw [hcolumn Domain.id fun _ => rfl]
    exact hv.domainKeys
  · unfold Keyed
    rw [hcolumn Domain.name fun _ => rfl]
    exact hv.domainNames
  · unfold Keyed
    rw [hcolumn Domain.value fun _ => rfl]
    exact hv.domainValues
  · intro r hr
    show r.domainId ∈ (s.restrict restricted).domains.map Domain.id
    rw [hcolumn Domain.id fun _ => rfl]
    exact hv.routeDomain r hr

/-- An administrator restricts domains, or lifts restrictions. -/
def Database.restrict (db : Database) (restricted : Domain → Bool) : Database :=
  ⟨db.store.restrict restricted, db.valid.restrict restricted⟩

/-- **Registering again.** In every run from a state without routes, a stored route goes
back to a registration of the run. Whatever has become of its status, its verification or
the restrictions of domains since then, calls by an owner that resolve to its domain with
the name and the layout of that registration all return the route, verify it and note the
contact; a route without a community gets the first one named, and nothing else changes. -/
theorem registerRoute_repeated (eng : Engine) (hrel : eng.Reliable) (setup : Setup) (s₀ s : System)
    (hroutes : s₀.db.store.routes = []) (es : List Event)
    (hrun : run (step eng setup) s₀ es = some s) (r : Route) (hr : r ∈ s.db.store.routes) :
    ∃ reg₀, (r.id, reg₀) ∈ record (step eng setup) (registrations eng setup) s₀ es ∧
      reg₀.routeName = r.name ∧
      ∀ restricted : Domain → Bool,
      let db := s.db.restrict restricted
      ∀ d ∈ db.store.domains, d.id = r.domainId → d.domainType ≠ .ephemeral →
      ∀ u ∈ db.store.users, u.id ∈ db.store.owners r.id →
      ∀ calls : List RegisterCall, (∀ c ∈ calls, Repeats db.store reg₀ d u c.reg) →
      ∃ rs db', registerEach eng calls db = .ok rs db' ∧ rs.length = calls.length ∧
        (∀ r' ∈ rs, r'.id = r.id) ∧
        db'.store = { db.store with
          routes := modify Route.id r.id (Route.recalled calls) db.store.routes } := by
  have htraced := run_traced hroutes hrun
  obtain ⟨reg₀, hreg₀⟩ := htraced.logged r hr
  obtain ⟨hname, hgen⟩ := htraced.generated r hr reg₀ hreg₀
  refine ⟨reg₀, hreg₀, hname, ?_⟩
  intro restricted db d hd hid htype u hu hown calls hcalls
  obtain ⟨d₀, hd₀, rfl⟩ := List.mem_map.mp hd
  have hurl := hgen d₀ hd₀ hid htype u hu hown
  refine registerEach_again hrel calls ⟨hr, hown, htype, ?_⟩ hcalls
  rw [hname]
  exact hurl

/-- Alice registers a name. -/
def aliceRegisters : List Event :=
  [.transact (.registerRoute (callBy "alice" "app" 0).1 (callBy "alice" "app" 0).2)]

/-- The registry after that, all its domains restricted. -/
def restrictedAfter : Database :=
  ((run (step .sqlite plainSetup) ⟨twoUsers, 0, []⟩ aliceRegisters).getD
    ⟨twoUsers, 0, []⟩).db.restrict fun _ => true

/-- Alice calls again, at the time `n`. -/
def aliceAgain (n : Nat) : RegisterCall := ⟨(callBy "alice" "app" n).1, (callBy "alice" "app" n).2⟩

theorem registerRoute_repeated_alice :
    restrictedAfter.store.domains.map Domain.restricted = [true] ∧
      ∃ rs db', registerEach .sqlite [aliceAgain 5, aliceAgain 9] restrictedAfter = .ok rs db' ∧
        rs.map Route.id = ["route-0", "route-0"] ∧
        db'.store.routes.map Route.lastContact = [9] := by
  let s := (run (step .sqlite plainSetup) ⟨twoUsers, 0, []⟩ aliceRegisters).getD ⟨twoUsers, 0, []⟩
  let r : Route := newRoute { id := "d", name := "std", value := "example.com", default := true }
    "https://example.com/app" (callBy "alice" "app" 0).1 (callBy "alice" "app" 0).2
  refine ⟨by decide, ?_⟩
  obtain ⟨reg₀, hreg₀, -, hagain⟩ := registerRoute_repeated .sqlite Engine.sqlite_reliable
    plainSetup ⟨twoUsers, 0, []⟩ s (by decide) aliceRegisters rfl r (by decide)
  obtain rfl : reg₀ = (callBy "alice" "app" 0).1 :=
    congrArg Prod.snd (List.mem_singleton.mp hreg₀)
  have hrepeats : ∀ n, Repeats restrictedAfter.store (callBy "alice" "app" 0).1
      { id := "d", name := "std", value := "example.com", default := true, restricted := true }
      { id := "1", uid := some "alice" } (aliceAgain n).reg := by
    intro n
    exact ⟨rfl, rfl, rfl, rfl, fun c hc => by cases hc⟩
  obtain ⟨rs, db', hcalls, hlen, hids, hdb'⟩ := hagain (fun _ => true) _ List.mem_cons_self rfl
    (by decide) _ List.mem_cons_self (by decide) [aliceAgain 5, aliceAgain 9] (by
      intro c hc
      rcases List.mem_pair.mp hc with rfl | rfl <;> exact hrepeats _)
  refine ⟨rs, db', hcalls, ?_, by rw [hdb']; decide⟩
  obtain ⟨r₁, r₂, rfl⟩ := List.length_eq_two.mp hlen
  show [r₁.id, r₂.id] = _
  rw [hids r₁ (by simp), hids r₂ (by simp)]
  decide

end RouteRegistry
