import RouteRegistry.Registry.Store

/-!
# Flushes keep the constraints

`Change.apply_valid`: a change that goes through keeps every declared constraint, by
cases on the change; `flush_valid` is the run version. `Database` bundles a store with
the proof, so a committed state is valid by construction.
-/

namespace RouteRegistry

open Relational

@[simp] theorem check_bind_eq_ok {bad : Prop} [Decidable bad] {e : FlushError}
    {f : Unit → Except FlushError Store} {s : Store} :
    (check bad e >>= f) = .ok s ↔ ¬ bad ∧ f () = .ok s := by
  unfold check
  by_cases h : bad
  · simp [h, bind, Except.bind]
  · simp [h, bind, Except.bind]

theorem check_bind_of_not {bad : Prop} [Decidable bad] {e : FlushError}
    {f : Unit → Except FlushError Store} (h : ¬ bad) : (check bad e >>= f) = f () := by
  simp [check, h, bind, Except.bind]

theorem check_bind_of {bad : Prop} [Decidable bad] {e : FlushError}
    {f : Unit → Except FlushError Store} (h : bad) : (check bad e >>= f) = .error e := by
  simp [check, h, bind, Except.bind]

@[simp] theorem pure_eq_ok {s s' : Store} :
    (pure s : Except FlushError Store) = .ok s' ↔ s = s' := by
  simp [pure, Except.pure]

namespace RouteAttr

variable (a : RouteAttr) (r : Route)

@[simp] theorem set_id : (a.set r).id = r.id := by cases a <;> rfl
@[simp] theorem set_domainId : (a.set r).domainId = r.domainId := by cases a <;> rfl
@[simp] theorem set_src : (a.set r).src = r.src := by cases a <;> rfl
@[simp] theorem set_token : (a.set r).token = r.token := by cases a <;> rfl

/-- The community of a route after an attribute is set is the old one or the new. -/
theorem set_communityId_cases :
    (a.set r).communityId = r.communityId ∨ (a.set r).communityId = a.newCommunity := by
  cases a
  case community => exact .inr rfl
  all_goals exact .inl rfl

end RouteAttr

theorem Domain.setDefault_id (value : Bool) (d : Domain) : (d.setDefault value).id = d.id := rfl

theorem User.setAdmin_id (value : Bool) (u : User) : (u.setAdmin value).id = u.id := rfl

namespace Store

/-- The columns a route rewrite keeps are kept by the whole table. -/
theorem routeIds_modify {s : Store} {κ : Type} [DecidableEq κ] (key : Route → κ) (k : κ)
    (a : RouteAttr) : (modify key k a.set s.routes).map Route.id = s.routeIds :=
  map_modify key k a.set_id s.routes

/-- Rewriting routes keeps the constraints when the communities it leaves exist. -/
theorem Valid.modifyRoutes {s : Store} (hv : s.Valid) {κ : Type} [DecidableEq κ]
    (key : Route → κ) (k : κ) (a : RouteAttr)
    (hc : ∀ c, a.newCommunity = some c → c ∈ s.communityIds) :
    ({ s with routes := modify key k a.set s.routes } : Store).Valid := by
  have hids : (modify key k a.set s.routes).map Route.id = s.routeIds := routeIds_modify key k a
  refine { hv with
    routeKeys := hv.routeKeys.modify a.set_id
    routeSrcs := hv.routeSrcs.modify a.set_src
    routeTokens := hv.routeTokens.modify a.set_token
    routeDomain := ?_
    routeCommunity := ?_
    ownershipRoute := fun o ho => by simpa [routeIds, hids] using hv.ownershipRoute o ho
    ruleRoute := fun r hr => by simpa [routeIds, hids] using hv.ruleRoute r hr
    requestRoute := fun m hm => by simpa [routeIds, hids] using hv.requestRoute m hm }
  · intro r hr
    rcases mem_modify.mp hr with ⟨hr, -⟩ | ⟨r₀, hr₀, -, rfl⟩
    · exact hv.routeDomain r hr
    · rw [a.set_domainId]
      exact hv.routeDomain r₀ hr₀
  · intro r hr c hrc
    rcases mem_modify.mp hr with ⟨hr, -⟩ | ⟨r₀, hr₀, -, rfl⟩
    · exact hv.routeCommunity r hr c hrc
    · rcases a.set_communityId_cases r₀ with h | h
      · exact hv.routeCommunity r₀ hr₀ c (h ▸ hrc)
      · exact hc c (h ▸ hrc)

end Store

/-- A table extended by one row has the old rows and the new one. -/
private theorem forall_mem_append_single {α : Type} {p : α → Prop} {l : List α} {a : α}
    (hl : ∀ x ∈ l, p x) (ha : p a) : ∀ x ∈ l ++ [a], p x := by
  intro x hx
  rcases List.mem_append.mp hx with hx | hx
  · exact hl x hx
  · rw [List.mem_singleton] at hx
    exact hx ▸ ha

private theorem mem_map_append_single {α β : Type} {f : α → β} {l : List α} {a : α} {b : β}
    (h : b ∈ l.map f) : b ∈ (l ++ [a]).map f := by
  rw [List.map_append]
  exact List.mem_append_left _ h

namespace Store

variable {s : Store}

/-- What refers to an entity still does when there is one user more. -/
private theorem entityIds_addUser {u : User} {i : String} (h : i ∈ s.entityIds) :
    i ∈ (s.users ++ [u]).map User.id ++ s.groups.map Group.id := by
  rcases List.mem_append.mp h with h | h
  · exact List.mem_append_left _ (mem_map_append_single h)
  · exact List.mem_append_right _ h

theorem Valid.addUser (hv : s.Valid) {u : User} (hid : u.id ∉ s.entityIds) (huid : u.uid ≠ none)
    (hfresh : u.uid ∉ s.users.map User.uid) :
    ({ s with users := s.users ++ [u] } : Store).Valid := by
  have hperm : ((s.users ++ [u]).map User.id ++ s.groups.map Group.id).Perm
      (u.id :: s.entityIds) := by
    simp only [List.map_append, List.map_cons, List.map_nil, List.append_assoc]
    exact List.perm_middle
  exact { hv with
    entityKeys := hperm.nodup_iff.mpr (List.nodup_cons.mpr ⟨hid, hv.entityKeys⟩)
    uids := keyed_append_single.mpr ⟨hv.uids, hfresh⟩
    uidNotNull := forall_mem_append_single hv.uidNotNull huid
    communityEntity := fun c hc => entityIds_addUser (hv.communityEntity c hc)
    ownershipEntity := fun o ho => entityIds_addUser (hv.ownershipEntity o ho)
    ruleEntity := fun r hr => entityIds_addUser (hv.ruleEntity r hr)
    requestEntity := fun m hm => entityIds_addUser (hv.requestEntity m hm) }

theorem Valid.addGroup (hv : s.Valid) {g : Group} (hid : g.id ∉ s.entityIds)
    (hname : g.name ≠ none) (hfresh : g.name ∉ s.groups.map Group.name) :
    ({ s with groups := s.groups ++ [g] } : Store).Valid := by
  have hids : s.users.map User.id ++ (s.groups ++ [g]).map Group.id = s.entityIds ++ [g.id] := by
    simp [entityIds]
  have hkeys : (s.users.map User.id ++ (s.groups ++ [g]).map Group.id).Nodup := by
    rw [hids, ← List.concat_eq_append]
    exact hv.entityKeys.concat hid
  have hkeep : ∀ i ∈ s.entityIds, i ∈ s.users.map User.id ++ (s.groups ++ [g]).map Group.id := by
    intro i hi
    rw [hids]
    exact List.mem_append_left _ hi
  exact { hv with
    entityKeys := hkeys
    groupNames := keyed_append_single.mpr ⟨hv.groupNames, hfresh⟩
    groupNameNotNull := forall_mem_append_single hv.groupNameNotNull hname
    communityEntity := fun c hc => hkeep _ (hv.communityEntity c hc)
    ownershipEntity := fun o ho => hkeep _ (hv.ownershipEntity o ho)
    ruleEntity := fun r hr => hkeep _ (hv.ruleEntity r hr)
    requestEntity := fun m hm => hkeep _ (hv.requestEntity m hm) }

theorem Valid.addRoute (hv : s.Valid) {r : Route} (hid : r.id ∉ s.routeIds)
    (hsrc : r.src ∉ s.routes.map Route.src) (htoken : r.token ∉ s.routes.map Route.token)
    (hdomain : r.domainId ∈ s.domainIds)
    (hcomm : ∀ c, r.communityId = some c → c ∈ s.communityIds) :
    ({ s with routes := s.routes ++ [r] } : Store).Valid :=
  { hv with
    routeKeys := keyed_append_single.mpr ⟨hv.routeKeys, hid⟩
    routeSrcs := keyed_append_single.mpr ⟨hv.routeSrcs, hsrc⟩
    routeTokens := keyed_append_single.mpr ⟨hv.routeTokens, htoken⟩
    routeDomain := forall_mem_append_single hv.routeDomain hdomain
    routeCommunity := forall_mem_append_single hv.routeCommunity hcomm
    ownershipRoute := fun o ho => mem_map_append_single (hv.ownershipRoute o ho)
    ruleRoute := fun r hr => mem_map_append_single (hv.ruleRoute r hr)
    requestRoute := fun m hm => mem_map_append_single (hv.requestRoute m hm) }

/-- Columns of users that are no key may change. -/
theorem Valid.modifyUsers (hv : s.Valid) (id : String) (value : Bool) :
    ({ s with users := modify User.id id (User.setAdmin value) s.users } : Store).Valid := by
  have hids : (modify User.id id (User.setAdmin value) s.users).map User.id
      = s.users.map User.id := map_modify _ _ (User.setAdmin_id value) _
  have huid : ∀ u ∈ modify User.id id (User.setAdmin value) s.users, u.uid ≠ none := by
    intro u hu
    rcases mem_modify.mp hu with ⟨hu, -⟩ | ⟨u₀, hu₀, -, rfl⟩
    · exact hv.uidNotNull u hu
    · exact hv.uidNotNull u₀ hu₀
  exact { hv with
    entityKeys := by simpa [entityIds, hids] using hv.entityKeys
    uids := hv.uids.modify fun _ => rfl
    uidNotNull := huid
    communityEntity := fun c hc => by simpa [entityIds, hids] using hv.communityEntity c hc
    ownershipEntity := fun o ho => by simpa [entityIds, hids] using hv.ownershipEntity o ho
    ruleEntity := fun r hr => by simpa [entityIds, hids] using hv.ruleEntity r hr
    requestEntity := fun m hm => by simpa [entityIds, hids] using hv.requestEntity m hm }

theorem Valid.modifyDomains (hv : s.Valid) (id : String) (value : Bool) :
    ({ s with domains := modify Domain.id id (Domain.setDefault value) s.domains } : Store).Valid := by
  have hids : (modify Domain.id id (Domain.setDefault value) s.domains).map Domain.id
      = s.domainIds := map_modify _ _ (Domain.setDefault_id value) _
  exact { hv with
    domainKeys := hv.domainKeys.modify fun _ => rfl
    domainNames := hv.domainNames.modify fun _ => rfl
    domainValues := hv.domainValues.modify fun _ => rfl
    routeDomain := fun r hr => by simpa [domainIds, hids] using hv.routeDomain r hr }

/-- An entity goes with its ownerships, when nothing else refers to it. -/
theorem Valid.deleteEntity (hv : s.Valid) {id : String} (hrules : ∀ r ∈ s.rules, r.entityId ≠ id)
    (hreqs : ∀ m ∈ s.requests, m.entityId ≠ id) (hcomms : ∀ c ∈ s.communities, c.entityId ≠ id) :
    ({ s with
      users := discard User.id id s.users
      groups := discard Group.id id s.groups
      ownerships := discard Ownership.entityId id s.ownerships } : Store).Valid := by
  -- what refers to an entity other than `id` still does
  have hkeep : ∀ i, i ≠ id → i ∈ s.entityIds →
      i ∈ (discard User.id id s.users).map User.id ++
        (discard Group.id id s.groups).map Group.id := by
    intro i hne hi
    simp only [entityIds, List.mem_append, List.mem_map] at hi ⊢
    rcases hi with ⟨u, hu, rfl⟩ | ⟨g, hg, rfl⟩
    · exact .inl ⟨u, mem_discard.mpr ⟨hu, hne⟩, rfl⟩
    · exact .inr ⟨g, mem_discard.mpr ⟨hg, hne⟩, rfl⟩
  exact { hv with
    entityKeys := hv.entityKeys.sublist
      ((List.filter_sublist.map _).append (List.filter_sublist.map _))
    uids := hv.uids.discard
    uidNotNull := fun u hu => hv.uidNotNull u (mem_discard.mp hu).1
    groupNames := hv.groupNames.discard
    groupNameNotNull := fun g hg => hv.groupNameNotNull g (mem_discard.mp hg).1
    communityEntity := fun c hc => hkeep _ (hcomms c hc) (hv.communityEntity c hc)
    ownershipKeys := hv.ownershipKeys.filter _
    ownershipEntity := fun o ho =>
      hkeep _ (mem_discard.mp ho).2 (hv.ownershipEntity o (mem_discard.mp ho).1)
    ownershipRoute := fun o ho => hv.ownershipRoute o (mem_discard.mp ho).1
    ruleEntity := fun r hr => hkeep _ (hrules r hr) (hv.ruleEntity r hr)
    requestEntity := fun m hm => hkeep _ (hreqs m hm) (hv.requestEntity m hm) }

theorem Valid.deleteDomain (hv : s.Valid) {id : String}
    (hroutes : ∀ r ∈ s.routes, r.domainId ≠ id) :
    ({ s with domains := discard Domain.id id s.domains } : Store).Valid := by
  have hkeep : ∀ r ∈ s.routes, r.domainId ∈ (discard Domain.id id s.domains).map Domain.id := by
    intro r hr
    obtain ⟨d, hd, hid⟩ := List.mem_map.mp (hv.routeDomain r hr)
    refine List.mem_map.mpr ⟨d, mem_discard.mpr ⟨hd, ?_⟩, hid⟩
    rw [hid]
    exact hroutes r hr
  exact { hv with
    domainKeys := hv.domainKeys.discard
    domainNames := hv.domainNames.discard
    domainValues := hv.domainValues.discard
    routeDomain := hkeep }

/-- A community goes when no request refers to it, and leaves its routes without one. -/
theorem Valid.deleteCommunity (hv : s.Valid) {id : String}
    (hreqs : ∀ m ∈ s.requests, m.communityId ≠ id) :
    ({ s with
      communities := discard Community.id id s.communities
      routes := modify Route.communityId (some id) (RouteAttr.community none).set s.routes } :
        Store).Valid := by
  -- first the children lose their reference, then the parent goes
  have hv' := hv.modifyRoutes Route.communityId (some id) (.community none)
    (fun c hc => by simp [RouteAttr.newCommunity] at hc)
  have hkeep : ∀ i, i ≠ id → i ∈ s.communityIds →
      i ∈ (discard Community.id id s.communities).map Community.id := by
    intro i hne hi
    obtain ⟨c, hc, rfl⟩ := List.mem_map.mp hi
    exact List.mem_map.mpr ⟨c, mem_discard.mpr ⟨hc, hne⟩, rfl⟩
  refine { hv' with
    communityKeys := hv.communityKeys.discard
    communityNames := hv.communityNames.discard
    communityEntity := fun c hc => hv.communityEntity c (mem_discard.mp hc).1
    routeCommunity := ?_
    requestCommunity := fun m hm => hkeep _ (hreqs m hm) (hv.requestCommunity m hm) }
  intro r hr c hrc
  rcases mem_modify.mp hr with ⟨hr, hne⟩ | ⟨r₀, -, -, rfl⟩
  · refine hkeep c (fun hcid => hne ?_) (hv.routeCommunity r hr c hrc)
    rw [hrc, hcid]
  · cases hrc

end Store

/-- **One flushed change** keeps every constraint. -/
theorem Change.apply_valid {s s' : Store} {c : Change} (hv : s.Valid)
    (h : c.apply s = .ok s') : s'.Valid := by
  cases c with
  | addUser u =>
    simp only [Change.apply, check_bind_eq_ok, pure_eq_ok] at h
    obtain ⟨hid, huid, hfresh, rfl⟩ := h
    exact hv.addUser hid huid hfresh
  | addGroup g =>
    simp only [Change.apply, check_bind_eq_ok, pure_eq_ok] at h
    obtain ⟨hid, hname, hfresh, rfl⟩ := h
    exact hv.addGroup hid hname hfresh
  | addDomain d =>
    simp only [Change.apply, check_bind_eq_ok, pure_eq_ok] at h
    obtain ⟨hid, hname, hvalue, rfl⟩ := h
    exact { hv with
      domainKeys := keyed_append_single.mpr ⟨hv.domainKeys, hid⟩
      domainNames := keyed_append_single.mpr ⟨hv.domainNames, hname⟩
      domainValues := keyed_append_single.mpr ⟨hv.domainValues, hvalue⟩
      routeDomain := fun r hr => mem_map_append_single (hv.routeDomain r hr) }
  | addCommunity c =>
    simp only [Change.apply, check_bind_eq_ok, pure_eq_ok, not_not] at h
    obtain ⟨hid, hname, hentity, rfl⟩ := h
    exact { hv with
      communityKeys := keyed_append_single.mpr ⟨hv.communityKeys, hid⟩
      communityNames := keyed_append_single.mpr ⟨hv.communityNames, hname⟩
      communityEntity := forall_mem_append_single hv.communityEntity hentity
      routeCommunity := fun r hr c hc => mem_map_append_single (hv.routeCommunity r hr c hc)
      requestCommunity := fun m hm => mem_map_append_single (hv.requestCommunity m hm) }
  | addRoute r =>
    simp only [Change.apply, check_bind_eq_ok, pure_eq_ok, not_not, not_exists, not_and] at h
    obtain ⟨hid, hsrc, htoken, hdomain, hcomm, rfl⟩ := h
    exact hv.addRoute hid hsrc htoken hdomain fun c hc => hcomm c hc
  | addOwnership o =>
    simp only [Change.apply, check_bind_eq_ok, pure_eq_ok, not_not] at h
    obtain ⟨hfresh, hentity, hroute, rfl⟩ := h
    exact { hv with
      ownershipKeys := by
        rw [← List.concat_eq_append]
        exact hv.ownershipKeys.concat hfresh
      ownershipEntity := forall_mem_append_single hv.ownershipEntity hentity
      ownershipRoute := forall_mem_append_single hv.ownershipRoute hroute }
  | addRule r =>
    simp only [Change.apply, check_bind_eq_ok, pure_eq_ok, not_not] at h
    obtain ⟨hfresh, hroute, hentity, rfl⟩ := h
    exact { hv with
      ruleKeys := keyed_append_single.mpr ⟨hv.ruleKeys, hfresh⟩
      ruleRoute := forall_mem_append_single hv.ruleRoute hroute
      ruleEntity := forall_mem_append_single hv.ruleEntity hentity }
  | addRequest m =>
    simp only [Change.apply, check_bind_eq_ok, pure_eq_ok, not_not] at h
    obtain ⟨hfresh, hentity, hcomm, hroute, rfl⟩ := h
    exact { hv with
      requestKeys := keyed_append_single.mpr ⟨hv.requestKeys, hfresh⟩
      requestEntity := forall_mem_append_single hv.requestEntity hentity
      requestCommunity := forall_mem_append_single hv.requestCommunity hcomm
      requestRoute := forall_mem_append_single hv.requestRoute hroute }
  | addAdminToken t =>
    simp only [Change.apply, check_bind_eq_ok, pure_eq_ok] at h
    obtain ⟨hid, hname, hvalue, rfl⟩ := h
    exact { hv with
      tokenKeys := keyed_append_single.mpr ⟨hv.tokenKeys, hid⟩
      tokenNames := keyed_append_single.mpr ⟨hv.tokenNames, hname⟩
      tokenValues := keyed_append_single.mpr ⟨hv.tokenValues, hvalue⟩ }
  | setRoute id a =>
    simp only [Change.apply, check_bind_eq_ok, pure_eq_ok, not_exists, not_and, not_not] at h
    obtain ⟨-, hc, rfl⟩ := h
    exact hv.modifyRoutes Route.id id a hc
  | setDomainDefault id value =>
    simp only [Change.apply, check_bind_eq_ok, pure_eq_ok] at h
    obtain ⟨-, rfl⟩ := h
    exact hv.modifyDomains id value
  | setUserAdmin id value =>
    simp only [Change.apply, check_bind_eq_ok, pure_eq_ok] at h
    obtain ⟨-, rfl⟩ := h
    exact hv.modifyUsers id value
  | deleteEntity id =>
    simp only [Change.apply, check_bind_eq_ok, pure_eq_ok, not_exists, not_and] at h
    obtain ⟨hrules, hreqs, hcomms, rfl⟩ := h
    exact hv.deleteEntity hrules hreqs hcomms
  | deleteDomain id =>
    simp only [Change.apply, check_bind_eq_ok, pure_eq_ok, not_exists, not_and] at h
    obtain ⟨hroutes, rfl⟩ := h
    exact hv.deleteDomain hroutes
  | deleteCommunity id =>
    simp only [Change.apply, check_bind_eq_ok, pure_eq_ok, not_exists, not_and] at h
    obtain ⟨hreqs, rfl⟩ := h
    exact hv.deleteCommunity hreqs
  | deleteAdminToken id =>
    simp only [Change.apply, pure_eq_ok] at h
    subst h
    exact { hv with
      tokenKeys := hv.tokenKeys.discard
      tokenNames := hv.tokenNames.discard
      tokenValues := hv.tokenValues.discard }
  | deleteRules routeId =>
    simp only [Change.apply, pure_eq_ok] at h
    subst h
    exact { hv with
      ruleKeys := hv.ruleKeys.discard
      ruleRoute := fun r hr => hv.ruleRoute r (mem_discard.mp hr).1
      ruleEntity := fun r hr => hv.ruleEntity r (mem_discard.mp hr).1 }

@[simp] theorem flush_nil (s : Store) : flush s [] = .ok s := rfl

theorem flush_cons (s : Store) (c : Change) (Δ : List Change) :
    flush s (c :: Δ) = c.apply s >>= fun s' => flush s' Δ := rfl

/-- A flush goes through exactly when each of its changes does in turn. -/
theorem flush_cons_eq_ok {s s' : Store} {c : Change} {Δ : List Change} :
    flush s (c :: Δ) = .ok s' ↔ ∃ s₁, c.apply s = .ok s₁ ∧ flush s₁ Δ = .ok s' := by
  rw [flush_cons]
  cases c.apply s with
  | ok s₁ => simp [bind, Except.bind]
  | error e => simp [bind, Except.bind]

/-- **Flushes keep every constraint.** -/
theorem flush_valid {s s' : Store} {Δ : List Change} (hv : s.Valid)
    (h : flush s Δ = .ok s') : s'.Valid := by
  induction Δ generalizing s with
  | nil =>
    cases h
    exact hv
  | cons c Δ ih =>
    obtain ⟨s₁, hc, hΔ⟩ := flush_cons_eq_ok.mp h
    exact ih (Change.apply_valid hv hc) hΔ

/-- The committed state: a store that satisfies the declared constraints. -/
structure Database where
  store : Store
  valid : store.Valid

theorem Database.ext {db db' : Database} (h : db.store = db'.store) : db = db' := by
  cases db
  cases db'
  cases h
  rfl

/-- A database without rows. -/
theorem Store.empty_valid : ({} : Store).Valid := by
  constructor <;> simp [Store.entityIds, Keyed]

/-- The database that changes build from nothing; without rows if they do not flush. -/
def Database.load (Δ : List Change) : Database :=
  match h : flush {} Δ with
  | .ok s => ⟨s, flush_valid Store.empty_valid h⟩
  | .error _ => ⟨{}, Store.empty_valid⟩

/-! ## A small registry -/

def alice : User := { id := "1", uid := some "alice" }

/-- A domain open to all. -/
def openDomain : Domain := { id := "d", name := "std", value := "example.com", default := true }

/-- A verified route, last in contact at time zero. -/
def appRoute : Route where
  id := "r"
  domainId := "d"
  name := "app"
  src := "https://example.com/app"
  dst := "tunnel"
  token := "t"
  verificationStatus := .verified
  lastContact := 0

/-- One route, owned by Alice. -/
def oneRoute : Database := .load
  [.addUser alice, .addDomain openDomain, .addRoute appRoute, .addOwnership ⟨alice.id, appRoute.id⟩]

end RouteRegistry
