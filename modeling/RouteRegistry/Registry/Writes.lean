import RouteRegistry.Registry.Flush

/-!
# Flushing what the services write

Closed forms of the flushes the services make: attribute writes on one stored route
(`flush_setRoute`), a new route with its owner (`flush_newRoute`) and the replacement of
a route's rules (`flush_replaceRules`).
-/

namespace RouteRegistry

open Relational

/-- A flush of two batches is the two flushes in turn. -/
theorem flush_append (s : Store) (Δ Δ' : List Change) :
    flush s (Δ ++ Δ') = flush s Δ >>= fun s' => flush s' Δ' := by
  unfold flush
  exact List.foldlM_append

theorem flush_append_ok {s s' : Store} {Δ Δ' : List Change} (h : flush s Δ = .ok s') :
    flush s (Δ ++ Δ') = flush s' Δ' := by
  rw [flush_append, h]
  rfl

theorem flush_append_error {s : Store} {Δ Δ' : List Change} {e : FlushError}
    (h : flush s Δ = .error e) : flush s (Δ ++ Δ') = .error e := by
  rw [flush_append, h]
  rfl

theorem flush_single (s : Store) (c : Change) : flush s [c] = c.apply s := by
  rw [flush_cons]
  cases c.apply s <;> rfl

/-! ## The effect of a change -/

/-- What a change does to the tables where nothing refuses it. -/
def Change.effect (s : Store) : Change → Store
  | .addUser u => { s with users := s.users ++ [u] }
  | .addGroup g => { s with groups := s.groups ++ [g] }
  | .addDomain d => { s with domains := s.domains ++ [d] }
  | .addCommunity c => { s with communities := s.communities ++ [c] }
  | .addRoute r => { s with routes := s.routes ++ [r] }
  | .addOwnership o => { s with ownerships := s.ownerships ++ [o] }
  | .addRule r => { s with rules := s.rules ++ [r] }
  | .addRequest m => { s with requests := s.requests ++ [m] }
  | .addAdminToken t => { s with adminTokens := s.adminTokens ++ [t] }
  | .setRoute id a => { s with routes := modify Route.id id a.set s.routes }
  | .setDomainDefault id value =>
    { s with domains := modify Domain.id id (Domain.setDefault value) s.domains }
  | .setUserAdmin id value => { s with users := modify User.id id (User.setAdmin value) s.users }
  | .deleteEntity id =>
    { s with
      users := discard User.id id s.users
      groups := discard Group.id id s.groups
      ownerships := discard Ownership.entityId id s.ownerships }
  | .deleteDomain id => { s with domains := discard Domain.id id s.domains }
  | .deleteCommunity id =>
    { s with
      communities := discard Community.id id s.communities
      routes := modify Route.communityId (some id) (RouteAttr.community none).set s.routes }
  | .deleteAdminToken id => { s with adminTokens := discard AdminToken.id id s.adminTokens }
  | .deleteRules routeId => { s with rules := discard Rule.routeId routeId s.rules }

/-- A change that goes through has its effect. -/
theorem Change.apply_effect {s s' : Store} {c : Change} (h : c.apply s = .ok s') :
    s' = c.effect s := by
  cases c <;> simp only [Change.apply, check_bind_eq_ok, pure_eq_ok] at h <;>
    grind [Change.effect]

/-- What the effect of each change keeps, a flush keeps. -/
theorem flush_keeps {I : Store → Prop} {Δ : List Change}
    (hkeep : ∀ s, I s → ∀ c ∈ Δ, I (c.effect s)) {s s' : Store} (hf : flush s Δ = .ok s')
    (h : I s) : I s' := by
  induction Δ generalizing s with
  | nil =>
    cases hf
    exact h
  | cons c Δ ih =>
    obtain ⟨s₁, hc, hΔ⟩ := flush_cons_eq_ok.mp hf
    have h₁ : I s₁ := by
      rw [Change.apply_effect hc]
      exact hkeep s h c List.mem_cons_self
    exact ih (fun s hs c' hc' => hkeep s hs c' (List.mem_cons_of_mem c hc')) hΔ h₁

/-! ## Changes that only a unique constraint can stop -/

@[simp] theorem check_bind_eq_error {bad : Prop} [Decidable bad] {e e' : FlushError}
    {f : Unit → Except FlushError Store} :
    (check bad e >>= f) = .error e' ↔ (bad ∧ e = e') ∨ (¬ bad ∧ f () = .error e') := by
  unfold check
  by_cases h : bad
  · simp [h, bind, Except.bind]
  · simp [h, bind, Except.bind]

@[simp] theorem pure_ne_error {s : Store} {e : FlushError} :
    (pure s : Except FlushError Store) ≠ .error e := by
  simp [pure, Except.pure]

/-- Whatever the store, the change violates no `NOT NULL` or `FOREIGN KEY` constraint. -/
def Change.Safe (c : Change) : Prop :=
  ∀ (s : Store) (k : ConstraintKind), c.apply s = .error (.integrity k) → k = .unique

theorem flush_safe {Δ : List Change} (h : ∀ c ∈ Δ, c.Safe) {s : Store} {k : ConstraintKind}
    (hf : flush s Δ = .error (.integrity k)) : k = .unique := by
  induction Δ generalizing s with
  | nil => cases hf
  | cons c Δ ih =>
    rw [flush_cons] at hf
    cases hc : c.apply s with
    | error e =>
      rw [hc] at hf
      cases hf
      exact h c List.mem_cons_self s k hc
    | ok s' =>
      rw [hc] at hf
      exact ih (fun c' hc' => h c' (List.mem_cons_of_mem c hc')) hf

/-- The changes that only a unique constraint can stop. -/
def Change.uniqueOnly : Change → Prop
  | .addDomain _ | .addAdminToken _ | .setDomainDefault _ _ | .setUserAdmin _ _
  | .deleteCommunity _ | .deleteAdminToken _ | .deleteRules _ => True
  | .setRoute _ a => a.newCommunity = none
  | _ => False

theorem Change.safe_of_uniqueOnly {c : Change} (h : c.uniqueOnly) : c.Safe := by
  intro s k happly
  cases c with
  | deleteAdminToken | deleteRules => exact absurd happly pure_ne_error
  | addDomain | addAdminToken | setDomainDefault | setUserAdmin | deleteCommunity =>
    simp only [Change.apply, check_bind_eq_error, pure_ne_error] at happly
    grind
  | setRoute id a =>
    have hc : ¬ ∃ c ∈ a.newCommunity, c ∉ s.communityIds := by
      rintro ⟨c, hc, -⟩
      rw [show a.newCommunity = none from h] at hc
      cases hc
    simp only [Change.apply, check_bind_eq_error, pure_ne_error] at happly
    grind
  | _ => exact h.elim

/-! ## Attributes of one route -/

/-- Set several attributes in order. -/
def RouteAttr.setAll (as : List RouteAttr) (r : Route) : Route := as.foldl (fun r a => a.set r) r

@[simp] theorem RouteAttr.setAll_id (as : List RouteAttr) (r : Route) :
    (RouteAttr.setAll as r).id = r.id := by
  induction as generalizing r with
  | nil => rfl
  | cons a as ih => exact (ih (a.set r)).trans (a.set_id r)

@[simp] theorem RouteAttr.setAll_src (as : List RouteAttr) (r : Route) :
    (RouteAttr.setAll as r).src = r.src := by
  induction as generalizing r with
  | nil => rfl
  | cons a as ih => exact (ih (a.set r)).trans (a.set_src r)

theorem RouteAttr.setAll_append (as bs : List RouteAttr) (r : Route) :
    RouteAttr.setAll (as ++ bs) r = RouteAttr.setAll bs (RouteAttr.setAll as r) :=
  List.foldl_append

/-- The store with attributes of one route set. -/
def Store.withAttrs (s : Store) (id : String) (as : List RouteAttr) : Store :=
  { s with routes := modify Route.id id (RouteAttr.setAll as) s.routes }

theorem Store.owners_withAttrs (s : Store) (id : String) (as : List RouteAttr) (id' : String) :
    (s.withAttrs id as).owners id' = s.owners id' := rfl

theorem Store.rulesOf_withAttrs (s : Store) (id : String) (as : List RouteAttr) (id' : String) :
    (s.withAttrs id as).rulesOf id' = s.rulesOf id' := rfl

theorem Store.mem_routes_withAttrs {s : Store} {id : String} {as : List RouteAttr} {r : Route} :
    r ∈ (s.withAttrs id as).routes ↔
      (r ∈ s.routes ∧ r.id ≠ id) ∨ ∃ r₀ ∈ s.routes, r₀.id = id ∧ r = RouteAttr.setAll as r₀ :=
  mem_modify

theorem Store.withAttrs_nil (s : Store) (id : String) : s.withAttrs id [] = s := by
  have : Relational.modify Route.id id (RouteAttr.setAll []) s.routes = s.routes := by
    unfold Relational.modify
    simp [RouteAttr.setAll]
  simp [Store.withAttrs, this]

theorem Store.withAttrs_withAttrs (s : Store) (id : String) (as bs : List RouteAttr) :
    (s.withAttrs id as).withAttrs id bs = s.withAttrs id (as ++ bs) := by
  unfold Store.withAttrs
  rw [modify_modify (RouteAttr.setAll_id as)]
  congr 2
  exact funext fun r => (RouteAttr.setAll_append as bs r).symm

theorem Store.routeIds_withAttrs (s : Store) (id : String) (as : List RouteAttr) :
    (s.withAttrs id as).routeIds = s.routeIds :=
  map_modify Route.id id (RouteAttr.setAll_id as) s.routes

/-- Attribute writes on a stored route rewrite its row. -/
theorem flush_setRoute {s : Store} {id : String} (as : List RouteAttr)
    (hid : id ∈ s.routeIds)
    (hc : ∀ a ∈ as, ∀ c, a.newCommunity = some c → c ∈ s.communityIds) :
    flush s (as.map (.setRoute id)) = .ok (s.withAttrs id as) := by
  induction as generalizing s with
  | nil => simp [Store.withAttrs_nil]
  | cons a as ih =>
    have happly : (Change.setRoute id a).apply s =
        .ok { s with routes := modify Route.id id a.set s.routes } := by
      have h1 : ¬ id ∉ s.routeIds := not_not.mpr hid
      have h2 : ¬ ∃ c ∈ a.newCommunity, c ∉ s.communityIds := by
        rintro ⟨c, hca, hn⟩
        exact hn (hc a List.mem_cons_self c hca)
      simp only [Change.apply]
      rw [check_bind_of_not h1, check_bind_of_not h2]
      rfl
    have hid' : id ∈ ({ s with routes := modify Route.id id a.set s.routes } : Store).routeIds := by
      show id ∈ (modify Route.id id a.set s.routes).map Route.id
      rw [Store.routeIds_modify]
      exact hid
    rw [List.map_cons, flush_cons, happly]
    refine (ih hid' fun a' ha' c hca' => hc a' (List.mem_cons_of_mem _ ha') c hca').trans ?_
    unfold Store.withAttrs
    rw [modify_modify a.set_id]
    rfl

/-- Writes that name no community need none to be stored. -/
theorem flush_setPlain {s : Store} {id : String} {as : List RouteAttr} (hid : id ∈ s.routeIds)
    (has : ∀ a ∈ as, a.newCommunity = none) :
    flush s (as.map (.setRoute id)) = .ok (s.withAttrs id as) := by
  refine flush_setRoute as hid fun a ha c hc => ?_
  rw [has a ha] at hc
  cases hc

/-- A route is put into a stored community. -/
theorem flush_setCommunity {s : Store} {id c : String} (hid : id ∈ s.routeIds)
    (hc : c ∈ s.communityIds) :
    flush s ([RouteAttr.community (some c)].map (.setRoute id)) =
      .ok (s.withAttrs id [.community (some c)]) := by
  refine flush_setRoute _ hid fun a ha c' hc' => ?_
  obtain rfl := List.mem_singleton.mp ha
  cases hc'
  exact hc

/-- A write of a community that is not stored is refused. -/
theorem flush_setCommunity_dangling {s : Store} {id c : String} {Δ : List Change}
    (hid : id ∈ s.routeIds) (hc : c ∉ s.communityIds) :
    flush s (.setRoute id (.community (some c)) :: Δ) = .error (.integrity .foreignKey) := by
  have h1 : ¬ id ∉ s.routeIds := not_not.mpr hid
  have h2 : ∃ c' ∈ (RouteAttr.community (some c)).newCommunity, c' ∉ s.communityIds :=
    ⟨c, rfl, hc⟩
  rw [flush_cons]
  simp only [Change.apply]
  rw [check_bind_of_not h1, check_bind_of h2]
  rfl

/-! ## A new route with its owner -/

section NewRoute

variable {s : Store} {r : Route} {owner : String}

/-- The store after a registration: the route, owned by one entity. -/
def Store.withRoute (s : Store) (r : Route) (owner : String) : Store :=
  { s with routes := s.routes ++ [r], ownerships := s.ownerships ++ [⟨owner, r.id⟩] }

theorem Store.owners_withRoute (s : Store) (r : Route) (owner id : String) :
    (s.withRoute r owner).owners id =
      if r.id = id then s.owners id ++ [owner] else s.owners id := by
  unfold Store.owners Store.withRoute
  rw [List.filter_append, List.map_append]
  by_cases h : r.id = id
  · simp [h]
  · simp [h]

theorem Store.routeIds_withRoute (s : Store) (r : Route) (owner : String) :
    (s.withRoute r owner).routeIds = s.routeIds ++ [r.id] := by
  simp [Store.routeIds, Store.withRoute]

/-- What a registration draws is new: no stored route has its id or token. -/
def Store.FreshFor (s : Store) (r : Route) : Prop :=
  r.id ∉ s.routeIds ∧ r.token ∉ s.routes.map Route.token

instance (s : Store) (r : Route) : Decidable (s.FreshFor r) :=
  inferInstanceAs (Decidable (_ ∧ _))

theorem flush_newRoute (hv : s.Valid) (hfresh : s.FreshFor r)
    (hsrc : r.src ∉ s.routes.map Route.src) (hdomain : r.domainId ∈ s.domainIds)
    (howner : owner ∈ s.entityIds) (hc : ∀ c, r.communityId = some c → c ∈ s.communityIds) :
    flush s [.addRoute r, .addOwnership ⟨owner, r.id⟩] = .ok (s.withRoute r owner) := by
  have hcomm : ¬ ∃ c ∈ r.communityId, c ∉ s.communityIds := by
    rintro ⟨c, hrc, hn⟩
    exact hn (hc c hrc)
  have hroute : (Change.addRoute r).apply s = .ok { s with routes := s.routes ++ [r] } := by
    simp only [Change.apply]
    rw [check_bind_of_not hfresh.1, check_bind_of_not hsrc, check_bind_of_not hfresh.2,
      check_bind_of_not (not_not.mpr hdomain), check_bind_of_not hcomm]
    rfl
  have hnew : (⟨owner, r.id⟩ : Ownership) ∉ s.ownerships :=
    fun ho => hfresh.1 (hv.ownershipRoute _ ho)
  have howner' : owner ∈ ({ s with routes := s.routes ++ [r] } : Store).entityIds := howner
  have hid : r.id ∈ ({ s with routes := s.routes ++ [r] } : Store).routeIds := by
    simp [Store.routeIds]
  rw [flush_cons, hroute]
  show (Change.addOwnership ⟨owner, r.id⟩).apply { s with routes := s.routes ++ [r] } >>= _ = _
  simp only [Change.apply]
  rw [check_bind_of_not hnew, check_bind_of_not (not_not.mpr howner'),
    check_bind_of_not (not_not.mpr hid)]
  rfl

/-- A drawn id or token that is already stored violates a unique constraint. -/
theorem flush_newRoute_stale {Δ : List Change} (hfresh : ¬ s.FreshFor r)
    (hsrc : r.src ∉ s.routes.map Route.src) :
    flush s (.addRoute r :: Δ) = .error (.integrity .unique) := by
  rw [flush_cons]
  simp only [Change.apply]
  by_cases hid : r.id ∈ s.routeIds
  · rw [check_bind_of hid]
    rfl
  · have htok : r.token ∈ s.routes.map Route.token := by
      by_contra htok
      exact hfresh ⟨hid, htok⟩
    rw [check_bind_of_not hid, check_bind_of_not hsrc, check_bind_of htok]
    rfl

/-- A new route whose `src` is in use violates a unique constraint. -/
theorem flush_newRoute_taken {Δ : List Change} (hsrc : r.src ∈ s.routes.map Route.src) :
    flush s (.addRoute r :: Δ) = .error (.integrity .unique) := by
  rw [flush_cons]
  simp only [Change.apply]
  by_cases hid : r.id ∈ s.routeIds
  · rw [check_bind_of hid]
    rfl
  · rw [check_bind_of_not hid, check_bind_of hsrc]
    rfl

/-- A new route in a community that is not stored violates a foreign key. -/
theorem flush_newRoute_dangling {Δ : List Change} {c : String} (hfresh : s.FreshFor r)
    (hsrc : r.src ∉ s.routes.map Route.src) (hdomain : r.domainId ∈ s.domainIds)
    (hrc : r.communityId = some c) (hc : c ∉ s.communityIds) :
    flush s (.addRoute r :: Δ) = .error (.integrity .foreignKey) := by
  have hcomm : ∃ c ∈ r.communityId, c ∉ s.communityIds := ⟨c, hrc, hc⟩
  rw [flush_cons]
  simp only [Change.apply]
  rw [check_bind_of_not hfresh.1, check_bind_of_not hsrc, check_bind_of_not hfresh.2,
    check_bind_of_not (not_not.mpr hdomain), check_bind_of hcomm]
  rfl

end NewRoute

/-! ## The rules of one route -/

section Rules

variable {s : Store} {id : String} {rules : List Rule}

/-- The key of a rule. -/
def Rule.key (r : Rule) : String × String := (r.routeId, r.entityId)

/-- Rules whose route and entities are stored go in when no key repeats. -/
theorem flush_addRules (hroute : ∀ r ∈ rules, r.routeId ∈ s.routeIds)
    (hent : ∀ r ∈ rules, r.entityId ∈ s.entityIds) (hkeys : Keyed Rule.key (s.rules ++ rules)) :
    flush s (rules.map .addRule) = .ok { s with rules := s.rules ++ rules } := by
  induction rules generalizing s with
  | nil => simp
  | cons r rest ih =>
    have hsplit : s.rules ++ r :: rest = s.rules ++ [r] ++ rest := by simp
    rw [hsplit] at hkeys
    have hfirst : Keyed Rule.key (s.rules ++ [r]) :=
      (List.sublist_append_left _ rest |>.map Rule.key).nodup hkeys
    have hnew : (r.routeId, r.entityId) ∉ s.rules.map fun r => (r.routeId, r.entityId) :=
      (keyed_append_single.mp hfirst).2
    have happly : (Change.addRule r).apply s = .ok { s with rules := s.rules ++ [r] } := by
      simp only [Change.apply]
      rw [check_bind_of_not hnew, check_bind_of_not (not_not.mpr (hroute r List.mem_cons_self)),
        check_bind_of_not (not_not.mpr (hent r List.mem_cons_self))]
      rfl
    rw [List.map_cons, flush_cons, happly]
    refine (ih (s := { s with rules := s.rules ++ [r] })
      (fun x hx => hroute x (List.mem_cons_of_mem _ hx))
      (fun x hx => hent x (List.mem_cons_of_mem _ hx)) hkeys).trans ?_
    rw [hsplit]

/-- A repeated key violates the primary key of `rule`. -/
theorem flush_addRules_repeated (hroute : ∀ r ∈ rules, r.routeId ∈ s.routeIds)
    (hent : ∀ r ∈ rules, r.entityId ∈ s.entityIds) (hold : Keyed Rule.key s.rules)
    (hkeys : ¬ Keyed Rule.key (s.rules ++ rules)) :
    flush s (rules.map .addRule) = .error (.integrity .unique) := by
  induction rules generalizing s with
  | nil =>
    rw [List.append_nil] at hkeys
    exact absurd hold hkeys
  | cons r rest ih =>
    rw [List.map_cons, flush_cons]
    simp only [Change.apply]
    by_cases hnew : (r.routeId, r.entityId) ∈ s.rules.map fun r => (r.routeId, r.entityId)
    · rw [check_bind_of hnew]
      rfl
    · rw [check_bind_of_not hnew,
        check_bind_of_not (not_not.mpr (hroute r List.mem_cons_self)),
        check_bind_of_not (not_not.mpr (hent r List.mem_cons_self))]
      refine ih (s := { s with rules := s.rules ++ [r] })
        (fun x hx => hroute x (List.mem_cons_of_mem _ hx))
        (fun x hx => hent x (List.mem_cons_of_mem _ hx))
        (keyed_append_single.mpr ⟨hold, hnew⟩) ?_
      simpa using hkeys

/-- The store with the rules of one route replaced. -/
def Store.withRules (s : Store) (id : String) (rules : List Rule) : Store :=
  { s with rules := discard Rule.routeId id s.rules ++ rules }

/-- A route that is not stored has no rules. -/
theorem Store.Valid.rulesOf_eq_nil (hv : s.Valid) (h : id ∉ s.routeIds) : s.rulesOf id = [] := by
  refine List.filter_eq_nil_iff.mpr fun r hr hid => h ?_
  exact of_decide_eq_true hid ▸ hv.ruleRoute r hr

/-- Replaced rules are the rules of that route; the others keep theirs. -/
theorem Store.rulesOf_withRules {s : Store} {id : String} {rules : List Rule}
    (hrules : ∀ r ∈ rules, r.routeId = id) (id' : String) :
    (s.withRules id rules).rulesOf id' = if id = id' then rules else s.rulesOf id' := by
  unfold Store.rulesOf Store.withRules Relational.discard
  rw [List.filter_append, List.filter_filter]
  by_cases h : id = id'
  · subst h
    rw [if_pos rfl, List.filter_eq_nil_iff.mpr, List.filter_eq_self.mpr, List.nil_append]
    · exact fun r hr => decide_eq_true (hrules r hr)
    · intro r _
      by_cases hr : r.routeId = id <;> simp [hr]
  · have hnone : rules.filter (fun r => decide (r.routeId = id')) = [] :=
      List.filter_eq_nil_iff.mpr fun r hr => by simp [hrules r hr, h]
    rw [if_neg h, hnone, List.append_nil]
    refine List.filter_congr fun r _ => ?_
    by_cases hr : r.routeId = id'
    · simp [hr, Ne.symm h]
    · simp [hr]

/-- Rules of one route are told apart by their entities. -/
theorem keyed_key_iff (hrules : ∀ r ∈ rules, r.routeId = id) :
    Keyed Rule.key rules ↔ Keyed Rule.entityId rules := by
  have hmap : rules.map Rule.key = (rules.map Rule.entityId).map (Prod.mk id) := by
    rw [List.map_map]
    refine List.map_congr_left fun r hr => ?_
    rw [← hrules r hr]
    rfl
  unfold Keyed
  rw [hmap]
  exact List.nodup_map_iff fun _ _ h => congrArg Prod.snd h

/-- Rules of one route clash with the stored ones exactly when two, new or stored, are
about one entity. -/
theorem keyed_addRules (hv : s.Valid) (hrules : ∀ r ∈ rules, r.routeId = id) :
    Keyed Rule.key (s.rules ++ rules) ↔ Keyed Rule.entityId (s.rulesOf id ++ rules) := by
  have hroute : ∀ r ∈ s.rulesOf id ++ rules, r.routeId = id := by
    intro r hr
    rcases List.mem_append.mp hr with hr | hr
    · exact of_decide_eq_true (List.mem_filter.mp hr).2
    · exact hrules r hr
  rw [← keyed_key_iff hroute, keyed_append, keyed_append]
  constructor
  · rintro ⟨hold, hnew, hne⟩
    exact ⟨hold.filter _, hnew, fun r hr => hne r (List.mem_of_mem_filter hr)⟩
  · rintro ⟨-, hnew, hne⟩
    refine ⟨hv.ruleKeys, hnew, fun r hr r' hr' heq => hne r ?_ r' hr' heq⟩
    -- a stored rule with the key of a new one is a rule of the route
    have hid : r.routeId = id := (congrArg Prod.fst heq).trans (hrules r' hr')
    exact List.mem_filter.mpr ⟨hr, decide_eq_true hid⟩

/-- Rules of one route clash exactly when two of them are about one entity. -/
theorem keyed_replaceRules (hv : s.Valid) (hrules : ∀ r ∈ rules, r.routeId = id) :
    Keyed Rule.key (discard Rule.routeId id s.rules ++ rules) ↔ Keyed Rule.entityId rules := by
  have hold : Keyed Rule.key (discard Rule.routeId id s.rules) :=
    Keyed.discard (g := Rule.key) hv.ruleKeys
  rw [← keyed_key_iff hrules, keyed_append]
  constructor
  · rintro ⟨-, h, -⟩
    exact h
  · refine fun h => ⟨hold, h, fun r hr r' hr' heq => (mem_discard.mp hr).2 ?_⟩
    exact (congrArg Prod.fst heq).trans (hrules r' hr')

/-- New rules of a stored route beside those that are there. -/
theorem flush_moreRules (hv : s.Valid) (hid : id ∈ s.routeIds)
    (hrules : ∀ r ∈ rules, r.routeId = id) (hent : ∀ r ∈ rules, r.entityId ∈ s.entityIds) :
    flush s (rules.map .addRule) =
      if Keyed Rule.entityId (s.rulesOf id ++ rules) then .ok { s with rules := s.rules ++ rules }
      else .error (.integrity .unique) := by
  have hroute : ∀ r ∈ rules, r.routeId ∈ s.routeIds := fun r hr => hrules r hr ▸ hid
  by_cases h : Keyed Rule.entityId (s.rulesOf id ++ rules)
  · rw [if_pos h]
    exact flush_addRules hroute hent ((keyed_addRules hv hrules).mpr h)
  · rw [if_neg h]
    exact flush_addRules_repeated hroute hent hv.ruleKeys
      fun hk => h ((keyed_addRules hv hrules).mp hk)

/-- Replacing the rules of a stored route. -/
theorem flush_replaceRules (hv : s.Valid) (hid : id ∈ s.routeIds)
    (hrules : ∀ r ∈ rules, r.routeId = id) (hent : ∀ r ∈ rules, r.entityId ∈ s.entityIds) :
    flush s (.deleteRules id :: rules.map .addRule) =
      if Keyed Rule.entityId rules then .ok (s.withRules id rules)
      else .error (.integrity .unique) := by
  have hroute : ∀ r ∈ rules, r.routeId ∈ s.routeIds := fun r hr => hrules r hr ▸ hid
  have hold : Keyed Rule.key (discard Rule.routeId id s.rules) :=
    Keyed.discard (g := Rule.key) hv.ruleKeys
  show flush { s with rules := discard Rule.routeId id s.rules } (rules.map .addRule) = _
  by_cases h : Keyed Rule.entityId rules
  · rw [if_pos h]
    exact flush_addRules (s := { s with rules := discard Rule.routeId id s.rules }) hroute hent
      ((keyed_replaceRules hv hrules).mpr h)
  · rw [if_neg h]
    exact flush_addRules_repeated (s := { s with rules := discard Rule.routeId id s.rules })
      hroute hent hold fun hk => h ((keyed_replaceRules hv hrules).mp hk)

end Rules

end RouteRegistry
