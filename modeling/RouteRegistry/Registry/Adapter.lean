import RouteRegistry.Registry.Documents

/-!
# Routes on the wire (`adapter.py`, `pydantic_models.py`)

`list_routes` loads each route with its community and its rules, and each rule with its
entity; `from_route` makes a wire object of it, appending the name of each rule's entity
to one of four lists.

- `fromRoute` is the adapter, on a route as loaded (`Store.load`).
- `run_appendRules`: what the loop over the rules leaves in the four lists.
- `storeDocuments`: a block that stores the documents of some routes, and
  `storeDocuments_ok`, what it does to the store.
- `fromRoute_storeDocuments`: what was stored comes back, route by route and list by list.
-/

namespace RouteRegistry

open Relational UnitOfWork

/-! ## Wire objects -/

/-- `pydantic_models.EntitySet`. -/
structure PydanticEntitySet where
  users : List (Option String) := []
  groups : List (Option String) := []
deriving DecidableEq, Repr

/-- `pydantic_models.Rules`. -/
structure PydanticRules where
  version : Option String := none
  allowed : PydanticEntitySet := {}
  disallowed : PydanticEntitySet := {}
deriving DecidableEq, Repr

/-- `pydantic_models.Route`. -/
structure PydanticRoute where
  name : String
  domainName : Option String := none
  communityName : Option String := none
  id : Option String := none
  dst : Option String := none
  src : Option String := none
  url : Option String := none
  token : Option String := none
  endpoint : Option String := none
  jwt : Option String := none
  communityId : Option String := none
  rules : PydanticRules := {}
  status : Option Status := none
  verificationStatus : Option VerificationStatus := none
  lastContact : Option Time := none
deriving DecidableEq, Repr

/-! ## Loaded routes -/

/-- A row of `entity` with its joined table. -/
inductive Entity where
  | user (u : User)
  | group (g : Group)
deriving DecidableEq, Repr

/-- `Rule.entity`, by its key. -/
def Store.entityOf (s : Store) (id : String) : Option Entity :=
  match lookup User.id id s.users with
  | some u => some (.user u)
  | none => (lookup Group.id id s.groups).map .group

/-- A rule with its entity. -/
structure LoadedRule where
  row : Rule
  entity : Option Entity
deriving DecidableEq, Repr

/-- A route with what `list` loads along with it. -/
structure LoadedRoute where
  row : Route
  community : Option Community
  rules : List LoadedRule
deriving DecidableEq, Repr

def Store.loadRule (s : Store) (rule : Rule) : LoadedRule := ⟨rule, s.entityOf rule.entityId⟩

def Store.load (s : Store) (route : Route) : LoadedRoute where
  row := route
  community := route.communityId.bind fun id => lookup Community.id id s.communities
  rules := (s.rulesOf route.id).map s.loadRule

/-- `list_routes`, with the relationships it loads. -/
def listLoadedRoutes (eng : Engine) (verificationStatus : Option VerificationStatus)
    (status : Option Status) (name entityId : Option String) : Service (List LoadedRoute) :=
  withUOW eng do
    let routes ← RouteRepo.list eng.like verificationStatus status name entityId
    Txn.get fun s => routes.map s.load

/-! ## `from_route` -/

/-- `p_route.rules.allowed if policy is ALLOW else p_route.rules.disallowed`, changed. -/
def PydanticRules.modifySet (policy : Policy) (f : PydanticEntitySet → PydanticEntitySet)
    (rules : PydanticRules) : PydanticRules :=
  match policy with
  | .allow => { rules with allowed := f rules.allowed }
  | .deny => { rules with disallowed := f rules.disallowed }

/-- A user's `uid` goes to `users`, a group's `name` to `groups`. -/
def PydanticEntitySet.append (entity : Entity) (set : PydanticEntitySet) : PydanticEntitySet :=
  match entity with
  | .user u => { set with users := set.users ++ [u.uid] }
  | .group g => { set with groups := set.groups ++ [g.name] }

/-- One round of the loop of `from_route`. -/
def appendRule (rules : PydanticRules) (rule : LoadedRule) : Except Exc PydanticRules :=
  match rule.entity with
  | some entity => .ok (rules.modifySet rule.row.policy (.append entity))
  -- `None` is no `User`, so its `name` is read
  | none => .error (noneAttributeError "name")

def fromRoute (route : LoadedRoute) (withRules : Bool := true) : Except Exc PydanticRoute := do
  let pRoute : PydanticRoute :=
    { id := some route.row.id
      endpoint := some route.row.id
      name := route.row.name
      src := some route.row.src
      url := some route.row.src
      dst := some route.row.dst
      jwt := some route.row.token
      token := some route.row.token
      communityId := route.row.communityId
      communityName := route.community.map Community.name
      status := some route.row.status
      verificationStatus := some route.row.verificationStatus
      lastContact := some route.row.lastContact }
  if !withRules then return pRoute
  return { pRoute with rules := ← route.rules.foldlM appendRule pRoute.rules }

/-- The lists of the wire object are what the loop leaves. -/
theorem fromRoute_ok {route : LoadedRoute} {rules : PydanticRules}
    (h : route.rules.foldlM appendRule {} = .ok rules) :
    ∃ p, fromRoute route = .ok p ∧ p.id = some route.row.id ∧ p.rules = rules := by
  unfold fromRoute
  dsimp only
  rw [h]
  exact ⟨_, rfl, rfl, rfl⟩

/-- The four lists the rules of some entities leave. -/
def PydanticRules.ofEntities (au du : List User) (ag dg : List Group) : PydanticRules where
  allowed := ⟨au.map User.uid, ag.map Group.name⟩
  disallowed := ⟨du.map User.uid, dg.map Group.name⟩

/-- Users under one policy come to one list. -/
theorem foldlM_appendRule_users (routeId : String) (policy : Policy) (us : List User)
    (rules : PydanticRules) :
    (us.map fun u => (⟨⟨routeId, u.id, policy⟩, some (.user u)⟩ : LoadedRule)).foldlM
        appendRule rules =
      .ok (rules.modifySet policy fun set =>
        { set with users := set.users ++ us.map User.uid }) := by
  induction us generalizing rules with
  | nil => cases policy <;> simp [PydanticRules.modifySet, pure, Except.pure]
  | cons u us ih =>
    rw [List.map_cons, List.foldlM_cons]
    refine (ih _).trans ?_
    cases policy <;> simp [PydanticRules.modifySet, PydanticEntitySet.append]

/-- Groups under one policy come to one list. -/
theorem foldlM_appendRule_groups (routeId : String) (policy : Policy) (gs : List Group)
    (rules : PydanticRules) :
    (gs.map fun g => (⟨⟨routeId, g.id, policy⟩, some (.group g)⟩ : LoadedRule)).foldlM
        appendRule rules =
      .ok (rules.modifySet policy fun set =>
        { set with groups := set.groups ++ gs.map Group.name }) := by
  induction gs generalizing rules with
  | nil => cases policy <;> simp [PydanticRules.modifySet, pure, Except.pure]
  | cons g gs ih =>
    rw [List.map_cons, List.foldlM_cons]
    refine (ih _).trans ?_
    cases policy <;> simp [PydanticRules.modifySet, PydanticEntitySet.append]

section Loading

variable {s : Store}

theorem Store.entityOf_user (hv : s.Valid) {u : User} (hu : u ∈ s.users) :
    s.entityOf u.id = some (.user u) := by
  have hkeys : Keyed User.id s.users := (List.nodup_append.mp hv.entityKeys).1
  unfold entityOf
  rw [(lookup_eq_some_iff hkeys).mpr ⟨hu, rfl⟩]

theorem Store.entityOf_group (hv : s.Valid) {g : Group} (hg : g ∈ s.groups) :
    s.entityOf g.id = some (.group g) := by
  obtain ⟨-, hkeys, hdisjoint⟩ := List.nodup_append.mp hv.entityKeys
  have hnone : lookup User.id g.id s.users = none :=
    lookup_eq_none_iff.mpr fun u hu hid =>
      hdisjoint _ (List.mem_map.mpr ⟨u, hu, rfl⟩) _ (List.mem_map.mpr ⟨g, hg, rfl⟩) hid
  unfold entityOf
  rw [hnone, (lookup_eq_some_iff (show Keyed Group.id s.groups from hkeys)).mpr ⟨hg, rfl⟩]
  rfl

/-- **The loop over the rules of stored users and groups** sorts their names into the four
lists. -/
theorem run_appendRules (hv : s.Valid) (routeId : String) {au du : List User} {ag dg : List Group}
    (hau : ∀ u ∈ au, u ∈ s.users) (hdu : ∀ u ∈ du, u ∈ s.users)
    (hag : ∀ g ∈ ag, g ∈ s.groups) (hdg : ∀ g ∈ dg, g ∈ s.groups) :
    ((policyRules routeId au du ag dg).map s.loadRule).foldlM appendRule {} =
      .ok (.ofEntities au du ag dg) := by
  have husers : ∀ (policy : Policy) (us : List User), (∀ u ∈ us, u ∈ s.users) →
      (us.map fun u => (⟨routeId, u.id, policy⟩ : Rule)).map s.loadRule =
        us.map fun u => ⟨⟨routeId, u.id, policy⟩, some (.user u)⟩ := by
    intro policy us hus
    rw [List.map_map]
    refine List.map_congr_left ?_
    intro u hu
    exact congrArg (LoadedRule.mk _) (s.entityOf_user hv (hus u hu))
  have hgroups : ∀ (policy : Policy) (gs : List Group), (∀ g ∈ gs, g ∈ s.groups) →
      (gs.map fun g => (⟨routeId, g.id, policy⟩ : Rule)).map s.loadRule =
        gs.map fun g => ⟨⟨routeId, g.id, policy⟩, some (.group g)⟩ := by
    intro policy gs hgs
    rw [List.map_map]
    refine List.map_congr_left ?_
    intro g hg
    exact congrArg (LoadedRule.mk _) (s.entityOf_group hv (hgs g hg))
  unfold policyRules
  simp only [List.map_append, husers _ _ hau, husers _ _ hdu, hgroups _ _ hag, hgroups _ _ hdg,
    List.foldlM_append, foldlM_appendRule_users, foldlM_appendRule_groups]
  rfl

end Loading

/-! ## Storing documents -/

/-- `with UOW() as uow: …`, with `store_rules(uow, route, Authorization(data=…))` for each of
some routes. -/
def storeDocumentsBody (docs : List (Route × Json)) : Session Unit :=
  docs.forM fun doc => do
    let authz ← Txn.ofExcept (Authorization.ofData doc.2)
    storeRules doc.1 authz

def storeDocuments (eng : Engine) (docs : List (Route × Json)) : Service Unit :=
  withUOW eng (storeDocumentsBody docs)

/-- A document for a stored route that the schema accepts, has both sections and names
stored entities, each at most once. -/
structure Storable (s : Store) (doc : Route × Json) : Prop where
  route : doc.1 ∈ s.routes
  accepted : authorizationSchema.accepts doc.2 = true
  allowed : hasSection doc.2 "allowed"
  disallowed : hasSection doc.2 "disallowed"
  users : (namesIn doc.2 "allowed" "users" ++ namesIn doc.2 "disallowed" "users").Nodup
  groups : (namesIn doc.2 "allowed" "groups" ++ namesIn doc.2 "disallowed" "groups").Nodup
  storedUsers : ∀ uid ∈ namesIn doc.2 "allowed" "users" ++ namesIn doc.2 "disallowed" "users",
    ∃ u ∈ s.users, u.uid = some uid
  storedGroups : ∀ name ∈ namesIn doc.2 "allowed" "groups" ++ namesIn doc.2 "disallowed" "groups",
    ∃ g ∈ s.groups, g.name = some name

/-- The users a list of names selects. -/
def Store.usersIn (s : Store) (uids : List String) : List User :=
  s.users.filter fun u => decide (∃ uid ∈ uids, u.uid = some uid)

def Store.groupsIn (s : Store) (names : List String) : List Group :=
  s.groups.filter fun g => decide (∃ name ∈ names, g.name = some name)

/-- The rules of a document. -/
def Store.documentRules (s : Store) (doc : Route × Json) : List Rule :=
  policyRules doc.1.id (s.usersIn (namesIn doc.2 "allowed" "users"))
    (s.usersIn (namesIn doc.2 "disallowed" "users"))
    (s.groupsIn (namesIn doc.2 "allowed" "groups"))
    (s.groupsIn (namesIn doc.2 "disallowed" "groups"))

/-- The store with the rules of a route replaced by those of its document. -/
def Store.withDocument (s : Store) (doc : Route × Json) : Store :=
  s.withRules doc.1.id (s.documentRules doc)

/-- The changes that store some documents. -/
def Store.documentChanges (s : Store) (docs : List (Route × Json)) : List Change :=
  docs.flatMap fun doc => .deleteRules doc.1.id :: (s.documentRules doc).map .addRule

section Storing

variable {s : Store} {doc : Route × Json} {docs : List (Route × Json)}

theorem Storable.ruleSet (hv : s.Valid) (h : Storable s doc) :
    ∃ authz, Authorization.ofData doc.2 = .ok authz ∧
      s.ruleSet doc.1.id authz = .ok (s.documentRules doc) ∧
      Keyed Rule.entityId (s.documentRules doc) := by
  obtain ⟨version, hread⟩ := ofData_of_sections h.accepted h.allowed h.disallowed
  obtain ⟨hau, hdu, hcrossUsers⟩ := List.nodup_append.mp h.users
  obtain ⟨hag, hdg, hcrossGroups⟩ := List.nodup_append.mp h.groups
  have hstored : AllStored s (documentOf doc.2 version) :=
    ⟨fun uid huid => h.storedUsers uid (List.mem_append_left _ huid),
      fun uid huid => h.storedUsers uid (List.mem_append_right _ huid),
      fun name hname => h.storedGroups name (List.mem_append_left _ hname),
      fun name hname => h.storedGroups name (List.mem_append_right _ hname)⟩
  have hrepeats : NoRepeats (documentOf doc.2 version) := ⟨hau, hdu, hag, hdg⟩
  have hconflict : NoConflict (documentOf doc.2 version) :=
    ⟨fun uid ha hd => hcrossUsers uid ha uid hd rfl,
      fun name ha hd => hcrossGroups name ha name hd rfl⟩
  obtain ⟨rules, hrules⟩ := (ruleSet_ok_iff hv doc.1.id).mpr ⟨hstored, hrepeats⟩
  have hkeyed := (keyed_ruleSet_iff hv hrules).mpr hconflict
  obtain rfl := Store.ruleSet_eq hv hrules
  exact ⟨_, hread, hrules, hkeyed⟩

/-- Other documents do not matter. -/
theorem Storable.withDocument (h : Storable s doc) (other : Route × Json) :
    Storable (s.withDocument other) doc :=
  ⟨h.route, h.accepted, h.allowed, h.disallowed, h.users, h.groups, h.storedUsers, h.storedGroups⟩

theorem run_storeDocumentsBody (hv : s.Valid) (h : ∀ doc ∈ docs, Storable s doc) :
    (storeDocumentsBody docs).run s = (.ok (), s.documentChanges docs) := by
  induction docs with
  | nil => rfl
  | cons doc rest ih =>
    obtain ⟨authz, hread, hrules, -⟩ := (h doc List.mem_cons_self).ruleSet hv
    have hdoc : (do
        let authz ← Txn.ofExcept (Authorization.ofData doc.2)
        storeRules doc.1 authz : Session Unit).run s =
          (.ok (), .deleteRules doc.1.id :: (s.documentRules doc).map .addRule) := by
      rw [hread, Txn.run_ofExcept_ok_bind, run_storeRules, hrules]
    have hrest := ih fun doc hdoc => h doc (List.mem_cons_of_mem _ hdoc)
    refine (Txn.run_bind_ok hdoc).trans ?_
    change (((storeDocumentsBody rest).run s).1, _ ++ ((storeDocumentsBody rest).run s).2) = _
    rw [hrest]
    rfl

theorem flush_documentChanges (hv : s.Valid) (h : ∀ doc ∈ docs, Storable s doc) :
    flush s (s.documentChanges docs) = .ok (docs.foldl Store.withDocument s) := by
  induction docs generalizing s with
  | nil => rfl
  | cons doc rest ih =>
    have hdoc := h doc List.mem_cons_self
    obtain ⟨authz, -, hrules, hkeyed⟩ := hdoc.ruleSet hv
    obtain ⟨hroute, hent⟩ := Store.ruleSet_mem hrules
    have hid : doc.1.id ∈ s.routeIds := List.mem_map.mpr ⟨doc.1, hdoc.route, rfl⟩
    have hflush := flush_replaceRules hv hid hroute hent
    rw [if_pos hkeyed] at hflush
    -- users and groups are as before, so the later documents have the rules they had
    have hrest := ih (s := s.withDocument doc) (flush_valid hv hflush) fun other hother =>
      (h other (List.mem_cons_of_mem _ hother)).withDocument doc
    exact (flush_append_ok hflush).trans hrest

/-- Documents change rules only. -/
theorem Store.withDocuments_frame (s : Store) (docs : List (Route × Json)) :
    docs.foldl Store.withDocument s =
      { s with rules := (docs.foldl Store.withDocument s).rules } := by
  induction docs generalizing s with
  | nil => rfl
  | cons doc rest ih => exact ih (s.withDocument doc)

theorem Store.rulesOf_withDocument (s : Store) (doc : Route × Json) (id : String) :
    (s.withDocument doc).rulesOf id =
      if doc.1.id = id then s.documentRules doc else s.rulesOf id :=
  Store.rulesOf_withRules (fun _ hr => (mem_policyRules.mp hr).1) id

theorem Store.rulesOf_withDocuments_of_notMem {id : String} (s : Store)
    (hid : id ∉ docs.map fun doc => doc.1.id) :
    (docs.foldl Store.withDocument s).rulesOf id = s.rulesOf id := by
  induction docs generalizing s with
  | nil => rfl
  | cons doc rest ih =>
    rw [List.map_cons, List.mem_cons, not_or] at hid
    refine (ih (s.withDocument doc) hid.2).trans ?_
    rw [Store.rulesOf_withDocument, if_neg (Ne.symm hid.1)]

/-- Each route has the rules of its own document. -/
theorem Store.rulesOf_withDocuments (s : Store) (hids : (docs.map fun doc => doc.1.id).Nodup)
    (hdoc : doc ∈ docs) :
    (docs.foldl Store.withDocument s).rulesOf doc.1.id = s.documentRules doc := by
  induction docs generalizing s with
  | nil => cases hdoc
  | cons first rest ih =>
    obtain ⟨hnot, hrest⟩ := List.nodup_cons.mp hids
    rcases List.mem_cons.mp hdoc with rfl | hdoc
    · refine (Store.rulesOf_withDocuments_of_notMem (s.withDocument doc) hnot).trans ?_
      rw [Store.rulesOf_withDocument, if_pos rfl]
    · exact ih (s.withDocument first) hrest hdoc

end Storing

/-! ## There and back -/

section Blocks

variable {eng : Engine} {db db' : Database} {docs : List (Route × Json)}
  {batches : List (List (Route × Json))}

theorem storeDocuments_ok (h : ∀ doc ∈ docs, Storable db.store doc)
    (hcall : storeDocuments eng docs db = .ok () db') :
    db'.store = docs.foldl Store.withDocument db.store :=
  (withUOW_ok_of_flush hcall (run_storeDocumentsBody db.valid h)
    (flush_documentChanges db.valid h)).2

theorem storeDocuments_of_reliable (hrel : eng.Reliable)
    (h : ∀ doc ∈ docs, Storable db.store doc) : ∃ db', storeDocuments eng docs db = .ok () db' := by
  obtain ⟨db', hcall, -⟩ := withUOW_of_flush hrel (run_storeDocumentsBody db.valid h)
    (flush_documentChanges db.valid h)
  exact ⟨db', hcall⟩

theorem Storable.withDocuments {s : Store} {doc : Route × Json} (h : Storable s doc)
    (docs : List (Route × Json)) : Storable (docs.foldl Store.withDocument s) doc := by
  induction docs generalizing s with
  | nil => exact h
  | cons first rest ih => exact ih (h.withDocument first)

theorem forM_storeDocuments_cons (docs : List (Route × Json)) (rest : List (List (Route × Json)))
    (db : Database) :
    (docs :: rest).forM (storeDocuments eng) db =
      match storeDocuments eng docs db with
      | .ok _ db' => rest.forM (storeDocuments eng) db'
      | .error e db' => .error e db' := by
  show EStateM.bind _ _ db = _
  unfold EStateM.bind
  cases storeDocuments eng docs db <;> rfl

/-- Blocks one after the other store all their documents. -/
theorem forM_storeDocuments_ok (h : ∀ doc ∈ batches.flatten, Storable db.store doc)
    (hcall : batches.forM (storeDocuments eng) db = .ok () db') :
    db'.store = batches.flatten.foldl Store.withDocument db.store := by
  induction batches generalizing db with
  | nil =>
    cases hcall
    rfl
  | cons docs rest ih =>
    rw [forM_storeDocuments_cons] at hcall
    rw [List.flatten_cons] at h
    cases hfirst : storeDocuments eng docs db with
    | error e db₁ =>
      rw [hfirst] at hcall
      cases hcall
    | ok u db₁ =>
      rw [hfirst] at hcall
      have hdb₁ := storeDocuments_ok (fun doc hdoc => h doc (List.mem_append_left _ hdoc)) hfirst
      have hrest := ih (fun doc hdoc => by
        rw [hdb₁]
        exact (h doc (List.mem_append_right _ hdoc)).withDocuments docs) hcall
      rw [hrest, hdb₁, List.flatten_cons, List.foldl_append]

theorem forM_storeDocuments_of_reliable (hrel : eng.Reliable)
    (h : ∀ doc ∈ batches.flatten, Storable db.store doc) :
    ∃ db', batches.forM (storeDocuments eng) db = .ok () db' := by
  induction batches generalizing db with
  | nil => exact ⟨db, rfl⟩
  | cons docs rest ih =>
    rw [List.flatten_cons] at h
    have hdocs : ∀ doc ∈ docs, Storable db.store doc :=
      fun doc hdoc => h doc (List.mem_append_left _ hdoc)
    obtain ⟨db₁, hfirst⟩ := storeDocuments_of_reliable hrel hdocs
    have hlater : ∀ doc ∈ rest.flatten, Storable db₁.store doc := fun doc hdoc => by
      rw [storeDocuments_ok hdocs hfirst]
      exact (h doc (List.mem_append_right _ hdoc)).withDocuments docs
    obtain ⟨db', hrest⟩ := ih hlater
    refine ⟨db', ?_⟩
    rw [forM_storeDocuments_cons, hfirst]
    exact hrest

/-- The names of the rows some distinct, stored names select are those names. -/
theorem perm_names {ρ : Type} {name : ρ → Option String} {t : List ρ} (h : Keyed name t)
    {names : List String} (hnodup : names.Nodup) (hstored : ∀ n ∈ names, ∃ r ∈ t, name r = some n) :
    ((t.filter fun r => decide (∃ n ∈ names, name r = some n)).map name).Perm (names.map some) := by
  have hsome : (names.map some).Nodup :=
    (List.nodup_map_iff fun _ _ h => Option.some.inj h).mpr hnodup
  refine (List.perm_ext_iff_of_nodup (h.filter _) hsome).mpr ?_
  intro k
  simp only [List.mem_map, List.mem_filter, decide_eq_true_eq]
  constructor
  · rintro ⟨r, ⟨-, n, hn, hname⟩, rfl⟩
    exact ⟨n, hn, hname.symm⟩
  · rintro ⟨n, hn, rfl⟩
    obtain ⟨r, hr, hname⟩ := hstored n hn
    exact ⟨r, ⟨hr, n, hn, hname⟩, hname⟩

/-- The wire object's four lists hold the names of the document, each once. -/
structure Publishes (rules : PydanticRules) (data : Json) : Prop where
  allowedUsers : rules.allowed.users.Perm ((namesIn data "allowed" "users").map some)
  allowedGroups : rules.allowed.groups.Perm ((namesIn data "allowed" "groups").map some)
  deniedUsers : rules.disallowed.users.Perm ((namesIn data "disallowed" "users").map some)
  deniedGroups : rules.disallowed.groups.Perm ((namesIn data "disallowed" "groups").map some)

/-- The rules of a document, as loaded, come out as its names. -/
theorem fromRoute_documentRules {s : Store} (hv : s.Valid) {doc : Route × Json}
    (h : Storable s doc) {loaded : LoadedRoute}
    (hrules : loaded.rules = (s.documentRules doc).map s.loadRule) :
    ∃ p, fromRoute loaded = .ok p ∧ p.id = some loaded.row.id ∧ Publishes p.rules doc.2 := by
  have hfrom : ∀ names, ∀ u ∈ s.usersIn names, u ∈ s.users :=
    fun _ u hu => List.mem_of_mem_filter hu
  have hfrom' : ∀ names, ∀ g ∈ s.groupsIn names, g ∈ s.groups :=
    fun _ g hg => List.mem_of_mem_filter hg
  have hloop := run_appendRules hv doc.1.id (hfrom (namesIn doc.2 "allowed" "users"))
    (hfrom (namesIn doc.2 "disallowed" "users")) (hfrom' (namesIn doc.2 "allowed" "groups"))
    (hfrom' (namesIn doc.2 "disallowed" "groups"))
  have hloaded : loaded.rules.foldlM appendRule {} = .ok _ := hrules ▸ hloop
  obtain ⟨hau, hdu, -⟩ := List.nodup_append.mp h.users
  obtain ⟨hag, hdg, -⟩ := List.nodup_append.mp h.groups
  obtain ⟨p, hp, hid, hlists⟩ := fromRoute_ok hloaded
  refine ⟨p, hp, hid, ?_⟩
  rw [hlists]
  exact ⟨perm_names hv.uids hau fun n hn => h.storedUsers n (List.mem_append_left _ hn),
    perm_names hv.groupNames hag fun n hn => h.storedGroups n (List.mem_append_left _ hn),
    perm_names hv.uids hdu fun n hn => h.storedUsers n (List.mem_append_right _ hn),
    perm_names hv.groupNames hdg fun n hn => h.storedGroups n (List.mem_append_right _ hn)⟩

theorem run_listLoaded (like : List Char → List Char → Bool) (s : Store)
    (vs : Option VerificationStatus) (st : Option Status) (name entityId : Option String) :
    (do
      let routes ← RouteRepo.list like vs st name entityId
      Txn.get fun s => routes.map s.load : Session (List LoadedRoute)).run s =
      (.ok ((s.routes.filter (RouteRepo.matchesFilters like s vs st name entityId)).map s.load),
        []) :=
  rfl

end Blocks

/-- **Authorization documents survive the round trip.** Documents are stored for routes, one
for each, in blocks of any size. Then `list_routes`, whatever it filters by, returns the
stored routes that pass, and `from_route` publishes for each of them the names of its own
document in the four lists they came from. -/
theorem fromRoute_storeDocuments (eng : Engine) (db : Database)
    (batches : List (List (Route × Json)))
    (hdocs : ∀ doc ∈ batches.flatten, Storable db.store doc)
    (hids : (batches.flatten.map fun doc => doc.1.id).Nodup) :
    (eng.Reliable → ∃ db', batches.forM (storeDocuments eng) db = .ok () db' ∧
      ∀ vs st name entityId, ∃ routes, listLoadedRoutes eng vs st name entityId db' =
        .ok routes db') ∧
    ∀ db', batches.forM (storeDocuments eng) db = .ok () db' →
      ∀ vs st name entityId routes db'', listLoadedRoutes eng vs st name entityId db' =
          .ok routes db'' →
        routes.map LoadedRoute.row =
          db.store.routes.filter (RouteRepo.matchesFilters eng.like db.store vs st name entityId) ∧
        ∀ doc ∈ batches.flatten, ∀ loaded ∈ routes, loaded.row.id = doc.1.id →
          ∃ p, fromRoute loaded = .ok p ∧ p.id = some doc.1.id ∧ Publishes p.rules doc.2 := by
  refine ⟨fun hrel => ?_, fun db' hcall vs st name entityId routes db'' hlist => ?_⟩
  · obtain ⟨db', hcall⟩ := forM_storeDocuments_of_reliable hrel hdocs
    refine ⟨db', hcall, fun vs st name entityId => ?_⟩
    obtain ⟨db'', hlist, hdb⟩ :=
      withUOW_of_flush hrel (run_listLoaded eng.like db'.store vs st name entityId) (flush_nil _)
    rw [Database.ext hdb] at hlist
    exact ⟨_, hlist⟩
  · have hdb' := forM_storeDocuments_ok hdocs hcall
    obtain ⟨rfl, -⟩ :=
      withUOW_ok_of_flush hlist (run_listLoaded eng.like db'.store vs st name entityId) (flush_nil _)
    -- only rules have changed
    have hframe := hdb'.trans (db.store.withDocuments_frame batches.flatten)
    refine ⟨?_, fun doc hdoc loaded hloaded hid => ?_⟩
    · rw [List.map_map, hframe]
      exact List.map_id _
    · obtain ⟨row, -, rfl⟩ := List.mem_map.mp hloaded
      have hrules : db'.store.rulesOf row.id = db'.store.documentRules doc := by
        rw [show row.id = doc.1.id from hid, hdb', Store.rulesOf_withDocuments _ hids hdoc,
          db.store.withDocuments_frame]
        rfl
      have hstorable : Storable db'.store doc := by
        rw [hdb']
        exact (hdocs doc hdoc).withDocuments _
      rw [← hid]
      exact fromRoute_documentRules db'.valid hstorable (congrArg (List.map _) hrules)

/-- A second route of Alice's. -/
def apiRoute : Route :=
  { appRoute with id := "q", name := "api", src := "https://example.com/api", token := "u" }

/-- A user and a group share a name. -/
def namesakes : Database := .load
  [.addUser alice, .addGroup { id := "2", name := some "alice" }, .addDomain openDomain,
    .addRoute appRoute, .addRoute apiRoute]

/-- The document admits the user and turns the group away. -/
def userNotGroup : Json :=
  .obj [("version", .str "1"), ("allowed", .obj [("users", .arr [.str "alice"])]),
    ("disallowed", .obj [("groups", .arr [.str "alice"])])]

/-- The other way around. -/
def groupNotUser : Json :=
  .obj [("version", .str "1"), ("allowed", .obj [("groups", .arr [.str "alice"])]),
    ("disallowed", .obj [("users", .arr [.str "alice"])])]

theorem namesakes_storable :
    ∀ doc ∈ [[(appRoute, userNotGroup)], [(apiRoute, groupNotUser)]].flatten,
      Storable namesakes.store doc := by
  intro doc hdoc
  simp only [List.flatten_cons, List.flatten_nil, List.append_nil, List.cons_append,
    List.nil_append, List.mem_cons, List.not_mem_nil, or_false] at hdoc
  rcases hdoc with rfl | rfl <;> constructor <;> decide

theorem namesakes_published :
    ∃ db', [[(appRoute, userNotGroup)], [(apiRoute, groupNotUser)]].forM
        (storeDocuments .sqlite) namesakes = .ok () db' ∧
      ∃ routes, listLoadedRoutes .sqlite none none none none db' = .ok routes db' ∧
        routes.map LoadedRoute.row = [appRoute, apiRoute] ∧
        ∀ loaded ∈ routes, loaded.row.id = "q" →
          ∃ p, fromRoute loaded = .ok p ∧ p.id = some "q" ∧ Publishes p.rules groupNotUser := by
  obtain ⟨hcommits, hpublishes⟩ := fromRoute_storeDocuments .sqlite namesakes
    [[(appRoute, userNotGroup)], [(apiRoute, groupNotUser)]] namesakes_storable (by decide)
  obtain ⟨db', hcall, hlists⟩ := hcommits Engine.sqlite_reliable
  obtain ⟨routes, hlist⟩ := hlists none none none none
  obtain ⟨hrows, hrules⟩ := hpublishes db' hcall none none none none routes db' hlist
  refine ⟨db', hcall, routes, hlist, hrows.trans (by decide), ?_⟩
  exact hrules (apiRoute, groupNotUser) (by simp)

end RouteRegistry
