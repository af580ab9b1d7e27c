import RouteRegistry.Registry.Registration

/-!
# Sequences of registrations

`registerAll` runs `register_route` calls one after the other, whether they return or
raise. Only a call that creates a route adds an owner, and nothing takes one away
(`registerRoute_step`), so in every state a route belongs to the user whose call created
it (`registerAll_creator`).
-/

namespace RouteRegistry

open Relational

/-- A sequence of `register_route` calls. -/
def registerAll (eng : Engine) (db : Database) (calls : List (Registration × Draws)) : Database :=
  calls.foldl (fun db call => (registerRoute eng call.1 call.2).after db) db

theorem registerAll_append_single (eng : Engine) (db : Database)
    (calls : List (Registration × Draws)) (call : Registration × Draws) :
    registerAll eng db (calls ++ [call]) =
      (registerRoute eng call.1 call.2).after (registerAll eng db calls) := by
  simp [registerAll]

/-! ## Owners -/

/-- A route that is not stored has no owner. -/
theorem Store.Valid.owners_eq_nil {s : Store} (hv : s.Valid) {id : String}
    (h : id ∉ s.routeIds) : s.owners id = [] := by
  refine List.eq_nil_iff_forall_not_mem.mpr fun o ho => h ?_
  exact hv.ownershipRoute _ (Store.mem_owners.mp ho)

/-- What one call can do to owners: nothing, or a new route gets the caller. Users and
communities stay. -/
theorem registerRoute_step (eng : Engine) (reg : Registration) (draws : Draws) (db : Database) :
    let s' := ((registerRoute eng reg draws).after db).store
    s'.users = db.store.users ∧ s'.communities = db.store.communities ∧
      ((s'.routeIds = db.store.routeIds ∧ s'.owners = db.store.owners) ∨
        ∃ r u, r.id ∉ db.store.routeIds ∧ db.store.userOf (some reg.userUid) = some u ∧
          s' = db.store.withRoute r u.id) := by
  rcases registerRoute_after_cases eng reg draws db with hsame | ⟨r', db', -, hreg⟩
  · rw [hsame]
    exact ⟨rfl, rfl, .inl ⟨rfl, rfl⟩⟩
  generalize ((registerRoute eng reg draws).after db).store = s' at hreg ⊢
  cases hreg with
  | rebound hres hr hown hret => exact ⟨rfl, rfl, .inl ⟨Store.routeIds_withAttrs _ _ _, rfl⟩⟩
  | created hres hr hd hret hfresh =>
    exact ⟨rfl, rfl, .inr ⟨r', _, hfresh.1, hres.user, rfl⟩⟩
  | dropped hc hcs => exact ⟨rfl, rfl, .inl ⟨rfl, rfl⟩⟩

/-- Registrations leave users and communities alone. -/
theorem registerAll_frame (eng : Engine) (db : Database) (calls : List (Registration × Draws)) :
    (registerAll eng db calls).store.users = db.store.users ∧
      (registerAll eng db calls).store.communities = db.store.communities := by
  induction calls using List.reverseRecOn with
  | nil => exact ⟨rfl, rfl⟩
  | append_singleton calls call ih =>
    rw [registerAll_append_single]
    obtain ⟨hu, hc, -⟩ := registerRoute_step eng call.1 call.2 (registerAll eng db calls)
    exact ⟨hu.trans ih.1, hc.trans ih.2⟩

/-- The call `call`, made after `pre`, created the route `id` for the user `u`. -/
structure CreatedBy (eng : Engine) (db : Database) (pre : List (Registration × Draws))
    (call : Registration × Draws) (id : String) (u : User) : Prop where
  absent : id ∉ (registerAll eng db pre).store.routeIds
  present : id ∈ (registerAll eng db (pre ++ [call])).store.routeIds
  caller : db.store.userOf (some call.1.userUid) = some u

/-- After any calls, every stored route was created by one of them, and its owners are
the one user who made that call. -/
theorem registerAll_creator (eng : Engine) {db : Database} (hroutes : db.store.routes = [])
    (calls : List (Registration × Draws)) :
    ∀ id ∈ (registerAll eng db calls).store.routeIds, ∃ pre call post u,
      calls = pre ++ call :: post ∧ CreatedBy eng db pre call id u ∧
        (registerAll eng db calls).store.owners id = [u.id] := by
  induction calls using List.reverseRecOn with
  | nil =>
    intro id hid
    have hnil : (registerAll eng db []).store.routeIds = [] := by
      simp [registerAll, Store.routeIds, hroutes]
    rw [hnil] at hid
    cases hid
  | append_singleton calls call ih =>
    intro id hid
    obtain ⟨-, -, hstep⟩ := registerRoute_step eng call.1 call.2 (registerAll eng db calls)
    -- an old route keeps its creator; the call goes to the end of the later ones
    have hold : id ∈ (registerAll eng db calls).store.routeIds →
        (registerAll eng db (calls ++ [call])).store.owners id =
          (registerAll eng db calls).store.owners id →
        ∃ pre call' post u, calls ++ [call] = pre ++ call' :: post ∧
          CreatedBy eng db pre call' id u ∧
            (registerAll eng db (calls ++ [call])).store.owners id = [u.id] := by
      intro hid' howners
      obtain ⟨pre, call', post, u, hcalls, hcreated, hown⟩ := ih id hid'
      refine ⟨pre, call', post ++ [call], u, ?_, hcreated, howners.trans hown⟩
      rw [hcalls, List.append_assoc, List.cons_append]
    rw [← registerAll_append_single] at hstep
    rcases hstep with ⟨hids, howners⟩ | ⟨r, u, hnew, huser, hs'⟩
    · rw [hids] at hid
      exact hold hid (by rw [howners])
    · -- the call created a route: the one asked about, or another
      rw [hs', Store.routeIds_withRoute, List.mem_append, List.mem_singleton] at hid
      by_cases hr : r.id = id
      · subst hr
        refine ⟨calls, call, [], u, rfl, ⟨hnew, ?_, ?_⟩, ?_⟩
        · rw [hs', Store.routeIds_withRoute]
          simp
        · rw [Store.userOf, ← (registerAll_frame eng db calls).1]
          exact huser
        · rw [hs', Store.owners_withRoute, if_pos rfl,
            (registerAll eng db calls).valid.owners_eq_nil hnew]
          rfl
      · refine hold (hid.resolve_right fun h => hr h.symm) ?_
        rw [hs', Store.owners_withRoute, if_neg hr]

/-! ## No hijack -/

/-- A call that returns normally, for a stored community, returns a stored and verified
route of the caller. -/
theorem registerRoute_returns {eng : Engine} {reg : Registration} {draws : Draws}
    {db db' : Database} {r : Route}
    (hc : ∀ c, reg.community = some c → c.id ∈ db.store.communityIds)
    (h : registerRoute eng reg draws db = .ok r db') :
    r ∈ db'.store.routes ∧ r.verificationStatus = .verified ∧
      ∃ u ∈ db'.store.users, u.uid = some reg.userUid ∧ u.id ∈ db'.store.owners r.id := by
  generalize hs' : db'.store = s'
  have hreg := registerRoute_ok h
  rw [hs'] at hreg
  cases hreg with
  | @rebound d u src r₀ hres hr hown hret =>
    subst hret
    refine ⟨?_, Route.rebind_verificationStatus _ _ _, u, hres.user_mem.1, hres.user_mem.2, ?_⟩
    · exact mem_modify.mpr (.inr ⟨r₀, (Store.routeOfSrc_mem hr).1, rfl, rfl⟩)
    · rw [Route.rebind_id]
      exact hown
  | @created d u src hres hr hd hret hfresh =>
    refine ⟨by simp [Store.withRoute], by rw [hret]; rfl, u, hres.user_mem.1,
      hres.user_mem.2, ?_⟩
    rw [Store.owners_withRoute, if_pos rfl]
    simp
  | dropped hcomm hcs => exact absurd (hc _ hcomm) hcs

/-- A call that generates the `src` of somebody else's route is refused. -/
theorem registerRoute_taken (eng : Engine) {reg : Registration} {draws : Draws}
    {db : Database} {d : Domain} {u : User} {src : String} {r : Route}
    (hres : Resolves db.store reg draws d u src) (hr : r ∈ db.store.routes) (hsrc : r.src = src)
    (hown : u.id ∉ db.store.owners r.id) :
    registerRoute eng reg draws db =
      .error ⟨.notAllowed, "Route already taken", none⟩ db := by
  have hr' : db.store.routeOfSrc src = some r :=
    (lookup_eq_some_iff db.valid.routeSrcs).mpr ⟨hr, hsrc⟩
  have hbody := registerRouteBody_registers db.valid reg draws
  cases hrun : (registerRouteBody reg draws).run db.store with
  | mk res Δ =>
    rw [hrun] at hbody
    -- the body ends as `taken`: the other outcomes contradict what is stored
    cases hbody with
    | unresolved h => exact absurd hres (h _ _ _)
    | taken => exact withUOW_raised hrun
    | rebound hres' hr'' hown' =>
      obtain ⟨-, rfl, rfl⟩ := hres.unique hres'
      cases hr'.symm.trans hr''
      exact absurd hown' hown
    | restricted hres' hr'' =>
      obtain ⟨-, -, rfl⟩ := hres.unique hres'
      cases hr'.symm.trans hr''
    | created hres' hr'' =>
      obtain ⟨-, -, rfl⟩ := hres.unique hres'
      cases hr'.symm.trans hr''

/-- **No route hijack.** After any calls from a store without routes: a `src` belongs
to one route; the owners of a route are the one user whose call created it; a call that
returns normally returns a stored, verified route of the caller; and a call that
generates the `src` of somebody else's route raises `NotAllowed` and changes nothing. -/
theorem registerAll_noHijack (eng : Engine) (db₀ : Database) (hroutes : db₀.store.routes = [])
    (calls : List (Registration × Draws)) :
    let db := registerAll eng db₀ calls
    (∀ r₁ ∈ db.store.routes, ∀ r₂ ∈ db.store.routes, r₁.src = r₂.src → r₁ = r₂) ∧
    (∀ r ∈ db.store.routes, ∃ pre call post u, calls = pre ++ call :: post ∧
      CreatedBy eng db₀ pre call r.id u ∧ db.store.owners r.id = [u.id]) ∧
    (∀ reg draws r db', (∀ c, reg.community = some c → c.id ∈ db₀.store.communityIds) →
      registerRoute eng reg draws db = .ok r db' →
      r ∈ db'.store.routes ∧ r.verificationStatus = .verified ∧
        ∃ u ∈ db'.store.users, u.uid = some reg.userUid ∧ u.id ∈ db'.store.owners r.id) ∧
    (∀ reg draws d u src r, Resolves db.store reg draws d u src → r ∈ db.store.routes →
      r.src = src → u.id ∉ db.store.owners r.id →
      registerRoute eng reg draws db =
        .error ⟨.notAllowed, "Route already taken", none⟩ db) := by
  intro db
  refine ⟨?_, ?_, ?_, ?_⟩
  · exact fun r₁ hr₁ r₂ hr₂ hsrc => db.valid.routeSrcs.inj hr₁ hr₂ hsrc
  · exact fun r hr => registerAll_creator eng hroutes calls r.id (List.mem_map.mpr ⟨r, hr, rfl⟩)
  · intro reg draws r db' hc h
    refine registerRoute_returns (fun c hcomm => ?_) h
    rw [Store.communityIds, (registerAll_frame eng db₀ calls).2]
    exact hc c hcomm
  · exact fun reg draws d u src r hres hr hsrc hown =>
      registerRoute_taken eng hres hr hsrc hown

/-- A registration as `user`, of `name` in the default domain. -/
def callBy (user name : String) (n : Nat) : Registration × Draws :=
  (⟨user, name, none, "tunnel", false, none⟩,
    ⟨n, "route-" ++ toString n, "token-" ++ toString n, ""⟩)

def twoUsers : Database := .load
  [.addUser { id := "1", uid := some "alice" }, .addUser { id := "2", uid := some "bob" },
    .addDomain { id := "d", name := "std", value := "example.com", default := true }]

theorem registerAll_noHijack_twoUsers :
    let db := registerAll .sqlite twoUsers [callBy "alice" "app" 0, callBy "bob" "app" 1]
    (db.store.routes.map fun r => (r.src, db.store.owners r.id)) =
        [("https://example.com/app", ["1"])] ∧
      ∀ r ∈ db.store.routes, ∃ pre call post u,
        [callBy "alice" "app" 0, callBy "bob" "app" 1] = pre ++ call :: post ∧
          CreatedBy .sqlite twoUsers pre call r.id u ∧ db.store.owners r.id = [u.id] :=
  ⟨by decide, (registerAll_noHijack .sqlite twoUsers (by decide) _).2.1⟩

end RouteRegistry
