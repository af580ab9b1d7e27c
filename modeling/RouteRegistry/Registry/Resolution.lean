import RouteRegistry.Registry.Deletion

/-!
# Fetching and deleting a community by its id or its name

`get_user_community` decides by the form of the string: a UUID is an id, anything else a
name. `remove_user_community` compares the string with both. A community may have a UUID for
its name, so the two part ways (`resolvesAlike_iff`).
-/

namespace RouteRegistry

open Relational UnitOfWork Runs

/-- How the lookup reads the string: a UUID is an id, any other a name. -/
def Community.Named (key : String) (c : Community) : Prop :=
  if Text.isUuid key then c.id = key else c.name = key

/-- The call, whether it returns or raises, leaves the community out of the store. -/
def DeletesCommunity (eng : Engine) (u : User) (key : String) (db : Database) (c : Community) : Prop :=
  c ∈ db.store.communities ∧
    c.id ∉ ((removeUserCommunity eng u key).after db).store.communityIds

/-- Fetching and deleting resolve the string alike, and the names of the user's communities
are resolved. -/
structure ResolvesAlike (eng : Engine) (u : User) (key : String) (db : Database) : Prop where
  deletes_iff : ∀ c, DeletesCommunity eng u key db c ↔
    ∃ db', getUserCommunity eng u key db = .ok (some c) db'
  names : ∀ c ∈ db.store.communities, c.entityId = u.id →
    ∃ c' ∈ db.store.communities, c'.entityId = u.id ∧ (c'.name = c.name ∨ c'.id = c.name) ∧
      ∃ db', getUserCommunity eng u c.name db = .ok (some c') db'

/-- What the store has to be like for that. -/
structure Store.Unambiguous (s : Store) (eng : Engine) (u : User) (key : String) : Prop where
  /-- A community with the id can be deleted, and comes before a namesake of the id. -/
  byId : Text.isUuid key = true → ∀ c ∈ s.communities, c.entityId = u.id → c.id = key →
    ¬ s.Requested key ∧ s.ListedFirst eng key c
  byName : Text.isUuid key = false → ∀ c ∈ s.communities, c.entityId = u.id → c.name = key →
    ¬ s.Requested c.id
  /-- Where no community has the id, one with that name cannot be deleted. -/
  namesake : Text.isUuid key = true → (∀ c ∈ s.communities, c.entityId = u.id → c.id ≠ key) →
    ∀ c ∈ s.communities, c.entityId = u.id → c.name = key → s.Requested c.id
  /-- A name that is a UUID is the id of a community of the user's. -/
  names : ∀ c ∈ s.communities, c.entityId = u.id → Text.isUuid c.name = true →
    ∃ c' ∈ s.communities, c'.entityId = u.id ∧ c'.id = c.name

section Store

variable {eng : Engine} {s : Store} {u : User} {key : String} {c c' : Community}

/-- A user has no two communities that the lookup takes the string for. -/
theorem Community.Named.unique (hv : s.Valid) (hc : c ∈ s.communities) (hc' : c' ∈ s.communities)
    (hown : c.entityId = c'.entityId) (h : c.Named key) (h' : c'.Named key) : c = c' := by
  unfold Community.Named at h h'
  split at h
  · rw [if_pos ‹_›] at h'
    exact hv.communityKeys.inj hc hc' (h.trans h'.symm)
  · rw [if_neg ‹_›] at h'
    exact hv.communityNames.inj hc hc' (Prod.ext hown (h.trans h'.symm))

theorem Community.matchesKey_own (hid : u.id ≠ "") :
    c.matchesKey key (some u.id) = true ↔ c.Named key ∧ c.entityId = u.id := by
  have htruthy : Text.truthy (some u.id) = true := by simp [Text.truthy, hid]
  unfold Community.matchesKey Community.Named CommunityRepo.ownedBy
  by_cases huuid : Text.isUuid key = true
  · simp [huuid, htruthy]
  · simp [huuid, htruthy]

/-- The lookup finds the user's community that the string names. -/
theorem Store.communityFor_own_iff (hv : s.Valid) (hid : u.id ≠ "") :
    s.communityFor key (some u.id) = .ok (some c) ↔
      c ∈ s.communities ∧ c.entityId = u.id ∧ c.Named key := by
  constructor
  · intro h
    obtain ⟨hc, hmatch⟩ := Store.communityFor_mem h
    obtain ⟨hnamed, hown⟩ := (Community.matchesKey_own hid).mp hmatch
    exact ⟨hc, hown, hnamed⟩
  · rintro ⟨hc, hown, hnamed⟩
    rw [Store.communityFor_eq_some]
    refine hv.communityKeys.filter_eq_singleton hc
      ((Community.matchesKey_own hid).mpr ⟨hnamed, hown⟩) fun c' hc' hmatch => ?_
    obtain ⟨hnamed', hown'⟩ := (Community.matchesKey_own hid).mp hmatch
    exact hnamed'.unique hv hc' hc (hown'.trans hown.symm) hnamed

/-- A string that is no id is found as a name. -/
theorem Store.candidate_name (hv : s.Valid)
    (hids : ∀ c ∈ s.communities, Text.isUuid c.id = true) (hkey : Text.isUuid key = false)
    (hc : c ∈ s.communities) (hown : c.entityId = u.id) (hname : c.name = key) :
    s.candidate eng u key = some c := by
  cases hfound : s.candidate eng u key with
  | none =>
    exact absurd hname (Store.candidate_none hfound hc hown)
  | some c' =>
    obtain ⟨hc', hown', hid | hname'⟩ := Store.candidate_mem hfound
    · rw [← hid, hids c' hc'] at hkey
      cases hkey
    · rw [hv.communityNames.inj hc' hc (Prod.ext (hown'.trans hown.symm)
        (hname'.trans hname.symm))]

end Store

section Calls

variable {eng : Engine} {db : Database} {u : User} {key : String} {c : Community}

theorem getUserCommunity_eq_some_iff (hrel : eng.Reliable) (hid : u.id ≠ "") :
    (∃ db', getUserCommunity eng u key db = .ok (some c) db') ↔
      c ∈ db.store.communities ∧ c.entityId = u.id ∧ c.Named key := by
  have hrun := run_getCommunity db.store key (some u.id)
  rw [← Store.communityFor_own_iff db.valid hid]
  constructor
  · rintro ⟨db', hcall⟩
    obtain ⟨Δ, hrun', -⟩ := withUOW_ok hcall
    rw [hrun] at hrun'
    exact (Prod.mk.inj hrun').1
  · intro hfound
    rw [hfound] at hrun
    obtain ⟨db', hcall, -⟩ := withUOW_of_flush hrel hrun (flush_nil _)
    exact ⟨db', hcall⟩

/-- What a call deletes: the community the scan finds, unless a request refers to it. -/
theorem deletesCommunity_iff (hrel : eng.Reliable)
    (hids : ∀ c ∈ db.store.communities, Text.isUuid c.id = true) (hu : u ∈ db.store.users) :
    DeletesCommunity eng u key db c ↔
      db.store.candidate eng u key = some c ∧ ¬ db.store.Requested c.id := by
  have huser : db.store.userOf u.uid = some u :=
    (lookup_eq_some_iff db.valid.uids).mpr ⟨hu, rfl⟩
  -- a call that raises deletes nothing
  have hraised : ∀ e, removeUserCommunity eng u key db = .error e db →
      ¬ DeletesCommunity eng u key db c := by
    rintro e hcall ⟨hc, hgone⟩
    rw [Service.after_of_error hcall] at hgone
    exact hgone (List.mem_map_of_mem hc)
  cases hfound : db.store.candidate eng u key with
  | none =>
    refine iff_of_false (hraised _ (removeUserCommunity_of_none hids huser hfound)) ?_
    rintro ⟨h, -⟩
    cases h
  | some c' =>
    have hc' := (Store.candidate_mem hfound).1
    by_cases hreq : db.store.Requested c'.id
    · obtain ⟨e, hcall⟩ := removeUserCommunity_of_requested eng hids huser hfound hreq
      refine iff_of_false (hraised e hcall) ?_
      rintro ⟨h, hfree⟩
      cases h
      exact hfree hreq
    · obtain ⟨db', hcall, hdb'⟩ := removeUserCommunity_of_free hrel hids huser hfound hreq
      unfold DeletesCommunity
      rw [Service.after_of_ok hcall, hdb', Store.mem_communityIds_withoutCommunity]
      constructor
      · rintro ⟨hc, hgone⟩
        have hsame : c.id = c'.id := by
          by_contra hne
          exact hgone ⟨List.mem_map_of_mem hc, hne⟩
        obtain rfl := db.valid.communityKeys.inj hc hc' hsame
        exact ⟨rfl, hreq⟩
      · rintro ⟨h, -⟩
        cases h
        exact ⟨hc', fun h => h.2 rfl⟩

end Calls

/-! ## When both resolve alike -/

section Alike

variable {eng : Engine} {db : Database} {u : User} {key : String}

/-- A UUID is resolved alike by a store that is unambiguous about it. -/
theorem deletes_uuid_iff (hrel : eng.Reliable)
    (hids : ∀ c ∈ db.store.communities, Text.isUuid c.id = true) (hu : u ∈ db.store.users)
    (hid : u.id ≠ "") (hkey : Text.isUuid key = true) :
    (∀ c, DeletesCommunity eng u key db c ↔ ∃ db', getUserCommunity eng u key db = .ok (some c) db') ↔
      (∀ c ∈ db.store.communities, c.entityId = u.id → c.id = key →
        ¬ db.store.Requested key ∧ db.store.ListedFirst eng key c) ∧
      ((∀ c ∈ db.store.communities, c.entityId = u.id → c.id ≠ key) →
        ∀ c ∈ db.store.communities, c.entityId = u.id → c.name = key →
          db.store.Requested c.id) := by
  have hv := db.valid
  simp only [deletesCommunity_iff hrel hids hu, getUserCommunity_eq_some_iff hrel hid,
    Community.Named, hkey, if_true]
  constructor
  · intro h
    refine ⟨fun c hc hown hckey => ?_, fun hnone c hc hown hname => ?_⟩
    · obtain ⟨hfound, hfree⟩ := (h c).mpr ⟨hc, hown, hckey⟩
      exact ⟨hckey ▸ hfree, (Store.candidate_id_iff eng hv hown hckey).mp hfound⟩
    · by_contra hfree
      -- the scan stops at the namesake
      cases hfound : db.store.candidate eng u key with
      | none =>
        exact absurd hname (Store.candidate_none hfound hc hown)
      | some c' =>
        obtain ⟨hc', hown', hckey' | hname'⟩ := Store.candidate_mem hfound
        · exact hnone c' hc' hown' hckey'
        · have hsame : c' = c := hv.communityNames.inj hc' hc
            (Prod.ext (hown'.trans hown.symm) (hname'.trans hname.symm))
          subst hsame
          exact hnone c' hc hown ((h c').mp ⟨hfound, hfree⟩).2.2
  · rintro ⟨hbyId, hnamesake⟩ c
    constructor
    · rintro ⟨hfound, hfree⟩
      obtain ⟨hc, hown, hckey | hname⟩ := Store.candidate_mem hfound
      · exact ⟨hc, hown, hckey⟩
      · by_cases hsome : ∃ c' ∈ db.store.communities, c'.entityId = u.id ∧ c'.id = key
        · obtain ⟨c', hc', hown', hckey'⟩ := hsome
          have hfirst := (Store.candidate_id_iff eng hv hown' hckey').mpr
            (hbyId c' hc' hown' hckey').2
          cases hfound.symm.trans hfirst
          exact ⟨hc, hown, hckey'⟩
        · push Not at hsome
          exact absurd (hnamesake hsome c hc hown hname) hfree
    · rintro ⟨hc, hown, hckey⟩
      obtain ⟨hfree, hfirst⟩ := hbyId c hc hown hckey
      exact ⟨(Store.candidate_id_iff eng hv hown hckey).mpr hfirst, hckey ▸ hfree⟩

/-- A name is resolved alike if the community can be deleted. -/
theorem deletes_name_iff (hrel : eng.Reliable)
    (hids : ∀ c ∈ db.store.communities, Text.isUuid c.id = true) (hu : u ∈ db.store.users)
    (hid : u.id ≠ "") (hkey : Text.isUuid key = false) :
    (∀ c, DeletesCommunity eng u key db c ↔ ∃ db', getUserCommunity eng u key db = .ok (some c) db') ↔
      ∀ c ∈ db.store.communities, c.entityId = u.id → c.name = key →
        ¬ db.store.Requested c.id := by
  have hv := db.valid
  simp only [deletesCommunity_iff hrel hids hu, getUserCommunity_eq_some_iff hrel hid,
    Community.Named, hkey, Bool.false_eq_true, if_false]
  constructor
  · intro h c hc hown hname
    exact ((h c).mpr ⟨hc, hown, hname⟩).2
  · intro hfree c
    constructor
    · rintro ⟨hfound, -⟩
      obtain ⟨hc, hown, hckey | hname⟩ := Store.candidate_mem hfound
      · rw [← hckey, hids c hc] at hkey
        cases hkey
      · exact ⟨hc, hown, hname⟩
    · rintro ⟨hc, hown, hname⟩
      exact ⟨Store.candidate_name hv hids hkey hc hown hname, hfree c hc hown hname⟩

/-- The names of a user's communities are resolved when those that are UUIDs are ids. -/
theorem names_resolved_iff (db : Database) (hrel : eng.Reliable) (hid : u.id ≠ "") :
    (∀ c ∈ db.store.communities, c.entityId = u.id →
      ∃ c' ∈ db.store.communities, c'.entityId = u.id ∧ (c'.name = c.name ∨ c'.id = c.name) ∧
        ∃ db', getUserCommunity eng u c.name db = .ok (some c') db') ↔
    ∀ c ∈ db.store.communities, c.entityId = u.id → Text.isUuid c.name = true →
      ∃ c' ∈ db.store.communities, c'.entityId = u.id ∧ c'.id = c.name := by
  simp only [getUserCommunity_eq_some_iff hrel hid, Community.Named]
  constructor
  · intro h c hc hown hname
    obtain ⟨c', hc', hown', -, -, -, hnamed⟩ := h c hc hown
    rw [if_pos hname] at hnamed
    exact ⟨c', hc', hown', hnamed⟩
  · intro h c hc hown
    by_cases hname : Text.isUuid c.name = true
    · obtain ⟨c', hc', hown', hid'⟩ := h c hc hown hname
      refine ⟨c', hc', hown', .inr hid', hc', hown', ?_⟩
      rw [if_pos hname]
      exact hid'
    · refine ⟨c, hc, hown, .inl rfl, hc, hown, ?_⟩
      rw [if_neg hname]

end Alike

/-! ## The ids of users -/

/-- An event that creates a user gives it an id that is not empty. -/
def Event.CreatesUserIds (e : Event) : Prop :=
  ∀ u, e = .transact (.createUser u) → u.id ≠ ""

theorem Change.effect_userIds {s : Store} {c : Change} {id : String}
    (h : id ∈ (c.effect s).users.map User.id) :
    id ∈ s.users.map User.id ∨ ∃ u, c = .addUser u ∧ u.id = id := by
  cases c with
  | addUser u =>
    rw [show (Change.effect s (.addUser u)).users = s.users ++ [u] from rfl, List.map_append,
      List.mem_append, List.map_singleton, List.mem_singleton] at h
    rcases h with h | rfl
    · exact .inl h
    · exact .inr ⟨u, rfl, rfl⟩
  | setUserAdmin id' value =>
    have hmap : (modify User.id id' (User.setAdmin value) s.users).map User.id =
        s.users.map User.id := map_modify _ _ (User.setAdmin_id value) _
    exact .inl (hmap ▸ h)
  | deleteEntity id' =>
    obtain ⟨u, hu, rfl⟩ := List.mem_map.mp h
    exact .inl (List.mem_map_of_mem (mem_discard.mp hu).1)
  | _ => exact .inl h

theorem Transaction.adds_user {t : Transaction} {now : Time} {u : User}
    (h : t.mayQueue now (.addUser u)) : t = .createUser u := by
  cases t with
  | createUser user =>
    cases h
    rfl
  | _ => simp [mayQueue] at h

/-- The ids of users are not empty in any state a run leads to. -/
theorem run_userIds {eng : Engine} {setup : Setup} {s₀ s : System} {es : List Event}
    (hids : ∀ u ∈ s₀.db.store.users, u.id ≠ "") (hcreate : ∀ e ∈ es, e.CreatesUserIds)
    (hrun : run (step eng setup) s₀ es = some s) : ∀ u ∈ s.db.store.users, u.id ≠ "" := by
  have hkeep : ∀ (s : System) (e : Event) (s' : System), "" ∉ s.db.store.users.map User.id →
      e.CreatesUserIds → step eng setup s e = some s' → "" ∉ s'.db.store.users.map User.id := by
    intro s e s' hno he hstep
    rcases step_db hstep with hdb | ⟨t, hdb, hkind⟩
    · rwa [hdb]
    · rw [hdb]
      rcases t.after_cases eng setup s.clock s.db with hsame | ⟨Δ, hf, hqueued⟩
      · rwa [hsame]
      · refine flush_keeps (I := fun s => "" ∉ s.users.map User.id) ?_ hf hno
        intro s₁ hs₁ ch hch hmem
        rcases Change.effect_userIds hmem with hmem | ⟨u, rfl, hempty⟩
        · exact hs₁ hmem
        · obtain rfl := Transaction.adds_user (hqueued _ hch)
          rcases hkind with rfl | ⟨_, _, h⟩ | ⟨_, h⟩
          · exact he u rfl hempty
          · cases h
          · cases h
  have hno := run_keeps (I := fun s : System => "" ∉ s.db.store.users.map User.id)
    (P := fun _ e => e.CreatesUserIds) hkeep (along_of_forall hcreate) hrun (by simpa using hids)
  intro u hu hempty
  exact hno (hempty ▸ List.mem_map_of_mem hu)

/-- **When fetching and deleting resolve a string alike.** In every state of a run in which
communities get UUIDs and users get ids that are not empty, `get_user_community` and
`remove_user_community` resolve the string alike, and the names of the user's communities
are resolved, exactly when the store is unambiguous. -/
theorem resolvesAlike_iff (eng : Engine) (hrel : eng.Reliable) (setup : Setup) (s₀ : System)
    (hids : ∀ c ∈ s₀.db.store.communities, Text.isUuid c.id = true)
    (huserIds : ∀ u ∈ s₀.db.store.users, u.id ≠ "") (es : List Event)
    (hcreate : ∀ e ∈ es, e.CreatesUuids ∧ e.CreatesUserIds) (s : System)
    (hrun : run (step eng setup) s₀ es = some s) (u : User) (hu : u ∈ s.db.store.users)
    (key : String) :
    ResolvesAlike eng u key s.db ↔ s.db.store.Unambiguous eng u key := by
  have hids := run_uuids hids (fun e he => (hcreate e he).1) hrun
  have hid := run_userIds huserIds (fun e he => (hcreate e he).2) hrun u hu
  have hnames := names_resolved_iff s.db hrel hid
  by_cases hkey : Text.isUuid key = true
  · have halike := deletes_uuid_iff hrel hids hu hid hkey
    constructor
    · intro h
      obtain ⟨hbyId, hnamesake⟩ := halike.mp h.deletes_iff
      exact {
        byId := fun _ => hbyId
        byName := fun hno => by rw [hkey] at hno; cases hno
        namesake := fun _ => hnamesake
        names := hnames.mp h.names }
    · intro h
      exact ⟨halike.mpr ⟨h.byId hkey, h.namesake hkey⟩, hnames.mpr h.names⟩
  · have hkey' : Text.isUuid key = false := by simpa using hkey
    have halike := deletes_name_iff hrel hids hu hid hkey'
    constructor
    · intro h
      exact {
        byId := fun hyes => absurd hyes hkey
        byName := fun _ => halike.mp h.deletes_iff
        namesake := fun hyes => absurd hyes hkey
        names := hnames.mp h.names }
    · intro h
      exact ⟨halike.mpr (h.byName hkey'), hnames.mpr h.names⟩

/-- Alice's club is fetched and deleted by its name alike. -/
theorem resolvesAlike_club : ResolvesAlike .sqlite alice "club" oneClub := by
  refine (resolvesAlike_iff .sqlite Engine.sqlite_reliable plainSetup ⟨oneClub, 0, []⟩ (by decide)
    (by decide) [] (by simp) ⟨oneClub, 0, []⟩ rfl alice (by decide) "club").mpr ?_
  exact {
    byId := fun h => absurd h (by decide)
    byName := fun _ => by decide
    namesake := fun h => absurd h (by decide)
    names := by decide }

/-- A community of Alice's that has a UUID for its name. -/
def uuidNamed : Community :=
  { id := "0123456789abcdef0123456789abcdef", name := "fedcba9876543210fedcba9876543210",
    entityId := "1" }

def uuidNamedEvents : List Event :=
  [.transact (.createUser alice), .transact (.createCommunity alice uuidNamed)]

def oneUuidNamed : Database :=
  ((Transaction.createCommunity alice uuidNamed).run .sqlite plainSetup 0).after
    (((Transaction.createUser alice).run .sqlite plainSetup 0).after (.load []))

/-- Its name fetches nothing, and deletes it. -/
theorem uuidNamed_notAlike :
    run (step .sqlite plainSetup) ⟨.load [], 0, []⟩ uuidNamedEvents = some ⟨oneUuidNamed, 0, []⟩ ∧
      getUserCommunity .sqlite alice uuidNamed.name oneUuidNamed = .ok none oneUuidNamed ∧
      DeletesCommunity .sqlite alice uuidNamed.name oneUuidNamed uuidNamed ∧
      ¬ ResolvesAlike .sqlite alice uuidNamed.name oneUuidNamed := by
  have hdeletes : DeletesCommunity .sqlite alice uuidNamed.name oneUuidNamed uuidNamed :=
    (deletesCommunity_iff Engine.sqlite_reliable (by decide) (by decide)).mpr
      ⟨by decide, by decide⟩
  refine ⟨rfl, ?_, hdeletes, fun h => ?_⟩
  · have hrun : (CommunityRepo.get uuidNamed.name (some alice.id)).run oneUuidNamed.store =
        (.ok none, []) := by
      decide
    obtain ⟨db', hcall, hdb'⟩ := withUOW_of_flush Engine.sqlite_reliable hrun (flush_nil _)
    rw [Database.ext hdb'] at hcall
    exact hcall
  · have hgot := (h.deletes_iff uuidNamed).mp hdeletes
    rw [getUserCommunity_eq_some_iff Engine.sqlite_reliable (by decide)] at hgot
    exact absurd hgot.2.2 (by unfold Community.Named; decide)

end RouteRegistry
