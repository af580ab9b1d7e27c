import RouteRegistry.Registry.Api
import RouteRegistry.Registry.Authentication

/-!
# Seeding the user of a development server (`seed-dev-user`)

The command creates the user that `LocalDevAuthenticator` lets everybody be, or sets the flag of
one that is there.

- `seedDev`: the command, with its arguments and the table `AUTH.local_dev`.
- `Store.seeded`: what it is to leave.
- `seedDev_settles`: it does so, running it again changes nothing, and the authenticator that a
  server makes of the table then finds the user.
-/

namespace RouteRegistry

open Relational UnitOfWork Calls

/-! ## The command -/

/-- The arguments of `seed-dev-user`. -/
structure SeedArgs where
  uid : Option String := none
  /-- `--admin` or `--no-admin`. -/
  admin : Option Bool := none

/-- The table `AUTH.local_dev`. -/
structure LocalDevTable where
  uid : Option String := none
  isAdmin : Option Bool := none

/-- A configuration of the server with the table. -/
def LocalDevTable.auth (table : LocalDevTable) : AuthConfig where
  authName := "local_dev"
  localDev := some table.uid

/-- `args.uid or local_dev_config.get("uid") or get_local_username()`. -/
def SeedArgs.uidOr (args : SeedArgs) (table : LocalDevTable) (username : String) : String :=
  if Text.truthy args.uid then Text.fieldText args.uid else localDevUid table.uid username

def SeedArgs.isAdmin (args : SeedArgs) (table : LocalDevTable) : Bool :=
  match args.admin with
  | some admin => admin
  | none => table.isAdmin.getD true

/-- The user that is seeded. -/
def SeedArgs.user (args : SeedArgs) (table : LocalDevTable) (username uuid : String) : User where
  id := uuid
  uid := some (args.uidOr table username)
  duid := some (args.uidOr table username)
  isAdmin := args.isAdmin table

def seedDev (eng : Engine) (args : SeedArgs) (table : LocalDevTable) (username uuid : String) :
    Service Unit :=
  seedDevUser eng (args.user table username uuid)

/-! ## What it leaves -/

/-- The store with the user, or with the flag of the user who has the uid. -/
def Store.seeded (s : Store) (user : User) : Store :=
  match s.userOf user.uid with
  | none => { s with users := s.users ++ [user] }
  | some u => { s with users := modify User.id u.id (User.setAdmin user.isAdmin) s.users }

section Seeded

variable {s : Store} {user u : User}

theorem Store.seeded_none (h : s.userOf user.uid = none) :
    s.seeded user = { s with users := s.users ++ [user] } := by
  unfold Store.seeded
  rw [h]

theorem Store.seeded_some (h : s.userOf user.uid = some u) :
    s.seeded user =
      { s with users := modify User.id u.id (User.setAdmin user.isAdmin) s.users } := by
  unfold Store.seeded
  rw [h]

theorem Store.Valid.userKeys (hv : s.Valid) : Keyed User.id s.users :=
  (List.nodup_append.mp hv.entityKeys).1

/-- A flag that is set already stays. -/
theorem Store.seeded_same (hv : s.Valid) (h : s.userOf user.uid = some u)
    (hflag : u.isAdmin = user.isAdmin) : s.seeded user = s := by
  obtain ⟨hu, -⟩ := lookup_mem h
  have hkeep : modify User.id u.id (User.setAdmin user.isAdmin) s.users =
      modify User.id u.id id s.users := by
    refine modify_congr fun r hr hid => ?_
    obtain rfl := hv.userKeys.inj hr hu hid
    rw [← hflag]
    rfl
  have hid : modify User.id u.id id s.users = s.users := by
    unfold Relational.modify
    simp
  rw [Store.seeded_some h, hkeep, hid]

/-- The user is found then, with the flag. -/
theorem Store.userOf_seeded (s : Store) (user : User) :
    ∃ u', (s.seeded user).userOf user.uid = some u' ∧ u'.isAdmin = user.isAdmin := by
  cases h : s.userOf user.uid with
  | none =>
    rw [Store.seeded_none h]
    refine ⟨user, ?_, rfl⟩
    show List.find? _ (s.users ++ [user]) = some user
    rw [List.find?_append, show s.users.find? _ = none from h]
    simp
  | some u =>
    rw [Store.seeded_some h]
    refine ⟨u.setAdmin user.isAdmin, ?_, rfl⟩
    have hkeep : ∀ r : User, (if r.id = u.id then r.setAdmin user.isAdmin else r).uid = r.uid := by
      intro r
      split <;> rfl
    show lookup User.uid user.uid (modify User.id u.id _ s.users) = _
    rw [Relational.modify, lookup_map hkeep, show lookup User.uid user.uid s.users = some u from h]
    simp

end Seeded

section Command

variable {eng : Engine} {db : Database} {user u : User}

/-- A user whose uid is new is created. -/
theorem createUser_new (hrel : eng.Reliable) (hid : user.id ∉ db.store.entityIds)
    (hnull : user.uid ≠ none) (hnew : db.store.userOf user.uid = none) :
    ∃ db', createUser eng user db = .ok user db' ∧
      db'.store = { db.store with users := db.store.users ++ [user] } := by
  have huid : user.uid ∉ db.store.users.map User.uid := by
    intro hmem
    obtain ⟨u, hu, heq⟩ := List.mem_map.mp hmem
    exact lookup_eq_none_iff.mp hnew u hu heq
  have hflush : flush db.store [.addUser user] =
      .ok { db.store with users := db.store.users ++ [user] } := by
    rw [flush_single]
    simp [Change.apply, check, hid, hnull, huid]
    rfl
  obtain ⟨db', hcall, hstore⟩ : ∃ db', withUOW eng (Txn.put (.addUser user)) db = .ok () db' ∧ _ :=
    withUOW_of_flush hrel rfl hflush
  refine ⟨db', ?_, hstore⟩
  exact bind_eq_ok.mpr ⟨(), db', rethrow_eq_ok.mpr hcall, rfl⟩

/-- A uid that is taken is refused. -/
theorem createUser_taken (eng : Engine) (hnull : user.uid ≠ none)
    (htaken : db.store.userOf user.uid = some u) :
    ∃ e, createUser eng user db = .error e db ∧ e.isInstance .alreadyExists = true := by
  have huid : user.uid ∈ db.store.users.map User.uid :=
    List.mem_map.mpr ⟨u, lookup_mem htaken⟩
  have hflush : flush db.store [.addUser user] = .error (.integrity .unique) := by
    rw [flush_single]
    by_cases hid : user.id ∈ db.store.entityIds
    · simp [Change.apply, check, hid]
      rfl
    · simp [Change.apply, check, hid, hnull, huid]
      rfl
  obtain ⟨msg, hcall⟩ : ∃ msg, withUOW eng (Txn.put (.addUser user)) db =
      .error ⟨.uowAlreadyExists, msg, none⟩ db := withUOW_of_unique rfl hflush
  refine ⟨⟨.alreadyExists, s!"User {Text.fieldText user.uid} already exists", none⟩, ?_, rfl⟩
  exact bind_eq_error.mpr (.inl (rethrow_eq_error.mpr ⟨_, hcall, rfl⟩))

/-- The flag of a stored user is set. -/
theorem reconcileAdmin_sets (hrel : eng.Reliable) (h : db.store.userOf user.uid = some u)
    (hnull : user.uid ≠ none) : ∃ db',
      withUOW eng (reconcileAdminBody (Text.fieldText user.uid) user.isAdmin) db = .ok () db' ∧
      db'.store = db.store.seeded user := by
  have huid : some (Text.fieldText user.uid) = user.uid := by
    cases huid : user.uid with
    | none => exact absurd huid hnull
    | some uid => rfl
  have hget : (EntityRepo.getUser (some (Text.fieldText user.uid))).run db.store = (.ok u, []) :=
    EntityRepo.run_getUser_some db.valid (huid ▸ h)
  by_cases hflag : u.isAdmin = user.isAdmin
  · have hrun : (reconcileAdminBody (Text.fieldText user.uid) user.isAdmin).run db.store =
        (.ok (), []) := by
      unfold reconcileAdminBody
      rw [Txn.run_bind_pure hget, if_pos hflag]
      rfl
    obtain ⟨db', hcall, hstore⟩ := withUOW_of_flush hrel hrun (flush_nil _)
    exact ⟨db', hcall, hstore.trans (Store.seeded_same db.valid h hflag).symm⟩
  · have hrun : (reconcileAdminBody (Text.fieldText user.uid) user.isAdmin).run db.store =
        (.ok (), [.setUserAdmin u.id user.isAdmin]) := by
      unfold reconcileAdminBody
      rw [Txn.run_bind_pure hget, if_neg hflag]
      rfl
    have hid : u.id ∈ db.store.users.map User.id := List.mem_map.mpr ⟨u, (lookup_mem h).1, rfl⟩
    have hflush : flush db.store [.setUserAdmin u.id user.isAdmin] =
        .ok (db.store.seeded user) := by
      rw [flush_single, Store.seeded_some h]
      simp [Change.apply, check, hid]
    exact withUOW_of_flush hrel hrun hflush

/-- A uid that is taken has its flag set, whatever the id of the new user. -/
theorem seedDevUser_again (hrel : eng.Reliable) (h : db.store.userOf user.uid = some u)
    (hnull : user.uid ≠ none) :
    ∃ db', seedDevUser eng user db = .ok () db' ∧ db'.store = db.store.seeded user := by
  obtain ⟨e, hcall, he⟩ := createUser_taken eng hnull h
  obtain ⟨db', hset, hstore⟩ := reconcileAdmin_sets hrel h hnull
  refine ⟨db', ?_, hstore⟩
  have hraised : (do
      let _ ← createUser eng user
      return true : Service Bool) db = .error e db := bind_eq_error.mpr (.inl hcall)
  refine bind_eq_ok.mpr ⟨false, db, ?_, hset⟩
  rw [tryCatch_of_error hraised, if_pos he]
  rfl

/-- **Seeding** a user leaves the store seeded. -/
theorem seedDevUser_seeds (hrel : eng.Reliable) (hid : user.id ∉ db.store.entityIds)
    (hnull : user.uid ≠ none) :
    ∃ db', seedDevUser eng user db = .ok () db' ∧ db'.store = db.store.seeded user := by
  cases h : db.store.userOf user.uid with
  | none =>
    obtain ⟨db', hcall, hstore⟩ := createUser_new hrel hid hnull h
    refine ⟨db', ?_, hstore.trans (Store.seeded_none h).symm⟩
    have hseeded : (do
        let _ ← createUser eng user
        return true : Service Bool) db = .ok true db' := bind_eq_ok.mpr ⟨user, db', hcall, rfl⟩
    exact bind_eq_ok.mpr ⟨true, db', tryCatch_of_ok hseeded, rfl⟩
  | some u => exact seedDevUser_again hrel h hnull

end Command

/-- **Seeding settles.** For every store, every argument, table and name of the account: the command
creates the user or sets the flag of the one who has the uid, and nothing else; running it again,
with whatever id, changes nothing; and, where the uid is the one that a server with the table looks
for, `LocalDevAuthenticator` lets every request in as that user, with the flag that was asked for.
-/
theorem seedDev_settles (eng : Engine) (hrel : eng.Reliable) (args : SeedArgs)
    (table : LocalDevTable) (username uuid : String) (db : Database)
    (hfresh : uuid ∉ db.store.entityIds) :
    ∃ db', seedDev eng args table username uuid db = .ok () db' ∧
      db'.store = db.store.seeded (args.user table username uuid) ∧
      (∀ uuid', seedDev eng args table username uuid' db' = .ok () db') ∧
      (args.uidOr table username = localDevUid table.uid username →
        ∃ auth, makeAuthenticator eng table.auth username = .ok auth ∧ ∀ request, ∃ u,
          auth.call request db' = .ok u db' ∧ u.uid = some (args.uidOr table username) ∧
            u.isAdmin = args.isAdmin table) := by
  have hnull : ∀ uuid', (args.user table username uuid').uid ≠ none :=
    fun _ h => by cases h
  obtain ⟨db', hcall, hstore⟩ : ∃ db', seedDev eng args table username uuid db = .ok () db' ∧
      db'.store = db.store.seeded (args.user table username uuid) :=
    seedDevUser_seeds hrel hfresh (hnull uuid)
  obtain ⟨u, hu, hflag⟩ := db.store.userOf_seeded (args.user table username uuid)
  rw [← hstore] at hu
  refine ⟨db', hcall, hstore, fun uuid' => ?_, fun huid => ?_⟩
  · have hu' : db'.store.userOf (args.user table username uuid').uid = some u := hu
    obtain ⟨db'', hagain, hstore'⟩ := seedDevUser_again hrel hu' (hnull uuid')
    have hsame := Store.seeded_same db'.valid hu' hflag
    rw [Database.ext (hstore'.trans hsame)] at hagain
    exact hagain
  · refine ⟨.localDev eng (localDevUid table.uid username), rfl, fun request => ⟨u, ?_, ?_, hflag⟩⟩
    · show localDevAuthenticator eng (localDevUid table.uid username) db' = .ok u db'
      rw [← huid]
      have hget := EntityRepo.run_getUser_some db'.valid hu
      obtain ⟨db'', hfound, hstore'⟩ := withUOW_of_flush hrel hget (flush_nil _)
      rw [Database.ext hstore'] at hfound
      exact rethrow_eq_ok.mpr hfound
    · exact (lookup_mem hu).2

/-- Alice's account is seeded, by its uid, on a store where she is no administrator. -/
theorem seedDev_settles_alice : ∃ db' auth,
    seedDev .sqlite { uid := some "alice" } {} "alice" "new" oneRoute = .ok () db' ∧
      db'.store.users = [{ alice with isAdmin := true }] ∧
      seedDev .sqlite { uid := some "alice" } {} "alice" "newer" db' = .ok () db' ∧
      makeAuthenticator .sqlite (LocalDevTable.auth {}) "alice" = .ok auth ∧
      ∀ request, ∃ u, auth.call request db' = .ok u db' ∧ u.uid = some "alice" ∧
        u.isAdmin = true := by
  obtain ⟨db', hcall, hstore, hagain, hserver⟩ := seedDev_settles .sqlite Engine.sqlite_reliable
    { uid := some "alice" } {} "alice" "new" oneRoute (by decide)
  obtain ⟨auth, hmade, hcalls⟩ := hserver (by decide)
  exact ⟨db', auth, hcall, by rw [hstore]; decide, hagain "newer", hmade, hcalls⟩

end RouteRegistry
