import RouteRegistry.Registry.Mediation

/-!
# Administrators

Users become administrators by seeding only, and admin tokens are made by administrators only.
So all authority over domains, users, groups and tokens comes from those that the registry
starts with.

- `privileges_inherited`: whoever is an administrator was one at the start, and an admin token is
  from the start, or an administrator from the start asked for it.
- `closed_without_admins`: a registry without either stays as it is.
-/

namespace RouteRegistry

open Relational UnitOfWork Calls Runs

/-! ## Administrators -/

/-- All administrators of the second store are in the first, as they are. -/
def Store.NoNewAdmins (s s' : Store) : Prop := ∀ u ∈ s'.users, u.isAdmin = true → u ∈ s.users

/-- A change that makes nobody an administrator. -/
def Change.Modest : Change → Prop
  | .addUser u => u.isAdmin = false
  | .setUserAdmin _ _ => False
  | _ => True

section Admins

variable {s s' : Store} {c : Change} {now : Time}

theorem Change.Modest.effect (hc : c.Modest) (h : s.NoNewAdmins s') :
    s.NoNewAdmins (c.effect s') := by
  cases c with
  | addUser u =>
    intro u' hu' hadmin
    rcases List.mem_append.mp hu' with hu' | hu'
    · exact h u' hu' hadmin
    · rw [List.mem_singleton] at hu'
      subst hu'
      rw [show u'.isAdmin = false from hc] at hadmin
      cases hadmin
  | setUserAdmin id value => exact hc.elim
  | deleteEntity id => exact fun u hu => h u (mem_discard.mp hu).1
  | _ => exact h

/-- Two kinds of blocks write users. -/
theorem Transaction.mayQueue_modest {t : Transaction} (h : t.mayQueue now c) :
    c.Modest ∨ (∃ user, t = .createUser user ∧ c = .addUser user) ∨
      ∃ uid isAdmin, t = .reconcileAdmin uid isAdmin := by
  cases t with
  | createUser user => exact .inr (.inl ⟨user, rfl, h⟩)
  | reconcileAdmin uid isAdmin => exact .inr (.inr ⟨uid, isAdmin, rfl⟩)
  | createGroup | createDomain =>
    obtain rfl := h
    exact .inl trivial
  | removeUser | removeGroup | removeDomain | createCommunity | removeRouteFromCommunity
  | removeUserCommunity | createAdminToken | removeAdminToken =>
    obtain ⟨_, rfl⟩ := h
    exact .inl trivial
  | setDefaultDomain =>
    obtain ⟨_, _, rfl⟩ := h
    exact .inl trivial
  | addRouteToCommunity =>
    rcases h with ⟨_, rfl⟩ | ⟨_, _, rfl⟩ <;> exact .inl trivial
  | registerRoute =>
    rcases h with ⟨_, rfl⟩ | ⟨_, rfl⟩ | ⟨_, _, rfl, -⟩ <;> exact .inl trivial
  | updateRoute | validateRoute =>
    rcases h with ⟨_, rfl⟩ | ⟨_, rfl⟩ | ⟨_, _, rfl, -⟩ <;> exact .inl trivial
  | unverifyRoute =>
    obtain ⟨_, _, rfl, -⟩ := h
    exact .inl trivial
  | _ => exact h.elim

/-- A request makes nobody an administrator: the wire model of a user has no such field. -/
theorem InFlight.Runs.modest {server : Server} {call : InFlight} {t : Transaction}
    (h : call.Runs server now t) (hmay : t.mayQueue now c) : c.Modest := by
  rcases t.mayQueue_modest hmay with hmodest | ⟨user, rfl, rfl⟩ | ⟨uid, isAdmin, rfl⟩
  · exact hmodest
  · cases h with
    | @block since a t hstage hblock =>
      obtain ⟨handler, params, caller⟩ := a
      cases block_cases hblock with
      | createUser pUser hbody => rfl
  · cases h with
    | @block since a t hstage hblock =>
      obtain ⟨handler, params, caller⟩ := a
      cases block_cases hblock

end Admins

section Runs

variable {server : Server} {table : TaskTable} {d d' : Deployment} {es : List Activity}

/-- **One activity** other than seeding makes nobody an administrator. -/
theorem act_noNewAdmins {s : Store} {e : Activity} (hseed : .identities ∉ e.parts)
    (hact : act server table d e = some d') (h : s.NoNewAdmins d.sys.db.store) :
    s.NoNewAdmins d'.sys.db.store := by
  refine act_keeps (I := s.NoNewAdmins) hact (fun t ht c hmay s' hs' => ?_) h
  refine Change.Modest.effect ?_ hs'
  rcases ht with hruns | ⟨id, fetch, rfl⟩ | ⟨id, rfl⟩
  · cases hruns with
    | request hcall hruns => exact hruns.modest hmay
    | task => simpa using (Transaction.mayQueue_modest hmay)
    | seedUser | seedFlag => exact absurd (List.mem_singleton_self _) hseed
  · simpa using (Transaction.mayQueue_modest hmay)
  · simpa using (Transaction.mayQueue_modest hmay)

/-- **A run** without seeding makes nobody an administrator. -/
theorem run_noNewAdmins (hrun : run (act server table) d es = some d')
    (hseed : ∀ e ∈ es, .identities ∉ e.parts) :
    d.sys.db.store.NoNewAdmins d'.sys.db.store := by
  have hkeep : ∀ (d₁ : Deployment) (e : Activity) (d₂ : Deployment),
      d.sys.db.store.NoNewAdmins d₁.sys.db.store → .identities ∉ e.parts →
      act server table d₁ e = some d₂ → d.sys.db.store.NoNewAdmins d₂.sys.db.store :=
    fun d₁ e d₂ h hseed hact => act_noNewAdmins hseed hact h
  exact run_keeps (I := fun d₁ => d.sys.db.store.NoNewAdmins d₁.sys.db.store) hkeep
    (along_of_forall hseed) hrun fun u hu _ => hu

end Runs

/-! ## Admin tokens -/

/-- Who gets past a role check has a stored token. -/
theorem Guard.Checked.adminToken {server : Server} {env : Env} {now : Time} {request : HttpRequest}
    {s : Store} {guard : Guard} {caller : guard.Caller} {role : AdminRole}
    (h : guard.Checked server env now request s caller) (hguard : guard = .adminRole role) :
    ∃ row, row ∈ s.adminTokens := by
  subst hguard
  obtain ⟨xToken, id, plain, row, -, -, hrow, -⟩ := h
  exact ⟨row, (lookup_mem hrow).1⟩

theorem Guard.Checked.administrator {server : Server} {env : Env} {now : Time}
    {request : HttpRequest} {s : Store} {guard : Guard} {caller : guard.Caller}
    (h : guard.Checked server env now request s caller) (hguard : guard = .admin) :
    ∃ user ∈ s.users, user.isAdmin = true := by
  subst hguard
  obtain ⟨hmem, hadmin, -⟩ := h
  exact ⟨caller, hmem, hadmin⟩

/-- The token was asked for by the request, which was let through for an administrator. -/
structure Passage.Issued (p : Passage) (user : User) (row : AdminToken) : Prop where
  handler : ∃ params, p.admitted = ⟨.createToken, params, user⟩
  body : ∃ pToken, p.request.body = some (.adminToken pToken) ∧ row.name = pToken.name ∧
    row.role = pToken.role
  drawn : row.id = p.env.uuid

section Tokens

variable {eng : Engine} {setup : Setup} {now : Time}

/-- The block that creates a token, which it hashes first. -/
theorem createAdminToken_after (eng : Engine) (setup : Setup) (now : Time) (salt : String)
    (token : AdminToken) (db : Database) :
    let after := ((Transaction.createAdminToken salt token).run eng setup now).after db
    after = db ∨ ∃ hashed, after.store.adminTokens =
      db.store.adminTokens ++ [{ token with value := hashed }] := by
  intro after
  rcases Transaction.after_run eng setup now (.createAdminToken salt token) db with
    hsame | ⟨u, Δ, hrun, hf, -⟩
  · exact .inl hsame
  · change (createAdminTokenBody setup.bcrypt salt token).run db.store = _ at hrun
    unfold createAdminTokenBody at hrun
    cases hhash : setup.bcrypt.hashpw token.value salt with
    | error e =>
      rw [hhash] at hrun
      cases hrun
    | ok hashed =>
      rw [hhash, Txn.run_ofExcept_ok_bind, Txn.run_put] at hrun
      cases hrun
      rw [flush_single] at hf
      exact .inr ⟨hashed, by rw [Change.apply_effect hf]; rfl⟩

/-- No other block adds tokens. -/
theorem Transaction.mayQueue_adminToken {t : Transaction} {row : AdminToken}
    (h : t.mayQueue now (.addAdminToken row)) : ∃ salt token, t = .createAdminToken salt token := by
  cases t with
  | createAdminToken salt token => exact ⟨salt, token, rfl⟩
  | _ => simp [Transaction.mayQueue] at h

theorem Change.effect_adminTokens {s : Store} {c : Change} {row : AdminToken}
    (h : row ∈ (c.effect s).adminTokens) : row ∈ s.adminTokens ∨ c = .addAdminToken row := by
  cases c with
  | addAdminToken token =>
    rcases List.mem_append.mp h with h | h
    · exact .inl h
    · exact .inr (by rw [List.mem_singleton.mp h])
  | deleteAdminToken id => exact .inl (mem_discard.mp h).1
  | _ => exact .inl h

/-- What a block adds to the tokens is the token it was given, hashed. -/
theorem Transaction.after_adminTokens {t : Transaction} {db : Database} {row : AdminToken}
    (h : row ∈ ((t.run eng setup now).after db).store.adminTokens) :
    row ∈ db.store.adminTokens ∨ ∃ salt token hashed, t = .createAdminToken salt token ∧
      row = { token with value := hashed } := by
  by_cases hcreates : ∃ salt token, t = .createAdminToken salt token
  · obtain ⟨salt, token, rfl⟩ := hcreates
    rcases createAdminToken_after eng setup now salt token db with hsame | ⟨hashed, hafter⟩
    · rw [hsame] at h
      exact .inl h
    · rw [hafter] at h
      rcases List.mem_append.mp h with h | h
      · exact .inl h
      · exact .inr ⟨salt, token, hashed, rfl, List.mem_singleton.mp h⟩
  · refine .inl ?_
    rcases t.after_cases eng setup now db with hsame | ⟨Δ, hf, hmay⟩
    · rw [hsame] at h
      exact h
    · refine flush_keeps (I := fun s => row ∈ s.adminTokens → row ∈ db.store.adminTokens)
        (fun s hs c hc hrow => ?_) hf id h
      rcases Change.effect_adminTokens hrow with hrow | rfl
      · exact hs hrow
      · exact absurd (mayQueue_adminToken (hmay _ hc)) hcreates

end Tokens

section TokenRuns

variable {server : Server} {table : TaskTable} {d d' : Deployment}

/-- **One activity** stores a token only for a request that has passed as an administrator's. -/
theorem act_adminTokens {e : Activity} (hact : act server table d e = some d') {row : AdminToken}
    (hrow : row ∈ d'.sys.db.store.adminTokens) :
    row ∈ d.sys.db.store.adminTokens ∨ ∃ call ∈ d.calls, ∃ since params user pToken,
      call.stage = .admitted since ⟨.createToken, params, user⟩ ∧
        call.request.body = some (.adminToken pToken) ∧ row.name = pToken.name ∧
        row.role = pToken.role ∧ row.id = call.env.uuid := by
  rcases act_simulates hact with hsame | ⟨ev, hdoes, hstep⟩
  · rw [hsame] at hrow
    exact .inl hrow
  cases hdoes with
  | background hnot =>
    rcases step_db hstep with hsame | ⟨t, hdb, rfl | ⟨id, fetch, rfl⟩ | ⟨id, rfl⟩⟩
    · rw [hsame] at hrow
      exact .inl hrow
    · exact absurd rfl (hnot t)
    · rw [hdb] at hrow
      exact .inl ((Transaction.after_adminTokens hrow).resolve_right (by simp))
    · rw [hdb] at hrow
      exact .inl ((Transaction.after_adminTokens hrow).resolve_right (by simp))
  | block hruns =>
    rw [← Option.some.inj hstep] at hrow
    refine (Transaction.after_adminTokens hrow).imp_right ?_
    rintro ⟨salt, token, hashed, rfl, rfl⟩
    cases hruns with
    | @request i call _ hcall hruns =>
      cases hruns with
      | @block since a t hstage hblock =>
        obtain ⟨handler, params, caller⟩ := a
        cases block_cases hblock with
        | createToken user pToken hbody =>
          exact ⟨call, List.mem_of_getElem? hcall, since, params, caller, pToken, hstage, hbody,
            rfl, rfl, rfl⟩

/-- The tokens of a run, next to the record of who was let in. -/
structure Deployment.Recorded (s : Store) (log : List Passage) (d : Deployment) : Prop where
  vouched : d.Vouched log
  tokens : ∀ row ∈ d.sys.db.store.adminTokens,
    row ∈ s.adminTokens ∨ ∃ p ∈ log, ∃ user, p.Issued user row

theorem act_recorded {s : Store} {log : List Passage} {e : Activity}
    (h : d.Recorded s log) (hact : act server table d e = some d') :
    d'.Recorded s (log ++ passages server d e) := by
  refine ⟨act_vouched hact h.vouched, fun row hrow => ?_⟩
  rcases act_adminTokens hact hrow with hrow | ⟨call, hcall, since, params, user, pToken, hstage,
    hbody, hname, hrole, hid⟩
  · rcases h.tokens row hrow with hrow | ⟨p, hp, user, hissued⟩
    · exact .inl hrow
    · exact .inr ⟨p, List.mem_append_left _ hp, user, hissued⟩
  · obtain ⟨store, hlog⟩ := h.vouched call hcall since _ (by rw [hstage]; rfl)
    exact .inr ⟨_, List.mem_append_left _ hlog, user, ⟨params, rfl⟩, ⟨pToken, hbody, hname, hrole⟩,
      hid⟩

/-- **A run** of a deployment that starts without requests in flight. -/
theorem run_recorded {es : List Activity} (hcalls : d.calls = [])
    (hrun : run (act server table) d es = some d') :
    d'.Recorded d.sys.db.store (record (act server table) (passages server) d es) := by
  have hstart : d.Recorded d.sys.db.store [] := by
    refine ⟨fun call hcall => ?_, fun row hrow => .inl hrow⟩
    rw [hcalls] at hcall
    cases hcall
  have hkeep : ∀ (log : List Passage) (d₁ : Deployment) (e : Activity) (d₂ : Deployment),
      d₁.Recorded d.sys.db.store log → True → act server table d₁ e = some d₂ →
      d₂.Recorded d.sys.db.store (log ++ passages server d₁ e) :=
    fun log d₁ e d₂ h _ hact => act_recorded h hact
  exact run_records (I := fun log d₁ => d₁.Recorded d.sys.db.store log) hkeep
    (along_of_forall fun _ _ => trivial) hrun hstart

/-- Who asked for a token was an administrator at the start. -/
theorem issued_by_admin {es : List Activity} (hseed : ∀ e ∈ es, .identities ∉ e.parts)
    {p : Passage} (hp : p ∈ record (act server table) (passages server) d es) {user : User}
    {row : AdminToken} (hissued : p.Issued user row) :
    user ∈ d.sys.db.store.users ∧ user.isAdmin = true := by
  obtain ⟨hchecked, es₁, es₂, d₁, rfl, hrun₁, hstore⟩ := passage_store hp
  obtain ⟨params, hadmitted⟩ := hissued.handler
  unfold Passage.Checked at hchecked
  rw [hadmitted] at hchecked
  obtain ⟨hmem, hadmin, -⟩ := hchecked
  rw [hstore] at hmem
  exact ⟨run_noNewAdmins hrun₁ (fun e he => hseed e (List.mem_append_left _ he)) user hmem hadmin,
    hadmin⟩

/-- **All authority is inherited.** In any run of a deployment that starts without requests in
flight and in which no user is seeded, whatever requests there are:

- whoever is an administrator was one at the start;
- an admin token has been there from the start, or a request for it, with its name and its role,
  was let through for a user who was an administrator at the start. -/
theorem privileges_inherited (server : Server) (table : TaskTable) (d d' : Deployment)
    (es : List Activity) (hcalls : d.calls = [])
    (hrun : run (act server table) d es = some d') (hseed : ∀ e ∈ es, .identities ∉ e.parts) :
    (∀ u ∈ d'.sys.db.store.users, u.isAdmin = true → u ∈ d.sys.db.store.users) ∧
    ∀ row ∈ d'.sys.db.store.adminTokens, row ∈ d.sys.db.store.adminTokens ∨
      ∃ p ∈ record (act server table) (passages server) d es, ∃ user, p.Issued user row ∧
        user ∈ d.sys.db.store.users ∧ user.isAdmin = true := by
  refine ⟨run_noNewAdmins hrun hseed, fun row hrow => ?_⟩
  refine ((run_recorded hcalls hrun).tokens row hrow).imp_right ?_
  rintro ⟨p, hp, user, hissued⟩
  exact ⟨p, hp, user, hissued, issued_by_admin hseed hp hissued⟩

/-- Alice is an administrator and has a token made. -/
def adminAlice : Deployment where
  sys := ⟨.load [.addUser { alice with isAdmin := true }], 0, []⟩

def opsRequest : HttpRequest where
  method := .post
  path := "/api/v1/admin/token".toList
  body := some (.adminToken { name := "ops", role := .domain })

def opsToken : List Activity := [.arrive calmEnv opsRequest, .advance 0, .advance 0]

theorem privileges_inherited_ops : ∃ d',
    run (act (smallServer []) {}) adminAlice opsToken = some d' ∧
    ∃ row ∈ d'.sys.db.store.adminTokens, row.id = "new" ∧ row.role = .domain ∧
      (row ∈ adminAlice.sys.db.store.adminTokens ∨
        ∃ p ∈ record (act (smallServer []) {}) (passages (smallServer [])) adminAlice opsToken,
          ∃ user, p.Issued user row ∧ user ∈ adminAlice.sys.db.store.users ∧
            user.isAdmin = true) := by
  have hends : (match run (act (smallServer []) {}) adminAlice opsToken with
      | some d => d.sys.db.store.adminTokens.any fun row =>
          decide (row.id = "new" ∧ row.role = .domain)
      | none => false) = true := by
    decide +kernel
  cases hrun : run (act (smallServer []) {}) adminAlice opsToken with
  | none =>
    rw [hrun] at hends
    cases hends
  | some d' =>
    rw [hrun] at hends
    obtain ⟨row, hrow, hnew⟩ := List.any_eq_true.mp hends
    obtain ⟨hid, hrole⟩ := of_decide_eq_true hnew
    exact ⟨d', rfl, row, hrow, hid, hrole, (privileges_inherited (smallServer []) {} adminAlice d'
      opsToken rfl hrun (by simp [opsToken, Activity.parts])).2 row hrow⟩

/-- **Without an administrator, the registry is closed.** In any run of a deployment that starts
without requests in flight, without an administrator and without an admin token, and in which no
user is seeded, whatever requests there are: its domains, its users and groups and its admin
tokens stay what they were. -/
theorem closed_without_admins (server : Server) (table : TaskTable) (d d' : Deployment)
    (es : List Activity) (hcalls : d.calls = [])
    (hrun : run (act server table) d es = some d') (hseed : ∀ e ∈ es, .identities ∉ e.parts)
    (hadmins : ∀ u ∈ d.sys.db.store.users, u.isAdmin = false)
    (htokens : d.sys.db.store.adminTokens = []) :
    ∀ part ∈ [Part.domains, .identities, .adminTokens],
      part.Same d.sys.db.store d'.sys.db.store := by
  -- nobody can have a token made
  have hnone : ∀ es₁ d₁, (∀ e ∈ es₁, e ∈ es) → run (act server table) d es₁ = some d₁ →
      d₁.sys.db.store.adminTokens = [] := by
    intro es₁ d₁ hsub hrun₁
    refine List.eq_nil_iff_forall_not_mem.mpr fun row hrow => ?_
    rcases (run_recorded hcalls hrun₁).tokens row hrow with hrow | ⟨p, hp, user, hissued⟩
    · rw [htokens] at hrow
      cases hrow
    · obtain ⟨hmem, hadmin⟩ := issued_by_admin (fun e he => hseed e (hsub e he)) hp hissued
      rw [hadmins user hmem] at hadmin
      cases hadmin
  -- so nobody gets past the guards of these parts
  have hshut : ∀ p ∈ record (act server table) (passages server) d es,
      (∀ role, p.admitted.handler.guard ≠ .adminRole role) ∧
        p.admitted.handler.guard ≠ .admin := by
    intro p hp
    obtain ⟨hchecked, es₁, es₂, d₁, hsplit, hrun₁, hstore⟩ := passage_store hp
    have hsub : ∀ e ∈ es₁, e ∈ es := fun e he => hsplit ▸ List.mem_append_left _ he
    refine ⟨fun role hguard => ?_, fun hguard => ?_⟩
    · obtain ⟨row, hrow⟩ := hchecked.adminToken hguard
      rw [hstore, hnone es₁ d₁ hsub hrun₁] at hrow
      cases hrow
    · obtain ⟨user, hmem, hadmin⟩ := hchecked.administrator hguard
      rw [hstore] at hmem
      have hold := run_noNewAdmins hrun₁ (fun e he => hseed e (hsub e he)) user hmem hadmin
      rw [hadmins user hold] at hadmin
      cases hadmin
  intro part hpart
  have hcases : part = .domains ∨ part = .identities ∨ part = .adminTokens := by simpa using hpart
  have hquiet : ∀ e ∈ es, part ∉ e.parts := by
    intro e he hmem
    have hseeds := hseed e he
    rcases hcases with rfl | rfl | rfl
    · cases e <;> simp [Activity.parts] at hmem
    · exact hseeds hmem
    · cases e <;> simp [Activity.parts] at hmem
  refine (run_mediated hcalls hrun hquiet).guarded.resolve_right ?_
  rintro ⟨p, hp, hguard⟩
  obtain ⟨hrole, hadmin⟩ := hshut p hp
  rcases hcases with rfl | rfl | rfl
  · exact hrole _ (List.mem_singleton.mp hguard)
  · exact hrole _ (List.mem_singleton.mp hguard)
  · exact hadmin (List.mem_singleton.mp hguard)

/-- A made-up token gets nobody anywhere. -/
theorem closed_without_admins_lab : ∃ d', run (act (smallServer []) {}) launched
      [.arrive calmEnv labDomain, .advance 0] = some d' ∧
    d'.sys.db.store.domains = oneRoute.store.domains := by
  have hends : (run (act (smallServer []) {}) launched
      [.arrive calmEnv labDomain, .advance 0]).isSome := by decide +kernel
  obtain ⟨d', hrun⟩ := Option.isSome_iff_exists.mp hends
  have hadmins : ∀ u ∈ oneRoute.store.users, u.isAdmin = false := by decide
  exact ⟨d', hrun, closed_without_admins (smallServer []) {} _ d' _ rfl hrun
    (by simp [Activity.parts]) hadmins (by decide) .domains (by simp)⟩

end TokenRuns

end RouteRegistry
