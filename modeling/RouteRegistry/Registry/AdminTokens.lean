import RouteRegistry.Registry.Api
import RouteRegistry.Registry.Writes
import RouteRegistry.Relational.Runs

/-!
# Admin tokens

A token is handed out once as `id.secret` and stored as a hash. Over any history of
creations and removals, failed ones included:

- `TokenEntry`, `tokenEntries`: what the calls that went through issued and removed.
- `Live`: a string was issued, and its id has not been removed since.
- `TokensRecorded`: the stored tokens are those of the live strings. `tokens_step` is the
  step, and the run is the history rule.
- `run_authenticateBody`: what the authenticator makes of any string.
-/

namespace RouteRegistry

open Relational UnitOfWork Runs

/-! ## What is assumed -/

/-- A session without changes commits. -/
def Engine.CommitsReads (eng : Engine) : Prop := ∀ db, ∃ db', eng.commit db [] = .ok db'

theorem Engine.Reliable.commitsReads {eng : Engine} (h : eng.Reliable) : eng.CommitsReads :=
  fun db => h db [] db.store rfl

/-- `bcrypt`: of the passwords of at most 72 bytes a hash is matched by its own; longer
ones raise `ValueError`. -/
structure Bcrypt.Lawful (bcrypt : Bcrypt) : Prop where
  short : ∀ p q salt hashed, bcrypt.hashpw q salt = .ok hashed → p.utf8ByteSize ≤ 72 →
    bcrypt.checkpw p hashed = .ok (decide (p = q))
  long : ∀ p q salt hashed, bcrypt.hashpw q salt = .ok hashed → 72 < p.utf8ByteSize →
    ∃ msg, bcrypt.checkpw p hashed = .error ⟨.lib .valueError, msg, none⟩

/-- A token as `uuid4` and `make_token` make it. -/
structure AdminToken.Made (token : AdminToken) : Prop where
  id : '.' ∉ token.id.toList
  value : '.' ∉ token.value.toList
  size : token.value.utf8ByteSize ≤ 72

/-- What the end user is given. -/
def AdminToken.text (token : AdminToken) : String := token.id ++ "." ++ token.value

theorem unpackToken_text {token : AdminToken} (h : token.Made) :
    unpackToken token.text = .ok (token.id, token.value) := by
  unfold unpackToken
  rw [show Text.splitAt '.' token.text = [token.id, token.value] from
    Text.splitAt_join h.id h.value]

theorem eq_of_unpackToken {value id plain : String} (h : unpackToken value = .ok (id, plain)) :
    value = id ++ "." ++ plain := by
  unfold unpackToken at h
  split at h
  · rename_i hsplit
    cases h
    have hjoin := Text.join_of_splitAt hsplit
    rw [show String.singleton '.' = "." by decide] at hjoin
    exact hjoin
  · cases h
  · cases h

/-- A string of another shape raises `ValueError`. -/
theorem unpackToken_error {value : String} {e : Exc} (h : unpackToken value = .error e) :
    e.isInstance (.lib .valueError) = true := by
  unfold unpackToken at h
  split at h <;> cases h <;> rfl

/-! ## The authenticator -/

section Authenticator

variable {eng : Engine} {bcrypt : Bcrypt} {s : Store} {db : Database}

/-- `validate_admin_token`, on a store. -/
def Store.validates (s : Store) (bcrypt : Bcrypt) (value : String) : Except Exc Bool :=
  match unpackToken value with
  | .error e => .error e
  | .ok (id, plain) =>
    match s.tokenOf id with
    | none => .ok false
    | some token => bcrypt.checkpw plain token.value

theorem run_validateAdminToken (hv : s.Valid) (bcrypt : Bcrypt) (value : String) :
    (validateAdminToken bcrypt value).run s = (s.validates bcrypt value, []) := by
  unfold validateAdminToken Store.validates
  cases unpackToken value with
  | error e => rfl
  | ok parts =>
    obtain ⟨id, plain⟩ := parts
    rw [Txn.run_ofExcept_ok_bind]
    show (AdminTokenRepo.get id >>= _).run s = _
    rw [Txn.run_bind_pure (AdminTokenRepo.run_get hv id)]
    cases htoken : s.tokenOf id with
    | none =>
      simp only [htoken]
      rfl
    | some token =>
      simp only [htoken]
      cases bcrypt.checkpw plain token.value <;> rfl

/-- **What the authenticator makes of a string**: it is let through when it is valid, and
is answered 401 when it is not, or raises `ValueError`. -/
theorem run_authenticateBody (bcrypt : Bcrypt) (hv : s.Valid) (xToken : String) :
    (authenticateBody bcrypt xToken).run s =
      match s.validates bcrypt xToken with
      | .ok true => (getAdminToken xToken).run s
      | .ok false => (.error (httpException 401 "Invalid Token"), [])
      | .error e =>
        (.error (if e.isInstance (.lib .valueError) then httpException 401 "Invalid Token"
          else e), []) := by
  have hval := run_validateAdminToken hv bcrypt xToken
  unfold authenticateBody
  cases hres : s.validates bcrypt xToken with
  | error e =>
    rw [hres] at hval
    -- raised inside the `try`, so the clause decides
    refine Txn.run_bind_error ((Txn.run_tryCatch _ _).trans ?_)
    rw [Txn.run_bind_error hval]
    by_cases he : e.isInstance (.lib .valueError) = true
    · simp [he]
    · simp [he]
  | ok valid =>
    rw [hres] at hval
    cases valid with
    | false =>
      -- an `HTTPException` is no `ValueError`
      refine Txn.run_bind_error ((Txn.run_tryCatch _ _).trans ?_)
      rw [Txn.run_bind_pure hval]
      rfl
    | true =>
      refine Txn.run_bind_pure (a := ()) ((Txn.run_tryCatch _ _).trans ?_)
      rw [Txn.run_bind_pure hval]
      rfl

theorem run_getAdminToken (hv : s.Valid) {value id plain : String} {token : AdminToken}
    (hparts : unpackToken value = .ok (id, plain)) (htoken : s.tokenOf id = some token) :
    (getAdminToken value).run s = (.ok token, []) := by
  unfold getAdminToken
  rw [hparts, Txn.run_ofExcept_ok_bind]
  show (AdminTokenRepo.get id >>= _).run s = _
  rw [Txn.run_bind_pure (AdminTokenRepo.run_get hv id), htoken]
  rfl

/-- A session that only reads ends its block normally. -/
theorem withUOW_of_reads {α : Type} {body : Session α} {a : α} (hreads : eng.CommitsReads)
    (hrun : body.run db.store = (.ok a, [])) : withUOW eng body db = .ok a db := by
  obtain ⟨db', hc⟩ := hreads db
  have hs := eng.committed db [] db' hc
  rw [flush_nil] at hs
  obtain rfl : db = db' := Database.ext (Except.ok.inj hs)
  exact Scope.block_committed hrun hc

end Authenticator

/-! ## Creations and removals -/

inductive TokenCall where
  | create (salt : String) (token : AdminToken)
  | remove (value : String)

namespace TokenCall

/-- The database after a call, whether it returned or raised. -/
def after (eng : Engine) (bcrypt : Bcrypt) (db : Database) : TokenCall → Database
  | create salt token => (createAdminToken eng bcrypt salt token).after db
  | remove value => (removeAdminToken eng value).after db

/-- Calls as the steps of a machine. -/
def step (eng : Engine) (bcrypt : Bcrypt) (db : Database) (call : TokenCall) : Option Database :=
  some (call.after eng bcrypt db)

/-- A token to be created is a fresh one. -/
def Made : TokenCall → Prop
  | create _ token => token.Made
  | remove _ => True

end TokenCall

section Calls

variable {eng : Engine} {bcrypt : Bcrypt} {db db' : Database}

theorem createAdminToken_ok {salt text : String} {token : AdminToken}
    (h : createAdminToken eng bcrypt salt token db = .ok text db') :
    text = token.text ∧ ∃ hashed, bcrypt.hashpw token.value salt = .ok hashed ∧
      db'.store = { db.store with
        adminTokens := db.store.adminTokens ++ [{ token with value := hashed }] } := by
  obtain ⟨hcall, rfl⟩ := bind_return_eq_ok.mp h
  obtain ⟨Δ, hrun, hflush⟩ := withUOW_ok (tryCatch_throw_eq_ok.mp hcall)
  refine ⟨rfl, ?_⟩
  unfold createAdminTokenBody at hrun
  cases hhash : bcrypt.hashpw token.value salt with
  | error e =>
    rw [hhash] at hrun
    cases hrun
  | ok hashed =>
    rw [hhash, Txn.run_ofExcept_ok_bind, Txn.run_put] at hrun
    cases hrun
    refine ⟨hashed, rfl, ?_⟩
    rcases hflush with hf | ⟨-, k, _, _, hk, hf, -, -⟩
    · rw [flush_single] at hf
      exact Change.apply_effect hf
    · -- only a unique constraint could have been violated
      have hsafe : (Change.addAdminToken { token with value := hashed }).Safe :=
        Change.safe_of_uniqueOnly trivial
      exact absurd (flush_safe (List.forall_mem_singleton.mpr hsafe) hf) hk

theorem createAdminToken_error {salt : String} {token : AdminToken} {e : Exc}
    (h : createAdminToken eng bcrypt salt token db = .error e db') : db' = db := by
  obtain ⟨e', hblock⟩ := tryCatch_throw_eq_error (bind_return_eq_error h)
  exact withUOW_error hblock

theorem run_removeAdminTokenBody {s : Store} (hv : s.Valid) (value : String) :
    (∃ e, (removeAdminTokenBody value).run s = (.error e, [])) ∨
      ∃ id plain, unpackToken value = .ok (id, plain) ∧
        (removeAdminTokenBody value).run s = (.ok (), [.deleteAdminToken id]) := by
  unfold removeAdminTokenBody AdminTokenRepo.remove
  cases hparts : unpackToken value with
  | error e => exact .inl ⟨e, rfl⟩
  | ok parts =>
    obtain ⟨id, plain⟩ := parts
    have hget := AdminTokenRepo.run_get hv id
    cases htoken : s.tokenOf id with
    | none =>
      rw [htoken] at hget
      exact .inl ⟨_, (Txn.run_bind_pure hget :)⟩
    | some token =>
      rw [htoken] at hget
      obtain ⟨-, rfl⟩ := lookup_mem htoken
      exact .inr ⟨token.id, plain, rfl, (Txn.run_bind_pure hget :)⟩

theorem removeAdminToken_ok {value : String}
    (h : removeAdminToken eng value db = .ok () db') :
    ∃ id plain, unpackToken value = .ok (id, plain) ∧
      db'.store = { db.store with
        adminTokens := discard AdminToken.id id db.store.adminTokens } := by
  have hblock := tryCatch_throw_eq_ok.mp h
  rcases run_removeAdminTokenBody db.valid value with ⟨e, hrun⟩ | ⟨id, plain, hparts, hrun⟩
  · cases (withUOW_raised hrun).symm.trans hblock
  · exact ⟨id, plain, hparts, (withUOW_ok_of_flush hblock hrun rfl).2⟩

theorem removeAdminToken_error {value : String} {e : Exc}
    (h : removeAdminToken eng value db = .error e db') : db' = db := by
  obtain ⟨e', hblock⟩ := tryCatch_throw_eq_error h
  exact withUOW_error hblock

end Calls

/-! ## What is recorded -/

inductive TokenEntry where
  /-- `text` was returned for the token. -/
  | issued (text : String) (token : AdminToken)
  | removed (id : String)

/-- What a call that returns adds to the record. -/
def tokenEntries (eng : Engine) (bcrypt : Bcrypt) (db : Database) : TokenCall → List TokenEntry
  | .create salt token =>
    match createAdminToken eng bcrypt salt token db with
    | .ok text _ => [.issued text token]
    | .error _ _ => []
  | .remove value =>
    match removeAdminToken eng value db, unpackToken value with
    | .ok _ _, .ok (id, _) => [.removed id]
    | _, _ => []

/-- The string was returned for the token, whose id has not been removed since. -/
def Live (log : List TokenEntry) (text : String) (token : AdminToken) : Prop :=
  ∃ before since, log = before ++ .issued text token :: since ∧ .removed token.id ∉ since

theorem live_append_single {log : List TokenEntry} {entry : TokenEntry} {text : String}
    {token : AdminToken} :
    Live (log ++ [entry]) text token ↔
      entry = .issued text token ∨ (Live log text token ∧ entry ≠ .removed token.id) := by
  constructor
  · rintro ⟨before, since, hlog, hsince⟩
    rcases List.eq_nil_or_concat since with rfl | ⟨since', last, rfl⟩
    · exact .inl (by simpa using (List.append_inj' hlog rfl).2)
    · rw [List.concat_eq_append, ← List.cons_append, ← List.append_assoc] at hlog
      obtain ⟨rfl, hlast⟩ := List.append_inj' hlog rfl
      obtain rfl : entry = last := by simpa using hlast
      refine .inr ⟨⟨before, since', rfl, fun h => hsince ?_⟩, fun h => hsince ?_⟩
      · simp [h]
      · simp [h]
  · rintro (rfl | ⟨⟨before, since, rfl, hsince⟩, hne⟩)
    · exact ⟨log, [], rfl, by simp⟩
    · refine ⟨before, since ++ [entry], by simp, ?_⟩
      simp only [List.mem_append, List.mem_singleton, not_or]
      exact ⟨hsince, fun h => hne h.symm⟩

/-- The stored tokens are those of the live strings. -/
structure TokensRecorded (bcrypt : Bcrypt) (log : List TokenEntry) (s : Store) : Prop where
  stored : ∀ row ∈ s.adminTokens, ∃ token salt, Live log token.text token ∧
    bcrypt.hashpw token.value salt = .ok row.value ∧ row = { token with value := row.value }
  live : ∀ text token, Live log text token → text = token.text ∧ token.Made ∧
    ∃ hashed salt, bcrypt.hashpw token.value salt = .ok hashed ∧
      { token with value := hashed } ∈ s.adminTokens

section Step

variable {bcrypt : Bcrypt} {log : List TokenEntry} {s : Store}

/-- A stored hash makes the string live. -/
theorem TokensRecorded.create (h : TokensRecorded bcrypt log s) {token : AdminToken}
    {salt hashed : String} (hmade : token.Made)
    (hhash : bcrypt.hashpw token.value salt = .ok hashed) :
    TokensRecorded bcrypt (log ++ [.issued token.text token])
      { s with adminTokens := s.adminTokens ++ [{ token with value := hashed }] } := by
  refine ⟨fun row hrow => ?_, fun text' token' hlive => ?_⟩
  · rcases List.mem_append.mp hrow with hrow | hrow
    · obtain ⟨token', salt', hlive, hrest⟩ := h.stored row hrow
      exact ⟨token', salt', live_append_single.mpr (.inr ⟨hlive, by simp⟩), hrest⟩
    · rw [List.mem_singleton] at hrow
      subst hrow
      exact ⟨token, salt, live_append_single.mpr (.inl rfl), hhash, rfl⟩
  · rcases live_append_single.mp hlive with hnew | ⟨hold, -⟩
    · cases hnew
      exact ⟨rfl, hmade, hashed, salt, hhash, List.mem_append_right _
        (List.mem_singleton_self _)⟩
    · obtain ⟨htext, hmade', hashed', salt', hhash', hmem⟩ := h.live text' token' hold
      exact ⟨htext, hmade', hashed', salt', hhash', List.mem_append_left _ hmem⟩

/-- A deleted row ends the strings of its id. -/
theorem TokensRecorded.remove (h : TokensRecorded bcrypt log s) (id : String) :
    TokensRecorded bcrypt (log ++ [.removed id])
      { s with adminTokens := discard AdminToken.id id s.adminTokens } := by
  refine ⟨fun row hrow => ?_, fun text' token' hlive => ?_⟩
  · obtain ⟨hrow, hne⟩ := mem_discard.mp hrow
    obtain ⟨token', salt', hlive, hhash, hrow'⟩ := h.stored row hrow
    have hid : token'.id = row.id := by rw [hrow']
    refine ⟨token', salt', live_append_single.mpr (.inr ⟨hlive, ?_⟩), hhash, hrow'⟩
    intro heq
    cases heq
    exact hne hid.symm
  · rcases live_append_single.mp hlive with hnew | ⟨hold, hne⟩
    · cases hnew
    · obtain ⟨htext, hmade', hashed', salt', hhash', hmem⟩ := h.live text' token' hold
      refine ⟨htext, hmade', hashed', salt', hhash', mem_discard.mpr ⟨hmem, ?_⟩⟩
      rintro rfl
      exact hne rfl

/-- **One call** keeps the stored tokens those of the live strings. -/
theorem tokens_step {eng : Engine} {db : Database} {call : TokenCall} (hmade : call.Made)
    (h : TokensRecorded bcrypt log db.store) :
    TokensRecorded bcrypt (log ++ tokenEntries eng bcrypt db call)
      (call.after eng bcrypt db).store := by
  cases call with
  | create salt token =>
    simp only [TokenCall.after, tokenEntries, Service.after]
    cases hcall : createAdminToken eng bcrypt salt token db with
    | error e db' =>
      simp only [List.append_nil]
      rw [createAdminToken_error hcall]
      exact h
    | ok text db' =>
      obtain ⟨rfl, hashed, hhash, hdb⟩ := createAdminToken_ok hcall
      simp only [hdb]
      exact h.create hmade hhash
  | remove value =>
    simp only [TokenCall.after, tokenEntries, Service.after]
    cases hcall : removeAdminToken eng value db with
    | error e db' =>
      simp only [List.append_nil]
      rw [removeAdminToken_error hcall]
      exact h
    | ok u db' =>
      obtain ⟨id, plain, hparts, hdb⟩ := removeAdminToken_ok hcall
      simp only [hparts, hdb]
      exact h.remove id

end Step

/-! ## Runs -/

section Runs

variable {eng : Engine} {bcrypt : Bcrypt} {log : List TokenEntry} {db : Database} {s : String}

/-- A live string is let through, with its token. -/
theorem TokensRecorded.accepts (h : TokensRecorded bcrypt log db.store)
    (hreads : eng.CommitsReads) (hlaw : bcrypt.Lawful) {token : AdminToken}
    (hlive : Live log s token) :
    ∃ row ∈ db.store.adminTokens, adminTokenAuthenticator eng bcrypt s db = .ok row db ∧
      row = { token with value := row.value } := by
  obtain ⟨rfl, hmade, hashed, salt, hhash, hmem⟩ := h.live s token hlive
  have hparts := unpackToken_text hmade
  have htoken : db.store.tokenOf token.id = some { token with value := hashed } :=
    (lookup_eq_some_iff db.valid.tokenKeys).mpr ⟨hmem, rfl⟩
  -- the secret is short enough for `checkpw` to compare it
  have hvalid : db.store.validates bcrypt token.text = .ok true := by
    unfold Store.validates
    simp only [hparts, htoken]
    rw [hlaw.short token.value token.value salt hashed hhash hmade.size]
    simp
  have hrun := run_authenticateBody bcrypt db.valid token.text
  rw [hvalid] at hrun
  exact ⟨_, hmem, withUOW_of_reads hreads (hrun.trans (run_getAdminToken db.valid hparts htoken)),
    rfl⟩

/-- Any other string is answered 401. -/
theorem TokensRecorded.refuses (h : TokensRecorded bcrypt log db.store) (hlaw : bcrypt.Lawful)
    (hdead : ¬ ∃ token, Live log s token) :
    adminTokenAuthenticator eng bcrypt s db = .error (httpException 401 "Invalid Token") db := by
  have hrun := run_authenticateBody bcrypt db.valid s
  refine withUOW_raised (Δ := []) (hrun.trans ?_)
  cases hparts : unpackToken s with
  | error e =>
    simp only [Store.validates, hparts, unpackToken_error hparts, if_true]
  | ok parts =>
    obtain ⟨id, plain⟩ := parts
    cases htoken : db.store.tokenOf id with
    | none => simp only [Store.validates, hparts, htoken]
    | some row =>
      obtain ⟨hrow, hid⟩ := lookup_mem htoken
      obtain ⟨token, salt, hlive, hhash, hrow'⟩ := h.stored row hrow
      -- the stored row was issued; only its own string has both parts right
      have hne : plain ≠ token.value := by
        rintro rfl
        refine hdead ⟨token, ?_⟩
        have hsame : s = token.text := by
          rw [eq_of_unpackToken hparts, ← hid, hrow']
          rfl
        exact hsame ▸ hlive
      by_cases hsize : plain.utf8ByteSize ≤ 72
      · simp [Store.validates, hparts, htoken,
          hlaw.short plain token.value salt row.value hhash hsize, hne]
      · obtain ⟨msg, hcheck⟩ :=
          hlaw.long plain token.value salt row.value hhash (Nat.lt_of_not_le hsize)
        simp [Store.validates, hparts, htoken, hcheck, Exc.isInstance, ExcClass.mro, LibExc.mro]

/-- A role check lets through the required role and `ANY`, of a live string. -/
theorem TokensRecorded.requires (h : TokensRecorded bcrypt log db.store)
    (hreads : eng.CommitsReads) (hlaw : bcrypt.Lawful) (role : AdminRole) :
    requireAdminRole role (adminTokenAuthenticator eng bcrypt s) db = .ok () db ↔
      ∃ token, Live log s token ∧ (token.role = role ∨ token.role = .any) := by
  unfold requireAdminRole
  by_cases hlive : ∃ token, Live log s token
  · obtain ⟨token, hlive⟩ := hlive
    obtain ⟨row, -, hcall, hrow⟩ := h.accepts hreads hlaw hlive
    have hrole : row.role = token.role := by rw [hrow]
    rw [Service.bind_of_ok hcall]
    by_cases hin : row.role ∈ [role, .any]
    · rw [if_neg (not_not.mpr hin)]
      exact iff_of_true rfl ⟨token, hlive, by simpa [hrole] using hin⟩
    · rw [if_pos hin]
      refine iff_of_false (fun h => by cases h) ?_
      rintro ⟨token', hlive', hrole'⟩
      -- the string has one token
      obtain ⟨row', -, hcall', hrow'⟩ := h.accepts hreads hlaw hlive'
      cases hcall.symm.trans hcall'
      have hsame : row.role = token'.role := by rw [hrow']
      rw [← hsame] at hrole'
      exact hin (by simpa using hrole')
  · rw [Service.bind_of_error (h.refuses hlaw hlive)]
    refine iff_of_false (fun h => by cases h) ?_
    rintro ⟨token, hlive', -⟩
    exact hlive ⟨token, hlive'⟩

end Runs

/-- **Issued and not revoked, nothing else.** After any creations and removals of admin
tokens, from a store without any:

- a live string is let through, with the stored token, which has the id, name and role it
  was created with;
- every other string is answered 401;
- a role check lets through exactly the live strings of its role and of `ANY`. -/
theorem adminTokens_live (eng : Engine) (hreads : eng.CommitsReads) (bcrypt : Bcrypt)
    (hlaw : bcrypt.Lawful) (db : Database) (hempty : db.store.adminTokens = [])
    (calls : List TokenCall) (hmade : ∀ call ∈ calls, call.Made) (db' : Database)
    (hrun : run (TokenCall.step eng bcrypt) db calls = some db') (s : String) :
    let log := record (TokenCall.step eng bcrypt) (tokenEntries eng bcrypt) db calls
    (∀ token, Live log s token → ∃ row ∈ db'.store.adminTokens,
      adminTokenAuthenticator eng bcrypt s db' = .ok row db' ∧ row.id = token.id ∧
        row.name = token.name ∧ row.role = token.role) ∧
    ((¬ ∃ token, Live log s token) → adminTokenAuthenticator eng bcrypt s db' =
      .error (httpException 401 "Invalid Token") db') ∧
    (requireAdminDomainRole (adminTokenAuthenticator eng bcrypt s) db' = .ok () db' ↔
      ∃ token, Live log s token ∧ (token.role = .domain ∨ token.role = .any)) ∧
    (requireAdminIdentityRole (adminTokenAuthenticator eng bcrypt s) db' = .ok () db' ↔
      ∃ token, Live log s token ∧ (token.role = .identity ∨ token.role = .any)) ∧
    (requireAdminObserverRole (adminTokenAuthenticator eng bcrypt s) db' = .ok () db' ↔
      ∃ token, Live log s token ∧ (token.role = .observer ∨ token.role = .any)) := by
  intro log
  have hkeep : ∀ (log : List TokenEntry) (db : Database) (call : TokenCall) (db' : Database),
      TokensRecorded bcrypt log db.store → call.Made →
      TokenCall.step eng bcrypt db call = some db' →
      TokensRecorded bcrypt (log ++ tokenEntries eng bcrypt db call) db'.store := by
    intro log db call db' h hmade hstep
    cases hstep
    exact tokens_step hmade h
  have hstart : TokensRecorded bcrypt [] db.store := by
    refine ⟨fun row hrow => ?_, fun text token hlive => ?_⟩
    · rw [hempty] at hrow
      cases hrow
    · obtain ⟨before, since, hlog, -⟩ := hlive
      simp at hlog
  have hrec : TokensRecorded bcrypt log db'.store :=
    run_records (I := fun log db => TokensRecorded bcrypt log db.store) hkeep
      (along_of_forall hmade) hrun hstart
  refine ⟨fun token hlive => ?_, fun hdead => hrec.refuses hlaw hdead,
    hrec.requires hreads hlaw .domain, hrec.requires hreads hlaw .identity,
    hrec.requires hreads hlaw .observer⟩
  obtain ⟨row, hmem, hcall, hrow⟩ := hrec.accepts hreads hlaw hlive
  exact ⟨row, hmem, hcall, by rw [hrow], by rw [hrow], by rw [hrow]⟩

/-- Hashes that show the password, with the length check of `bcrypt`. -/
def openBcrypt : Bcrypt where
  hashpw password _ :=
    if 72 < password.utf8ByteSize then .error ⟨.lib .valueError, "password too long", none⟩
    else .ok ("$2b$12$" ++ password)
  checkpw password hashed :=
    if 72 < password.utf8ByteSize then .error ⟨.lib .valueError, "password too long", none⟩
    else .ok (decide (hashed = "$2b$12$" ++ password))

theorem openBcrypt_lawful : openBcrypt.Lawful where
  short p q salt hashed h hp := by
    simp only [openBcrypt] at h ⊢
    split at h
    · cases h
    · cases h
      rw [if_neg (Nat.not_lt.mpr hp)]
      simp [eq_comm]
  long p q salt hashed h hp := ⟨_, if_pos hp⟩

/-- Two tokens are created, a third one with a taken name is not, and one is removed. -/
def tokenHistory : List TokenCall :=
  [.create "" ⟨"id-1", "ops", "secret", .domain⟩, .create "" ⟨"id-2", "ops", "other", .any⟩,
    .create "" ⟨"id-3", "temp", "x", .any⟩, .remove "id-3.y"]

theorem adminTokens_live_history :
    let db' := (run (TokenCall.step .sqlite openBcrypt) (.load []) tokenHistory).getD (.load [])
    adminTokenAuthenticator .sqlite openBcrypt "id-3.x" db' =
        .error (httpException 401 "Invalid Token") db' ∧
      ∃ row ∈ db'.store.adminTokens,
        adminTokenAuthenticator .sqlite openBcrypt "id-1.secret" db' = .ok row db' ∧
          row.id = "id-1" ∧ row.name = "ops" ∧ row.role = .domain := by
  have hmade : ∀ call ∈ tokenHistory, call.Made := by
    simp only [tokenHistory, List.forall_mem_cons]
    refine ⟨?_, ?_, ?_, trivial, by simp⟩
    all_goals exact ⟨by decide, by decide, by decide⟩
  refine ⟨rfl, (adminTokens_live .sqlite Engine.sqlite_reliable.commitsReads openBcrypt
    openBcrypt_lawful (.load []) (by decide) tokenHistory hmade _ rfl "id-1.secret").1
      ⟨"id-1", "ops", "secret", .domain⟩ ?_⟩
  exact ⟨[], [.issued "id-3.x" ⟨"id-3", "temp", "x", .any⟩, .removed "id-3"], rfl, by simp⟩

end RouteRegistry
