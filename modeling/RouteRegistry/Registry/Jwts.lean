import RouteRegistry.Registry.Rotation
import RouteRegistry.Relational.Calls

/-!
# The JWTs of routes (`models.py`, `services.py`)

- `Joserfc`: the library that imports keys, signs and verifies. What it documents is
  `Joserfc.Documented`, for a configuration that `JWTConfig.ofConfig` accepts.
  `JWTConfig.ofConfig_ok`: such a configuration signs with the active key and serves public ones.
- `createPikoJwt`: the JWT of a route.
- `rotation_window`: when such a JWT is let through, and for which route.
-/

namespace RouteRegistry

open Relational UnitOfWork

/-! ## Keys and configuration -/

/-- `joserfc`. An instant counts in whole seconds, and so does a leeway. -/
structure Joserfc where
  Key : Type
  /-- `jwk.import_key`, with the `kid` as a parameter. -/
  importKey : (pem keyType : String) → (kid : Option String) → Except Exc Key
  asDict : Key → Json
  /-- `jwt.encode` under a header. -/
  encode : (alg kid : String) → Claims → Option Key → Except Exc String
  /-- `jwt.decode` under `KeySet.import_key_set`. -/
  decode : String → (keys : List Json) → Except Exc Claims
  /-- `JWTClaimsRegistry(sub={"essential": True}, leeway=…).validate`, which reads the clock. -/
  validate : (now leeway : Int) → Claims → Except Exc Unit

/-- A table of `auth.jwt.keys`. -/
structure KeyTable where
  keyType : String
  publicPem : Option String := none
  privatePem : Option String := none

/-- The table `auth.jwt`. -/
structure JwtTable where
  keys : List (String × KeyTable) := []
  alg : String
  activeKid : String
  /-- In seconds. -/
  lifespan : Int
  leeway : Int := 43200

/-- `JWK`: a key pair, of which each half may be missing. -/
structure JWK (rfc : Joserfc) where
  kid : String
  keyType : String
  publicKey : Option rfc.Key
  privateKey : Option rfc.Key

/-- `JWKS`, with the public keys as they are served. -/
structure JWKS (rfc : Joserfc) where
  keyMap : List (String × JWK rfc)
  keys : List Json

/-- `JWTConfig`. -/
structure JWTConfig (rfc : Joserfc) where
  jwks : JWKS rfc
  alg : String
  activeKid : String
  lifespan : Int
  signingSecret : Option rfc.Key
  /-- `JWTAuthenticator.leeway`, of the same table. -/
  leeway : Int

variable {rfc : Joserfc}

/-- The key of a PEM text, if there is one. -/
def importPem (rfc : Joserfc) (pem : Option String) (keyType : String) (kid : Option String) :
    Except Exc (Option rfc.Key) := do
  if Text.truthy pem then return some (← rfc.importKey (Text.fieldText pem) keyType kid)
  else return none

/-- The defaults of the attributes of `JWK`. -/
def JWK.ofConfig (rfc : Joserfc) (kid : String) (config : KeyTable) : Except Exc (JWK rfc) := do
  let publicKey ← importPem rfc config.publicPem config.keyType (some kid)
  -- the private key is not told its `kid`; the header of a JWT is
  let privateKey ← importPem rfc config.privatePem config.keyType none
  return ⟨kid, config.keyType, publicKey, privateKey⟩

/-- The defaults of the attributes of `JWKS`. -/
def JWKS.ofConfig (rfc : Joserfc) (config : JwtTable) : Except Exc (JWKS rfc) := do
  let keyMap ← config.keys.mapM fun (kid, table) => do return (kid, ← JWK.ofConfig rfc kid table)
  return ⟨keyMap, keyMap.filterMap fun (_, key) => key.publicKey.map rfc.asDict⟩

/-- The defaults of the attributes of `JWTConfig`; the active key has to be in the table. -/
def JWTConfig.ofConfig (rfc : Joserfc) (config : JwtTable) : Except Exc (JWTConfig rfc) := do
  let jwks ← JWKS.ofConfig rfc config
  match jwks.keyMap.find? fun entry => decide (entry.1 = config.activeKid) with
  | none => .error ⟨.lib .keyError, s!"'{config.activeKid}'", none⟩
  | some entry =>
    return ⟨jwks, config.alg, config.activeKid, config.lifespan, entry.2.privateKey, config.leeway⟩

section Configured

variable {table : JwtTable} {config : JWTConfig rfc}

theorem JWK.ofConfig_ok {kid : String} {keys : KeyTable} {key : JWK rfc}
    (h : JWK.ofConfig rfc kid keys = .ok key) :
    importPem rfc keys.publicPem keys.keyType (some kid) = .ok key.publicKey ∧
      importPem rfc keys.privatePem keys.keyType none = .ok key.privateKey := by
  unfold JWK.ofConfig at h
  cases hpublic : importPem rfc keys.publicPem keys.keyType (some kid) with
  | error e =>
    rw [hpublic] at h
    cases h
  | ok publicKey =>
    cases hprivate : importPem rfc keys.privatePem keys.keyType none with
    | error e =>
      rw [hpublic, hprivate] at h
      cases h
    | ok privateKey =>
      rw [hpublic, hprivate] at h
      cases h
      exact ⟨rfl, rfl⟩

/-- Each key is imported from the table under its `kid`, and the public ones are served. -/
theorem JWKS.ofConfig_ok {jwks : JWKS rfc} (h : JWKS.ofConfig rfc table = .ok jwks) :
    (∀ entry ∈ jwks.keyMap, ∃ keys, (entry.1, keys) ∈ table.keys ∧
      JWK.ofConfig rfc entry.1 keys = .ok entry.2) ∧
    jwks.keys = jwks.keyMap.filterMap fun (_, key) => key.publicKey.map rfc.asDict := by
  unfold JWKS.ofConfig at h
  cases hmap : table.keys.mapM (fun (entry : String × KeyTable) =>
      (do return (entry.1, ← JWK.ofConfig rfc entry.1 entry.2) : Except Exc _)) with
  | error e =>
    rw [hmap] at h
    cases h
  | ok keyMap =>
    rw [hmap] at h
    cases h
    refine ⟨fun entry hentry => ?_, rfl⟩
    obtain ⟨⟨kid, keys⟩, hkeys, hof⟩ := Calls.mem_of_mapM_eq_ok hmap hentry
    dsimp only at hof
    cases hjwk : JWK.ofConfig rfc kid keys with
    | error e =>
      rw [hjwk] at hof
      cases hof
    | ok key =>
      rw [hjwk] at hof
      cases hof
      exact ⟨keys, hkeys, hjwk⟩

/-- What is served is public. -/
theorem JWKS.mem_keys {jwks : JWKS rfc} (h : JWKS.ofConfig rfc table = .ok jwks) {served : Json}
    (hserved : served ∈ jwks.keys) :
    ∃ kid keys key, (kid, keys) ∈ table.keys ∧
      importPem rfc keys.publicPem keys.keyType (some kid) = .ok (some key) ∧
      served = rfc.asDict key := by
  obtain ⟨hmap, hkeys⟩ := JWKS.ofConfig_ok h
  rw [hkeys] at hserved
  obtain ⟨⟨kid, key⟩, hkey, hdict⟩ := List.mem_filterMap.mp hserved
  obtain ⟨publicKey, hpublic, rfl⟩ := Option.map_eq_some_iff.mp hdict
  obtain ⟨keys, hmem, hof⟩ := hmap _ hkey
  exact ⟨kid, keys, publicKey, hmem, hpublic ▸ (JWK.ofConfig_ok hof).1, rfl⟩

/-- **A configuration that is accepted** signs with the private key of the active table, and serves
keys of public texts only. -/
theorem JWTConfig.ofConfig_ok (h : JWTConfig.ofConfig rfc table = .ok config) :
    (∃ keys, (config.activeKid, keys) ∈ table.keys ∧
      importPem rfc keys.privatePem keys.keyType none = .ok config.signingSecret) ∧
    ∀ served ∈ config.jwks.keys, ∃ kid keys key, (kid, keys) ∈ table.keys ∧
      importPem rfc keys.publicPem keys.keyType (some kid) = .ok (some key) ∧
      served = rfc.asDict key := by
  unfold JWTConfig.ofConfig at h
  cases hjwks : JWKS.ofConfig rfc table with
  | error e =>
    rw [hjwks] at h
    cases h
  | ok jwks =>
    rw [hjwks] at h
    cases hactive : jwks.keyMap.find? fun entry => decide (entry.1 = table.activeKid) with
    | none =>
      simp only [bind, Except.bind, hactive] at h
      cases h
    | some entry =>
      simp only [bind, Except.bind, hactive] at h
      cases h
      obtain ⟨keys, hkeys, hof⟩ :=
        (JWKS.ofConfig_ok hjwks).1 entry (List.mem_of_find?_eq_some hactive)
      have hkid : entry.1 = table.activeKid := by simpa using List.find?_some hactive
      exact ⟨⟨keys, hkid ▸ hkeys, (JWK.ofConfig_ok hof).2⟩, fun _ => JWKS.mem_keys hjwks⟩

end Configured

/-! ## Issuing and checking -/

/-- `now.timestamp()`. -/
def Time.timestamp (t : Time) : Json := .num t (-6)

/-- `now.add(seconds=…)`. -/
def Time.addSeconds (t : Time) (seconds : Int) : Time := t + seconds * 1000000

/-- The seconds of a clock that shows whole ones. -/
def Time.seconds (t : Time) : Int := t / 1000000

/-- The payload of a JWT. -/
def pikoClaims (routeId : String) (issued expires : Time) : Claims where
  sub := some (.text routeId)
  others := [("piko", .obj [("endpoints", .arr [.str routeId])]), ("iat", issued.timestamp),
    ("exp", expires.timestamp), ("nbf", issued.timestamp)]

/-- `lifespan or jwt_config.lifespan`. -/
def JWTConfig.lifespanOr (config : JWTConfig rfc) (lifespan : Option Int) : Int :=
  match lifespan with
  | some seconds => if seconds = 0 then config.lifespan else seconds
  | none => config.lifespan

/-- `create_piko_jwt`. -/
def createPikoJwt (route : Route) (config : JWTConfig rfc) (lifespan : Option Int) (now : Time) :
    Except Exc String :=
  rfc.encode config.alg config.activeKid
    (pikoClaims route.id now (now.addSeconds (config.lifespanOr lifespan))) config.signingSecret

/-- What the authenticator of routes uses of the configuration, at a time. -/
def JWTConfig.jose (config : JWTConfig rfc) (now : Time) : Jose where
  decode xJwt := rfc.decode xJwt config.jwks.keys
  validate claims := rfc.validate now.seconds config.leeway claims

/-- What is documented: what is signed verifies, and the claims registry compares the three
times of a JWT with the clock, give or take the leeway. -/
structure Joserfc.Documented (rfc : Joserfc) (config : JWTConfig rfc) : Prop where
  verifies : ∀ routeId issued expires xJwt,
    rfc.encode config.alg config.activeKid (pikoClaims routeId issued expires)
        config.signingSecret = .ok xJwt →
      rfc.decode xJwt config.jwks.keys = .ok (pikoClaims routeId issued expires)
  timely : ∀ now routeId issued expires,
    rfc.validate now config.leeway (pikoClaims routeId issued expires) = .ok () →
      (now - config.leeway) * 1000000 ≤ expires ∧ issued ≤ (now + config.leeway) * 1000000
  validates : ∀ now routeId issued expires, routeId ≠ "" →
    (now - config.leeway) * 1000000 ≤ expires ∧ issued ≤ (now + config.leeway) * 1000000 →
      rfc.validate now config.leeway (pikoClaims routeId issued expires) = .ok ()

/-- The clock is in the window of a JWT. -/
def JWTConfig.Accepts (config : JWTConfig rfc) (issued : Time) (lifespan : Option Int)
    (now : Time) : Prop :=
  (now.seconds - config.leeway) * 1000000 ≤ issued.addSeconds (config.lifespanOr lifespan) ∧
    issued ≤ (now.seconds + config.leeway) * 1000000

section Window

variable {config : JWTConfig rfc} {eng : Engine} {db db' : Database} {r : Route}

/-- Of claims that decode, those that pass are handed on. -/
theorem decodeJwt_eq_ok {jose : Jose} {xJwt : String} {claims : Claims} :
    decodeJwt jose xJwt = .ok claims ↔
      jose.decode xJwt = .ok claims ∧ jose.validate claims = .ok () := by
  unfold decodeJwt
  cases hdec : jose.decode xJwt with
  | error e =>
    simp only [bind, Except.bind]
    split <;> simp
  | ok claims' =>
    cases hval : jose.validate claims' with
    | error e =>
      simp only [hval, bind, Except.bind]
      split
      · simp only [reduceCtorEq, false_iff]
        rintro ⟨heq, hv⟩
        cases heq
        cases hval.symm.trans hv
      · simp only [reduceCtorEq, false_iff]
        rintro ⟨heq, hv⟩
        cases heq
        cases hval.symm.trans hv
    | ok _ =>
      simp only [hval, bind, Except.bind]
      constructor
      · intro h
        cases h
        exact ⟨rfl, hval⟩
      · rintro ⟨heq, -⟩
        cases heq
        rfl

/-- A JWT that was issued passes in its window only. -/
theorem decodeJwt_issued (hdoc : rfc.Documented config) {route : Route} (hid : route.id ≠ "")
    {issued now : Time} {lifespan : Option Int} {xJwt : String}
    (hjwt : createPikoJwt route config lifespan issued = .ok xJwt) {claims : Claims} :
    decodeJwt (config.jose now) xJwt = .ok claims ↔
      claims = pikoClaims route.id issued (issued.addSeconds (config.lifespanOr lifespan)) ∧
        config.Accepts issued lifespan now := by
  rw [decodeJwt_eq_ok]
  show rfc.decode xJwt config.jwks.keys = .ok claims ∧ _ ↔ _
  rw [hdoc.verifies _ _ _ _ hjwt, Except.ok.injEq]
  constructor
  · rintro ⟨rfl, hval⟩
    exact ⟨rfl, hdoc.timely _ _ _ _ hval⟩
  · rintro ⟨rfl, hwindow⟩
    exact ⟨rfl, hdoc.validates _ _ _ _ hid hwindow⟩

/-- **The window of a JWT.** The JWT of a route is let through exactly while the clock is not
past its end by more than the leeway, nor before its issue by more, and the route is still
stored and verified; and it is let through as that route. -/
theorem rotation_window (eng : Engine) (hreads : eng.CommitsReads) (config : JWTConfig rfc)
    (hdoc : rfc.Documented config) (route : Route) (hid : route.id ≠ "") (issued : Time)
    (lifespan : Option Int) (xJwt : String)
    (hjwt : createPikoJwt route config lifespan issued = .ok xJwt) (now : Time) (db : Database)
    (r : Route) (db' : Database) :
    jwtAuthenticator eng (config.jose now) xJwt db = .ok r db' ↔
      config.Accepts issued lifespan now ∧ db.store.routeOf route.id = some r ∧
        r.verificationStatus = .verified ∧ db' = db := by
  by_cases hwindow : config.Accepts issued lifespan now
  · have hdec := (decodeJwt_issued hdoc hid hjwt).mpr ⟨rfl, hwindow⟩
    have hcall := jwtAuthenticator_of_passed db hreads hdec
    have hsub : (pikoClaims route.id issued
        (issued.addSeconds (config.lifespanOr lifespan))).subject = .ok route.id := rfl
    rw [hcall]
    unfold Store.verifiedRoute
    rw [hsub]
    dsimp only
    cases hr : db.store.routeOf route.id with
    | none =>
      exact iff_of_false (fun h => by cases h) fun ⟨_, h, _, _⟩ => by cases h
    | some r' =>
      by_cases hv : r'.verificationStatus = .verified
      · simp only [if_pos hv, EStateM.Result.ok.injEq, Option.some.injEq]
        constructor
        · rintro ⟨rfl, rfl⟩
          exact ⟨hwindow, rfl, hv, rfl⟩
        · rintro ⟨-, rfl, -, rfl⟩
          exact ⟨rfl, rfl⟩
      · simp only [if_neg hv]
        refine iff_of_false (fun h => by cases h) ?_
        rintro ⟨-, heq, hv', -⟩
        cases heq
        exact hv hv'
  · cases hdec : decodeJwt (config.jose now) xJwt with
    | ok claims => exact absurd ((decodeJwt_issued hdoc hid hjwt).mp hdec).2 hwindow
    | error e =>
      rw [jwtAuthenticator_of_error eng db hdec]
      exact iff_of_false (fun h => by cases h) fun h => hwindow h.1

end Window

/-! ## JWTs that are known -/

/-- A text that is the JWT of a route from one time to another. -/
structure KnownJwt where
  text : String
  routeId : String
  issued : Time
  expires : Time

/-- Whether the claims are those of the JWT. -/
def KnownJwt.covers (known : KnownJwt) (claims : Claims) : Bool :=
  match claims.sub, claims.others with
  | some (.text sub), [_, (_, .num issued (-6)), (_, .num expires (-6)), _] =>
    decide (sub = known.routeId ∧ issued = known.issued ∧ expires = known.expires)
  | _, _ => false

/-- The library on JWTs that are known beforehand: to sign claims, or to verify a text, is to
look it up. -/
def Joserfc.ofTable (table : List KnownJwt) : Joserfc where
  Key := Unit
  importKey _ _ _ := .ok ()
  asDict _ := .null
  encode _ _ claims _ :=
    match table.find? fun known => known.covers claims with
    | some known => .ok known.text
    | none => .error ⟨.lib .valueError, "", none⟩
  decode xJwt _ :=
    match table.find? fun known => decide (known.text = xJwt) with
    | some known => .ok (pikoClaims known.routeId known.issued known.expires)
    | none => .error ⟨.lib (.other "BadSignatureError"), "", none⟩
  validate now leeway claims :=
    match claims.others with
    | [_, (_, .num issued (-6)), (_, .num expires (-6)), _] =>
      if expires < (now - leeway) * 1000000 then .error ⟨.lib .expiredTokenError, "", none⟩
      else if (now + leeway) * 1000000 < issued then .error ⟨.lib .invalidClaimError, "", none⟩
      else .ok ()
    | _ => .error ⟨.lib .missingClaimError, "", none⟩

theorem Joserfc.ofTable_documented (table : List KnownJwt) (h : Keyed KnownJwt.text table)
    (config : JWTConfig (Joserfc.ofTable table)) :
    (Joserfc.ofTable table).Documented config where
  verifies routeId issued expires xJwt hsigned := by
    change (match table.find? fun known => known.covers (pikoClaims routeId issued expires) with
      | some known => Except.ok known.text
      | none => _) = _ at hsigned
    cases hfind : table.find? fun known => known.covers (pikoClaims routeId issued expires) with
    | none =>
      rw [hfind] at hsigned
      cases hsigned
    | some known =>
      rw [hfind] at hsigned
      cases hsigned
      have hmatch : known.covers (pikoClaims routeId issued expires) = true :=
        (List.find?_some hfind :)
      obtain ⟨rfl, rfl, rfl⟩ : routeId = known.routeId ∧ issued = known.issued ∧
        expires = known.expires := of_decide_eq_true hmatch
      have hknown : table.find? (fun other => decide (other.text = known.text)) = some known :=
        (lookup_eq_some_iff h).mpr ⟨List.mem_of_find?_eq_some hfind, rfl⟩
      show (match table.find? fun other => decide (other.text = known.text) with
        | some other => _
        | none => _) = _
      rw [hknown]
  timely now routeId issued expires h := by
    change (if expires < (now - config.leeway) * 1000000 then Except.error _
      else if (now + config.leeway) * 1000000 < issued then Except.error _
      else Except.ok ()) = _ at h
    split at h
    · cases h
    · rename_i hexpired
      split at h
      · cases h
      · rename_i hearly
        exact ⟨Int.not_lt.mp hexpired, Int.not_lt.mp hearly⟩
  validates now routeId issued expires _ hwindow := by
    show (if expires < (now - config.leeway) * 1000000 then _
      else if (now + config.leeway) * 1000000 < issued then _ else Except.ok ()) = _
    rw [if_neg (Int.not_lt.mpr hwindow.1), if_neg (Int.not_lt.mpr hwindow.2)]

/-- The JWT of a route of one hour, from time zero. -/
def appJwt : KnownJwt := ⟨"app.jwt", appRoute.id, 0, Time.addSeconds 0 3600⟩

/-- One key, and the shipped leeway of twelve hours. -/
def hourlyTable : JwtTable where
  keys := [("key", ⟨"EC", some "public", some "private"⟩)]
  alg := "ES256"
  activeKid := "key"
  lifespan := 3600

/-- The configuration of that table. -/
def hourly (table : List KnownJwt) : JWTConfig (Joserfc.ofTable table) :=
  ⟨⟨[("key", ⟨"key", "EC", some (), some ()⟩)], [.null]⟩, "ES256", "key", 3600, some (), 43200⟩

example (table : List KnownJwt) :
    JWTConfig.ofConfig (.ofTable table) hourlyTable = .ok (hourly table) := rfl

/-- It is let through until thirteen hours after it was issued. -/
theorem rotation_window_app :
    jwtAuthenticator .sqlite ((hourly [appJwt]).jose (Time.addSeconds 0 46800)) "app.jwt" oneRoute =
        .ok appRoute oneRoute ∧
      ∀ db', jwtAuthenticator .sqlite ((hourly [appJwt]).jose (Time.addSeconds 0 46801)) "app.jwt"
        oneRoute ≠ .ok appRoute db' := by
  have hdoc := Joserfc.ofTable_documented [appJwt] (List.nodup_singleton _) (hourly [appJwt])
  refine ⟨(rotation_window .sqlite Engine.sqlite_reliable.commitsReads (hourly [appJwt]) hdoc
    appRoute (by decide) 0 none "app.jwt" rfl _ oneRoute appRoute oneRoute).mpr
      ⟨⟨by decide, by decide⟩, by decide, rfl, rfl⟩, fun db' h => ?_⟩
  have hwindow := ((rotation_window .sqlite Engine.sqlite_reliable.commitsReads (hourly [appJwt])
    hdoc appRoute (by decide) 0 none "app.jwt" rfl _ oneRoute appRoute db').mp h).1
  exact absurd hwindow.1 (by decide)

end RouteRegistry
