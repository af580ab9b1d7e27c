import RouteRegistry.Registry.AdminTokens
import RouteRegistry.Registry.Verification

/-!
# Rotating a JWT (`JWTAuthenticator`)

The `except` clause around decoding and validating a JWT names the errors of the claims
registry only. The errors of `jwt.decode` are of other families, so a header that does not
decode is answered by them and not by a 401 (`rotatesOr401_iff`).
-/

namespace RouteRegistry

open UnitOfWork

/-- The three errors of the claims registry. -/
def Exc.IsClaimError (e : Exc) : Prop :=
  e.isInstance (.lib .invalidClaimError) || e.isInstance (.lib .missingClaimError) ||
    e.isInstance (.lib .expiredTokenError)

/-- What `joserfc` documents: `decode` fails with errors of its own, the claims registry with
the three claim errors, and it insists on a `sub`. -/
structure Jose.Documented (jose : Jose) : Prop where
  decode_error : ∀ x e, jose.decode x = .error e →
    ¬ e.IsClaimError ∧ e.cls ≠ .lib .httpException
  validate_error : ∀ claims e, jose.validate claims = .error e → e.IsClaimError
  sub_essential : ∀ claims, jose.validate claims = .ok () → claims.sub ≠ none

/-- The call returns a stored and verified route, the subject of a token that decodes and
whose claims pass, or answers 401; the store stays as it was. -/
inductive RotatesOr401 (eng : Engine) (jose : Jose) (xJwt : String) (db : Database) : Prop where
  | rotated (route : Route) (claims : Claims)
      (call : jwtAuthenticator eng jose xJwt db = .ok route db)
      (stored : route ∈ db.store.routes) (verified : route.verificationStatus = .verified)
      (signed : jose.decode xJwt = .ok claims) (passed : jose.validate claims = .ok ())
      (subject : claims.subject = .ok route.id)
  | unauthorized (detail : String)
      (call : jwtAuthenticator eng jose xJwt db = .error (httpException 401 detail) db)

section Decode

variable {jose : Jose} {xJwt : String} {claims : Claims} {e : Exc}

/-- An error of `decode` goes through. -/
theorem decodeJwt_of_error (hdoc : jose.Documented) (h : jose.decode xJwt = .error e) :
    decodeJwt jose xJwt = .error e := by
  have hnot := (hdoc.decode_error xJwt e h).1
  unfold Exc.IsClaimError at hnot
  unfold decodeJwt
  rw [h]
  exact if_neg hnot

/-- Claims that do not pass are answered 401. -/
theorem decodeJwt_of_refused (hdoc : jose.Documented) (h : jose.decode xJwt = .ok claims)
    (hv : jose.validate claims = .error e) :
    decodeJwt jose xJwt = .error (httpException 401 e.msg) := by
  have hclaim := hdoc.validate_error claims e hv
  unfold Exc.IsClaimError at hclaim
  unfold decodeJwt
  simp only [h, hv, bind, Except.bind]
  exact if_pos hclaim

theorem decodeJwt_of_passed (h : jose.decode xJwt = .ok claims)
    (hv : jose.validate claims = .ok ()) : decodeJwt jose xJwt = .ok claims := by
  unfold decodeJwt
  simp only [h, hv, bind, Except.bind]
  rfl

end Decode

section Authenticator

variable {eng : Engine} {jose : Jose} {xJwt : String} {claims : Claims} {db : Database} {e : Exc}

theorem jwtAuthenticator_of_error (eng : Engine) (db : Database) (h : decodeJwt jose xJwt = .error e) :
    jwtAuthenticator eng jose xJwt db = .error e db := by
  unfold jwtAuthenticator
  rw [h]
  rfl

/-- Once the claims pass, the store decides. -/
theorem jwtAuthenticator_of_passed (db : Database) (hreads : eng.CommitsReads)
    (h : decodeJwt jose xJwt = .ok claims) :
    jwtAuthenticator eng jose xJwt db =
      match db.store.verifiedRoute claims with
      | .ok route => .ok route db
      | .error e => .error e db := by
  have hrun := run_verifiedRouteBody db.valid claims
  unfold jwtAuthenticator
  rw [h]
  cases hroute : db.store.verifiedRoute claims with
  | ok route =>
    rw [hroute] at hrun
    exact withUOW_of_reads hreads hrun
  | error e =>
    rw [hroute] at hrun
    exact withUOW_raised hrun

/-- With a subject that can be compared, the store's answer is a route or a 401. -/
theorem Store.verifiedRoute_cases (s : Store) {sub : String} (hsub : claims.subject = .ok sub) :
    (∃ route, s.verifiedRoute claims = .ok route ∧ s.routeOf sub = some route ∧
      route.verificationStatus = .verified) ∨
      ∃ detail, s.verifiedRoute claims = .error (httpException 401 detail) := by
  unfold Store.verifiedRoute
  rw [hsub]
  cases hr : s.routeOf sub with
  | none => exact .inr ⟨"Unauthorized", by simp only [hr]⟩
  | some route =>
    by_cases hv : route.verificationStatus = .verified
    · exact .inl ⟨route, by simp only [hr, if_pos hv], rfl, hv⟩
    · exact .inr ⟨"Cannot rotate jwt for unverified route", by simp only [hr, if_neg hv]⟩

/-- A present subject is refused by the database, or compared as a text. -/
theorem Claims.subject_cases (h : claims.sub ≠ none) :
    (claims.sub = some (.other none) ∧ ∃ e, claims.subject = .error e ∧
      e.cls ≠ .lib .httpException) ∨ ∃ sub, claims.subject = .ok sub := by
  unfold Claims.subject
  cases hsub : claims.sub with
  | none => exact absurd hsub h
  | some subject =>
    cases subject with
    | text s => exact .inr ⟨s, rfl⟩
    | other bound =>
      cases bound with
      | some s => exact .inr ⟨s, rfl⟩
      | none => exact .inl ⟨rfl, _, rfl, by simp⟩

/-- An error of another class is neither of the two outcomes. -/
theorem not_rotatesOr401 (h : jwtAuthenticator eng jose xJwt db = .error e db)
    (hcls : e.cls ≠ .lib .httpException) : ¬ RotatesOr401 eng jose xJwt db := by
  rintro (⟨route, claims, call, -, -, -, -, -⟩ | ⟨detail, call⟩)
  · cases h.symm.trans call
  · cases h.symm.trans call
    exact hcls rfl

end Authenticator

/-- **JWT rotation answers 401 exactly for the tokens that decode.** The call returns the
verified route of the token or answers 401 if and only if the header decodes, to claims
whose subject, should they pass, the database can compare with an id. -/
theorem rotatesOr401_iff (eng : Engine) (hreads : eng.CommitsReads) (jose : Jose)
    (hdoc : jose.Documented) (xJwt : String) (db : Database) :
    RotatesOr401 eng jose xJwt db ↔
      ∃ claims, jose.decode xJwt = .ok claims ∧
        (jose.validate claims = .ok () → claims.sub ≠ some (.other none)) := by
  cases hdec : jose.decode xJwt with
  | error e =>
    -- a bad signature, an unknown key or no token at all
    have hcall : jwtAuthenticator eng jose xJwt db = .error e db :=
      jwtAuthenticator_of_error eng db (decodeJwt_of_error hdoc hdec)
    refine iff_of_false (not_rotatesOr401 hcall (hdoc.decode_error xJwt e hdec).2) ?_
    rintro ⟨claims, h, -⟩
    cases h
  | ok claims =>
    simp only [Except.ok.injEq, exists_eq_left']
    cases hval : jose.validate claims with
    | error e =>
      have hcall := jwtAuthenticator_of_error eng db
        (decodeJwt_of_refused hdoc hdec hval)
      exact iff_of_true (.unauthorized e.msg hcall) (fun h => by cases h)
    | ok _ =>
      have hcall := jwtAuthenticator_of_passed db hreads (decodeJwt_of_passed hdec hval)
      rcases Claims.subject_cases (hdoc.sub_essential claims hval) with
        ⟨hother, e, hsub, hcls⟩ | ⟨sub, hsub⟩
      · have hroute : db.store.verifiedRoute claims = .error e := by
          unfold Store.verifiedRoute
          rw [hsub]
        rw [hroute] at hcall
        exact iff_of_false (not_rotatesOr401 hcall hcls) (fun h => h rfl hother)
      · have hcomparable : claims.sub ≠ some (.other none) := by
          intro hother
          unfold Claims.subject at hsub
          rw [hother] at hsub
          cases hsub
        refine iff_of_true ?_ (fun _ => hcomparable)
        rcases Store.verifiedRoute_cases db.store hsub with
          ⟨route, hroute, hof, hv⟩ | ⟨detail, hroute⟩
        · rw [hroute] at hcall
          obtain ⟨hmem, hid⟩ := Store.routeOf_mem hof
          exact .rotated route claims hcall hmem hv hdec hval (hid ▸ hsub)
        · rw [hroute] at hcall
          exact .unauthorized detail hcall

/-- Tokens that verify, with their claims, and a registry that insists on a `sub` and on an
`exp` in the future. -/
def Jose.ofTokens (tokens : List (String × Claims)) (now : Int) : Jose where
  decode xJwt :=
    match tokens.find? fun token => decide (token.1 = xJwt) with
    | some token => .ok token.2
    | none => .error ⟨.lib (.other "DecodeError"), "decode_error: Invalid segments", none⟩
  validate claims :=
    if claims.sub.isNone then
      .error ⟨.lib .missingClaimError, "missing_claim: Missing claim: 'sub'", none⟩
    else if claims.others.any fun claim =>
        match claim with
        | ("exp", .num exp 0) => decide (exp < now)
        | _ => false then
      .error ⟨.lib .expiredTokenError, "expired_token: The token is expired", none⟩
    else .ok ()

theorem Jose.ofTokens_documented (tokens : List (String × Claims)) (now : Int) :
    (Jose.ofTokens tokens now).Documented where
  decode_error x e h := by
    unfold Jose.ofTokens at h
    dsimp only at h
    split at h
    · cases h
    · cases h
      exact ⟨by unfold Exc.IsClaimError; decide, by decide⟩
  validate_error claims e h := by
    unfold Jose.ofTokens at h
    dsimp only at h
    split at h
    · cases h
      unfold Exc.IsClaimError
      decide
    · split at h <;> cases h
      unfold Exc.IsClaimError
      decide
  sub_essential claims h hsub := by
    unfold Jose.ofTokens at h
    dsimp only at h
    rw [hsub] at h
    cases h

/-- One token that verifies, for the stored route. -/
def appTokens : Jose := .ofTokens [("app.jwt", { sub := some (.text appRoute.id) })] 0

theorem rotatesOr401_app : RotatesOr401 .sqlite appTokens "app.jwt" oneRoute :=
  (rotatesOr401_iff .sqlite Engine.sqlite_reliable.commitsReads appTokens
    (Jose.ofTokens_documented _ _) "app.jwt" oneRoute).mpr ⟨_, rfl, fun _ => by simp⟩

/-- A header that is no token is answered by the error of `decode`. -/
theorem garbage_not401 :
    (∃ e, e.cls = .lib (.other "DecodeError") ∧
      jwtAuthenticator .sqlite appTokens "garbage" oneRoute = .error e oneRoute) ∧
      ¬ RotatesOr401 .sqlite appTokens "garbage" oneRoute :=
  ⟨⟨_, rfl, jwtAuthenticator_of_error _ _ rfl⟩,
    not_rotatesOr401 (jwtAuthenticator_of_error _ _ rfl) (by decide)⟩

end RouteRegistry
