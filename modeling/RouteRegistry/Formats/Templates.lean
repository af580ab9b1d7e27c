import Mathlib.Tactic.Common

/-!
# Path templates

A router has a list of routes, each a method and a path template such as
`/community/{id}/route/{route}`; a request goes to the first route that matches its method
and its path.

- `compilePath`: a template as its segments, texts or parameters.
- `matchPath`: the values of the parameters, if a path matches.
- `fillPath`: the path of some values. What was filled in is matched
  (`matchPath_fillPath`).
- `overlaps`: whether some path could match two templates. In a table without overlaps the
  order of the routes does not matter (`resolve_congr`).
-/

namespace Templates

inductive Segment where
  | literal (text : List Char)
  | param
deriving DecidableEq, Repr

/-- A parameter takes its whole segment. -/
def compileSegment (s : List Char) : Segment :=
  if s.head? = some '{' ∧ s.getLast? = some '}' then .param else .literal s

/-- The segments of a template. -/
def compilePath (path : List Char) : List Segment := (path.splitOn '/').map compileSegment

/-! ## Matching -/

/-- The values of the parameters. A parameter is matched by a text of one character or more.
The pattern of a template ends in `$`, which also matches before a newline at the end. -/
def matchSegments : List Segment → List (List Char) → Option (List (List Char))
  | [], [] => some []
  | .literal t :: ts, s :: ss =>
    if s = t ∨ (ts = [] ∧ s = t ++ ['\n']) then matchSegments ts ss else none
  | .param :: ts, s :: ss => if s = [] then none else (matchSegments ts ss).map (s :: ·)
  | _, _ => none

def matchPath (template : List Segment) (path : List Char) : Option (List (List Char)) :=
  matchSegments template (path.splitOn '/')

/-- The number of parameters. -/
def arity : List Segment → Nat
  | [] => 0
  | .literal _ :: ts => arity ts
  | .param :: ts => arity ts + 1

/-- The segments of a path for some values. -/
def fill : List Segment → List (List Char) → List (List Char)
  | [], _ => []
  | .literal t :: ts, ps => t :: fill ts ps
  | .param :: ts, ps => ps.headD [] :: fill ts ps.tail

def fillPath (template : List Segment) (ps : List (List Char)) : List Char :=
  ['/'].intercalate (fill template ps)

/-- A value that a parameter can take: a text of one segment. -/
def Value (p : List Char) : Prop := p ≠ [] ∧ '/' ∉ p

/-- The texts of a template are segments, as those of a compiled one. -/
def Plain (template : List Segment) : Prop := ∀ t, .literal t ∈ template → '/' ∉ t

theorem notMem_of_mem_splitOn {path segment : List Char} (h : segment ∈ path.splitOn '/') :
    '/' ∉ segment := by
  induction path generalizing segment with
  | nil =>
    rw [List.splitOn_nil, List.mem_singleton] at h
    rw [h]
    exact List.not_mem_nil
  | cons c path ih =>
    rw [List.splitOn_cons_eq_if_modifyHead] at h
    split at h
    · rcases List.mem_cons.mp h with rfl | h
      · exact List.not_mem_nil
      · exact ih h
    · rename_i hc
      -- the character goes in front of the first segment
      cases hsplit : path.splitOn '/' with
      | nil => exact absurd hsplit (List.splitOn_ne_nil '/' path)
      | cons first rest =>
        rw [hsplit, List.modifyHead_cons] at h
        rcases List.mem_cons.mp h with rfl | h
        · have hfirst : '/' ∉ first := ih (hsplit ▸ List.mem_cons_self)
          have hne : '/' ≠ c := by
            rintro rfl
            exact hc (beq_self_eq_true '/')
          exact List.not_mem_cons_of_ne_of_not_mem hne hfirst
        · exact ih (hsplit ▸ List.mem_cons_of_mem _ h)

theorem plain_compilePath (path : List Char) : Plain (compilePath path) := by
  intro t ht
  obtain ⟨segment, hsegment, htext⟩ := List.mem_map.mp ht
  unfold compileSegment at htext
  split at htext
  · cases htext
  · cases htext
    exact notMem_of_mem_splitOn hsegment

theorem compilePath_ne_nil (path : List Char) : compilePath path ≠ [] := fun h =>
  List.splitOn_ne_nil '/' path (List.map_eq_nil_iff.mp h)

section Matching

variable {t s : List Char} {ts : List Segment} {ss ps : List (List Char)}

theorem matchSegments_literal_eq_some :
    matchSegments (.literal t :: ts) (s :: ss) = some ps ↔
      (s = t ∨ (ts = [] ∧ s = t ++ ['\n'])) ∧ matchSegments ts ss = some ps := by
  show (if _ then _ else _) = _ ↔ _
  split <;> simp_all

theorem matchSegments_param_eq_some :
    matchSegments (.param :: ts) (s :: ss) = some ps ↔
      s ≠ [] ∧ ∃ ps', matchSegments ts ss = some ps' ∧ s :: ps' = ps := by
  show (if _ then _ else _) = _ ↔ _
  split <;> simp_all

theorem matchSegments_cons_nil (a : Segment) : matchSegments (a :: ts) [] = none := by
  cases a <;> rfl

theorem matchSegments_fill (hlength : ps.length = arity ts) (hps : ∀ p ∈ ps, p ≠ []) :
    matchSegments ts (fill ts ps) = some ps := by
  induction ts generalizing ps with
  | nil =>
    rw [List.length_eq_zero_iff.mp hlength]
    rfl
  | cons a ts ih =>
    cases a with
    | literal t => exact matchSegments_literal_eq_some.mpr ⟨.inl rfl, ih hlength hps⟩
    | param =>
      cases ps with
      | nil => cases hlength
      | cons p ps =>
        obtain ⟨hp, hps⟩ := List.forall_mem_cons.mp hps
        exact matchSegments_param_eq_some.mpr ⟨hp, ps, ih (Nat.succ.inj hlength) hps, rfl⟩

theorem notMem_fill (hplain : Plain ts) (hlength : ps.length = arity ts)
    (hps : ∀ p ∈ ps, '/' ∉ p) : ∀ s ∈ fill ts ps, '/' ∉ s := by
  induction ts generalizing ps with
  | nil => simp [fill]
  | cons a ts ih =>
    have hrest : Plain ts := fun t ht => hplain t (List.mem_cons_of_mem a ht)
    cases a with
    | literal t =>
      exact List.forall_mem_cons.mpr ⟨hplain t List.mem_cons_self, ih hrest hlength hps⟩
    | param =>
      cases ps with
      | nil => cases hlength
      | cons p ps =>
        obtain ⟨hp, hps⟩ := List.forall_mem_cons.mp hps
        exact List.forall_mem_cons.mpr ⟨hp, ih hrest (Nat.succ.inj hlength) hps⟩

/-- **A filled template matches**, with the values that were filled in. -/
theorem matchPath_fillPath (hne : ts ≠ []) (hplain : Plain ts) (hlength : ps.length = arity ts)
    (hps : ∀ p ∈ ps, Value p) : matchPath ts (fillPath ts ps) = some ps := by
  have hfill : fill ts ps ≠ [] := by
    cases ts with
    | nil => exact absurd rfl hne
    | cons a ts => cases a <;> simp [fill]
  have hsplit : (fillPath ts ps).splitOn '/' = fill ts ps :=
    List.splitOn_intercalate '/' (notMem_fill hplain hlength fun p hp => (hps p hp).2) hfill
  unfold matchPath
  rw [hsplit]
  exact matchSegments_fill hlength fun p hp => (hps p hp).1

end Matching

/-! ## Overlaps -/

/-- Texts that one segment could be; a newline may follow the last. -/
def sameText (t u : List Char) : Bool :=
  decide (t = u) || decide (t ++ ['\n'] = u) || decide (u ++ ['\n'] = t)

/-- Some path could match both templates. -/
def overlaps : List Segment → List Segment → Bool
  | [], [] => true
  | .literal t :: ts, .literal u :: us => sameText t u && overlaps ts us
  | _ :: ts, _ :: us => overlaps ts us
  | _, _ => false

section Overlaps

variable {ts us : List Segment} {ss ps qs : List (List Char)}

theorem sameText_of_eq {s t u : List Char} {p q : Prop} (ht : s = t ∨ (p ∧ s = t ++ ['\n']))
    (hu : s = u ∨ (q ∧ s = u ++ ['\n'])) : sameText t u = true := by
  unfold sameText
  simp only [Bool.or_eq_true, decide_eq_true_eq]
  rcases ht with rfl | ⟨-, rfl⟩
  · rcases hu with rfl | ⟨-, rfl⟩
    · exact .inl (.inl rfl)
    · exact .inr rfl
  · rcases hu with hu | ⟨-, hu⟩
    · exact .inl (.inr hu)
    · exact .inl (.inl (List.append_cancel_right hu))

/-- What matches two templates makes them overlap. -/
theorem overlaps_of_match (ht : matchSegments ts ss = some ps)
    (hu : matchSegments us ss = some qs) : overlaps ts us = true := by
  induction ts generalizing us ss ps qs with
  | nil =>
    cases ss with
    | nil =>
      cases us with
      | nil => rfl
      | cons b us =>
        rw [matchSegments_cons_nil] at hu
        cases hu
    | cons s ss => cases ht
  | cons a ts ih =>
    cases ss with
    | nil =>
      rw [matchSegments_cons_nil] at ht
      cases ht
    | cons s ss =>
      cases us with
      | nil => cases hu
      | cons b us =>
        -- the rest of both templates is matched by the rest of the path
        have hrest : ∀ {c : Segment} {cs : List Segment} {rs : List (List Char)},
            matchSegments (c :: cs) (s :: ss) = some rs →
              ∃ rs', matchSegments cs ss = some rs' := by
          intro c cs rs h
          cases c with
          | literal t => exact ⟨rs, (matchSegments_literal_eq_some.mp h).2⟩
          | param =>
            obtain ⟨-, rs', h', -⟩ := matchSegments_param_eq_some.mp h
            exact ⟨rs', h'⟩
        obtain ⟨ps', hts⟩ := hrest ht
        obtain ⟨qs', hus⟩ := hrest hu
        have hover := ih hts hus
        cases a with
        | param => cases b <;> exact hover
        | literal t =>
          cases b with
          | param => exact hover
          | literal u =>
            have htext := sameText_of_eq (matchSegments_literal_eq_some.mp ht).1
              (matchSegments_literal_eq_some.mp hu).1
            show (sameText t u && overlaps ts us) = true
            rw [htext, hover]
            rfl

end Overlaps

/-! ## Routers -/

/-- A route: its method, the template of its path, and what answers it. -/
structure BoundRoute (μ β : Type) where
  method : μ
  template : List Segment
  endpoint : β
deriving DecidableEq, Repr

/-- Where a request goes. -/
inductive Resolution (β : Type) where
  | found (endpoint : β) (params : List (List Char))
  | methodNotAllowed
  /-- To the path without its slashes at the end, or with one. -/
  | redirect
  | notFound
deriving DecidableEq, Repr

/-- The path with a slash at the end, or without the ones it has. -/
def otherSlashes (path : List Char) : List Char :=
  if path.getLast? = some '/' then (path.reverse.dropWhile fun c => decide (c = '/')).reverse
  else path ++ ['/']

section Routers

variable {μ β : Type} [DecidableEq μ]

/-- The first route that matches method and path. -/
def firstMatch (routes : List (BoundRoute μ β)) (method : μ) (path : List Char) :
    Option (β × List (List Char)) :=
  routes.findSome? fun r =>
    if r.method = method then (matchPath r.template path).map fun ps => (r.endpoint, ps) else none

/-- Some route matches the path. -/
def anyMatch (routes : List (BoundRoute μ β)) (path : List Char) : Bool :=
  routes.any fun r => (matchPath r.template path).isSome

/-- The router. -/
def resolve (routes : List (BoundRoute μ β)) (method : μ) (path : List Char) : Resolution β :=
  match firstMatch routes method path with
  | some (endpoint, ps) => .found endpoint ps
  | none =>
    if anyMatch routes path then .methodNotAllowed
    else if path ≠ ['/'] ∧ anyMatch routes (otherSlashes path) = true then .redirect
    else .notFound

/-- Routes of one method that overlap are one route. -/
def Unambiguous (routes : List (BoundRoute μ β)) : Prop :=
  ∀ r ∈ routes, ∀ r' ∈ routes, r.method = r'.method → overlaps r.template r'.template = true →
    r = r'

variable {routes routes' : List (BoundRoute μ β)} {r : BoundRoute μ β} {method : μ}
  {path : List Char} {endpoint : β} {ps : List (List Char)}

theorem firstMatch_eq_some (h : firstMatch routes method path = some (endpoint, ps)) :
    ∃ r ∈ routes, r.method = method ∧ r.endpoint = endpoint ∧
      matchPath r.template path = some ps := by
  obtain ⟨r, hr, hmatch⟩ := List.exists_of_findSome?_eq_some h
  split at hmatch
  · rename_i hmethod
    obtain ⟨ps', hps, heq⟩ := Option.map_eq_some_iff.mp hmatch
    cases heq
    exact ⟨r, hr, hmethod, rfl, hps⟩
  · cases hmatch

/-- Without overlaps every route that matches is the first one. -/
theorem firstMatch_of_unambiguous (h : Unambiguous routes) (hr : r ∈ routes)
    (hps : matchPath r.template path = some ps) :
    firstMatch routes r.method path = some (r.endpoint, ps) := by
  cases hfirst : firstMatch routes r.method path with
  | none =>
    have hnone := List.findSome?_eq_none_iff.mp hfirst r hr
    rw [if_pos rfl, hps] at hnone
    cases hnone
  | some found =>
    obtain ⟨endpoint, qs⟩ := found
    obtain ⟨r', hr', hmethod, rfl, hqs⟩ := firstMatch_eq_some hfirst
    obtain rfl := h r' hr' r hr hmethod (overlaps_of_match hqs hps)
    rw [hqs] at hps
    cases hps
    rfl

/-- A request is found by the router exactly if a route of its method matches its path. -/
theorem resolve_eq_found_iff (h : Unambiguous routes) :
    resolve routes method path = .found endpoint ps ↔
      ∃ r ∈ routes, r.method = method ∧ r.endpoint = endpoint ∧
        matchPath r.template path = some ps := by
  constructor
  · intro hres
    unfold resolve at hres
    cases hfirst : firstMatch routes method path with
    | none =>
      rw [hfirst] at hres
      dsimp only at hres
      split at hres
      · cases hres
      · split at hres <;> cases hres
    | some found =>
      rw [hfirst] at hres
      cases hres
      exact firstMatch_eq_some hfirst
  · rintro ⟨r, hr, rfl, rfl, hps⟩
    unfold resolve
    rw [firstMatch_of_unambiguous h hr hps]

/-- **The order of the routes does not matter** in a table without overlaps. -/
theorem resolve_congr (h : Unambiguous routes) (hsame : ∀ r, r ∈ routes ↔ r ∈ routes') :
    resolve routes' method path = resolve routes method path := by
  have h' : Unambiguous routes' := fun r hr r' hr' =>
    h r ((hsame r).mpr hr) r' ((hsame r').mpr hr')
  have hany : ∀ p, anyMatch routes' p = anyMatch routes p := by
    intro p
    unfold anyMatch
    rw [Bool.eq_iff_iff, List.any_eq_true, List.any_eq_true]
    simp only [hsame]
  have hfirst : firstMatch routes' method path = firstMatch routes method path := by
    cases hf : firstMatch routes method path with
    | some found =>
      obtain ⟨endpoint, ps⟩ := found
      obtain ⟨r, hr, rfl, rfl, hps⟩ := firstMatch_eq_some hf
      exact firstMatch_of_unambiguous h' ((hsame r).mp hr) hps
    | none =>
      refine List.findSome?_eq_none_iff.mpr fun r hr => ?_
      exact List.findSome?_eq_none_iff.mp hf r ((hsame r).mpr hr)
  unfold resolve
  rw [hfirst, hany, hany]

end Routers

end Templates
