import Mathlib.Data.List.Infix
import Mathlib.Tactic.Common

/-!
# The parts of a URL

A URL with an authority is `scheme://userinfo@host:port/path?query#fragment`, where
everything but scheme, host and path is optional. Reading one is cutting at delimiters:
the authority ends at the first `/`, `?` or `#`, the userinfo at the last `@`, the host at
the first `:` after that, the path at the first `?` or `#`.

`parse_eq_some_iff` is the round trip: a text is read as some parts exactly when it is
those parts written out and none of them contains a delimiter it would be cut at.
-/

namespace Url

section Cutting

variable {α : Type}

/-- What stands before the first element that stops, and the rest from there on. -/
def cut (stop : α → Bool) : List α → List α × List α
  | [] => ([], [])
  | c :: s => if stop c then ([], c :: s) else (c :: (cut stop s).1, (cut stop s).2)

theorem cut_nil (stop : α → Bool) : cut stop [] = ([], []) := rfl

theorem cut_cons (stop : α → Bool) (c : α) (s : List α) :
    cut stop (c :: s) =
      if stop c then ([], c :: s) else (c :: (cut stop s).1, (cut stop s).2) := rfl

theorem cut_eq_iff {stop : α → Bool} {s a b : List α} :
    cut stop s = (a, b) ↔
      s = a ++ b ∧ (∀ c ∈ a, stop c = false) ∧ ∀ c ∈ b.head?, stop c = true := by
  induction s generalizing a with
  | nil =>
    rw [cut_nil, Prod.mk.injEq]
    constructor
    · rintro ⟨rfl, rfl⟩
      simp
    · rintro ⟨h, -, -⟩
      obtain ⟨rfl, rfl⟩ := List.append_eq_nil_iff.mp h.symm
      exact ⟨rfl, rfl⟩
  | cons c s ih =>
    rw [cut_cons]
    by_cases hc : stop c = true
    · rw [if_pos hc, Prod.mk.injEq]
      constructor
      · rintro ⟨rfl, rfl⟩
        simpa using hc
      · rintro ⟨h, ha, -⟩
        cases a with
        | nil => exact ⟨rfl, h⟩
        | cons d a =>
          obtain ⟨rfl, -⟩ := List.cons.inj h
          rw [ha c List.mem_cons_self] at hc
          cases hc
    · rw [if_neg hc, Prod.mk.injEq]
      constructor
      · rintro ⟨rfl, rfl⟩
        obtain ⟨hs, ha, hb⟩ := ih.mp rfl
        refine ⟨by rw [List.cons_append, ← hs], fun d hd => ?_, hb⟩
        rcases List.mem_cons.mp hd with rfl | hd
        · exact Bool.eq_false_iff.mpr hc
        · exact ha d hd
      · rintro ⟨h, ha, hb⟩
        cases a with
        | nil =>
          rw [List.nil_append] at h
          subst h
          exact absurd (hb c rfl) hc
        | cons d a =>
          obtain ⟨rfl, hs⟩ := List.cons.inj h
          have hcut := ih.mpr ⟨hs, fun e he => ha e (List.mem_cons_of_mem c he), hb⟩
          rw [hcut]
          exact ⟨rfl, rfl⟩

/-- The cut is looked for behind what does not stop. -/
theorem cut_append {stop : α → Bool} {a : List α} (h : ∀ c ∈ a, stop c = false) (b : List α) :
    cut stop (a ++ b) = (a ++ (cut stop b).1, (cut stop b).2) := by
  obtain ⟨hb, hin, hhead⟩ := cut_eq_iff.mp (rfl : cut stop b = ((cut stop b).1, (cut stop b).2))
  refine cut_eq_iff.mpr ⟨by rw [List.append_assoc, ← hb], fun c hc => ?_, hhead⟩
  rcases List.mem_append.mp hc with hc | hc
  · exact h c hc
  · exact hin c hc

/-- Nothing is cut off beyond an element that stops. -/
theorem cut_append_isPrefix {stop : α → Bool} {a b : List α} (h : ∀ c ∈ b.head?, stop c = true) :
    (cut stop (a ++ b)).1 <+: a := by
  induction a with
  | nil =>
    cases b with
    | nil => exact List.prefix_rfl
    | cons c b =>
      rw [List.nil_append, cut_cons, if_pos (h c rfl)]
  | cons c a ih =>
    rw [List.cons_append, cut_cons]
    split
    · exact List.nil_prefix
    · exact List.cons_prefix_cons.mpr ⟨rfl, ih⟩

variable [DecidableEq α]

/-- What stands before the first separator, and after it if there is one. -/
def splitFirst (sep : α) (s : List α) : List α × Option (List α) :=
  match cut (fun c => decide (c = sep)) s with
  | (a, []) => (a, none)
  | (a, _ :: b) => (a, some b)

/-- A part with its separator before it. -/
def after (sep : α) : Option (List α) → List α
  | none => []
  | some b => sep :: b

omit [DecidableEq α] in
@[simp] theorem after_none (sep : α) : after sep none = [] := rfl

omit [DecidableEq α] in
@[simp] theorem after_some (sep : α) (b : List α) : after sep (some b) = sep :: b := rfl

theorem splitFirst_eq_iff {sep : α} {s a : List α} {o : Option (List α)} :
    splitFirst sep s = (a, o) ↔ s = a ++ after sep o ∧ sep ∉ a := by
  have hcut : cut (fun c => decide (c = sep)) s = (a, after sep o) ↔
      s = a ++ after sep o ∧ sep ∉ a := by
    rw [cut_eq_iff]
    refine and_congr_right fun _ => ?_
    constructor
    · rintro ⟨ha, -⟩ hmem
      simpa using ha sep hmem
    · intro ha
      refine ⟨fun c hc => decide_eq_false (fun h => ha (h ▸ hc)), fun c hc => ?_⟩
      cases o with
      | none => cases hc
      | some b =>
        cases hc
        exact decide_eq_true rfl
  rw [← hcut]
  unfold splitFirst
  obtain ⟨a', b', hs⟩ : ∃ a' b', cut (fun c => decide (c = sep)) s = (a', b') := ⟨_, _, rfl⟩
  have hhead := (cut_eq_iff.mp hs).2.2
  rw [hs]
  cases b' with
  | nil => cases o <;> simp
  | cons c b' =>
    obtain rfl : c = sep := by simpa using hhead c rfl
    cases o <;> simp

theorem splitFirst_spec (sep : α) (s : List α) :
    s = (splitFirst sep s).1 ++ after sep (splitFirst sep s).2 ∧ sep ∉ (splitFirst sep s).1 :=
  splitFirst_eq_iff.mp rfl

theorem splitFirst_append {sep : α} {a : List α} (h : sep ∉ a) (b : List α) :
    splitFirst sep (a ++ b) = (a ++ (splitFirst sep b).1, (splitFirst sep b).2) := by
  obtain ⟨hb, hfront⟩ := splitFirst_spec sep b
  refine splitFirst_eq_iff.mpr ⟨by rw [List.append_assoc, ← hb], fun hmem => ?_⟩
  rcases List.mem_append.mp hmem with hmem | hmem
  · exact h hmem
  · exact hfront hmem

theorem splitFirst_of_notMem {sep : α} {s : List α} (h : sep ∉ s) : splitFirst sep s = (s, none) :=
  splitFirst_eq_iff.mpr ⟨by simp, h⟩

/-- A text has no separator, or a first one. -/
theorem separated_cases (sep : α) (s : List α) :
    sep ∉ s ∨ ∃ a b, s = a ++ sep :: b ∧ sep ∉ a := by
  obtain ⟨hs, ha⟩ := splitFirst_spec sep s
  cases ho : (splitFirst sep s).2 with
  | none =>
    rw [ho, after_none, List.append_nil] at hs
    exact .inl (hs ▸ ha)
  | some b =>
    rw [ho, after_some] at hs
    exact .inr ⟨_, b, hs, ha⟩

/-- Induction over the parts between separators. -/
theorem separated_induction {P : List α → Prop} (sep : α) (part : ∀ s, sep ∉ s → P s)
    (step : ∀ a b, sep ∉ a → P b → P (a ++ sep :: b)) (s : List α) : P s := by
  induction hn : s.length using Nat.strongRecOn generalizing s with
  | ind n ih =>
    rcases separated_cases sep s with hs | ⟨a, b, rfl, ha⟩
    · exact part s hs
    · rw [List.length_append, List.length_cons] at hn
      exact step a b ha (ih b.length (by omega) b rfl)

/-- What stands before the last separator if there is one, and after it. -/
def splitLast (sep : α) (s : List α) : Option (List α) × List α :=
  let parts := splitFirst sep s.reverse
  (parts.2.map List.reverse, parts.1.reverse)

/-- A part with its separator behind it. -/
def before (sep : α) : Option (List α) → List α
  | none => []
  | some a => a ++ [sep]

omit [DecidableEq α] in
@[simp] theorem before_none (sep : α) : before sep none = [] := rfl

omit [DecidableEq α] in
@[simp] theorem before_some (sep : α) (a : List α) : before sep (some a) = a ++ [sep] := rfl

theorem splitLast_eq_iff {sep : α} {s b : List α} {o : Option (List α)} :
    splitLast sep s = (o, b) ↔ s = before sep o ++ b ∧ sep ∉ b := by
  have hrev : splitLast sep s = (o, b) ↔
      splitFirst sep s.reverse = (b.reverse, o.map List.reverse) := by
    unfold splitLast
    obtain ⟨a', o'⟩ := splitFirst sep s.reverse
    simp only [Prod.mk.injEq, List.reverse_eq_iff]
    rw [and_comm]
    refine and_congr_right fun _ => ?_
    cases o' <;> cases o <;> simp [List.reverse_eq_iff]
  rw [hrev, splitFirst_eq_iff]
  have hback : b.reverse ++ after sep (o.map List.reverse) = (before sep o ++ b).reverse := by
    cases o <;> simp
  rw [hback, List.reverse_inj, List.mem_reverse]

omit [DecidableEq α] in
theorem mem_of_mem_after {sep c : α} {o : Option (List α)} (h : c ∈ after sep o) :
    c = sep ∨ c ∈ o.getD [] := by
  cases o with
  | none => cases h
  | some b => exact List.mem_cons.mp h

omit [DecidableEq α] in
theorem mem_of_mem_before {sep c : α} {o : Option (List α)} (h : c ∈ before sep o) :
    c = sep ∨ c ∈ o.getD [] := by
  cases o with
  | none => cases h
  | some a =>
    rcases List.mem_append.mp h with h | h
    · exact .inr h
    · exact .inl (List.mem_singleton.mp h)

theorem splitLast_spec (sep : α) (s : List α) :
    s = before sep (splitLast sep s).1 ++ (splitLast sep s).2 ∧ sep ∉ (splitLast sep s).2 :=
  splitLast_eq_iff.mp rfl

end Cutting

/-- The parts of a URL; `none` where its delimiter is absent. -/
structure Parts where
  scheme : List Char
  userinfo : Option (List Char) := none
  host : List Char
  port : Option (List Char) := none
  path : List Char := []
  query : Option (List Char) := none
  fragment : Option (List Char) := none
deriving DecidableEq, Repr

/-- Where an authority ends. -/
def endsAuthority (c : Char) : Bool := decide (c = '/') || decide (c = '?') || decide (c = '#')

def Parts.authority (u : Parts) : List Char :=
  before '@' u.userinfo ++ (u.host ++ after ':' u.port)

/-- Path, query and fragment. -/
def Parts.target (u : Parts) : List Char :=
  u.path ++ after '?' u.query ++ after '#' u.fragment

/-- The parts written out. -/
def Parts.render (u : Parts) : List Char :=
  u.scheme ++ ':' :: '/' :: '/' :: (u.authority ++ u.target)

/-- No part contains a delimiter that it would be cut at. -/
structure Parts.WellFormed (u : Parts) : Prop where
  scheme : ':' ∉ u.scheme
  authority : ∀ c ∈ u.authority, endsAuthority c = false
  /-- The last `@` is the one before the host. -/
  userinfo : '@' ∉ u.host ++ after ':' u.port
  host : ':' ∉ u.host
  /-- What follows an authority ends it. -/
  target : ∀ c ∈ u.target.head?, endsAuthority c = true
  path : '?' ∉ u.path
  query : '#' ∉ u.path ++ after '?' u.query

/-- Reads a URL that has an authority. -/
def parse (s : List Char) : Option Parts :=
  match splitFirst ':' s with
  | (scheme, some ('/' :: '/' :: rest)) =>
    let (authority, target) := cut endsAuthority rest
    let (userinfo, address) := splitLast '@' authority
    let (host, port) := splitFirst ':' address
    let (front, fragment) := splitFirst '#' target
    let (path, query) := splitFirst '?' front
    some { scheme, userinfo, host, port, path, query, fragment }
  | _ => none

theorem parse_render {u : Parts} (h : u.WellFormed) : parse u.render = some u := by
  have hscheme : splitFirst ':' u.render =
      (u.scheme, some ('/' :: '/' :: (u.authority ++ u.target))) :=
    splitFirst_eq_iff.mpr ⟨rfl, h.scheme⟩
  have hauthority : cut endsAuthority (u.authority ++ u.target) = (u.authority, u.target) :=
    cut_eq_iff.mpr ⟨rfl, h.authority, h.target⟩
  have huserinfo : splitLast '@' u.authority = (u.userinfo, u.host ++ after ':' u.port) :=
    splitLast_eq_iff.mpr ⟨rfl, h.userinfo⟩
  have hhost : splitFirst ':' (u.host ++ after ':' u.port) = (u.host, u.port) :=
    splitFirst_eq_iff.mpr ⟨rfl, h.host⟩
  have hfragment : splitFirst '#' u.target = (u.path ++ after '?' u.query, u.fragment) :=
    splitFirst_eq_iff.mpr ⟨rfl, h.query⟩
  have hpath : splitFirst '?' (u.path ++ after '?' u.query) = (u.path, u.query) :=
    splitFirst_eq_iff.mpr ⟨rfl, h.path⟩
  unfold parse
  simp only [hscheme, hauthority, huserinfo, hhost, hfragment, hpath]

theorem parse_some {s : List Char} {u : Parts} (h : parse s = some u) :
    u.WellFormed ∧ u.render = s := by
  unfold parse at h
  split at h
  · rename_i scheme rest hscheme
    obtain ⟨authority, target, hauthority⟩ :
        ∃ a t, cut endsAuthority rest = (a, t) := ⟨_, _, rfl⟩
    obtain ⟨userinfo, address, huserinfo⟩ : ∃ o b, splitLast '@' authority = (o, b) := ⟨_, _, rfl⟩
    obtain ⟨host, port, hhost⟩ : ∃ a o, splitFirst ':' address = (a, o) := ⟨_, _, rfl⟩
    obtain ⟨front, fragment, hfragment⟩ : ∃ a o, splitFirst '#' target = (a, o) := ⟨_, _, rfl⟩
    obtain ⟨path, query, hpath⟩ : ∃ a o, splitFirst '?' front = (a, o) := ⟨_, _, rfl⟩
    simp only [hauthority, huserinfo, hhost, hfragment, hpath] at h
    cases h
    obtain ⟨hs, hcolon⟩ := splitFirst_eq_iff.mp hscheme
    obtain ⟨hrest, hin, hhead⟩ := cut_eq_iff.mp hauthority
    obtain ⟨hauth, hat⟩ := splitLast_eq_iff.mp huserinfo
    obtain ⟨haddress, hport⟩ := splitFirst_eq_iff.mp hhost
    obtain ⟨htarget, hhash⟩ := splitFirst_eq_iff.mp hfragment
    obtain ⟨hfront, hquestion⟩ := splitFirst_eq_iff.mp hpath
    subst haddress hfront
    subst hauth htarget
    refine ⟨⟨hcolon, hin, hat, hport, hhead, hquestion, hhash⟩, ?_⟩
    rw [hs, hrest]
    rfl
  · cases h

/-- **Reading undoes writing.** A text is read as some parts exactly when it is those parts
written out and no part contains a delimiter it would be cut at. -/
theorem parse_eq_some_iff {s : List Char} {u : Parts} :
    parse s = some u ↔ u.WellFormed ∧ u.render = s := by
  constructor
  · exact parse_some
  · rintro ⟨hwf, rfl⟩
    exact parse_render hwf

/-- A URL without its optional parts. -/
def bare (scheme host path : List Char) : Parts := { scheme, host, path }

/-- A character that an authority is cut at. -/
def delimits (c : Char) : Bool := endsAuthority c || decide (c = '@') || decide (c = ':')

theorem delimits_eq_false_iff {c : Char} :
    delimits c = false ↔ endsAuthority c = false ∧ c ≠ '@' ∧ c ≠ ':' := by
  unfold delimits
  simp [and_assoc]

theorem render_bare (scheme host path : List Char) :
    (bare scheme host path).render = scheme ++ ':' :: '/' :: '/' :: (host ++ path) := by
  simp [bare, Parts.render, Parts.authority, Parts.target]

/-- Read back, such a URL may be divided at another place only. -/
theorem parse_bare_iff {scheme host path host' path' : List Char} :
    parse (bare scheme host path).render = some (bare scheme host' path') ↔
      (bare scheme host' path').WellFormed ∧ host' ++ path' = host ++ path := by
  rw [parse_eq_some_iff, render_bare, render_bare]
  simp only [List.append_cancel_left_eq, List.cons.injEq, true_and]

/-- Its host must be free of delimiters, and its path of those that end a path. -/
theorem wellFormed_bare_iff {scheme host path : List Char} :
    (bare scheme host path).WellFormed ↔
      ':' ∉ scheme ∧ (∀ c ∈ host, delimits c = false) ∧
        (∀ c ∈ path.head?, endsAuthority c = true) ∧ '?' ∉ path ∧ '#' ∉ path := by
  have hauthority : (bare scheme host path).authority = host := by
    simp [bare, Parts.authority]
  have htarget : (bare scheme host path).target = path := by
    simp [bare, Parts.target]
  simp only [delimits_eq_false_iff]
  constructor
  · intro h
    have hin := h.authority
    rw [hauthority] at hin
    have hat : '@' ∉ host := by simpa [bare] using h.userinfo
    have hcolon : ':' ∉ host := h.host
    have hhash : '#' ∉ path := by simpa [bare] using h.query
    refine ⟨h.scheme, fun c hc => ⟨hin c hc, ?_, ?_⟩, htarget ▸ h.target, h.path, hhash⟩
    · rintro rfl
      exact hat hc
    · rintro rfl
      exact hcolon hc
  · rintro ⟨hscheme, hhost, hhead, hquestion, hhash⟩
    refine ⟨hscheme, ?_, ?_, fun h => (hhost _ h).2.2 rfl, ?_, hquestion, ?_⟩
    · rw [hauthority]
      exact fun c hc => (hhost c hc).1
    · simpa [bare] using fun h => (hhost _ h).2.1 rfl
    · rw [htarget]
      exact hhead
    · simpa [bare] using hhash

end Url
