import RouteRegistry.Formats.Quoting
import RouteRegistry.Formats.Urlparse

/-!
# Reading a parameter

What a server reads of a text that was put behind `name=` as it is. The query is cut at `&`,
the value decoded with spaces for `+`, and a text comes through undiminished only if it has no
`&` (`queryParam_value`). Where the text ends in a path without delimiters, what is read
otherwise is shorter than what is in front of the path, or ends in the path
(`queryParam_value_path`).
-/

namespace Urllib

open Url Percent

/-! ## Form decoding -/

section UnquotePlus

variable {c : Char} {s t : List Char}

theorem unquotePlus_append (hc : Delimiter c) (hplus : c ≠ '+') (s t : List Char) :
    unquotePlus (s ++ c :: t) = unquotePlus s ++ c :: unquotePlus t := by
  unfold unquotePlus
  rw [List.map_append, List.map_cons, if_neg hplus, unquote_append hc]

theorem unquotePlus_append_plus (s t : List Char) :
    unquotePlus (s ++ '+' :: t) = unquotePlus s ++ ' ' :: unquotePlus t := by
  unfold unquotePlus
  rw [List.map_append, List.map_cons, if_pos rfl, unquote_append (by decide)]

theorem unquotePlus_of_notMem (h : '+' ∉ s) : unquotePlus s = unquote s := by
  have hsame : (s.map fun c => if c = '+' then ' ' else c) = s.map id :=
    by
    refine List.map_congr_left fun c hc => if_neg ?_
    rintro rfl
    exact h hc
  unfold unquotePlus
  rw [hsame, List.map_id]

theorem length_unquotePlus (s : List Char) : (unquotePlus s).length = (unquote s).length := by
  induction s using separated_induction '+' with
  | part s hs => rw [unquotePlus_of_notMem hs]
  | step a b ha ih =>
    rw [unquotePlus_append_plus, unquote_append (by decide), unquotePlus_of_notMem ha,
      List.length_append, List.length_append, List.length_cons, List.length_cons, ih]

/-- Form decoding differs from decoding at the first `+`. -/
theorem unquotePlus_eq_unquote_iff : unquotePlus s = unquote s ↔ '+' ∉ s := by
  refine ⟨fun h => ?_, unquotePlus_of_notMem⟩
  rcases separated_cases '+' s with hs | ⟨a, b, rfl, ha⟩
  · exact hs
  · rw [unquotePlus_append_plus, unquote_append (by decide), unquotePlus_of_notMem ha] at h
    obtain ⟨hspace, -⟩ := List.cons.inj (List.append_cancel_left h)
    exact absurd hspace (by decide)

end UnquotePlus

/-! ## Queries -/

/-- The last value of a parameter. -/
def queryParam (name query : List Char) : Option (List Char) :=
  ((parseQsl true query).filter fun p => decide (p.1 = name)).getLast?.map Prod.snd

section QueryParam

variable {name s t v w : List Char}

theorem parseQsl_append (keepBlank : Bool) (s t : List Char) :
    parseQsl keepBlank (s ++ '&' :: t) = parseQsl keepBlank s ++ parseQsl keepBlank t := by
  unfold parseQsl
  rw [List.splitOn_append_cons_self, List.filterMap_append]

theorem parseQsl_of_notMem (keepBlank : Bool) (h : '&' ∉ s) :
    parseQsl keepBlank s = (parameter keepBlank s).toList := by
  unfold parseQsl
  rw [List.splitOn_eq_singleton h]
  cases hs : parameter keepBlank s with
  | none => simp [hs]
  | some p => simp [hs]

theorem queryParam_append (name s t : List Char) :
    queryParam name (s ++ '&' :: t) = (queryParam name t).or (queryParam name s) := by
  unfold queryParam
  rw [parseQsl_append, List.filter_append, List.getLast?_append, Option.map_or]

/-- A query of one parameter. -/
theorem queryParam_of_notMem (h : '&' ∉ s) :
    queryParam name s = (parameter true s).bind fun p => if p.1 = name then some p.2 else none := by
  unfold queryParam
  rw [parseQsl_of_notMem true h]
  cases parameter true s with
  | none => rfl
  | some p => by_cases hp : p.1 = name <;> simp [hp]

theorem parameter_written (hname : '=' ∉ s) (t : List Char) :
    parameter true (s ++ '=' :: t) = some (unquotePlus s, unquotePlus t) := by
  have hsplit : splitFirst '=' (s ++ '=' :: t) = (s, some t) := splitFirst_eq_iff.mpr ⟨rfl, hname⟩
  unfold parameter
  rw [if_neg (by simp), hsplit]
  simp

theorem parameter_bare (hs : s ≠ []) (h : '=' ∉ s) : parameter true s = some (unquotePlus s, []) := by
  have hsplit : splitFirst '=' s = (s, none) := splitFirst_of_notMem h
  unfold parameter
  rw [if_neg hs, hsplit]
  rfl

/-- A value is shorter than its parameter. -/
theorem length_parameter_lt {p : List Char × List Char} (h : parameter true s = some p) :
    p.2.length < (unquote s).length := by
  rcases separated_cases '=' s with hs | ⟨name, value, rfl, hname⟩
  · by_cases hnil : s = []
    · subst hnil
      cases h
    · rw [parameter_bare hnil hs] at h
      cases h
      exact List.length_pos_iff.mpr fun hempty => hnil (unquote_eq_nil_iff.mp hempty)
  · rw [parameter_written hname] at h
    cases h
    rw [unquote_append (by decide), List.length_append, List.length_cons, length_unquotePlus]
    omega

theorem length_queryParam_lt_of_notMem (hs : '&' ∉ s) (h : queryParam name s = some v) :
    v.length < (unquote s).length := by
  rw [queryParam_of_notMem hs, Option.bind_eq_some_iff] at h
  obtain ⟨p, hp, hv⟩ := h
  split at hv
  · cases hv
    exact length_parameter_lt hp
  · cases hv

theorem length_queryParam_lt (h : queryParam name s = some v) :
    v.length < (unquote s).length := by
  induction s using separated_induction '&' with
  | part s hs => exact length_queryParam_lt_of_notMem hs h
  | step a b ha ih =>
    rw [queryParam_append, Option.or_eq_some_iff] at h
    rw [unquote_append (by decide), List.length_append, List.length_cons]
    rcases h with h | ⟨-, h⟩
    · have := ih h
      omega
    · have := length_queryParam_lt_of_notMem ha h
      omega

/-- A name that is read as itself. -/
structure PlainName (name : List Char) : Prop where
  equals : '=' ∉ name
  ampersand : '&' ∉ name
  unquoted : unquotePlus name = name

/-- A text without `&` is read form-decoded. -/
theorem queryParam_single (hname : PlainName name) (hw : '&' ∉ w) :
    queryParam name (name ++ '=' :: w) = some (unquotePlus w) := by
  rw [queryParam_of_notMem (by simp [hname.ampersand, hw]), parameter_written hname.equals,
    hname.unquoted, Option.bind_some, if_pos rfl]

/-- **What is read of a text behind `name=`**: the text form-decoded, if it has no `&`, and
something shorter otherwise. -/
theorem queryParam_value (hname : PlainName name) (w : List Char) :
    ∃ v, queryParam name (name ++ '=' :: w) = some v ∧
      ('&' ∉ w ∧ v = unquotePlus w ∨ '&' ∈ w ∧ v.length < (unquote w).length) := by
  rcases separated_cases '&' w with hw | ⟨a, b, rfl, ha⟩
  · exact ⟨_, queryParam_single hname hw, .inl ⟨hw, rfl⟩⟩
  · rw [← List.cons_append, ← List.append_assoc, queryParam_append, queryParam_single hname ha,
      unquote_append (by decide), List.length_append, List.length_cons]
    cases hb : queryParam name b with
    | none => exact ⟨_, rfl, .inr ⟨by simp, by rw [length_unquotePlus]; omega⟩⟩
    | some v =>
      have := length_queryParam_lt hb
      exact ⟨v, rfl, .inr ⟨by simp, by omega⟩⟩

/-- A parameter that ends in a path: its name is no path, so the path is in the value. -/
theorem parameter_append_path {p : List Char × List Char} (hname : '/' ∉ p.1) (ht : '=' ∉ t)
    (h : parameter true (s ++ '/' :: t) = some p) :
    ∃ a b, s = a ++ '=' :: b ∧ p.2 = unquotePlus (b ++ '/' :: t) := by
  rcases separated_cases '=' s with hs | ⟨a, b, rfl, ha⟩
  · rw [parameter_bare (by simp) (by simp [hs, ht]),
      unquotePlus_append (by decide) (by decide)] at h
    cases h
    exact absurd (List.mem_append_right _ List.mem_cons_self) hname
  · rw [List.append_assoc, List.cons_append, parameter_written ha] at h
    cases h
    exact ⟨a, b, rfl, rfl⟩

/-- A value either stands before the path that a query ends in, or contains it. -/
theorem queryParam_append_path (hname : '/' ∉ name) (ht : '&' ∉ t ∧ '=' ∉ t)
    (h : queryParam name (s ++ '/' :: t) = some v) :
    v.length < (unquote s).length ∨
      ∃ a b, s = a ++ '=' :: b ∧ v = unquotePlus (b ++ '/' :: t) := by
  induction s using separated_induction '&' with
  | part s hs =>
    rw [queryParam_of_notMem (by simp [hs, ht.1]), Option.bind_eq_some_iff] at h
    obtain ⟨p, hp, hv⟩ := h
    split at hv
    · rename_i hpname
      cases hv
      exact .inr (parameter_append_path (hpname ▸ hname) ht.2 hp)
    · cases hv
  | step a b ha ih =>
    rw [List.append_assoc, List.cons_append, queryParam_append, Option.or_eq_some_iff] at h
    rw [unquote_append (by decide), List.length_append, List.length_cons]
    rcases h with h | ⟨-, h⟩
    · rcases ih h with hlt | ⟨b₁, b₂, rfl, rfl⟩
      · exact .inl (by omega)
      · exact .inr ⟨a ++ '&' :: b₁, b₂, by simp, rfl⟩
    · have := length_queryParam_lt h
      exact .inl (by omega)

/-- **What is read of a text and a path behind `name=`**: all of it, something shorter than
the text, or the path with a proper end of the text. -/
theorem queryParam_value_path (hname : PlainName name) (hslash : '/' ∉ name)
    (ht : '&' ∉ t ∧ '=' ∉ t) (h : queryParam name (name ++ '=' :: (s ++ '/' :: t)) = some v) :
    ('&' ∉ s ∧ v = unquotePlus (s ++ '/' :: t)) ∨ v.length < (unquote s).length ∨
      ∃ a b, s = a ++ '=' :: b ∧ v = unquotePlus (b ++ '/' :: t) := by
  rcases separated_cases '&' s with hs | ⟨a, b, rfl, ha⟩
  · rw [queryParam_single hname (by simp [hs, ht.1])] at h
    exact .inl ⟨hs, (Option.some.inj h).symm⟩
  · rw [List.append_assoc, List.cons_append, ← List.cons_append, ← List.append_assoc,
      queryParam_append, queryParam_single hname ha, Option.or_eq_some_iff] at h
    rw [unquote_append (by decide), List.length_append, List.length_cons]
    rcases h with h | ⟨-, h⟩
    · rcases queryParam_append_path hslash ht h with hlt | ⟨b₁, b₂, rfl, hv⟩
      · exact .inr (.inl (by omega))
      · exact .inr (.inr ⟨a ++ '&' :: b₁, b₂, by simp, hv⟩)
    · cases h
      rw [length_unquotePlus]
      exact .inr (.inl (by omega))

end QueryParam

/-! ## There and back -/

/-- A value of a query, decoded once more. -/
def decodeTwice (s : List Char) : List Char := unquote (unquotePlus s)

/-- The characters that `quote` leaves alone in a target: nothing is escaped twice. -/
structure TargetSafe (safe : List Char) : Prop where
  ascii : ∀ c ∈ safe, c.toNat < 128
  percent : '%' ∈ safe
  delimiters : ∀ c ∈ ['+', '&', '=', '#', '/'], c ∈ safe

/-- A path that no decoder changes. -/
structure PlainPath (t : List Char) : Prop where
  percent : '%' ∉ t
  plus : '+' ∉ t
  ampersand : '&' ∉ t
  equals : '=' ∉ t
  hash : '#' ∉ t

instance (t : List Char) : Decidable (PlainPath t) :=
  decidable_of_iff ('%' ∉ t ∧ '+' ∉ t ∧ '&' ∉ t ∧ '=' ∉ t ∧ '#' ∉ t)
    ⟨fun ⟨hpercent, hplus, hamp, hequals, hhash⟩ => ⟨hpercent, hplus, hamp, hequals, hhash⟩,
      fun h => ⟨h.percent, h.plus, h.ampersand, h.equals, h.hash⟩⟩

/-- What quoting makes of a text without escapes and without `+`, `&` and `#`. -/
def Quoted (safe w : List Char) : Prop :=
  ∃ x, w = quote safe x ∧ ¬ HasEscape x ∧ '+' ∉ x ∧ '&' ∉ x ∧ '#' ∉ x

section Targets

variable {safe s t v w x : List Char}

theorem decodeTwice_append (s t : List Char) :
    decodeTwice (s ++ '/' :: t) = decodeTwice s ++ '/' :: decodeTwice t := by
  unfold decodeTwice
  rw [unquotePlus_append (by decide) (by decide), unquote_append (by decide)]

theorem length_decodeTwice_le (s : List Char) : (decodeTwice s).length ≤ (unquote s).length := by
  have h := length_unquote_le (unquotePlus s)
  rwa [length_unquotePlus] at h

theorem PlainPath.unquoted (h : PlainPath t) : unquote t = t :=
  unquote_eq_self_iff.mpr (not_hasEscape_of_notMem h.percent)

theorem PlainPath.decoded (h : PlainPath t) : decodeTwice t = t := by
  unfold decodeTwice
  rw [unquotePlus_of_notMem h.plus, h.unquoted, h.unquoted]

theorem PlainPath.append (hs : PlainPath s) (ht : PlainPath t) : PlainPath (s ++ t) where
  percent := fun hmem => (List.mem_append.mp hmem).elim hs.percent ht.percent
  plus := fun hmem => (List.mem_append.mp hmem).elim hs.plus ht.plus
  ampersand := fun hmem => (List.mem_append.mp hmem).elim hs.ampersand ht.ampersand
  equals := fun hmem => (List.mem_append.mp hmem).elim hs.equals ht.equals
  hash := fun hmem => (List.mem_append.mp hmem).elim hs.hash ht.hash

theorem PlainPath.of_subset (h : PlainPath t) (hs : s ⊆ t) : PlainPath s where
  percent := fun hmem => h.percent (hs hmem)
  plus := fun hmem => h.plus (hs hmem)
  ampersand := fun hmem => h.ampersand (hs hmem)
  equals := fun hmem => h.equals (hs hmem)
  hash := fun hmem => h.hash (hs hmem)

namespace TargetSafe

theorem mem_quote_iff (h : TargetSafe safe) {c : Char} (hc : c ∈ ['+', '&', '=', '#', '/']) :
    c ∈ quote safe s ↔ c ∈ s := by
  have hdelimiter : Delimiter c := by
    simp only [List.mem_cons, List.not_mem_nil, or_false] at hc
    rcases hc with rfl | rfl | rfl | rfl | rfl <;> decide
  exact Percent.mem_quote_iff hdelimiter (.inr (h.delimiters c hc))

theorem quote_append (h : TargetSafe safe) (s t : List Char) :
    quote safe (s ++ '/' :: t) = quote safe s ++ '/' :: quote safe t := by
  rw [Percent.quote_append, quote_cons, quoteChar_plain (.inr (h.delimiters _ (by simp)))]
  rfl

theorem unquote_quote (h : TargetSafe safe) (s : List Char) : unquote (quote safe s) = unquote s :=
  unquote_quote_safe h.percent h.ascii s

theorem decodeTwice_quote (h : TargetSafe safe) (ht : PlainPath t) :
    decodeTwice (quote safe t) = t := by
  have hplus : '+' ∉ quote safe t := fun hmem => ht.plus ((h.mem_quote_iff (by simp)).mp hmem)
  unfold decodeTwice
  rw [unquotePlus_of_notMem hplus, h.unquote_quote, ht.unquoted, ht.unquoted]

/-- By descent: what is decoded would end in the path again. -/
theorem ne_decodeTwice_quote (h : TargetSafe safe) (ht : PlainPath t) (y : List Char) :
    y ≠ decodeTwice (quote safe y) ++ '/' :: t := by
  induction hn : y.length using Nat.strongRecOn generalizing y with
  | ind n ih =>
    intro hy
    have hshorter := congrArg List.length hy
    rw [List.length_append, List.length_cons] at hshorter
    refine ih _ (by omega) (decodeTwice (quote safe y)) rfl ?_
    have hquote := congrArg (fun s => decodeTwice (quote safe s)) hy
    rwa [h.quote_append, decodeTwice_append, h.decodeTwice_quote ht] at hquote

/-- By descent: the path would be found in what is in front of it. -/
theorem quote_decodeTwice_ne (h : TargetSafe safe) (ht : PlainPath t) (a s : List Char) :
    a ++ '=' :: s ≠ quote safe (decodeTwice s) ++ '/' :: quote safe t := by
  induction hn : s.length using Nat.strongRecOn generalizing s with
  | ind n ih =>
    intro hs
    have hequals : '=' ∉ '/' :: quote safe t := by
      rw [List.mem_cons, h.mem_quote_iff (by simp)]
      exact not_or.mpr ⟨by decide, ht.equals⟩
    rcases List.append_eq_append_iff.mp hs with ⟨b, hb, hrest⟩ | ⟨b, -, hrest⟩
    · cases b with
      | nil =>
        rw [List.nil_append] at hrest
        exact hequals (hrest ▸ List.mem_cons_self)
      | cons c b =>
        obtain ⟨rfl, hb'⟩ := List.cons.inj hrest
        have hshorter := congrArg List.length hb'
        rw [List.append_eq, List.length_append, List.length_cons] at hshorter
        rw [hb', List.append_eq, decodeTwice_append, h.quote_append, h.decodeTwice_quote ht] at hb
        exact ih b.length (by omega) b rfl hb.symm
    · exact hequals (hrest ▸ List.mem_append_right _ List.mem_cons_self)

end TargetSafe

/-- A quoted text is decoded to what was quoted, and decoding that changes nothing. -/
theorem Quoted.decodes (h : TargetSafe safe) (hx : ¬ HasEscape x) (hplus : '+' ∉ x) :
    unquotePlus (quote safe x) = x ∧ decodeTwice (quote safe x) = x := by
  have hplus' : '+' ∉ quote safe x := fun hmem => hplus ((h.mem_quote_iff (by simp)).mp hmem)
  have hdecoded : unquotePlus (quote safe x) = x := by
    rw [unquotePlus_of_notMem hplus', h.unquote_quote, unquote_eq_self_iff.mpr hx]
  refine ⟨hdecoded, ?_⟩
  unfold decodeTwice
  rw [hdecoded, unquote_eq_self_iff.mpr hx]

/-- No step makes a text longer. -/
theorem length_le_of_comesBack (h : TargetSafe safe) (hback : quote safe (unquote v) = w) :
    (unquote w).length ≤ v.length := by
  rw [← hback, h.unquote_quote]
  exact Nat.le_trans (length_unquote_le _) (length_unquote_le v)

/-- So where none makes it shorter, none changes it. -/
theorem eq_of_comesBack (h : TargetSafe safe) (hback : quote safe (unquote v) = w)
    (hle : v.length ≤ (unquote w).length) :
    unquote w = v ∧ ¬ HasEscape v ∧ quote safe v = w := by
  have hw : unquote w = unquote (unquote v) := by rw [← hback, h.unquote_quote]
  rw [hw] at hle
  have hv : unquote v = v :=
    unquote_eq_self_of_length (Nat.le_trans hle (length_unquote_le (unquote v)))
  rw [hv] at hw hback
  exact ⟨hw.trans hv, unquote_eq_self_iff.mp hv, hback⟩

/-- **A text comes back** through a query without its fragment, two decoders and `quote`
exactly if it is a quoted text. -/
theorem comesBack_iff (h : TargetSafe safe) {name : List Char} (hname : PlainName name)
    (w : List Char) :
    (∃ v, queryParam name (name ++ '=' :: (splitFirst '#' w).1) = some v ∧
        quote safe (unquote v) = w) ↔ Quoted safe w := by
  constructor
  · rintro ⟨v, hv, hback⟩
    have hlength := length_le_of_comesBack h hback
    obtain ⟨hw, hhash⟩ := splitFirst_spec '#' w
    generalize (splitFirst '#' w).1 = front at hv hw hhash
    obtain ⟨v', hv', hcases⟩ := queryParam_value hname front
    obtain rfl : v = v' := Option.some.inj (hv.symm.trans hv')
    have hplus := length_unquotePlus front
    cases ho : (splitFirst '#' w).2 with
    | some fragment =>
      rw [ho, after_some] at hw
      rw [hw, unquote_append (by decide), List.length_append, List.length_cons] at hlength
      rcases hcases with ⟨-, rfl⟩ | ⟨-, hlt⟩ <;> omega
    | none =>
      rw [ho, after_none, List.append_nil] at hw
      subst hw
      rcases hcases with ⟨hamp, rfl⟩ | ⟨-, hlt⟩
      · obtain ⟨hsame, hesc, hquote⟩ := eq_of_comesBack h hback (Nat.le_of_eq hplus)
        have hnoPlus := unquotePlus_eq_unquote_iff.mp hsame.symm
        rw [← hquote, h.mem_quote_iff (by simp)] at hnoPlus hamp hhash
        exact ⟨_, hquote.symm, hesc, hnoPlus, hamp, hhash⟩
      · omega
  · rintro ⟨x, rfl, hx, hplus, hamp, hhash⟩
    have hcut : splitFirst '#' (quote safe x) = (quote safe x, none) :=
      splitFirst_of_notMem fun hmem => hhash ((h.mem_quote_iff (by simp)).mp hmem)
    have hamp' : '&' ∉ quote safe x := fun hmem => hamp ((h.mem_quote_iff (by simp)).mp hmem)
    obtain ⟨hdecoded, htwice⟩ := Quoted.decodes h hx hplus
    refine ⟨_, ?_, congrArg (quote safe) htwice⟩
    rw [hcut]
    exact queryParam_single hname hamp'

/-- Two texts in front of a path, the first no longer. -/
theorem append_slash_cases {y m : List Char} (h : y ++ '/' :: t = x ++ '/' :: m)
    (hle : y.length ≤ x.length) :
    (y = x ∧ t = m) ∨ ∃ n, x = y ++ '/' :: n ∧ n ⊆ t := by
  rcases List.append_eq_append_iff.mp h with ⟨n, rfl, hrest⟩ | ⟨n, rfl, hrest⟩
  · cases n with
    | nil =>
      obtain ⟨-, rfl⟩ := List.cons.inj hrest
      exact .inl ⟨(List.append_nil y).symm, rfl⟩
    | cons c n =>
      obtain ⟨rfl, rfl⟩ := List.cons.inj hrest
      exact .inr ⟨n, rfl, List.subset_append_left n _⟩
  · obtain rfl : n = [] := by
      rw [List.length_append] at hle
      exact List.length_eq_zero_iff.mp (by omega)
    obtain ⟨-, rfl⟩ := List.cons.inj hrest
    exact .inl ⟨List.append_nil x, rfl⟩

/-- What is read whole comes back from a quoted text only. -/
theorem quoted_of_comesBack (h : TargetSafe safe) (ht : PlainPath t) {x₁ x₂ : List Char}
    (hamp : '&' ∉ quote safe x₁) (hhash : '#' ∉ quote safe x₁)
    (hback : decodeTwice (quote safe x₁) ++ '/' :: t = x₁ ++ '/' :: x₂) :
    Quoted safe (quote safe x₁) ∧ t = x₂ := by
  have hle := length_decodeTwice_le (quote safe x₁)
  rw [h.unquote_quote] at hle
  rcases append_slash_cases hback (Nat.le_trans hle (length_unquote_le x₁)) with
    ⟨hsame, rfl⟩ | ⟨m, hm, hsub⟩
  · obtain ⟨hvalue, hesc, hquote⟩ := eq_of_comesBack h (congrArg (quote safe) hsame)
      (Nat.le_of_eq (length_unquotePlus _))
    have hplus := unquotePlus_eq_unquote_iff.mp hvalue.symm
    refine ⟨⟨_, hquote.symm, hesc, ?_⟩, rfl⟩
    rw [← hquote, h.mem_quote_iff (by simp)] at hplus hamp hhash
    exact ⟨hplus, hamp, hhash⟩
  · exact absurd hm (h.ne_decodeTwice_quote (ht.of_subset hsub) x₁)

/-- What is read from a `=` on does not come back. -/
theorem not_comesBack_of_end (h : TargetSafe safe) (ht : PlainPath t) {x₁ x₂ a b : List Char}
    (hfront : quote safe x₁ = a ++ '=' :: b) :
    decodeTwice b ++ '/' :: t ≠ x₁ ++ '/' :: x₂ := by
  intro hback
  have hle := length_decodeTwice_le b
  have hlength := congrArg (fun s => (unquote s).length) hfront
  simp only [h.unquote_quote, unquote_append (c := '=') (by decide), List.length_append,
    List.length_cons] at hlength
  have hx₁ := length_unquote_le x₁
  rcases append_slash_cases hback (by omega) with ⟨rfl, -⟩ | ⟨m, rfl, hsub⟩
  · omega
  · rw [h.quote_append] at hfront
    exact h.quote_decodeTwice_ne (ht.of_subset hsub) a b hfront.symm

/-- **A text and a path come back** exactly if the text is quoted and the path is the quoted
one. -/
theorem comesBack_path_iff (h : TargetSafe safe) {name p : List Char} (hname : PlainName name)
    (hslash : '/' ∉ name) (ht : PlainPath t) (hs : '#' ∉ s) :
    (∃ v, queryParam name (name ++ '=' :: (s ++ '/' :: t)) = some v ∧
        quote safe (unquote v) = s ++ '/' :: p) ↔ Quoted safe s ∧ p = quote safe t := by
  have hdecoded : ∀ s, unquote (unquotePlus (s ++ '/' :: t)) = decodeTwice s ++ '/' :: t := by
    intro s
    have hsplit := decodeTwice_append s t
    rwa [ht.decoded] at hsplit
  constructor
  · rintro ⟨v, hv, hback⟩
    obtain ⟨x₁, x₂, hx, rfl, rfl⟩ := quote_eq_append (by decide) hback
    rcases queryParam_value_path hname hslash ⟨ht.ampersand, ht.equals⟩ hv with
      ⟨hamp, rfl⟩ | hlt | ⟨a, b, hfront, rfl⟩
    · rw [hdecoded] at hx
      obtain ⟨hquoted, rfl⟩ := quoted_of_comesBack h ht hamp hs hx
      exact ⟨hquoted, rfl⟩
    · -- what stands in front of the path is too long for the value
      have hshorter := congrArg List.length hx
      rw [List.length_append, List.length_cons] at hshorter
      rw [h.unquote_quote] at hlt
      have hv_le := length_unquote_le v
      have hx₁ := length_unquote_le x₁
      omega
    · rw [hdecoded] at hx
      exact absurd hx (not_comesBack_of_end h ht hfront)
  · rintro ⟨⟨x, rfl, hx, hplus, hamp, -⟩, rfl⟩
    have hamp' : '&' ∉ quote safe x ++ '/' :: t := by
      simp [h.mem_quote_iff, hamp, ht.ampersand]
    obtain ⟨-, htwice⟩ := Quoted.decodes h hx hplus
    refine ⟨_, queryParam_single hname hamp', ?_⟩
    rw [hdecoded, htwice, h.quote_append]

end Targets

end Urllib
