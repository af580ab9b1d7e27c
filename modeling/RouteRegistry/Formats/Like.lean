import Mathlib.Data.List.Infix
import Mathlib.Tactic.Common

/-!
# Patterns and texts (SQL `LIKE`)

Databases agree on `%` and `_`. They differ in which characters a pattern takes for the
same, and in whether a backslash quotes: a `Dialect` is such a choice, `Dialect.Documents`
what is documented of a `LIKE` in that dialect.

A pattern is a query for all texts of a shape. Used where an equality is meant, it is one
exactly if it has no pattern characters, and no character that the dialect takes for another
(`exact_iff`).

- `of_exact`: such a pattern matches itself and nothing else.
- `short`: whatever a pattern matches, it also matches some text no longer than itself,
  so a backslash, which shortens what is matched, cannot keep a pattern exact.
-/

namespace Text

/-- How a database reads the patterns of `LIKE`. -/
structure Dialect where
  /-- The second character is one the first stands for. -/
  same : Char → Char → Bool
  same_self : ∀ c, same c c = true
  /-- A backslash quotes the next character. -/
  quotes : Bool

namespace Dialect

/-- PostgreSQL: characters stand for themselves. -/
def postgresql : Dialect where
  same c x := decide (x = c)
  same_self _ := decide_eq_true rfl
  quotes := true

/-- SQLite: ASCII letters stand for both cases, and nothing quotes. -/
def sqlite : Dialect where
  same c x := decide (x.toLower = c.toLower)
  same_self _ := decide_eq_true rfl
  quotes := false

/-- A character that stands in a pattern as it is. -/
def Literal (d : Dialect) (c : Char) : Prop :=
  c ≠ '%' ∧ c ≠ '_' ∧ (d.quotes = true → c ≠ '\\')

instance (d : Dialect) (c : Char) : Decidable (d.Literal c) := by
  unfold Literal
  infer_instance

/-- What is documented of `LIKE`, pattern first. -/
structure Documents (d : Dialect) (like : List Char → List Char → Bool) : Prop where
  nil : ∀ {s}, like [] s = true ↔ s = []
  percent : ∀ {p s}, like ('%' :: p) s = true ↔ ∃ t, t <:+ s ∧ like p t = true
  underscore : ∀ {p s}, like ('_' :: p) s = true ↔ ∃ c t, s = c :: t ∧ like p t = true
  literal : ∀ {x p s}, d.Literal x →
    (like (x :: p) s = true ↔ ∃ c t, s = c :: t ∧ d.same x c = true ∧ like p t = true)
  quoted : d.quotes = true → ∀ {x p s},
    like ('\\' :: x :: p) s = true ↔ ∃ c t, s = c :: t ∧ d.same x c = true ∧ like p t = true
  /-- With nothing to quote, a backslash is an error: no text is found. -/
  dangling : d.quotes = true → ∀ {s}, like ['\\'] s = false

/-- `LIKE` in a dialect. -/
def like (d : Dialect) : List Char → List Char → Bool
  | [], s => s.isEmpty
  | x :: p, s =>
    if x = '%' then s.tails.any (d.like p)
    else if x = '_' then !s.isEmpty && d.like p s.tail
    else if d.quotes = true ∧ x = '\\' then
      match p with
      | y :: q => s.head?.any (d.same y) && d.like q s.tail
      | [] => false
    else s.head?.any (d.same x) && d.like p s.tail

theorem like_cons (d : Dialect) (x : Char) (p s : List Char) :
    d.like (x :: p) s =
      if x = '%' then s.tails.any (d.like p)
      else if x = '_' then !s.isEmpty && d.like p s.tail
      else if d.quotes = true ∧ x = '\\' then
        match p with
        | y :: q => s.head?.any (d.same y) && d.like q s.tail
        | [] => false
      else s.head?.any (d.same x) && d.like p s.tail := by
  cases p <;> rfl

theorem documents (d : Dialect) : d.Documents d.like where
  nil := List.isEmpty_iff
  percent {p s} := by
    rw [like_cons, if_pos rfl, List.any_eq_true]
    simp only [List.mem_tails]
  underscore {p s} := by
    cases s <;> simp [like_cons]
  literal {x p s} h := by
    have hplain : ¬ (d.quotes = true ∧ x = '\\') := fun hq => h.2.2 hq.1 hq.2
    rw [like_cons, if_neg h.1, if_neg h.2.1, if_neg hplain]
    cases s <;> simp
  quoted hq {x p s} := by
    rw [like_cons, if_neg (by decide), if_neg (by decide), if_pos ⟨hq, rfl⟩]
    cases s <;> simp
  dangling hq {s} := by
    rw [like_cons, if_neg (by decide), if_neg (by decide), if_pos ⟨hq, rfl⟩]

/-- A pattern of characters that stand for themselves only. -/
def Exact (d : Dialect) (p : List Char) : Prop :=
  ∀ x ∈ p, d.Literal x ∧ ∀ c, d.same x c = true → c = x

section Like

variable {d : Dialect} {like : List Char → List Char → Bool} {p s : List Char} {x : Char}

/-- A character that is not literal is a pattern character. -/
theorem not_literal (h : ¬ d.Literal x) : x = '%' ∨ x = '_' ∨ d.quotes = true ∧ x = '\\' := by
  unfold Literal at h
  tauto

/-- An exact pattern is an equality. -/
theorem Documents.of_exact (h : d.Documents like) (hp : d.Exact p) : like p s = true ↔ s = p := by
  induction p generalizing s with
  | nil => exact h.nil
  | cons x p ih =>
    obtain ⟨hx, hsame⟩ := hp x List.mem_cons_self
    have hrest : ∀ t, like p t = true ↔ t = p := fun t =>
      ih fun c hc => hp c (List.mem_cons_of_mem x hc)
    rw [h.literal hx]
    constructor
    · rintro ⟨c, t, rfl, hc, ht⟩
      rw [hsame c hc, (hrest t).mp ht]
    · rintro rfl
      exact ⟨x, p, rfl, d.same_self x, (hrest p).mpr rfl⟩

/-- What a pattern matches at all, it matches with a text no longer than itself. -/
theorem Documents.short (h : d.Documents like) : ∀ {p s : List Char}, like p s = true →
    ∃ t, like p t = true ∧ t.length ≤ p.length
  | [], _, _ => ⟨[], h.nil.mpr rfl, Nat.le_refl _⟩
  | x :: p, s, hs => by
    by_cases hx : d.Literal x
    · obtain ⟨c, s', rfl, hc, hs'⟩ := (h.literal hx).mp hs
      obtain ⟨t, ht, hlen⟩ := h.short hs'
      exact ⟨c :: t, (h.literal hx).mpr ⟨c, t, rfl, hc, ht⟩, Nat.succ_le_succ hlen⟩
    · rcases not_literal hx with rfl | rfl | ⟨hq, rfl⟩
      · obtain ⟨s', -, hs'⟩ := h.percent.mp hs
        obtain ⟨t, ht, hlen⟩ := h.short hs'
        exact ⟨t, h.percent.mpr ⟨t, List.suffix_refl t, ht⟩, Nat.le_succ_of_le hlen⟩
      · obtain ⟨c, s', rfl, hs'⟩ := h.underscore.mp hs
        obtain ⟨t, ht, hlen⟩ := h.short hs'
        exact ⟨c :: t, h.underscore.mpr ⟨c, t, rfl, ht⟩, Nat.succ_le_succ hlen⟩
      · match p, hs with
        | [], hs =>
          rw [h.dangling hq] at hs
          cases hs
        | y :: q, hs =>
          obtain ⟨c, s', rfl, hc, hs'⟩ := (h.quoted hq).mp hs
          obtain ⟨t, ht, hlen⟩ := h.short hs'
          refine ⟨c :: t, (h.quoted hq).mpr ⟨c, t, rfl, hc, ht⟩, ?_⟩
          simp only [List.length_cons]
          omega

/-- **When a pattern is an equality.** It finds the text it is written as, and no other,
exactly when its characters stand for themselves only. -/
theorem Documents.exact_iff (h : d.Documents like) :
    (∀ s, like p s = true ↔ s = p) ↔ d.Exact p := by
  refine ⟨fun hexact => ?_, fun hp s => h.of_exact hp⟩
  induction p with
  | nil =>
    intro c hc
    cases hc
  | cons x p ih =>
    have hself : like (x :: p) (x :: p) = true := (hexact _).mpr rfl
    by_cases hx : d.Literal x
    · obtain ⟨c, t, hsplit, -, hrest⟩ := (h.literal hx).mp hself
      obtain ⟨rfl, rfl⟩ := List.cons.inj hsplit
      have hmatch : ∀ c s, d.same x c = true → like p s = true → c = x ∧ s = p := by
        intro c s hc hs
        have hs' := (hexact (c :: s)).mp ((h.literal hx).mpr ⟨c, s, rfl, hc, hs⟩)
        exact List.cons.inj hs'
      have hp := ih fun s => ⟨fun hs => (hmatch x s (d.same_self x) hs).2, fun hs => hs ▸ hrest⟩
      intro c hc
      rcases List.mem_cons.mp hc with rfl | hc
      · exact ⟨hx, fun c' hc' => (hmatch c' p hc' hrest).1⟩
      · exact hp c hc
    · exfalso
      rcases not_literal hx with rfl | rfl | ⟨hq, rfl⟩
      · -- a text it matches is matched with one more character before it, too
        obtain ⟨t, -, ht⟩ := h.percent.mp hself
        have hshort := (hexact t).mp (h.percent.mpr ⟨t, List.suffix_refl t, ht⟩)
        have hlong := (hexact ('%' :: t)).mp (h.percent.mpr ⟨t, List.suffix_cons _ t, ht⟩)
        have hlen := congrArg List.length (hshort.trans hlong.symm)
        simp at hlen
      · obtain ⟨_, t, hsplit, hrest⟩ := h.underscore.mp hself
        obtain ⟨rfl, rfl⟩ := List.cons.inj hsplit
        have hother := (hexact ('a' :: p)).mp (h.underscore.mpr ⟨'a', p, rfl, hrest⟩)
        simp at hother
      · match p, hself, hexact with
        | [], hself, _ =>
          rw [h.dangling hq] at hself
          cases hself
        | y :: q, hself, hexact =>
          obtain ⟨c, t, hsplit, hc, hrest⟩ := (h.quoted hq).mp hself
          -- the quoted character takes two places in the pattern and one in the text
          obtain ⟨t', ht', hlen⟩ := h.short hrest
          have hsame := (hexact (c :: t')).mp ((h.quoted hq).mpr ⟨c, t', rfl, hc, ht'⟩)
          have := congrArg List.length hsame
          simp only [List.length_cons] at this
          omega

end Like

end Dialect

end Text
