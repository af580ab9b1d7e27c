import Mathlib.Data.List.Nodup
import Mathlib.Data.List.Perm.Subperm
import Mathlib.Tactic.Common

/-!
# Keyed tables as lists of rows

A table is a list of rows; `key : ρ → κ` names the column a lookup goes by. The
operations are the ones a store is written with:

- `lookup key k t`: the first row whose key is `k`;
- `modify key k f t`: rewrite the rows whose key is `k` (an `UPDATE … WHERE`);
- `discard key k t`: drop the rows whose key is `k` (a `DELETE … WHERE`).

`Keyed key t` is the unique constraint on the column. Under it a lookup is
membership (`lookup_eq_some_iff`), and every operation above keeps it.
-/

namespace Relational

universe u v w

variable {ρ : Type u} {κ : Type v} {β : Type w}

/-- The unique constraint: no two rows share a key. -/
def Keyed (key : ρ → κ) (t : List ρ) : Prop := (t.map key).Nodup

instance [DecidableEq κ] (key : ρ → κ) (t : List ρ) : Decidable (Keyed key t) :=
  inferInstanceAs (Decidable (t.map key).Nodup)

/-- Two rows of a keyed table with one key are the same row. -/
theorem Keyed.inj {key : ρ → κ} {t : List ρ} (h : Keyed key t) {a b : ρ}
    (ha : a ∈ t) (hb : b ∈ t) (hab : key a = key b) : a = b :=
  List.inj_on_of_nodup_map h ha hb hab

/-- Two batches of rows go together when each is keyed and no key is in both. -/
theorem keyed_append {key : ρ → κ} {t u : List ρ} :
    Keyed key (t ++ u) ↔ Keyed key t ∧ Keyed key u ∧ ∀ a ∈ t, ∀ b ∈ u, key a ≠ key b := by
  unfold Keyed
  rw [List.map_append, List.nodup_append]
  refine and_congr_right fun _ => and_congr_right fun _ => ?_
  constructor
  · intro h a ha b hb
    exact h _ (List.mem_map_of_mem ha) _ (List.mem_map_of_mem hb)
  · intro h k hk k' hk'
    obtain ⟨a, ha, rfl⟩ := List.mem_map.mp hk
    obtain ⟨b, hb, rfl⟩ := List.mem_map.mp hk'
    exact h a ha b hb

theorem keyed_append_comm {key : ρ → κ} {t u : List ρ} :
    Keyed key (t ++ u) ↔ Keyed key (u ++ t) := by
  rw [keyed_append, keyed_append]
  constructor
  · rintro ⟨ht, hu, hne⟩
    exact ⟨hu, ht, fun b hb a ha => (hne a ha b hb).symm⟩
  · rintro ⟨hu, ht, hne⟩
    exact ⟨ht, hu, fun a ha b hb => (hne b hb a ha).symm⟩

/-- Appending a row keeps the constraint exactly when its key is new. -/
theorem keyed_append_single {key : ρ → κ} {t : List ρ} {r : ρ} :
    Keyed key (t ++ [r]) ↔ Keyed key t ∧ key r ∉ t.map key := by
  rw [keyed_append]
  constructor
  · rintro ⟨h, -, hne⟩
    refine ⟨h, fun hm => ?_⟩
    obtain ⟨a, ha, hk⟩ := List.mem_map.mp hm
    exact hne a ha r List.mem_cons_self hk
  · rintro ⟨h, hn⟩
    refine ⟨h, by simp [Keyed], fun a ha b hb hk => hn ?_⟩
    rw [List.mem_singleton.mp hb] at hk
    exact List.mem_map.mpr ⟨a, ha, hk⟩

/-- Dropping rows keeps the constraint. -/
theorem Keyed.filter {key : ρ → κ} {t : List ρ} (h : Keyed key t) (p : ρ → Bool) :
    Keyed key (t.filter p) :=
  (List.filter_sublist.map key).nodup h

/-- A query for several keys returns one row for each exactly when no key is asked for
twice and every key is stored. -/
theorem length_filter_keys {key : ρ → κ} {t : List ρ} (h : Keyed key t) (ks : List κ)
    {p : ρ → Bool} (hp : ∀ r, p r = true ↔ key r ∈ ks) :
    ks.length = (t.filter p).length ↔ ks.Nodup ∧ ∀ k ∈ ks, k ∈ t.map key := by
  have hnodup : ((t.filter p).map key).Nodup := h.filter p
  -- the rows' keys are distinct members of `ks`: as many as `ks` has when they are all
  have hsub : (t.filter p).map key ⊆ ks := by
    intro k hk
    obtain ⟨r, hr, rfl⟩ := List.mem_map.mp hk
    exact (hp r).mp (List.mem_filter.mp hr).2
  have hle := List.subperm_of_subset hnodup hsub
  rw [show (t.filter p).length = ((t.filter p).map key).length from (List.length_map key).symm]
  constructor
  · intro hlen
    have hperm := hle.perm_of_length_le (Nat.le_of_eq hlen)
    refine ⟨hperm.nodup_iff.mp hnodup, fun k hk => ?_⟩
    obtain ⟨r, hr, rfl⟩ := List.mem_map.mp (hperm.mem_iff.mpr hk)
    exact List.mem_map.mpr ⟨r, List.mem_of_mem_filter hr, rfl⟩
  · rintro ⟨hks, hstored⟩
    refine Nat.le_antisymm (List.subperm_of_subset hks fun k hk => ?_).length_le hle.length_le
    obtain ⟨r, hr, rfl⟩ := List.mem_map.mp (hstored k hk)
    exact List.mem_map.mpr ⟨r, List.mem_filter.mpr ⟨hr, (hp r).mpr hk⟩, rfl⟩

/-! ## Rewriting rows -/

section Rewrite

variable [DecidableEq κ]

/-- Rewrite the rows whose key is `k`. -/
def modify (key : ρ → κ) (k : κ) (f : ρ → ρ) (t : List ρ) : List ρ :=
  t.map fun r => if key r = k then f r else r

/-- Drop the rows whose key is `k`. -/
def discard (key : ρ → κ) (k : κ) (t : List ρ) : List ρ :=
  t.filter fun r => decide (key r ≠ k)

/-- The first row whose key is `k`. -/
def lookup (key : ρ → κ) (k : κ) (t : List ρ) : Option ρ :=
  t.find? fun r => decide (key r = k)

/-- A column the rewrite does not touch is unchanged. -/
theorem map_modify (key : ρ → κ) (k : κ) {f : ρ → ρ} {g : ρ → β}
    (hg : ∀ r, g (f r) = g r) (t : List ρ) :
    (modify key k f t).map g = t.map g := by
  unfold modify
  rw [List.map_map]
  refine List.map_congr_left fun r _ => ?_
  show g (if key r = k then f r else r) = g r
  split
  · exact hg r
  · rfl

theorem Keyed.modify {key : ρ → κ} {k : κ} {f : ρ → ρ} {g : ρ → β} {t : List ρ}
    (h : Keyed g t) (hg : ∀ r, g (f r) = g r) : Keyed g (Relational.modify key k f t) := by
  unfold Keyed at *
  rw [map_modify key k hg]
  exact h

theorem mem_modify {key : ρ → κ} {k : κ} {f : ρ → ρ} {t : List ρ} {r : ρ} :
    r ∈ modify key k f t ↔ (r ∈ t ∧ key r ≠ k) ∨ ∃ r₀ ∈ t, key r₀ = k ∧ r = f r₀ := by
  unfold modify
  rw [List.mem_map]
  constructor
  · rintro ⟨r₀, hr₀, heq⟩
    by_cases hk : key r₀ = k
    · rw [if_pos hk] at heq
      exact .inr ⟨r₀, hr₀, hk, heq.symm⟩
    · rw [if_neg hk] at heq
      subst heq
      exact .inl ⟨hr₀, hk⟩
  · rintro (⟨hr, hk⟩ | ⟨r₀, hr₀, hk, rfl⟩)
    · exact ⟨r, hr, if_neg hk⟩
    · exact ⟨r₀, hr₀, if_pos hk⟩

theorem mem_discard {key : ρ → κ} {k : κ} {t : List ρ} {r : ρ} :
    r ∈ discard key k t ↔ r ∈ t ∧ key r ≠ k := by
  unfold discard
  rw [List.mem_filter, decide_eq_true_eq]

theorem Keyed.discard {key : ρ → κ} {k : κ} {g : ρ → β} {t : List ρ}
    (h : Keyed g t) : Keyed g (Relational.discard key k t) :=
  h.filter _

/-! ## Lookups -/

theorem lookup_mem {key : ρ → κ} {k : κ} {t : List ρ} {r : ρ}
    (h : lookup key k t = some r) : r ∈ t ∧ key r = k :=
  ⟨List.mem_of_find?_eq_some h, by simpa using List.find?_some h⟩

theorem lookup_eq_none_iff {key : ρ → κ} {k : κ} {t : List ρ} :
    lookup key k t = none ↔ ∀ r ∈ t, key r ≠ k := by
  unfold lookup
  rw [List.find?_eq_none]
  simp

theorem lookup_isSome_iff {key : ρ → κ} {k : κ} {t : List ρ} :
    (lookup key k t).isSome ↔ k ∈ t.map key := by
  rw [Option.isSome_iff_ne_none, Ne, lookup_eq_none_iff, List.mem_map]
  push Not
  rfl

/-- Under the unique constraint a lookup is membership. -/
theorem lookup_eq_some_iff {key : ρ → κ} {k : κ} {t : List ρ} (h : Keyed key t) {r : ρ} :
    lookup key k t = some r ↔ r ∈ t ∧ key r = k := by
  constructor
  · exact lookup_mem
  · rintro ⟨hr, hk⟩
    cases hl : lookup key k t with
    | none => exact absurd hk (lookup_eq_none_iff.mp hl r hr)
    | some r' =>
      obtain ⟨hr', hk'⟩ := lookup_mem hl
      rw [h.inj hr' hr (hk'.trans hk.symm)]

/-- What a lookup finds is what there is. -/
theorem exists_lookup_iff {key : ρ → κ} {k : κ} {t : List ρ} (h : Keyed key t) {p : ρ → Prop} :
    (∃ r, lookup key k t = some r ∧ p r) ↔ ∃ r ∈ t, key r = k ∧ p r := by
  simp only [lookup_eq_some_iff h, and_assoc]

/-- Dropping the row found under a key, by whatever column, drops the key. -/
theorem key_ne_of_mem_discard {κ' : Type} [DecidableEq κ'] {key : ρ → κ} {key' : ρ → κ'} {k : κ}
    {t : List ρ} (h : Keyed key t) {r r' : ρ} (hl : lookup key k t = some r)
    (hr' : r' ∈ discard key' (key' r) t) : key r' ≠ k := by
  obtain ⟨hmem, hne⟩ := mem_discard.mp hr'
  obtain ⟨hr, hk⟩ := lookup_mem hl
  exact fun hk' => hne (congrArg key' (h.inj hmem hr (hk'.trans hk.symm)))

/-- A query on a unique column returns what the lookup finds. -/
theorem filter_key_eq_toList {key : ρ → κ} {t : List ρ} (h : Keyed key t) (k : κ) :
    t.filter (fun r => decide (key r = k)) = (lookup key k t).toList := by
  induction t with
  | nil => rfl
  | cons r rest ih =>
    obtain ⟨hr, hrest⟩ := List.nodup_cons.mp h
    by_cases hk : key r = k
    · have hnone : rest.filter (fun x => decide (key x = k)) = [] :=
        List.filter_eq_nil_iff.mpr fun x hx hxk =>
          hr (List.mem_map.mpr ⟨x, hx, (of_decide_eq_true hxk).trans hk.symm⟩)
      simp [lookup, hk, hnone]
    · simpa [lookup, hk] using ih hrest

/-- A condition that one row alone satisfies selects that row. -/
theorem Keyed.filter_eq_singleton {key : ρ → κ} {t : List ρ} (h : Keyed key t) {p : ρ → Bool}
    {r : ρ} (hr : r ∈ t) (hp : p r = true) (honly : ∀ r' ∈ t, p r' = true → r' = r) :
    t.filter p = [r] := by
  have hkey : t.filter p = t.filter fun r' => decide (key r' = key r) := by
    refine List.filter_congr fun r' hr' => ?_
    rw [Bool.eq_iff_iff, decide_eq_true_eq]
    constructor
    · intro hp'
      rw [honly r' hr' hp']
    · intro hk
      rwa [h.inj hr' hr hk]
  rw [hkey, filter_key_eq_toList h, (lookup_eq_some_iff h).mpr ⟨hr, rfl⟩]
  rfl

/-- A lookup commutes with a map that keeps keys. -/
theorem lookup_map {key : ρ → κ} {f : ρ → ρ} (hf : ∀ r, key (f r) = key r) (k : κ) (t : List ρ) :
    lookup key k (t.map f) = (lookup key k t).map f := by
  induction t with
  | nil => rfl
  | cons r rest ih =>
    unfold lookup at ih ⊢
    rw [List.map_cons, List.find?_cons, List.find?_cons, hf r, ih]
    by_cases hr : key r = k
    · simp [hr]
    · simp [hr]

/-- What a lookup sees after a rewrite that keeps keys. -/
theorem lookup_modify {key : ρ → κ} {k k' : κ} {f : ρ → ρ} (hf : ∀ r, key (f r) = key r)
    (t : List ρ) :
    lookup key k' (modify key k f t) =
      (lookup key k' t).map fun r => if k' = k then f r else r := by
  have hkeep : ∀ r, key (if key r = k then f r else r) = key r := by
    intro r
    split
    · exact hf r
    · rfl
  rw [modify, lookup_map hkeep]
  cases hl : lookup key k' t with
  | none => rfl
  | some r =>
    rw [Option.map_some, Option.map_some, (lookup_mem hl).2]

theorem lookup_modify_self {key : ρ → κ} {k : κ} {f : ρ → ρ} (hf : ∀ r, key (f r) = key r)
    (t : List ρ) : lookup key k (modify key k f t) = (lookup key k t).map f := by
  rw [lookup_modify hf]
  simp

theorem lookup_modify_ne {key : ρ → κ} {k k' : κ} {f : ρ → ρ} (hf : ∀ r, key (f r) = key r)
    (hk : k' ≠ k) (t : List ρ) : lookup key k' (modify key k f t) = lookup key k' t := by
  rw [lookup_modify hf]
  simp [hk]

/-- A row found is found with more rows behind it. -/
theorem lookup_append_of_some {key : ρ → κ} {k : κ} {t u : List ρ} {r : ρ}
    (h : lookup key k t = some r) : lookup key k (t ++ u) = some r := by
  unfold lookup at h ⊢
  rw [List.find?_append, h]
  rfl

/-- A rewrite is determined by what it does to the rows it is about. -/
theorem modify_congr {key : ρ → κ} {k : κ} {f g : ρ → ρ} {t : List ρ}
    (h : ∀ r ∈ t, key r = k → f r = g r) : modify key k f t = modify key k g t := by
  unfold modify
  refine List.map_congr_left fun r hr => ?_
  by_cases hk : key r = k
  · rw [if_pos hk, if_pos hk, h r hr hk]
  · rw [if_neg hk, if_neg hk]

/-- Two rewrites of one key compose. -/
theorem modify_modify {key : ρ → κ} {k : κ} {f g : ρ → ρ} (hf : ∀ r, key (f r) = key r)
    (t : List ρ) : modify key k g (modify key k f t) = modify key k (g ∘ f) t := by
  unfold modify
  rw [List.map_map]
  refine List.map_congr_left fun r _ => ?_
  by_cases hk : key r = k
  · simp [hk, hf]
  · simp [hk]

end Rewrite

end Relational
