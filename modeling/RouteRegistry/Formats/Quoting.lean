import RouteRegistry.Formats.Percent

/-!
# Quoting what is quoted already

A delimiter, an ASCII character that no escape has, is decoded apart from what stands before
and behind it (`unquote_append`). And where `%` counts as safe, quoting leaves escapes alone:
a text decodes as before (`unquote_quote_safe`). The two together say how much of a text is
left after it has been cut, decoded and quoted again.
-/

namespace Percent

/-- A character that no escape has. -/
structure Delimiter (c : Char) : Prop where
  ascii : c.toNat < 128
  notPercent : c ≠ '%'
  notDigit : hexDigit? c = none

instance (c : Char) : Decidable (Delimiter c) :=
  decidable_of_iff (c.toNat < 128 ∧ c ≠ '%' ∧ hexDigit? c = none)
    ⟨fun ⟨hascii, hpercent, hdigit⟩ => ⟨hascii, hpercent, hdigit⟩,
      fun h => ⟨h.ascii, h.notPercent, h.notDigit⟩⟩

/-! ## Decoding around delimiters -/

section Delimiters

variable {c : Char} {s t : List Char} {b : Nat}

/-- The bytes that an unfinished character waits for are continuation bytes. -/
def Pending.Continues (p : Pending) : Prop := 0x80 ≤ p.lo ∧ p.hi ≤ 0xBF

theorem lead_continues {p : Pending} (h : lead b = some p) : p.Continues := by
  unfold lead at h
  split_ifs at h
  all_goals
    obtain rfl := Option.some.inj h
    exact ⟨by simp, by simp⟩

theorem start_continues (b : Nat) : ∀ p ∈ (start b).2, p.Continues := by
  intro p hp
  unfold start at hp
  split at hp
  · cases hp
  · cases hlead : lead b with
    | none =>
      rw [hlead] at hp
      cases hp
    | some q =>
      rw [hlead] at hp
      cases hp
      exact lead_continues hlead

theorem continues_none : ∀ p ∈ (none : Option Pending), p.Continues := by
  intro p hp
  cases hp

theorem advance_continues (p : Option Pending) (piece : Piece) :
    ∀ q ∈ (advance p piece).2, q.Continues := by
  cases piece with
  | char c => cases p <;> exact continues_none
  | byte b =>
    cases p with
    | none => exact start_continues b
    | some p =>
      rw [advance]
      split
      · cases p.more with
        | zero => exact continues_none
        | succ more =>
          rintro _ ⟨⟩
          exact ⟨Nat.le_refl _, Nat.le_refl _⟩
      · exact start_continues b

/-- A byte that is not awaited interrupts. -/
theorem decodeFrom_interrupt {p : Pending} (hp : p.Continues) (hb : b < 0x80 ∨ 0xBF < b)
    (ps : List Piece) :
    decodeFrom (some p) (.byte b :: ps) = replacement :: decodeFrom none (.byte b :: ps) := by
  obtain ⟨hlo, hhi⟩ := hp
  have hstep : advance (some p) (.byte b) = (replacement :: (start b).1, (start b).2) :=
    if_neg (by omega)
  rw [decodeFrom_cons, hstep]
  rfl

/-- An ASCII byte is a character, whatever stands before it. -/
theorem decodeFrom_append_ascii (hc : c.toNat < 128) {p : Option Pending}
    (hp : ∀ q ∈ p, q.Continues) (ps qs : List Piece) :
    decodeFrom p (ps ++ .byte c.toNat :: qs) = decodeFrom p ps ++ c :: decode qs := by
  have hplain : decodeFrom none (.byte c.toNat :: qs) = c :: decode qs := by
    have := decode_plain c qs
    rwa [plain, if_pos hc] at this
  induction ps generalizing p with
  | nil =>
    cases p with
    | none => exact hplain
    | some q =>
      rw [List.nil_append, decodeFrom_interrupt (hp q rfl) (.inl hc), hplain]
      rfl
  | cons piece ps ih =>
    rw [List.cons_append, decodeFrom_cons, decodeFrom_cons, ih (advance_continues p piece),
      List.append_assoc]

theorem escape?_percent (x y : Char) (s : List Char) :
    (escape? ('%' :: x :: y :: s)).isSome = ((hexDigit? x).isSome && (hexDigit? y).isSome) := by
  simp only [escape?]
  cases hexDigit? x with
  | none => rfl
  | some a => cases hexDigit? y <;> rfl

theorem escape?_of_ne (h : c ≠ '%') (s : List Char) : escape? (c :: s) = none := by
  cases hesc : escape? (c :: s) with
  | none => rfl
  | some b =>
    obtain ⟨-, -, -, rfl, -⟩ := escape?_eq_some hesc
    exact absurd rfl h

/-- No escape reaches across a delimiter. -/
theorem escape?_append (hc : Delimiter c) (d : Char) (s t : List Char) :
    escape? (d :: (s ++ c :: t)) = escape? (d :: s) := by
  by_cases hd : d = '%'
  · subst hd
    match s with
    | [] =>
      cases t with
      | nil => rfl
      | cons y t => simp [escape?, hc.notDigit]
    | [x] => cases hx : hexDigit? x <;> simp [escape?, hc.notDigit, hx]
    | x :: y :: s => rfl
  · rw [escape?_of_ne hd, escape?_of_ne hd]

theorem pieces_append (hc : Delimiter c) (s t : List Char) :
    pieces (s ++ c :: t) = pieces s ++ .byte c.toNat :: pieces t := by
  induction hn : s.length using Nat.strongRecOn generalizing s with
  | ind n ih =>
    cases s with
    | nil =>
      rw [List.nil_append, pieces_of_plain (escape?_of_ne hc.notPercent t), plain,
        if_pos hc.ascii]
      rfl
    | cons d s =>
      have hesc := escape?_append hc d s t
      rw [List.length_cons] at hn
      cases hd : escape? (d :: s) with
      | none =>
        rw [List.cons_append, pieces_of_plain (hesc.trans hd), pieces_of_plain hd,
          ih s.length (by omega) s rfl, List.cons_append]
      | some b =>
        obtain ⟨x, y, s', -, rfl⟩ := escape?_eq_some hd
        simp only [List.length_cons] at hn
        rw [List.cons_append, pieces_of_escape (hesc.trans hd), pieces_of_escape hd]
        simp only [List.cons_append, List.drop_succ_cons, List.drop_zero]
        rw [ih s'.length (by omega) s' rfl]

/-- **A delimiter is decoded apart.** -/
theorem unquote_append (hc : Delimiter c) (s t : List Char) :
    unquote (s ++ c :: t) = unquote s ++ c :: unquote t := by
  unfold unquote
  rw [pieces_append hc]
  exact decodeFrom_append_ascii hc.ascii continues_none _ _

end Delimiters

/-! ## Quoting where `%` is safe -/

section Safe

variable {safe s : List Char} {c : Char} {b : Nat}

/-- The bytes of a piece. -/
def Piece.bytes : Piece → List Piece
  | .byte b => [.byte b]
  | .char c => (utf8 c).map .byte

/-- A character begins with no continuation byte. -/
theorem utf8_head (c : Char) : ∃ b bs, utf8 c = b :: bs ∧ (b < 0x80 ∨ 0xBF < b) := by
  unfold utf8
  simp only
  split
  · exact ⟨_, _, rfl, .inl (by omega)⟩
  · split
    · exact ⟨_, _, rfl, .inr (by omega)⟩
    · split
      · exact ⟨_, _, rfl, .inr (by omega)⟩
      · exact ⟨_, _, rfl, .inr (by omega)⟩

/-- Characters and their bytes are read alike. -/
theorem decodeFrom_bytes {p : Option Pending} (hp : ∀ q ∈ p, q.Continues) (ps : List Piece) :
    decodeFrom p (ps.flatMap Piece.bytes) = decodeFrom p ps := by
  induction ps generalizing p with
  | nil => rfl
  | cons piece ps ih =>
    have hrest := ih (advance_continues p piece)
    rw [decodeFrom_cons, List.flatMap_cons]
    cases piece with
    | byte b =>
      rw [Piece.bytes, List.singleton_append, decodeFrom_cons, hrest]
    | char c =>
      have hchar : decodeFrom none ((utf8 c).map Piece.byte ++ ps.flatMap Piece.bytes) =
          c :: decodeFrom none ps := by
        rw [← ih continues_none]
        exact decode_utf8 c _
      cases p with
      | none => exact hchar
      | some q =>
        obtain ⟨b, bs, hbytes, hb⟩ := utf8_head c
        rw [hbytes, List.map_cons, List.cons_append] at hchar
        rw [Piece.bytes, hbytes, List.map_cons, List.cons_append,
          decodeFrom_interrupt (hp q rfl) hb, hchar]
        rfl

theorem alwaysSafe_of_hexDigit (h : (hexDigit? c).isSome = true) : alwaysSafe c = true := by
  have hle : ∀ d : Char, c ≤ d → c.toNat ≤ d.toNat := fun _ h => h
  have hascii : c.toNat < 128 := by
    unfold hexDigit? at h
    split_ifs at h with hdigit hupper hlower
    · exact Nat.lt_of_le_of_lt (hle _ hdigit.2) (by decide)
    · exact Nat.lt_of_le_of_lt (hle _ hupper.2) (by decide)
    · exact Nat.lt_of_le_of_lt (hle _ hlower.2) (by decide)
    · cases h
  have hall : ∀ n < 128, (hexDigit? (Char.ofNat n)).isSome = true →
      alwaysSafe (Char.ofNat n) = true := by decide
  have := hall c.toNat hascii
  rw [Char.ofNat_toNat] at this
  exact this h

theorem ascii_of_alwaysSafe (h : alwaysSafe c = true) : c.toNat < 128 := by
  have hle : ∀ d : Char, c.val ≤ d.val → c.toNat ≤ d.toNat := fun _ h => h
  have hparts : (c.isUpper || c.isLower || c.isDigit || decide (c = '_') || decide (c = '.') ||
    decide (c = '-') || decide (c = '~')) = true := h
  simp only [Bool.or_eq_true, decide_eq_true_eq] at hparts
  rcases hparts with ((((((hupper | hlower) | hdigit) | rfl) | rfl) | rfl) | rfl)
  · exact Nat.lt_of_le_of_lt (hle 'Z' (of_decide_eq_true hupper).2) (by decide)
  · exact Nat.lt_of_le_of_lt (hle 'z' (of_decide_eq_true (Bool.and_eq_true _ _ ▸ hlower).2))
      (by decide)
  · exact Nat.lt_of_le_of_lt (hle '9' (of_decide_eq_true (Bool.and_eq_true _ _ ▸ hdigit).2))
      (by decide)
  all_goals decide

theorem quoteChar_plain (h : alwaysSafe c = true ∨ c ∈ safe) : quoteChar safe c = [c] := by
  unfold quoteChar
  rw [if_pos]
  rcases h with h | h <;> simp [h]

theorem quoteChar_escaped (h : ¬ (alwaysSafe c = true ∨ c ∈ safe)) :
    quoteChar safe c = (utf8 c).flatMap escapeByte := by
  unfold quoteChar
  rw [if_neg]
  simpa using h

theorem quote_cons (safe : List Char) (c : Char) (s : List Char) :
    quote safe (c :: s) = quoteChar safe c ++ quote safe s := rfl

/-- A character is written as itself, or as escapes. -/
theorem quoteChar_cases (safe : List Char) (c : Char) :
    quoteChar safe c = [c] ∨ ∃ t, quoteChar safe c = '%' :: t := by
  by_cases h : alwaysSafe c = true ∨ c ∈ safe
  · exact .inl (quoteChar_plain h)
  · obtain ⟨b, bs, hbytes, -⟩ := utf8_head c
    rw [quoteChar_escaped h, hbytes]
    exact .inr ⟨_, rfl⟩

theorem escape?_first {x : Char} (hx : hexDigit? x = none) (t : List Char) :
    escape? ('%' :: x :: t) = none := by
  cases t with
  | nil => rfl
  | cons y t => simp [escape?, hx]

theorem escape?_second (x : Char) {y : Char} (hy : hexDigit? y = none) (t : List Char) :
    escape? ('%' :: x :: y :: t) = none := by
  cases hx : hexDigit? x <;> simp [escape?, hx, hy]

/-- What is quoted begins with no escape that was not there. -/
theorem escape?_quote (h : escape? ('%' :: s) = none) : escape? ('%' :: quote safe s) = none := by
  have hpercent : hexDigit? '%' = none := rfl
  cases s with
  | nil => rfl
  | cons x s =>
    rw [quote_cons]
    rcases quoteChar_cases safe x with hx | ⟨t, hx⟩
    · rw [hx, List.singleton_append]
      cases s with
      | nil => rfl
      | cons y s =>
        rw [quote_cons]
        rcases quoteChar_cases safe y with hy | ⟨t, hy⟩
        · rw [hy, List.singleton_append]
          have hsame := escape?_percent x y s
          rw [h, Option.isSome_none] at hsame
          rw [← Option.not_isSome_iff_eq_none, escape?_percent, ← hsame]
          exact Bool.false_ne_true
        · rw [hy, List.cons_append]
          exact escape?_second x hpercent _
    · rw [hx, List.cons_append]
      exact escape?_first hpercent _

theorem pieces_quote (hpercent : '%' ∈ safe) (hascii : ∀ c ∈ safe, c.toNat < 128)
    (s : List Char) : pieces (quote safe s) = (pieces s).flatMap Piece.bytes := by
  induction hn : s.length using Nat.strongRecOn generalizing s with
  | ind n ih =>
    cases s with
    | nil => rfl
    | cons c s =>
      rw [List.length_cons] at hn
      have hrest := ih s.length (by omega) s rfl
      cases hc : escape? (c :: s) with
      | some b =>
        obtain ⟨x, y, s', rfl, rfl⟩ := escape?_eq_some hc
        have hdigits := escape?_percent x y s'
        rw [hc, Option.isSome_some, eq_comm, Bool.and_eq_true] at hdigits
        have hquote : quote safe ('%' :: x :: y :: s') = '%' :: x :: y :: quote safe s' := by
          rw [quote_cons, quote_cons, quote_cons, quoteChar_plain (.inr hpercent),
            quoteChar_plain (.inl (alwaysSafe_of_hexDigit hdigits.1)),
            quoteChar_plain (.inl (alwaysSafe_of_hexDigit hdigits.2))]
          rfl
        have hesc : escape? ('%' :: x :: y :: quote safe s') = some b := hc
        simp only [List.length_cons] at hn
        rw [hquote, pieces_of_escape hesc, pieces_of_escape hc]
        simp only [List.drop_succ_cons, List.drop_zero, List.flatMap_cons, Piece.bytes,
          List.singleton_append, ih s'.length (by omega) s' rfl]
      | none =>
        rw [pieces_of_plain hc, quote_cons, List.flatMap_cons]
        by_cases hsafe : alwaysSafe c = true ∨ c ∈ safe
        · have hplain : escape? (c :: quote safe s) = none := by
            by_cases hp : c = '%'
            · subst hp
              exact escape?_quote hc
            · exact escape?_of_ne hp _
          have hbytes : Piece.bytes (plain c) = [plain c] := by
            have hc : c.toNat < 128 := hsafe.elim ascii_of_alwaysSafe (hascii c)
            unfold plain
            rw [if_pos hc]
            rfl
          rw [quoteChar_plain hsafe, List.singleton_append, pieces_of_plain hplain, hrest, hbytes]
          rfl
        · have hbytes : Piece.bytes (plain c) = (utf8 c).map Piece.byte := by
            unfold plain
            split
            · rename_i hc
              simp [Piece.bytes, utf8, hc]
            · rfl
          rw [quoteChar_escaped hsafe, pieces_escapeBytes _ (fun b hb => utf8_lt hb), hrest,
            hbytes]

/-- **Quoting keeps the meaning** where `%` is safe. -/
theorem unquote_quote_safe (hpercent : '%' ∈ safe) (hascii : ∀ c ∈ safe, c.toNat < 128)
    (s : List Char) : unquote (quote safe s) = unquote s := by
  unfold unquote
  rw [pieces_quote hpercent hascii]
  exact decodeFrom_bytes continues_none _

theorem notMem_escapes (hc : Delimiter c) (bs : List Nat) (hbs : ∀ b ∈ bs, b < 256) :
    c ∉ bs.flatMap escapeByte := by
  intro hmem
  obtain ⟨b, hb, hmem⟩ := List.mem_flatMap.mp hmem
  have hlt := hbs b hb
  simp only [escapeByte, List.mem_cons, List.not_mem_nil, or_false] at hmem
  rcases hmem with rfl | rfl | rfl
  · exact hc.notPercent rfl
  · have := hexDigit?_hexDigit (show b / 16 < 16 by omega)
    rw [hc.notDigit] at this
    cases this
  · have := hexDigit?_hexDigit (show b % 16 < 16 by omega)
    rw [hc.notDigit] at this
    cases this

/-- A safe delimiter is written for itself only. -/
theorem mem_quote_iff (hc : Delimiter c) (hsafe : alwaysSafe c = true ∨ c ∈ safe) :
    c ∈ quote safe s ↔ c ∈ s := by
  constructor
  · intro hmem
    obtain ⟨d, hd, hmem⟩ := List.mem_flatMap.mp hmem
    by_cases h : alwaysSafe d = true ∨ d ∈ safe
    · rw [quoteChar_plain h] at hmem
      rwa [List.mem_singleton.mp hmem]
    · rw [quoteChar_escaped h] at hmem
      exact absurd hmem (notMem_escapes hc _ fun b hb => utf8_lt hb)
  · intro hmem
    refine List.mem_flatMap.mpr ⟨c, hmem, ?_⟩
    rw [quoteChar_plain hsafe]
    exact List.mem_singleton_self c

theorem quote_append (safe s t : List Char) :
    quote safe (s ++ t) = quote safe s ++ quote safe t := List.flatMap_append

/-- Where a delimiter is written, it stood. -/
theorem quote_eq_append (hc : Delimiter c) {a t : List Char} (h : quote safe s = a ++ c :: t) :
    ∃ s₁ s₂, s = s₁ ++ c :: s₂ ∧ quote safe s₁ = a ∧ quote safe s₂ = t := by
  induction s generalizing a with
  | nil => simp [quote] at h
  | cons d s ih =>
    rw [quote_cons] at h
    by_cases hsafe : alwaysSafe d = true ∨ d ∈ safe
    · rw [quoteChar_plain hsafe, List.singleton_append] at h
      cases a with
      | nil =>
        obtain ⟨rfl, hrest⟩ := List.cons.inj h
        exact ⟨[], s, rfl, rfl, hrest⟩
      | cons e a =>
        obtain ⟨rfl, hrest⟩ := List.cons.inj h
        obtain ⟨s₁, s₂, rfl, hs₁, hs₂⟩ := ih hrest
        refine ⟨d :: s₁, s₂, rfl, ?_, hs₂⟩
        rw [quote_cons, quoteChar_plain hsafe, hs₁]
        rfl
    · have hnot : c ∉ quoteChar safe d := by
        rw [quoteChar_escaped hsafe]
        exact notMem_escapes hc _ fun b hb => utf8_lt hb
      rcases List.append_eq_append_iff.mp h with ⟨a', rfl, hrest⟩ | ⟨c', hd, hrest⟩
      · obtain ⟨s₁, s₂, rfl, hs₁, hs₂⟩ := ih hrest
        exact ⟨d :: s₁, s₂, rfl, by rw [quote_cons, hs₁], hs₂⟩
      · cases c' with
        | nil =>
          obtain ⟨s₁, s₂, rfl, hs₁, hs₂⟩ := ih (a := []) hrest.symm
          refine ⟨d :: s₁, s₂, rfl, ?_, hs₂⟩
          rw [quote_cons, hs₁, hd, List.append_nil, List.append_nil]
        | cons e c' =>
          obtain ⟨rfl, -⟩ := List.cons.inj hrest
          exact absurd (hd ▸ List.mem_append_right _ List.mem_cons_self) hnot

end Safe

end Percent
