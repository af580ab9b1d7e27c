import Mathlib.Data.List.Basic
import Mathlib.Tactic.Common

/-!
# Percent-encoding

Reading percent-encoded text (`urllib.parse.unquote`): an escape `%XY` is a byte, an ASCII
character is its byte, and the bytes between other characters are UTF-8, with U+FFFD for
what is none.

- `pieces`: the bytes and the other characters of a text.
- `decode`: the text of the pieces. A truncated or interrupted sequence is one U+FFFD, and
  what interrupts it is read anew. `decodeFrom_cons` is what one piece does (`advance`).
- `unquote`: both. It never makes a text longer (`length_unquote_le`), and leaves alone
  exactly the texts without escapes (`unquote_eq_self_iff`).
-/

namespace Percent

/-! ## Pieces -/

/-- A byte, or a character that is not ASCII. -/
inductive Piece where
  | byte (b : Nat)
  | char (c : Char)
deriving DecidableEq, Repr

/-- The value of a hexadecimal digit. -/
def hexDigit? (c : Char) : Option Nat :=
  if '0' ≤ c ∧ c ≤ '9' then some (c.toNat - 48)
  else if 'A' ≤ c ∧ c ≤ 'F' then some (c.toNat - 55)
  else if 'a' ≤ c ∧ c ≤ 'f' then some (c.toNat - 87)
  else none

/-- A character that is no part of an escape. -/
def plain (c : Char) : Piece := if c.toNat < 128 then .byte c.toNat else .char c

/-- The escape a text begins with. -/
def escape? : List Char → Option Nat
  | '%' :: x :: y :: _ =>
    match hexDigit? x, hexDigit? y with
    | some a, some b => some (16 * a + b)
    | _, _ => none
  | _ => none

/-- The pieces of a text from which some characters, the digits of an escape, are skipped. -/
def piecesAfter : Nat → List Char → List Piece
  | _, [] => []
  | skip + 1, _ :: s => piecesAfter skip s
  | 0, c :: s =>
    match escape? (c :: s) with
    | some b => .byte b :: piecesAfter 2 s
    | none => plain c :: piecesAfter 0 s

def pieces (s : List Char) : List Piece := piecesAfter 0 s

/-- Somewhere in the text an escape begins. -/
def HasEscape (s : List Char) : Prop := ∃ t, t <:+ s ∧ (escape? t).isSome = true

section Pieces

variable {c : Char} {s : List Char} {b : Nat}

theorem piecesAfter_eq (skip : Nat) (s : List Char) : piecesAfter skip s = pieces (s.drop skip) := by
  induction s generalizing skip with
  | nil => cases skip <;> rfl
  | cons c s ih =>
    cases skip with
    | zero => rfl
    | succ skip => exact ih skip

theorem pieces_of_escape (h : escape? (c :: s) = some b) :
    pieces (c :: s) = .byte b :: pieces (s.drop 2) := by
  rw [← piecesAfter_eq 2 s]
  unfold pieces
  rw [piecesAfter, h]

theorem pieces_of_plain (h : escape? (c :: s) = none) :
    pieces (c :: s) = plain c :: pieces s := by
  unfold pieces
  rw [piecesAfter, h]

theorem escape?_eq_some (h : escape? (c :: s) = some b) :
    ∃ x y t, c = '%' ∧ s = x :: y :: t := by
  unfold escape? at h
  split at h
  · rename_i x y t heq
    obtain ⟨rfl, rfl⟩ := List.cons.inj heq
    exact ⟨x, y, t, rfl, rfl⟩
  · cases h

theorem hasEscape_cons : HasEscape (c :: s) ↔ (escape? (c :: s)).isSome = true ∨ HasEscape s := by
  unfold HasEscape
  constructor
  · rintro ⟨t, ht, hsome⟩
    rcases List.suffix_cons_iff.mp ht with rfl | ht
    · exact .inl hsome
    · exact .inr ⟨t, ht, hsome⟩
  · rintro (hsome | ⟨t, ht, hsome⟩)
    · exact ⟨_, List.suffix_rfl, hsome⟩
    · exact ⟨t, ht.trans (List.suffix_cons c s), hsome⟩

/-- What is skipped gives no piece. -/
theorem length_piecesAfter_le (skip : Nat) (s : List Char) :
    (piecesAfter skip s).length + min skip s.length ≤ s.length := by
  induction s generalizing skip with
  | nil => simp [piecesAfter]
  | cons c s ih =>
    cases skip with
    | zero =>
      unfold piecesAfter
      cases h : escape? (c :: s) with
      | none =>
        have := ih 0
        simp only [List.length_cons]
        omega
      | some b =>
        have := ih 2
        simp only [List.length_cons]
        omega
    | succ skip =>
      have := ih skip
      simp only [piecesAfter, List.length_cons]
      omega

theorem length_pieces_le (s : List Char) : (pieces s).length ≤ s.length := by
  have := length_piecesAfter_le 0 s
  unfold pieces
  omega

/-- An escape makes the pieces fewer than the characters. -/
theorem length_pieces_lt (h : HasEscape s) : (pieces s).length < s.length := by
  induction s with
  | nil =>
    obtain ⟨t, ht, hsome⟩ := h
    rw [List.suffix_nil.mp ht] at hsome
    cases hsome
  | cons c s ih =>
    cases hesc : escape? (c :: s) with
    | none =>
      rw [pieces_of_plain hesc, List.length_cons, List.length_cons]
      rcases hasEscape_cons.mp h with hsome | h
      · rw [hesc] at hsome
        cases hsome
      · have := ih h
        omega
    | some b =>
      obtain ⟨x, y, t, -, rfl⟩ := escape?_eq_some hesc
      rw [pieces_of_escape hesc]
      have := length_pieces_le t
      simp only [List.drop_succ_cons, List.drop_zero, List.length_cons]
      omega

theorem pieces_of_no_escape (h : ¬ HasEscape s) : pieces s = s.map plain := by
  induction s with
  | nil => rfl
  | cons c s ih =>
    rw [hasEscape_cons, not_or] at h
    have hnone : escape? (c :: s) = none := by simpa using h.1
    rw [pieces_of_plain hnone, ih h.2, List.map_cons]

end Pieces

/-! ## UTF-8 -/

/-- An unfinished character: its bits so far, the number of bytes to come after the next
one, and the range of the next one. -/
structure Pending where
  bits : Nat
  more : Nat
  lo : Nat
  hi : Nat
deriving DecidableEq, Repr

/-- What a first byte of several begins. -/
def lead (b : Nat) : Option Pending :=
  if 0xC2 ≤ b ∧ b ≤ 0xDF then some ⟨b - 0xC0, 0, 0x80, 0xBF⟩
  else if b = 0xE0 then some ⟨0, 1, 0xA0, 0xBF⟩
  else if b = 0xED then some ⟨0xD, 1, 0x80, 0x9F⟩
  else if 0xE1 ≤ b ∧ b ≤ 0xEF then some ⟨b - 0xE0, 1, 0x80, 0xBF⟩
  else if b = 0xF0 then some ⟨0, 2, 0x90, 0xBF⟩
  else if 0xF1 ≤ b ∧ b ≤ 0xF3 then some ⟨b - 0xF0, 2, 0x80, 0xBF⟩
  else if b = 0xF4 then some ⟨4, 2, 0x80, 0x8F⟩
  else none

def replacement : Char := Char.ofNat 0xFFFD

/-- The first byte of a character: what it gives at once, and what it begins. -/
def start (b : Nat) : List Char × Option Pending :=
  if b < 0x80 then ([Char.ofNat b], none)
  else
    match lead b with
    | some p => ([], some p)
    | none => ([replacement], none)

/-- `bytes.decode("utf-8", "replace")` of the bytes between characters. -/
def decodeFrom : Option Pending → List Piece → List Char
  | none, [] => []
  | some _, [] => [replacement]
  | none, .char c :: ps => c :: decodeFrom none ps
  | some _, .char c :: ps => replacement :: c :: decodeFrom none ps
  | none, .byte b :: ps => (start b).1 ++ decodeFrom (start b).2 ps
  | some p, .byte b :: ps =>
    if p.lo ≤ b ∧ b ≤ p.hi then
      match p.more with
      | 0 => Char.ofNat (64 * p.bits + b % 64) :: decodeFrom none ps
      | more + 1 => decodeFrom (some ⟨64 * p.bits + b % 64, more, 0x80, 0xBF⟩) ps
    else replacement :: ((start b).1 ++ decodeFrom (start b).2 ps)

def decode (ps : List Piece) : List Char := decodeFrom none ps

def unquote (s : List Char) : List Char := decode (pieces s)

section Decode

variable {c : Char} {s : List Char}

/-- What a piece gives, and what is unfinished after it. -/
def advance : Option Pending → Piece → List Char × Option Pending
  | none, .char c => ([c], none)
  | some _, .char c => ([replacement, c], none)
  | none, .byte b => start b
  | some p, .byte b =>
    if p.lo ≤ b ∧ b ≤ p.hi then
      match p.more with
      | 0 => ([Char.ofNat (64 * p.bits + b % 64)], none)
      | more + 1 => ([], some ⟨64 * p.bits + b % 64, more, 0x80, 0xBF⟩)
    else (replacement :: (start b).1, (start b).2)

/-- **Decoding goes piece by piece.** -/
theorem decodeFrom_cons (p : Option Pending) (piece : Piece) (ps : List Piece) :
    decodeFrom p (piece :: ps) =
      (advance p piece).1 ++ decodeFrom (advance p piece).2 ps := by
  cases p with
  | none => cases piece <;> rfl
  | some p =>
    cases piece with
    | char c => rfl
    | byte b =>
      rw [decodeFrom, advance]
      split
      · cases p.more <;> rfl
      · rfl

theorem start_length (b : Nat) :
    (start b).1.length + (if (start b).2.isSome then 1 else 0) = 1 := by
  unfold start
  split
  · rfl
  · cases lead b <;> rfl

/-- A piece gives or begins something, and at most one character for itself and what was
unfinished each. -/
theorem advance_length (p : Option Pending) (piece : Piece) :
    0 < (advance p piece).1.length + (if (advance p piece).2.isSome then 1 else 0) ∧
      (advance p piece).1.length + (if (advance p piece).2.isSome then 1 else 0) ≤
        1 + if p.isSome then 1 else 0 := by
  cases piece with
  | char c => cases p <;> exact ⟨by simp [advance], by simp [advance]⟩
  | byte b =>
    have hstart := start_length b
    cases p with
    | none => exact ⟨by rw [advance]; omega, by rw [advance]; omega⟩
    | some p =>
      rw [advance, Option.isSome_some, if_pos rfl]
      split
      · cases p.more <;> exact ⟨by simp, by simp⟩
      · simp only [List.length_cons]
        omega

/-- A piece gives at most one character, and an unfinished one another. -/
theorem length_decodeFrom_le (p : Option Pending) (ps : List Piece) :
    (decodeFrom p ps).length ≤ ps.length + if p.isSome then 1 else 0 := by
  induction ps generalizing p with
  | nil => cases p <;> exact Nat.le_refl _
  | cons piece ps ih =>
    have hrest := ih (advance p piece).2
    have hpiece := (advance_length p piece).2
    rw [decodeFrom_cons, List.length_append, List.length_cons]
    omega

/-- What is begun is finished, or replaced. -/
theorem decodeFrom_eq_nil_iff {p : Option Pending} {ps : List Piece} :
    decodeFrom p ps = [] ↔ p = none ∧ ps = [] := by
  induction ps generalizing p with
  | nil => cases p <;> simp [decodeFrom]
  | cons piece ps ih =>
    refine ⟨fun h => ?_, fun h => absurd h.2 (List.cons_ne_nil _ _)⟩
    rw [decodeFrom_cons, List.append_eq_nil_iff, ih] at h
    have hpiece := (advance_length p piece).1
    rw [h.1, h.2.1] at hpiece
    exact absurd hpiece (Nat.lt_irrefl 0)

theorem length_unquote_le (s : List Char) : (unquote s).length ≤ s.length := by
  have h := length_decodeFrom_le none (pieces s)
  simp only [Option.isSome_none, Bool.false_eq_true, if_false] at h
  exact Nat.le_trans h (length_pieces_le s)

/-- Between characters, a character that is no part of an escape is read as itself. -/
theorem decode_plain (c : Char) (ps : List Piece) : decode (plain c :: ps) = c :: decode ps := by
  unfold decode plain
  by_cases h : c.toNat < 128
  · have hstart : start c.toNat = ([c], none) := by
      unfold start
      rw [if_pos h, Char.ofNat_toNat]
    rw [if_pos h, decodeFrom, hstart]
    rfl
  · rw [if_neg h, decodeFrom]

theorem decode_map_plain (s : List Char) : decode (s.map plain) = s := by
  induction s with
  | nil => rfl
  | cons c s ih => rw [List.map_cons, decode_plain, ih]

theorem length_unquote_lt (h : HasEscape s) : (unquote s).length < s.length := by
  have hle := length_decodeFrom_le none (pieces s)
  simp only [Option.isSome_none, Bool.false_eq_true, if_false] at hle
  exact Nat.lt_of_le_of_lt hle (length_pieces_lt h)

/-- Decoding leaves alone exactly the texts without escapes. -/
theorem unquote_eq_self_iff : unquote s = s ↔ ¬ HasEscape s := by
  constructor
  · intro h hesc
    have := length_unquote_lt hesc
    rw [h] at this
    omega
  · intro h
    unfold unquote
    rw [pieces_of_no_escape h, decode_map_plain]

/-- Decoding shortens exactly the texts with escapes. -/
theorem unquote_eq_self_of_length (h : s.length ≤ (unquote s).length) : unquote s = s := by
  refine unquote_eq_self_iff.mpr fun hesc => ?_
  have := length_unquote_lt hesc
  omega

theorem not_hasEscape_of_notMem (h : '%' ∉ s) : ¬ HasEscape s := by
  rintro ⟨t, ht, hsome⟩
  cases t with
  | nil => cases hsome
  | cons c t =>
    obtain ⟨b, hb⟩ := Option.isSome_iff_exists.mp hsome
    obtain ⟨-, -, -, rfl, -⟩ := escape?_eq_some hb
    exact h (ht.subset List.mem_cons_self)

/-- Only the empty text decodes to the empty text. -/
theorem unquote_eq_nil_iff : unquote s = [] ↔ s = [] := by
  constructor
  · intro h
    have hpieces := (decodeFrom_eq_nil_iff.mp h).2
    cases s with
    | nil => rfl
    | cons c s =>
      cases hesc : escape? (c :: s) with
      | none =>
        rw [pieces_of_plain hesc] at hpieces
        cases hpieces
      | some b =>
        rw [pieces_of_escape hesc] at hpieces
        cases hpieces
  · rintro rfl
    rfl

end Decode

/-! ## Writing -/

/-- The bytes of a character. -/
def utf8 (c : Char) : List Nat :=
  let n := c.toNat
  if n < 0x80 then [n]
  else if n < 0x800 then [0xC0 + n / 64, 0x80 + n % 64]
  else if n < 0x10000 then [0xE0 + n / 4096, 0x80 + n / 64 % 64, 0x80 + n % 64]
  else [0xF0 + n / 262144, 0x80 + n / 4096 % 64, 0x80 + n / 64 % 64, 0x80 + n % 64]

def hexDigit (n : Nat) : Char := Char.ofNat (if n < 10 then 48 + n else 55 + n)

def escapeByte (b : Nat) : List Char := ['%', hexDigit (b / 16), hexDigit (b % 16)]

/-- `_ALWAYS_SAFE`. -/
def alwaysSafe (c : Char) : Bool :=
  c.isAlphanum || decide (c = '_') || decide (c = '.') || decide (c = '-') || decide (c = '~')

/-- A character as `quote` writes it. -/
def quoteChar (safe : List Char) (c : Char) : List Char :=
  if alwaysSafe c || decide (c ∈ safe) then [c] else (utf8 c).flatMap escapeByte

/-- `urllib.parse.quote(s, safe)`, for ASCII characters that are safe. -/
def quote (safe s : List Char) : List Char := s.flatMap (quoteChar safe)

section Quote

variable {c : Char} {safe s : List Char} {b n : Nat}

/-- The surrogates are no characters. -/
theorem toNat_valid (c : Char) : c.toNat < 0xD800 ∨ 0xDFFF < c.toNat ∧ c.toNat < 0x110000 :=
  c.valid

theorem utf8_lt (h : b ∈ utf8 c) : b < 256 := by
  have hc := toNat_valid c
  unfold utf8 at h
  simp only at h
  split at h
  · simp only [List.mem_singleton] at h
    omega
  · split at h
    · simp only [List.mem_cons, List.not_mem_nil, or_false] at h
      omega
    · split at h <;> simp only [List.mem_cons, List.not_mem_nil, or_false] at h <;> omega

theorem hexDigit?_hexDigit (h : n < 16) : hexDigit? (hexDigit n) = some n :=
  (by decide : ∀ n < 16, hexDigit? (hexDigit n) = some n) n h

theorem pieces_escapeByte (h : b < 256) (s : List Char) :
    pieces (escapeByte b ++ s) = .byte b :: pieces s := by
  have hescape : escape? (escapeByte b ++ s) = some b := by
    simp only [escapeByte, escape?, List.cons_append, hexDigit?_hexDigit (show b / 16 < 16 by omega),
      hexDigit?_hexDigit (Nat.mod_lt b (show 0 < 16 by decide)), Nat.div_add_mod]
  exact pieces_of_escape hescape

theorem pieces_escapeBytes (bs : List Nat) (h : ∀ b ∈ bs, b < 256) (s : List Char) :
    pieces (bs.flatMap escapeByte ++ s) = bs.map Piece.byte ++ pieces s := by
  induction bs with
  | nil => rfl
  | cons b bs ih =>
    rw [List.flatMap_cons, List.append_assoc, pieces_escapeByte (h b List.mem_cons_self),
      ih fun d hd => h d (List.mem_cons_of_mem b hd)]
    rfl

/-- A byte in the range that is awaited is taken. -/
theorem decodeFrom_more {bits more lo hi : Nat} (hlo : lo ≤ b) (hhi : b ≤ hi) (ps : List Piece) :
    decodeFrom (some ⟨bits, more + 1, lo, hi⟩) (.byte b :: ps) =
      decodeFrom (some ⟨64 * bits + b % 64, more, 0x80, 0xBF⟩) ps := by
  rw [decodeFrom, if_pos ⟨hlo, hhi⟩]

theorem decodeFrom_last {bits lo hi : Nat} (hlo : lo ≤ b) (hhi : b ≤ hi)
    (hc : 64 * bits + b % 64 = c.toNat) (ps : List Piece) :
    decodeFrom (some ⟨bits, 0, lo, hi⟩) (.byte b :: ps) = c :: decode ps := by
  rw [decodeFrom, if_pos ⟨hlo, hhi⟩, hc, Char.ofNat_toNat]
  rfl

theorem decode_lead {p : Pending} (hb : 0x80 ≤ b) (h : lead b = some p) (ps : List Piece) :
    decode (.byte b :: ps) = decodeFrom (some p) ps := by
  have hstart : start b = ([], some p) := by
    unfold start
    rw [if_neg (by omega), h]
  unfold decode
  rw [decodeFrom, hstart]
  rfl

theorem lead_two (hlo : 2 ≤ n) (hhi : n ≤ 31) : lead (0xC0 + n) = some ⟨n, 0, 0x80, 0xBF⟩ := by
  unfold lead
  rw [if_pos (by omega), Nat.add_sub_cancel_left]

/-- The range of the second byte excludes the surrogates and what two bytes suffice for. -/
theorem lead_three (h : n < 16) : ∃ lo hi, lead (0xE0 + n) = some ⟨n, 1, lo, hi⟩ ∧
    (lo = if n = 0 then 0xA0 else 0x80) ∧ hi = if n = 13 then 0x9F else 0xBF := by
  unfold lead
  by_cases h0 : n = 0
  · subst h0
    exact ⟨_, _, rfl, rfl, rfl⟩
  by_cases h13 : n = 13
  · subst h13
    exact ⟨_, _, rfl, rfl, rfl⟩
  refine ⟨0x80, 0xBF, ?_, by rw [if_neg h0], by rw [if_neg h13]⟩
  rw [if_neg (by omega), if_neg (by omega), if_neg (by omega), if_pos (by omega),
    Nat.add_sub_cancel_left]

theorem lead_four (h : n < 5) : ∃ lo hi, lead (0xF0 + n) = some ⟨n, 2, lo, hi⟩ ∧
    (lo = if n = 0 then 0x90 else 0x80) ∧ hi = if n = 4 then 0x8F else 0xBF := by
  unfold lead
  by_cases h0 : n = 0
  · subst h0
    exact ⟨_, _, rfl, rfl, rfl⟩
  by_cases h4 : n = 4
  · subst h4
    exact ⟨_, _, rfl, rfl, rfl⟩
  refine ⟨0x80, 0xBF, ?_, by rw [if_neg h0], by rw [if_neg h4]⟩
  rw [if_neg (by omega), if_neg (by omega), if_neg (by omega), if_neg (by omega),
    if_neg (by omega), if_pos (by omega), Nat.add_sub_cancel_left]

/-- **The bytes of a character are read back.** -/
theorem decode_utf8 (c : Char) (ps : List Piece) :
    decode ((utf8 c).map Piece.byte ++ ps) = c :: decode ps := by
  have hc := toNat_valid c
  unfold utf8
  simp only
  split
  · rename_i h
    have := decode_plain c ps
    rwa [plain, if_pos h] at this
  · split
    · rw [List.map_cons, List.cons_append,
        decode_lead (by omega) (lead_two (by omega) (by omega))]
      exact decodeFrom_last (by omega) (by omega) (by omega) ps
    · split
      · obtain ⟨lo, hi, hlead, hlo, hhi⟩ := lead_three (n := c.toNat / 4096) (by omega)
        rw [List.map_cons, List.cons_append, decode_lead (by omega) hlead, List.map_cons,
          List.cons_append, decodeFrom_more (by split at hlo <;> omega) (by split at hhi <;> omega)]
        exact decodeFrom_last (by omega) (by omega) (by omega) ps
      · obtain ⟨lo, hi, hlead, hlo, hhi⟩ := lead_four (n := c.toNat / 262144) (by omega)
        rw [List.map_cons, List.cons_append, decode_lead (by omega) hlead, List.map_cons,
          List.cons_append, decodeFrom_more (by split at hlo <;> omega) (by split at hhi <;> omega),
          List.map_cons, List.cons_append, decodeFrom_more (by omega) (by omega)]
        exact decodeFrom_last (by omega) (by omega) (by omega) ps

theorem decode_quoteChar (h : '%' ∉ safe) (c : Char) (s : List Char) :
    decode (pieces (quoteChar safe c ++ s)) = c :: decode (pieces s) := by
  unfold quoteChar
  split
  · rename_i hsafe
    have hne : escape? (c :: s) = none := by
      cases hesc : escape? (c :: s) with
      | none => rfl
      | some b =>
        obtain ⟨x, y, t, rfl, -⟩ := escape?_eq_some hesc
        simp [alwaysSafe, h] at hsafe
    rw [List.singleton_append, pieces_of_plain hne, decode_plain]
  · rw [pieces_escapeBytes (utf8 c) (fun b hb => utf8_lt hb), decode_utf8]

/-- What is written is safe, or part of an escape. -/
theorem mem_quote {d : Char} (h : d ∈ quote safe s) :
    alwaysSafe d = true ∨ d ∈ safe ∨ d = '%' := by
  obtain ⟨c, -, hd⟩ := List.mem_flatMap.mp h
  unfold quoteChar at hd
  split at hd
  · rename_i hsafe
    rw [List.mem_singleton.mp hd]
    rcases (Bool.or_eq_true _ _).mp hsafe with hsafe | hsafe
    · exact .inl hsafe
    · exact .inr (.inl (of_decide_eq_true hsafe))
  · obtain ⟨b, hb, hd⟩ := List.mem_flatMap.mp hd
    have hlt := utf8_lt hb
    have hdigit : ∀ n < 16, alwaysSafe (hexDigit n) = true := by decide
    simp only [escapeByte, List.mem_cons, List.not_mem_nil, or_false] at hd
    rcases hd with rfl | rfl | rfl
    · exact .inr (.inr rfl)
    · exact .inl (hdigit _ (by omega))
    · exact .inl (hdigit _ (by omega))

/-- **Decoding undoes encoding.** -/
theorem unquote_quote (h : '%' ∉ safe) (s : List Char) : unquote (quote safe s) = s := by
  unfold unquote quote
  induction s with
  | nil => rfl
  | cons c s ih => rw [List.flatMap_cons, decode_quoteChar h, ih]

end Quote

end Percent
