import Mathlib.Data.List.Infix
import Mathlib.Tactic.Common

/-!
# Text operations

The string operations of the standard library that programs lean on, over the
characters of a string: substring test, lower-casing, splitting at a character,
and assembling a URL from its parts.

`splitAt_join` and `join_of_splitAt` are the round trip of splitting at a
separator: two parts come back exactly when they were joined by it.
-/

namespace Text

/-- `needle in hay`. -/
def contains (needle hay : String) : Bool := decide (needle.toList <:+: hay.toList)

/-- `s.lower()` on ASCII letters; other characters stay. -/
def lower (s : String) : String := String.ofList (s.toList.map Char.toLower)

/-- `s.split(sep)` for a one-character separator. -/
def splitAt (sep : Char) (s : String) : List String :=
  (s.toList.splitOn sep).map String.ofList

/-- An f-string field that may be `None`. -/
def fieldText : Option String → String
  | none => "None"
  | some s => s

@[simp] theorem fieldText_some (s : String) : fieldText (some s) = s := rfl

/-- Two separator-free parts joined by the separator split back into them. -/
theorem splitAt_join {sep : Char} {a b : String} (ha : sep ∉ a.toList) (hb : sep ∉ b.toList) :
    splitAt sep (a ++ String.singleton sep ++ b) = [a, b] := by
  unfold splitAt
  have hjoin : (a ++ String.singleton sep ++ b).toList
      = [sep].intercalate [a.toList, b.toList] := by
    simp [List.intercalate]
  rw [hjoin, List.splitOn_intercalate sep (by simp [ha, hb]) (by simp)]
  simp

/-- What splits into two parts is those parts joined by the separator. -/
theorem join_of_splitAt {sep : Char} {s a b : String} (h : splitAt sep s = [a, b]) :
    s = a ++ String.singleton sep ++ b := by
  obtain ⟨a', b', hs, rfl, rfl⟩ :
      ∃ a' b', s.toList.splitOn sep = [a', b'] ∧ String.ofList a' = a ∧ String.ofList b' = b := by
    unfold splitAt at h
    match hs : s.toList.splitOn sep, h with
    | [a', b'], h => exact ⟨a', b', rfl, by simpa using h⟩
  have hback : [sep].intercalate (s.toList.splitOn sep) = s.toList :=
    List.intercalate_splitOn sep
  rw [hs] at hback
  apply String.toList_inj.mp
  rw [← hback]
  simp [List.intercalate]

theorem mem_intercalate {c sep : Char} {parts : List (List Char)}
    (h : c ∈ [sep].intercalate parts) : c = sep ∨ ∃ part ∈ parts, c ∈ part := by
  induction parts with
  | nil => simp [List.intercalate] at h
  | cons part parts ih =>
    cases parts with
    | nil => exact .inr ⟨part, List.mem_cons_self, by simpa [List.intercalate] using h⟩
    | cons next parts =>
      rw [List.intercalate_cons_cons, List.mem_append, List.mem_append] at h
      rcases h with (hc | hc) | hc
      · exact .inr ⟨part, List.mem_cons_self, hc⟩
      · exact .inl (List.mem_singleton.mp hc)
      · rcases ih hc with hsep | ⟨p, hp, hcp⟩
        · exact .inl hsep
        · exact .inr ⟨p, List.mem_cons_of_mem part hp, hcp⟩

/-- Splitting loses separators only. -/
theorem mem_splitAt (sep : Char) {s : String} {c : Char} (h : c ∈ s.toList) :
    c = sep ∨ ∃ part ∈ splitAt sep s, c ∈ part.toList := by
  have hback : [sep].intercalate (s.toList.splitOn sep) = s.toList :=
    List.intercalate_splitOn sep
  rw [← hback] at h
  rcases mem_intercalate h with hsep | ⟨part, hpart, hc⟩
  · exact .inl hsep
  · exact .inr ⟨String.ofList part, List.mem_map_of_mem hpart, by simpa using hc⟩

/-- Two pairs of texts give the same text, each with a separator between its parts, exactly
when they are the same pair or the separator between one pair's parts stands inside the first
part of the other. -/
theorem joined_eq_iff {sep : Char} {a b m n : List Char} :
    a ++ sep :: m = b ++ sep :: n ↔
      (a = b ∧ m = n) ∨ (∃ w, b = a ++ sep :: w ∧ m = w ++ sep :: n) ∨
        ∃ w, a = b ++ sep :: w ∧ n = w ++ sep :: m := by
  -- what the longer first part has more is empty or starts with the separator
  have hlonger : ∀ {a b m n x : List Char}, b = a ++ x → sep :: m = x ++ sep :: n →
      (a = b ∧ m = n) ∨ ∃ w, b = a ++ sep :: w ∧ m = w ++ sep :: n := by
    intro a b m n x hb hm
    cases x with
    | nil =>
      rw [List.append_nil] at hb
      exact .inl ⟨hb.symm, (List.cons.inj hm).2⟩
    | cons c w =>
      obtain ⟨rfl, htail⟩ := List.cons.inj hm
      exact .inr ⟨w, hb, htail⟩
  constructor
  · intro h
    rcases List.append_eq_append_iff.mp h with ⟨x, hb, hm⟩ | ⟨x, ha, hn⟩
    · rcases hlonger hb hm with h | h
      · exact .inl h
      · exact .inr (.inl h)
    · rcases hlonger ha hn with ⟨hab, hmn⟩ | h
      · exact .inl ⟨hab.symm, hmn.symm⟩
      · exact .inr (.inr h)
  · rintro (⟨rfl, rfl⟩ | ⟨w, rfl, rfl⟩ | ⟨w, rfl, rfl⟩) <;> simp

/-- `if s:` for an optional string. -/
def truthy : Option String → Bool
  | some s => decide (s ≠ "")
  | none => false

/-- `s.replace(pat, "")`, scanning from the left; the number bounds the scan. -/
def removeSub (pat : List Char) : Nat → List Char → List Char
  | 0, s => s
  | _ + 1, [] => []
  | n + 1, c :: s =>
    if pat.isPrefixOf (c :: s) then removeSub pat n ((c :: s).drop pat.length)
    else c :: removeSub pat n s

/-- `s.strip("{}")`. -/
def stripBraces (s : List Char) : List Char :=
  let brace := fun c => decide (c = '{' ∨ c = '}')
  ((s.dropWhile brace).reverse.dropWhile brace).reverse

/-- The zeros of Unicode's decimal digits; each begins a run of ten. -/
def decimalZeros : List Nat :=
  [0x30, 0x660, 0x6f0, 0x7c0, 0x966, 0x9e6, 0xa66, 0xae6, 0xb66, 0xbe6, 0xc66, 0xce6, 0xd66,
    0xde6, 0xe50, 0xed0, 0xf20, 0x1040, 0x1090, 0x17e0, 0x1810, 0x1946, 0x19d0, 0x1a80, 0x1a90,
    0x1b50, 0x1bb0, 0x1c40, 0x1c50, 0xa620, 0xa8d0, 0xa900, 0xa9d0, 0xa9f0, 0xaa50, 0xabf0, 0xff10,
    0x104a0, 0x10d30, 0x11066, 0x110f0, 0x11136, 0x111d0, 0x112f0, 0x11450, 0x114d0, 0x11650,
    0x116c0, 0x11730, 0x118e0, 0x11950, 0x11c50, 0x11d50, 0x11da0, 0x16a60, 0x16ac0, 0x16b50,
    0x1d7ce, 0x1d7d8, 0x1d7e2, 0x1d7ec, 0x1d7f6, 0x1e140, 0x1e2f0, 0x1e950, 0x1fbf0]

/-- A digit of base 16: a letter up to `f`, or a decimal digit of any script. -/
def isHexDigit (c : Char) : Bool :=
  (decide ('a' ≤ c) && decide (c ≤ 'f')) || (decide ('A' ≤ c) && decide (c ≤ 'F')) ||
    decimalZeros.any fun z => decide (z ≤ c.toNat) && decide (c.toNat < z + 10)

/-- The blanks `int` strips off. -/
def isBlank (c : Char) : Bool :=
  let n := c.toNat
  (decide (0x9 ≤ n) && decide (n ≤ 0xd)) || (decide (0x2000 ≤ n) && decide (n ≤ 0x200a)) ||
    [0x20, 0x85, 0xa0, 0x1680, 0x2028, 0x2029, 0x202f, 0x205f, 0x3000].contains n

/-- Digits, with single underscores between them. -/
def digitsOnly : List Char → Bool
  | [] => false
  | [c] => isHexDigit c
  | c :: '_' :: s => isHexDigit c && digitsOnly s
  | c :: s => isHexDigit c && digitsOnly s

/-- What stands after the prefix `0x` and an underscore behind it; the zero may be of any
script. -/
def afterBasePrefix : List Char → List Char
  | z :: x :: s =>
    if decimalZeros.contains z.toNat && (decide (x = 'x') || decide (x = 'X')) then
      if s.head? = some '_' then s.tail else s
    else z :: x :: s
  | s => s

/-- Whether `int(s, 16)` parses: digits after an optional sign and an optional prefix, with
blanks around them. -/
def isHexInt (s : List Char) : Bool :=
  let s := ((s.dropWhile isBlank).reverse.dropWhile isBlank).reverse
  let s := if s.head? = some '+' ∨ s.head? = some '-' then s.tail else s
  digitsOnly (afterBasePrefix s)

/-- Whether `UUID(s)` parses: 32 characters that `int(_, 16)` reads, with hyphens, curly
braces and a URN prefix optional. -/
def isUuid (s : String) : Bool :=
  let n := s.length
  let hex := removeSub "urn:".toList n s.toList
  let hex := removeSub "uuid:".toList n hex
  let hex := (stripBraces hex).filter fun c => decide (c ≠ '-')
  decide (hex.length = 32) && isHexInt hex

/-- `urlunparse` of a scheme that takes an authority (`https`) with an empty parameter part, query
and fragment. An empty authority is written as well. -/
def urlunparse (scheme netloc path : String) : String :=
  let rooted :=
    if path ≠ "" ∧ path.toList.take 1 ≠ ['/'] then "/" ++ path else path
  scheme ++ ":" ++ ("//" ++ netloc ++ rooted)

end Text
