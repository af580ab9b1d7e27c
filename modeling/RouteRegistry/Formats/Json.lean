import Mathlib.Data.List.Basic
import Mathlib.Tactic.Common

/-!
# JSON documents and schemas

- `Json`: JSON values; an object is the list of its members.
- `Schema`: a schema as the sequence of its keywords, with the meaning the
  specification gives to `type`, `properties`, `required`, `items` and
  `minLength`. A keyword says nothing about values of other types.
- `Schema.accepts`: whether an instance satisfies every keyword.

Annotations (`title`, `description`, `$schema`) constrain nothing and have no
constructor.
-/

/-- JSON values. Numbers keep mantissa and decimal exponent. -/
inductive Json where
  | null
  | bool (b : Bool)
  | num (mantissa exponent : Int)
  | str (s : String)
  | arr (items : List Json)
  | obj (members : List (String × Json))

namespace Json

/-- The value types the keyword `type` names. -/
inductive Kind where
  | null | boolean | number | string | array | object
deriving DecidableEq, Repr

def kind : Json → Kind
  | null => .null
  | bool _ => .boolean
  | num _ _ => .number
  | str _ => .string
  | arr _ => .array
  | obj _ => .object

/-- The value of an object's member. -/
def member? (key : String) : Json → Option Json
  | obj members => (members.find? fun m => decide (m.1 = key)).map Prod.snd
  | _ => none

/-- The strings of an array of strings. -/
def strings? : Json → Option (List String)
  | arr items => items.mapM fun
    | str s => some s
    | _ => none
  | _ => none

/-- A schema: its keywords in sequence. -/
inductive Schema where
  | any
  | type (kind : Kind) (rest : Schema)
  | property (key : String) (sub : Schema) (rest : Schema)
  | required (key : String) (rest : Schema)
  | items (sub : Schema) (rest : Schema)
  | minLength (n : Nat) (rest : Schema)

/-- Whether an instance satisfies the schema. -/
def Schema.accepts : Schema → Json → Bool
  | .any, _ => true
  | .type k rest, j => decide (j.kind = k) && rest.accepts j
  | .property key sub rest, j =>
    (match j.member? key with
      | some v => sub.accepts v
      | none => true) && rest.accepts j
  | .required key rest, j =>
    (match j with
      | obj _ => (j.member? key).isSome
      | _ => true) && rest.accepts j
  | .items sub rest, j =>
    (match j with
      | arr xs => xs.all sub.accepts
      | _ => true) && rest.accepts j
  | .minLength n rest, j =>
    (match j with
      | str s => decide (n ≤ s.length)
      | _ => true) && rest.accepts j

/-- An instance of a schema with `type: object` has members. -/
theorem exists_obj_of_kind {j : Json} (h : j.kind = .object) : ∃ ms, j = obj ms := by
  cases j <;> first | exact ⟨_, rfl⟩ | cases h

theorem exists_arr_of_kind {j : Json} (h : j.kind = .array) : ∃ xs, j = arr xs := by
  cases j <;> first | exact ⟨_, rfl⟩ | cases h

theorem exists_str_of_kind {j : Json} (h : j.kind = .string) : ∃ s, j = str s := by
  cases j <;> first | exact ⟨_, rfl⟩ | cases h

/-- `type: array, items: {type: string}`. -/
def Schema.strings : Schema := .type .array (.items (.type .string .any) .any)

/-- What `Schema.strings` accepts reads back as a list of strings. -/
theorem strings?_isSome_of_accepts {j : Json} (h : Schema.strings.accepts j = true) :
    ∃ xs, j.strings? = some xs := by
  simp only [Schema.strings, Schema.accepts, Bool.and_eq_true, decide_eq_true_eq,
    Bool.and_true] at h
  obtain ⟨hk, hitems⟩ := h
  obtain ⟨items, rfl⟩ := exists_arr_of_kind hk
  simp only [List.all_eq_true, decide_eq_true_eq] at hitems
  clear hk
  induction items with
  | nil => exact ⟨[], rfl⟩
  | cons j rest ih =>
    obtain ⟨s, rfl⟩ := exists_str_of_kind (hitems j List.mem_cons_self)
    obtain ⟨xs, hxs⟩ := ih fun x hx => hitems x (List.mem_cons_of_mem _ hx)
    refine ⟨s :: xs, ?_⟩
    simp only [strings?] at hxs ⊢
    rw [List.mapM_cons, hxs]
    rfl

end Json
