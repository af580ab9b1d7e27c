import RouteRegistry.Relational.Table

/-!
# Keys and schemas

A row gives a value or null for each column. A table has keys: its rows are given and
pairwise different on the columns of a primary key, and those that are given on the columns
of a unique constraint are pairwise different there (nulls are distinct).

- `inserts`: rows inserted one after the other, each checked against those before it.
  `accepts_iff` says which sequences go through.
- `Key.covers`: one key implies another. Schemas whose tables' keys cover each other take the
  same rows (`Schema.takes_iff_of_agreeExcept`).
- `Statement`: the statements that create and change keys, with the names PostgreSQL gives
  to constraints that have none.
-/

namespace Relational

/-! ## Rows and keys -/

/-- What a row gives for each column; `none` is null. -/
abbrev Row (C V : Type) := C → Option V

inductive Key (C : Type) where
  | primary (columns : List C)
  | unique (columns : List C)
deriving DecidableEq, Repr

section Keys

variable {C V : Type}

def Key.columns : Key C → List C
  | primary columns => columns
  | unique columns => columns

def Key.isPrimary : Key C → Bool
  | primary _ => true
  | unique _ => false

def Key.map {C' : Type} (f : C → C') : Key C → Key C'
  | primary columns => .primary (columns.map f)
  | unique columns => .unique (columns.map f)

def Row.values (columns : List C) (r : Row C V) : List (Option V) := columns.map r

/-- The row is given on the columns. -/
def Row.complete (columns : List C) (r : Row C V) : Bool := columns.all fun c => (r c).isSome

theorem Row.complete_iff {columns : List C} {r : Row C V} :
    r.complete columns = true ↔ ∀ c ∈ columns, ∃ v, r c = some v := by
  unfold Row.complete
  simp [List.all_eq_true, Option.isSome_iff_exists]

theorem Row.complete_congr {columns : List C} {r r' : Row C V}
    (h : r.values columns = r'.values columns) : r.complete columns = r'.complete columns := by
  have hvalues : ∀ r : Row C V, r.complete columns = (r.values columns).all Option.isSome := by
    intro r
    unfold Row.complete Row.values
    rw [List.all_map]
    rfl
  rw [hvalues, hvalues, h]

/-- The key lets a row into a table. -/
def Key.Admits (t : List (Row C V)) (r : Row C V) : Key C → Prop
  | primary columns =>
    r.complete columns = true ∧ ∀ r' ∈ t, r'.values columns ≠ r.values columns
  | unique columns =>
    r.complete columns = true → ∀ r' ∈ t, r'.values columns ≠ r.values columns

/-- What a key says of a table. -/
def Key.Holds (t : List (Row C V)) : Key C → Prop
  | primary columns => (∀ r ∈ t, r.complete columns = true) ∧ Keyed (Row.values columns) t
  | unique columns => Keyed (Row.values columns) (t.filter (Row.complete columns))

theorem Key.holds_nil (k : Key C) : k.Holds ([] : List (Row C V)) := by
  cases k with
  | primary columns => exact ⟨by simp, List.nodup_nil⟩
  | unique columns => exact List.nodup_nil

theorem Key.holds_append_single {k : Key C} {t : List (Row C V)} {r : Row C V} :
    k.Holds (t ++ [r]) ↔ k.Holds t ∧ k.Admits t r := by
  cases k with
  | primary columns =>
    simp only [Holds, Admits]
    rw [keyed_append_single, List.forall_mem_append, List.forall_mem_singleton, List.mem_map]
    constructor
    · rintro ⟨⟨hall, hr⟩, hkeyed, hnew⟩
      exact ⟨⟨hall, hkeyed⟩, hr, fun r' hr' hsame => hnew ⟨r', hr', hsame⟩⟩
    · rintro ⟨⟨hall, hkeyed⟩, hr, hnew⟩
      refine ⟨⟨hall, hr⟩, hkeyed, ?_⟩
      rintro ⟨r', hr', hsame⟩
      exact hnew r' hr' hsame
  | unique columns =>
    simp only [Holds, Admits]
    rw [List.filter_append]
    by_cases hr : r.complete columns = true
    · rw [List.filter_cons_of_pos hr, List.filter_nil, keyed_append_single]
      refine and_congr_right fun _ => ?_
      constructor
      · intro hnew _ r' hr' hsame
        -- a row with the same values is given on the columns, too
        have hcomplete : r'.complete columns = true := by
          rw [Row.complete_congr hsame]
          exact hr
        exact hnew (List.mem_map.mpr ⟨r', List.mem_filter.mpr ⟨hr', hcomplete⟩, hsame⟩)
      · intro hnew hmem
        obtain ⟨r', hr', hsame⟩ := List.mem_map.mp hmem
        exact hnew hr r' (List.mem_of_mem_filter hr') hsame
    · rw [List.filter_cons_of_neg hr, List.filter_nil, List.append_nil]
      exact ⟨fun h => ⟨h, fun hcomplete => absurd hcomplete hr⟩, fun h => h.1⟩

/-- The beginning of a table with a key has it. -/
theorem Key.Holds.of_append {k : Key C} {t u : List (Row C V)} (h : k.Holds (t ++ u)) :
    k.Holds t := by
  cases k with
  | primary columns =>
    obtain ⟨hall, hkeyed⟩ := h
    exact ⟨fun r hr => hall r (List.mem_append_left u hr), (keyed_append.mp hkeyed).1⟩
  | unique columns =>
    simp only [Holds] at h ⊢
    rw [List.filter_append] at h
    exact (keyed_append.mp h).1

/-! ## One key implies another -/

/-- A key covers a unique constraint on its columns and more. -/
def Key.covers [DecidableEq C] (k : Key C) : Key C → Bool
  | unique columns => k.columns.all fun c => decide (c ∈ columns)
  | primary columns => decide (k = primary columns)

/-- Rows that differ in some of the columns differ in the columns. -/
theorem Keyed.of_subset {columns columns' : List C} {t : List (Row C V)}
    (hsub : ∀ c ∈ columns, c ∈ columns') (h : Keyed (Row.values columns) t) :
    Keyed (Row.values columns') t := by
  unfold Keyed List.Nodup at *
  rw [List.pairwise_map] at *
  refine h.imp fun {r r'} hne hsame => hne ?_
  refine List.map_congr_left fun c hc => ?_
  exact List.map_inj_left.mp hsame c (hsub c hc)

theorem Key.Holds.of_covers [DecidableEq C] {k k' : Key C} {t : List (Row C V)}
    (hcovers : k.covers k' = true) (h : k.Holds t) : k'.Holds t := by
  cases k' with
  | primary columns =>
    obtain rfl : k = primary columns := of_decide_eq_true hcovers
    exact h
  | unique columns =>
    have hsub : ∀ c ∈ k.columns, c ∈ columns := by
      intro c hc
      exact of_decide_eq_true (List.all_eq_true.mp hcovers c hc)
    -- the rows that are given on more columns are among those given on fewer
    have hfewer : (t.filter (Row.complete columns)).Sublist
        (t.filter (Row.complete k.columns)) := by
      refine List.monotone_filter_right t fun r hr => ?_
      rw [Row.complete_iff] at hr ⊢
      exact fun c hc => hr c (hsub c hc)
    refine Keyed.of_subset hsub ?_
    cases k with
    | primary columns' => exact h.2.filter _
    | unique columns' => exact (hfewer.map _).nodup h

/-! ## Inserts -/

section Inserts

variable [DecidableEq V]

instance (t : List (Row C V)) (r : Row C V) : (k : Key C) → Decidable (k.Admits t r)
  | .primary columns =>
    inferInstanceAs (Decidable (r.complete columns = true ∧
      ∀ r' ∈ t, r'.values columns ≠ r.values columns))
  | .unique columns =>
    inferInstanceAs (Decidable (r.complete columns = true →
      ∀ r' ∈ t, r'.values columns ≠ r.values columns))

/-- Rows inserted into a table with the keys, each checked against the rows before it. -/
def inserts (ks : List (Key C)) : List (Row C V) → List (Row C V) → Option (List (Row C V))
  | t, [] => some t
  | t, r :: rows => if ∀ k ∈ ks, k.Admits t r then inserts ks (t ++ [r]) rows else none

/-- The whole sequence goes into an empty table. -/
def Accepts (ks : List (Key C)) (rows : List (Row C V)) : Prop := (inserts ks [] rows).isSome

theorem inserts_isSome_iff {ks : List (Key C)} {t rows : List (Row C V)}
    (h : ∀ k ∈ ks, k.Holds t) :
    (inserts ks t rows).isSome ↔ ∀ k ∈ ks, k.Holds (t ++ rows) := by
  induction rows generalizing t with
  | nil =>
    rw [List.append_nil]
    exact iff_of_true rfl h
  | cons r rows ih =>
    unfold inserts
    have happ : t ++ r :: rows = (t ++ [r]) ++ rows := by simp
    by_cases hadmits : ∀ k ∈ ks, k.Admits t r
    · rw [if_pos hadmits, happ]
      exact ih fun k hk => Key.holds_append_single.mpr ⟨h k hk, hadmits k hk⟩
    · rw [if_neg hadmits]
      refine iff_of_false (by simp) fun hall => hadmits fun k hk => ?_
      have := hall k hk
      rw [happ] at this
      exact (Key.holds_append_single.mp (Key.Holds.of_append this)).2

/-- **Which inserts go through.** A sequence of rows is accepted exactly when every key holds
of it as a table. -/
theorem accepts_iff {ks : List (Key C)} {rows : List (Row C V)} :
    Accepts ks rows ↔ ∀ k ∈ ks, k.Holds rows :=
  inserts_isSome_iff fun k _ => k.holds_nil

/-- Each of the second keys is covered by one of the first. -/
def coverAll [DecidableEq C] (ks ks' : List (Key C)) : Bool :=
  ks'.all fun k' => ks.any fun k => k.covers k'

theorem Accepts.of_coverAll [DecidableEq C] {ks ks' : List (Key C)} {rows : List (Row C V)}
    (hcover : coverAll ks ks' = true) (h : Accepts ks rows) : Accepts ks' rows := by
  rw [accepts_iff] at h ⊢
  intro k' hk'
  obtain ⟨k, hk, hcovers⟩ := List.any_eq_true.mp (List.all_eq_true.mp hcover k' hk')
  exact (h k hk).of_covers hcovers

end Inserts

end Keys

/-! ## Schemas -/

/-- A table: its columns, and its keys under their constraints' names. -/
structure TableDef where
  name : String
  columns : List String
  constraints : List (String × Key String)
deriving DecidableEq, Repr

def TableDef.keys (t : TableDef) : List (Key String) := t.constraints.map Prod.snd

abbrev Schema := List TableDef

namespace Schema

/-- The rows go into the table of that name, one after the other. -/
def Takes {V : Type} [DecidableEq V] (s : Schema) (name : String) (rows : List (Row String V)) :
    Prop :=
  ∃ t, lookup TableDef.name name s = some t ∧ Accepts t.keys rows

/-- The keys of the table decide. -/
theorem takes_iff_of_keys {V : Type} [DecidableEq V] {s : Schema} {name : String}
    {ks : List (Key String)} (h : (lookup TableDef.name name s).map TableDef.keys = some ks)
    (rows : List (Row String V)) : s.Takes name rows ↔ Accepts ks rows := by
  obtain ⟨t, ht, rfl⟩ := Option.map_eq_some_iff.mp h
  constructor
  · rintro ⟨t', ht', haccepts⟩
    rw [ht] at ht'
    cases ht'
    exact haccepts
  · intro haccepts
    exact ⟨t, ht, haccepts⟩

/-- Apart from one table, the schemas have the same tables, whose keys cover each other. -/
def agreeExcept (name : String) (s s' : Schema) : Bool :=
  (s.all fun t => decide (t.name = name) ||
    match lookup TableDef.name t.name s' with
    | some t' => coverAll t.keys t'.keys && coverAll t'.keys t.keys
    | none => false) &&
  s'.all fun t' => (lookup TableDef.name t'.name s).isSome

/-- Schemas that agree take the same rows. -/
theorem takes_iff_of_agreeExcept {V : Type} [DecidableEq V] {s s' : Schema} {name other : String}
    (h : agreeExcept other s s' = true) (hne : name ≠ other) (rows : List (Row String V)) :
    s.Takes name rows ↔ s'.Takes name rows := by
  obtain ⟨htables, hnames⟩ := Bool.and_eq_true_iff.mp h
  have htable : ∀ t, lookup TableDef.name name s = some t →
      ∃ t', lookup TableDef.name name s' = some t' ∧ coverAll t.keys t'.keys = true ∧
        coverAll t'.keys t.keys = true := by
    intro t ht
    obtain ⟨hmem, hname⟩ := lookup_mem ht
    have hagree := List.all_eq_true.mp htables t hmem
    rw [hname] at hagree
    cases ht' : lookup TableDef.name name s' with
    | none => simp [ht', hne] at hagree
    | some t' =>
      simp only [ht', hne, decide_false, Bool.false_or, Bool.and_eq_true] at hagree
      exact ⟨t', rfl, hagree.1, hagree.2⟩
  constructor
  · rintro ⟨t, ht, haccepts⟩
    obtain ⟨t', ht', hcover, -⟩ := htable t ht
    exact ⟨t', ht', haccepts.of_coverAll hcover⟩
  · rintro ⟨t', ht', haccepts⟩
    obtain ⟨hmem, hname⟩ := lookup_mem ht'
    obtain ⟨t, ht⟩ := Option.isSome_iff_exists.mp (List.all_eq_true.mp hnames t' hmem)
    rw [hname] at ht
    obtain ⟨t'', ht'', -, hback⟩ := htable t ht
    rw [ht'] at ht''
    cases ht''
    exact ⟨t, ht, haccepts.of_coverAll hback⟩

end Schema

/-! ## Statements -/

/-- Statements about tables, columns and keys. A key without a name gets one. -/
inductive Statement where
  | createTable (name : String) (columns : List String) (keys : List (Key String))
  | addColumn (table column : String)
  | renameColumn (table column newName : String)
  | addUnique (name : Option String) (table : String) (columns : List String)
  | dropConstraint (name table : String)
deriving DecidableEq, Repr

/-- What PostgreSQL calls the constraint of a key. -/
def Key.defaultName (table : String) : Key String → String
  | primary _ => table ++ "_pkey"
  | unique columns => table ++ "_" ++ "_".intercalate columns ++ "_key"

/-- A name that is not taken: the given one, or that with a number. -/
def chooseName (taken : List String) (base : String) : String :=
  if base ∉ taken then base
  else
    let numbered := (List.range (taken.length + 1)).map fun n => base ++ toString (n + 1)
    (numbered.find? fun name => decide (name ∉ taken)).getD base

/-- `CREATE TABLE` keeps one key for each list of columns: the primary key, or else the one
stated first. -/
def mergeKeys (ks : List (Key String)) : List (Key String) :=
  (ks.filter Key.isPrimary ++ ks.filter fun k => !k.isPrimary).foldl
    (fun kept k => if k.columns ∈ kept.map Key.columns then kept else kept ++ [k]) []

namespace Schema

/-- Tables and constraints share their names. -/
def names (s : Schema) : List String :=
  s.flatMap fun t => t.name :: t.constraints.map Prod.fst

/-- Change one table; without it, or where the change fails, the statement fails. -/
def alter (s : Schema) (table : String) (f : TableDef → Option TableDef) : Option Schema := do
  let t ← lookup TableDef.name table s
  let t' ← f t
  return modify TableDef.name table (fun _ => t') s

def nameKeys (table : String) (taken : List String) (ks : List (Key String)) :
    List (String × Key String) :=
  ks.foldl (fun named k =>
    named ++ [(chooseName (taken ++ named.map Prod.fst) (k.defaultName table), k)]) []

def execute (s : Schema) : Statement → Option Schema
  | .createTable name columns ks =>
    if name ∈ s.names ∨ ¬ columns.Nodup ∨ 1 < (ks.filter Key.isPrimary).length ∨
        ∃ k ∈ ks, ∃ c ∈ k.columns, c ∉ columns then none
    else some (s ++ [⟨name, columns, nameKeys name (name :: s.names) (mergeKeys ks)⟩])
  | .addColumn table column =>
    s.alter table fun t =>
      if column ∈ t.columns then none else some { t with columns := t.columns ++ [column] }
  | .renameColumn table column newName =>
    let rename := fun c => if c = column then newName else c
    s.alter table fun t =>
      if column ∉ t.columns ∨ newName ∈ t.columns then none
      else some { t with
        columns := t.columns.map rename
        constraints := t.constraints.map fun p => (p.1, p.2.map rename) }
  | .addUnique name table columns =>
    s.alter table fun t =>
      let key := Key.unique columns
      let given := name.getD (chooseName s.names (key.defaultName table))
      if given ∈ s.names ∨ ∃ c ∈ columns, c ∉ t.columns then none
      else some { t with constraints := t.constraints ++ [(given, key)] }
  | .dropConstraint name table =>
    s.alter table fun t =>
      if name ∉ t.constraints.map Prod.fst then none
      else some { t with constraints := t.constraints.filter fun p => decide (p.1 ≠ name) }

/-- Statements in order; the first that fails ends the run. -/
def executeAll (s : Schema) (statements : List Statement) : Option Schema :=
  statements.foldlM execute s

end Schema

end Relational
