import RouteRegistry.Relational.Runs
import RouteRegistry.Relational.Schema

/-!
# Populated databases

Statements that change the tables of a database act on its rows as well, and some of them
fail on rows that are already there: a column that is `NOT NULL` and has no default cannot
be added to a table with rows, and a constraint is added only where the rows satisfy it.

- `Catalog`: tables, columns, keys, foreign keys and enumeration types. Tables and keys are
  those of `Schema`, which an operation changes by its statements.
- `Operation.Admits`: what an operation demands of the rows; `Operation.apply`: what it does
  to them.
- `Populated.execute`: both, as one step.

A run is decided in two parts, the catalogs and the rows (`run_execute_of_admits`). An
operation writes few columns, and keeps the others of every row (`Operation.onRow_keeps`).
-/

namespace Relational

open Runs

inductive Value where
  | text (s : String)
  | boolean (b : Bool)
  | timestamp (t : Int)
deriving DecidableEq, Repr

inductive ColumnType where
  | varchar (length : Nat)
  | boolean
  | timestamp
  | enum (name : String)
deriving DecidableEq, Repr

structure ColumnDef where
  name : String
  type : ColumnType
  notNull : Bool := false
  default : Option Value := none
deriving DecidableEq, Repr

structure ForeignKey where
  name : String
  table : String
  columns : List String
  target : String
  targetColumns : List String
deriving DecidableEq, Repr

structure Catalog where
  schema : Schema := []
  /-- Each column with its table. -/
  columns : List (String × ColumnDef) := []
  foreignKeys : List ForeignKey := []
  /-- Enumeration types with their labels. -/
  types : List (String × List String) := []
deriving DecidableEq, Repr

/-- The rows of each table. -/
abbrev Rows := String → List (Row String Value)

structure Populated where
  catalog : Catalog
  rows : Rows

inductive Operation where
  | createType (name : String) (labels : List String)
  | renameType (name newName : String)
  | dropType (name : String)
  | createTable (name : String) (columns : List ColumnDef) (keys : List (Key String))
      (foreignKeys : List ForeignKey)
  | addColumn (table : String) (column : ColumnDef)
  /-- `UPDATE … SET column = now() WHERE column IS NULL`. -/
  | fillNow (table column : String)
  | setNotNull (table column : String)
  | dropDefault (table column : String)
  | renameColumn (table column newName : String)
  | addUnique (name : Option String) (table : String) (columns : List String)
  | dropConstraint (name table : String)
  | addForeignKey (fk : ForeignKey)
  /-- `ALTER COLUMN … TYPE type USING column::text::type`. -/
  | retype (table column type : String)
deriving DecidableEq, Repr

/-! ## Catalogs -/

/-- The statements about tables and keys an operation comes down to. -/
def Operation.statements : Operation → List Statement
  | createTable name columns keys _ => [.createTable name (columns.map ColumnDef.name) keys]
  | addColumn table column => [.addColumn table column.name]
  | renameColumn table column newName => [.renameColumn table column newName]
  | addUnique name table columns => [.addUnique name table columns]
  | dropConstraint name table => [.dropConstraint name table]
  | _ => []

def labelsOf (types : List (String × List String)) (name : String) : Option (List String) :=
  (lookup Prod.fst name types).map Prod.snd

def ColumnType.known (types : List (String × List String)) : ColumnType → Bool
  | enum name => (labelsOf types name).isSome
  | _ => true

/-- The value is one of the type. -/
def ColumnType.Fits (types : List (String × List String)) : ColumnType → Value → Prop
  | varchar length, .text s => s.length ≤ length
  | boolean, .boolean _ => True
  | timestamp, .timestamp _ => True
  | enum name, .text s => ∃ labels ∈ labelsOf types name, s ∈ labels
  | _, _ => False

instance (types : List (String × List String)) :
    (type : ColumnType) → (v : Value) → Decidable (type.Fits types v)
  | .varchar length, .text s => inferInstanceAs (Decidable (s.length ≤ length))
  | .boolean, .boolean _ => inferInstanceAs (Decidable True)
  | .timestamp, .timestamp _ => inferInstanceAs (Decidable True)
  | .enum name, .text s =>
    inferInstanceAs (Decidable (∃ labels ∈ labelsOf types name, s ∈ labels))
  | .varchar _, .boolean _ | .varchar _, .timestamp _ | .boolean, .text _
  | .boolean, .timestamp _ | .timestamp, .text _ | .timestamp, .boolean _ | .enum _, .boolean _
  | .enum _, .timestamp _ => inferInstanceAs (Decidable False)

namespace Catalog

/-- Every table has a row type, which shares the names of types. -/
def typeNames (cat : Catalog) : List String :=
  cat.schema.map TableDef.name ++ cat.types.map Prod.fst

def HasColumn (cat : Catalog) (table column : String) : Prop :=
  (table, column) ∈ cat.columns.map fun p => (p.1, p.2.name)

instance (cat : Catalog) (table column : String) : Decidable (cat.HasColumn table column) :=
  inferInstanceAs (Decidable (_ ∈ _))

/-- The type of the column is known, and its default is of that type. -/
def Declares (cat : Catalog) (column : ColumnDef) : Prop :=
  column.type.known cat.types = true ∧ ∀ v ∈ column.default, column.type.Fits cat.types v

instance (cat : Catalog) (column : ColumnDef) : Decidable (cat.Declares column) :=
  inferInstanceAs (Decidable (_ ∧ _))

/-- The columns are there, and those referred to are a key of their table. -/
def Refers (cat : Catalog) (fk : ForeignKey) : Prop :=
  (∀ c ∈ fk.columns, cat.HasColumn fk.table c) ∧
    fk.columns.length = fk.targetColumns.length ∧
    (∃ t ∈ cat.schema, t.name = fk.target ∧ ∃ k ∈ t.keys, k.columns = fk.targetColumns) ∧
    (∀ t ∈ cat.schema, t.name = fk.table → fk.name ∉ t.constraints.map Prod.fst) ∧
    ∀ fk' ∈ cat.foreignKeys, fk'.table = fk.table → fk'.name ≠ fk.name

instance (cat : Catalog) (fk : ForeignKey) : Decidable (cat.Refers fk) :=
  inferInstanceAs (Decidable (_ ∧ _))

/-- Change the definition of a column. -/
def setColumn (cat : Catalog) (table column : String) (f : ColumnDef → ColumnDef) : Catalog :=
  { cat with columns := cat.columns.map fun p =>
      if p.1 = table ∧ p.2.name = column then (p.1, f p.2) else p }

def addForeignKey (cat : Catalog) (fk : ForeignKey) : Option Catalog :=
  if cat.Refers fk then some { cat with foreignKeys := cat.foreignKeys ++ [fk] } else none

/-- What an operation does to columns, foreign keys and types. -/
def change (cat : Catalog) : Operation → Option Catalog
  | .createType name labels =>
    if name ∈ cat.typeNames ∨ ¬ labels.Nodup then none
    else some { cat with types := cat.types ++ [(name, labels)] }
  | .renameType name newName =>
    if name ∉ cat.types.map Prod.fst ∨ newName ∈ cat.typeNames then none
    else some { cat with
      types := cat.types.map fun p => if p.1 = name then (newName, p.2) else p
      columns := cat.columns.map fun p =>
        if p.2.type = .enum name then (p.1, { p.2 with type := .enum newName }) else p }
  | .dropType name =>
    if name ∉ cat.types.map Prod.fst ∨ ∃ p ∈ cat.columns, p.2.type = .enum name then none
    else some { cat with types := cat.types.filter fun p => decide (p.1 ≠ name) }
  | .createTable name columns _ foreignKeys =>
    if name ∈ cat.types.map Prod.fst ∨ ∃ c ∈ columns, ¬ cat.Declares c then none
    else foreignKeys.foldlM addForeignKey
      { cat with columns := cat.columns ++ columns.map fun c => (name, c) }
  | .addColumn table column =>
    if cat.Declares column then some { cat with columns := cat.columns ++ [(table, column)] }
    else none
  | .fillNow table column =>
    if cat.HasColumn table column then some cat else none
  | .setNotNull table column =>
    if cat.HasColumn table column then
      some (cat.setColumn table column fun c => { c with notNull := true })
    else none
  | .dropDefault table column =>
    if cat.HasColumn table column then
      some (cat.setColumn table column fun c => { c with default := none })
    else none
  | .renameColumn table column newName =>
    let rename := fun t c => if t = table ∧ c = column then newName else c
    some { cat.setColumn table column fun c => { c with name := newName } with
      foreignKeys := cat.foreignKeys.map fun fk => { fk with
        columns := fk.columns.map (rename fk.table)
        targetColumns := fk.targetColumns.map (rename fk.target) } }
  | .addForeignKey fk => cat.addForeignKey fk
  | .retype table column type =>
    if cat.HasColumn table column ∧ (labelsOf cat.types type).isSome then
      some (cat.setColumn table column fun c => { c with type := .enum type })
    else none
  | .addUnique _ _ _ | .dropConstraint _ _ => some cat

/-- An operation on the catalog: first tables and keys, then the rest. -/
def execute (cat : Catalog) (op : Operation) : Option Catalog := do
  let schema ← cat.schema.executeAll op.statements
  { cat with schema := schema }.change op

end Catalog

/-! ## Rows -/

/-- The rows that are given on the columns of the key are found in the other table. -/
def ForeignKey.Holds (rows : Rows) (fk : ForeignKey) : Prop :=
  ∀ r ∈ rows fk.table, r.complete fk.columns = true →
    ∃ r' ∈ rows fk.target, r'.values fk.targetColumns = r.values fk.columns

instance (rows : Rows) (fk : ForeignKey) : Decidable (fk.Holds rows) :=
  inferInstanceAs (Decidable (∀ r ∈ rows fk.table, r.complete fk.columns = true →
    ∃ r' ∈ rows fk.target, r'.values fk.targetColumns = r.values fk.columns))

instance (t : List (Row String Value)) : (k : Key String) → Decidable (k.Holds t)
  | .primary columns =>
    inferInstanceAs (Decidable ((∀ r ∈ t, r.complete columns = true) ∧
      (t.map (Row.values columns)).Nodup))
  | .unique columns =>
    inferInstanceAs (Decidable ((t.filter (Row.complete columns)).map (Row.values columns)).Nodup)

namespace Operation

/-- What an operation demands of the rows; `cat` is the catalog it leads to. -/
def Admits (cat : Catalog) (rows : Rows) : Operation → Prop
  | addColumn table column => column.notNull = true → column.default = none → rows table = []
  | setNotNull table column => ∀ r ∈ rows table, (r column).isSome = true
  | addUnique _ table columns => (Key.unique columns).Holds (rows table)
  | addForeignKey fk => fk.Holds rows
  | retype table column type =>
    ∀ r ∈ rows table, ∀ v ∈ r column, (ColumnType.enum type).Fits cat.types v
  | _ => True

instance (cat : Catalog) (rows : Rows) : (op : Operation) → Decidable (op.Admits cat rows)
  | addColumn table column =>
    have : Decidable (rows table = []) := decidable_of_iff _ List.isEmpty_iff
    inferInstanceAs (Decidable (column.notNull = true → column.default = none → rows table = []))
  | setNotNull table column =>
    inferInstanceAs (Decidable (∀ r ∈ rows table, (r column).isSome = true))
  | addUnique _ table columns =>
    inferInstanceAs (Decidable ((Key.unique columns).Holds (rows table)))
  | addForeignKey fk => inferInstanceAs (Decidable (fk.Holds rows))
  | retype table column type =>
    inferInstanceAs (Decidable (∀ r ∈ rows table, ∀ v ∈ r column,
      (ColumnType.enum type).Fits cat.types v))
  | createType _ _ | renameType _ _ | dropType _ | createTable _ _ _ _ | fillNow _ _
  | dropDefault _ _ | renameColumn _ _ _ | dropConstraint _ _ => isTrue trivial

/-- The table whose rows the operation looks at. -/
def looksAt : Operation → Option String
  | addColumn table _ | setNotNull table _ | addUnique _ table _ | retype table _ _ => some table
  | addForeignKey fk => some fk.table
  | _ => none

/-- The table the operation creates. -/
def creates : Operation → Option String
  | createTable name _ _ _ => some name
  | _ => none

/-- What the operation makes of a row of the table. -/
def onRow (now : Value) (table : String) (r : Row String Value) : Operation → Row String Value
  | addColumn t column => if t = table then Function.update r column.name column.default else r
  | fillNow t column =>
    if t = table ∧ r column = none then Function.update r column (some now) else r
  | renameColumn t column newName =>
    if t = table then Function.update (Function.update r column none) newName (r column) else r
  | _ => r

/-- The columns of the table the operation writes. -/
def writes (table : String) : Operation → List String
  | addColumn t column => if t = table then [column.name] else []
  | fillNow t column => if t = table then [column] else []
  | renameColumn t column newName => if t = table then [column, newName] else []
  | _ => []

def apply (now : Value) (op : Operation) (rows : Rows) : Rows := fun table =>
  if op.creates = some table then [] else (rows table).map fun r => op.onRow now table r

variable {now : Value} {op : Operation} {table column : String} {rows : Rows} {cat : Catalog}

/-- Without rows there is nothing to refuse. -/
theorem admits_of_empty (h : ∀ t ∈ op.looksAt, rows t = []) : op.Admits cat rows := by
  cases op with
  | addColumn t column => exact fun _ _ => h t rfl
  | setNotNull t column | retype t column type =>
    have hempty := h t rfl
    simp [Admits, hempty]
  | addUnique name t columns =>
    have hempty := h t rfl
    simp only [Admits, hempty]
    exact Key.holds_nil _
  | addForeignKey fk =>
    have hempty := h fk.table rfl
    simp [Admits, ForeignKey.Holds, hempty]
  | _ => trivial

/-- A column the operation does not write stays as it is. -/
theorem onRow_keeps {r : Row String Value} (h : column ∉ op.writes table) :
    op.onRow now table r column = r column := by
  cases op with
  | addColumn t c =>
    by_cases ht : t = table
    · simp only [writes, ht, if_true, List.mem_singleton] at h
      simp [onRow, ht, h]
    · simp [onRow, ht]
  | fillNow t c =>
    by_cases ht : t = table ∧ r c = none
    · simp only [writes, ht.1, if_true, List.mem_singleton] at h
      simp [onRow, ht, h]
    · simp [onRow, ht]
  | renameColumn t c newName =>
    by_cases ht : t = table
    · simp only [writes, ht, if_true, List.mem_cons, List.not_mem_nil, or_false, not_or] at h
      simp [onRow, ht, h.1, h.2]
    · simp [onRow, ht]
  | _ => rfl

theorem apply_of_not_creates (h : op.creates ≠ some table) :
    op.apply now rows table = (rows table).map fun r => op.onRow now table r :=
  if_neg h

theorem apply_empty (h : rows table = []) : op.apply now rows table = [] := by
  unfold apply
  rw [h, List.map_nil, ite_self]

end Operation

/-! ## Runs -/

/-- One operation; the catalog or the rows can refuse it. -/
def Populated.execute (now : Value) (db : Populated) (op : Operation) : Option Populated :=
  match db.catalog.execute op with
  | none => none
  | some cat => if op.Admits cat db.rows then some ⟨cat, op.apply now db.rows⟩ else none

section Runs

variable {now : Value} {db db' : Populated} {op : Operation} {ops : List Operation}
  {table : String}

theorem Populated.execute_eq_some_iff :
    db.execute now op = some db' ↔
      db.catalog.execute op = some db'.catalog ∧ op.Admits db'.catalog db.rows ∧
        db'.rows = op.apply now db.rows := by
  obtain ⟨cat', rows'⟩ := db'
  unfold Populated.execute
  cases db.catalog.execute op with
  | none => simp
  | some cat =>
    by_cases hadmits : op.Admits cat db.rows
    · simp only [hadmits, if_true, Option.some.injEq, Populated.mk.injEq]
      constructor
      · rintro ⟨rfl, rfl⟩
        exact ⟨rfl, hadmits, rfl⟩
      · rintro ⟨rfl, -, rfl⟩
        exact ⟨rfl, rfl⟩
    · simp only [hadmits, if_false, reduceCtorEq, Option.some.injEq, false_iff]
      rintro ⟨rfl, h, -⟩
      exact hadmits h

/-- A run goes through when the catalogs do and the rows are admitted on the way. -/
theorem run_execute_of_admits {cat cat' : Catalog} {rows : Rows}
    (hcat : run Catalog.execute cat ops = some cat')
    (hrows : Along (fun rows op => some (op.apply now rows))
      (fun rows op => ∀ cat, op.Admits cat rows) rows ops) :
    ∃ rows', run (Populated.execute now) ⟨cat, rows⟩ ops = some ⟨cat', rows'⟩ := by
  induction ops generalizing cat rows with
  | nil =>
    cases hcat
    exact ⟨rows, rfl⟩
  | cons op ops ih =>
    obtain ⟨cat₁, hstep, hrest⟩ := run_cons_eq_some.mp hcat
    obtain ⟨hadmits, hrows'⟩ := hrows.cons rfl
    obtain ⟨rows', hrun⟩ := ih hrest hrows'
    refine ⟨rows', (run_cons ?_).trans hrun⟩
    exact Populated.execute_eq_some_iff.mpr ⟨hstep, hadmits cat₁, rfl⟩

/-- A run keeps each row of a table it does not create, in the columns it does not write. -/
theorem run_execute_keeps (hrun : run (Populated.execute now) db ops = some db')
    (hcreates : ∀ op ∈ ops, op.creates ≠ some table) :
    ∀ r ∈ db.rows table, ∃ r' ∈ db'.rows table,
      ∀ column, (∀ op ∈ ops, column ∉ op.writes table) → r' column = r column := by
  refine run_keeps (I := fun db₁ : Populated => ∀ r ∈ db.rows table, ∃ r' ∈ db₁.rows table,
    ∀ column, (∀ op ∈ ops, column ∉ op.writes table) → r' column = r column)
    (P := fun _ op => op ∈ ops) ?_ (along_of_forall fun op hop => hop) hrun
    fun r hr => ⟨r, hr, fun _ _ => rfl⟩
  intro db₁ op db₂ hkept hop hstep r hr
  obtain ⟨r₁, hr₁, hsame⟩ := hkept r hr
  obtain ⟨-, -, hrows⟩ := Populated.execute_eq_some_iff.mp hstep
  refine ⟨op.onRow now table r₁, ?_, fun column hcolumn => ?_⟩
  · rw [hrows, Operation.apply_of_not_creates (hcreates op hop)]
    exact List.mem_map_of_mem hr₁
  · rw [Operation.onRow_keeps (hcolumn op hop)]
    exact hsame column hcolumn

/-- A table with rows takes no column that is `NOT NULL` and has no default. -/
theorem run_addColumn_refused {before after : List Operation} {column : ColumnDef}
    (hsplit : ops = before ++ .addColumn table column :: after) (hnull : column.notNull = true)
    (hdefault : column.default = none) (hcreates : ∀ op ∈ before, op.creates ≠ some table)
    (hrows : db.rows table ≠ []) : run (Populated.execute now) db ops = none := by
  cases hrun : run (Populated.execute now) db ops with
  | none => rfl
  | some db' =>
    rw [hsplit, run_append] at hrun
    obtain ⟨db₁, hbefore, hrest⟩ := hrun
    obtain ⟨db₂, hstep, -⟩ := run_cons_eq_some.mp hrest
    obtain ⟨-, hadmits, -⟩ := Populated.execute_eq_some_iff.mp hstep
    obtain ⟨r, hr⟩ := List.exists_mem_of_ne_nil _ hrows
    obtain ⟨r', hr', -⟩ := run_execute_keeps hbefore hcreates r hr
    have hempty : db₁.rows table = [] := hadmits hnull hdefault
    rw [hempty] at hr'
    cases hr'

end Runs

/-- The rows satisfy the constraints of the catalog. -/
structure Populated.Valid (db : Populated) : Prop where
  tables : ∀ table, db.rows table ≠ [] → table ∈ db.catalog.schema.map TableDef.name
  columns : ∀ table, ∀ r ∈ db.rows table, ∀ c, r c ≠ none → db.catalog.HasColumn table c
  notNull : ∀ p ∈ db.catalog.columns, p.2.notNull = true → ∀ r ∈ db.rows p.1,
    (r p.2.name).isSome = true
  typed : ∀ p ∈ db.catalog.columns, ∀ r ∈ db.rows p.1, ∀ v ∈ r p.2.name,
    p.2.type.Fits db.catalog.types v
  keys : ∀ t ∈ db.catalog.schema, ∀ k ∈ t.keys, k.Holds (db.rows t.name)
  foreignKeys : ∀ fk ∈ db.catalog.foreignKeys, fk.Holds db.rows

end Relational
