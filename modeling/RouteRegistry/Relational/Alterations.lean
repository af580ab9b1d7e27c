import RouteRegistry.Relational.Populated

/-!
# Scripts of alterations

A script changes a populated database, or changes it back: besides the operations of
`Populated` it drops columns, tables and constraints, and replaces values.

- `Populated.alter`: one alteration; the catalog or the rows can refuse it.
- `origin`: where the value of a column comes from once a script is done (`onRows_eq`).
- `Known.passes`: a script is checked against the catalog and what else is known of the rows.
  On a database of which that is known it goes through (`run_of_passes`).
-/

namespace Relational

open Runs

inductive Alteration where
  | does (op : Operation)
  | dropColumn (table column : String)
  | dropTable (name : String)
  | dropForeignKey (name table : String)
  /-- A constraint without a name cannot be dropped. -/
  | dropUnique (name : Option String) (table : String)
  /-- `UPDATE table SET column = value WHERE column IN values`. -/
  | replace (table column : String) (values : List String) (value : String)
deriving DecidableEq, Repr

/-! ## Catalogs -/

namespace Catalog

/-- Foreign keys to the columns of a constraint rest on the first one on these columns. -/
def Supports (cat : Catalog) (table name : String) : Prop :=
  ∃ fk ∈ cat.foreignKeys, fk.target = table ∧ ∃ t ∈ cat.schema, t.name = table ∧
    ∃ p ∈ t.constraints.find? fun p => decide (p.2.columns = fk.targetColumns), p.1 = name

instance (cat : Catalog) (table name : String) : Decidable (cat.Supports table name) :=
  inferInstanceAs (Decidable (∃ _ ∈ _, _))

/-- The constraints on the column go with it; a foreign key to it keeps it. -/
def dropColumn (cat : Catalog) (table column : String) : Option Catalog :=
  if ¬ cat.HasColumn table column ∨
      ∃ fk ∈ cat.foreignKeys, fk.target = table ∧ column ∈ fk.targetColumns then none
  else
    let shorten := fun t : TableDef => { t with
      columns := t.columns.filter fun c => decide (c ≠ column)
      constraints := t.constraints.filter fun p => decide (column ∉ p.2.columns) }
    some { cat with
      schema := modify TableDef.name table shorten cat.schema
      columns := cat.columns.filter fun p => !(decide (p.1 = table) && decide (p.2.name = column))
      foreignKeys := cat.foreignKeys.filter fun fk =>
        !(decide (fk.table = table) && decide (column ∈ fk.columns)) }

/-- A foreign key of another table keeps the table. -/
def dropTable (cat : Catalog) (name : String) : Option Catalog :=
  if name ∉ cat.schema.map TableDef.name ∨
      ∃ fk ∈ cat.foreignKeys, fk.target = name ∧ fk.table ≠ name then none
  else some { cat with
    schema := cat.schema.filter fun t => decide (t.name ≠ name)
    columns := cat.columns.filter fun p => decide (p.1 ≠ name)
    foreignKeys := cat.foreignKeys.filter fun fk => decide (fk.table ≠ name) }

def dropForeignKey (cat : Catalog) (name table : String) : Option Catalog :=
  if ∃ fk ∈ cat.foreignKeys, fk.name = name ∧ fk.table = table then
    some { cat with foreignKeys := cat.foreignKeys.filter fun fk =>
      !(decide (fk.name = name) && decide (fk.table = table)) }
  else none

/-- An alteration on the catalog. -/
def alter (cat : Catalog) : Alteration → Option Catalog
  | .does op => cat.execute op
  | .dropColumn table column => cat.dropColumn table column
  | .dropTable name => cat.dropTable name
  | .dropForeignKey name table => cat.dropForeignKey name table
  | .dropUnique none _ => none
  | .dropUnique (some name) table =>
    if cat.Supports table name then none
    else (cat.schema.execute (.dropConstraint name table)).map fun s => { cat with schema := s }
  | .replace table column values value =>
    if ∃ p ∈ cat.columns, p.1 = table ∧ p.2.name = column ∧
        ∀ s ∈ value :: values, p.2.type.Fits cat.types (.text s) then some cat
    else none

end Catalog

/-! ## Rows -/

/-- The text for the texts of a list. -/
def replaceIn (v : Option Value) (p : List String × String) : Option Value :=
  if ∃ s ∈ p.1, v = some (.text s) then some (.text p.2) else v

/-- Where a value comes from: from a column of the row as it was, after some replacements, or
from nowhere. -/
inductive Source where
  | column (name : String) (replaced : List (List String × String))
  | constant (v : Option Value)
deriving DecidableEq, Repr

def Source.read (r : Row String Value) : Source → Option Value
  | column name replaced => replaced.foldl replaceIn (r name)
  | constant v => v

/-- The source, where the values are replaced once more. -/
def Source.andThen (more : List (List String × String)) : Source → Source
  | column name replaced => .column name (replaced ++ more)
  | constant v => .constant (more.foldl replaceIn v)

theorem Source.read_andThen (r : Row String Value) (more : List (List String × String))
    (src : Source) : (src.andThen more).read r = more.foldl replaceIn (src.read r) := by
  cases src with
  | column name replaced => exact List.foldl_append
  | constant v => rfl

namespace Alteration

/-- The table without rows afterwards; none are inserted later. -/
def clears : Alteration → Option String
  | does op => op.creates
  | dropTable name => some name
  | _ => none

/-- What the alteration makes of a row of the table. -/
def onRow (now : Value) (table : String) (r : Row String Value) : Alteration → Row String Value
  | does op => op.onRow now table r
  | dropColumn t column => if t = table then Function.update r column none else r
  | replace t column values value =>
    if t = table then Function.update r column (replaceIn (r column) (values, value)) else r
  | _ => r

def apply (now : Value) (a : Alteration) (rows : Rows) : Rows := fun table =>
  if a.clears = some table then [] else (rows table).map fun r => a.onRow now table r

/-- What an alteration demands of the rows; `cat` is the catalog it leads to. -/
def Admits (cat : Catalog) (rows : Rows) : Alteration → Prop
  | does op => op.Admits cat rows
  | _ => True

instance (cat : Catalog) (rows : Rows) : (a : Alteration) → Decidable (a.Admits cat rows)
  | does op => inferInstanceAs (Decidable (op.Admits cat rows))
  | dropColumn _ _ | dropTable _ | dropForeignKey _ _ | dropUnique _ _ | replace _ _ _ _ =>
    isTrue trivial

/-- The source of a column, after one alteration. -/
def source (table column : String) : Alteration → Option Source
  | does (.addColumn t c) =>
    some (if t = table ∧ c.name = column then .constant c.default else .column column [])
  | does (.fillNow t c) => if t = table ∧ c = column then none else some (.column column [])
  | does (.renameColumn t c newName) =>
    some (if t ≠ table then .column column []
      else if column = newName then .column c []
      else if column = c then .constant none
      else .column column [])
  | dropColumn t c =>
    some (if t = table ∧ c = column then .constant none else .column column [])
  | replace t c values value =>
    some (.column column (if t = table ∧ c = column then [(values, value)] else []))
  | _ => some (.column column [])

theorem onRow_eq {now : Value} {table column : String} {r : Row String Value} {src : Source}
    {a : Alteration} (h : a.source table column = some src) :
    a.onRow now table r column = src.read r := by
  cases a with
  | does op =>
    cases op with
    | addColumn t c =>
      cases h
      by_cases ht : t = table ∧ c.name = column
      · obtain ⟨rfl, rfl⟩ := ht
        simp [onRow, Operation.onRow, Source.read]
      · by_cases htable : t = table
        · have hne : column ≠ c.name := fun hc => ht ⟨htable, hc.symm⟩
          simp [onRow, Operation.onRow, Source.read, htable, hne, Ne.symm hne]
        · simp [onRow, Operation.onRow, Source.read, htable]
    | fillNow t c =>
      by_cases ht : t = table ∧ c = column
      · simp [source, ht] at h
      · simp only [source, ht, if_false, Option.some.injEq] at h
        subst h
        show (Operation.fillNow t c).onRow now table r column = r column
        refine Operation.onRow_keeps ?_
        by_cases htable : t = table
        · have hne : column ≠ c := fun hc => ht ⟨htable, hc.symm⟩
          simpa [Operation.writes, htable] using hne
        · simp [Operation.writes, htable]
    | renameColumn t c newName =>
      cases h
      by_cases ht : t = table
      · simp only [onRow, Operation.onRow, ht, if_true, ne_eq, not_true_eq_false, if_false,
          Function.update_apply]
        split_ifs <;> rfl
      · simp [onRow, Operation.onRow, Source.read, ht]
    | _ =>
      cases h
      rfl
  | dropColumn t c =>
    cases h
    by_cases ht : t = table
    · simp only [onRow, ht, if_true, true_and, Function.update_apply, eq_comm (a := column)]
      split_ifs <;> rfl
    · simp [onRow, Source.read, ht]
  | replace t c values value =>
    cases h
    by_cases ht : t = table
    · simp only [onRow, ht, if_true, true_and, Function.update_apply, eq_comm (a := column)]
      split_ifs with hc
      · rw [hc]
        rfl
      · rfl
    · simp [onRow, Source.read, ht]
  | _ =>
    cases h
    rfl

end Alteration

/-! ## Scripts -/

section Scripts

/-- The rows of each table after a script. -/
def applyAll (now : Value) (as : List Alteration) (rows : Rows) : Rows :=
  as.foldl (fun rows a => a.apply now rows) rows

/-- What a script makes of a row of the table. -/
def onRows (now : Value) (table : String) (as : List Alteration) (r : Row String Value) :
    Row String Value :=
  as.foldl (fun r a => a.onRow now table r) r

/-- A script that leaves the table without the rows it had. -/
def Clears (as : List Alteration) (table : String) : Prop := ∃ a ∈ as, a.clears = some table

instance (as : List Alteration) (table : String) : Decidable (Clears as table) :=
  inferInstanceAs (Decidable (∃ _ ∈ _, _))

/-- The source of a column, after a script. -/
def origin (table : String) : List Alteration → String → Option Source
  | [], column => some (.column column [])
  | a :: as, column =>
    match origin table as column with
    | some (.column c replaced) => (a.source table c).map (Source.andThen replaced)
    | other => other

variable {now : Value} {table column : String} {as bs : List Alteration} {rows : Rows}

theorem applyAll_append : applyAll now (as ++ bs) rows = applyAll now bs (applyAll now as rows) :=
  List.foldl_append

theorem onRows_eq {src : Source} (h : origin table as column = some src) (r : Row String Value) :
    onRows now table as r column = src.read r := by
  induction as generalizing src r with
  | nil =>
    cases h
    rfl
  | cons a as ih =>
    show onRows now table as (a.onRow now table r) column = src.read r
    unfold origin at h
    cases hlast : origin table as column with
    | none => simp [hlast] at h
    | some last =>
      rw [ih hlast]
      rw [hlast] at h
      cases last with
      | constant v =>
        cases h
        rfl
      | column c replaced =>
        obtain ⟨first, hfirst, rfl⟩ := Option.map_eq_some_iff.mp h
        rw [Source.read_andThen, ← Alteration.onRow_eq hfirst]
        rfl

theorem applyAll_of_clears (h : Clears as table) : applyAll now as rows table = [] := by
  obtain ⟨a, ha, hclears⟩ := h
  obtain ⟨before, after, rfl⟩ := List.append_of_mem ha
  have hlater : ∀ (as : List Alteration) (rows : Rows), rows table = [] →
      applyAll now as rows table = [] := by
    intro as
    induction as with
    | nil => exact fun _ h => h
    | cons b as ih =>
      intro rows hrows
      refine ih (b.apply now rows) ?_
      unfold Alteration.apply
      rw [hrows, List.map_nil, ite_self]
  rw [applyAll_append]
  exact hlater after _ (if_pos hclears)

theorem applyAll_of_not_clears (h : ¬ Clears as table) :
    applyAll now as rows table = (rows table).map (onRows now table as) := by
  induction as generalizing rows with
  | nil => exact (List.map_id _).symm
  | cons a as ih =>
    have hfirst : a.clears ≠ some table := fun hc => h ⟨a, List.mem_cons_self, hc⟩
    have hrest : ¬ Clears as table := fun ⟨b, hb, hc⟩ => h ⟨b, List.mem_cons_of_mem a hb, hc⟩
    show applyAll now as (a.apply now rows) table = _
    rw [ih hrest]
    unfold Alteration.apply
    rw [if_neg hfirst, List.map_map]
    rfl

/-- Rows of which a script leaves the columns as they are. -/
theorem unique_holds_iff {columns : List String} {t : List (Row String Value)}
    {f : Row String Value → Row String Value} (hf : ∀ r, ∀ c ∈ columns, f r c = r c) :
    (Key.unique columns).Holds (t.map f) ↔ (Key.unique columns).Holds t := by
  have hvalues : Row.values (V := Value) columns ∘ f = Row.values columns :=
    funext fun r => List.map_congr_left fun c hc => hf r c hc
  have hcomplete : Row.complete (V := Value) columns ∘ f = Row.complete columns :=
    funext fun r => Row.complete_congr (congrFun hvalues r)
  show Keyed _ _ ↔ Keyed _ _
  unfold Keyed
  rw [List.filter_map, List.map_map, hvalues, hcomplete]

end Scripts

/-- One alteration; the catalog or the rows can refuse it. -/
def Populated.alter (now : Value) (db : Populated) (a : Alteration) : Option Populated :=
  match db.catalog.alter a with
  | none => none
  | some cat => if a.Admits cat db.rows then some ⟨cat, a.apply now db.rows⟩ else none

section Runs

variable {now : Value} {db db' : Populated} {a : Alteration} {as before after : List Alteration}

theorem Populated.alter_does (op : Operation) : db.alter now (.does op) = db.execute now op := rfl

theorem run_alter_does (ops : List Operation) :
    run (Populated.alter now) db (ops.map .does) = run (Populated.execute now) db ops := by
  induction ops generalizing db with
  | nil => rfl
  | cons op ops ih =>
    rw [List.map_cons, run, run, Populated.alter_does]
    cases db.execute now op with
    | none => rfl
    | some db₁ => exact ih

theorem Populated.alter_eq_some_iff :
    db.alter now a = some db' ↔
      db.catalog.alter a = some db'.catalog ∧ a.Admits db'.catalog db.rows ∧
        db'.rows = a.apply now db.rows := by
  obtain ⟨cat', rows'⟩ := db'
  unfold Populated.alter
  cases db.catalog.alter a with
  | none => simp
  | some cat =>
    by_cases hadmits : a.Admits cat db.rows
    · simp only [hadmits, if_true, Option.some.injEq, Populated.mk.injEq]
      constructor
      · rintro ⟨rfl, rfl⟩
        exact ⟨rfl, hadmits, rfl⟩
      · rintro ⟨rfl, -, rfl⟩
        exact ⟨rfl, rfl⟩
    · simp only [hadmits, if_false, reduceCtorEq, Option.some.injEq, false_iff]
      rintro ⟨rfl, h, -⟩
      exact hadmits h

/-- What a script makes of the catalog and of the rows. -/
theorem run_alter_eq_some (hrun : run (Populated.alter now) db as = some db') :
    run Catalog.alter db.catalog as = some db'.catalog ∧ db'.rows = applyAll now as db.rows := by
  induction as generalizing db with
  | nil =>
    cases hrun
    exact ⟨rfl, rfl⟩
  | cons a as ih =>
    obtain ⟨db₁, hstep, hrest⟩ := run_cons_eq_some.mp hrun
    obtain ⟨hcat, -, hrows⟩ := Populated.alter_eq_some_iff.mp hstep
    obtain ⟨hcats, hrows'⟩ := ih hrest
    refine ⟨run_cons_eq_some.mpr ⟨db₁.catalog, hcat, hcats⟩, ?_⟩
    rw [hrows', hrows]
    rfl

/-- In a script that goes through, the rows are admitted on the way. -/
theorem run_alter_admits (hrun : run (Populated.alter now) db (before ++ a :: after) = some db') :
    ∃ cat, a.Admits cat (applyAll now before db.rows) := by
  obtain ⟨db₁, hbefore, hrest⟩ := run_append.mp hrun
  obtain ⟨db₂, hstep, -⟩ := run_cons_eq_some.mp hrest
  obtain ⟨-, hadmits, -⟩ := Populated.alter_eq_some_iff.mp hstep
  rw [(run_alter_eq_some hbefore).2] at hadmits
  exact ⟨db₂.catalog, hadmits⟩

end Runs

/-! ## Checking scripts -/

/-- What is known of a database before a script. -/
structure Known where
  catalog : Catalog
  /-- Tables without rows. -/
  empty : List String := []
  /-- Columns on which the rows of a table differ, where they are given. -/
  unique : List (String × List String) := []

/-- It is true of the database. -/
structure Known.Of (k : Known) (db : Populated) : Prop where
  catalog : db.catalog = k.catalog
  valid : db.Valid
  empty : ∀ t ∈ k.empty, db.rows t = []
  unique : ∀ p ∈ k.unique, (Key.unique p.2).Holds (db.rows p.1)

/-- The values of an enumeration type. -/
def ColumnType.labels (types : List (String × List String)) : ColumnType → Option (List String)
  | enum name => labelsOf types name
  | _ => none

namespace Known

variable (k : Known)

/-- The column is given in every row. -/
def Given (table : String) : Option Source → Prop
  | some (.column c _) =>
    ∃ p ∈ k.catalog.columns, p.1 = table ∧ p.2.name = c ∧ p.2.notNull = true
  | _ => False

/-- The values of the column are of the type. -/
def Fits (types : List (String × List String)) (type : ColumnType) (table : String) :
    Option Source → Prop
  | some (.column c replaced) =>
    ∃ p ∈ k.catalog.columns, p.1 = table ∧ p.2.name = c ∧
      ∃ labels ∈ p.2.type.labels k.catalog.types, ∀ s ∈ labels,
        ∀ v ∈ replaced.foldl replaceIn (some (.text s)), type.Fits types v
  | _ => False

/-- The rows differ on the columns, where they are given. -/
def Differ (table : String) (columns : List String) : Prop :=
  (table, columns) ∈ k.unique ∨
    ∃ t ∈ k.catalog.schema, t.name = table ∧ ∃ key ∈ t.keys, key.covers (.unique columns) = true

instance (table : String) (columns : List String) : Decidable (k.Differ table columns) :=
  inferInstanceAs (Decidable (_ ∨ _))

/-- After the alterations before it the rows admit an operation; `cat` is the catalog it leads
to. -/
def PermitsRows (cat : Catalog) (before : List Alteration) : Operation → Prop
  | .addColumn _ column => column.notNull = true → column.default ≠ none
  | .setNotNull table column => k.Given table (origin table before column)
  | .addUnique _ table columns =>
    (∃ c ∈ columns, origin table before c = some (.constant none)) ∨
      k.Differ table columns ∧ ∀ c ∈ columns, origin table before c = some (.column c [])
  | .addForeignKey fk => ∃ c ∈ fk.columns, origin fk.table before c = some (.constant none)
  | .retype table column type =>
    k.Fits cat.types (.enum type) table (origin table before column)
  | _ => True

/-- The same, or the table it looks at is known to have no rows. -/
def Permits (cat : Catalog) (before : List Alteration) : Alteration → Prop
  | .does op =>
    (∀ t ∈ op.looksAt, t ∈ k.empty ∨ Clears before t) ∨ k.PermitsRows cat before op
  | _ => True

instance (table : String) : (src : Option Source) → Decidable (k.Given table src)
  | some (.column _ _) => inferInstanceAs (Decidable (∃ _ ∈ _, _))
  | some (.constant _) | none => isFalse id

instance (types : List (String × List String)) (type : ColumnType) (table : String) :
    (src : Option Source) → Decidable (k.Fits types type table src)
  | some (.column _ _) => inferInstanceAs (Decidable (∃ _ ∈ _, _))
  | some (.constant _) | none => isFalse id

instance (cat : Catalog) (before : List Alteration) :
    (op : Operation) → Decidable (k.PermitsRows cat before op)
  | .addColumn _ _ => inferInstanceAs (Decidable (_ → _))
  | .setNotNull _ _ => inferInstanceAs (Decidable (k.Given _ _))
  | .addUnique _ _ _ => inferInstanceAs (Decidable (_ ∨ _))
  | .addForeignKey _ => inferInstanceAs (Decidable (∃ _ ∈ _, _))
  | .retype _ _ _ => inferInstanceAs (Decidable (k.Fits _ _ _ _))
  | .createType _ _ | .renameType _ _ | .dropType _ | .createTable _ _ _ _ | .fillNow _ _
  | .dropDefault _ _ | .renameColumn _ _ _ | .dropConstraint _ _ => isTrue trivial

instance (cat : Catalog) (before : List Alteration) :
    (a : Alteration) → Decidable (k.Permits cat before a)
  | .does _ => inferInstanceAs (Decidable (_ ∨ _))
  | .dropColumn _ _ | .dropTable _ | .dropForeignKey _ _ | .dropUnique _ _
  | .replace _ _ _ _ => isTrue trivial

/-- Every alteration of a script is possible on the catalog and permitted. -/
def passes (cat : Catalog) (before : List Alteration) : List Alteration → Bool
  | [] => true
  | a :: as =>
    match cat.alter a with
    | none => false
    | some cat' => decide (k.Permits cat' before a) && passes cat' (before ++ [a]) as

end Known

section Checking

variable {k : Known} {now : Value} {db : Populated} {cat : Catalog} {a : Alteration}
  {as before : List Alteration} {op : Operation} {table : String}

theorem mem_applyAll {rows : Rows} {r' : Row String Value}
    (h : r' ∈ applyAll now as rows table) : ∃ r ∈ rows table, onRows now table as r = r' := by
  by_cases hclears : Clears as table
  · rw [applyAll_of_clears hclears] at h
    cases h
  · rw [applyAll_of_not_clears hclears] at h
    exact List.mem_map.mp h

theorem replaced_isSome {replaced : List (List String × String)} {v : Option Value}
    (h : v.isSome = true) : (replaced.foldl replaceIn v).isSome = true := by
  induction replaced generalizing v with
  | nil => exact h
  | cons p replaced ih =>
    refine ih ?_
    unfold replaceIn
    split_ifs with hp
    · rfl
    · exact h

theorem replaced_none (replaced : List (List String × String)) :
    replaced.foldl replaceIn none = none := by
  induction replaced with
  | nil => rfl
  | cons p replaced ih =>
    have hfirst : replaceIn none p = none := by simp [replaceIn]
    rw [List.foldl_cons, hfirst]
    exact ih

theorem Known.Of.given (hk : k.Of db) {c : String}
    (h : k.Given table (origin table before c)) :
    ∀ r' ∈ applyAll now before db.rows table, (r' c).isSome = true := by
  intro r' hr'
  obtain ⟨r, hr, rfl⟩ := mem_applyAll hr'
  cases hsrc : origin table before c with
  | none => simp [hsrc, Given] at h
  | some src =>
    cases src with
    | constant v => simp [hsrc, Given] at h
    | column c₀ replaced =>
      rw [hsrc] at h
      obtain ⟨p, hp, rfl, rfl, hnull⟩ := h
      rw [onRows_eq hsrc]
      exact replaced_isSome (hk.valid.notNull p (hk.catalog ▸ hp) hnull r hr)

theorem Known.Of.fits (hk : k.Of db) {types : List (String × List String)} {type : ColumnType}
    {c : String} (h : k.Fits types type table (origin table before c)) :
    ∀ r' ∈ applyAll now before db.rows table, ∀ v ∈ r' c, type.Fits types v := by
  intro r' hr' v hv
  obtain ⟨r, hr, rfl⟩ := mem_applyAll hr'
  cases hsrc : origin table before c with
  | none => simp [hsrc, Fits] at h
  | some src =>
    cases src with
    | constant v => simp [hsrc, Fits] at h
    | column c₀ replaced =>
      rw [hsrc] at h
      obtain ⟨p, hp, rfl, rfl, labels, hlabels, hall⟩ := h
      rw [onRows_eq hsrc] at hv
      cases hw : r p.2.name with
      | none =>
        simp only [Source.read, hw, replaced_none] at hv
        cases hv
      | some w =>
        -- the value is one of the type the column had
        have htyped := hk.valid.typed p (hk.catalog ▸ hp) r hr w hw
        rw [hk.catalog] at htyped
        cases htype : p.2.type with
        | enum name =>
          rw [htype] at htyped hlabels
          cases w with
          | text s =>
            obtain ⟨labels', hlabels', hs⟩ := htyped
            have hsame : labels' = labels := Option.mem_unique hlabels' hlabels
            refine hall s (hsame ▸ hs) v ?_
            simpa only [Source.read, hw] using hv
          | boolean b | timestamp b => exact htyped.elim
        | varchar length | boolean | timestamp =>
          rw [htype] at hlabels
          cases hlabels

theorem Known.Of.differ (hk : k.Of db) {columns : List String} (h : k.Differ table columns) :
    (Key.unique columns).Holds (db.rows table) := by
  rcases h with h | ⟨t, ht, rfl, key, hkey, hcovers⟩
  · exact hk.unique (table, columns) h
  · exact (hk.valid.keys t (hk.catalog ▸ ht) key hkey).of_covers hcovers

/-- What is permitted the rows admit. -/
theorem Known.Of.admits (hk : k.Of db) (h : k.Permits cat before a) :
    a.Admits cat (applyAll now before db.rows) := by
  cases a with
  | does op =>
    rcases h with hempty | hrows
    · refine Operation.admits_of_empty fun t ht => ?_
      rcases hempty t ht with hno | hclears
      · refine List.eq_nil_iff_forall_not_mem.mpr fun r' hr' => ?_
        obtain ⟨r, hr, -⟩ := mem_applyAll hr'
        rw [hk.empty t hno] at hr
        cases hr
      · exact applyAll_of_clears hclears
    · cases op with
      | addColumn t column => exact fun hnull hdefault => absurd hdefault (hrows hnull)
      | setNotNull t column => exact hk.given hrows
      | retype t column type => exact hk.fits hrows
      | addUnique name t columns =>
        rcases hrows with ⟨c, hc, hnone⟩ | ⟨hunique, hsame⟩
        · -- nulls are distinct
          have hfilter : (applyAll now before db.rows t).filter (Row.complete columns) = [] := by
            refine List.filter_eq_nil_iff.mpr fun r' hr' hcomplete => ?_
            obtain ⟨r, -, rfl⟩ := mem_applyAll hr'
            obtain ⟨v, hv⟩ := Row.complete_iff.mp hcomplete c hc
            rw [onRows_eq hnone] at hv
            cases hv
          show Keyed (Row.values columns) _
          rw [hfilter]
          exact List.nodup_nil
        · by_cases hclears : Clears before t
          · show (Key.unique columns).Holds _
            rw [applyAll_of_clears hclears]
            exact Key.holds_nil _
          · show (Key.unique columns).Holds _
            rw [applyAll_of_not_clears hclears,
              unique_holds_iff fun r c hc => onRows_eq (hsame c hc) r]
            exact hk.differ hunique
      | addForeignKey fk =>
        obtain ⟨c, hc, hnone⟩ := hrows
        intro r' hr' hcomplete
        obtain ⟨r, -, rfl⟩ := mem_applyAll hr'
        obtain ⟨v, hv⟩ := Row.complete_iff.mp hcomplete c hc
        rw [onRows_eq hnone] at hv
        cases hv
      | _ => trivial
  | _ => trivial

/-- **A script that passes goes through.** -/
theorem run_of_passes (now : Value) (hk : k.Of db) (h : k.passes cat before as = true) :
    ∃ cat', run (Populated.alter now) ⟨cat, applyAll now before db.rows⟩ as =
      some ⟨cat', applyAll now (before ++ as) db.rows⟩ := by
  induction as generalizing cat before with
  | nil =>
    rw [List.append_nil]
    exact ⟨cat, rfl⟩
  | cons a as ih =>
    unfold Known.passes at h
    cases hcat : cat.alter a with
    | none => simp [hcat] at h
    | some cat₁ =>
      simp only [hcat, Bool.and_eq_true, decide_eq_true_eq] at h
      have hrows : applyAll now (before ++ [a]) db.rows =
          a.apply now (applyAll now before db.rows) := applyAll_append
      have hstep : Populated.alter now ⟨cat, applyAll now before db.rows⟩ a =
          some ⟨cat₁, applyAll now (before ++ [a]) db.rows⟩ :=
        Populated.alter_eq_some_iff.mpr ⟨hcat, hk.admits h.1, hrows⟩
      obtain ⟨cat', hrun⟩ := ih h.2
      rw [← List.append_cons] at hrun
      exact ⟨cat', (run_cons hstep).trans hrun⟩

end Checking

end Relational
