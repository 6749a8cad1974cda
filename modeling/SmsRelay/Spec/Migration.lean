import SmsRelay.Native.Migration

/-!
# The additive migration

`init_db` runs at every start, on the only copy of the data, and nothing records how far
an earlier run came.  What it makes of a database depends on the columns it finds; the
proof shows that a run that was cut off leaves a database out of which it makes the same.

## Key results

- `value_widened`: what the statements do to the values of a row
- `approaches`: `migrate` is what `init_db` makes of a database, whatever cut it off
- `init_db_migrates`: the migration is complete, loses nothing, and may be run again
-/

namespace SmsRelay

open Transition Restart

/-! ## Adding one column -/

namespace Table

variable {t t' : Table} {c : Column} {name : String} {row : List Value}

/-- What `ADD COLUMN` leaves. -/
theorem addColumn_eq_some (h : t.addColumn c = some t') : t.CanAdd c ∧
    t'.columns = t.columns ++ [c] ∧ t'.rows = t.rows.map fun row => row ++ [c.default] := by
  unfold addColumn at h
  split at h
  · next hcan =>
    cases h
    exact ⟨hcan, rfl, rfl⟩
  · cases h

/-- When SQLite refuses no `ADD COLUMN`. -/
theorem isSome_addColumn : (t.addColumn c).isSome ↔ t.CanAdd c := by
  unfold addColumn
  split
  · next hcan => exact iff_of_true rfl hcan
  · next hcan => exact iff_of_false (by simp) hcan

/-- The new column is listed after the others. -/
theorem names_addColumn (h : t.addColumn c = some t') : t'.names = t.names ++ [c.name] := by
  simp [names, (addColumn_eq_some h).2.1]

/-- A row has as many values as its table has columns. -/
theorem length_row (hrow : row ∈ t.rows) : t.names.length = row.length := by
  rw [names, List.length_map]
  exact (t.fits row hrow).length_eq

/-- A row has no value under a name exactly when the table has no such column. -/
theorem value_eq_none (hrow : row ∈ t.rows) : t.value name row = none ↔ name ∉ t.names := by
  rw [value, List.lookup_eq_none_iff]
  constructor
  · intro h hname
    -- the name stands next to the value of its column
    rw [← List.map_fst_zip (Nat.le_of_eq (length_row hrow))] at hname
    obtain ⟨entry, hentry, rfl⟩ := List.mem_map.mp hname
    simpa using h entry hentry
  · intro hname entry hentry
    have hmem := (List.of_mem_zip hentry).1
    simp only [bne_iff_ne, ne_eq]
    rintro rfl
    exact hname hmem

end Table

namespace InitDb

/-! ## Adding the missing ones -/

/-- A statement under its guard, on the names that are there by then. -/
def addIfMissing (t : Table) (c : Column) : Table :=
  if c.name ∈ t.names then t else (t.addColumn c).getD t

/-- The three statements, one after the other. -/
def addMissing (t : Table) : Table := additive.foldl addIfMissing t

/-- `t'` is `t` with more of the three columns, which have their defaults in every row. -/
def Widens (t t' : Table) : Prop :=
  ∃ cs : List Column, (∀ c ∈ cs, c ∈ additive) ∧ t'.columns = t.columns ++ cs ∧
    t'.rows = t.rows.map fun row => row ++ cs.map Column.default

/-- The value that a row gets in a column that it does not have. -/
def filled : String → Option Value
  | "transport" => some (.text "sms")
  | "notification_topic" => some .null
  | "notification_priority" => some (.integer 3)
  | _ => none

section
variable {t t' t'' : Table} {c : Column} {name : String} {row : List Value}

/-- The filled value is the default of the column. -/
theorem filled_eq_some {v : Value} :
    filled name = some v ↔ ∃ c ∈ additive, c.name = name ∧ c.default = v := by
  constructor
  · intro h
    unfold filled at h
    split at h
    · exact ⟨transport, by simp [additive], rfl, Option.some.inj h⟩
    · exact ⟨notificationTopic, by simp [additive], rfl, Option.some.inj h⟩
    · exact ⟨notificationPriority, by simp [additive], rfl, Option.some.inj h⟩
    · cases h
  · rintro ⟨c, hc, rfl, rfl⟩
    simp only [additive, List.mem_cons, List.not_mem_nil, or_false] at hc
    rcases hc with rfl | rfl | rfl <;> rfl

theorem Widens.refl (t : Table) : Widens t t := ⟨[], by simp, by simp, by simp⟩

/-- One column more. -/
theorem Widens.addColumn (h : Widens t t') (hc : c ∈ additive)
    (hadd : t'.addColumn c = some t'') : Widens t t'' := by
  obtain ⟨cs, hcs, hcolumns, hrows⟩ := h
  obtain ⟨-, hcolumns', hrows'⟩ := Table.addColumn_eq_some hadd
  refine ⟨cs ++ [c], ?_, ?_, ?_⟩
  · intro c' hc'
    rcases List.mem_append.mp hc' with hold | hnew
    · exact hcs c' hold
    · rwa [List.mem_singleton.mp hnew]
  · rw [hcolumns', hcolumns, List.append_assoc]
  · rw [hrows', hrows, List.map_map]
    simp [Function.comp_def]

/-- The statements only add columns. -/
theorem widens_foldl {cs : List Column} (hcs : ∀ c ∈ cs, c ∈ additive) (h : Widens t t') :
    Widens t (cs.foldl addIfMissing t') := by
  induction cs generalizing t' with
  | nil => exact h
  | cons c cs ih =>
    rw [List.foldl_cons]
    apply ih fun c' hc' => hcs c' (List.mem_cons_of_mem c hc')
    unfold addIfMissing
    split
    · exact h
    · cases hadd : t'.addColumn c with
      | none => exact h
      | some t'' => exact h.addColumn (hcs c List.mem_cons_self) hadd

/-- Statements whose columns are there do nothing. -/
theorem foldl_eq_self {cs : List Column} (h : ∀ c ∈ cs, c.name ∈ t.names) :
    cs.foldl addIfMissing t = t := by
  induction cs with
  | nil => rfl
  | cons c cs ih =>
    have hc : addIfMissing t c = t := if_pos (h c List.mem_cons_self)
    rw [List.foldl_cons, hc]
    exact ih fun c' hc' => h c' (List.mem_cons_of_mem c hc')

/-- Adding the first missing column by hand makes no difference to the statements. -/
theorem foldl_addColumn {cs todo : List Column}
    (hfirst : cs.filter (fun c => c.name ∉ t.names) = c :: todo) (hadd : t.addColumn c = some t') :
    cs.foldl addIfMissing t' = cs.foldl addIfMissing t := by
  have hnames := Table.names_addColumn hadd
  induction cs with
  | nil => simp at hfirst
  | cons x cs ih =>
    rw [List.foldl_cons, List.foldl_cons]
    by_cases hx : x.name ∈ t.names
    · -- this one is skipped on either table
      rw [List.filter_cons_of_neg (by simpa using hx)] at hfirst
      have hskip : addIfMissing t x = t := if_pos hx
      have hskip' : addIfMissing t' x = t' := if_pos (by simp [hnames, hx])
      rw [hskip, hskip']
      exact ih hfirst
    · -- this is the first missing one
      rw [List.filter_cons_of_pos (by simpa using hx)] at hfirst
      obtain ⟨rfl, -⟩ := List.cons.inj hfirst
      have hskip : addIfMissing t' x = t' := if_pos (by simp [hnames])
      have hdo : addIfMissing t x = t' := by simp [addIfMissing, hx, hadd]
      rw [hskip, hdo]

/-- The defaults of the new columns are the filled values, under a name whose column is new
    if it is one of the three. -/
theorem lookup_new {cs : List Column} (hcs : ∀ c ∈ cs, c ∈ additive)
    (hcover : ∀ c ∈ additive, c.name = name → name ∈ cs.map Column.name) :
    (cs.map fun c => (c.name, c.default)).lookup name = filled name := by
  cases hlookup : (cs.map fun c => (c.name, c.default)).lookup name with
  | some v =>
    obtain ⟨l₁, l₂, hentries, -⟩ := List.lookup_eq_some_iff.mp hlookup
    have hmem : (name, v) ∈ cs.map fun c => (c.name, c.default) := by simp [hentries]
    obtain ⟨c, hc, hentry⟩ := List.mem_map.mp hmem
    obtain ⟨hname, hv⟩ := Prod.mk.inj hentry
    exact (filled_eq_some.mpr ⟨c, hcs c hc, hname, hv⟩).symm
  | none =>
    cases hfilled : filled name with
    | none => rfl
    | some v =>
      -- the column of the name would be in the list
      obtain ⟨c, hc, hname, -⟩ := filled_eq_some.mp hfilled
      obtain ⟨c', hc', hname'⟩ := List.mem_map.mp (hcover c hc hname)
      have hne := List.lookup_eq_none_iff.mp hlookup (c'.name, c'.default)
        (List.mem_map.mpr ⟨c', hc', rfl⟩)
      simp [hname'] at hne

/-- **The values of a row** after the statements: the old ones, and the defaults under the
    names that were missing. -/
theorem value_widened {cs : List Column} (hcs : ∀ c ∈ cs, c ∈ additive)
    (hcolumns : t'.columns = t.columns ++ cs) (hcomplete : ∀ c ∈ additive, c.name ∈ t'.names)
    (hrow : row ∈ t.rows) (name : String) :
    t'.value name (row ++ cs.map Column.default) = (t.value name row).or (filled name) := by
  have hnames : t'.names = t.names ++ cs.map Column.name := by simp [Table.names, hcolumns]
  have hnew : t'.value name (row ++ cs.map Column.default) =
      (t.value name row).or ((cs.map fun c => (c.name, c.default)).lookup name) := by
    rw [Table.value, hnames, List.zip_append (Table.length_row hrow), List.lookup_append,
      List.zip_map', Table.value]
  rw [hnew]
  cases hold : t.value name row with
  | some v => rfl
  | none =>
    -- the name was missing, so its column is one of the new ones, or none
    have hmissing : name ∉ t.names := (Table.value_eq_none hrow).mp hold
    have hcover : ∀ c ∈ additive, c.name = name → name ∈ cs.map Column.name := by
      rintro c hc rfl
      have hmem := hcomplete c hc
      rw [hnames] at hmem
      exact (List.mem_append.mp hmem).resolve_left hmissing
    rw [Option.none_or, Option.none_or, lookup_new hcs hcover]

/-- `t'` is `t` after the migration: the columns of `t` are in their places, and each row
    has its old values, and the filled ones under the names that were missing. -/
structure Migrated (t t' : Table) : Prop where
  columns : t.columns <+: t'.columns
  rows : List.Forall₂
    (fun row row' => ∀ name, t'.value name row' = (t.value name row).or (filled name))
    t.rows t'.rows

/-- A table that only got columns, and has all three, is migrated. -/
theorem Widens.migrated (h : Widens t t') (hcomplete : ∀ c ∈ additive, c.name ∈ t'.names) :
    Migrated t t' := by
  obtain ⟨cs, hcs, hcolumns, hrows⟩ := h
  refine ⟨⟨cs, hcolumns.symm⟩, ?_⟩
  rw [hrows, List.forall₂_map_right_iff]
  exact List.forall₂_same.mpr fun row hrow => value_widened hcs hcolumns hcomplete hrow

end

/-! ## What `init_db` makes of a database -/

/-- Every table of the metadata is there. -/
def createMissing (db : Database) : Database := fun name => (db name).or (metadata.lookup name)

/-- The tables are there, and `messages` has the three columns, unless SQLite refuses one. -/
def migrate (db : Database) : Database := fun name =>
  if name = "messages" then (createMissing db name).map addMissing else createMissing db name

/-- What holds at each point of `init_db`: the statements that are still to come are those
    that the database needs. -/
def At : Pc → Database → Prop
  | .start, _ => True
  | .creating todo, db => missingTables db = todo
  | .altering todo, db => missingTables db = [] ∧ missingColumns (columnsOf db) = todo

section
variable {db db' : Database} {t t' : Table} {c : Column} {name : String}

/-- A selection that is shortened by its first element is the rest. -/
private theorem filter_tail {α β : Type} [DecidableEq β] {l todo : List α} {p q : α → Bool}
    {f : α → β} {x : α} (hnd : (l.map f).Nodup) (h : l.filter p = x :: todo)
    (hq : ∀ y ∈ l, q y = (p y && decide (f y ≠ f x))) : l.filter q = todo := by
  have hnd' : ((l.filter p).map f).Nodup := hnd.sublist (List.filter_sublist.map f)
  rw [h, List.map_cons, List.nodup_cons] at hnd'
  have hne : ∀ y ∈ todo, decide (f y ≠ f x) = true := by
    intro y hy
    simpa using fun heq : f y = f x => hnd'.1 (heq ▸ List.mem_map_of_mem hy)
  calc l.filter q = l.filter fun y => p y && decide (f y ≠ f x) := List.filter_congr hq
    _ = (l.filter p).filter fun y => decide (f y ≠ f x) := by
        rw [List.filter_filter]
        exact List.filter_congr fun y _ => Bool.and_comm _ _
    _ = todo := by
        rw [h, List.filter_cons_of_neg (by simp)]
        exact List.filter_eq_self.mpr hne

/-- A table that is missing is one of the metadata and has the columns it gives it. -/
theorem missing_cons {table : Table} {todo : List (String × Table)}
    (h : missingTables db = (name, table) :: todo) :
    db name = none ∧ metadata.lookup name = some table := by
  have hmem : (name, table) ∈ missingTables db := by simp [h]
  obtain ⟨hmeta, hnone⟩ := List.mem_filter.mp hmem
  refine ⟨by simpa using hnone, ?_⟩
  simp only [metadata, List.mem_cons, Prod.mk.injEq, List.not_mem_nil, or_false] at hmeta
  rcases hmeta with ⟨rfl, rfl⟩ | ⟨rfl, rfl⟩ <;> rfl

/-- With no table missing, the tables of the metadata are there. -/
theorem isSome_of_missing_nil (h : missingTables db = []) {entry : String × Table}
    (hentry : entry ∈ metadata) : (db entry.1).isSome := by
  have hnot := List.filter_eq_nil_iff.mp h entry hentry
  rw [Option.isNone_iff_eq_none] at hnot
  exact Option.isSome_iff_ne_none.mpr hnot

/-- With no table missing, `messages` is there. -/
theorem exists_messages (h : missingTables db = []) : ∃ t, db "messages" = some t :=
  Option.isSome_iff_exists.mp
    (isSome_of_missing_nil h (show ("messages", messages) ∈ metadata from List.mem_cons_self))

/-- With no column missing, the three names are there. -/
theorem names_of_missing_nil (h : missingColumns (columnsOf db) = [])
    (ht : db "messages" = some t) : ∀ c ∈ additive, c.name ∈ t.names := by
  intro c hc
  by_contra hnot
  have hmem := List.filter_eq_nil_iff.mp h c hc
  simp [columnsOf, ht, hnot] at hmem

/-- `CREATE TABLE` for the first missing table leaves the others to be created. -/
theorem missingTables_create {table : Table} {todo : List (String × Table)}
    (h : missingTables db = (name, table) :: todo) :
    missingTables (Function.update db name (some table)) = todo := by
  refine @filter_tail _ _ _ _ _ _ _ Prod.fst (name, table) (by decide) h fun entry _ => ?_
  by_cases hname : entry.1 = name
  · simp [hname]
  · simp [hname]

/-- `CREATE TABLE` for a missing table does not change what is made of the database. -/
theorem migrate_create {table : Table} {todo : List (String × Table)}
    (h : missingTables db = (name, table) :: todo) :
    migrate (Function.update db name (some table)) = migrate db := by
  obtain ⟨hnone, hlookup⟩ := missing_cons h
  have hcreate : createMissing (Function.update db name (some table)) = createMissing db := by
    funext other
    by_cases hother : other = name
    · subst hother
      simp [createMissing, hnone, hlookup]
    · simp [createMissing, Function.update_of_ne hother]
  unfold migrate
  rw [hcreate]

/-- `ALTER TABLE` for the first missing column leaves the others to be added. -/
theorem missingColumns_alter {todo : List Column} (h : missingColumns t.names = c :: todo)
    (hadd : t.addColumn c = some t') : missingColumns t'.names = todo := by
  refine @filter_tail _ _ _ _ _ _ _ Column.name c (by decide) h fun c' _ => ?_
  rw [Table.names_addColumn hadd]
  simp

/-- `ALTER TABLE` on the table that is there creates and drops none. -/
theorem missingTables_alter (h : missingTables db = []) :
    missingTables (Function.update db "messages" (some t)) = [] := by
  apply List.filter_eq_nil_iff.mpr
  intro entry hentry
  by_cases hname : entry.1 = "messages"
  · simp [hname]
  · rw [Function.update_of_ne hname, Option.isNone_iff_eq_none]
    exact Option.isSome_iff_ne_none.mp (isSome_of_missing_nil h hentry)

/-- `ALTER TABLE` for the first missing column does not change what is made of the
    database. -/
theorem migrate_alter {todo : List Column} (ht : db "messages" = some t)
    (h : missingColumns t.names = c :: todo) (hadd : t.addColumn c = some t') :
    migrate (Function.update db "messages" (some t')) = migrate db := by
  funext name
  by_cases hname : name = "messages"
  · subst hname
    have hsame : addMissing t' = addMissing t := foldl_addColumn h hadd
    simp [migrate, createMissing, ht, hsame]
  · simp [migrate, createMissing, hname]

/-- Where nothing is missing, the database is what is made of it. -/
theorem migrate_eq_self (htables : missingTables db = [])
    (hcolumns : missingColumns (columnsOf db) = []) : migrate db = db := by
  have hcreate : createMissing db = db := by
    funext name
    unfold createMissing
    cases hdb : db name with
    | some t => rfl
    | none =>
      cases hlookup : metadata.lookup name with
      | none => rfl
      | some table =>
        obtain ⟨l₁, l₂, hentries, -⟩ := List.lookup_eq_some_iff.mp hlookup
        have hsome := isSome_of_missing_nil htables (show (name, table) ∈ metadata by
          simp [hentries])
        simp [hdb] at hsome
  funext name
  unfold migrate
  rw [hcreate]
  split
  · next hname =>
    subst hname
    cases hdb : db "messages" with
    | none => rfl
    | some t =>
      rw [Option.map_some, addMissing, foldl_eq_self (names_of_missing_nil hcolumns hdb)]
  · rfl

/-! ## Cut off and run again -/

/-- What a step of `init_db` does, where `At` holds. -/
inductive Move (db : Database) : Pc → Database → Pc → Prop
  | start : Move db .start db (.creating (missingTables db))
  | create (name : String) (table : Table) (todo : List (String × Table)) :
      missingTables db = (name, table) :: todo →
      Move db (.creating ((name, table) :: todo)) (Function.update db name (some table))
        (.creating todo)
  | read : missingTables db = [] →
      Move db (.creating []) db (.altering (missingColumns (columnsOf db)))
  | alter (c : Column) (todo : List Column) (t t' : Table) : missingTables db = [] →
      db "messages" = some t → missingColumns t.names = c :: todo → t.addColumn c = some t' →
      Move db (.altering (c :: todo)) (Function.update db "messages" (some t')) (.altering todo)

/-- Every step is one of these. -/
theorem move_of_step {p p' : Pc} (hat : At p db) (h : step p db = some (db', p')) :
    Move db p db' p' := by
  match p, hat with
  | .start, _ =>
    cases h
    exact .start
  | .creating ((name, table) :: todo), hat =>
    simp only [step, Option.ite_none_left_eq_some, Option.some.injEq, Prod.mk.injEq] at h
    obtain ⟨-, rfl, rfl⟩ := h
    exact .create name table todo hat
  | .creating [], hat =>
    cases h
    exact .read hat
  | .altering (c :: todo), ⟨htables, hcolumns⟩ =>
    simp only [step, Option.map_eq_some_iff, Option.bind_eq_some_iff, Prod.mk.injEq] at h
    obtain ⟨t', ⟨t, ht, hadd⟩, rfl, rfl⟩ := h
    exact .alter c todo t t' htables ht (by simpa [columnsOf, ht] using hcolumns) hadd

/-- A database that lacks a column which SQLite takes is not what is made of it. -/
theorem not_migrated_of_missing {todo : List Column} (ht : db "messages" = some t)
    (h : missingColumns t.names = c :: todo) (hadd : t.addColumn c = some t') :
    migrate db ≠ db := by
  intro hsame
  have htable : addMissing t = t := by
    have hmessages := congrFun hsame "messages"
    simpa [migrate, createMissing, ht] using hmessages
  -- the statements would have added the column
  have hadded : addMissing t' = addMissing t := foldl_addColumn h hadd
  obtain ⟨cs, -, hcolumns, -⟩ : Widens t' (addMissing t') := widens_foldl (fun _ h => h) (.refl t')
  rw [hadded, htable, (Table.addColumn_eq_some hadd).2.1] at hcolumns
  have hlength := congrArg List.length hcolumns
  simp at hlength

/-- **`init_db` approaches `migrate`**: no step changes what is made of the database. -/
theorem approaches : Approaches script At migrate where
  start _ := trivial
  step p db db' p' hat h := by
    cases move_of_step hat h with
    | start => exact ⟨rfl, rfl⟩
    | create name table todo hmissing =>
      exact ⟨missingTables_create hmissing, migrate_create hmissing⟩
    | read htables => exact ⟨⟨htables, rfl⟩, rfl⟩
    | alter c todo t t' htables ht hmissing hadd =>
      refine ⟨⟨missingTables_alter htables, ?_⟩, migrate_alter ht hmissing hadd⟩
      simpa [columnsOf] using missingColumns_alter hmissing hadd
  still p db db' p' hat h hsame := by
    cases move_of_step hat h with
    | start => rfl
    | create name table todo hmissing =>
      -- a migrated database has the table
      obtain ⟨hnone, hlookup⟩ := missing_cons hmissing
      have hname := congrFun hsame name
      simp only [migrate, createMissing, hnone, hlookup, Option.none_or] at hname
      split at hname <;> cases hname
    | read => rfl
    | alter c todo t t' _ ht hmissing hadd =>
      exact absurd hsame (not_migrated_of_missing ht hmissing hadd)
  done p db hat h := by
    match p, hat with
    | .altering [], ⟨htables, hcolumns⟩ => exact migrate_eq_self htables hcolumns

/-- SQLite will add the columns that the database needs: none is there under another case,
    and there is room for them. -/
def Alterable (db : Database) : Prop := ∀ t, db "messages" = some t →
  (∀ c ∈ missingColumns t.names, c.folded ∉ t.columns.map Column.folded) ∧
    t.columns.length + (missingColumns t.names).length ≤ Table.maxColumns

/-- The number of statements that may still come, at most. -/
def rank : Pc → Nat
  | .start => 8
  | .creating todo => 4 + todo.length
  | .altering todo => todo.length

/-- `ALTER TABLE` leaves a table that takes the other missing columns. -/
theorem alterable_alter {todo : List Column} (ht : db "messages" = some t)
    (hmissing : missingColumns t.names = c :: todo) (hadd : t.addColumn c = some t')
    (hable : Alterable db) : Alterable (Function.update db "messages" (some t')) := by
  intro u hu
  obtain rfl : t' = u := by simpa using hu
  obtain ⟨hnew, hroom⟩ := hable t ht
  rw [missingColumns_alter hmissing hadd, (Table.addColumn_eq_some hadd).2.1]
  rw [hmissing] at hnew hroom
  constructor
  · intro c' hc' hmem
    rw [List.map_append, List.mem_append] at hmem
    rcases hmem with hold | hsame
    · exact hnew c' (List.mem_cons_of_mem c hc') hold
    · -- the three columns have different names
      have hnd : ((missingColumns t.names).map Column.folded).Nodup :=
        (show (additive.map Column.folded).Nodup by decide).sublist
          (List.filter_sublist.map Column.folded)
      rw [hmissing, List.map_cons, List.nodup_cons] at hnd
      exact hnd.1 (List.mem_singleton.mp hsame ▸ List.mem_map_of_mem hc')
  · simp only [List.length_append, List.length_cons, List.length_nil] at hroom ⊢
    omega

/-- A statement that went through leaves a database that SQLite will alter, and fewer
    statements. -/
theorem alterable_step {p p' : Pc} (hat : At p db) (hable : Alterable db)
    (h : step p db = some (db', p')) : Alterable db' ∧ rank p' < rank p := by
  cases move_of_step hat h with
  | start =>
    have hlength : (missingTables db).length ≤ 2 := List.length_filter_le _ _
    exact ⟨hable, by simp only [rank]; omega⟩
  | create name table todo hmissing =>
    refine ⟨fun t ht => ?_, by simp [rank]⟩
    by_cases hname : name = "messages"
    · -- the new table has all columns
      subst hname
      obtain ⟨-, hlookup⟩ := missing_cons hmissing
      obtain rfl : messages = table := Option.some.inj hlookup
      obtain rfl : messages = t := by simpa using ht
      decide
    · rw [Function.update_of_ne (Ne.symm hname)] at ht
      exact hable t ht
  | read =>
    have hlength : (missingColumns (columnsOf db)).length ≤ 3 := List.length_filter_le _ _
    exact ⟨hable, by simp only [rank]; omega⟩
  | alter c todo t t' _ ht hmissing hadd =>
    exact ⟨alterable_alter ht hmissing hadd hable, by simp [rank]⟩

/-- A database that SQLite will alter stops no statement. -/
theorem isSome_step {p : Pc} (hat : At p db) (hable : Alterable db) :
    isDone p = true ∨ (step p db).isSome := by
  match p, hat with
  | .start, _ => exact .inr rfl
  | .creating ((name, table) :: todo), hat =>
    right
    simp [step, (missing_cons hat).1]
  | .creating [], _ => exact .inr rfl
  | .altering [], _ => exact .inl rfl
  | .altering (c :: todo), ⟨htables, hmissing⟩ =>
    right
    -- the table is there, and takes the column
    obtain ⟨t, ht⟩ := exists_messages htables
    simp only [columnsOf, ht, Option.map_some, Option.getD_some] at hmissing
    obtain ⟨hnew, hroom⟩ := hable t ht
    rw [hmissing] at hnew hroom
    have hadmits : ∀ c ∈ additive, c.Admits c.default := by decide
    have hmem : c ∈ missingColumns t.names := by simp [hmissing]
    have hcan : t.CanAdd c := by
      refine ⟨hnew c List.mem_cons_self, ?_, hadmits c (List.mem_of_mem_filter hmem)⟩
      rw [List.length_cons] at hroom
      omega
    obtain ⟨t', hadd⟩ := Option.isSome_iff_exists.mp (Table.isSome_addColumn.mpr hcan)
    simp [step, ht, hadd]

/-! ## The migration -/

/-- What a completed `init_db` leaves of a database. -/
structure Completed (db db' : Database) : Prop where
  table : ∃ t', db' "messages" = some t' ∧
    (∀ name ∈ ["transport", "notification_topic", "notification_priority"], name ∈ t'.names) ∧
    (db "messages" = none → t'.rows = []) ∧ ∀ t, db "messages" = some t → Migrated t t'
  others : ∀ name t, name ≠ "messages" → db name = some t → db' name = some t

/-- A database that needs no statement any more is the completed one. -/
theorem completed_migrate (htables : missingTables (migrate db) = [])
    (hcolumns : missingColumns (columnsOf (migrate db)) = []) : Completed db (migrate db) := by
  obtain ⟨t', ht'⟩ := exists_messages htables
  have hcomplete := names_of_missing_nil hcolumns ht'
  refine ⟨⟨t', ht', ?_, ?_, ?_⟩, ?_⟩
  · exact List.forall_mem_map.mpr hcomplete
  · intro hnone
    -- a new table has all columns and no rows
    have hnew : addMissing messages = messages := foldl_eq_self (by decide)
    obtain rfl : messages = t' := by
      simpa [migrate, createMissing, hnone, metadata, hnew] using ht'
    rfl
  · intro t ht
    obtain rfl : addMissing t = t' := by simpa [migrate, createMissing, ht] using ht'
    exact (widens_foldl (fun _ h => h) (.refl t)).migrated hcomplete
  · intro name t hname ht
    simp [migrate, createMissing, hname, ht]

end

/-- **The additive migration.**  A completed `init_db` leaves a `messages` table with all
    three columns, every earlier row with its values, and the missing ones filled, however
    often it was cut off before; running it again changes nothing.  A run that was cut off
    can be completed whenever SQLite will take the columns. -/
theorem init_db_migrates {db : Database} {tr : List Act} {s : State Pc Database}
    (hrun : Transition.Run (StepOf script.next) (.idle db) tr s) :
    (∀ tr₀, tr = tr₀ ++ [.finish] → Completed db s.committed ∧
      ∀ tr' u, Transition.Run (StepOf script.next) s tr' u →
        u.committed = s.committed ∧ u.working = s.committed) ∧
    (Alterable db → ∃ tr' u, Transition.Run (StepOf script.next) s (tr' ++ [.finish]) u) := by
  constructor
  · rintro tr₀ rfl
    obtain ⟨rfl, p, hat, hdone⟩ := approaches.finish hrun
    have hneeds : missingTables (migrate db) = [] ∧
        missingColumns (columnsOf (migrate db)) = [] := by
      match p, hat with
      | .altering [], hat => exact hat
    refine ⟨completed_migrate hneeds.1 hneeds.2, fun tr' u hagain => ?_⟩
    exact approaches.stable (migrate_eq_self hneeds.1 hneeds.2) hagain
  · intro hable
    exact approaches.exists_finish (fun _ _ => isSome_step) (fun _ _ _ _ => alterable_step)
      hable hrun

end InitDb

namespace Sample

/-- The `messages` table of an early version, with one row. -/
def oldTable : Table where
  columns := [⟨"id", "TEXT", false, .null⟩, ⟨"body", "TEXT", false, .null⟩]
  rows := [[.text "old", .text "preserved"]]
  distinct := by decide
  fits := by simp [Column.Admits]

def oldDb : Database := fun name => if name = "messages" then some oldTable else none

/-- The process dies after the second `ALTER TABLE`, of which only the first was committed;
    the next start runs to the end. -/
def interrupted : List Act :=
  [.start, .step, .step, .step, .step, .commit, .step, .crash,
    .start, .step, .step, .step, .step, .finish]

/-- The names and the rows of the `messages` table. -/
def contents (db : Database) : Option (List String × List (List Value)) :=
  (db "messages").map fun t => (t.names, t.rows)

end Sample

namespace InitDb

/-- A migration that was cut off between two statements and run again. -/
theorem init_db_migrates_interrupted : ∃ s,
    Transition.Run (StepOf script.next) (.idle Sample.oldDb) Sample.interrupted s ∧
    Sample.contents s.committed =
      some (["id", "body", "transport", "notification_topic", "notification_priority"],
        [[.text "old", .text "preserved", .text "sms", .null, .integer 3]]) ∧
    Completed Sample.oldDb s.committed ∧
    ∀ tr' u, Transition.Run (StepOf script.next) s tr' u →
      u.committed = s.committed ∧ u.working = s.committed := by
  obtain ⟨s, hrun, hs⟩ : ∃ s,
      Transition.Run (StepOf script.next) (.idle Sample.oldDb) Sample.interrupted s ∧
      Sample.contents s.committed =
        some (["id", "body", "transport", "notification_topic", "notification_priority"],
          [[.text "old", .text "preserved", .text "sms", .null, .integer 3]]) :=
    run_of_exec_map (by decide +kernel)
  exact ⟨s, hrun, hs, (init_db_migrates hrun).1 Sample.interrupted.dropLast rfl⟩

end InitDb

end SmsRelay
