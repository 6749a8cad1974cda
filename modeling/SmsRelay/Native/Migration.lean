import Mathlib.Data.List.Nodup
import Mathlib.Data.List.Forall2
import Mathlib.Logic.Function.Basic
import SmsRelay.ForStd.Restart

/-!
# `init_db`

The database as SQLite holds it, with tables of named columns, and `init_db` of
`sms_relay/db.py` as a script over it: `create_all`, the `PRAGMA`, and the three guarded
`ALTER TABLE` statements.

`init_db` runs in one `engine.begin()` block, but the driver does not open a transaction
before a DDL statement, so each statement may be committed on its own.
-/

namespace SmsRelay

/-- A value of one of the storage classes of SQLite. -/
inductive Value where
  | null
  | integer (n : Int)
  /-- The bits of a double; nothing is computed with them. -/
  | real (bits : BitVec 64)
  | text (s : String)
  | blob (bytes : List UInt8)
  deriving DecidableEq, Repr

/-- A column definition. -/
structure Column where
  name : String
  type : String
  notNull : Bool
  /-- The value after `DEFAULT`, or `NULL`. -/
  default : Value
  deriving DecidableEq, Repr

namespace Column

/-- SQLite compares names without regard to the case of ASCII letters. -/
def folded (c : Column) : List Char := c.name.toList.map Char.toLower

/-- The `NOT NULL` constraint. -/
def Admits (c : Column) (v : Value) : Prop := c.notNull = true → v ≠ .null

instance (c : Column) (v : Value) : Decidable (c.Admits v) :=
  inferInstanceAs (Decidable (_ → _))

end Column

/-- A table.  A row has one value for each column. -/
structure Table where
  columns : List Column
  rows : List (List Value)
  distinct : (columns.map Column.folded).Nodup
  fits : ∀ row ∈ rows, List.Forall₂ Column.Admits columns row

namespace Table

/-- The names that `PRAGMA table_info` lists. -/
def names (t : Table) : List String := t.columns.map Column.name

/-- The value that a row has in the named column. -/
def value (t : Table) (name : String) (row : List Value) : Option Value :=
  (t.names.zip row).lookup name

/-- `CREATE TABLE` -/
def create (columns : List Column) (distinct : (columns.map Column.folded).Nodup) : Table :=
  ⟨columns, [], distinct, fun _ h => absurd h List.not_mem_nil⟩

/-- `SQLITE_MAX_COLUMN` -/
def maxColumns : Nat := 2000

/-- What SQLite asks of `ADD COLUMN`: a new name, room for it, and a default that the
    column admits. -/
def CanAdd (t : Table) (c : Column) : Prop :=
  c.folded ∉ t.columns.map Column.folded ∧ t.columns.length < maxColumns ∧ c.Admits c.default

instance (t : Table) (c : Column) : Decidable (t.CanAdd c) :=
  inferInstanceAs (Decidable (_ ∧ _))

/-- `ALTER TABLE ... ADD COLUMN`: every row has the default in the new column. -/
def addColumn (t : Table) (c : Column) : Option Table :=
  if h : t.CanAdd c then
    some
      { columns := t.columns ++ [c]
        rows := t.rows.map fun row => row ++ [c.default]
        distinct := by
          rw [List.map_append, List.nodup_append]
          refine ⟨t.distinct, List.nodup_singleton _, fun a ha b hb hab => ?_⟩
          obtain rfl := List.mem_singleton.mp hb
          exact h.1 (hab ▸ ha)
        fits := fun row hrow => by
          obtain ⟨old, hold, rfl⟩ := List.mem_map.mp hrow
          exact List.rel_append (t.fits old hold) (.cons h.2.2 .nil) }
  else none

end Table

/-- The tables of the database under their names, which SQLite finds in any case of their
    letters. -/
abbrev Database := String → Option Table

namespace InitDb

/-- `Message.__table__`, as `CREATE TABLE` has it. -/
def messages : Table := .create
  [⟨"id", "VARCHAR(36)", true, .null⟩,
    ⟨"direction", "VARCHAR(16)", true, .null⟩,
    ⟨"status", "VARCHAR(16)", true, .null⟩,
    ⟨"to_number", "VARCHAR(20)", false, .null⟩,
    ⟨"from_number", "VARCHAR(20)", false, .null⟩,
    ⟨"body", "TEXT", true, .null⟩,
    ⟨"service", "VARCHAR(64)", true, .null⟩,
    ⟨"idempotency_key", "VARCHAR(128)", false, .null⟩,
    ⟨"transport", "VARCHAR(16)", true, .text "sms"⟩,
    ⟨"notification_topic", "VARCHAR(64)", false, .null⟩,
    ⟨"notification_priority", "INTEGER", true, .text "3"⟩,
    ⟨"attempts", "INTEGER", true, .null⟩,
    ⟨"next_attempt_at", "DATETIME", false, .null⟩,
    ⟨"provider_message_id", "VARCHAR(128)", false, .null⟩,
    ⟨"error", "TEXT", false, .null⟩,
    ⟨"created_at", "DATETIME", true, .null⟩,
    ⟨"updated_at", "DATETIME", true, .null⟩,
    ⟨"sent_at", "DATETIME", false, .null⟩]
  (by decide)

/-- `WebhookDelivery.__table__` -/
def webhookDeliveries : Table := .create
  [⟨"id", "VARCHAR(36)", true, .null⟩,
    ⟨"message_id", "VARCHAR(36)", true, .null⟩,
    ⟨"subscriber", "VARCHAR(64)", true, .null⟩,
    ⟨"url", "TEXT", true, .null⟩,
    ⟨"status", "VARCHAR(16)", true, .null⟩,
    ⟨"attempts", "INTEGER", true, .null⟩,
    ⟨"next_attempt_at", "DATETIME", false, .null⟩,
    ⟨"response_code", "INTEGER", false, .null⟩,
    ⟨"error", "TEXT", false, .null⟩,
    ⟨"created_at", "DATETIME", true, .null⟩,
    ⟨"updated_at", "DATETIME", true, .null⟩]
  (by decide)

/-- `Base.metadata`, the referenced table first. -/
def metadata : List (String × Table) :=
  [("messages", messages), ("webhook_deliveries", webhookDeliveries)]

/-- `transport VARCHAR(16) NOT NULL DEFAULT 'sms'` -/
def transport : Column := ⟨"transport", "VARCHAR(16)", true, .text "sms"⟩

/-- `notification_topic VARCHAR(64)` -/
def notificationTopic : Column := ⟨"notification_topic", "VARCHAR(64)", false, .null⟩

/-- `notification_priority INTEGER NOT NULL DEFAULT 3` -/
def notificationPriority : Column := ⟨"notification_priority", "INTEGER", true, .integer 3⟩

/-- The columns of the `ALTER TABLE` statements, in their order. -/
def additive : List Column := [transport, notificationTopic, notificationPriority]

/-- The tables that `create_all` does not find. -/
def missingTables (db : Database) : List (String × Table) :=
  metadata.filter fun entry => (db entry.1).isNone

/-- `{row[1] for row in PRAGMA table_info(messages)}`; without a table there are no rows. -/
def columnsOf (db : Database) : List String := ((db "messages").map Table.names).getD []

/-- The `ALTER TABLE` statements whose `if` lets them through. -/
def missingColumns (columns : List String) : List Column :=
  additive.filter fun c => c.name ∉ columns

/-- Where `init_db` stands. -/
inductive Pc where
  /-- `create_all` is about to look for the tables. -/
  | start
  /-- `CREATE TABLE` for the rest of the missing tables, then the `PRAGMA`. -/
  | creating (todo : List (String × Table))
  /-- The rest of the `ALTER TABLE` statements. -/
  | altering (todo : List Column)

/-- The next statement. -/
def step : Pc → Database → Option (Database × Pc)
  | .start, db => some (db, .creating (missingTables db))
  | .creating ((name, table) :: todo), db =>
    -- `table ... already exists`
    if (db name).isSome then none else some (Function.update db name (some table), .creating todo)
  | .creating [], db => some (db, .altering (missingColumns (columnsOf db)))
  | .altering (column :: todo), db =>
    ((db "messages").bind fun table => table.addColumn column).map fun table =>
      (Function.update db "messages" (some table), .altering todo)
  | .altering [], _ => none

/-- The block ends and commits. -/
def isDone : Pc → Bool
  | .altering [] => true
  | _ => false

/-- `init_db`, which may be cut off and run again. -/
def script : Restart.Script Pc Database := ⟨.start, step, isDone⟩

end InitDb

end SmsRelay
