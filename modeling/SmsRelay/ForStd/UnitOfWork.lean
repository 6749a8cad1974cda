import Mathlib.Data.List.Nodup
import Mathlib.Data.List.Basic

/-!
# Unit of work: objects loaded from a table and written back

An object-relational session keeps, for each row it has loaded, the values as
loaded and the values the program has assigned since.  A flush issues, for each
object with a net change, one `UPDATE` by primary key that sets the changed columns
and no others: columns that another session has written in between survive, and
nothing checks that the row is still what was loaded.  A row that is gone makes the
flush fail.

`Tracked` is such an object, `column` the rule for one column, `Entity` a row type
with its key and its column-wise `UPDATE`, and `flush` the whole write.
-/

namespace UnitOfWork

/-- An object of the session: the row as loaded and as the program sees it now. -/
structure Tracked (ρ : Type) where
  loaded : ρ
  current : ρ
  deriving DecidableEq, Repr

/-- The value an `UPDATE` leaves in one column of `row`: the column is in the `SET`
    clause exactly when the program changed it. -/
def column {α : Type} [DecidableEq α] (loaded current row : α) : α :=
  if current = loaded then row else current

section
variable {α : Type} [DecidableEq α]

/-- An unassigned column keeps what the row has. -/
@[simp] theorem column_unchanged (a row : α) : column a a row = row := by
  simp [column]

/-- On a row that is still as loaded, the column ends up as the program left it. -/
@[simp] theorem column_same (loaded current : α) : column loaded current loaded = current := by
  unfold column
  split
  · next h => exact h.symm
  · rfl

/-- Writing a column onto the program's own value changes nothing. -/
@[simp] theorem column_current (loaded current : α) :
    column loaded current current = current := by
  simp [column]

end

/-- A row type with primary key `key` and its `UPDATE`: `update now loaded current row`
    is `row` after the changed columns were set, where `now` feeds the columns the
    database layer maintains by itself (an "updated at" stamp). -/
class Entity (ρ : Type) (κ τ : outParam Type) where
  key : ρ → κ
  update : τ → ρ → ρ → ρ → ρ
  key_update : ∀ now loaded current row,
    key current = key loaded → key (update now loaded current row) = key row

namespace Tracked

variable {ρ κ τ : Type} [DecidableEq ρ] [DecidableEq κ] [Entity ρ κ τ]

/-- A freshly loaded object. -/
def load (r : ρ) : Tracked ρ := ⟨r, r⟩

/-- Assign attributes of the object. -/
def assign (o : Tracked ρ) (f : ρ → ρ) : Tracked ρ := { o with current := f o.current }

/-- The object has a net change. -/
def Dirty (o : Tracked ρ) : Prop := o.current ≠ o.loaded

instance (o : Tracked ρ) : Decidable o.Dirty := inferInstanceAs (Decidable (_ ≠ _))

/-- The object as the program sees it once its flush has succeeded. -/
def saved (now : τ) (o : Tracked ρ) : ρ :=
  if o.Dirty then Entity.update now o.loaded o.current o.current else o.current

/-- The effect of the object's `UPDATE`, if any, on a row of the table. -/
def writeTo (now : τ) (o : Tracked ρ) (r : ρ) : ρ :=
  if o.Dirty ∧ Entity.key r = Entity.key o.loaded then
    Entity.update now o.loaded o.current r
  else r

omit [DecidableEq ρ] in
@[simp] theorem load_loaded (r : ρ) : (load r).loaded = r := rfl

omit [DecidableEq ρ] in
@[simp] theorem load_current (r : ρ) : (load r).current = r := rfl

omit [DecidableEq ρ] in
@[simp] theorem assign_loaded (o : Tracked ρ) (f : ρ → ρ) : (o.assign f).loaded = o.loaded := rfl

omit [DecidableEq ρ] in
@[simp] theorem assign_current (o : Tracked ρ) (f : ρ → ρ) :
    (o.assign f).current = f o.current := rfl

omit [DecidableEq ρ] in
@[simp] theorem not_dirty_load (r : ρ) : ¬ (load r).Dirty := by
  simp [Dirty]

/-- An object that kept its key keeps the key of the row it writes to. -/
theorem key_writeTo (now : τ) (o : Tracked ρ) (r : ρ)
    (hkey : Entity.key o.current = Entity.key o.loaded) :
    Entity.key (o.writeTo now r) = Entity.key r := by
  unfold writeTo
  split
  · exact Entity.key_update now _ _ _ hkey
  · rfl

/-- Rows with another key are not touched. -/
theorem writeTo_of_key_ne (now : τ) (o : Tracked ρ) {r : ρ}
    (h : Entity.key r ≠ Entity.key o.loaded) : o.writeTo now r = r := by
  simp [writeTo, h]

end Tracked

section Flush

variable {ρ κ τ : Type} [DecidableEq ρ] [DecidableEq κ] [Entity ρ κ τ]

/-- All `UPDATE`s of a flush, seen from one row. -/
def flushRow (now : τ) (objs : List (Tracked ρ)) (r : ρ) : ρ :=
  objs.foldl (fun r o => o.writeTo now r) r

/-- Every object to be written still has its row. -/
def Matched (objs : List (Tracked ρ)) (rows : List ρ) : Prop :=
  ∀ o ∈ objs, o.Dirty → ∃ r ∈ rows, Entity.key r = Entity.key o.loaded

instance (objs : List (Tracked ρ)) (rows : List ρ) : Decidable (Matched objs rows) :=
  inferInstanceAs (Decidable (∀ o ∈ objs, o.Dirty → ∃ r ∈ rows, _))

/-- The table after a flush, or `none` when some `UPDATE` matched no row. -/
def flush (now : τ) (objs : List (Tracked ρ)) (rows : List ρ) : Option (List ρ) :=
  if Matched objs rows then some (rows.map (flushRow now objs)) else none

/-- No object changes the key of its row. -/
def KeepsKeys (objs : List (Tracked ρ)) : Prop :=
  ∀ o ∈ objs, Entity.key o.current = Entity.key o.loaded

theorem flush_eq_some {now : τ} {objs : List (Tracked ρ)} {rows rows' : List ρ} :
    flush now objs rows = some rows' ↔
      Matched objs rows ∧ rows' = rows.map (flushRow now objs) := by
  unfold flush
  split
  · next h => simp [h, eq_comm]
  · next h => simp [h]

@[simp] theorem flushRow_nil (now : τ) (r : ρ) : flushRow now [] r = r := rfl

@[simp] theorem flushRow_cons (now : τ) (o : Tracked ρ) (objs : List (Tracked ρ)) (r : ρ) :
    flushRow now (o :: objs) r = flushRow now objs (o.writeTo now r) := rfl

/-- What no object changes of a row, a flush does not change. -/
theorem flushRow_frame {β : Type} (f : ρ → β) (now : τ) {objs : List (Tracked ρ)}
    (h : ∀ o ∈ objs, ∀ r, f (o.writeTo now r) = f r) (r : ρ) :
    f (flushRow now objs r) = f r := by
  induction objs generalizing r with
  | nil => rfl
  | cons o objs ih =>
    rw [flushRow_cons, ih fun o' ho' => h o' (List.mem_cons_of_mem _ ho'),
      h o List.mem_cons_self]

/-- A row none of whose objects is dirty is left alone. -/
theorem flushRow_eq_self (now : τ) {objs : List (Tracked ρ)} {r : ρ}
    (h : ∀ o ∈ objs, o.Dirty → Entity.key r ≠ Entity.key o.loaded) :
    flushRow now objs r = r := by
  induction objs with
  | nil => rfl
  | cons o objs ih =>
    have hself : o.writeTo now r = r := by
      unfold Tracked.writeTo
      split
      · next hd => exact absurd hd.2 (h o List.mem_cons_self hd.1)
      · rfl
    rw [flushRow_cons, hself]
    exact ih fun o' ho' => h o' (List.mem_cons_of_mem _ ho')

/-- When the objects belong to different rows, a flush does to a row what the one
    object of that row does. -/
theorem flushRow_of_mem (now : τ) {objs : List (Tracked ρ)} {o : Tracked ρ} {r : ρ}
    (hkeys : KeepsKeys objs) (hnd : (objs.map fun o => Entity.key o.loaded).Nodup)
    (ho : o ∈ objs) (hr : Entity.key r = Entity.key o.loaded) :
    flushRow now objs r = o.writeTo now r := by
  induction objs generalizing r with
  | nil => simp at ho
  | cons p objs ih =>
    rw [List.map_cons, List.nodup_cons] at hnd
    have hkeys' : KeepsKeys objs := fun o' ho' => hkeys o' (List.mem_cons_of_mem _ ho')
    rw [flushRow_cons]
    rcases List.mem_cons.mp ho with rfl | ho
    · -- The object is written first, and the later objects belong to other rows
      refine flushRow_eq_self now fun o' ho' _ heq => hnd.1 ?_
      rw [Tracked.key_writeTo now o r (hkeys o List.mem_cons_self), hr] at heq
      exact List.mem_map.mpr ⟨o', ho', heq.symm⟩
    · -- The first object belongs to another row, so `r` reaches the rest unchanged
      have hne : Entity.key r ≠ Entity.key p.loaded := fun heq =>
        hnd.1 (List.mem_map.mpr ⟨o, ho, hr.symm.trans heq⟩)
      rw [Tracked.writeTo_of_key_ne now p hne]
      exact ih hkeys' hnd.2 ho hr

/-- What a flush can do to one row: nothing, or the `UPDATE` of one dirty object. -/
theorem flushRow_cases (now : τ) {objs : List (Tracked ρ)} (hkeys : KeepsKeys objs)
    (hnd : (objs.map fun o => Entity.key o.loaded).Nodup) (r : ρ) :
    flushRow now objs r = r ∨ ∃ o ∈ objs, o.Dirty ∧ Entity.key r = Entity.key o.loaded ∧
      flushRow now objs r = Entity.update now o.loaded o.current r := by
  by_cases h : ∃ o ∈ objs, o.Dirty ∧ Entity.key r = Entity.key o.loaded
  · obtain ⟨o, ho, hdirty, hr⟩ := h
    refine .inr ⟨o, ho, hdirty, hr, ?_⟩
    rw [flushRow_of_mem now hkeys hnd ho hr, Tracked.writeTo, if_pos ⟨hdirty, hr⟩]
  · exact .inl (flushRow_eq_self now fun o ho hd hr => h ⟨o, ho, hd, hr⟩)

end Flush

end UnitOfWork
