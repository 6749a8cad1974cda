import SmsRelay.Native.Routes.Messages

/-!
# What the query API returns

`get_message` and `list_messages` look at the rows in the scope of the caller: the ones it
sent and the inbound ones.  The first checks the row it has found, the second narrows the
scope down, sorts it and cuts out a page.

## Key results

- `getMessage_eq_ok`: `get_message` serves the rows in the scope
- `messages_of_listMessages`: a page is a part of the sorted rows in the scope
-/

namespace SmsRelay

open ListMessages

/-- The rows a service may see, in insertion order: what was received, and its own. -/
def view (service : String) (db : Store) : List Message :=
  db.messages.filter fun m => m.direction = .inbound || m.service = service

variable {service : String} {db countDb : Store} {m : Message} {id : String} {order : RowOrder}
  {q : ListQuery}

/-- These are the rows in the scope of its queries. -/
theorem view_eq (service : String) (db : Store) :
    view service db = db.messages.filter (scope service) :=
  List.filter_congr fun _ _ => Bool.or_comm ..

theorem mem_view : m ∈ view service db ↔ m ∈ db.messages ∧ scope service m := by
  rw [view_eq, List.mem_filter]

/-- The condition of `get_message` is the scope of `list_messages`. -/
theorem scope_iff : scope service m = true ↔ ¬ (m.direction = .outbound ∧ m.service ≠ service) := by
  cases hdir : m.direction <;> simp [scope, hdir]

/-- `get_message` serves the rows in the scope. -/
theorem getMessage_eq_ok {out : MessageOut} : getMessage db service id = .ok out ↔
    ∃ m ∈ view service db, m.id = id ∧ out = MessageOut.of .loaded m := by
  -- Both branches that refuse are 404, so an answer leaves the row and its scope
  unfold getMessage
  constructor
  · intro h
    split at h
    · cases h
    · next m hm =>
      obtain ⟨hrow, hid⟩ := Store.message?_eq_some.mp hm
      split at h
      · cases h
      · next hscope =>
        exact ⟨m, mem_view.mpr ⟨hrow, scope_iff.mpr hscope⟩, hid, (Except.ok.inj h).symm⟩
  · rintro ⟨m, hm, hid, rfl⟩
    obtain ⟨hrow, hscope⟩ := mem_view.mp hm
    simp only [Store.message?_eq_some.mpr ⟨hrow, hid⟩]
    rw [if_neg (scope_iff.mp hscope)]

/-- The filters of `list_messages` narrow down the scope. -/
theorem filter_filters (db : Store) : db.messages.filter (filters service q) =
    (view service db).filter fun m => passes q.direction m.direction.value &&
      passes q.status m.status.value := by
  rw [view_eq, List.filter_filter]
  refine List.filter_congr fun m _ => ?_
  simp only [filters]
  cases scope service m <;> simp

/-- What `list_messages` returns is part of the ordered rows. -/
theorem messages_of_listMessages {list : MessageList}
    (h : listMessages order countDb db service q = .ok list) :
    ∃ page : List Message, page.Sublist (ordered order db service q) ∧
      list.messages = page.map (MessageOut.of .loaded) := by
  unfold listMessages at h
  dsimp only at h
  split at h
  · -- an offset that SQLite cannot bind
    cases h
  · obtain rfl := Except.ok.inj h
    exact ⟨_, (List.take_sublist _ _).trans (List.drop_sublist _ _), rfl⟩

/-- The ordered rows are rows in the scope. -/
theorem mem_of_ordered (h : m ∈ ordered order db service q) : m ∈ view service db := by
  have hrow := (order.perm _ _ _ _).mem_iff.mp h
  rw [filter_filters] at hrow
  exact (List.mem_filter.mp hrow).1

end SmsRelay
