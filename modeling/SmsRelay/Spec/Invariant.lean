import SmsRelay.Spec.Lifecycle
import SmsRelay.Spec.Transitions

/-!
# The system invariant

The invariant couples the committed rows with every object some session still holds:

* the send loop's object is the committed row itself, because nobody else writes rows
  that are queued or being sent;
* a row the status loop or a receipt has loaded may have changed since, but only along
  the life of a row (`Tracks`), which survives any step of any party;
* ids that an API call is about to commit are in nobody's hands yet (`Settled`).

## Key results

- `rows_origin`: where each row of the next state comes from
- `Tracks.step`: a loaded object keeps standing for its row
- `inv_step`, `inv_reachable`: the invariant holds in every reachable state
-/

namespace SmsRelay

open UnitOfWork

/-! ## Rows on their way into the database -/

/-- The rows an API call is about to commit: `inl` numbers the calls of `send_message`,
    `inr` those of `android_gateway_inbound`. -/
def Sys.callRows (s : Sys) : Nat ⊕ Nat → List Message
  | .inl call => (s.sendMessages call).rows
  | .inr call => (s.inbounds call).rows

/-- The direction of the rows a call commits. -/
def callDirection : Nat ⊕ Nat → Direction
  | .inl _ => .outbound
  | .inr _ => .inbound

/-- The id is on a row that call `c` is about to commit. -/
def Sys.Pending (s : Sys) (c : Nat ⊕ Nat) (id : String) : Prop :=
  ∃ m ∈ s.callRows c, m.id = id

/-- The id was drawn, and no call is about to commit a row under it: if the database
    does not have such a row now, it never will. -/
def Sys.Settled (s : Sys) (id : String) : Prop := id ∈ s.used ∧ ∀ c, ¬ s.Pending c id

/-- `m` is its row of the database, or an earlier version of it, or the row is gone. -/
def Tracks (cfg : Settings) (s : Sys) (m : Message) : Prop :=
  s.Settled m.id ∧ ∀ r ∈ s.db.messages, r.id = m.id → Evolved cfg m r

/-! ## The parts of the invariant -/

/-- The objects of the send loop, by program point. -/
def SendInv (cfg : Settings) (db : Store) : SendLoop.Pc → Prop
  | .idle => True
  | .claiming => True
  | .requeueing objs => (objs.map fun o => o.loaded.id).Nodup ∧ ∀ o ∈ objs,
      o.loaded ∈ db.messages ∧ o.loaded.status = .sending ∧
        ∃ t, o.current = SendLoop.requeue t o.loaded
  | .claimed o => o.loaded ∈ db.messages ∧ SendLoop.isDue o.current.updatedAt o.loaded ∧
      ∃ t, o.current = SendLoop.claim t o.loaded
  | .toPublish m => m ∈ db.messages ∧ m.status = .sending ∧ m.transport = .ntfy
  | .publishing m => m ∈ db.messages ∧ m.status = .sending ∧ m.transport = .ntfy
  | .acknowledged o => o.loaded ∈ db.messages ∧ o.loaded.status = .sending ∧
      o.loaded.transport = .ntfy ∧
        ∃ receipt t, o.current = SendLoop.markPublished receipt t o.loaded
  | .fellBack o => o.loaded ∈ db.messages ∧ o.loaded.status = .sending ∧
      o.loaded.transport = .ntfy ∧ o.current = SendLoop.fallBack o.loaded
  | .limiting m => m ∈ db.messages ∧ m.status = .sending ∧ m.transport ≠ .ntfy
  | .sending m => m ∈ db.messages ∧ m.status = .sending ∧ m.transport ≠ .ntfy
  | .finishing o => o.loaded ∈ db.messages ∧ o.loaded.status = .sending ∧
      o.loaded.transport ≠ .ntfy ∧
        ((∃ message permanent t,
            o.current = SendLoop.recordFailure cfg message permanent t o.loaded) ∨
          ∃ pid t, o.current = SendLoop.markSent pid t o.loaded)
  | .unbindable m => m ∈ db.messages ∧ m.status = .sending

/-- A row loaded by the status loop, with what the poll made of it. -/
structure Polled (cfg : Settings) (o : Tracked Message) : Prop where
  sent : o.loaded.status = .sent
  posted : Posted cfg o.loaded
  upgraded : ∃ status, (status = none ∨ status = some .sent ∨ status = some .delivered ∨
    status = some .failed) ∧ o.current = StatusLoop.upgrade status o.loaded

/-- **The system invariant.** -/
structure Inv (cfg : Settings) (s : Sys) : Prop where
  row : ∀ m ∈ s.db.messages, RowInv cfg m ∧ s.Settled m.id
  call_row : ∀ c, ∀ m ∈ s.callRows c,
    (RowInv cfg m ∧ m.IsNew (callDirection c)) ∧ m.id ∈ s.used
  call_unique : ∀ c c' id, s.Pending c id → s.Pending c' id → c = c'
  send : SendInv cfg s.db s.send
  status_nodup : (s.status.objs.map fun o => o.loaded.id).Nodup
  status : ∀ o ∈ s.status.objs, Polled cfg o ∧ Tracks cfg s o.loaded
  receipt : ∀ call, ∀ o ∈ (s.inbounds call).receiptObj,
    o.current = Inbound.markDelivered o.loaded ∧ o.loaded.providerMessageId.isSome ∧
      o.loaded.LeftQueue ∧ Tracks cfg s o.loaded

/-! ## The send loop's objects -/

/-- The loop's objects are committed rows, and the loop changes them as rows change. -/
theorem SendInv.objs {cfg : Settings} {db : Store} {pc : SendLoop.Pc} (h : SendInv cfg db pc) :
    (pc.objs.map fun o => o.loaded.id).Nodup ∧
      ∀ o ∈ pc.objs, o.loaded ∈ db.messages ∧ SendChange cfg o.loaded o.current := by
  -- A requeue has many objects, the other commits have the one in hand
  cases pc with
  | requeueing objs =>
    refine ⟨h.1, fun o ho => ?_⟩
    obtain ⟨hmem, hs, t, ht⟩ := h.2 o ho
    exact ⟨hmem, ht ▸ .requeue t hs⟩
  | claimed o =>
    refine ⟨by simp [SendLoop.Pc.objs], fun o' ho' => ?_⟩
    obtain rfl := List.mem_singleton.mp ho'
    obtain ⟨hmem, hdue, t, ht⟩ := h
    have hq : o'.loaded.direction = .outbound ∧ o'.loaded.status = .queued := by
      simp only [SendLoop.isDue, Bool.and_eq_true, decide_eq_true_eq] at hdue
      exact hdue.1
    exact ⟨hmem, ht ▸ .claim t hq.1 hq.2⟩
  | acknowledged o =>
    refine ⟨by simp [SendLoop.Pc.objs], fun o' ho' => ?_⟩
    obtain rfl := List.mem_singleton.mp ho'
    obtain ⟨hmem, hs, htr, receipt, t, ht⟩ := h
    exact ⟨hmem, ht ▸ .published receipt t hs htr⟩
  | fellBack o =>
    refine ⟨by simp [SendLoop.Pc.objs], fun o' ho' => ?_⟩
    obtain rfl := List.mem_singleton.mp ho'
    obtain ⟨hmem, hs, htr, ht⟩ := h
    exact ⟨hmem, ht ▸ .fallBack hs htr⟩
  | finishing o =>
    refine ⟨by simp [SendLoop.Pc.objs], fun o' ho' => ?_⟩
    obtain rfl := List.mem_singleton.mp ho'
    obtain ⟨hmem, hs, htr, ⟨message, permanent, t, ht⟩ | ⟨pid, t, ht⟩⟩ := h
    · exact ⟨hmem, ht ▸ .failure message permanent t hs htr⟩
    · exact ⟨hmem, ht ▸ .sent pid t hs htr⟩
  | _ => exact ⟨by simp [SendLoop.Pc.objs], by simp [SendLoop.Pc.objs]⟩

/-- The send loop does not notice commits that leave queued and sending rows alone. -/
theorem SendInv.mono {cfg : Settings} {db db' : Store} {pc : SendLoop.Pc}
    (h : SendInv cfg db pc)
    (hkeep : ∀ m ∈ db.messages, ¬ m.LeftQueue → m ∈ db'.messages) : SendInv cfg db' pc := by
  have hsending : ∀ m ∈ db.messages, m.status = .sending → m ∈ db'.messages :=
    fun m hm hs => hkeep m hm fun hleft => hleft.2 hs
  cases pc with
  | idle | claiming => trivial
  | requeueing objs =>
    exact ⟨h.1, fun o ho => ⟨hsending _ (h.2 o ho).1 (h.2 o ho).2.1, (h.2 o ho).2⟩⟩
  | claimed o =>
    have hq : o.loaded.status = .queued := by
      have hdue := h.2.1
      simp only [SendLoop.isDue, Bool.and_eq_true, decide_eq_true_eq] at hdue
      exact hdue.1.2
    exact ⟨hkeep _ h.1 fun hleft => hleft.1 hq, h.2⟩
  | toPublish | publishing | acknowledged | fellBack | limiting | sending | finishing =>
    exact ⟨hsending _ h.1 h.2.1, h.2⟩
  | unbindable => exact ⟨hsending _ h.1 h.2, h.2⟩

/-- A commit of objects that are the committed rows replaces each such row by the saved
    object and leaves the other rows alone. -/
theorem mem_update_loaded {db db' : Store} {now : Time} {objs : List (Tracked Message)}
    (hnd : (objs.map fun o => o.loaded.id).Nodup)
    (hloaded : ∀ o ∈ objs, o.loaded ∈ db.messages ∧ o.current.id = o.loaded.id)
    (h : db.updateMessages now objs = some db') {r' : Message} (hr' : r' ∈ db'.messages) :
    (r' ∈ db.messages ∧ ∀ o ∈ objs, r'.id ≠ o.loaded.id) ∨ ∃ o ∈ objs, r' = o.saved now := by
  obtain ⟨-, hms, -⟩ := Store.updateMessages_eq_some.mp h
  have hkeys : KeepsKeys objs := fun o ho => (hloaded o ho).2
  rw [hms] at hr'
  obtain ⟨r, hr, rfl⟩ := List.mem_map.mp hr'
  -- at most one of the objects is for the row
  by_cases hobj : ∃ o ∈ objs, r.id = o.loaded.id
  · obtain ⟨o, ho, hid⟩ := hobj
    obtain rfl := Store.eq_of_id hr (hloaded o ho).1 hid
    exact .inr ⟨o, ho, by rw [flushRow_of_mem now hkeys hnd ho rfl, Message.writeTo_loaded]⟩
  · have hne : ∀ o ∈ objs, r.id ≠ o.loaded.id := fun o ho hid => hobj ⟨o, ho, hid⟩
    rw [flushRow_eq_self now fun o ho _ => hne o ho]
    exact .inl ⟨hr, hne⟩

/-- A commit that reaches its rows, and leaves the columns of every constraint alone, does
    not fail. -/
theorem Store.exists_updateMessages {db : Store} {now : Time} {objs : List (Tracked Message)}
    (hmatched : Matched objs db.messages)
    (hcontent : ∀ r ∈ db.messages, (flushRow now objs r).content = r.content) :
    ∃ db', db.updateMessages now objs = some db' := by
  have hids : (db.messages.map (flushRow now objs)).map Message.id =
      db.messages.map Message.id := by
    rw [List.map_map]
    exact List.map_congr_left fun r hr => Message.id_eq_of_content (hcontent r hr)
  have hidem : (db.messages.map (flushRow now objs)).filterMap Message.idemKey =
      db.messages.filterMap Message.idemKey := by
    rw [List.filterMap_map]
    exact List.filterMap_congr fun r hr => Message.idemKey_eq_of_content (hcontent r hr)
  have hintegrity : Integrity (db.messages.map (flushRow now objs)) db.deliveries := by
    refine ⟨?_, ?_, db.integrity.pkDeliveries, db.integrity.uqMessageSubscriber, ?_⟩
    · rw [hids]
      exact db.integrity.pkMessages
    · rw [hidem]
      exact db.integrity.uqServiceIdem
    · rw [hids]
      exact db.integrity.fkMessage
  exact ⟨⟨_, db.deliveries, hintegrity⟩, Store.updateMessages_eq_some.mpr ⟨hmatched, rfl, rfl⟩⟩

section
variable {cfg : Settings} {db db' : Store} {pc : SendLoop.Pc} {now : Time}

/-- The send loop's objects keep the keys of their rows. -/
theorem SendInv.keepsKeys (hi : SendInv cfg db pc) : KeepsKeys pc.objs := fun o ho =>
  Message.id_eq_of_content (hi.objs.2 o ho).2.frame

/-- A flush of the send loop's objects leaves a committed row alone, or makes it one of
    them. -/
theorem SendInv.flushRow_cases (hi : SendInv cfg db pc) (now : Time) {r : Message}
    (hr : r ∈ db.messages) : flushRow now pc.objs r = r ∨ ∃ o ∈ pc.objs, o.loaded = r ∧
      ∃ stamp, flushRow now pc.objs r = { o.current with updatedAt := stamp } := by
  rcases UnitOfWork.flushRow_cases now hi.keepsKeys hi.objs.1 r with heq | ⟨o, ho, -, hid, heq⟩
  · exact .inl heq
  · obtain rfl : o.loaded = r := Store.eq_of_id (hi.objs.2 o ho).1 hr hid.symm
    exact .inr ⟨o, ho, rfl, _, heq.trans (Message.update_loaded now _ _)⟩

/-- A row after the commit of the send loop's objects is one that it was not about, or one
    of the saved objects. -/
theorem SendInv.mem_commit (hi : SendInv cfg db pc)
    (hdb : db.updateMessages now pc.objs = some db') {r : Message} (hr : r ∈ db'.messages) :
    (r ∈ db.messages ∧ ∀ o ∈ pc.objs, r.id ≠ o.loaded.id) ∨ ∃ o ∈ pc.objs, r = o.saved now :=
  mem_update_loaded hi.objs.1 (fun o ho => ⟨(hi.objs.2 o ho).1, hi.keepsKeys o ho⟩) hdb hr

end

/-- The `UPDATE` of an object on which only the status was changed. -/
theorem update_of_status {o : Tracked Message} {status : MessageStatus} (now : Time)
    (hcur : o.current = { o.loaded with status := status }) (hdirty : o.Dirty) (r : Message) :
    Entity.update now o.loaded o.current r =
      { r with status := o.current.status, updatedAt := now } := by
  have hne : status ≠ o.loaded.status := by
    rintro rfl
    exact hdirty hcur
  rw [hcur, Message.update_status, column, if_neg hne]

/-- The committed object is in the database. -/
theorem saved_mem {db db' : Store} {now : Time} {o : Tracked Message}
    (hmem : o.loaded ∈ db.messages) (h : db.updateMessages now [o] = some db') :
    o.saved now ∈ db'.messages := by
  obtain ⟨-, hms, -⟩ := Store.updateMessages_eq_some.mp h
  rw [hms]
  exact List.mem_map.mpr ⟨o.loaded, hmem, Message.writeTo_loaded now o⟩

/-! ## Where the rows of the next state come from -/

/-- The calls that a label moves. -/
def Action.caller : Action → Option (Nat ⊕ Nat)
  | .sendMessage call _ => some (.inl call)
  | .inbound call _ => some (.inr call)
  | _ => none

/-- The call whose rows a label commits. -/
def Action.commits : Action → Option (Nat ⊕ Nat)
  | .sendMessage call .commit => some (.inl call)
  | .inbound call (.commit _) => some (.inr call)
  | _ => none

/-- The commit of a party that turns the committed row `r` into another one. -/
inductive RowCause (s : Sys) (r : Message) : Action → Message → Prop
  | send {o : Tracked Message} {now stamp : Time} : o ∈ s.send.objs → o.loaded = r →
      RowCause s r (.send (.commit now)) { o.current with updatedAt := stamp }
  | poll {objs : List (Tracked Message)} {o : Tracked Message} {now : Time} :
      s.status = .committing objs → o ∈ objs → o.Dirty → o.loaded.id = r.id →
      RowCause s r (.status (.commit now))
        { r with status := o.current.status, updatedAt := now }
  | receipt {call : Nat} {o : Tracked Message} {now : Time} :
      s.inbounds call = .receiptCommit o → o.Dirty → o.loaded.id = r.id →
      RowCause s r (.inbound call (.commit now))
        { r with status := .delivered, updatedAt := now }

/-- What a step does to the table of messages. -/
inductive RowsStep (cfg : Settings) (s : Sys) (a : Action) (t : Sys) : Prop
  | same : t.db.messages = s.db.messages → RowsStep cfg s a t
  | change (f : Message → Message) : t.db.messages = s.db.messages.map f →
      (∀ r ∈ s.db.messages, f r = r ∨ RowCause s r a (f r)) → RowsStep cfg s a t
  | prune (now : Time) : a = .prune now → t.db = SmsRelay.prune cfg now s.db →
      RowsStep cfg s a t
  | insert (c : Nat ⊕ Nat) : a.commits = some c →
      t.db.messages = s.db.messages ++ s.callRows c → t.callRows c = [] → RowsStep cfg s a t

/-- The change a poll wrote into its object is a change of the status. -/
theorem Polled.current_eq {cfg : Settings} {o : Tracked Message} (h : Polled cfg o)
    (hdirty : o.Dirty) : o.current = { o.loaded with status := o.current.status } ∧
      (o.current.status = .delivered ∨ o.current.status = .failed) := by
  obtain ⟨status, hstatus, hcur⟩ := h.upgraded
  rw [hcur]
  rcases hstatus with rfl | rfl | rfl | rfl
  · exact absurd hcur hdirty
  · refine absurd (hcur.trans ?_) hdirty
    simp only [StatusLoop.upgrade, ← h.sent]
  · exact ⟨rfl, .inl rfl⟩
  · exact ⟨rfl, .inr rfl⟩

/-- Objects on which only the status was changed keep their ids. -/
theorem keepsKeys_of_status {objs : List (Tracked Message)}
    (hcur : ∀ o ∈ objs, o.Dirty → o.current = { o.loaded with status := o.current.status }) :
    KeepsKeys objs := by
  intro o ho
  by_cases hdirty : o.Dirty
  · rw [hcur o ho hdirty]
    rfl
  · rw [show o.current = o.loaded from not_not.mp hdirty]

/-- A commit of status changes writes the status and the stamp of the rows it is for. -/
theorem flushRow_status (now : Time) (objs : List (Tracked Message))
    (hcur : ∀ o ∈ objs, o.Dirty → o.current = { o.loaded with status := o.current.status })
    (hnd : (objs.map fun o => o.loaded.id).Nodup) (r : Message) :
    flushRow now objs r = r ∨ ∃ o ∈ objs, o.Dirty ∧ o.loaded.id = r.id ∧
      flushRow now objs r = { r with status := o.current.status, updatedAt := now } := by
  rcases flushRow_cases now (keepsKeys_of_status hcur) hnd r with
    heq | ⟨o, ho, hdirty, hkey, heq⟩
  · exact .inl heq
  · exact .inr ⟨o, ho, hdirty, hkey.symm,
      heq.trans (update_of_status now (hcur o ho hdirty) hdirty r)⟩

/-- Such a commit does reach the row of each changed object. -/
theorem mem_update_status {db db' : Store} {now : Time} {objs : List (Tracked Message)}
    (h : db.updateMessages now objs = some db')
    (hcur : ∀ o ∈ objs, o.Dirty → o.current = { o.loaded with status := o.current.status })
    (hnd : (objs.map fun o => o.loaded.id).Nodup) {o : Tracked Message} (ho : o ∈ objs)
    (hdirty : o.Dirty) {r : Message} (hr : r ∈ db.messages) (hid : r.id = o.loaded.id) :
    { r with status := o.current.status, updatedAt := now } ∈ db'.messages := by
  obtain ⟨-, hms, -⟩ := Store.updateMessages_eq_some.mp h
  rw [hms]
  refine List.mem_map.mpr ⟨r, hr, ?_⟩
  rw [flushRow_of_mem now (keepsKeys_of_status hcur) hnd ho hid, Tracked.writeTo,
    if_pos ⟨hdirty, hid⟩, update_of_status now (hcur o ho hdirty) hdirty]

/-- A commit of status changes does not fail while its rows are there. -/
theorem exists_update_status {db : Store} {objs : List (Tracked Message)} (now : Time)
    (hcur : ∀ o ∈ objs, o.Dirty → o.current = { o.loaded with status := o.current.status })
    (hnd : (objs.map fun o => o.loaded.id).Nodup)
    (hrows : ∀ o ∈ objs, ∃ r ∈ db.messages, r.id = o.loaded.id) :
    ∃ db', db.updateMessages now objs = some db' :=
  Store.exists_updateMessages (fun o ho _ => hrows o ho) fun r _ => by
    rcases flushRow_status now objs hcur hnd r with heq | ⟨o, -, -, -, heq⟩
    · rw [heq]
    · rw [heq]
      rfl

/-- The send loop's commits turn its objects' rows into the objects. -/
theorem SendInv.rowsStep {cfg : Settings} {s t : Sys} {now : Time}
    (hi : SendInv cfg s.db s.send) (h : s.db.updateMessages now s.send.objs = some t.db) :
    RowsStep cfg s (.send (.commit now)) t := by
  obtain ⟨-, hms, -⟩ := Store.updateMessages_eq_some.mp h
  refine .change (flushRow now s.send.objs) hms fun r hr => ?_
  rcases hi.flushRow_cases now hr with heq | ⟨o, ho, rfl, stamp, heq⟩
  · exact .inl heq
  · rw [heq]
    exact .inr (.send ho rfl)

/-- **What a step of any party does to the table of messages.** -/
theorem rowsStep_of_trans {lib : Lib} {cfg : Settings} {s t : Sys} {a : Action}
    (hi : Inv cfg s) (h : Trans lib cfg s a t) : RowsStep cfg s a t := by
  cases h with
  | send h =>
    rcases h.db_cases with rfl | ⟨now, rfl, hdb⟩
    · exact .same rfl
    · exact hi.send.rowsStep hdb
  | status h =>
    rcases h.db_cases with rfl | ⟨now, rfl, hpc, hdb⟩
    · exact .same rfl
    -- the poll writes the status of its own rows only
    · obtain ⟨-, hms, -⟩ := Store.updateMessages_eq_some.mp hdb
      refine .change (flushRow now s.status.objs) hms fun r _ => ?_
      rcases flushRow_status now s.status.objs (fun o ho hd => ((hi.status o ho).1.current_eq hd).1)
        hi.status_nodup r with heq | ⟨o, ho, hdirty, hid, heq⟩
      · exact .inl heq
      · exact .inr (heq ▸ .poll hpc ho hdirty hid)
  | fanout h => exact .same h.messages
  | prune => exact .prune _ rfl rfl
  | @sendMessage call a db pc h =>
    rcases h.effect with ⟨rfl, -⟩ | ⟨rfl, -⟩ | ⟨rfl, hdb, hrows⟩
    · exact .same rfl
    · exact .same rfl
    · refine .insert (.inl call) rfl (Store.insertMessages_eq_some.mp hdb).1 ?_
      simpa [Sys.callRows] using hrows
  | @inbound call a db pc h =>
    generalize hpc : s.inbounds call = pc₀ at h
    cases h with
    | @commit m ds now db' hdb =>
      refine .insert (.inr call) rfl ?_ ?_
      · simpa [Sys.callRows, hpc, Inbound.Pc.rows] using (Store.insertInbound_eq_some.mp hdb).1
      · simp [Sys.callRows, Inbound.Pc.rows]
    | @receiptCommit o now db' hdb =>
      obtain ⟨-, hms, -⟩ := Store.updateMessages_eq_some.mp hdb
      -- a receipt has one object, marked as delivered
      have hcur := (hi.receipt call o (by simp [hpc, Inbound.Pc.receiptObj])).1
      refine .change (flushRow now [o]) hms fun r _ => ?_
      rcases flushRow_status now [o]
        (fun o' ho' _ => by rw [List.mem_singleton.mp ho', hcur]; rfl) (by simp) r with
        heq | ⟨o', ho', hdirty, hid, heq⟩
      · exact .inl heq
      · obtain rfl := List.mem_singleton.mp ho'
        rw [show o'.current.status = .delivered by rw [hcur]; rfl] at heq
        exact .inr (heq ▸ .receipt hpc hdirty hid)
    | _ => exact .same rfl
  | configure => exact .same rfl
  | crash => exact .same rfl

/-- Every such commit is a change in the life of its row. -/
theorem RowCause.change {cfg : Settings} {s : Sys} {a : Action} {r r' : Message}
    (hi : Inv cfg s) (hr : r ∈ s.db.messages) (h : RowCause s r a r') : Change cfg r r' := by
  cases h with
  | send ho hloaded =>
    subst hloaded
    exact .send _ (hi.send.objs.2 _ ho).2
  | poll hpc ho hdirty hid =>
    -- the row may have changed since the poll has read it, but not its provider id
    obtain ⟨hpolled, -, htracks⟩ := hi.status _ (by rw [hpc]; exact ho)
    exact .poll _ _ (hpolled.posted.evolved (htracks r hr hid.symm))
      (hpolled.current_eq hdirty).2
  | receipt hpc hdirty hid =>
    obtain ⟨-, hpid, hleft, -, htracks⟩ := hi.receipt _ _ (by rw [hpc]; rfl)
    refine .receipt _ ?_
    rw [frozen_evolved hleft (htracks r hr hid.symm)]
    exact hpid

/-- Polls and receipts only change rows that have left the queue. -/
theorem RowCause.leftQueue {cfg : Settings} {s : Sys} {a : Action} {r r' : Message}
    (hi : Inv cfg s) (hr : r ∈ s.db.messages) (h : RowCause s r a r') (ha : ∀ b, a ≠ .send b) :
    r.LeftQueue := by
  cases h with
  | send => exact absurd rfl (ha _)
  | poll hpc ho hdirty hid =>
    obtain ⟨hpolled, -, htracks⟩ := hi.status _ (by rw [hpc]; exact ho)
    have hposted := hpolled.posted.evolved (htracks r hr hid.symm)
    exact ⟨hposted.not_queued, hposted.not_sending⟩
  | receipt hpc hdirty hid =>
    obtain ⟨-, -, hleft, -, htracks⟩ := hi.receipt _ _ (by rw [hpc]; rfl)
    exact leftQueue_evolved hleft (htracks r hr hid.symm)

/-- **Where the rows of the next state come from.** -/
theorem rows_origin {lib : Lib} {cfg : Settings} {s t : Sys} {a : Action} (hi : Inv cfg s)
    (h : Trans lib cfg s a t) {r' : Message} (hr' : r' ∈ t.db.messages) :
    (∃ r ∈ s.db.messages, r' = r ∨ RowCause s r a r') ∨
      ∃ c, a.commits = some c ∧ r' ∈ s.callRows c ∧ t.callRows c = [] := by
  -- By what the step does to the table
  cases rowsStep_of_trans hi h with
  | same hms => exact .inl ⟨r', hms ▸ hr', .inl rfl⟩
  | change f hms hf =>
    rw [hms] at hr'
    obtain ⟨r, hr, rfl⟩ := List.mem_map.mp hr'
    exact .inl ⟨r, hr, hf r hr⟩
  | prune now _ hdb =>
    rw [hdb] at hr'
    exact .inl ⟨r', (Store.mem_deleteMessages.mp hr').1, .inl rfl⟩
  | insert c hcommit hms hnil =>
    rw [hms] at hr'
    rcases List.mem_append.mp hr' with hr' | hr'
    · exact .inl ⟨r', hr', .inl rfl⟩
    · exact .inr ⟨c, hcommit, hr', hnil⟩

/-- A row of the next state is a later version of a committed one, or a call commits it. -/
theorem rows_evolved {lib : Lib} {cfg : Settings} {s t : Sys} {a : Action} (hi : Inv cfg s)
    (h : Trans lib cfg s a t) {r' : Message} (hr' : r' ∈ t.db.messages) :
    (∃ r ∈ s.db.messages, Evolved cfg r r' ∧ r'.id = r.id) ∨
      ∃ c, a.commits = some c ∧ r' ∈ s.callRows c := by
  rcases rows_origin hi h hr' with ⟨r, hr, rfl | hcause⟩ | ⟨c, hcommit, hrow, -⟩
  · exact .inl ⟨_, hr, .refl, rfl⟩
  · have hchange := hcause.change hi hr
    exact .inl ⟨r, hr, .single hchange, Message.id_eq_of_content hchange.frame⟩
  · exact .inr ⟨c, hcommit, hrow⟩

/-- **Where the rows of this state go.**  Only the retention sweep deletes a row, and
    only one that has left the queue. -/
theorem rows_fate {lib : Lib} {cfg : Settings} {s t : Sys} {a : Action} (hi : Inv cfg s)
    (h : Trans lib cfg s a t) {r : Message} (hr : r ∈ s.db.messages) :
    (∃ r' ∈ t.db.messages, r' = r ∨ RowCause s r a r') ∨
      ∃ now, a = .prune now ∧ isPrunable cfg now r := by
  cases rowsStep_of_trans hi h with
  | same hms => exact .inl ⟨r, hms ▸ hr, .inl rfl⟩
  | change f hms hf => exact .inl ⟨f r, hms ▸ List.mem_map_of_mem hr, hf r hr⟩
  | prune now ha hdb =>
    by_cases hp : isPrunable cfg now r
    · exact .inr ⟨now, ha, hp⟩
    · refine .inl ⟨r, ?_, .inl rfl⟩
      rw [hdb]
      exact Store.mem_deleteMessages.mpr ⟨hr, by simpa using hp⟩
  | insert c _ hms _ => exact .inl ⟨r, hms ▸ List.mem_append_left _ hr, .inl rfl⟩

/-! ## Ids on their way -/

/-- A call's rows are the rows it had before, or new ones under the ids just drawn. -/
theorem callRows_step {lib : Lib} {cfg : Settings} {s t : Sys} {a : Action}
    (h : Trans lib cfg s a t) {c : Nat ⊕ Nat} {m : Message} (hm : m ∈ t.callRows c) :
    m ∈ s.callRows c ∨ (a.caller = some c ∧ m.id ∈ a.uuids ∧ RowInv cfg m ∧
      m.IsNew (callDirection c)) := by
  -- Only the call itself builds rows
  cases c with
  | inl call =>
    show m ∈ (s.sendMessages call).rows ∨ _
    replace hm : m ∈ (t.sendMessages call).rows := hm
    cases h.sendMessage_step call with
    | other _ hpc => exact .inl (hpc ▸ hm)
    | crash hpc => simp [hpc] at hm
    | own h =>
      rcases h.effect with ⟨-, hnil⟩ | ⟨-, uuids, now, service, request, rfl, hids, hnew⟩ |
        ⟨-, -, hnil⟩
      · simp [hnil] at hm
      · -- the rows are built, one for each id drawn
        obtain ⟨id, toNumber, topic, rfl⟩ := hnew m hm
        refine .inr ⟨rfl, ?_, rowInv_newMessage cfg service request id toNumber topic now,
          rfl, rfl, fun _ => rfl⟩
        simp only [Action.uuids, ← hids]
        exact List.mem_map_of_mem hm
      · simp [hnil] at hm
  | inr call =>
    show m ∈ (s.inbounds call).rows ∨ _
    replace hm : m ∈ (t.inbounds call).rows := hm
    cases h.inbound_step call with
    | other _ hpc => exact .inl (hpc ▸ hm)
    | crash hpc => simp [hpc] at hm
    | own h =>
      generalize s.inbounds call = pc₀, t.db = db', t.inbounds call = pc at h hm
      cases h with
      | begin => simp [(Inbound.begin_rows _).1] at hm
      | dedup => simp [(Inbound.afterDedup_rows _).1] at hm
      | @flush draft uuid now m' hnew =>
        obtain rfl := List.mem_singleton.mp hm
        obtain ⟨hid, hdir, -, -, -, hatt, -⟩ := newMessage_inbound hnew
        refine .inr ⟨rfl, ?_, rowInv_inbound cfg hnew, hdir, hatt, nofun⟩
        simp [Action.uuids, hid]
      | enqueue henq =>
        rcases (Inbound.enqueue_rows henq).1 with hnil | hrows
        · simp [hnil] at hm
        · rw [hrows] at hm
          exact .inl hm
      | receipt => simp [Inbound.afterReceiptSelect_cases.1] at hm
      | refuse | commit | unbindable | receiptCommit | dbError => simp [Inbound.Pc.rows] at hm

/-- Ids are never forgotten. -/
theorem used_step {lib : Lib} {cfg : Settings} {s t : Sys} {a : Action}
    (h : Trans lib cfg s a t) : t.used = a.uuids ++ s.used := by
  cases h <;> rfl

/-- A settled id stays settled: the ids of new rows are fresh. -/
theorem Sys.Settled.step {lib : Lib} {cfg : Settings} {s t : Sys} {a : Action} {id : String}
    (hs : s.Settled id) (hfresh : Fresh s a) (h : Trans lib cfg s a t) : t.Settled id := by
  refine ⟨by rw [used_step h]; exact List.mem_append_right _ hs.1, fun c => ?_⟩
  rintro ⟨m, hm, rfl⟩
  rcases callRows_step h hm with hold | ⟨-, hnew, -⟩
  · exact hs.2 c ⟨m, hold, rfl⟩
  · exact hfresh.2 _ hnew hs.1

/-- **A loaded object keeps standing for its row**, whoever moves. -/
theorem Tracks.step {lib : Lib} {cfg : Settings} {s t : Sys} {a : Action} {m : Message}
    (hm : Tracks cfg s m) (hi : Inv cfg s) (hfresh : Fresh s a) (h : Trans lib cfg s a t) :
    Tracks cfg t m := by
  refine ⟨hm.1.step hfresh h, fun r' hr' hid => ?_⟩
  rcases rows_evolved hi h hr' with ⟨r, hr, hevolved, hsame⟩ | ⟨c, -, hrow⟩
  · exact (hm.2 r hr (hsame.symm.trans hid)).trans hevolved
  · exact absurd ⟨r', hrow, hid⟩ (hm.1.2 c)

/-- A committed row stands for itself. -/
theorem Inv.tracks_self {cfg : Settings} {s : Sys} (hi : Inv cfg s) {m : Message}
    (hm : m ∈ s.db.messages) : Tracks cfg s m :=
  ⟨(hi.row m hm).2, fun r hr hid => by rw [Store.eq_of_id hr hm hid]⟩

/-- A row that has left the queue stays out of it. -/
theorem Inv.leftQueue_step {lib : Lib} {cfg : Settings} {s t : Sys} {a : Action} {id : String}
    (hi : Inv cfg s) (h : Trans lib cfg s a t) (hs : s.Settled id)
    (hleft : ∀ m ∈ s.db.messages, m.id = id → m.LeftQueue) :
    ∀ m ∈ t.db.messages, m.id = id → m.LeftQueue := by
  intro m hm hid
  rcases rows_evolved hi h hm with ⟨r, hr, hevolved, hsame⟩ | ⟨c, -, hrow⟩
  · exact leftQueue_evolved (hleft r hr (hsame.symm.trans hid)) hevolved
  · exact absurd ⟨m, hrow, hid⟩ (hs.2 c)

/-! ## The invariant is kept -/

/-- The new rows of the table, and the ids they are stored under. -/
theorem Inv.row_step {lib : Lib} {cfg : Settings} {s t : Sys} {a : Action} (hi : Inv cfg s)
    (hfresh : Fresh s a) (h : Trans lib cfg s a t) :
    ∀ m ∈ t.db.messages, RowInv cfg m ∧ t.Settled m.id := by
  intro m hm
  rcases rows_origin hi h hm with ⟨r, hr, rfl | hcause⟩ | ⟨c, -, hrow, hnil⟩
  · exact ⟨(hi.row _ hr).1, (hi.row _ hr).2.step hfresh h⟩
  · have hchange := hcause.change hi hr
    rw [Message.id_eq_of_content hchange.frame]
    exact ⟨(hi.row r hr).1.change hchange, (hi.row r hr).2.step hfresh h⟩
  -- the row has just been committed by the call `c`
  · obtain ⟨⟨hinv, -⟩, hused⟩ := hi.call_row c m hrow
    refine ⟨hinv, by rw [used_step h]; exact List.mem_append_right _ hused, fun c' => ?_⟩
    rintro ⟨m', hm', hid⟩
    rcases callRows_step h hm' with hold | ⟨-, hnew, -⟩
    · -- the id was in the hands of this one call, which has let go of it
      obtain rfl := hi.call_unique c c' m.id ⟨m, hrow, rfl⟩ ⟨m', hold, hid⟩
      simp [hnil] at hm'
    · exact hfresh.2 _ hnew (hid ▸ hused)

theorem Inv.callRow_step {lib : Lib} {cfg : Settings} {s t : Sys} {a : Action} (hi : Inv cfg s)
    (h : Trans lib cfg s a t) :
    ∀ c, ∀ m ∈ t.callRows c, (RowInv cfg m ∧ m.IsNew (callDirection c)) ∧ m.id ∈ t.used := by
  intro c m hm
  rw [used_step h]
  rcases callRows_step h hm with hold | ⟨-, hnew, hinv⟩
  · exact ⟨(hi.call_row c m hold).1, List.mem_append_right _ (hi.call_row c m hold).2⟩
  · exact ⟨hinv, List.mem_append_left _ hnew⟩

/-- An id is in the hands of one call at most. -/
theorem Inv.callUnique_step {lib : Lib} {cfg : Settings} {s t : Sys} {a : Action}
    (hi : Inv cfg s) (hfresh : Fresh s a) (h : Trans lib cfg s a t) :
    ∀ c c' id, t.Pending c id → t.Pending c' id → c = c' := by
  rintro c c' id ⟨m, hm, rfl⟩ ⟨m', hm', hid⟩
  rcases callRows_step h hm with hold | ⟨hc, hnew, -⟩ <;>
    rcases callRows_step h hm' with hold' | ⟨hc', hnew', -⟩
  · exact hi.call_unique c c' m.id ⟨m, hold, rfl⟩ ⟨m', hold', hid⟩
  · exact absurd (hid ▸ (hi.call_row c m hold).2) (hfresh.2 _ hnew')
  · exact absurd (hid.symm ▸ (hi.call_row c' m' hold').2) (hfresh.2 _ hnew)
  · exact Option.some.inj (hc.symm.trans hc')

/-- A row in the queue is left alone by everyone but the send loop. -/
theorem Inv.keeps_queue {lib : Lib} {cfg : Settings} {s t : Sys} {a : Action} (hi : Inv cfg s)
    (h : Trans lib cfg s a t) (ha : ∀ b, a ≠ .send b) {m : Message}
    (hm : m ∈ s.db.messages) (hq : ¬ m.LeftQueue) : m ∈ t.db.messages := by
  rcases rows_fate hi h hm with ⟨r', hr', rfl | hcause⟩ | ⟨now, -, hprune⟩
  · exact hr'
  · exact absurd (hcause.leftQueue hi hm ha) hq
  · refine absurd ?_ hq
    simp only [isPrunable, terminalStatuses, Bool.and_eq_true, decide_eq_true_eq] at hprune
    constructor <;> intro hs <;> simp [hs] at hprune

/-- In the session, a flush only stamps the object. -/
theorem saved_eq (now : Time) (o : Tracked Message) :
    o.saved now = { o.current with updatedAt := (o.saved now).updatedAt } := by
  unfold Tracked.saved
  split
  · rw [Message.update_current]
  · rfl

theorem saved_status (now : Time) (o : Tracked Message) :
    (o.saved now).status = o.current.status := by
  rw [saved_eq]

theorem saved_transport (now : Time) (o : Tracked Message) :
    (o.saved now).transport = o.current.transport := by
  rw [saved_eq]

/-- A commit leaves one row of the object's key: the object. -/
theorem SendInv.eq_saved {cfg : Settings} {db db' : Store} {pc : SendLoop.Pc}
    (hi : SendInv cfg db pc) {o : Tracked Message} (ho : o ∈ pc.objs) {now : Time}
    (hdb : db.updateMessages now pc.objs = some db') {r : Message} (hr : r ∈ db'.messages)
    (hid : r.id = o.loaded.id) : r = o.saved now := by
  rcases hi.mem_commit hdb hr with ⟨-, hne⟩ | ⟨o', ho', rfl⟩
  · exact absurd hid (hne o ho)
  · have hkey : o'.loaded.id = o.loaded.id := by
      rw [saved_eq] at hid
      exact (hi.keepsKeys o' ho').symm.trans hid
    rw [List.inj_on_of_nodup_map hi.objs.1 ho' ho hkey]

/-- After a claim the loop holds the committed row. -/
private theorem sendInv_afterClaim {cfg : Settings} {db : Store} {m : Message}
    (hm : m ∈ db.messages) (hs : m.status = .sending) : SendInv cfg db (SendLoop.afterClaim m) := by
  unfold SendLoop.afterClaim
  split
  · next ht => exact ⟨hm, hs, ht⟩
  · next ht => exact ⟨hm, hs, ht⟩

private theorem sendInv_afterPublish {cfg : Settings} {db : Store} {m : Message}
    (hm : m ∈ db.messages) (hs : m.status = .sending) (ht : m.transport = .ntfy)
    (reply : HttpReply) (now : Time) :
    SendInv cfg db (SendLoop.afterPublish m reply now) := by
  unfold SendLoop.afterPublish
  split
  · split
    · next receipt _ => exact ⟨hm, hs, ht, receipt, now, rfl⟩
    · exact ⟨hm, hs⟩
  · split
    · exact ⟨hm, hs, ht, rfl⟩
    · trivial

private theorem sendInv_afterSend {lib : Lib} {cfg : Settings} {db : Store} {m : Message}
    (hm : m ∈ db.messages) (hs : m.status = .sending) (ht : m.transport ≠ .ntfy) (now : Time)
    (result : Except PyError SendResult) :
    SendInv cfg db (SendLoop.afterSend lib cfg m now result) := by
  unfold SendLoop.afterSend
  split
  · split
    · next pid _ => exact ⟨hm, hs, ht, .inr ⟨pid, now, rfl⟩⟩
    · exact ⟨hm, hs⟩
  · next permanent =>
    split
    · next message _ => exact ⟨hm, hs, ht, .inl ⟨message, permanent, now, rfl⟩⟩
    · exact ⟨hm, hs⟩
  · trivial

/-- The send loop's own steps keep its part of the invariant. -/
theorem sendInv_step {lib : Lib} {cfg : Settings} {db db' : Store} {pc pc' : SendLoop.Pc}
    {a : SendLoop.Act} (hi : SendInv cfg db pc) (h : SendLoop.Trans lib cfg db pc a db' pc') :
    SendInv cfg db' pc' := by
  cases h with
  | requeueNone | requeued | claimNone | acknowledged | finishing | dbError => trivial
  | @requeueSome now stamp =>
    refine ⟨?_, fun o ho => ?_⟩
    · rw [List.map_map]
      exact db.integrity.pkMessages.sublist (List.filter_sublist.map _)
    · obtain ⟨m, hm, rfl⟩ := List.mem_map.mp ho
      obtain ⟨hmem, hstuck⟩ := List.mem_filter.mp hm
      simp only [SendLoop.isStuck, Bool.and_eq_true, decide_eq_true_eq] at hstuck
      exact ⟨hmem, hstuck.1, stamp, rfl⟩
  | claimSome hm hdue => exact ⟨hm, hdue.1, _, rfl⟩
  | @claimed o now _ hdb =>
    -- the claim is committed, so the row is being sent
    obtain ⟨hmem, -, t, ht⟩ := hi
    refine sendInv_afterClaim (saved_mem hmem hdb) ?_
    rw [saved_status, ht]
    rfl
  | publish => exact hi
  | publishReply => exact sendInv_afterPublish hi.1 hi.2.1 hi.2.2 _ _
  | @fellBack o now _ hdb =>
    obtain ⟨hmem, hs, -, ht⟩ := hi
    refine ⟨saved_mem hmem hdb, ?_, ?_⟩
    · rw [saved_status, ht]
      exact hs
    · rw [saved_transport, ht]
      exact nofun
  | providerSend => exact hi
  | providerReply => exact sendInv_afterSend hi.1 hi.2.1 hi.2.2 _ _

/-- A row as the status loop's `SELECT` returned it. -/
theorem Inv.polled_load {cfg : Settings} {s : Sys} (hi : Inv cfg s) {now : Time} {m : Message}
    (hm : m ∈ s.db.messages.filter (StatusLoop.isPolled now)) :
    Polled cfg (Tracked.load m) ∧ Tracks cfg s m := by
  obtain ⟨hmem, hpoll⟩ := List.mem_filter.mp hm
  have hs : m.status = .sent := by
    simp only [StatusLoop.isPolled, Bool.and_eq_true, decide_eq_true_eq] at hpoll
    exact hpoll.1.1
  exact ⟨⟨hs, ((hi.row m hmem).1.sent hs).2, none, .inl rfl, rfl⟩, hi.tracks_self hmem⟩

/-- The objects of the status loop after one of its own steps. -/
theorem Inv.status_step {cfg : Settings} {s : Sys} {a : StatusLoop.Act} {db : Store}
    {pc : StatusLoop.Pc} (hi : Inv cfg s) (h : StatusLoop.Trans cfg s.db s.status a db pc) :
    (pc.objs.map fun o => o.loaded.id).Nodup ∧
      ∀ o ∈ pc.objs, Polled cfg o ∧ Tracks cfg s o.loaded := by
  generalize hpc : s.status = pc₀ at h
  have hnd := hi.status_nodup
  have hobjs := hi.status
  rw [hpc] at hnd hobjs
  cases h with
  | escaped | commit | dbError =>
    exact ⟨List.nodup_nil, fun _ ho => absurd ho List.not_mem_nil⟩
  | @select now =>
    -- the loop polls the rows that have a provider id
    have hsub := StatusLoop.objs_resume_sublist [] (s.db.messages.filter (StatusLoop.isPolled now))
    refine ⟨List.Nodup.sublist (hsub.map _) ?_, fun o ho => ?_⟩
    · rw [List.nil_append, List.map_map]
      exact s.db.integrity.pkMessages.sublist (List.filter_sublist.map _)
    · obtain ⟨m, hm, rfl⟩ := List.mem_map.mp (hsub.subset ho)
      exact hi.polled_load hm
  | @fetched done m rest reply status hstatus =>
    have hsub := StatusLoop.objs_resume_sublist
      (done ++ [(Tracked.load m).assign (StatusLoop.upgrade status)]) rest
    refine ⟨List.Nodup.sublist (hsub.map _) ?_, fun o ho => ?_⟩
    · simpa [StatusLoop.Pc.objs] using hnd
    · replace ho := hsub.subset ho
      simp only [List.append_assoc, List.singleton_append, List.mem_append, List.mem_cons] at ho
      rcases ho with ho | rfl | ho
      · exact hobjs o (by simp [StatusLoop.Pc.objs, ho])
      · -- the object of `m`, with the poll's answer assigned
        obtain ⟨hpolled, htracks⟩ := hobjs (Tracked.load m) (by simp [StatusLoop.Pc.objs])
        exact ⟨⟨hpolled.sent, hpolled.posted, status, providerFetchStatus_cases hstatus, rfl⟩,
          htracks⟩
      · refine hobjs o ?_
        simp only [StatusLoop.Pc.objs, List.map_cons, List.mem_append, List.mem_cons]
        exact .inr (.inr ho)

/-- The object a receipt holds after one of its own steps. -/
theorem Inv.receipt_step {lib : Lib} {cfg : Settings} {s : Sys} {a : Inbound.Act} {db : Store}
    {pc₀ pc : Inbound.Pc} (hi : Inv cfg s) (h : Inbound.Trans lib cfg s.env s.db pc₀ a db pc) :
    ∀ o ∈ pc.receiptObj, o.current = Inbound.markDelivered o.loaded ∧
      o.loaded.providerMessageId.isSome ∧ o.loaded.LeftQueue ∧ Tracks cfg s o.loaded := by
  intro o ho
  -- Only the lookup of a receipt comes to an object
  cases h with
  | begin => simp [(Inbound.begin_rows _).2] at ho
  | dedup => simp [(Inbound.afterDedup_rows _).2] at ho
  | enqueue henq => simp [(Inbound.enqueue_rows henq).2] at ho
  | receipt =>
    obtain ⟨m, hm, pid, -, hpid, -, rfl⟩ := Inbound.afterReceiptSelect_cases.2 o ho
    have hsome : m.providerMessageId.isSome := by rw [hpid]; rfl
    exact ⟨rfl, hsome, (hi.row m hm).1.leftQueue hsome, hi.tracks_self hm⟩
  | flush | refuse | commit | unbindable | receiptCommit | dbError => cases ho

/-- **The system invariant is kept by every step of every party.** -/
theorem inv_step {lib : Lib} {cfg : Settings} {s t : Sys} {a : Action} (hi : Inv cfg s)
    (hstep : Step lib cfg s a t) : Inv cfg t := by
  obtain ⟨hfresh, h⟩ := trans_of_step hstep
  have htracks : ∀ m, Tracks cfg s m → Tracks cfg t m := fun m hm => hm.step hi hfresh h
  refine
    { row := hi.row_step hfresh h
      call_row := hi.callRow_step h
      call_unique := hi.callUnique_step hfresh h
      send := ?_
      status_nodup := ?_
      status := ?_
      receipt := ?_ }
  -- What the send loop holds
  · have hmono : (∀ b, a ≠ .send b) → SendInv cfg t.db s.send := fun ha =>
      hi.send.mono fun m hm hq => hi.keeps_queue h ha hm hq
    cases h with
    | send h => exact sendInv_step hi.send h
    | crash => trivial
    | status | fanout | prune | sendMessage | inbound | configure => exact hmono nofun
  -- What the status loop holds
  · cases h with
    | status h => exact (hi.status_step h).1
    | crash => exact List.nodup_nil
    | send | fanout | prune | sendMessage | inbound | configure => exact hi.status_nodup
  · cases h with
    | status h =>
      intro o ho
      obtain ⟨hpolled, htr⟩ := (hi.status_step h).2 o ho
      exact ⟨hpolled, htracks _ htr⟩
    | crash => exact fun _ ho => absurd ho List.not_mem_nil
    | send | fanout | prune | sendMessage | inbound | configure =>
      exact fun o ho => ⟨(hi.status o ho).1, htracks _ (hi.status o ho).2⟩
  -- What the calls hold
  · have hold : ∀ call, ∀ o ∈ (s.inbounds call).receiptObj,
        o.current = Inbound.markDelivered o.loaded ∧ o.loaded.providerMessageId.isSome ∧
          o.loaded.LeftQueue ∧ Tracks cfg t o.loaded := fun call o ho => by
      obtain ⟨hcur, hpid, hleft, htr⟩ := hi.receipt call o ho
      exact ⟨hcur, hpid, hleft, htracks _ htr⟩
    intro call o ho
    cases h.inbound_step call with
    | other _ hpc => exact hold call o (hpc ▸ ho)
    | crash hpc => simp [hpc] at ho
    | own h =>
      obtain ⟨hcur, hpid, hleft, htr⟩ := hi.receipt_step h o ho
      exact ⟨hcur, hpid, hleft, htracks _ htr⟩

/-- A new deployment satisfies the invariant. -/
theorem inv_init (cfg : Settings) (env : Env) : Inv cfg (Sys.init env) where
  row _ hm := absurd hm List.not_mem_nil
  call_row c _ hm := by cases c <;> exact absurd hm List.not_mem_nil
  call_unique c c' id h := by
    obtain ⟨m, hm, -⟩ := h
    cases c <;> exact absurd hm List.not_mem_nil
  send := trivial
  status_nodup := List.nodup_nil
  status _ ho := absurd ho List.not_mem_nil
  receipt _ _ ho := by cases ho

/-- The invariant holds at the end of every run from a state that satisfies it. -/
theorem inv_run {lib : Lib} {cfg : Settings} {s t : Sys} {tr : List Action} (hi : Inv cfg s)
    (hrun : Run lib cfg s tr t) : Inv cfg t :=
  hrun.invariant (fun _ _ _ => inv_step) hi

/-- **The system invariant holds in every reachable state.** -/
theorem inv_reachable {lib : Lib} {cfg : Settings} {env : Env} {t : Sys} {tr : List Action}
    (hrun : Run lib cfg (Sys.init env) tr t) : Inv cfg t :=
  inv_run (inv_init cfg env) hrun

/-! ## Rows over time -/

/-- A settled id stays settled along a run. -/
theorem Sys.Settled.run {lib : Lib} {cfg : Settings} {s t : Sys} {tr : List Action}
    {id : String} (hs : s.Settled id) (hrun : Run lib cfg s tr t) : t.Settled id :=
  hrun.invariant (I := fun u => u.Settled id) (fun _ _ _ hu hstep =>
    hu.step (trans_of_step hstep).1 (trans_of_step hstep).2) hs

/-- A settled id that no row has is not taken by a later row. -/
theorem Sys.Settled.stays_gone {lib : Lib} {cfg : Settings} {s t : Sys} {a : Action}
    {id : String} (hs : s.Settled id) (hi : Inv cfg s) (h : Trans lib cfg s a t)
    (hgone : ∀ r ∈ s.db.messages, r.id ≠ id) : ∀ r ∈ t.db.messages, r.id ≠ id := by
  intro r' hr' hid
  rcases rows_evolved hi h hr' with ⟨r, hr, -, hsame⟩ | ⟨c, -, hrow⟩
  · exact hgone r hr (hsame.symm.trans hid)
  · exact hs.2 c ⟨r', hrow, hid⟩

/-- What a run makes of an object that stands for a row. -/
theorem Tracks.run {lib : Lib} {cfg : Settings} {s t : Sys} {tr : List Action} {m : Message}
    (hi : Inv cfg s) (hm : Tracks cfg s m) (hrun : Run lib cfg s tr t) : Tracks cfg t m := by
  induction hrun with
  | nil => exact hm
  | snoc hrun hstep ih =>
    obtain ⟨hfresh, h⟩ := trans_of_step hstep
    exact ih.step (inv_run hi hrun) hfresh h

/-- **Two versions of a row, at two moments of a run**, are linked by commits. -/
theorem evolved_run {lib : Lib} {cfg : Settings} {s t : Sys} {tr : List Action}
    {m r : Message} (hi : Inv cfg s) (hrun : Run lib cfg s tr t) (hm : m ∈ s.db.messages)
    (hr : r ∈ t.db.messages) (hid : r.id = m.id) : Evolved cfg m r :=
  (Tracks.run hi (hi.tracks_self hm) hrun).2 r hr hid

/-- A row is only ever removed by the retention sweep. -/
theorem row_persists {lib : Lib} {cfg : Settings} {s t : Sys} {tr : List Action} {m : Message}
    (hi : Inv cfg s) (hrun : Run lib cfg s tr t) (hprune : ∀ now, Action.prune now ∉ tr)
    (hm : m ∈ s.db.messages) : ∃ r ∈ t.db.messages, r.id = m.id := by
  induction hrun with
  | nil => exact ⟨m, hm, rfl⟩
  | snoc hrun hstep ih =>
    obtain ⟨r, hr, hid⟩ := ih fun now hmem => hprune now (List.mem_append_left _ hmem)
    have hiu := inv_run hi hrun
    obtain ⟨-, h⟩ := trans_of_step hstep
    rcases rows_fate hiu h hr with ⟨r', hr', rfl | hcause⟩ | ⟨now, rfl, -⟩
    · exact ⟨_, hr', hid⟩
    · exact ⟨r', hr', (Message.id_eq_of_content (hcause.change hiu hr).frame).trans hid⟩
    · exact absurd (List.mem_append_right _ (List.mem_singleton.mpr rfl)) (hprune now)

end SmsRelay
