import Mathlib.Data.List.MinMax
import Mathlib.Data.List.Perm.Subperm
import SmsRelay.Spec.Recovery

/-!
# Reach of the send loop

The loop requeues what was left over and takes the oldest due row, so by its own steps,
later than any given time, it comes to every row that is queued or being sent.

## Key results

- `settles`: from every program point the loop comes back to the start of an iteration
- `iteration_ripe`: an iteration over due rows takes one of them out of the queue
- `claim_and_recovery`: claim before send and crash recovery, for every run
-/

namespace SmsRelay

open UnitOfWork Transition

namespace SendLoop

/-! ## The loop on its own -/

/-- Every clock the label reads is at or past `T`, and no database operation fails but the
    commit that sqlite3 refuses. -/
def Act.Clean (T : Time) (pc : Pc) : Act → Prop
  | .requeueSelect now stamp => T ≤ now ∧ T ≤ stamp
  | .claimSelect now _ => T ≤ now
  | .publishReply _ _ now => T ≤ now
  | .providerReply _ _ now => T ≤ now
  | .commit now => T ≤ now
  | .publish _ => True
  | .providerSend _ => True
  | .dbError => ∃ m, pc = .unbindable m

/-- What the loop can come to by clean steps of its own, at or past `T`. -/
abbrev Reaches (lib : Lib) (cfg : Settings) (T : Time) : Store × Pc → Store × Pc → Prop :=
  Relation.ReflTransGen fun p q => ∃ b : Act, b.Clean T p.2 ∧ step lib cfg p.1 p.2 b = some q

/-- The ids of the rows that are queued or being sent. -/
def pendingIds (db : Store) : List String :=
  (db.messages.filter fun m => m.status = .queued ∨ m.status = .sending).map Message.id

variable {lib : Lib} {cfg : Settings} {T : Time} {db db' : Store} {pc : Pc} {m : Message}
  {o : Tracked Message} {id : String}

theorem mem_pendingIds : id ∈ pendingIds db ↔
    ∃ m ∈ db.messages, m.id = id ∧ (m.status = .queued ∨ m.status = .sending) := by
  simp only [pendingIds, List.mem_map, List.mem_filter, decide_eq_true_eq]
  constructor
  · rintro ⟨m, ⟨hm, hs⟩, rfl⟩
    exact ⟨m, hm, rfl, hs⟩
  · rintro ⟨m, hm, rfl, hs⟩
    exact ⟨m, ⟨hm, hs⟩, rfl⟩

theorem nodup_pendingIds (db : Store) : (pendingIds db).Nodup :=
  db.integrity.pkMessages.sublist (List.filter_sublist.map _)

/-- A clean step of the loop. -/
theorem reaches_step {b : Act} {pc' : Pc} (hclean : b.Clean T pc)
    (h : step lib cfg db pc b = some (db', pc')) : Reaches lib cfg T (db, pc) (db', pc') :=
  .single ⟨b, hclean, h⟩

/-! ### What a commit leaves of the queue -/

/-- The objects of a commit are the rows that are requeued, or the one in hand. -/
theorem Pc.inHand_of_objs (h : o ∈ pc.objs) :
    pc.inHand = some o.loaded.id ∨ ∃ objs, pc = .requeueing objs := by
  cases pc with
  | requeueing objs => exact .inr ⟨objs, rfl⟩
  | claimed | acknowledged | fellBack | finishing =>
    obtain rfl := List.mem_singleton.mp h
    exact .inl rfl
  | _ => cases h

/-- Rows that are not in hand stay in the queue. -/
theorem Trans.pending {a : Act} {pc' : Pc} (hi : SendInv cfg db pc)
    (h : Trans lib cfg db pc a db' pc') (hid : id ∈ pendingIds db) (hhand : pc.inHand ≠ some id) :
    id ∈ pendingIds db' := by
  rcases h.db_cases with rfl | ⟨now, -, hdb⟩
  · exact hid
  · obtain ⟨r, hr, rfl, hs⟩ := mem_pendingIds.mp hid
    obtain ⟨-, hms, -⟩ := Store.updateMessages_eq_some.mp hdb
    have hmem : flushRow now pc.objs r ∈ db'.messages := by
      rw [hms]
      exact List.mem_map_of_mem hr
    -- A row that is not in hand can only be the object of a requeue
    rcases hi.flushRow_cases now hr with heq | ⟨o, ho, rfl, stamp, heq⟩
    · rw [heq] at hmem
      exact mem_pendingIds.mpr ⟨r, hmem, rfl, hs⟩
    · -- the object of the row was requeued
      rw [heq] at hmem
      rcases Pc.inHand_of_objs ho with hhand' | ⟨objs, rfl⟩
      · exact absurd hhand' hhand
      · obtain ⟨-, -, t, ht⟩ := hi.2 o ho
        rw [ht] at hmem
        exact mem_pendingIds.mpr ⟨_, hmem, rfl, .inl rfl⟩

/-- After the row of `id` has left the queue, and nothing else has happened. -/
structure Left (db : Store) (id : String) (db' : Store) : Prop where
  others : ∀ r ∈ db.messages, r.id ≠ id → r ∈ db'.messages
  only : ∀ r ∈ db'.messages, r ∈ db.messages ∧ r.id ≠ id ∨ r.id = id ∧ r.LeftQueue

/-- After the row of the object was replaced by the saved object. -/
structure Wrote (T : Time) (db : Store) (o : Tracked Message) (db' : Store) : Prop where
  saved : o.saved T ∈ db'.messages
  others : ∀ r ∈ db.messages, r.id ≠ o.loaded.id → r ∈ db'.messages
  only : ∀ r ∈ db'.messages, r ∈ db.messages ∧ r.id ≠ o.loaded.id ∨ r = o.saved T

/-- The commit of the object in hand. -/
theorem exists_wrote (hi : SendInv cfg db pc) (hobjs : pc.objs = [o]) (T : Time) :
    ∃ db', db.updateMessages T [o] = some db' ∧ Wrote T db o db' := by
  obtain ⟨db', hdb⟩ := hi.exists_commit T
  have hrows := fun r hr => hi.mem_commit (r := r) hdb hr
  have hmem := (hi.objs.2 o (by rw [hobjs]; exact List.mem_singleton.mpr rfl)).1
  rw [hobjs] at hdb hrows
  obtain ⟨-, hms, -⟩ := Store.updateMessages_eq_some.mp hdb
  refine ⟨db', hdb, saved_mem hmem hdb, fun r hr hne => ?_, fun r hr => ?_⟩
  · rw [hms]
    refine List.mem_map.mpr ⟨r, hr, flushRow_eq_self T fun o' ho' _ hkey => ?_⟩
    obtain rfl := List.mem_singleton.mp ho'
    exact hne hkey
  · rcases hrows r hr with ⟨hold, hne⟩ | ⟨o', ho', rfl⟩
    · exact .inl ⟨hold, hne o (List.mem_singleton.mpr rfl)⟩
    · obtain rfl := List.mem_singleton.mp ho'
      exact .inr rfl

/-- A commit after which the object's row has left the queue. -/
theorem Wrote.left (h : Wrote T db o db') (hid : (o.saved T).id = o.loaded.id)
    (hleft : (o.saved T).LeftQueue) : Left db o.loaded.id db' where
  others := h.others
  only r hr := by
    rcases h.only r hr with hold | rfl
    · exact .inl hold
    · exact .inr ⟨hid, hleft⟩

/-- A commit of the object in hand, and the rest of the iteration. -/
theorem Wrote.trans {db'' : Store} (h : Wrote T db o db') (hid : (o.saved T).id = o.loaded.id)
    (hleft : Left db' (o.saved T).id db'') : Left db o.loaded.id db'' where
  others r hr hne := hleft.others r (h.others r hr hne) (by rw [hid]; exact hne)
  only r hr := by
    rw [← hid]
    rcases hleft.only r hr with ⟨hr', hne⟩ | hgone
    · rcases h.only r hr' with ⟨hold, -⟩ | rfl
      · exact .inl ⟨hold, hne⟩
      · exact absurd rfl hne
    · exact .inr hgone

/-- Rows of other messages stay in the queue. -/
theorem Left.pending {id' : String} (h : Left db id' db') (hid : id ∈ pendingIds db)
    (hne : id ≠ id') : id ∈ pendingIds db' := by
  obtain ⟨r, hr, rfl, hs⟩ := mem_pendingIds.mp hid
  exact mem_pendingIds.mpr ⟨r, h.others r hr hne, rfl, hs⟩

/-! ### The rest of an iteration -/

/-- There is an answer with which the provider takes a message. -/
theorem exists_accepting (lib : Lib) (cfg : Settings) : ∃ reply result pid,
    providerSend cfg.provider reply = some (.ok result) ∧
      lib.bindText result.providerMessageId = some pid := by
  cases hprovider : cfg.provider with
  | androidGateway =>
    exact ⟨.gateway (.ok ⟨202, "", .error .jsonDecodeError⟩), ⟨.null⟩, none, rfl, rfl⟩
  | dev => exact ⟨.file (.ok "0"), ⟨.str "dev-0"⟩, some "dev-0", rfl, rfl⟩

/-- The loop commits the object in hand and goes on. -/
theorem commits (lib : Lib) (hi : SendInv cfg db pc) (hobjs : pc.objs = [o]) {next : Pc}
    (hstep : ∀ db', db.updateMessages T [o] = some db' →
      step lib cfg db pc (.commit T) = some (db', next)) :
    ∃ db', Reaches lib cfg T (db, pc) (db', next) ∧ SendInv cfg db' next ∧ Wrote T db o db' := by
  obtain ⟨db', hdb, hwrote⟩ := exists_wrote hi hobjs T
  exact ⟨db', reaches_step (b := .commit T) (Int.le_refl T) (hstep db' hdb),
    sendInv_step hi (trans_of_step (hstep db' hdb)), hwrote⟩

/-- A commit that takes the row out of the queue ends the iteration. -/
theorem outcome_left (lib : Lib) (hi : SendInv cfg db pc) (hobjs : pc.objs = [o])
    (hstep : ∀ db', db.updateMessages T [o] = some db' →
      step lib cfg db pc (.commit T) = some (db', .idle)) (hleft : o.current.LeftQueue) :
    ∃ db', Reaches lib cfg T (db, pc) (db', .idle) ∧ Left db o.loaded.id db' := by
  obtain ⟨db', hreach, -, hwrote⟩ := commits lib hi hobjs hstep
  have hid : (o.saved T).id = o.loaded.id :=
    saved_id hi (by rw [hobjs]; exact List.mem_singleton.mpr rfl) T
  exact ⟨db', hreach, hwrote.left hid (by simpa [Message.LeftQueue, saved_status] using hleft)⟩

/-- From the call of the provider, the provider takes the message. -/
theorem sending_left (lib : Lib) (hi : SendInv cfg db (.sending m)) :
    ∃ db', Reaches lib cfg T (db, .sending m) (db', .idle) ∧ Left db m.id db' := by
  obtain ⟨reply, result, pid, hresult, hpid⟩ := exists_accepting lib cfg
  have hreply : step lib cfg db (.sending m) (.providerReply m.id reply T) =
      some (db, .finishing ((Tracked.load m).assign (markSent pid T))) := by
    simp [step, hresult, afterSend, hpid]
  obtain ⟨db', hreach, hleft⟩ := outcome_left lib (T := T)
    (sendInv_step hi (trans_of_step hreply)) rfl (fun db' hdb => by simp [step, hdb])
    (by simp [Message.LeftQueue, markSent])
  exact ⟨db', (reaches_step (b := .providerReply m.id reply T) (Int.le_refl T) hreply).trans hreach,
    hleft⟩

/-- From the wait of the limiter, the provider is called. -/
theorem limiting_left (lib : Lib) (hi : SendInv cfg db (.limiting m)) :
    ∃ db', Reaches lib cfg T (db, .limiting m) (db', .idle) ∧ Left db m.id db' := by
  have hcall : step lib cfg db (.limiting m) (.providerSend m.id) = some (db, .sending m) := by
    simp [step]
  obtain ⟨db', hreach, hleft⟩ := sending_left lib (T := T)
    (sendInv_step hi (trans_of_step hcall))
  exact ⟨db', (reaches_step (b := .providerSend m.id) trivial hcall).trans hreach, hleft⟩

/-- From the call of `publish`, ntfy acknowledges the message. -/
theorem publishing_left (lib : Lib) (hi : SendInv cfg db (.publishing m)) :
    ∃ db', Reaches lib cfg T (db, .publishing m) (db', .idle) ∧ Left db m.id db' := by
  have hreply : step lib cfg db (.publishing m) (.publishReply m.id
      (.ok ⟨200, "", .ok (.obj [("event", .str "message"), ("id", .str "0")])⟩) T) =
      some (db, .acknowledged ((Tracked.load m).assign (markPublished "0" T))) := by
    simp [step]
    rfl
  obtain ⟨db', hreach, hleft⟩ := outcome_left lib (T := T)
    (sendInv_step hi (trans_of_step hreply)) rfl (fun db' hdb => by simp [step, hdb])
    (by simp [Message.LeftQueue, markPublished])
  exact ⟨db', (reaches_step (b := .publishReply m.id _ T) (Int.le_refl T) hreply).trans hreach,
    hleft⟩

theorem toPublish_left (lib : Lib) (hi : SendInv cfg db (.toPublish m)) :
    ∃ db', Reaches lib cfg T (db, .toPublish m) (db', .idle) ∧ Left db m.id db' := by
  have hcall : step lib cfg db (.toPublish m) (.publish m.id) = some (db, .publishing m) := by
    simp [step]
  obtain ⟨db', hreach, hleft⟩ := publishing_left lib (T := T)
    (sendInv_step hi (trans_of_step hcall))
  exact ⟨db', (reaches_step (b := .publish m.id) trivial hcall).trans hreach, hleft⟩

/-- The commit of a claim. -/
theorem claimed_commits (lib : Lib) (hi : SendInv cfg db (.claimed o)) :
    ∃ db', Reaches lib cfg T (db, .claimed o) (db', afterClaim (o.saved T)) ∧
      SendInv cfg db' (afterClaim (o.saved T)) ∧ Wrote T db o db' :=
  commits lib hi rfl fun db' hdb => by simp [step, hdb]

/-- A message that was claimed goes out. -/
theorem claimed_left (lib : Lib) (hi : SendInv cfg db (.claimed o)) :
    ∃ db', Reaches lib cfg T (db, .claimed o) (db', .idle) ∧ Left db o.loaded.id db' := by
  have hid : (o.saved T).id = o.loaded.id := saved_id hi (List.mem_singleton.mpr rfl) T
  obtain ⟨db₁, hcommit, hinv, hwrote⟩ := claimed_commits lib (T := T) hi
  obtain ⟨db₂, hrest, hleft⟩ : ∃ db₂, Reaches lib cfg T (db₁, afterClaim (o.saved T)) (db₂, .idle) ∧
      Left db₁ (o.saved T).id db₂ := by
    by_cases htransport : (o.saved T).transport = .ntfy
    · rw [afterClaim, if_pos htransport] at hinv ⊢
      exact toPublish_left lib hinv
    · rw [afterClaim, if_neg htransport] at hinv ⊢
      exact limiting_left lib hinv
  exact ⟨db₂, hcommit.trans hrest, hwrote.trans hid hleft⟩

/-- A message that was claimed is handed to ntfy or to the provider. -/
theorem claimed_calls (lib : Lib) (hi : SendInv cfg db (.claimed o)) :
    ∃ q, Reaches lib cfg T (db, .claimed o) q ∧ q.2.calling = some o.loaded.id := by
  have hid : (o.saved T).id = o.loaded.id := saved_id hi (List.mem_singleton.mpr rfl) T
  obtain ⟨db₁, hcommit, hinv, -⟩ := claimed_commits lib (T := T) hi
  rw [← hid]
  by_cases htransport : (o.saved T).transport = .ntfy
  · rw [afterClaim, if_pos htransport] at hcommit
    refine ⟨(db₁, .publishing (o.saved T)), hcommit.trans ?_, rfl⟩
    exact reaches_step (b := .publish (o.saved T).id) trivial (by simp [step])
  · rw [afterClaim, if_neg htransport] at hcommit
    refine ⟨(db₁, .sending (o.saved T)), hcommit.trans ?_, rfl⟩
    exact reaches_step (b := .providerSend (o.saved T).id) trivial (by simp [step])

/-! ### To the start of the next iteration -/

/-- Some due row is the oldest. -/
theorem exists_oldestDue {now : Time} (hm : m ∈ db.messages) (hdue : isDue now m) :
    ∃ o ∈ db.messages, IsOldestDue db now o := by
  have hmem : m ∈ db.messages.filter (isDue now) := List.mem_filter.mpr ⟨hm, hdue⟩
  obtain ⟨o, ho⟩ : ∃ o, o ∈ List.argmin Message.createdAt (db.messages.filter (isDue now)) :=
    Option.isSome_iff_exists.mp (Option.isSome_iff_ne_none.mpr fun hnone => by
      rw [List.argmin_eq_none.mp hnone] at hmem
      cases hmem)
  obtain ⟨horow, hodue⟩ := List.mem_filter.mp (List.argmin_mem ho)
  exact ⟨o, horow, hodue, fun r hr hrdue =>
    List.le_of_mem_argmin (List.mem_filter.mpr ⟨hr, hrdue⟩) ho⟩

/-- The loop comes to a call for the message, or to the start of an iteration with the
    message still in the queue. -/
def Arrives (lib : Lib) (cfg : Settings) (T : Time) (p : Store × Pc) (id : String) : Prop :=
  ∃ q, Reaches lib cfg T p q ∧
    (q.2.calling = some id ∨ q.2 = .idle ∧ id ∈ pendingIds q.1)

/-- The rest of an iteration with another message in hand. -/
theorem arrives_of_left {id' : String} {p : Store × Pc} (hid : id ∈ pendingIds db) (hne : id ≠ id')
    (h : ∃ db', Reaches lib cfg T p (db', .idle) ∧ Left db id' db') : Arrives lib cfg T p id := by
  obtain ⟨db', hreach, hleft⟩ := h
  exact ⟨(db', .idle), hreach, .inr ⟨rfl, hleft.pending hid hne⟩⟩

/-- From `_claim_next`. -/
theorem claiming_arrives (hid : id ∈ pendingIds db) : Arrives lib cfg T (db, .claiming) id := by
  by_cases hdue : ∃ m ∈ db.messages, isDue T m
  · obtain ⟨m, hm, hdue⟩ := hdue
    obtain ⟨o, ho, holdest⟩ := exists_oldestDue hm hdue
    have hclaim : step lib cfg db .claiming (.claimSelect T (some o.id)) =
        some (db, .claimed ((Tracked.load o).assign (claim T))) := by
      simp [step, Store.message?_eq_some.mpr ⟨ho, rfl⟩, holdest]
    have hinv : SendInv cfg db (.claimed ((Tracked.load o).assign (claim T))) :=
      sendInv_step (show SendInv cfg db .claiming from trivial) (trans_of_step hclaim)
    have hreach := reaches_step (T := T) (b := .claimSelect T (some o.id)) (Int.le_refl T) hclaim
    -- the oldest due row is the message, or goes out before it
    by_cases hsame : id = o.id
    · obtain ⟨q, hcalls, hcalling⟩ := claimed_calls lib (T := T) hinv
      exact ⟨q, hreach.trans hcalls, .inl (hsame ▸ hcalling)⟩
    · obtain ⟨db', hrest, hleft⟩ := claimed_left lib (T := T) hinv
      exact arrives_of_left hid hsame ⟨db', hreach.trans hrest, hleft⟩
  · have hnone : step lib cfg db .claiming (.claimSelect T none) = some (db, .idle) := by
      simp only [step]
      rw [if_pos fun m hm hd => hdue ⟨m, hm, hd⟩]
    exact ⟨(db, .idle), reaches_step (b := .claimSelect T none) (Int.le_refl T) hnone,
      .inr ⟨rfl, hid⟩⟩

/-- A step that leaves the message in the queue, and what comes after it. -/
theorem Arrives.after {b : Act} {pc' : Pc} (hclean : b.Clean T pc)
    (hstep : step lib cfg db pc b = some (db', pc')) (h : Arrives lib cfg T (db', pc') id) :
    Arrives lib cfg T (db, pc) id := by
  obtain ⟨r, hreach, hr⟩ := h
  exact ⟨r, (reaches_step hclean hstep).trans hreach, hr⟩

/-- **From every program point** the loop comes back to the start of an iteration with the
    message in the queue, unless it calls for the message before, or has it in hand. -/
theorem settles (lib : Lib) (hi : SendInv cfg db pc) (hid : id ∈ pendingIds db)
    (hhand : pc.inHand ≠ some id) : Arrives lib cfg T (db, pc) id := by
  have hne : ∀ {id'}, pc.inHand = some id' → id ≠ id' := fun hpc heq => hhand (heq ▸ hpc)
  -- a commit that ends the iteration with another row
  have hcommit : ∀ o next, pc.objs = [o] → (∀ db', db.updateMessages T [o] = some db' →
      step lib cfg db pc (.commit T) = some (db', next)) →
      (∀ db', SendInv cfg db' next → id ∈ pendingIds db' → Arrives lib cfg T (db', next) id) →
      Arrives lib cfg T (db, pc) id := fun o next hobjs hstep hnext => by
    obtain ⟨db', hdb⟩ := hi.exists_commit T
    rw [hobjs] at hdb
    have htrans := trans_of_step (hstep db' hdb)
    exact (hnext db' (sendInv_step hi htrans) (htrans.pending hi hid hhand)).after
      (b := .commit T) (Int.le_refl T) (hstep db' hdb)
  have hidle : ∀ db', SendInv cfg db' .idle → id ∈ pendingIds db' →
      Arrives lib cfg T (db', .idle) id := fun db' _ hid' =>
    ⟨(db', .idle), .refl, .inr ⟨rfl, hid'⟩⟩
  -- At most one commit or one outcome away from the next iteration
  cases pc with
  | idle => exact hidle db hi hid
  | requeueing objs =>
    obtain ⟨db', hdb⟩ := hi.exists_commit T
    have hstep : step lib cfg db (.requeueing objs) (.commit T) = some (db', .claiming) := by
      simpa [step, Pc.objs] using hdb
    have hid' := (trans_of_step hstep).pending hi hid hhand
    exact (claiming_arrives hid').after (b := .commit T) (Int.le_refl T) hstep
  | claiming => exact claiming_arrives hid
  | claimed o => exact arrives_of_left hid (hne rfl) (claimed_left lib hi)
  | toPublish m => exact arrives_of_left hid (hne rfl) (toPublish_left lib hi)
  | publishing m => exact arrives_of_left hid (hne rfl) (publishing_left lib hi)
  | limiting m => exact arrives_of_left hid (hne rfl) (limiting_left lib hi)
  | sending m => exact arrives_of_left hid (hne rfl) (sending_left lib hi)
  | acknowledged o => exact hcommit o .idle rfl (fun db' hdb => by simp [step, hdb]) hidle
  | finishing o => exact hcommit o .idle rfl (fun db' hdb => by simp [step, hdb]) hidle
  | fellBack o =>
    refine hcommit o (.limiting (o.saved T)) rfl (fun db' hdb => by simp [step, hdb])
      fun db' hi' hid' => arrives_of_left hid' ?_ (limiting_left lib hi')
    rw [saved_id hi (List.mem_singleton.mpr rfl) T]
    exact hne rfl
  | unbindable m =>
    exact (hidle db trivial hid).after (b := .dbError) ⟨m, rfl⟩ rfl

/-! ### Iterations at a late hour -/

/-- At `T` every queued row is due and every row that is being sent is stuck. -/
structure Ripe (cfg : Settings) (T : Time) (db : Store) : Prop where
  queued : ∀ m ∈ db.messages, m.status = .queued → isDue T m
  sending : ∀ m ∈ db.messages, m.status = .sending → m.direction = .outbound ∧ isStuck cfg T m

/-- `_requeue_stuck` on such a database leaves nothing but due rows in the queue. -/
theorem requeues_ripe (lib : Lib) (hripe : Ripe cfg T db) :
    ∃ db', Reaches lib cfg T (db, .idle) (db', .claiming) ∧ Ripe cfg T db' ∧
      (∀ m ∈ db'.messages, m.status ≠ .sending) ∧
      ∀ id, id ∈ pendingIds db' ↔ id ∈ pendingIds db := by
  by_cases hnone : db.messages.filter (isStuck cfg T) = []
  · have hstep : step lib cfg db .idle (.requeueSelect T T) = some (db, .claiming) := by
      simp [step, hnone]
    have hsending : ∀ m ∈ db.messages, m.status ≠ .sending := fun m hm hs => by
      have hstuck : m ∈ db.messages.filter (isStuck cfg T) :=
        List.mem_filter.mpr ⟨hm, (hripe.sending m hm hs).2⟩
      rw [hnone] at hstuck
      cases hstuck
    exact ⟨db, reaches_step (b := .requeueSelect T T) ⟨Int.le_refl T, Int.le_refl T⟩ hstep, hripe,
      hsending, fun id => Iff.rfl⟩
  · let objs := (db.messages.filter (isStuck cfg T)).map fun m =>
      (Tracked.load m).assign (requeue T)
    have hselect : step lib cfg db .idle (.requeueSelect T T) = some (db, .requeueing objs) := by
      simp only [step]
      rw [if_neg (by simpa using hnone)]
    have hi : SendInv cfg db (.requeueing objs) :=
      sendInv_step (show SendInv cfg db .idle from trivial) (trans_of_step hselect)
    obtain ⟨db', hdb⟩ := hi.exists_commit T
    have hcommit : step lib cfg db (.requeueing objs) (.commit T) = some (db', .claiming) := by
      simpa [step, Pc.objs] using hdb
    -- a row of the new database was not stuck, or has just been requeued
    have hrows : ∀ r ∈ db'.messages, (r ∈ db.messages ∧ r.status ≠ .sending) ∨
        r.status = .queued ∧ isDue T r ∧ r.id ∈ pendingIds db := fun r hr => by
      rcases hi.mem_commit hdb hr with ⟨hold, hne⟩ | ⟨o, ho, rfl⟩
      · refine .inl ⟨hold, fun hs => ?_⟩
        exact hne _ (List.mem_map_of_mem (List.mem_filter.mpr
          ⟨hold, (hripe.sending r hold hs).2⟩)) rfl
      · obtain ⟨m, hm, rfl⟩ := List.mem_map.mp ho
        obtain ⟨hmem, hstuck⟩ := List.mem_filter.mp hm
        have hs : m.status = .sending := by
          simp only [isStuck, Bool.and_eq_true, decide_eq_true_eq] at hstuck
          exact hstuck.1
        rw [saved_eq]
        refine .inr ⟨rfl, ?_, mem_pendingIds.mpr ⟨m, hmem, rfl, .inr hs⟩⟩
        simp [isDue, requeue, (hripe.sending m hmem hs).1]
    have hsending : ∀ r ∈ db'.messages, r.status ≠ .sending := fun r hr hs => by
      rcases hrows r hr with ⟨-, hne⟩ | ⟨hq, -, -⟩
      · exact hne hs
      · rw [hq] at hs
        cases hs
    have hqueued : ∀ r ∈ db'.messages, r.status = .queued → isDue T r := fun r hr hs => by
      rcases hrows r hr with ⟨hold, -⟩ | ⟨-, hdue, -⟩
      · exact hripe.queued r hold hs
      · exact hdue
    have hreach : Reaches lib cfg T (db, .idle) (db', .claiming) :=
      (reaches_step (b := .requeueSelect T T) ⟨Int.le_refl T, Int.le_refl T⟩ hselect).trans
        (reaches_step (b := .commit T) (Int.le_refl T) hcommit)
    refine ⟨db', hreach, ⟨hqueued, fun r hr hs => absurd hs (hsending r hr)⟩, hsending,
      fun id => ⟨fun hid => ?_, fun hid => ?_⟩⟩
    · obtain ⟨r, hr, rfl, hs⟩ := mem_pendingIds.mp hid
      rcases hrows r hr with ⟨hold, -⟩ | ⟨-, -, hpending⟩
      · exact mem_pendingIds.mpr ⟨r, hold, rfl, hs⟩
      · exact hpending
    · exact (trans_of_step hcommit).pending hi hid fun hhand => by cases hhand

/-- When another row leaves the queue, a ripe database stays ripe. -/
theorem Left.ripe (h : Left db id db') (hripe : Ripe cfg T db) : Ripe cfg T db' where
  queued r hr hs := by
    rcases h.only r hr with ⟨hold, -⟩ | ⟨-, hgone⟩
    · exact hripe.queued r hold hs
    · exact absurd hs hgone.1
  sending r hr hs := by
    rcases h.only r hr with ⟨hold, -⟩ | ⟨-, hgone⟩
    · exact hripe.sending r hold hs
    · exact absurd hs hgone.2

/-- The row has left the queue, and nothing has come to it. -/
theorem Left.pendingIds (h : Left db id db') : id ∉ pendingIds db' ∧
    ∀ id' ∈ SendLoop.pendingIds db', id' ∈ SendLoop.pendingIds db := by
  constructor
  -- The only row under the id has left the queue
  · intro hid
    obtain ⟨r, hr, hrid, hs⟩ := mem_pendingIds.mp hid
    rcases h.only r hr with ⟨-, hne⟩ | ⟨-, hgone⟩
    · exact hne hrid
    · rcases hs with hs | hs
      · exact hgone.1 hs
      · exact hgone.2 hs
  · intro id' hid
    obtain ⟨r, hr, rfl, hs⟩ := mem_pendingIds.mp hid
    rcases h.only r hr with ⟨hold, -⟩ | ⟨-, hgone⟩
    · exact mem_pendingIds.mpr ⟨r, hold, rfl, hs⟩
    · rcases hs with hs | hs
      · exact absurd hs hgone.1
      · exact absurd hs hgone.2

/-- **An iteration over due rows** takes one of them out of the queue, or calls for the
    message. -/
theorem iteration_ripe (lib : Lib) (hripe : Ripe cfg T db) (hid : id ∈ pendingIds db) :
    ∃ q, Reaches lib cfg T (db, .idle) q ∧ (q.2.calling = some id ∨
      q.2 = .idle ∧ Ripe cfg T q.1 ∧ id ∈ pendingIds q.1 ∧
        (pendingIds q.1).length < (pendingIds db).length) := by
  obtain ⟨db₁, hrequeue, hripe₁, hsending, hids⟩ := requeues_ripe lib hripe
  obtain ⟨m, hm, rfl, hs⟩ := mem_pendingIds.mp ((hids id).mpr hid)
  have hdue : isDue T m := hripe₁.queued m hm (hs.resolve_right (hsending m hm))
  obtain ⟨o, ho, holdest⟩ := exists_oldestDue hm hdue
  have hclaim : step lib cfg db₁ .claiming (.claimSelect T (some o.id)) =
      some (db₁, .claimed ((Tracked.load o).assign (claim T))) := by
    simp [step, Store.message?_eq_some.mpr ⟨ho, rfl⟩, holdest]
  have hinv : SendInv cfg db₁ (.claimed ((Tracked.load o).assign (claim T))) :=
    sendInv_step (show SendInv cfg db₁ .claiming from trivial) (trans_of_step hclaim)
  have hreach := hrequeue.trans
    (reaches_step (T := T) (b := .claimSelect T (some o.id)) (Int.le_refl T) hclaim)
  by_cases hsame : m.id = o.id
  · obtain ⟨q, hcalls, hcalling⟩ := claimed_calls lib (T := T) hinv
    exact ⟨q, hreach.trans hcalls, .inl (hsame ▸ hcalling)⟩
  · obtain ⟨db₂, hrest, hleft⟩ := claimed_left lib (T := T) hinv
    refine ⟨(db₂, .idle), hreach.trans hrest, .inr ⟨rfl, hleft.ripe hripe₁,
      hleft.pending ((hids _).mpr hid) hsame, ?_⟩⟩
    -- the claimed row was in the queue, and it is gone
    have hoid : o.id ∈ pendingIds db := by
      have hq : o.status = .queued := by
        have hodue := holdest.1
        simp only [isDue, Bool.and_eq_true, decide_eq_true_eq] at hodue
        exact hodue.1.2
      exact (hids _).mp (mem_pendingIds.mpr ⟨o, ho, rfl, .inl hq⟩)
    obtain ⟨hgone, hsub⟩ := hleft.pendingIds
    have hnodup : (o.id :: pendingIds db₂).Nodup :=
      List.nodup_cons.mpr ⟨hgone, nodup_pendingIds db₂⟩
    have hsubset : o.id :: pendingIds db₂ ⊆ pendingIds db := by
      intro x hx
      rcases List.mem_cons.mp hx with rfl | hx
      · exact hoid
      · exact (hids x).mp (hsub x hx)
    exact (List.subperm_of_subset hnodup hsubset).length_le

/-- Iteration after iteration, the loop comes to a call for the message. -/
theorem calls_ripe (lib : Lib) (hripe : Ripe cfg T db) (hid : id ∈ pendingIds db) :
    ∃ q, Reaches lib cfg T (db, .idle) q ∧ q.2.calling = some id := by
  -- induction on the number of rows in the queue
  induction hn : (pendingIds db).length using Nat.strong_induction_on generalizing db with
  | _ n ih =>
    obtain ⟨⟨db', pc⟩, hreach, hcall | ⟨rfl, hripe', hid', hlt⟩⟩ := iteration_ripe lib hripe hid
    · exact ⟨_, hreach, hcall⟩
    · obtain ⟨q, hrest, hcalling⟩ := ih _ (hn ▸ hlt) hripe' hid' rfl
      exact ⟨q, hreach.trans hrest, hcalling⟩

/-- There is a time past all schedules and all patience. -/
theorem exists_late (cfg : Settings) (T : Time) (ms : List Message) : ∃ T', T ≤ T' ∧ ∀ m ∈ ms,
    m.nextAttemptAt.getD T ≤ T' ∧ m.updatedAt + seconds cfg.stuckAfterSeconds < T' := by
  have hlater : ∀ i j k : Int, ∃ l, i ≤ l ∧ j ≤ l ∧ k < l := fun i j k =>
    ⟨max i (max j (k + 1)), by omega, by omega, by omega⟩
  -- A maximum over the rows
  induction ms with
  | nil => exact ⟨T, Int.le_refl T, fun _ hm => absurd hm List.not_mem_nil⟩
  | cons m ms ih =>
    obtain ⟨T₁, hT₁, hms⟩ := ih
    obtain ⟨T₂, h₁, h₂, h₃⟩ := hlater T₁ (m.nextAttemptAt.getD T)
      (m.updatedAt + seconds cfg.stuckAfterSeconds)
    refine ⟨T₂, Int.le_trans hT₁ h₁, fun r hr => ?_⟩
    rcases List.mem_cons.mp hr with rfl | hr
    · exact ⟨h₂, h₃⟩
    · exact ⟨Int.le_trans (hms r hr).1 h₁, Int.lt_of_lt_of_le (hms r hr).2 h₁⟩

/-- At such a time the database is ripe. -/
theorem exists_ripe (cfg : Settings) (T : Time) (hout : ∀ m ∈ db.messages,
    m.status = .queued ∨ m.status = .sending → m.direction = .outbound) :
    ∃ T', T ≤ T' ∧ Ripe cfg T' db := by
  obtain ⟨T', hT, hlate⟩ := exists_late cfg T db.messages
  refine ⟨T', hT, fun m hm hs => ?_, fun m hm hs => ⟨hout m hm (.inr hs), ?_⟩⟩
  · have hnext := (hlate m hm).1
    have hdir := hout m hm (.inl hs)
    cases hn : m.nextAttemptAt with
    | none => simp [isDue, hdir, hs, hn]
    | some t =>
      rw [hn] at hnext
      have ht : t ≤ T' := hnext
      simp [isDue, hdir, hs, hn, ht]
  · simpa [isStuck, hs] using Int.lt_sub_right_of_add_lt (hlate m hm).2

end SendLoop

/-! ## Every row is in reach -/

/-- The label is a clean step of the send loop at or past `T`. -/
def Alone (T : Time) (s : Sys) (a : Action) : Prop := ∃ b, a = .send b ∧ b.Clean T s.send

section
variable {lib : Lib} {cfg : Settings} {env : Env} {s t : Sys} {tr : List Action} {m : Message}

/-- Clean steps that read later clocks read clocks past an earlier time. -/
theorem SendLoop.Act.Clean.mono {b : SendLoop.Act} {pc : SendLoop.Pc} {T T' : Time} (hT : T ≤ T')
    (h : b.Clean T' pc) : b.Clean T pc := by
  cases b with
  | requeueSelect => exact ⟨Int.le_trans hT h.1, Int.le_trans hT h.2⟩
  | claimSelect | publishReply | providerReply | commit => exact Int.le_trans hT h
  | publish | providerSend => trivial
  | dbError => exact h

/-- What the loop comes to on its own is a run of the relay. -/
theorem run_of_reaches {T T' : Time} {q : Store × SendLoop.Pc} (hT : T ≤ T')
    (h : SendLoop.Reaches lib cfg T' (s.db, s.send) q) :
    ∃ tr, Transition.Run (Guarded (Alone T) (Step lib cfg)) s tr
      { s with db := q.1, send := q.2 } := by
  induction h with
  | refl => exact ⟨[], .nil⟩
  | @tail p q _ hstep ih =>
    obtain ⟨tr, hrun⟩ := ih
    obtain ⟨b, hclean, hb⟩ := hstep
    have hstep' : Step lib cfg { s with db := p.1, send := p.2 } (.send b)
        { s with db := q.1, send := q.2 } := step_send hb
    exact ⟨_, hrun.snoc ⟨⟨b, rfl, hclean.mono hT⟩, hstep'⟩⟩

/-- **No row in the queue is out of reach.**  A row that is queued or being sent is in the
    loop's hand, or clean steps of the loop alone lead to a call for it, however late. -/
theorem exists_call (hrun : Run lib cfg (Sys.init env) tr s) (hm : m ∈ s.db.messages)
    (hs : m.status = .queued ∨ m.status = .sending) : s.send.inHand = some m.id ∨
      ∀ T, ∃ tr' t, Transition.Run (Guarded (Alone T) (Step lib cfg)) s tr' t ∧
        t.send.calling = some m.id := by
  by_cases hhand : s.send.inHand = some m.id
  · exact .inl hhand
  · refine .inr fun T => ?_
    have hpending : m.id ∈ SendLoop.pendingIds s.db := SendLoop.mem_pendingIds.mpr ⟨m, hm, rfl, hs⟩
    obtain ⟨⟨db, pc⟩, hreach, hq⟩ :=
      SendLoop.settles lib (T := T) (inv_reachable hrun).send hpending hhand
    obtain ⟨tr₁, hrun₁⟩ := run_of_reaches (Int.le_refl T) hreach
    rcases hq with hcalling | ⟨rfl, hid⟩
    · exact ⟨tr₁, _, hrun₁, hcalling⟩
    · -- from the start of an iteration, wait until everything is due or stuck
      have hi := inv_run (inv_reachable hrun) hrun₁.unguard
      obtain ⟨T', hT, hripe⟩ := SendLoop.exists_ripe cfg T fun r hr hs =>
        ((hi.row r hr).1.pending hs).1
      obtain ⟨q, hcalls, hcalling⟩ := SendLoop.calls_ripe lib hripe hid
      obtain ⟨tr₂, hrun₂⟩ := run_of_reaches (s := { s with db := db, send := .idle }) hT hcalls
      exact ⟨tr₁ ++ tr₂, _, hrun₁.append hrun₂, hcalling⟩

/-! ## Claim before send, and recovery -/

/-- What holds after the trace `tr`, in the state `s`. -/
structure ClaimAndRecovery (lib : Lib) (cfg : Settings) (env : Env) (tr : List Action) (s : Sys) :
    Prop where
  /-- A call is made for a row that is committed as being sent, with no other in flight. -/
  claimed : ∀ id t, Step lib cfg s (.send (.publish id)) t ∨
    Step lib cfg s (.send (.providerSend id)) t →
      inFlight tr = [] ∧ ∃ m ∈ s.db.messages, m.id = id ∧ m.status = .sending
  single : (inFlight tr).length ≤ 1
  /-- As long as a call is in flight, its row is the one that is being sent. -/
  untouched : ∀ id ∈ inFlight tr, ∃ m ∈ s.db.messages, m.id = id ∧ m.status = .sending ∧
    ∀ tr' t, Run lib cfg s tr' t → (∀ a ∈ tr', a.endsCall id = false) →
      id ∈ inFlight (tr ++ tr') ∧ m ∈ t.db.messages
  /-- `_requeue_stuck` runs while no call is in flight, from its `SELECT` to its commit. -/
  requeue : (∀ now stamp t, Step lib cfg s (.send (.requeueSelect now stamp)) t →
    inFlight tr = []) ∧ ∀ objs, s.send = .requeueing objs → inFlight tr = []
  orphaned : ∀ t, Step lib cfg s .crash t → ∀ m ∈ t.db.messages, m.status = .sending → Leftover t m
  /-- The first iteration past its patience returns a row that was left over. -/
  returned : ∀ m, Leftover s m → ∀ tr' t now stamp u, Run lib cfg s tr' t →
    (∀ a ∈ tr', ¬ a.PastPatience cfg m) → Step lib cfg t (.send (.requeueSelect now stamp)) u →
      m.updatedAt + seconds cfg.stuckAfterSeconds < now →
        Leftover t m ∧ Returning lib cfg u m stamp
  custody : ∀ call service request rows,
    s.sendMessages call = .done service request (.accepted rows) →
      ∀ m ∈ rows, InCustody lib cfg env tr s m.id
  reach : ∀ m ∈ s.db.messages, m.status = .queued ∨ m.status = .sending →
    s.send.inHand = some m.id ∨
      ∀ T, ∃ tr' t, Transition.Run (Guarded (Alone T) (Step lib cfg)) s tr' t ∧
        t.send.calling = some m.id

/-- The loop makes a call, or starts an iteration, while it waits for none. -/
theorem calling_eq_none {b : SendLoop.Act} (hstep : Step lib cfg s (.send b) t)
    (hb : (∃ id, b = .publish id ∨ b = .providerSend id) ∨
      ∃ now stamp, b = .requeueSelect now stamp) :
    s.send.calling = none := by
  cases (trans_of_step hstep).2 with
  | send h =>
    generalize s.send = pc at h
    cases h with
    | publishReply | providerReply => simp at hb
    | @dbError pc hdb => simp at hb
    | _ => rfl

/-- **Claim before send, and crash recovery**, after every run.  As in `SendLoop.isStuck`,
    `now - timedelta(seconds=stuck_after_seconds)` is taken to be a `datetime`. -/
theorem claim_and_recovery (hrun : Run lib cfg (Sys.init env) tr s) :
    ClaimAndRecovery lib cfg env tr s := by
  have hi := inv_reachable hrun
  have hflight := inFlight_eq hrun
  have hnone : s.send.calling = none → inFlight tr = [] := fun h => by rw [hflight, h]; rfl
  refine
    { claimed := fun id t hstep => ?_
      single := ?_
      untouched := fun id hid => ?_
      requeue := ⟨fun now stamp t hstep => hnone (calling_eq_none hstep (.inr ⟨now, stamp, rfl⟩)),
        fun objs hobjs => hnone (by rw [hobjs]; rfl)⟩
      orphaned := fun t hstep m hm hs => leftover_of_crash hstep hm hs
      returned := fun m hl tr' t now stamp u hrun' hnot hstep hpast => ?_
      custody := fun _ _ _ _ hdone => custody_reachable hrun hdone
      reach := fun m hm hs => exists_call hrun hm hs }
  · rcases hstep with hstep | hstep
    · obtain ⟨m, hm, hid, hs, -⟩ := publish_row hi hstep
      exact ⟨hnone (calling_eq_none hstep (.inl ⟨id, .inl rfl⟩)), m, hm, hid, hs⟩
    · obtain ⟨m, hm, hid, hs, -⟩ := providerSend_row hi hstep
      exact ⟨hnone (calling_eq_none hstep (.inl ⟨id, .inr rfl⟩)), m, hm, hid, hs⟩
  · rw [hflight]
    cases s.send.calling <;> simp
  -- the call in flight is the one the loop waits for
  · have hcalling : s.send.calling = some id := by
      rw [hflight] at hid
      simpa using hid
    obtain ⟨m, hm, hmid, hs⟩ := sending_of_calling hi hcalling
    refine ⟨m, hm, hmid, hs, fun tr' t hrun' hends => ?_⟩
    obtain ⟨hsend, hrows⟩ := calling_run hi hrun' hcalling hends
    refine ⟨?_, hrows m hm hmid⟩
    rw [inFlight_eq (hrun.append hrun'), hsend, ← hflight]
    exact hid
  · have hl' := hl.run hi hrun' hnot
    exact ⟨hl', hl'.returned (inv_run hi hrun') hstep hpast⟩

end

namespace Sample

/-- The process dies while the gateway is asked to send a message. -/
def crashed : List Action := queue "m1" 0 ++ post "m1" 1 ++ [.crash]

/-- A later clock than the patience with a row that was claimed at 1. -/
def late : Time := seconds 301

/-- The rows with their stamps, and what the send loop holds. -/
def orphans (s : Sys) : List (String × MessageStatus × Time) × List String :=
  (s.db.messages.map fun m => (m.id, m.status, m.updatedAt), s.send.held)

end Sample

/-- The row that the crash leaves behind is returned. -/
theorem claim_and_recovery_crashed : ∃ s t m,
    Run Sample.lib Sample.cfg (Sys.init Sample.env) Sample.crashed s ∧
    ClaimAndRecovery Sample.lib Sample.cfg Sample.env Sample.crashed s ∧ Leftover s m ∧
    Step Sample.lib Sample.cfg s (.send (.requeueSelect Sample.late Sample.late)) t ∧
    Returning Sample.lib Sample.cfg t m Sample.late := by
  obtain ⟨s, t, hrun, hlast, hs, -⟩ : ∃ s t,
      Run Sample.lib Sample.cfg (Sys.init Sample.env) Sample.crashed s ∧
      Run Sample.lib Sample.cfg s [.send (.requeueSelect Sample.late Sample.late)] t ∧
      Sample.orphans s = ([("m1", .sending, 1)], []) ∧
      Sample.orphans t = ([("m1", .sending, 1)], ["m1"]) :=
    run_of_exec_map₂ (by decide +kernel) (by decide +kernel)
  obtain ⟨t', hstep, hnil⟩ := hlast.cons_inv
  obtain rfl := hnil.nil_inv
  obtain ⟨hrows, hheld⟩ := Prod.mk.inj hs
  obtain ⟨m, hm, hrow⟩ : ∃ m ∈ s.db.messages, (m.id, m.status, m.updatedAt) = ("m1", .sending, 1) :=
    List.mem_map.mp (by rw [hrows]; exact List.mem_singleton.mpr rfl)
  obtain ⟨-, hrest⟩ := Prod.mk.inj hrow
  obtain ⟨hsending, hupdated⟩ := Prod.mk.inj hrest
  -- the crash has left the row behind, at the time of its claim
  have hleft : Leftover s m := ⟨hm, hsending, by rw [hheld]; exact List.not_mem_nil⟩
  have hall := claim_and_recovery hrun
  refine ⟨s, t', m, hrun, hall, hleft, hstep, ?_⟩
  refine (hall.returned m hleft [] s Sample.late Sample.late t' .nil nofun hstep ?_).2
  rw [hupdated]
  decide

end SmsRelay
