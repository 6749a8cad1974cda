import SmsRelay.ForStd.Except
import SmsRelay.Native.System

/-!
# What the steps of each party do

One inversion lemma per party: everything a successful step can have done, guards
included.  The invariants are proved from these and never unfold a step function.
-/

namespace SmsRelay

open UnitOfWork

/-! ## The send loop -/

namespace SendLoop

/-- The objects whose changes the next commit of the loop writes. -/
def Pc.objs : Pc → List (Tracked Message)
  | .requeueing objs => objs
  | .claimed o => [o]
  | .acknowledged o => [o]
  | .fellBack o => [o]
  | .finishing o => [o]
  | _ => []

/-- The transitions of the send loop. -/
inductive Trans (lib : Lib) (cfg : Settings) (db : Store) : Pc → Act → Store → Pc → Prop
  | requeueNone {now stamp : Time} : db.messages.filter (isStuck cfg now) = [] →
      Trans lib cfg db .idle (.requeueSelect now stamp) db .claiming
  | requeueSome {now stamp : Time} :
      Trans lib cfg db .idle (.requeueSelect now stamp) db
        (.requeueing ((db.messages.filter (isStuck cfg now)).map fun m =>
          (Tracked.load m).assign (requeue stamp)))
  | requeued {objs : List (Tracked Message)} {now : Time} {db' : Store} :
      db.updateMessages now objs = some db' →
      Trans lib cfg db (.requeueing objs) (.commit now) db' .claiming
  | claimNone {now : Time} : (∀ m ∈ db.messages, ¬ isDue now m) →
      Trans lib cfg db .claiming (.claimSelect now none) db .idle
  | claimSome {now : Time} {m : Message} : m ∈ db.messages → IsOldestDue db now m →
      Trans lib cfg db .claiming (.claimSelect now (some m.id)) db
        (.claimed ((Tracked.load m).assign (claim now)))
  | claimed {o : Tracked Message} {now : Time} {db' : Store} :
      db.updateMessages now [o] = some db' →
      Trans lib cfg db (.claimed o) (.commit now) db' (afterClaim (o.saved now))
  | publish {m : Message} :
      Trans lib cfg db (.toPublish m) (.publish m.id) db (.publishing m)
  | publishReply {m : Message} {reply : HttpReply} {now : Time} :
      Trans lib cfg db (.publishing m) (.publishReply m.id reply now) db
        (afterPublish m reply now)
  | acknowledged {o : Tracked Message} {now : Time} {db' : Store} :
      db.updateMessages now [o] = some db' →
      Trans lib cfg db (.acknowledged o) (.commit now) db' .idle
  | fellBack {o : Tracked Message} {now : Time} {db' : Store} :
      db.updateMessages now [o] = some db' →
      Trans lib cfg db (.fellBack o) (.commit now) db' (.limiting (o.saved now))
  | providerSend {m : Message} :
      Trans lib cfg db (.limiting m) (.providerSend m.id) db (.sending m)
  | providerReply {m : Message} {reply : ProviderReply} {now : Time}
      {result : Except PyError SendResult} :
      SmsRelay.providerSend cfg.provider reply = some result →
      Trans lib cfg db (.sending m) (.providerReply m.id reply now) db
        (afterSend lib cfg m now result)
  | finishing {o : Tracked Message} {now : Time} {db' : Store} :
      db.updateMessages now [o] = some db' →
      Trans lib cfg db (.finishing o) (.commit now) db' .idle
  | dbError {pc : Pc} : pc.awaitsDb = true → Trans lib cfg db pc .dbError db .idle

variable {lib : Lib} {cfg : Settings} {db db' : Store} {pc pc' : Pc} {a : Act}

/-- Every step of the send loop is one of its transitions. -/
theorem trans_of_step (h : step lib cfg db pc a = some (db', pc')) :
    Trans lib cfg db pc a db' pc' := by
  cases a with
  | dbError =>
    cases pc <;> simp [step, Pc.awaitsDb] at h <;> obtain ⟨rfl, rfl⟩ := h <;> exact .dbError rfl
  | requeueSelect now stamp =>
    cases pc <;> simp only [step, reduceCtorEq, Option.some.injEq, Prod.mk.injEq] at h
    obtain ⟨rfl, rfl⟩ := h
    split
    · next hempty => exact .requeueNone (List.isEmpty_iff.mp hempty)
    · exact .requeueSome
  | claimSelect now id =>
    cases pc <;> cases id <;> simp only [step, reduceCtorEq] at h
    · next =>
      split at h
      · next hnone =>
        obtain ⟨rfl, rfl⟩ := Option.some.inj h
        exact .claimNone hnone
      · cases h
    · next id =>
      obtain ⟨m, hm, hstep⟩ := Option.bind_eq_some_iff.mp h
      obtain ⟨hmem, rfl⟩ := Store.message?_eq_some.mp hm
      split at hstep
      · next hdue =>
        obtain ⟨rfl, rfl⟩ := Option.some.inj hstep
        exact .claimSome hmem hdue
      · cases hstep
  | publish id =>
    cases pc <;> simp only [step, reduceCtorEq, Option.ite_none_right_eq_some,
      Option.some.injEq, Prod.mk.injEq] at h
    obtain ⟨rfl, rfl, rfl⟩ := h
    exact .publish
  | publishReply id reply now =>
    cases pc <;> simp only [step, reduceCtorEq, Option.ite_none_right_eq_some,
      Option.some.injEq, Prod.mk.injEq] at h
    obtain ⟨rfl, rfl, rfl⟩ := h
    exact .publishReply
  | providerSend id =>
    cases pc <;> simp only [step, reduceCtorEq, Option.ite_none_right_eq_some,
      Option.some.injEq, Prod.mk.injEq] at h
    obtain ⟨rfl, rfl, rfl⟩ := h
    exact .providerSend
  | providerReply id reply now =>
    cases pc <;> simp only [step, reduceCtorEq, Option.ite_none_right_eq_some,
      Option.map_eq_some_iff, Prod.mk.injEq] at h
    obtain ⟨rfl, result, hresult, rfl, rfl⟩ := h
    exact .providerReply hresult
  | commit now =>
    cases pc <;> simp only [step, reduceCtorEq, Option.map_eq_some_iff, Prod.mk.injEq] at h
    · obtain ⟨_, hdb, rfl, rfl⟩ := h; exact .requeued hdb
    · obtain ⟨_, hdb, rfl, rfl⟩ := h; exact .claimed hdb
    · obtain ⟨_, hdb, rfl, rfl⟩ := h; exact .acknowledged hdb
    · obtain ⟨_, hdb, rfl, rfl⟩ := h; exact .fellBack hdb
    · obtain ⟨_, hdb, rfl, rfl⟩ := h; exact .finishing hdb

/-- The loop writes to the database only by committing its objects. -/
theorem Trans.db_cases (h : Trans lib cfg db pc a db' pc') :
    db' = db ∨ ∃ now, a = .commit now ∧ db.updateMessages now pc.objs = some db' := by
  cases h with
  | requeued hdb => exact .inr ⟨_, rfl, hdb⟩
  | claimed hdb => exact .inr ⟨_, rfl, hdb⟩
  | acknowledged hdb => exact .inr ⟨_, rfl, hdb⟩
  | fellBack hdb => exact .inr ⟨_, rfl, hdb⟩
  | finishing hdb => exact .inr ⟨_, rfl, hdb⟩
  | _ => exact .inl rfl

end SendLoop

/-! ## The status loop -/

namespace StatusLoop

/-- The objects of the pass's session. -/
def Pc.objs : Pc → List (Tracked Message)
  | .idle => []
  | .polling done m rest => done ++ (m :: rest).map Tracked.load
  | .committing objs => objs

/-- The transitions of the status loop. -/
inductive Trans (cfg : Settings) (db : Store) : Pc → Act → Store → Pc → Prop
  | select {now : Time} :
      Trans cfg db .idle (.select now) db (resume [] (db.messages.filter (isPolled now)))
  | fetched {done : List (Tracked Message)} {m : Message} {rest : List Message}
      {reply : ProviderReply} {status : Option MessageStatus} :
      providerFetchStatus cfg.provider reply = some (.ok status) →
      Trans cfg db (.polling done m rest) (.fetched m.id reply) db
        (resume (done ++ [(Tracked.load m).assign (upgrade status)]) rest)
  | escaped {done : List (Tracked Message)} {m : Message} {rest : List Message}
      {reply : ProviderReply} {e : PyError} :
      providerFetchStatus cfg.provider reply = some (.error e) →
      Trans cfg db (.polling done m rest) (.fetched m.id reply) db .idle
  | commit {objs : List (Tracked Message)} {now : Time} {db' : Store} :
      db.updateMessages now objs = some db' →
      Trans cfg db (.committing objs) (.commit now) db' .idle
  | dbError {pc : Pc} : Trans cfg db pc .dbError db .idle

variable {cfg : Settings} {db db' : Store} {pc pc' : Pc} {a : Act}

/-- Every step of the status loop is one of its transitions. -/
theorem trans_of_step (h : step cfg db pc a = some (db', pc')) : Trans cfg db pc a db' pc' := by
  cases a with
  | select now =>
    cases pc <;> simp only [step, reduceCtorEq, Option.some.injEq, Prod.mk.injEq] at h
    obtain ⟨rfl, rfl⟩ := h
    exact .select
  | fetched id reply =>
    cases pc <;> simp only [step, reduceCtorEq, Option.ite_none_right_eq_some,
      Option.map_eq_some_iff] at h
    obtain ⟨rfl, result, hresult, hpair⟩ := h
    cases result with
    | ok status =>
      obtain ⟨rfl, rfl⟩ := Prod.mk.inj hpair
      exact .fetched hresult
    | error e =>
      obtain ⟨rfl, rfl⟩ := Prod.mk.inj hpair
      exact .escaped hresult
  | commit now =>
    cases pc <;> simp only [step, reduceCtorEq, Option.map_eq_some_iff, Prod.mk.injEq] at h
    obtain ⟨_, hdb, rfl, rfl⟩ := h
    exact .commit hdb
  | dbError =>
    cases pc <;> simp only [step, reduceCtorEq, Option.some.injEq, Prod.mk.injEq] at h <;>
      obtain ⟨rfl, rfl⟩ := h <;> exact .dbError

/-- The loop writes to the database only by committing its objects. -/
theorem Trans.db_cases (h : Trans cfg db pc a db' pc') :
    db' = db ∨ ∃ now, a = .commit now ∧ pc = .committing pc.objs ∧
      db.updateMessages now pc.objs = some db' := by
  cases h with
  | commit hdb => exact .inr ⟨_, rfl, rfl, hdb⟩
  | _ => exact .inl rfl

/-- What is left to do does not change which objects the session holds. -/
theorem objs_resume_sublist (done : List (Tracked Message)) (pending : List Message) :
    (resume done pending).objs.Sublist (done ++ pending.map Tracked.load) := by
  cases pending with
  | nil =>
    simp only [resume]
    split
    · simp [Pc.objs]
    · simp [Pc.objs]
  | cons m rest => simp [resume, Pc.objs]

end StatusLoop

/-- The statuses a poll can report. -/
theorem providerFetchStatus_cases {provider : ProviderName} {reply : ProviderReply}
    {status : Option MessageStatus} (h : providerFetchStatus provider reply = some (.ok status)) :
    status = none ∨ status = some .sent ∨ status = some .delivered ∨ status = some .failed := by
  cases provider <;> cases reply <;> simp only [providerFetchStatus, reduceCtorEq,
    Option.some.injEq, Except.ok.injEq] at h
  · next reply =>
    unfold AndroidGatewayProvider.fetchStatus at h
    split at h
    · simp_all
    · simp_all
    · cases h
    · split at h
      · simp_all
      · split at h
        · simp_all
        · split at h
          · next body _ =>
            cases hget : getOfDict body "state" with
            | error e => simp [hget, Except.bind] at h
            | ok state =>
              simp only [hget, Except.bind] at h
              unfold AndroidGatewayProvider.stateMap at h
              split at h <;> simp_all
          · cases h
          · simp_all
  · next => exact .inl h.symm

/-! ## The API calls -/

namespace SendMessage

/-- The rows a call is about to commit. -/
def Pc.rows : Pc → List Message
  | .committing _ _ rows => rows
  | _ => []

variable {lib : Lib} {cfg : Settings} {env : Env} {db db' : Store} {pc pc' : Pc} {a : Act}

/-- The rows built for a request: one per recipient, under the given ids, in order. -/
theorem mem_created {service : String} {request : SendRequest} {now : Time}
    {targets : List (String × String)} {rows : List Message}
    (h : created lib cfg env service request now targets = .ok rows) :
    rows.map Message.id = targets.map Prod.fst ∧
      ∀ m ∈ rows, ∃ id toNumber topic,
        topicFor lib cfg env service toNumber request.body = .ok topic ∧
        m = newMessage service request id toNumber topic now := by
  induction targets generalizing rows with
  | nil =>
    obtain rfl : [] = rows := by simpa [created] using h
    simp
  | cons target rest ih =>
    obtain ⟨id, toNumber⟩ := target
    simp only [created, bind, Except.bind] at h
    cases htopic : topicFor lib cfg env service toNumber request.body with
    | error e => simp [htopic] at h
    | ok topic =>
      simp only [htopic] at h
      cases hrest : created lib cfg env service request now rest with
      | error e => simp [hrest] at h
      | ok messages =>
        simp only [hrest, pure, Except.pure, Except.ok.injEq] at h
        subst h
        obtain ⟨hids, hmem⟩ := ih hrest
        refine ⟨by simp [hids, newMessage], fun m hm => ?_⟩
        rcases List.mem_cons.mp hm with rfl | hm
        · exact ⟨id, toNumber, topic, htopic, rfl⟩
        · exact hmem m hm

/-- The transitions of a call. -/
inductive Trans (lib : Lib) (cfg : Settings) (env : Env) (db : Store) :
    Pc → Act → Store → Pc → Prop
  | refuse {service : String} {request : SendRequest} {e : PyError} :
      validate lib cfg request = .error e →
      Trans lib cfg env db .idle (.begin service request) db (.done service request (.raised e))
  | begin {service : String} {request : SendRequest} {normalized : List String} :
      validate lib cfg request = .ok normalized →
      Trans lib cfg env db .idle (.begin service request) db
        (if (keyOf request).isSome then .lookup service request normalized
          else .creating service request normalized)
  | lookup {service : String} {request : SendRequest} {normalized : List String}
      {key : String} : keyOf request = some key →
      Trans lib cfg env db (.lookup service request normalized) .lookup db
        (afterLookup db service request normalized key)
  | topicRaises {service : String} {request : SendRequest} {normalized uuids : List String}
      {now : Time} {e : PyError} :
      created lib cfg env service request now (uuids.zip normalized) = .error e →
      Trans lib cfg env db (.creating service request normalized) (.create uuids now) db
        (.done service request (.raised e))
  | create {service : String} {request : SendRequest} {normalized uuids : List String}
      {now : Time} {rows : List Message} : uuids.length = normalized.length →
      created lib cfg env service request now (uuids.zip normalized) = .ok rows →
      Trans lib cfg env db (.creating service request normalized) (.create uuids now) db
        (.committing service request rows)
  | commit {service : String} {request : SendRequest} {rows : List Message} {db' : Store} :
      db.insertMessages rows = some db' →
      Trans lib cfg env db (.committing service request rows) .commit db'
        (.done service request (.accepted rows))
  | integrityError {service : String} {request : SendRequest} {rows : List Message} :
      db.insertMessages rows = none →
      Trans lib cfg env db (.committing service request rows) .integrityError db
        (.recovering service request)
  | recover {service : String} {request : SendRequest} :
      Trans lib cfg env db (.recovering service request) .recover db
        (afterRecovery db service request)
  | dbError {pc : Pc} {service : String} {request : SendRequest} :
      Trans lib cfg env db pc .dbError db
        (.done service request (.raised (.other "database")))

/-- Every step of a call is one of its transitions. -/
theorem trans_of_step (h : step lib cfg env db pc a = some (db', pc')) :
    Trans lib cfg env db pc a db' pc' := by
  cases a with
  | begin service request =>
    cases pc <;> simp only [step, reduceCtorEq] at h
    split at h
    · next hv =>
      obtain ⟨rfl, rfl⟩ := Prod.mk.inj (Option.some.inj h)
      exact .refuse hv
    · next hv =>
      obtain ⟨rfl, rfl⟩ := Prod.mk.inj (Option.some.inj h)
      exact .begin hv
  | lookup =>
    cases pc <;> simp only [step, reduceCtorEq, Option.map_eq_some_iff, Prod.mk.injEq] at h
    obtain ⟨key, hkey, rfl, rfl⟩ := h
    exact .lookup hkey
  | create uuids now =>
    cases pc <;> simp only [step, reduceCtorEq] at h
    split at h
    · next hlen =>
      split at h
      · next hcreated =>
        obtain ⟨rfl, rfl⟩ := Prod.mk.inj (Option.some.inj h)
        exact .topicRaises hcreated
      · next hcreated =>
        obtain ⟨rfl, rfl⟩ := Prod.mk.inj (Option.some.inj h)
        exact .create hlen hcreated
    · cases h
  | commit =>
    cases pc <;> simp only [step, reduceCtorEq, Option.map_eq_some_iff, Prod.mk.injEq] at h
    obtain ⟨_, hdb, rfl, rfl⟩ := h
    exact .commit hdb
  | integrityError =>
    cases pc <;> simp only [step, reduceCtorEq] at h
    split at h
    · next hdb =>
      obtain ⟨rfl, rfl⟩ := Prod.mk.inj (Option.some.inj h)
      exact .integrityError hdb
    · cases h
  | recover =>
    cases pc <;> simp only [step, reduceCtorEq, Option.some.injEq, Prod.mk.injEq] at h
    obtain ⟨rfl, rfl⟩ := h
    exact .recover
  | dbError =>
    cases pc <;> simp only [step, reduceCtorEq, Option.some.injEq, Prod.mk.injEq] at h <;>
      obtain ⟨rfl, rfl⟩ := h <;> exact .dbError

/-- The lookup of a key ends the call or goes on to create the rows. -/
theorem afterLookup_rows (service : String) (request : SendRequest) (normalized : List String)
    (key : String) : (afterLookup db service request normalized key).rows = [] := by
  unfold afterLookup
  split <;> rfl

theorem afterRecovery_rows (service : String) (request : SendRequest) :
    (afterRecovery db service request).rows = [] := by
  unfold afterRecovery
  split
  · rfl
  · split <;> rfl

/-- What a transition does to the database and to the rows the call is about to commit. -/
theorem Trans.effect (h : Trans lib cfg env db pc a db' pc') :
    (db' = db ∧ pc'.rows = []) ∨
    (db' = db ∧ ∃ uuids now service request, a = .create uuids now ∧
      pc'.rows.map Message.id = uuids ∧
      ∀ m ∈ pc'.rows, ∃ id toNumber topic, m = newMessage service request id toNumber topic now) ∨
    (a = .commit ∧ db.insertMessages pc.rows = some db' ∧ pc'.rows = []) := by
  cases h with
  | begin hv =>
    refine .inl ⟨rfl, ?_⟩
    split <;> rfl
  | lookup hkey => exact .inl ⟨rfl, afterLookup_rows _ _ _ _⟩
  | recover => exact .inl ⟨rfl, afterRecovery_rows _ _⟩
  | @create service request normalized uuids now rows hlen hcreated =>
    obtain ⟨hids, hmem⟩ := mem_created hcreated
    rw [List.map_fst_zip (Nat.le_of_eq hlen)] at hids
    refine .inr (.inl ⟨rfl, uuids, now, service, request, rfl, hids, fun m hm => ?_⟩)
    obtain ⟨id, toNumber, topic, -, rfl⟩ := hmem m hm
    exact ⟨id, toNumber, topic, rfl⟩
  | commit hdb => exact .inr (.inr ⟨rfl, hdb, rfl⟩)
  | refuse | topicRaises | integrityError | dbError => exact .inl ⟨rfl, rfl⟩

end SendMessage

namespace Inbound

/-- The row a call is about to commit. -/
def Pc.rows : Pc → List Message
  | .flushed m => [m]
  | .fanned m _ => [m]
  | _ => []

/-- The object a receipt is about to commit. -/
def Pc.receiptObj : Pc → Option (Tracked Message)
  | .receiptCommit o => some o
  | _ => none

/-- The transitions of a call. -/
inductive Trans (lib : Lib) (cfg : Settings) (env : Env) (db : Store) :
    Pc → Act → Store → Pc → Prop
  | begin {event : Except LoadsError (Json PyStr)} :
      Trans lib cfg env db .idle (.begin event) db (begin lib cfg event)
  | dedup {draft : Draft} :
      Trans lib cfg env db (.dedup draft) .select db (afterDedup db draft)
  | flush {draft : Draft} {uuid : String} {now : Time} {m : Message} :
      newMessage lib draft uuid now = some m →
      Trans lib cfg env db (.adding draft) (.flush uuid now) db (.flushed m)
  | refuse {draft : Draft} {uuid : String} {now : Time} :
      newMessage lib draft uuid now = none →
      Trans lib cfg env db (.adding draft) (.flush uuid now) db
        (.done (.raised (.other "cannot store the message")))
  | enqueue {m : Message} {uuids : List String} {now : Time} {pc' : Pc} :
      enqueue env db m uuids now = some pc' →
      Trans lib cfg env db (.flushed m) (.enqueue uuids now) db pc'
  | commit {m : Message} {ds : List WebhookDelivery} {now : Time} {db' : Store} :
      db.insertInbound m ds = some db' →
      Trans lib cfg env db (.fanned m ds) (.commit now) db' (.done (.accepted m.id ds.length))
  | unbindable {now : Time} :
      Trans lib cfg env db .unbindable (.commit now) db (.done (.raised .unicodeEncodeError))
  | receipt {providerId : PyStr} {delivered : Bool} :
      Trans lib cfg env db (.receipt providerId delivered) .select db
        (afterReceiptSelect db providerId delivered)
  | receiptCommit {o : Tracked Message} {now : Time} {db' : Store} :
      db.updateMessages now [o] = some db' →
      Trans lib cfg env db (.receiptCommit o) (.commit now) db' (.done (.updated o.loaded.id))
  | dbError {pc : Pc} : Trans lib cfg env db pc .dbError db (.done (.raised (.other "database")))

variable {lib : Lib} {cfg : Settings} {env : Env} {db db' : Store} {pc pc' : Pc} {a : Act}

/-- Every step of a call is one of its transitions. -/
theorem trans_of_step (h : step lib cfg env db pc a = some (db', pc')) :
    Trans lib cfg env db pc a db' pc' := by
  cases a with
  | begin event =>
    cases pc <;> simp only [step, reduceCtorEq, Option.some.injEq, Prod.mk.injEq] at h
    obtain ⟨rfl, rfl⟩ := h
    exact .begin
  | select =>
    cases pc <;> simp only [step, reduceCtorEq, Option.some.injEq, Prod.mk.injEq] at h
    · obtain ⟨rfl, rfl⟩ := h; exact .dedup
    · obtain ⟨rfl, rfl⟩ := h; exact .receipt
  | flush uuid now =>
    cases pc <;> simp only [step, reduceCtorEq] at h
    split at h
    · next hm =>
      obtain ⟨rfl, rfl⟩ := Prod.mk.inj (Option.some.inj h)
      exact .flush hm
    · next hm =>
      obtain ⟨rfl, rfl⟩ := Prod.mk.inj (Option.some.inj h)
      exact .refuse hm
  | enqueue uuids now =>
    cases pc <;> simp only [step, reduceCtorEq, Option.map_eq_some_iff, Prod.mk.injEq] at h
    obtain ⟨_, henq, rfl, rfl⟩ := h
    exact .enqueue henq
  | commit now =>
    cases pc <;> simp only [step, reduceCtorEq, Option.map_eq_some_iff, Option.some.injEq,
      Prod.mk.injEq] at h
    · obtain ⟨_, hdb, rfl, rfl⟩ := h; exact .commit hdb
    · obtain ⟨rfl, rfl⟩ := h; exact .unbindable
    · obtain ⟨_, hdb, rfl, rfl⟩ := h; exact .receiptCommit hdb
  | dbError =>
    cases pc <;> simp only [step, reduceCtorEq, Option.some.injEq, Prod.mk.injEq] at h <;>
      obtain ⟨rfl, rfl⟩ := h <;> exact .dbError

theorem beginMessage_rows (event : List (PyStr × Json PyStr)) :
    (beginMessage lib cfg event).rows = [] ∧ (beginMessage lib cfg event).receiptObj = none := by
  unfold beginMessage
  dsimp only
  split
  · exact ⟨rfl, rfl⟩
  · split
    · exact ⟨rfl, rfl⟩
    · split <;> exact ⟨rfl, rfl⟩

theorem beginReceipt_rows (event : List (PyStr × Json PyStr)) (delivered : Bool) :
    (beginReceipt lib event delivered).rows = [] ∧
      (beginReceipt lib event delivered).receiptObj = none := by
  unfold beginReceipt
  dsimp only
  split <;> exact ⟨rfl, rfl⟩

/-- The start of a call holds no row and no object. -/
theorem begin_rows (event : Except LoadsError (Json PyStr)) :
    (begin lib cfg event).rows = [] ∧ (begin lib cfg event).receiptObj = none := by
  unfold begin
  split
  · exact ⟨rfl, rfl⟩
  · exact ⟨rfl, rfl⟩
  · split
    · exact beginMessage_rows _
    · exact beginMessage_rows _
    · exact beginReceipt_rows _ _
    · exact beginReceipt_rows _ _
    · exact ⟨rfl, rfl⟩
  · exact ⟨rfl, rfl⟩

theorem afterDedup_rows (draft : Draft) :
    (afterDedup db draft).rows = [] ∧ (afterDedup db draft).receiptObj = none := by
  unfold afterDedup
  split
  · exact ⟨rfl, rfl⟩
  · split <;> exact ⟨rfl, rfl⟩

/-- `enqueue_fanout` keeps the message in hand, or ends the call. -/
theorem enqueue_rows {m : Message} {uuids : List String} {now : Time}
    (h : enqueue env db m uuids now = some pc') :
    (pc'.rows = [] ∨ pc'.rows = [m]) ∧ pc'.receiptObj = none := by
  unfold enqueue at h
  split at h
  · obtain rfl := Option.some.inj h
    exact ⟨.inl rfl, rfl⟩
  · dsimp only at h
    split at h
    · split at h
      · obtain rfl := Option.some.inj h
        exact ⟨.inr rfl, rfl⟩
      · obtain rfl := Option.some.inj h
        exact ⟨.inl rfl, rfl⟩
    · cases h

/-- A single row is the only answer `scalar_one_or_none` returns an object for. -/
theorem scalarOneOrNone_some {α : Type} {xs : List α} {x : α}
    (h : scalarOneOrNone xs = .ok (some x)) : xs = [x] := by
  unfold scalarOneOrNone at h
  split at h
  · simp at h
  · next y => rw [show y = x by simpa using h]
  · cases h

/-- The object of a receipt is a row with the receipt's provider id. -/
theorem afterReceiptSelect_cases {providerId : PyStr} {delivered : Bool} :
    (afterReceiptSelect db providerId delivered).rows = [] ∧
    ∀ o ∈ (afterReceiptSelect db providerId delivered).receiptObj,
      ∃ m ∈ db.messages, ∃ pid, providerId = .text pid ∧ m.providerMessageId = some pid ∧
        delivered = true ∧ o = (Tracked.load m).assign markDelivered := by
  cases providerId with
  | lone => exact ⟨rfl, fun o ho => by cases ho⟩
  | text pid =>
    simp only [afterReceiptSelect, PyStr.encode_text]
    split
    · exact ⟨rfl, by simp [Pc.receiptObj]⟩
    · exact ⟨rfl, by simp [Pc.receiptObj]⟩
    · next m hm =>
      have hmem : m ∈ receiptMatches db pid := by
        rw [scalarOneOrNone_some hm]
        exact List.mem_singleton.mpr rfl
      obtain ⟨hrow, hpid⟩ := List.mem_filter.mp hmem
      cases delivered with
      | false => exact ⟨rfl, by simp [Pc.receiptObj]⟩
      | true =>
        refine ⟨rfl, fun o ho => ⟨m, hrow, pid, rfl, by simpa using hpid, rfl, ?_⟩⟩
        simpa [Pc.receiptObj, eq_comm] using ho

end Inbound

/-! ## The fan-out loop -/

namespace FanoutLoop

/-- The transitions of the fan-out loop. -/
inductive Trans (lib : Lib) (env : Env) (db : Store) : Pc → Act → Store → Pc → Prop
  | selectNone {now : Time} : due db now = [] →
      Trans lib env db .idle (.select now []) db .idle
  | select {now : Time} {batch : List WebhookDelivery} : IsBatch db now batch → batch ≠ [] →
      Trans lib env db .idle (.select now (batch.map WebhookDelivery.id)) db
        (.next .fresh batch)
  | stale {ses : Session} {d : WebhookDelivery} {todo : List WebhookDelivery}
      {collected : List String} {now : Time} :
      getMessage db ses collected now d.messageId = none →
      Trans lib env db (.next ses (d :: todo)) (.get collected now) db .idle
  | get {ses ses' : Session} {d : WebhookDelivery} {todo : List WebhookDelivery}
      {collected : List String} {now : Time} {message : Option Message} :
      getMessage db ses collected now d.messageId = some (ses', message) →
      Trans lib env db (.next ses (d :: todo)) (.get collected now) db
        (handle lib env ses' d message todo)
  | post {ses : Session} {o : Tracked WebhookDelivery} {request : Webhooks.Request}
      {todo : List WebhookDelivery} :
      Trans lib env db (.ready ses o request todo) (.post o.loaded.id) db
        (.posting ses o request todo)
  | posted {ses : Session} {o : Tracked WebhookDelivery} {request : Webhooks.Request}
      {todo : List WebhookDelivery} {reply : HttpReply} {now : Time} :
      Trans lib env db (.posting ses o request todo) (.posted o.loaded.id reply now) db
        (afterPost ses o reply now todo)
  | commit {ses : Session} {now : Time} {db' : Store} : ses.bindable = true →
      db.updateDeliveries now ses.objs = some db' →
      Trans lib env db (.next ses []) (.commit now) db' .idle
  | dbError {pc : Pc} : (pc = .idle ∨ ∃ ses todo, pc = .next ses todo) →
      Trans lib env db pc .dbError db .idle

variable {lib : Lib} {env : Env} {db db' : Store} {pc pc' : Pc} {a : Act}

/-- A batch of one id each comes from rows with these ids. -/
theorem mem_of_mapM_find {ids : List String} {batch : List WebhookDelivery}
    (h : (ids.mapM fun id => db.deliveries.find? fun d => d.id = id) = some batch) :
    ids = batch.map WebhookDelivery.id := by
  have hids : ids.map id = batch.map WebhookDelivery.id :=
    Option.map_eq_of_mapM h fun id d hfind => by simpa [eq_comm] using List.find?_some hfind
  rwa [List.map_id] at hids

/-- Only an empty set of due rows gives an empty batch. -/
theorem IsBatch.due_eq_nil {now : Time} (h : IsBatch db now []) : due db now = [] := by
  have hlen := h.length_eq
  simp only [List.length_nil, batchLimit] at hlen
  exact List.eq_nil_of_length_eq_zero (by omega)

/-- Every step of the fan-out loop is one of its transitions. -/
theorem trans_of_step (h : step lib env db pc a = some (db', pc')) :
    Trans lib env db pc a db' pc' := by
  cases a with
  | select now ids =>
    cases pc <;> simp only [step, reduceCtorEq] at h
    obtain ⟨batch, hbatch, hstep⟩ := Option.bind_eq_some_iff.mp h
    obtain rfl := mem_of_mapM_find hbatch
    split at hstep
    · next hb =>
      obtain ⟨rfl, rfl⟩ := Prod.mk.inj (Option.some.inj hstep)
      cases batch with
      | nil => exact .selectNone hb.due_eq_nil
      | cons d ds => exact .select hb (List.cons_ne_nil d ds)
    · cases hstep
  | get collected now =>
    cases pc <;> simp only [step, reduceCtorEq] at h
    next ses todo =>
    cases todo with
    | nil => simp only [reduceCtorEq] at h
    | cons d todo =>
      simp only at h
      split at h
      · next hget =>
        obtain ⟨rfl, rfl⟩ := Prod.mk.inj (Option.some.inj h)
        exact .stale hget
      · next hget =>
        obtain ⟨rfl, rfl⟩ := Prod.mk.inj (Option.some.inj h)
        exact .get hget
  | post id =>
    cases pc <;> simp only [step, reduceCtorEq, Option.ite_none_right_eq_some,
      Option.some.injEq, Prod.mk.injEq] at h
    obtain ⟨rfl, rfl, rfl⟩ := h
    exact .post
  | posted id reply now =>
    cases pc <;> simp only [step, reduceCtorEq, Option.ite_none_right_eq_some,
      Option.some.injEq, Prod.mk.injEq] at h
    obtain ⟨rfl, rfl, rfl⟩ := h
    exact .posted
  | commit now =>
    cases pc <;> simp only [step, reduceCtorEq] at h
    next ses todo =>
    cases todo with
    | cons d todo => simp only [reduceCtorEq] at h
    | nil =>
      simp only [Option.ite_none_right_eq_some, Option.map_eq_some_iff, Prod.mk.injEq] at h
      obtain ⟨hbind, _, hdb, rfl, rfl⟩ := h
      exact .commit hbind hdb
  | dbError =>
    cases pc <;> simp only [step, reduceCtorEq, Option.some.injEq, Prod.mk.injEq] at h <;>
      obtain ⟨rfl, rfl⟩ := h
    · exact .dbError (.inl rfl)
    · exact .dbError (.inr ⟨_, _, rfl⟩)

/-- The loop never writes a message. -/
theorem Trans.messages (h : Trans lib env db pc a db' pc') : db'.messages = db.messages := by
  cases h with
  | commit _ hdb => exact (Store.updateDeliveries_eq_some.mp hdb).2.2
  | _ => rfl

end FanoutLoop

/-! ## The whole relay -/

/-- The transitions of the relay: one party moves, and the rest is as before. -/
inductive Trans (lib : Lib) (cfg : Settings) (s : Sys) : Action → Sys → Prop
  | send {a : SendLoop.Act} {db : Store} {pc : SendLoop.Pc} :
      SendLoop.Trans lib cfg s.db s.send a db pc →
      Trans lib cfg s (.send a) { s with db := db, send := pc }
  | status {a : StatusLoop.Act} {db : Store} {pc : StatusLoop.Pc} :
      StatusLoop.Trans cfg s.db s.status a db pc →
      Trans lib cfg s (.status a) { s with db := db, status := pc }
  | fanout {a : FanoutLoop.Act} {db : Store} {pc : FanoutLoop.Pc} :
      FanoutLoop.Trans lib s.env s.db s.fanout a db pc →
      Trans lib cfg s (.fanout a) { s with db := db, fanout := pc }
  | prune {now : Time} : Trans lib cfg s (.prune now) { s with db := prune cfg now s.db }
  | sendMessage {call : Nat} {a : SendMessage.Act} {db : Store} {pc : SendMessage.Pc} :
      SendMessage.Trans lib cfg s.env s.db (s.sendMessages call) a db pc →
      Trans lib cfg s (.sendMessage call a)
        { s with
          db := db
          used := (Action.sendMessage call a).uuids ++ s.used
          sendMessages := Function.update s.sendMessages call pc }
  | inbound {call : Nat} {a : Inbound.Act} {db : Store} {pc : Inbound.Pc} :
      Inbound.Trans lib cfg s.env s.db (s.inbounds call) a db pc →
      Trans lib cfg s (.inbound call a)
        { s with
          db := db
          used := (Action.inbound call a).uuids ++ s.used
          inbounds := Function.update s.inbounds call pc }
  | configure {env : Env} : Trans lib cfg s (.configure env) { s with env := env }
  | crash :
      Trans lib cfg s .crash
        { s with
          send := .idle
          status := .idle
          fanout := .idle
          sendMessages := fun call => (s.sendMessages call).crashed
          inbounds := fun call => (s.inbounds call).crashed }

/-- **Every step of the relay is one of its transitions, with fresh ids.** -/
theorem trans_of_step {lib : Lib} {cfg : Settings} {s t : Sys} {a : Action}
    (h : Step lib cfg s a t) : Fresh s a ∧ Trans lib cfg s a t := by
  simp only [Step, Transition.StepOf, step, Option.ite_none_right_eq_some,
    Option.map_eq_some_iff] at h
  obtain ⟨hfresh, u, hact, rfl⟩ := h
  refine ⟨hfresh, ?_⟩
  cases a <;> simp only [act, Option.map_eq_some_iff, Option.some.injEq] at hact
  case send a =>
    obtain ⟨⟨db, pc⟩, hstep, rfl⟩ := hact
    exact .send (SendLoop.trans_of_step hstep)
  case status a =>
    obtain ⟨⟨db, pc⟩, hstep, rfl⟩ := hact
    exact .status (StatusLoop.trans_of_step hstep)
  case fanout a =>
    obtain ⟨⟨db, pc⟩, hstep, rfl⟩ := hact
    exact .fanout (FanoutLoop.trans_of_step hstep)
  case prune now =>
    subst hact
    exact .prune
  case sendMessage call a =>
    obtain ⟨⟨db, pc⟩, hstep, rfl⟩ := hact
    exact .sendMessage (SendMessage.trans_of_step hstep)
  case inbound call a =>
    obtain ⟨⟨db, pc⟩, hstep, rfl⟩ := hact
    exact .inbound (Inbound.trans_of_step hstep)
  case configure env =>
    subst hact
    exact .configure
  case crash =>
    subst hact
    exact .crash

/-! ### What a step does to one call -/

/-- What a step of the relay does to a call of `send_message`. -/
inductive SendMessage.CallStep (lib : Lib) (cfg : Settings) (s : Sys) (call : Nat) :
    Action → Sys → Prop
  /-- Another party has moved. -/
  | other {a : Action} {t : Sys} : (∀ b, a ≠ .sendMessage call b) →
      t.sendMessages call = s.sendMessages call → CallStep lib cfg s call a t
  /-- The call has moved. -/
  | own {b : Act} {t : Sys} :
      SendMessage.Trans lib cfg s.env s.db (s.sendMessages call) b t.db (t.sendMessages call) →
      CallStep lib cfg s call (.sendMessage call b) t
  /-- The process has died. -/
  | crash {t : Sys} : t.sendMessages call = (s.sendMessages call).crashed →
      CallStep lib cfg s call .crash t

/-- What a step of the relay does to a call of `android_gateway_inbound`. -/
inductive Inbound.CallStep (lib : Lib) (cfg : Settings) (s : Sys) (call : Nat) :
    Action → Sys → Prop
  /-- Another party has moved. -/
  | other {a : Action} {t : Sys} : (∀ b, a ≠ .inbound call b) →
      t.inbounds call = s.inbounds call → CallStep lib cfg s call a t
  /-- The call has moved. -/
  | own {b : Act} {t : Sys} :
      Inbound.Trans lib cfg s.env s.db (s.inbounds call) b t.db (t.inbounds call) →
      CallStep lib cfg s call (.inbound call b) t
  /-- The process has died. -/
  | crash {t : Sys} : t.inbounds call = (s.inbounds call).crashed →
      CallStep lib cfg s call .crash t

section
variable {lib : Lib} {cfg : Settings} {s t : Sys} {a : Action}

/-- **What a step does to a call of `send_message`.** -/
theorem Trans.sendMessage_step (h : Trans lib cfg s a t) (call : Nat) :
    SendMessage.CallStep lib cfg s call a t := by
  cases h with
  | @sendMessage call' b db pc h =>
    by_cases hc : call = call'
    · subst hc
      exact .own (by simpa using h)
    · exact .other (fun _ heq => hc (Action.sendMessage.inj heq).1.symm)
        (Function.update_of_ne hc _ _)
  | crash => exact .crash rfl
  | send | status | fanout | prune | inbound | configure =>
    exact .other (fun _ heq => by cases heq) rfl

/-- **What a step does to a call of `android_gateway_inbound`.** -/
theorem Trans.inbound_step (h : Trans lib cfg s a t) (call : Nat) :
    Inbound.CallStep lib cfg s call a t := by
  cases h with
  | @inbound call' b db pc h =>
    by_cases hc : call = call'
    · subst hc
      exact .own (by simpa using h)
    · exact .other (fun _ heq => hc (Action.inbound.inj heq).1.symm)
        (Function.update_of_ne hc _ _)
  | crash => exact .crash rfl
  | send | status | fanout | prune | sendMessage | configure =>
    exact .other (fun _ heq => by cases heq) rfl

end

/-- A crash leaves only the calls that were answered. -/
theorem SendMessage.Pc.done_of_crashed {pc : Pc} {service : String} {request : SendRequest}
    {answer : Answer} (h : pc.crashed = .done service request answer) :
    pc = .done service request answer := by
  cases pc with
  | done => exact h
  | _ => cases h

@[simp] theorem SendMessage.Pc.crashed_rows (pc : Pc) : pc.crashed.rows = [] := by
  cases pc <;> rfl

@[simp] theorem Inbound.Pc.crashed_rows (pc : Pc) : pc.crashed.rows = [] := by
  cases pc <;> rfl

@[simp] theorem Inbound.Pc.crashed_receiptObj (pc : Pc) : pc.crashed.receiptObj = none := by
  cases pc <;> rfl

end SmsRelay
