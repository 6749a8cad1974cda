import SmsRelay.Spec.Fanout

/-!
# One batch of the fan-out loop

A batch with the database to itself, from its selection to the end of its transaction.
What it commits is compared with what each of its deliveries would get in a batch of its
own.

## Key results

- `leaves_cases`: a batch commits the attempt of every delivery, or nothing at all
- `isolated_iff`: the deliveries are independent of one another exactly when none of them
  spoils the batch or all of them do
-/

namespace SmsRelay

open UnitOfWork Transition Webhooks

/-- What awaiting `client.post` comes to for each delivery, and when. -/
abbrev Answers : Type := String → HttpReply × Time

/-- `deliver` can write down what its `POST` came to: it acknowledged the delivery, or what
    is kept of the text can be read and bound. -/
def Storable : HttpReply → Prop
  | .ok response => response.statusCode < 300 ∨
      ∃ text ∈ response.text, (text.sliceTo 200).encode.isSome
  | .error (.httpError text) => (text.sliceTo 500).encode.isSome
  | .error _ => False

instance (reply : HttpReply) : Decidable (Storable reply) := by
  unfold Storable
  split <;> infer_instance

/-- The delivery keeps its batch from being committed: an exception escapes `deliver`, or
    leaves it an error that cannot be bound.  Before the `POST` that is
    `settings.subscribers`, or the secret of a configured subscriber; after it, the
    subscriber's answer. -/
def Spoils (env : Env) (answers : Answers) (d : WebhookDelivery) : Prop :=
  match env.subscribers with
  | .error _ => True
  | .ok subscribers => ∃ sub ∈ subscriberFor subscribers d,
      sub.secret.encode = none ∨ ¬ Storable (answers d.id).1

/-- What `deliver` leaves of an object, if it can be committed. -/
def Concluded.committed (c : Concluded) : Except PyError WebhookDelivery :=
  if c.bindable then .ok c.delivery else .error .unicodeEncodeError

/-- One attempt at a delivery, as its own row sees it. -/
def attempt (env : Env) (answers : Answers) (d : WebhookDelivery) :
    Except PyError WebhookDelivery :=
  match env.subscribers with
  | .error e => .error e
  | .ok subscribers =>
    match subscriberFor subscribers d with
    | none => .ok d.unsubscribed
    | some sub =>
      if sub.secret.encode = none then .error .unicodeEncodeError
      else (conclude d.attempted (answers d.id).1 (answers d.id).2).bind Concluded.committed

/-- What `deliver` can write down is what it comes to the end with, and binds. -/
theorem conclude_storable_iff (d : WebhookDelivery) {reply : HttpReply} (now : Time) :
    Storable reply ↔ ∃ c, conclude d reply now = .ok c ∧ c.bindable = true := by
  unfold Storable conclude
  cases reply with
  | error e =>
    cases e with
    | httpError text => simp [unacknowledged]
    | timeout | valueError | other => simp
  | ok response =>
    by_cases hlt : response.statusCode < 300
    · simp [hlt]
    · simp only [hlt, false_or, if_false]
      cases response.text with
      | none => simp
      | some text => simp [unacknowledged]

/-- An answer that can be written down concludes the attempt; any other spoils it. -/
theorem committed_conclude_iff {d : WebhookDelivery} {reply : HttpReply} {now : Time} :
    (∃ e, (conclude d reply now).bind Concluded.committed = .error e) ↔ ¬ Storable reply := by
  rw [conclude_storable_iff d now]
  cases conclude d reply now with
  | error e => simp [Except.bind]
  | ok c =>
    unfold Concluded.committed
    cases hbind : c.bindable <;> simp [Except.bind, hbind]

theorem spoils_iff {env : Env} {answers : Answers} {d : WebhookDelivery} :
    Spoils env answers d ↔ ∃ e, attempt env answers d = .error e := by
  unfold Spoils attempt
  cases env.subscribers with
  | error e => simp
  | ok subscribers =>
    dsimp only
    cases subscriberFor subscribers d with
    | none => simp
    | some sub =>
      by_cases hsecret : sub.secret.encode = none
      · simp [hsecret]
      · simp [hsecret, committed_conclude_iff]

/-- What raises before the `POST` spoils the batch. -/
theorem spoils_of_raisesEarly {env : Env} {answers : Answers} {d : WebhookDelivery}
    (h : RaisesEarly env d) : Spoils env answers d := by
  unfold RaisesEarly at h
  unfold Spoils
  cases hsubs : env.subscribers with
  | error e => trivial
  | ok subscribers =>
    rw [hsubs] at h
    obtain ⟨sub, hsub, hsecret⟩ := h
    exact ⟨sub, hsub, .inl hsecret⟩

theorem not_spoils_iff {env : Env} {answers : Answers} {d : WebhookDelivery} :
    ¬ Spoils env answers d ↔ ∃ d', attempt env answers d = .ok d' := by
  rw [spoils_iff]
  cases attempt env answers d <;> simp

theorem attempt_outcome {env : Env} {answers : Answers} {d d' : WebhookDelivery}
    (h : attempt env answers d = .ok d') : Outcome d d' := by
  unfold attempt at h
  split at h
  · cases h
  · split at h
    · obtain rfl := Except.ok.inj h
      exact .cancelled _
    · split at h
      · cases h
      · obtain ⟨c, hconclude, hcommitted⟩ := Except.bind_eq_ok.mp h
        unfold Concluded.committed at hcommitted
        split at hcommitted
        · obtain rfl := Except.ok.inj hcommitted
          exact outcome_conclude hconclude
        · cases hcommitted

/-- The row under an id. -/
def Store.delivery? (db : Store) (id : String) : Option WebhookDelivery :=
  db.deliveries.find? fun d => d.id = id

theorem Store.delivery?_eq_some {db : Store} {d : WebhookDelivery} (hd : d ∈ db.deliveries) :
    db.delivery? d.id = some d := by
  cases hfind : db.delivery? d.id with
  | none =>
    have hne : d.id ≠ d.id := by simpa using List.find?_eq_none.mp hfind d hd
    exact absurd rfl hne
  | some d' =>
    have hid : d'.id = d.id := by simpa using List.find?_some hfind
    rw [Store.eq_of_deliveryId (List.mem_of_find?_eq_some hfind) hd hid]

/-- The columns the program writes itself, all but the `updated_at` stamp. -/
def WebhookDelivery.unstamped (d : WebhookDelivery) : WebhookDelivery := { d with updatedAt := 0 }

namespace FanoutLoop

/-! ## The batch as a run -/

/-- What may happen within one batch that has the database to itself: the only operation
    that fails is the commit of something that cannot be bound. -/
def WithinBatch (answers : Answers) : Pc → Act → Prop
  | _, .select _ _ => False
  | .next ses [], .dbError => ses.bindable = false
  | _, .dbError => False
  | _, .posted id reply now => answers id = (reply, now)
  | _, _ => True

/-- The steps of the loop within one batch. -/
abbrev BatchStep (lib : Lib) (env : Env) (answers : Answers) :
    Store × Pc → Act → Store × Pc → Prop :=
  Guarded (fun s a => WithinBatch answers s.2 a) (StepOf fun s a => step lib env s.1 s.2 a)

/-- The batch, selected on `db`, leaves `db'` behind. -/
def Leaves (lib : Lib) (env : Env) (answers : Answers) (db : Store)
    (batch : List WebhookDelivery) (db' : Store) : Prop :=
  ∃ tr, Transition.Run (BatchStep lib env answers) (db, .next .fresh batch) tr (db', .idle)

/-- Each delivery of the batch gets the row that it would get in a batch of its own. -/
def Isolated (lib : Lib) (env : Env) (answers : Answers) (db : Store)
    (batch : List WebhookDelivery) : Prop :=
  ∀ db', Leaves lib env answers db batch db' → ∀ d ∈ batch,
    ∀ alone, Leaves lib env answers db [d] alone →
      (db'.delivery? d.id).map WebhookDelivery.unstamped =
        (alone.delivery? d.id).map WebhookDelivery.unstamped

/-- The object holds the attempt at its row, up to the stamp. -/
def Attempted (env : Env) (answers : Answers) (o : Tracked WebhookDelivery) : Prop :=
  ∃ d', attempt env answers o.loaded = .ok d' ∧
    o.current = { d' with updatedAt := o.current.updatedAt }

/-- A session in the middle of a batch on `db`. -/
structure Amid (env : Env) (answers : Answers) (db : Store) (ses : Session)
    (todo : List WebhookDelivery) : Prop where
  rows : ∀ d ∈ ses.objs.map Tracked.loaded ++ todo, d ∈ db.deliveries ∧ d.status = .pending
  nodup : ((ses.objs.map Tracked.loaded ++ todo).map WebhookDelivery.id).Nodup
  attempted : ∀ o ∈ ses.objs, Attempted env answers o
  bindable : ses.bindable = true

section
variable {lib : Lib} {env : Env} {answers : Answers} {db db' : Store} {ses ses' : Session}
  {d d' : WebhookDelivery} {todo batch : List WebhookDelivery} {tr : List Act}

theorem Attempted.handled {o : Tracked WebhookDelivery} (h : Attempted env answers o) :
    Handled o := by
  obtain ⟨d', hd', heq⟩ := h
  have hout := attempt_outcome hd'
  show Outcome o.loaded { o.current with updatedAt := o.loaded.updatedAt }
  rw [heq]
  cases hout with
  | cancelled error => exact .cancelled error
  | delivered code => exact .delivered code
  | failed code error hmax => exact .failed code error hmax
  | retry code error now hlt => exact .retry code error now hlt

/-- The start of a batch. -/
theorem IsBatch.amid {now : Time} (h : IsBatch db now batch) :
    Amid env answers db .fresh batch where
  rows d hd := by
    obtain ⟨hrow, hdue⟩ := List.mem_filter.mp (h.mem_due d (by simpa [Session.fresh] using hd))
    simp only [isDue, Bool.and_eq_true, decide_eq_true_eq] at hdue
    exact ⟨hrow, hdue.1⟩
  nodup := by
    have hnd : (batch.map WebhookDelivery.id).Nodup :=
      List.Nodup.map_on (fun d hd d' hd' hid => Store.eq_of_deliveryId
        (List.mem_of_mem_filter (h.mem_due d hd))
        (List.mem_of_mem_filter (h.mem_due d' hd')) hid) h.nodup
    simpa [Session.fresh] using hnd
  attempted _ ho := absurd ho List.not_mem_nil
  bindable := rfl

/-- One delivery of a batch is a batch. -/
theorem Amid.alone (h : Amid env answers db .fresh batch) (hd : d ∈ batch) :
    Amid env answers db .fresh [d] where
  rows d' hd' := h.rows d' (by
    obtain rfl : d' = d := by simpa [Session.fresh] using hd'
    simpa [Session.fresh] using hd)
  nodup := by simp [Session.fresh]
  attempted _ ho := absurd ho List.not_mem_nil
  bindable := rfl

/-- The objects still have their rows. -/
theorem Amid.matched (h : Amid env answers db ses todo) : Matched ses.objs db.deliveries :=
  fun o ho _ => ⟨o.loaded, (h.rows o.loaded
    (List.mem_append_left _ (List.mem_map_of_mem ho))).1, rfl⟩

/-- A lookup changes nothing that sqlite3 is to bind. -/
theorem getMessage_bindable {collected : List String} {now : Time} {id : String}
    {message : Option Message}
    (hget : getMessage db ses collected now id = some (ses', message)) :
    ses'.bindable = ses.bindable := by
  rcases getMessage_eq_some hget with ⟨-, -, -, -, rfl⟩ | ⟨-, -, -, -, rfl⟩
  · rfl
  · rfl

/-- An object that can be bound changes nothing about the session otherwise. -/
theorem conclude_of_bindable {c : Concluded} (h : c.bindable = true) :
    ses.conclude d c = ses.push ⟨d, c.delivery⟩ := by
  simp [Session.conclude, Session.push, h]

/-- Looking up a message keeps the session in the middle of its batch. -/
theorem Amid.get {collected : List String} {now : Time} {id : String} {message : Option Message}
    (h : Amid env answers db ses todo)
    (hget : getMessage db ses collected now id = some (ses', message)) :
    Amid env answers db ses' todo := by
  obtain ⟨hloaded, hobjs⟩ := getMessage_objs hget
  refine ⟨by rw [hloaded]; exact h.rows, by rw [hloaded]; exact h.nodup, fun o ho => ?_,
    (getMessage_bindable hget).trans h.bindable⟩
  obtain ⟨o', ho', heq, hcur⟩ := hobjs o ho
  obtain ⟨d', hd', hcur'⟩ := h.attempted o' ho'
  refine ⟨d', heq ▸ hd', ?_⟩
  rw [hcur, hcur']

/-- The next delivery is attempted. -/
theorem Amid.push (h : Amid env answers db ses (d :: todo)) (hd : attempt env answers d = .ok d') :
    Amid env answers db (ses.push ⟨d, d'⟩) todo := by
  have hsame : (ses.push ⟨d, d'⟩).objs.map Tracked.loaded ++ todo =
      ses.objs.map Tracked.loaded ++ d :: todo := by
    simp [Session.push]
  refine ⟨by rw [hsame]; exact h.rows, by rw [hsame]; exact h.nodup, fun o ho => ?_, h.bindable⟩
  rcases List.mem_append.mp ho with ho | ho
  · exact h.attempted o ho
  · obtain rfl := List.mem_singleton.mp ho
    exact ⟨d', hd, rfl⟩

/-- The message of a delivery is always found. -/
theorem Amid.exists_get (h : Amid env answers db ses (d :: todo)) (collected : List String)
    (now : Time) :
    ∃ ses' m, getMessage db ses collected now d.messageId = some (ses', some m) := by
  obtain ⟨m, hm, hid⟩ := List.mem_map.mp (db.integrity.fkMessage d (h.rows d (by simp)).1)
  unfold getMessage
  split
  · exact ⟨_, _, rfl⟩
  · rw [if_pos ⟨h.bindable, h.matched⟩, Store.message?_eq_some.mpr ⟨hm, hid⟩]
    exact ⟨_, m, rfl⟩

/-- Where `deliver` gets to with the message, against the attempt as a whole. -/
theorem handle_attempt (lib : Lib) (env : Env) (answers : Answers) (ses : Session)
    (d : WebhookDelivery) (todo : List WebhookDelivery) (m : Message) :
    (handle lib env ses d (some m) todo = .idle ∧ Spoils env answers d) ∨
      (∃ d', attempt env answers d = .ok d' ∧
        handle lib env ses d (some m) todo = .next (ses.push ⟨d, d'⟩) todo) ∨
      ∃ request, handle lib env ses d (some m) todo = .ready ses ⟨d, d.attempted⟩ request todo ∧
        attempt env answers d =
          (conclude d.attempted (answers d.id).1 (answers d.id).2).bind Concluded.committed := by
  simp only [handle]
  -- it raises, the subscriber was removed, or there is one to `POST` to
  rcases prepare_cases lib env d m with
    ⟨hraises, e, hprep⟩ | ⟨subs, hsubs, ⟨hfind, hprep⟩ | ⟨sub, r, hsub, hsecret, -, hprep⟩⟩
  · exact .inl ⟨by rw [hprep], spoils_of_raisesEarly hraises⟩
  · exact .inr (.inl ⟨d.unsubscribed, by simp only [attempt, hsubs, hfind], by rw [hprep]⟩)
  · exact .inr (.inr ⟨r, by rw [hprep], by simp only [attempt, hsubs, hsub, if_neg hsecret]⟩)

/-- The end of `deliver`, against the attempt as a whole: the batch is over, goes on with
    the row of the attempt, or goes on with something that cannot be committed. -/
theorem afterPost_attempt (ses : Session) (todo : List WebhookDelivery)
    (h : attempt env answers d =
      (conclude d.attempted (answers d.id).1 (answers d.id).2).bind Concluded.committed) :
    (afterPost ses ⟨d, d.attempted⟩ (answers d.id).1 (answers d.id).2 todo = .idle ∧
        Spoils env answers d) ∨
      (∃ ses', ses'.bindable = false ∧ Spoils env answers d ∧
        afterPost ses ⟨d, d.attempted⟩ (answers d.id).1 (answers d.id).2 todo = .next ses' todo) ∨
      ∃ d', attempt env answers d = .ok d' ∧
        afterPost ses ⟨d, d.attempted⟩ (answers d.id).1 (answers d.id).2 todo =
          .next (ses.push ⟨d, d'⟩) todo := by
  rw [spoils_iff, h]
  unfold afterPost
  cases conclude d.attempted (answers d.id).1 (answers d.id).2 with
  | error e => exact .inl ⟨rfl, e, rfl⟩
  | ok c =>
    dsimp only [Except.bind]
    unfold Concluded.committed
    cases hbind : c.bindable with
    | false => exact .inr (.inl ⟨_, by simp [Session.conclude, hbind], ⟨_, rfl⟩, rfl⟩)
    | true => exact .inr (.inr ⟨c.delivery, rfl, by rw [conclude_of_bindable hbind]⟩)

/-! ### What a run through a batch leaves -/

/-- The first step of a run through the rest of a batch. -/
theorem run_first {pc : Pc}
    (hrun : Transition.Run (BatchStep lib env answers) (db, pc) tr (db', .idle))
    (hpc : pc ≠ .idle) :
    ∃ a db₁ pc₁ tr', WithinBatch answers pc a ∧ Trans lib env db pc a db₁ pc₁ ∧
      Transition.Run (BatchStep lib env answers) (db₁, pc₁) tr' (db', .idle) := by
  cases tr with
  | nil => exact absurd (Prod.mk.inj hrun.nil_inv).2 hpc
  | cons a tr =>
    obtain ⟨⟨db₁, pc₁⟩, ⟨hwithin, hstep⟩, hrest⟩ := hrun.cons_inv
    exact ⟨a, db₁, pc₁, tr, hwithin, trans_of_step hstep, hrest⟩

/-- A delivery in hand is posted and gets its answer. -/
theorem ready_run {o : Tracked WebhookDelivery} {request : Request}
    (hrun : Transition.Run (BatchStep lib env answers) (db, .ready ses o request todo) tr
      (db', .idle)) :
    ∃ tr', Transition.Run (BatchStep lib env answers)
      (db, afterPost ses o (answers o.loaded.id).1 (answers o.loaded.id).2 todo) tr'
      (db', .idle) := by
  -- the only step from here is the `POST`
  obtain ⟨a, db₁, pc₁, tr₁, -, hpost, hrest⟩ := run_first hrun nofun
  cases hpost with
  | dbError hpc => simp at hpc
  | post =>
    obtain ⟨a, db₂, pc₂, tr₂, hwithin, hposted, hrest⟩ := run_first hrest nofun
    cases hposted with
    | dbError hpc => simp at hpc
    | @posted _ _ _ _ reply now =>
      -- the batch is run against the given answers
      have hanswer : answers o.loaded.id = (reply, now) := hwithin
      exact ⟨tr₂, by rwa [hanswer]⟩

/-- The session has something to write that cannot be bound, or the batch is over. -/
def Pc.Spoiled : Pc → Prop
  | .idle => True
  | .next ses _ => ses.bindable = false
  | .ready ses _ _ _ => ses.bindable = false
  | .posting ses _ _ _ => ses.bindable = false

theorem handle_spoiled (h : ses.bindable = false) (message : Option Message) :
    (handle lib env ses d message todo).Spoiled := by
  rcases handle_cases lib env ses d message todo with
    ⟨hidle, -⟩ | ⟨d', -, -, hnext⟩ | ⟨m, request, -, hready⟩
  · rw [hidle]
    trivial
  · rw [hnext]
    exact h
  · rw [hready]
    exact h

theorem afterPost_spoiled (h : ses.bindable = false) (o : Tracked WebhookDelivery)
    (reply : HttpReply) (now : Time) : (afterPost ses o reply now todo).Spoiled := by
  unfold afterPost
  split
  · trivial
  · show (ses.bindable && _) = false
    rw [h]
    rfl

/-- Between two batches nothing is to be written. -/
theorem idle_spoiled : Pc.idle.Spoiled := trivial

/-- **Nothing of a spoiled batch is written.** -/
theorem spoiled_run {pc : Pc} (h : pc.Spoiled)
    (hrun : Transition.Run (BatchStep lib env answers) (db, pc) tr (db', .idle)) : db' = db := by
  refine (hrun.invariant (I := fun s => s.1 = db ∧ s.2.Spoiled) ?_ ⟨rfl, h⟩).1
  rintro ⟨db₁, pc₁⟩ a ⟨db₂, pc₂⟩ ⟨rfl, hspoiled⟩ ⟨hwithin, hstep⟩
  cases trans_of_step hstep with
  | selectNone | select => exact hwithin.elim
  | stale | dbError => exact ⟨rfl, trivial⟩
  | get hget => exact ⟨rfl, handle_spoiled ((getMessage_bindable hget).trans hspoiled) _⟩
  | post => exact ⟨rfl, hspoiled⟩
  | posted => exact ⟨rfl, afterPost_spoiled hspoiled _ _ _⟩
  | commit hbind =>
    have hfalse : _ = false := hspoiled
    rw [hbind] at hfalse
    cases hfalse

/-- How a batch ends from here: with the database as it was, because a delivery spoils it,
    or with the commit of one attempt at each delivery. -/
def BatchEnd (env : Env) (answers : Answers) (db : Store) (ses : Session)
    (todo : List WebhookDelivery) (db' : Store) : Prop :=
  (db' = db ∧ ∃ d ∈ todo, Spoils env answers d) ∨
    ((∀ d ∈ todo, ¬ Spoils env answers d) ∧ ∃ ses' now, Amid env answers db ses' [] ∧
      ses'.objs.map Tracked.loaded = ses.objs.map Tracked.loaded ++ todo ∧
      db.updateDeliveries now ses'.objs = some db')

/-- The batch has ended early, or goes on for nothing. -/
theorem BatchEnd.spoiled {pc : Pc} (hspoils : Spoils env answers d) (h : pc.Spoiled)
    (hrun : Transition.Run (BatchStep lib env answers) (db, pc) tr (db', .idle)) :
    BatchEnd env answers db ses (d :: todo) db' :=
  .inl ⟨spoiled_run h hrun, d, List.mem_cons_self, hspoils⟩

/-- The rest of the batch decides how it ends once a delivery is attempted. -/
theorem BatchEnd.cons (hloaded : ses'.objs.map Tracked.loaded = ses.objs.map Tracked.loaded)
    (hatt : attempt env answers d = .ok d')
    (h : BatchEnd env answers db (ses'.push ⟨d, d'⟩) todo db') :
    BatchEnd env answers db ses (d :: todo) db' := by
  rcases h with ⟨heq, d₁, hd₁, hspoils⟩ | ⟨hnot, ses₁, now, hamid, hall, hcommit⟩
  · exact .inl ⟨heq, d₁, List.mem_cons_of_mem _ hd₁, hspoils⟩
  · refine .inr ⟨List.forall_mem_cons.mpr ⟨not_spoils_iff.mpr ⟨d', hatt⟩, hnot⟩, ses₁, now,
      hamid, ?_, hcommit⟩
    rw [hall, ← hloaded]
    simp [Session.push]

/-- **A batch commits all attempts or nothing.** -/
theorem Amid.batchEnd (h : Amid env answers db ses todo)
    (hrun : Transition.Run (BatchStep lib env answers) (db, .next ses todo) tr (db', .idle)) :
    BatchEnd env answers db ses todo db' := by
  -- along the deliveries that are left
  induction todo generalizing ses tr with
  | nil =>
    obtain ⟨a, db₁, pc₁, tr', hwithin, hstep, hrest⟩ := run_first hrun nofun
    cases hstep with
    | dbError =>
      have hfalse : ses.bindable = false := hwithin
      rw [h.bindable] at hfalse
      cases hfalse
    | commit _ hcommit =>
      obtain rfl := spoiled_run idle_spoiled hrest
      exact .inr ⟨fun _ hd => absurd hd List.not_mem_nil, ses, _, h, by simp, hcommit⟩
  | cons d todo ih =>
    obtain ⟨a, db₁, pc₁, tr', hwithin, hstep, hrest⟩ := run_first hrun nofun
    cases hstep with
    | dbError => exact hwithin.elim
    | @stale _ _ _ collected now hget =>
      obtain ⟨ses', m, hsome⟩ := h.exists_get collected now
      rw [hget] at hsome
      cases hsome
    | @get _ ses' _ _ collected now message hget =>
      obtain ⟨ses₁, m, hsome⟩ := h.exists_get collected now
      obtain ⟨rfl, rfl⟩ := Prod.mk.inj (Option.some.inj (hget.symm.trans hsome))
      have hnext : ∀ {d' tr}, attempt env answers d = .ok d' →
          Transition.Run (BatchStep lib env answers) (db, .next (ses'.push ⟨d, d'⟩) todo) tr
            (db', .idle) → BatchEnd env answers db ses (d :: todo) db' := fun hatt hrest =>
        .cons (getMessage_objs hget).1 hatt (ih ((h.get hget).push hatt) hrest)
      rcases handle_attempt lib env answers ses' d todo m with
        ⟨heq, hspoils⟩ | ⟨d', hatt, heq⟩ | ⟨request, heq, hatt⟩
      · rw [heq] at hrest
        exact .spoiled hspoils idle_spoiled hrest
      · rw [heq] at hrest
        exact hnext hatt hrest
      · rw [heq] at hrest
        obtain ⟨tr', hrest⟩ := ready_run hrest
        rcases afterPost_attempt ses' todo hatt with
          ⟨heq, hspoils⟩ | ⟨ses₂, hfalse, hspoils, heq⟩ | ⟨d', hatt, heq⟩
        · rw [heq] at hrest
          exact .spoiled hspoils idle_spoiled hrest
        · rw [heq] at hrest
          have hspoiled : (Pc.next ses₂ todo).Spoiled := hfalse
          exact .spoiled hspoils hspoiled hrest
        · rw [heq] at hrest
          exact hnext hatt hrest

/-- What the commit makes of the row of a handled object. -/
theorem delivery?_commit {now : Time} (h : Amid env answers db ses [])
    (hcommit : db.updateDeliveries now ses.objs = some db') {o : Tracked WebhookDelivery}
    (ho : o ∈ ses.objs) : (db'.delivery? o.loaded.id).map WebhookDelivery.unstamped =
      some o.current.unstamped := by
  obtain ⟨-, hds, -⟩ := Store.updateDeliveries_eq_some.mp hcommit
  have hnd := h.nodup
  rw [List.append_nil, List.map_map] at hnd
  obtain ⟨hrow, hs⟩ := h.rows o.loaded (List.mem_append_left _ (List.mem_map_of_mem ho))
  -- the objects belong to different rows, so the flush writes each one once
  have hflush := flushRow_handled now (fun o ho => (h.attempted o ho).handled) hnd ho hs
  have hid : (flushRow now ses.objs o.loaded).id = o.loaded.id := by
    rw [hflush]
    exact WebhookDelivery.id_eq_of_content (h.attempted o ho).handled.content
  have hmem : flushRow now ses.objs o.loaded ∈ db'.deliveries := by
    rw [hds]
    exact List.mem_map_of_mem hrow
  rw [← hid, Store.delivery?_eq_some hmem, hflush]
  rfl

/-- **What a batch leaves**: the rows as they were, or the attempt at every delivery. -/
theorem leaves_cases (h : Amid env answers db .fresh batch)
    (hleaves : Leaves lib env answers db batch db') :
    (db' = db ∧ ∃ d ∈ batch, Spoils env answers d) ∨
      ((∀ d ∈ batch, ¬ Spoils env answers d) ∧ ∀ d ∈ batch, ∃ d',
        attempt env answers d = .ok d' ∧
        (db'.delivery? d.id).map WebhookDelivery.unstamped = some d'.unstamped) := by
  obtain ⟨tr, hrun⟩ := hleaves
  refine (h.batchEnd hrun).imp_right fun ⟨hnot, ses, now, hamid, hloaded, hcommit⟩ =>
    ⟨hnot, fun d hd => ?_⟩
  have hmem : d ∈ ses.objs.map Tracked.loaded := by
    rw [hloaded]
    exact List.mem_append_right _ hd
  -- nothing spoils it: each delivery of the batch is in the session at the commit
  obtain ⟨o, ho, rfl⟩ := List.mem_map.mp hmem
  obtain ⟨d', hatt, hcur⟩ := hamid.attempted o ho
  refine ⟨d', hatt, ?_⟩
  rw [delivery?_commit hamid hcommit ho, hcur]
  rfl

/-! ### Every batch ends -/

/-- The commit at the end of a batch succeeds. -/
theorem Amid.exists_commit (h : Amid env answers db ses []) (now : Time) :
    ∃ db', db.updateDeliveries now ses.objs = some db' := by
  have hcontent := content_flushRow now fun o ho => (h.attempted o ho).handled
  -- the constraints speak about columns that no attempt writes
  have hmap : ∀ {β : Type} (f : WebhookDelivery → β),
      (∀ d d', d'.content = d.content → f d' = f d) →
      (db.deliveries.map (flushRow now ses.objs)).map f = db.deliveries.map f := fun f hf => by
    rw [List.map_map]
    exact List.map_congr_left fun d _ => hf d _ (hcontent d)
  have hintegrity : Integrity db.messages (db.deliveries.map (flushRow now ses.objs)) := by
    refine ⟨db.integrity.pkMessages, db.integrity.uqServiceIdem, ?_, ?_, fun d hd => ?_⟩
    · rw [hmap _ fun d d' heq => WebhookDelivery.id_eq_of_content heq]
      exact db.integrity.pkDeliveries
    · rw [hmap _ fun d d' heq => by
        simp only [WebhookDelivery.content, Prod.mk.injEq] at heq
        rw [heq.2.1, heq.2.2.1]]
      exact db.integrity.uqMessageSubscriber
    · obtain ⟨r, hr, rfl⟩ := List.mem_map.mp hd
      have hmessage : (flushRow now ses.objs r).messageId = r.messageId :=
        congrArg (fun c => c.2.1) (hcontent r)
      rw [hmessage]
      exact db.integrity.fkMessage r hr
  exact ⟨⟨db.messages, _, hintegrity⟩,
    Store.updateDeliveries_eq_some.mpr ⟨h.matched, rfl, rfl⟩⟩

/-- A label within the batch that can be taken now is the first step of a run. -/
theorem run_cons {a : Act} {pc pc₁ : Pc} {db₁ : Store}
    (hstep : step lib env db pc a = some (db₁, pc₁)) (hwithin : WithinBatch answers pc a)
    (hrest : ∃ tr db', Transition.Run (BatchStep lib env answers) (db₁, pc₁) tr (db', .idle)) :
    ∃ tr db', Transition.Run (BatchStep lib env answers) (db, pc) tr (db', .idle) := by
  obtain ⟨tr, db', hrest⟩ := hrest
  exact ⟨[a] ++ tr, db', (Run.single ⟨hwithin, hstep⟩).append hrest⟩

/-- From the start of a `POST` a run goes on after its answer. -/
theorem run_ready {request : Request} (hrest : ∃ tr db', Transition.Run
      (BatchStep lib env answers)
      (db, afterPost ses ⟨d, d.attempted⟩ (answers d.id).1 (answers d.id).2 todo) tr (db', .idle)) :
    ∃ tr db', Transition.Run (BatchStep lib env answers)
      (db, .ready ses ⟨d, d.attempted⟩ request todo) tr (db', .idle) := by
  have hpost : step lib env db (.ready ses ⟨d, d.attempted⟩ request todo) (.post d.id) =
      some (db, .posting ses ⟨d, d.attempted⟩ request todo) := by
    simp [step]
  have hposted : step lib env db (.posting ses ⟨d, d.attempted⟩ request todo)
      (.posted d.id (answers d.id).1 (answers d.id).2) =
      some (db, afterPost ses ⟨d, d.attempted⟩ (answers d.id).1 (answers d.id).2 todo) := by
    simp [step]
  exact run_cons hpost trivial (run_cons hposted rfl hrest)

/-- A spoiled batch comes to its end too: a flush raises, or the commit does. -/
theorem exists_run_spoiled (lib : Lib) (env : Env) (answers : Answers) (db : Store)
    (todo : List WebhookDelivery) (h : ses.bindable = false) :
    ∃ tr db', Transition.Run (BatchStep lib env answers) (db, .next ses todo) tr
      (db', .idle) := by
  have hidle : ∃ tr db', Transition.Run (BatchStep lib env answers) (db, .idle) tr (db', .idle) :=
    ⟨[], db, .nil⟩
  induction todo generalizing ses with
  | nil =>
    have hstep : step lib env db (.next ses []) .dbError = some (db, .idle) := rfl
    exact run_cons hstep h hidle
  | cons d todo ih =>
    cases hget : getMessage db ses [] 0 d.messageId with
    | none =>
      have hstep : step lib env db (.next ses (d :: todo)) (.get [] 0) = some (db, .idle) := by
        simp [step, hget]
      exact run_cons hstep trivial hidle
    | some p =>
      obtain ⟨ses', message⟩ := p
      have hstep : step lib env db (.next ses (d :: todo)) (.get [] 0) =
          some (db, handle lib env ses' d message todo) := by
        simp [step, hget]
      refine run_cons hstep trivial ?_
      have hfalse := (getMessage_bindable hget).trans h
      rcases handle_cases lib env ses' d message todo with
        ⟨heq, -⟩ | ⟨d', -, -, heq⟩ | ⟨m, request, -, heq⟩
      · rw [heq]
        exact hidle
      · rw [heq]
        exact ih hfalse
      · rw [heq]
        refine run_ready ?_
        unfold afterPost
        split
        · exact hidle
        · exact ih (by simp [Session.conclude, Session.push, hfalse])

/-- **Every batch comes to its end.** -/
theorem Amid.exists_run (lib : Lib) (h : Amid env answers db ses todo) :
    ∃ tr db', Transition.Run (BatchStep lib env answers) (db, .next ses todo) tr
      (db', .idle) := by
  have hidle : ∃ tr db', Transition.Run (BatchStep lib env answers) (db, .idle) tr (db', .idle) :=
    ⟨[], db, .nil⟩
  induction todo generalizing ses with
  | nil =>
    -- the batch is through
    obtain ⟨db', hcommit⟩ := h.exists_commit 0
    have hstep : step lib env db (.next ses []) (.commit 0) = some (db', .idle) := by
      simp [step, hcommit, h.bindable]
    exact run_cons hstep trivial ⟨[], db', .nil⟩
  | cons d todo ih =>
    obtain ⟨ses', m, hget⟩ := h.exists_get [] 0
    have hstep : step lib env db (.next ses (d :: todo)) (.get [] 0) =
        some (db, handle lib env ses' d (some m) todo) := by
      simp [step, hget]
    refine run_cons hstep trivial ?_
    -- `deliver` raises, needs no `POST`, or makes one
    rcases handle_attempt lib env answers ses' d todo m with
      ⟨heq, -⟩ | ⟨d', hatt, heq⟩ | ⟨request, heq, hatt⟩
    · rw [heq]
      exact hidle
    · rw [heq]
      exact ih ((h.get hget).push hatt)
    · rw [heq]
      refine run_ready ?_
      rcases afterPost_attempt ses' todo hatt with
        ⟨heq, -⟩ | ⟨ses₂, hfalse, -, heq⟩ | ⟨d', hatt, heq⟩
      · rw [heq]
        exact hidle
      · rw [heq]
        exact exists_run_spoiled lib env answers db todo hfalse
      · rw [heq]
        exact ih ((h.get hget).push hatt)

/-- **Isolation within a batch.**  The deliveries of a batch get what each would get alone
    exactly when none of them spoils the batch or all of them do. -/
theorem isolated_iff {now : Time} (hbatch : IsBatch db now batch) :
    Isolated lib env answers db batch ↔
      (∀ d ∈ batch, ¬ Spoils env answers d) ∨ ∀ d ∈ batch, Spoils env answers d := by
  have hamid : Amid env answers db .fresh batch := hbatch.amid
  constructor
  · intro hiso
    by_contra hmixed
    push Not at hmixed
    obtain ⟨⟨e, he, hspoils⟩, d, hd, hnot⟩ := hmixed
    obtain ⟨tr, db', hrun⟩ := hamid.exists_run lib
    obtain ⟨tr₁, alone, hrun₁⟩ := (hamid.alone hd).exists_run lib
    have hsame := hiso db' ⟨tr, hrun⟩ d hd alone ⟨tr₁, hrun₁⟩
    -- the batch is discarded, while on its own the row would change
    rcases leaves_cases hamid ⟨tr, hrun⟩ with ⟨rfl, -⟩ | ⟨hnone, -⟩
    · rcases leaves_cases (hamid.alone hd) ⟨tr₁, hrun₁⟩ with ⟨-, d', hd', hspoils'⟩ | ⟨-, hall⟩
      · rw [List.mem_singleton.mp hd'] at hspoils'
        exact hnot hspoils'
      · obtain ⟨d', hatt, hrow⟩ := hall d (List.mem_singleton.mpr rfl)
        obtain ⟨hold, hs⟩ := hamid.rows d (by simpa [Session.fresh] using hd)
        rw [hrow, Store.delivery?_eq_some hold, Option.map_some, Option.some.injEq] at hsame
        rcases (attempt_outcome hatt).changes with hstatus | hattempts
        · exact hstatus ((congrArg WebhookDelivery.status hsame).symm.trans hs)
        · have := congrArg WebhookDelivery.attempts hsame
          simp only [WebhookDelivery.unstamped] at this
          omega
    · exact hnone e he hspoils
  · rintro hcond db' hleaves d hd alone hleaves₁
    rcases leaves_cases hamid hleaves with ⟨rfl, e, he, hspoils⟩ | ⟨hnone, hall⟩ <;>
      rcases leaves_cases (hamid.alone hd) hleaves₁ with ⟨rfl, d₁, hd₁, hspoils₁⟩ | ⟨hnone₁, hall₁⟩
    · rfl
    · -- something spoils the batch, so everything does, the delivery itself included
      have hspoils₁ : Spoils env answers d :=
        hcond.elim (fun h => absurd hspoils (h e he)) fun h => h d hd
      exact absurd hspoils₁ (hnone₁ d (List.mem_singleton.mpr rfl))
    · rw [List.mem_singleton.mp hd₁] at hspoils₁
      exact absurd hspoils₁ (hnone d hd)
    · obtain ⟨d', hatt, hrow⟩ := hall d hd
      obtain ⟨d₁, hatt₁, hrow₁⟩ := hall₁ d (List.mem_singleton.mpr rfl)
      obtain rfl := Except.ok.inj (hatt.symm.trans hatt₁)
      rw [hrow, hrow₁]

end

end FanoutLoop

end SmsRelay
