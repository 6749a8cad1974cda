import SmsRelay.Spec.Atomicity
import SmsRelay.Spec.GroupKey
import SmsRelay.Spec.Provenance

/-!
# Which Grafana payloads are admitted

The webhook reads its body in chunks, checks it as a whole and then calls `send_message`
once.  Every exception of the checks is one of the three it answers with a 400, and a
payload that passes them goes through the rest of the handler without another exception.

## Key results

- `grafanaStream_eq`: the chunks do not matter
- `messageOf_error`: the checks raise only what the handler catches
- `isRow_of_run`: the row under a new key is the request's
- `payload_admitted`: what every sequence of bytes is answered with
-/

namespace SmsRelay

open Transition SendMessage

namespace Grafana

variable {lib : Lib} {sha256 : String → String} {loads : List UInt8 → Except PyError Json}
  {env : Env} {chunks : List (List UInt8)} {clock : Nat → Time}

/-! ## The body -/

/-- The body is read to its end unless it is too large. -/
theorem readBody_eq (body : List UInt8) (chunks : List (List UInt8)) (hbody : body.length ≤ 65536) :
    readBody body chunks =
      if 65536 < (body ++ chunks.flatten).length then
        .error (.httpException 413 "payload too large")
      else .ok (body ++ chunks.flatten) := by
  induction chunks generalizing body with
  | nil =>
    rw [List.flatten_nil, List.append_nil, if_neg (by omega)]
    rfl
  | cons chunk chunks ih =>
    rw [readBody, List.flatten_cons, ← List.append_assoc]
    by_cases hmore : 65536 < (body ++ chunk).length
    · -- the chunks to come do not make the body any shorter
      have hwhole : 65536 < (body ++ chunk ++ chunks.flatten).length := by
        rw [List.length_append]
        omega
      rw [if_pos hmore, if_pos hwhole]
    · rw [if_neg hmore]
      exact ih (body ++ chunk) (by omega)

/-- **The chunks do not matter**: the handler does what it does with the whole body. -/
theorem grafanaStream_eq (lib : Lib) (sha256 : String → String)
    (loads : List UInt8 → Except PyError Json) (env : Env) (service : String)
    (chunks : List (List UInt8)) (clock : Nat → Time) :
    grafanaStream lib sha256 loads env service chunks clock =
      grafana lib sha256 env service chunks.flatten.length (loads chunks.flatten) clock := by
  unfold grafanaStream grafana
  rw [readBody_eq [] chunks (Nat.zero_le _), List.nil_append]
  dsimp only
  by_cases hlarge : 65536 < chunks.flatten.length
  · simp only [if_pos hlarge]
  · simp only [if_neg hlarge]

/-! ## The exceptions of the checks -/

/-- `d[key]` raises `KeyError` or `TypeError`. -/
theorem subscript_error {d : Json} {key : String} {e : PyError} (h : subscript d key = .error e) :
    isInvalid e = true := by
  unfold subscript at h
  split at h
  · split at h
    · cases h
    · obtain rfl := Except.error.inj h
      rfl
  · obtain rfl := Except.error.inj h
    rfl

/-- The checks of one alert raise only what the handler catches. -/
theorem entryOf_error {now : Time} {alert : Json} {e : PyError}
    (h : entryOf lib now alert = .error e) : isInvalid e = true := by
  have hvalue : ∀ text, Except.error (PyError.valueError text) = (.error e : Except PyError Entry) →
      isInvalid e = true := fun text heq => by
    obtain rfl := Except.error.inj heq
    rfl
  unfold entryOf at h
  split at h
  · split at h
    · -- each of the lookups can fail, and the check of the status
      rcases Except.bind_eq_error.mp h with hstatus | ⟨status, -, h₁⟩
      · exact subscript_error hstatus
      rcases Except.bind_eq_error.mp h₁ with hstate | ⟨state, -, h₂⟩
      · unfold alertState at hstate
        split at hstate <;> cases hstate
        rfl
      rcases Except.bind_eq_error.mp h₂ with hname | ⟨name, -, h₃⟩
      · exact subscript_error hname
      rcases Except.bind_eq_error.mp h₃ with hfingerprint | ⟨fingerprint, -, h₄⟩
      · exact subscript_error hfingerprint
      rcases Except.bind_eq_error.mp h₄ with hstarts | ⟨starts, -, h₅⟩
      · exact subscript_error hstarts
      dsimp only at h₅
      split at h₅
      · split at h₅
        · exact hvalue _ h₅
        · split at h₅
          · cases h₅
          · exact hvalue _ h₅
      · exact hvalue _ h₅
    · exact hvalue _ h
  · exact hvalue _ h

/-- A recipient list raises `ValidationError`, which is a `ValueError`. -/
theorem recipients_error {owner : Json} {e : PyError} (h : recipients owner = .error e) :
    isInvalid e = true := by
  unfold recipients at h
  split at h
  · cases h
  · rcases Except.bind_eq_error.mp h with hitems | ⟨items, -, hpure⟩
    · obtain ⟨item, -, hitem⟩ := Except.mapM_eq_error hitems
      unfold recipient at hitem
      split at hitem
      · cases hitem
      · obtain rfl := Except.error.inj hitem
        rfl
    · cases hpure
  · obtain rfl := Except.error.inj h
    rfl

/-- **The checks raise only what the handler catches**, whatever the JSON is. -/
theorem messageOf_error {route : Json} {body : Except PyError Json} {e : PyError}
    (hbody : ∀ e, body = .error e → isInvalid e = true)
    (h : messageOf lib sha256 route body clock = .error e) : isInvalid e = true := by
  unfold messageOf at h
  rcases Except.bind_eq_error.mp h with hloads | ⟨data, -, h₁⟩
  · exact hbody e hloads
  rcases Except.bind_eq_error.mp h₁ with halerts | ⟨alerts, -, h₂⟩
  · exact subscript_error halerts
  split at h₂
  · split at h₂
    · obtain rfl := Except.error.inj h₂
      rfl
    · rcases Except.bind_eq_error.mp h₂ with hentries | ⟨entries, -, h₃⟩
      · obtain ⟨p, -, hp⟩ := Except.mapM_eq_error hentries
        exact entryOf_error hp
      rcases Except.bind_eq_error.mp h₃ with howner | ⟨owner, -, h₄⟩
      · exact subscript_error howner
      rcases Except.bind_eq_error.mp h₄ with hto | ⟨to_, -, h₅⟩
      · exact recipients_error hto
      rcases Except.bind_eq_error.mp h₅ with hrequest | ⟨request, -, hpure⟩
      · unfold sendRequest at hrequest
        split at hrequest
        · cases hrequest
        · obtain rfl := Except.error.inj hrequest
          rfl
      · cases hpure
  · obtain rfl := Except.error.inj h₂
    rfl

/-! ## Well-formed payloads -/

/-- The bytes are a JSON object with a list of one to a hundred valid alerts. -/
def WellFormed (lib : Lib) (loads : List UInt8 → Except PyError Json) (bytes : List UInt8) : Prop :=
  ∃ (data : Json) (alerts : List (Alert lib)), loads bytes = .ok data ∧ Payload data alerts ∧
    1 ≤ alerts.length ∧ alerts.length ≤ 100

/-- Values that are each the JSON of an alert are the JSON of a list of alerts. -/
theorem exists_alerts {items : List Json} (h : ∀ x ∈ items, ∃ a : Alert lib, a.json = x) :
    ∃ alerts : List (Alert lib), items = alerts.map Alert.json := by
  induction items with
  | nil => exact ⟨[], rfl⟩
  | cons x items ih =>
    obtain ⟨a, rfl⟩ := h x (List.mem_cons_self ..)
    obtain ⟨alerts, rfl⟩ := ih fun x hx => h x (List.mem_cons_of_mem _ hx)
    exact ⟨a :: alerts, rfl⟩

/-- Only a payload of valid alerts passes the checks. -/
theorem messageOf_wellFormed {route : Json} {bytes : List UInt8} {result : SendRequest × Nat}
    (h : messageOf lib sha256 route (loads bytes) clock = .ok result) :
    WellFormed lib loads bytes := by
  unfold messageOf at h
  obtain ⟨data, hdata, h₁⟩ := Except.bind_eq_ok.mp h
  obtain ⟨alerts, halerts, h₂⟩ := Except.bind_eq_ok.mp h₁
  split at h₂
  · next items =>
    split at h₂
    · cases h₂
    · next hcount =>
      obtain ⟨entries, hentries, -⟩ := Except.bind_eq_ok.mp h₂
      -- each alert has passed its checks, at one time or another
      have hvalid : ∀ x ∈ items, ∃ a : Alert lib, a.json = x := fun x hx => by
        obtain ⟨i, hi, rfl⟩ := List.mem_iff_getElem.mp hx
        obtain ⟨e, he⟩ := Except.exists_of_mapM_eq_ok hentries (x := (items[i], i))
          (List.mem_zipIdx_iff_getElem?.mpr (List.getElem?_eq_getElem hi))
        obtain ⟨a, ha, -⟩ := entryOf_eq_ok.mp he
        exact ⟨a, ha⟩
      obtain ⟨alerts, rfl⟩ := exists_alerts hvalid
      rw [List.length_map] at hcount
      exact ⟨data, alerts, hdata, halerts, by omega, by omega⟩
  · cases h₂

end Grafana

/-! ## The call of `send_message` -/

namespace SendMessage

/-- The environment of a call that raises nothing: its one recipient has a topic or none. -/
def Routable (lib : Lib) (cfg : Settings) (env : Env) (service recipient body : String) : Prop :=
  ∃ topic, topicFor lib cfg env service recipient body = .ok topic

/-- Where a call under a key stands on its way to a 202. -/
inductive Proceeding (service key recipient : String) (request : SendRequest) (db : Store) :
    Pc → Prop
  | lookup : Proceeding service key recipient request db (.lookup service request [recipient])
  | creating : Proceeding service key recipient request db (.creating service request [recipient])
  | committing {m : Message} : m.idemKey = some (service, key) →
      Proceeding service key recipient request db (.committing service request [m])
  | recovering {r : Message} : r ∈ db.messages → r.idemKey = some (service, key) →
      Proceeding service key recipient request db (.recovering service request)
  | answered {m r : Message} : r ∈ db.messages → r.id = m.id → r.idemKey = some (service, key) →
      Proceeding service key recipient request db (.done service request (.accepted [m]))

section
variable {lib : Lib} {cfg : Settings} {env : Env} {db db' : Store} {pc pc' : Pc} {a : Act}
  {service key recipient : String} {request : SendRequest}

/-- The query for a key finds the one row under it, or nothing. -/
theorem existing_cases (db : Store) (service key : String) :
    (existingByIdempotencyKey db service key = [] ∧
      ∀ m ∈ db.messages, m.idemKey ≠ some (service, key)) ∨
    ∃ r ∈ db.messages, r.idemKey = some (service, key) ∧
      existingByIdempotencyKey db service key = [r] := by
  have hsame : ∀ r ∈ existingByIdempotencyKey db service key,
      ∀ r' ∈ existingByIdempotencyKey db service key, r = r' := by
    intro r hr r' hr'
    obtain ⟨hmem, hk⟩ := mem_existing_iff.mp hr
    obtain ⟨hmem', hk'⟩ := mem_existing_iff.mp hr'
    exact Store.eq_of_idemKey hmem hmem' hk hk'
  rcases Store.select_cases hsame with hnone | ⟨r, hone⟩
  · refine .inl ⟨hnone, fun m hm hk => ?_⟩
    have hmem : m ∈ existingByIdempotencyKey db service key := mem_existing_iff.mpr ⟨hm, hk⟩
    rw [existingByIdempotencyKey, hnone] at hmem
    cases hmem
  · have hmem : r ∈ existingByIdempotencyKey db service key := by
      rw [existingByIdempotencyKey, hone]
      exact List.mem_singleton.mpr rfl
    obtain ⟨hr, hk⟩ := mem_existing_iff.mp hmem
    exact .inr ⟨r, hr, hk, hone⟩

/-- The answer to a lookup when the row is there. -/
theorem proceeding_replay {r : Message} (hr : r ∈ db.messages)
    (hk : r.idemKey = some (service, key)) :
    Proceeding service key recipient request db (replay service request r) :=
  .answered hr rfl hk

/-- The first lookup finds the row, or the call goes on to create it. -/
theorem proceeding_afterLookup (db : Store) :
    Proceeding service key recipient request db
      (afterLookup db service request [recipient] key) := by
  unfold afterLookup
  rcases existing_cases db service key with ⟨hnil, -⟩ | ⟨r, hr, hk, hone⟩
  · rw [hnil]
    exact .creating
  · rw [hone]
    exact proceeding_replay hr hk

/-- A call that begins with a key and one recipient. -/
theorem Proceeding.begin (hvalid : validate lib cfg request = .ok [recipient])
    (hkey : keyOf request = some key)
    (h : Trans lib cfg env db pc (.begin service request) db' pc') :
    Proceeding service key recipient request db' pc' := by
  cases h with
  | refuse hv =>
    rw [hvalid] at hv
    cases hv
  | begin hv =>
    obtain rfl := Except.ok.inj (hvalid.symm.trans hv)
    rw [if_pos (by rw [hkey]; rfl)]
    exact .lookup

/-- An insert under new ids that is refused meets a row with its key. -/
theorem exists_of_integrityError {m : Message} (hk : m.idemKey = some (service, key))
    (hid : ∀ r ∈ db.messages, r.id ≠ m.id) (hdb : db.insertMessages [m] = none) :
    ∃ r ∈ db.messages, r.idemKey = some (service, key) := by
  by_contra hnone
  push Not at hnone
  obtain ⟨db', hsome, -⟩ := insert_new hk hnone hid
  rw [hdb] at hsome
  cases hsome

/-- The one row of a call whose recipient has a topic or none. -/
theorem created_lone {topic : Option String} (id : String) (now : Time)
    (htopic : topicFor lib cfg env service recipient request.body = .ok topic) :
    created lib cfg env service request now [(id, recipient)] =
      .ok [newMessage service request id recipient topic now] := by
  simp [created, htopic, bind, Except.bind, pure, Except.pure]

/-- **A step of such a call**, when the database answers. -/
theorem Proceeding.step (hpc : Proceeding service key recipient request db pc)
    (hkey : keyOf request = some key)
    (hroute : Routable lib cfg env service recipient request.body)
    (hid : ∀ m ∈ pc.rows, ∀ r ∈ db.messages, r.id ≠ m.id) (ha : a ≠ .dbError)
    (h : Trans lib cfg env db pc a db' pc') :
    Proceeding service key recipient request db' pc' := by
  cases hpc with
  | lookup =>
    cases h with
    | lookup hkey' =>
      obtain rfl := Option.some.inj (hkey.symm.trans hkey')
      exact proceeding_afterLookup db
    | dbError => exact absurd rfl ha
  | creating =>
    obtain ⟨topic, htopic⟩ := hroute
    cases h with
    | @topicRaises _ _ _ uuids now e hraises =>
      -- with one recipient there is one topic to look up, and it is there
      cases uuids with
      | nil => simp [created] at hraises
      | cons id uuids =>
        rw [List.zip_cons_cons, List.zip_nil_right, created_lone id now htopic] at hraises
        cases hraises
    | @create _ _ _ uuids now rows hlen hrows =>
      obtain ⟨id, rfl⟩ := List.length_eq_one_iff.mp hlen
      rw [List.zip_cons_cons, List.zip_nil_right, created_lone id now htopic] at hrows
      obtain rfl := Except.ok.inj hrows
      exact .committing (idemKey_newMessage hkey)
    | dbError => exact absurd rfl ha
  | @committing m hk =>
    cases h with
    | commit hdb =>
      have hrows := (Store.insertMessages_eq_some.mp hdb).1
      exact .answered (by rw [hrows]; simp) rfl hk
    | integrityError hdb =>
      obtain ⟨r, hr, hk'⟩ := exists_of_integrityError hk (hid m (by simp [Pc.rows])) hdb
      exact .recovering hr hk'
    | dbError => exact absurd rfl ha
  | @recovering r hr hk =>
    cases h with
    | recover =>
      -- the row that stood in the way is found
      rcases existing_cases db service key with ⟨-, hnone⟩ | ⟨r', hr', hk', hone⟩
      · exact absurd hk (hnone r hr)
      · unfold afterRecovery
        rw [hkey]
        dsimp only
        rw [hone]
        exact proceeding_replay hr' hk'
    | dbError => exact absurd rfl ha
  | answered =>
    cases h with
    | dbError => exact absurd rfl ha

end

/-- The step lets the call through: the process goes on under the same configuration, the
    database answers the call, and the sweep spares the row of its key. -/
def LetsThrough (cfg : Settings) (call : Nat) (k : String × String) (s : Sys) (a : Action) : Prop :=
  a ≠ .crash ∧ (∀ env, a ≠ .configure env) ∧ a ≠ .sendMessage call .dbError ∧ SparesKey cfg k s a

section
variable {lib : Lib} {cfg : Settings} {env : Env} {tr₀ tr : List Action} {s t : Sys} {call : Nat}
  {a : Action} {service key recipient : String} {request : SendRequest}

/-- The configuration only changes when it is changed. -/
theorem env_step (h : SmsRelay.Trans lib cfg s a t) (ha : ∀ env, a ≠ .configure env) :
    t.env = s.env := by
  cases h with
  | configure => exact absurd rfl (ha _)
  | _ => rfl

/-- The rows a call is about to commit have new ids. -/
theorem rows_new (hi : Inv cfg s) : ∀ m ∈ (s.sendMessages call).rows, ∀ r ∈ s.db.messages,
    r.id ≠ m.id := fun m hm r hr hid =>
  (hi.row r hr).2.2 (.inl call) ⟨m, hm, hid.symm⟩

/-- **A step of the relay** keeps the call on its way. -/
theorem Proceeding.sys_step
    (hpc : Proceeding service key recipient request s.db (s.sendMessages call)) (hi : Inv cfg s)
    (hkey : keyOf request = some key)
    (hroute : Routable lib cfg s.env service recipient request.body)
    (hlets : LetsThrough cfg call (service, key) s a) (hstep : Step lib cfg s a t) :
    Proceeding service key recipient request t.db (t.sendMessages call) := by
  obtain ⟨hcrash, -, hdb, hspares⟩ := hlets
  obtain ⟨-, htrans⟩ := SmsRelay.trans_of_step hstep
  have hkept : ∀ r ∈ s.db.messages, r.idemKey = some (service, key) →
      ∃ r' ∈ t.db.messages, r'.id = r.id ∧ r'.idemKey = some (service, key) := fun r hr hk =>
    kept_step hi htrans hspares hr hk
  cases htrans.sendMessage_step call with
  | own h => exact hpc.step hkey hroute (rows_new hi) (fun heq => hdb (by rw [heq])) h
  | crash => exact absurd rfl hcrash
  | other _ hsame =>
    -- the row the call relies on is kept
    rw [hsame]
    generalize s.sendMessages call = pc at hpc
    cases hpc with
    | lookup => exact .lookup
    | creating => exact .creating
    | committing hk => exact .committing hk
    | recovering hr hk =>
      obtain ⟨r', hr', -, hk'⟩ := hkept _ hr hk
      exact .recovering hr' hk'
    | answered hr hid hk =>
      obtain ⟨r', hr', hid', hk'⟩ := hkept _ hr hk
      exact .answered hr' (hid'.trans hid) hk'

/-- **A call that is let through stays on its way** from its begin on. -/
theorem proceeding_run (hrun : Run lib cfg (Sys.init env) tr₀ s)
    (hvalid : validate lib cfg request = .ok [recipient]) (hkey : keyOf request = some key)
    (hroute : Routable lib cfg s.env service recipient request.body)
    (hcall : Transition.Run (Guarded (LetsThrough cfg call (service, key)) (Step lib cfg)) s
      (.sendMessage call (.begin service request) :: tr) t) :
    Proceeding service key recipient request t.db (t.sendMessages call) := by
  obtain ⟨u, ⟨hlets, hstep⟩, hrest⟩ := hcall.cons_inv
  obtain ⟨-, htrans⟩ := SmsRelay.trans_of_step hstep
  have henv : u.env = s.env := env_step htrans hlets.2.1
  have hstart : Proceeding service key recipient request u.db (u.sendMessages call) := by
    cases htrans with
    | sendMessage h => simpa using Proceeding.begin hvalid hkey h
  suffices hlast : t.env = s.env ∧
      Proceeding service key recipient request t.db (t.sendMessages call) from hlast.2
  clear hcall
  -- Induction on the rest of the run; the configuration stays as well
  induction hrest with
  | nil => exact ⟨henv, hstart⟩
  | @snoc tr v b w hrest hnext ih =>
    obtain ⟨hv, hpc⟩ := ih
    have hi := inv_reachable ((hrun.append (Transition.Run.single hstep)).append hrest.unguard)
    refine ⟨(env_step (SmsRelay.trans_of_step hnext.2).2 hnext.1.2.1).trans hv, ?_⟩
    exact hpc.sys_step hi hkey (hv ▸ hroute) hnext.1 hnext.2

/-! ### The row it stores -/

variable {m m' : Message}

/-- The row is the request's: its text, for one of its recipients, under the service. -/
def IsRow (lib : Lib) (cfg : Settings) (service : String) (request : SendRequest)
    (m : Message) : Prop :=
  m.direction = .outbound ∧ m.service = service ∧ m.body = request.body ∧
    ∃ recipient ∈ recipientsOf request, ∃ number,
      normalize lib cfg (.str recipient) = .ok number ∧ m.toNumber = some number

/-- A call commits rows of its request only. -/
theorem Awaiting.isRow {pc : Pc} (h : Awaiting lib cfg service request pc) (hm : m ∈ pc.rows) :
    IsRow lib cfg service request m := by
  cases h with
  | committing hcovers =>
    obtain ⟨hlen, hrel⟩ := List.forall₂_iff_get.mp hcovers
    obtain ⟨i, hi, rfl⟩ := List.mem_iff_getElem.mp hm
    obtain ⟨⟨number, hnumber, hto⟩, hdir, -, hservice, hbody⟩ := hrel i (hlen ▸ hi) hi
    exact ⟨hdir, hservice, hbody, _, List.getElem_mem _, number, hnumber, hto⟩
  | _ => cases hm

/-- Its later versions are rows of the request, too. -/
theorem IsRow.of_content (h : IsRow lib cfg service request m)
    (hcontent : m'.content = m.content) : IsRow lib cfg service request m' := by
  obtain ⟨hdir, hservice, hbody, recipient, hmem, number, hnorm, hto⟩ := h
  simp only [Message.content, Prod.mk.injEq] at hcontent
  obtain ⟨-, hdir', hto', -, hbody', hservice', -⟩ := hcontent
  exact ⟨hdir'.trans hdir, hservice'.trans hservice, hbody'.trans hbody, recipient, hmem, number,
    hnorm, hto'.trans hto⟩

/-- Only a commit of its own commits the rows of a call. -/
theorem commits_sendMessage (h : a.commits = some (.inl call)) : a = .sendMessage call .commit := by
  cases a with
  | sendMessage call' b =>
    cases b with
    | commit =>
      obtain rfl := Sum.inl.inj (Option.some.inj h)
      rfl
    | _ => cases h
  | inbound call' b => cases b <;> cases h
  | _ => cases h

/-- A call on its way does not begin. -/
theorem Proceeding.keepsOn
    (hpc : Proceeding service key recipient request s.db (s.sendMessages call))
    (hstep : Step lib cfg s a t) : KeepsOn call a := by
  rintro service' request' rfl
  have hown := trans_of_step (step_of_sys hstep)
  generalize s.sendMessages call = pc, s.db = db, t.db = db', t.sendMessages call = pc' at hpc hown
  cases hown <;> cases hpc

/-- **The row under the key is the request's**, when there was none before the call and no
    other call has committed one. -/
theorem isRow_of_run (hrun : Run lib cfg (Sys.init env) tr₀ s)
    (hvalid : validate lib cfg request = .ok [recipient]) (hkey : keyOf request = some key)
    (hroute : Routable lib cfg s.env service recipient request.body)
    (hcall : Transition.Run (Guarded (LetsThrough cfg call (service, key)) (Step lib cfg)) s
      (.sendMessage call (.begin service request) :: tr) t)
    (hnone : ∀ m ∈ s.db.messages, m.idemKey ≠ some (service, key))
    (hothers : ∀ call', call' ≠ call → Action.sendMessage call' .commit ∉ tr) :
    ∀ m ∈ t.db.messages, m.idemKey = some (service, key) → IsRow lib cfg service request m := by
  obtain ⟨u, hbegin, hrest⟩ := hcall.cons_inv
  obtain ⟨⟨-, hquiet⟩, hpc⟩ := awaiting_begin hbegin.2
  suffices hlast : Awaiting lib cfg service request (t.sendMessages call) ∧
      ∀ m ∈ t.db.messages, m.idemKey = some (service, key) → IsRow lib cfg service request m from
    hlast.2
  clear hcall
  -- Induction on the rest of the run
  induction hrest with
  | nil => exact ⟨hpc, fun m hm hk => absurd hk (hnone m (hquiet _ rfl ▸ hm))⟩
  | @snoc tr v a w hrest hnext ih =>
    obtain ⟨hawaiting, hrows⟩ := ih fun call' hne hmem =>
      hothers call' hne (List.mem_append_left _ hmem)
    have hcall := (Transition.Run.single hbegin).append hrest
    have hrun' := hrun.append hcall.unguard
    have hi := inv_reachable hrun'
    have hkeeps := (proceeding_run hrun hvalid hkey hroute hcall).keepsOn hnext.2
    refine ⟨?_, fun m hm hk => ?_⟩
    · rcases hawaiting.sys_step hkeeps hnext.2 with ⟨-, hpc⟩ | ⟨rows, -, -, hdone⟩
      · exact hpc
      · rw [hdone]
        exact .done
    · rcases rows_origin hi (SmsRelay.trans_of_step hnext.2).2 hm with
        ⟨r, hr, rfl | hcause⟩ | ⟨c, hcommit, hrow, -⟩
      · exact hrows _ hr hk
      · -- a later version of a row
        have hframe := (hcause.change hi hr).frame
        exact (hrows r hr ((Message.idemKey_eq_of_content hframe).symm.trans hk)).of_content hframe
      · -- a new row: it is the call's own, or it has no key
        cases c with
        | inl call' =>
          by_cases hsame : call' = call
          · subst hsame
            exact hawaiting.isRow hrow
          · obtain rfl := commits_sendMessage hcommit
            exact absurd (List.mem_append_right _ (List.mem_singleton.mpr rfl))
              (hothers call' hsame)
        | inr call' =>
          have hcame := ((provenance_reachable hrun').call call').row m hrow
          rw [hcame.idemKey] at hk
          cases hk

end

end SendMessage

/-! ## The whole handler -/

namespace Grafana

/-- The route of the webhook: its owner's number, and for ntfy a pattern that is one and a
    topic that is one. -/
def ValidRoute (lib : Lib) (cfg : Settings) (env : Env) : Prop :=
  ∃ items owner recipient,
    Json.lookup env.notificationRoutes "grafana" = some (.obj items) ∧
    Json.lookup items "to" = some (.str owner) ∧
    normalize lib cfg (.str owner) = .ok recipient ∧
    (cfg.ntfyUrl ≠ "" →
      (∀ body, ∃ rejects, patternRejects lib (Json.get items "bodyPattern") body = .ok rejects) ∧
      ∃ topic, (Json.lookup items "topic").getD (.str "") = .str topic ∧ isTopic topic = true)

/-- The handler runs from the state `s` to the state `t`, where it gives its answer: its
    checks end it, or the call of `send_message` does, let through by the other parties. -/
inductive Served (lib : Lib) (cfg : Settings) (sha256 : String → String)
    (loads : List UInt8 → Except PyError Json) (s : Sys) (call : Nat)
    (chunks : List (List UInt8)) (clock : Nat → Time) : Except PyError Accepted → Sys → Prop
  | refused {e : PyError} :
      grafanaStream lib sha256 loads s.env "grafana" chunks clock = .error e →
      Served lib cfg sha256 loads s call chunks clock (.error e) s
  | ended {request : SendRequest} {n : Nat} {key : String} {answer : SendMessage.Answer}
      {tr : List Action} {t : Sys} :
      grafanaStream lib sha256 loads s.env "grafana" chunks clock = .ok (request, n) →
      keyOf request = some key →
      Transition.Run (Guarded (LetsThrough cfg call ("grafana", key)) (Step lib cfg)) s
        (.sendMessage call (.begin "grafana" request) :: tr) t →
      t.sendMessages call = .done "grafana" request answer →
      Served lib cfg sha256 loads s call chunks clock (respond n answer) t

section
variable {lib : Lib} {cfg : Settings} {sha256 : String → String}
  {loads : List UInt8 → Except PyError Json} {env : Env} {tr₀ : List Action} {s : Sys} {call : Nat}
  {chunks : List (List UInt8)} {clock : Nat → Time}

/-- Under a valid route the owner has a topic or none, for every text. -/
theorem topicFor_valid {items : List (String × Json)} {owner recipient : String}
    (hlookup : Json.lookup env.notificationRoutes "grafana" = some (.obj items))
    (howner : Json.lookup items "to" = some (.str owner))
    (hnorm : normalize lib cfg (.str owner) = .ok recipient)
    (hntfy : cfg.ntfyUrl ≠ "" →
      (∀ body, ∃ rejects, patternRejects lib (Json.get items "bodyPattern") body = .ok rejects) ∧
      ∃ topic, (Json.lookup items "topic").getD (.str "") = .str topic ∧ isTopic topic = true)
    (body : String) : Routable lib cfg env "grafana" recipient body := by
  unfold Routable topicFor
  dsimp only
  rw [hlookup, Option.getD_some]
  split
  · exact ⟨_, rfl⟩
  · next hon =>
    -- ntfy is configured: the pattern is tried, then the topic is checked
    have hurl : cfg.ntfyUrl ≠ "" := fun h => by simp [h] at hon
    obtain ⟨hpattern, topic, htopic, hvalid⟩ := hntfy hurl
    obtain ⟨rejects, hrejects⟩ := hpattern body
    rw [subscript_eq_ok.mpr howner]
    simp only [bind, Except.bind, hnorm, hrejects, ne_eq, not_true_eq_false, if_false]
    cases rejects with
    | true => exact ⟨_, rfl⟩
    | false => simp [checkedTopic, htopic, hvalid]

/-- A request to the owner of a valid route passes the checks of `send_message`. -/
theorem validate_owner {request : SendRequest} {owner recipient : String}
    (hto : request.recipients = .inl owner)
    (hnorm : normalize lib cfg (.str owner) = .ok recipient) :
    validate lib cfg request = .ok [recipient] := by
  have hone : recipientsOf request = [owner] := by simp [recipientsOf, hto]
  have hmap : ([owner].mapM fun r => normalize lib cfg (.str r)) = .ok [recipient] := by
    simp [hnorm, bind, Except.bind, pure, Except.pure]
  simp [validate, hone, hmap]

/-- A valid route is truthy: it has a `to`. -/
theorem ValidRoute.truthy (h : ValidRoute lib cfg env) :
    (Json.get env.notificationRoutes "grafana").truthy = true := by
  obtain ⟨items, owner, recipient, hlookup, howner, -⟩ := h
  rw [Json.get, hlookup, Option.getD_some]
  cases items with
  | nil => cases howner
  | cons => rfl

/-- What a well-formed payload becomes: a request under a key, to a recipient that gets it. -/
structure Admitted (lib : Lib) (cfg : Settings) (sha256 : String → String)
    (loads : List UInt8 → Except PyError Json) (env : Env) (chunks : List (List UInt8))
    (clock : Nat → Time) (request : SendRequest) (n : Nat) (key recipient : String) : Prop where
  stream : grafanaStream lib sha256 loads env "grafana" chunks clock = .ok (request, n)
  key : keyOf request = some key
  valid : validate lib cfg request = .ok [recipient]
  routable : Routable lib cfg env "grafana" recipient request.body

/-- **A well-formed payload passes every check.** -/
theorem exists_admitted (hroute : ValidRoute lib cfg env)
    (hhex : ∀ text, (sha256 text).length = 64) (hsize : chunks.flatten.length ≤ 65536)
    (hwell : WellFormed lib loads chunks.flatten) (clock : Nat → Time) :
    ∃ request n key recipient,
      Admitted lib cfg sha256 loads env chunks clock request n key recipient := by
  have htruthy := hroute.truthy
  obtain ⟨items, owner, recipient, hlookup, howner, hnorm, hntfy⟩ := hroute
  obtain ⟨data, alerts, hdata, hpayload, hmin, hmax⟩ := hwell
  have hget : Json.get env.notificationRoutes "grafana" = .obj items := by
    rw [Json.get, hlookup, Option.getD_some]
  obtain ⟨request, hrequest, hto⟩ := grafana_requests hpayload ⟨hmin, hmax⟩ hsize htruthy
    (hget ▸ subscript_eq_ok.mpr howner) rfl hhex
  have hrequests : Requests lib sha256 alerts clock request :=
    ⟨env, _, data, _, hpayload, hrequest⟩
  exact ⟨request, alerts.length, _, recipient,
    { stream := by rw [grafanaStream_eq, hdata, hrequest]
      key := hrequests.keyOf
      valid := validate_owner hto hnorm
      routable := topicFor_valid hlookup howner hnorm hntfy request.body }⟩

/-- The answer to a body that is too large. -/
theorem grafanaStream_large (hroute : ValidRoute lib cfg env)
    (hsize : 65536 < chunks.flatten.length) :
    grafanaStream lib sha256 loads env "grafana" chunks clock =
      .error (.httpException 413 "payload too large") := by
  rw [grafanaStream_eq]
  unfold grafana
  rw [if_neg (by simp)]
  dsimp only
  rw [hroute.truthy, if_neg (by simp), if_pos hsize]

/-- **The answer to a body that is not well-formed.** -/
theorem grafanaStream_malformed (hroute : ValidRoute lib cfg env)
    (hloads : ∀ bytes e, loads bytes = .error e → ∃ text, e = .valueError text)
    (hsize : chunks.flatten.length ≤ 65536) (hmal : ¬ WellFormed lib loads chunks.flatten) :
    grafanaStream lib sha256 loads env "grafana" chunks clock =
      .error (.httpException 400 "invalid Grafana webhook") := by
  rw [grafanaStream_eq]
  unfold grafana
  rw [if_neg (by simp)]
  dsimp only
  rw [hroute.truthy, if_neg (by simp), if_neg (by omega)]
  cases hmessage : messageOf lib sha256 (Json.get env.notificationRoutes "grafana")
      (loads chunks.flatten) clock with
  | ok result => exact absurd (messageOf_wellFormed hmessage) hmal
  | error e =>
    -- whatever the checks have raised is caught
    have hinvalid : isInvalid e = true := messageOf_error (fun e he => by
      obtain ⟨text, rfl⟩ := hloads _ e he
      rfl) hmessage
    dsimp only
    rw [if_pos hinvalid]

/-- A request that is let through has been answered 202, and its message is stored once. -/
theorem Admitted.served {request : SendRequest} {n : Nat} {key recipient : String}
    (h : Admitted lib cfg sha256 loads s.env chunks clock request n key recipient)
    (hrun : Run lib cfg (Sys.init env) tr₀ s) {response : Except PyError Accepted} {t : Sys}
    (hserved : Served lib cfg sha256 loads s call chunks clock response t) :
    response = .ok ⟨n, 1⟩ ∧ ∃ r ∈ t.db.messages, ∀ r' ∈ t.db.messages,
      r'.idemKey = some ("grafana", key) ↔ r' = r := by
  cases hserved with
  | refused hstream =>
    rw [h.stream] at hstream
    cases hstream
  | ended hstream hkey hcall hdone =>
    obtain ⟨rfl, rfl⟩ := Prod.mk.inj (Except.ok.inj (h.stream.symm.trans hstream))
    obtain rfl := Option.some.inj (h.key.symm.trans hkey)
    have hpc := proceeding_run hrun h.valid h.key h.routable hcall
    rw [hdone] at hpc
    cases hpc with
    | answered hr _ hk =>
      refine ⟨rfl, _, hr, fun r' hr' => ⟨fun hk' => Store.eq_of_idemKey hr' hr hk' hk, ?_⟩⟩
      rintro rfl
      exact hk

/-- A request that is refused changes nothing. -/
theorem Served.of_error {e : PyError} {response : Except PyError Accepted} {t : Sys}
    (hstream : grafanaStream lib sha256 loads s.env "grafana" chunks clock = .error e)
    (h : Served lib cfg sha256 loads s call chunks clock response t) :
    response = .error e ∧ t = s := by
  cases h with
  | refused hstream' =>
    rw [hstream] at hstream'
    obtain rfl := Except.error.inj hstream'
    exact ⟨rfl, rfl⟩
  | ended hstream' =>
    rw [hstream] at hstream'
    cases hstream'

/-- The handler sees the bytes of the chunks, not the chunks. -/
theorem Served.of_flatten {chunks' : List (List UInt8)} {response : Except PyError Accepted}
    {t : Sys} (hflat : chunks.flatten = chunks'.flatten)
    (h : Served lib cfg sha256 loads s call chunks clock response t) :
    Served lib cfg sha256 loads s call chunks' clock response t := by
  have hsame : grafanaStream lib sha256 loads s.env "grafana" chunks clock =
      grafanaStream lib sha256 loads s.env "grafana" chunks' clock := by
    rw [grafanaStream_eq, grafanaStream_eq, hflat]
  cases h with
  | refused hstream => exact .refused (hsame.symm.trans hstream)
  | ended hstream hkey hcall hdone =>
    exact .ended (hsame.symm.trans hstream) hkey hcall hdone

/-- The steps of a call alone are let through. -/
theorem letsThrough_alone {acts : List Act} {k : String × String} {t : Sys}
    (hacts : ∀ a ∈ acts, a ≠ .dbError)
    (hrun : Run lib cfg s (acts.map (Action.sendMessage call)) t) :
    Transition.Run (Guarded (LetsThrough cfg call k) (Step lib cfg)) s
      (acts.map (Action.sendMessage call)) t := by
  have hguard := hrun.guard (P := fun a => ∃ b, b ≠ Act.dbError ∧ a = .sendMessage call b)
    fun a ha => by
      obtain ⟨b, hb, rfl⟩ := List.mem_map.mp ha
      exact ⟨b, hacts b hb, rfl⟩
  refine hguard.mono fun u a v huv => ?_
  obtain ⟨⟨b, hb, rfl⟩, hstep⟩ := huv
  have hcrash : Action.sendMessage call b ≠ .crash := fun h => by cases h
  have henv : ∀ env, Action.sendMessage call b ≠ .configure env := fun _ h => by cases h
  have herror : Action.sendMessage call b ≠ .sendMessage call .dbError := fun h =>
    hb (Action.sendMessage.inj h).2
  exact ⟨⟨hcrash, henv, herror, trivial⟩, hstep⟩

/-- **A request that runs alone is served.** -/
theorem Admitted.exists_served {request : SendRequest} {n : Nat} {key recipient : String}
    (h : Admitted lib cfg sha256 loads s.env chunks clock request n key recipient)
    (hrun : Run lib cfg (Sys.init env) tr₀ s) (hidle : s.sendMessages call = .idle) {id : String}
    (hfresh : DrawsFresh s [id]) :
    ∃ response t, Served lib cfg sha256 loads s call chunks clock response t := by
  obtain ⟨topic, htopic⟩ := h.routable
  rcases existing_cases s.db "grafana" key with ⟨-, hnone⟩ | ⟨r, -, -, hone⟩
  · -- The key is new: the message is queued
    have hid : ∀ m ∈ s.db.messages, m.id ≠ id := fun m hm heq => by
      have hused := ((inv_reachable hrun).row m hm).2.1
      rw [heq] at hused
      exact hfresh.2 id (List.mem_singleton.mpr rfl) hused
    obtain ⟨db, hexec, -⟩ := exec_queueing 0 h.valid h.key hnone htopic hid
    rw [← hidle] at hexec
    obtain ⟨t, hcall, -, hdone⟩ :=
      (run_sendMessage_iff (by simpa [queueing, Action.uuids] using hfresh)).mpr hexec
    exact ⟨_, t, .ended h.stream h.key (letsThrough_alone (by simp [queueing]) hcall) hdone⟩
  · -- The key is stored: the lookup ends the call
    have hexec : exec (move lib cfg s.env) (s.db, s.sendMessages call)
        [.begin "grafana" request, .lookup] =
          some (s.db, .done "grafana" request (.accepted [r])) := by
      simp [exec, move, SendMessage.step, hidle, h.valid, h.key, afterLookup, hone,
        scalarOneOrNone, replay]
    obtain ⟨t, hcall, -, hdone⟩ := (run_sendMessage_iff
      (by simp [Action.uuids, DrawsFresh])).mpr hexec
    exact ⟨_, t, .ended h.stream h.key (letsThrough_alone (by simp) hcall) hdone⟩

/-- **What every sequence of bytes is answered with**, under a valid route. -/
theorem payload_admitted (hrun : Run lib cfg (Sys.init env) tr₀ s)
    (hidle : s.sendMessages call = .idle) (hroute : ValidRoute lib cfg s.env)
    (hhex : ∀ text, (sha256 text).length = 64)
    (hloads : ∀ bytes e, loads bytes = .error e → ∃ text, e = .valueError text) :
    -- how the bytes are split does not matter
    (∀ chunks₁ chunks₂ clock, chunks₁.flatten = chunks₂.flatten → ∀ response t,
      Served lib cfg sha256 loads s call chunks₁ clock response t ↔
        Served lib cfg sha256 loads s call chunks₂ clock response t) ∧
    ∀ chunks clock,
      (∀ id, DrawsFresh s [id] →
        ∃ response t, Served lib cfg sha256 loads s call chunks clock response t) ∧
      ∀ response t, Served lib cfg sha256 loads s call chunks clock response t →
        (65536 < chunks.flatten.length →
          response = .error (.httpException 413 "payload too large") ∧ t = s) ∧
        (chunks.flatten.length ≤ 65536 → ¬ WellFormed lib loads chunks.flatten →
          response = .error (.httpException 400 "invalid Grafana webhook") ∧ t = s) ∧
        (chunks.flatten.length ≤ 65536 → WellFormed lib loads chunks.flatten →
          ∃ request n key,
            grafanaStream lib sha256 loads s.env "grafana" chunks clock = .ok (request, n) ∧
            keyOf request = some key ∧ response = .ok ⟨n, 1⟩ ∧
            ∃ r ∈ t.db.messages,
              (∀ r' ∈ t.db.messages, r'.idemKey = some ("grafana", key) ↔ r' = r) ∧
              -- a key that is new leads to the text and the recipient of the request
              ((∀ m ∈ s.db.messages, m.idemKey ≠ some ("grafana", key)) →
                ∀ tr, Transition.Run (Guarded (LetsThrough cfg call ("grafana", key))
                    (Step lib cfg)) s (.sendMessage call (.begin "grafana" request) :: tr) t →
                  (∀ call', call' ≠ call → Action.sendMessage call' .commit ∉ tr) →
                  IsRow lib cfg "grafana" request r)) := by
  refine ⟨fun chunks₁ chunks₂ clock hflat response t => ?_,
    fun chunks clock => ⟨fun id hfresh => ?_,
    fun response t hserved => ⟨fun hlarge => ?_, fun hsize hmal => ?_, fun hsize hwell => ?_⟩⟩⟩
  · exact ⟨Served.of_flatten hflat, Served.of_flatten hflat.symm⟩
  · by_cases hlarge : 65536 < chunks.flatten.length
    · exact ⟨_, s, .refused (grafanaStream_large hroute hlarge)⟩
    · by_cases hwell : WellFormed lib loads chunks.flatten
      · obtain ⟨request, n, key, recipient, hadmitted⟩ :=
          exists_admitted hroute hhex (by omega) hwell clock
        exact hadmitted.exists_served hrun hidle hfresh
      · exact ⟨_, s, .refused (grafanaStream_malformed hroute hloads (by omega) hwell)⟩
  · exact hserved.of_error (grafanaStream_large hroute hlarge)
  · exact hserved.of_error (grafanaStream_malformed hroute hloads hsize hmal)
  · obtain ⟨request, n, key, recipient, hadmitted⟩ := exists_admitted hroute hhex hsize hwell clock
    obtain ⟨hresponse, r, hr, hone⟩ := hadmitted.served hrun hserved
    exact ⟨request, n, key, hadmitted.stream, hadmitted.key, hresponse, r, hr, hone,
      fun hnone tr hcall hothers => isRow_of_run hrun hadmitted.valid hadmitted.key
        hadmitted.routable hcall hnone hothers r hr ((hone r hr).mpr rfl)⟩

end

end Grafana

namespace Sample

/-- The text of an alert of the sample group. -/
def alertText (app : String) : String :=
  "\x7b\"status\": \"firing\", \"fingerprint\": \"" ++ app ++
    "\", \"startsAt\": \"2026-10-25T01:00:00Z\", " ++
    "\"labels\": \x7b\"alertname\": \"health\", \"app\": \"" ++ app ++ "\"\x7d\x7d"

/-- The bytes of the sample group. -/
def groupBytes : List UInt8 :=
  ("\x7b\"alerts\": [" ++ alertText "sonarr" ++ ", " ++ alertText "radarr" ++ "]\x7d").toUTF8.toList

/-- `json.loads`, on these bytes and on none. -/
def groupLoads (bytes : List UInt8) : Except PyError Json :=
  if bytes = groupBytes then .ok (groupBody [sonarr, radarr]) else .error (.valueError "value")

end Sample

open Grafana in
/-- The group in two chunks is answered with a 202, and no bytes at all with a 400. -/
theorem Grafana.payload_admitted_pair :
    (∃ t, Served Sample.groupLib Sample.cfg Sample.groupSha256 Sample.groupLoads
      (Sys.init Sample.groupEnv) 0 [Sample.groupBytes.take 100, Sample.groupBytes.drop 100]
      (fun _ => 1792890000000000) (.ok ⟨2, 1⟩) t) ∧
    ∀ response t, Served Sample.groupLib Sample.cfg Sample.groupSha256 Sample.groupLoads
      (Sys.init Sample.groupEnv) 0 [] (fun _ => 1792890000000000) response t →
      response = .error (.httpException 400 "invalid Grafana webhook") := by
  have hhex : ∀ text, (Sample.groupSha256 text).length = 64 := fun text => by
    unfold Sample.groupSha256
    split <;> rfl
  have hroute : ValidRoute Sample.groupLib Sample.cfg (Sys.init Sample.groupEnv).env :=
    ⟨_, "+12025550101", "+12025550101", rfl, rfl, rfl, fun h => absurd rfl h⟩
  have hloads : ∀ bytes e, Sample.groupLoads bytes = .error e → ∃ text, e = .valueError text := by
    intro bytes e he
    unfold Sample.groupLoads at he
    split at he
    · cases he
    · exact ⟨_, (Except.error.inj he).symm⟩
  obtain ⟨-, hpayload⟩ := payload_admitted .nil rfl hroute hhex hloads
  have hdata : Sample.groupLoads Sample.groupBytes =
      .ok (Sample.groupBody [Sample.sonarr, Sample.radarr]) := if_pos rfl
  have hflat : [Sample.groupBytes.take 100, Sample.groupBytes.drop 100].flatten =
      Sample.groupBytes := by
    simp
  have hsize : Sample.groupBytes.length ≤ 65536 := by decide +kernel
  refine ⟨?_, fun response t hserved => ?_⟩
  · -- the group is well-formed
    obtain ⟨hexists, hanswer⟩ := hpayload
      [Sample.groupBytes.take 100, Sample.groupBytes.drop 100] fun _ => 1792890000000000
    have hwell : WellFormed Sample.groupLib Sample.groupLoads
        [Sample.groupBytes.take 100, Sample.groupBytes.drop 100].flatten := by
      rw [hflat]
      exact ⟨_, [Sample.sonarr, Sample.radarr], hdata, rfl, by decide, by decide⟩
    obtain ⟨response, t, hserved⟩ := hexists "m1" ⟨by decide, by decide⟩
    obtain ⟨-, -, haccepted⟩ := hanswer response t hserved
    obtain ⟨request, n, key, hstream, -, rfl, -⟩ := haccepted (hflat.symm ▸ hsize) hwell
    have hlen : 1 ≤ [Sample.sonarr, Sample.radarr].length ∧
        [Sample.sonarr, Sample.radarr].length ≤ 100 := ⟨by decide, by decide⟩
    have hgroup : Payload (Sample.groupBody [Sample.sonarr, Sample.radarr])
        [Sample.sonarr, Sample.radarr] := rfl
    have hroute : (Json.get Sample.groupEnv.notificationRoutes "grafana").truthy = true := rfl
    obtain ⟨request', hrequest', -⟩ := grafana_requests hgroup hlen hsize hroute rfl rfl hhex
    rw [grafanaStream_eq, hflat, hdata] at hstream
    obtain ⟨-, rfl⟩ := Prod.mk.inj (Except.ok.inj (hstream.symm.trans hrequest'))
    exact ⟨t, hserved⟩
  · -- an empty body is not
    obtain ⟨-, hanswer⟩ := hpayload [] fun _ => 1792890000000000
    obtain ⟨-, hrefused, -⟩ := hanswer response t hserved
    refine (hrefused (by decide) ?_).1
    rintro ⟨data, alerts, hdata', -⟩
    have hne : ([] : List UInt8) ≠ Sample.groupBytes := by decide +kernel
    cases (if_neg hne).symm.trans hdata'

end SmsRelay
