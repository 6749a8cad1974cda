import SmsRelay.Spec.Receive

/-!
# Fan-out at the moment of acceptance

An inbound message and the deliveries of its subscribers are one transaction: until it is
committed nothing of either is in the database, whatever else happens.  Whether it can be
committed depends on the subscriber list: on its names, and on surrogates in what it is to
store of the subscribers.

## Key results

- `traceless_step`: only the call's commit puts its message or a delivery of it there
- `inbound_fanout_iff`: when an event is accepted and fanned out
-/

namespace SmsRelay

open Transition Webhooks Inbound

/-! ## All or nothing -/

/-- Nothing under the id of the call's message is in the database, and no other call has a
    row under it. -/
structure Sys.Traceless (s : Sys) (call : Nat) (id : String) : Prop where
  used : id ∈ s.used
  row : ∀ m ∈ s.db.messages, m.id ≠ id
  call : ∀ c, s.Pending c id → c = .inr call

/-- The call commits its message and the deliveries in one step from `s` to `t`. -/
structure CommitsAtOnce (lib : Lib) (cfg : Settings) (s : Sys) (call : Nat) (id : String)
    (a : Action) (t : Sys) : Prop where
  action : ∃ now, a = .inbound call (.commit now)
  step : Step lib cfg s a t
  rows : ∃ m ds, s.inbounds call = .fanned m ds ∧ m.id = id ∧
    t.db.messages = s.db.messages ++ [m] ∧ t.db.deliveries = s.db.deliveries ++ ds

section
variable {lib : Lib} {cfg : Settings} {env : Env} {s t u v : Sys} {a : Action}
  {tr : List Action} {call : Nat} {id : String}

/-- No delivery refers to a message that is not there. -/
theorem Sys.Traceless.delivery (h : s.Traceless call id) :
    ∀ d ∈ s.db.deliveries, d.messageId ≠ id := by
  intro d hd hid
  obtain ⟨m, hm, hmid⟩ := List.mem_map.mp (s.db.integrity.fkMessage d hd)
  exact h.row m hm (hmid.trans hid)

/-- The commit of an inbound call. -/
theorem Action.commits_inbound (h : a.commits = some (.inr call)) :
    ∃ now, a = .inbound call (.commit now) := by
  cases a with
  | inbound call' b =>
    cases b with
    | commit now =>
      obtain rfl := Sum.inr.inj (Option.some.inj h)
      exact ⟨now, rfl⟩
    | _ => cases h
  | sendMessage call' b => cases b <;> cases h
  | _ => cases h

/-- The call that has just drawn the id has left nothing in the database. -/
theorem traceless_flush {now : Time} (hi : Inv cfg s)
    (hstep : Step lib cfg s (.inbound call (.flush id now)) t) : t.Traceless call id := by
  obtain ⟨hfresh, h⟩ := trans_of_step hstep
  have hid : id ∉ s.used := hfresh.2 id (by simp [Action.uuids])
  refine ⟨by simp [used_step h, Action.uuids], fun m hm hmid => ?_, fun c hc => ?_⟩
  · -- a row of the next state was there before, or was in the hands of a call
    rcases rows_evolved hi h hm with ⟨r, hr, -, hsame⟩ | ⟨c, hcommit, -⟩
    · exact hid ((hsame.symm.trans hmid) ▸ (hi.row r hr).2.1)
    · cases hcommit
  · obtain ⟨m, hm, rfl⟩ := hc
    rcases callRows_step h hm with hold | ⟨hcaller, -, -⟩
    · exact absurd (hi.call_row c m hold).2 hid
    · exact (Option.some.inj hcaller).symm

/-- **Only the call's commit leaves a trace of its message**, and it puts the message and
    all its deliveries there in one step. -/
theorem traceless_step (hl : s.Traceless call id) (hi : Inv cfg s) (hstep : Step lib cfg s a t) :
    t.Traceless call id ∨ CommitsAtOnce lib cfg s call id a t := by
  obtain ⟨hfresh, h⟩ := trans_of_step hstep
  by_cases hrow : ∃ m ∈ t.db.messages, m.id = id
  · obtain ⟨m, hm, rfl⟩ := hrow
    right
    -- the row was not in the database before
    rcases rows_evolved hi h hm with ⟨r, hr, -, hsame⟩ | ⟨c, hcommit, hcall⟩
    · exact absurd hsame.symm (hl.row r hr)
    · -- the row was in the hands of the call, so the step is the call's commit
      obtain rfl := hl.call c ⟨m, hcall, rfl⟩
      obtain ⟨now, rfl⟩ := Action.commits_inbound hcommit
      refine ⟨⟨now, rfl⟩, hstep, ?_⟩
      cases h with
      | inbound h =>
        have hrows : m ∈ (s.inbounds call).rows := hcall
        generalize hpc : s.inbounds call = pc₀ at h hrows
        cases h with
        | commit hdb =>
          obtain rfl := List.mem_singleton.mp hrows
          obtain ⟨hms, hds⟩ := Store.insertInbound_eq_some.mp hdb
          exact ⟨m, _, rfl, rfl, hms, hds⟩
        | unbindable => cases hrows
        | receiptCommit => cases hrows
  · left
    -- no row under the id, so no commit: the id stays used and in the same hands
    refine ⟨by rw [used_step h]; exact List.mem_append_right _ hl.used,
      fun m hm hid => hrow ⟨m, hm, hid⟩, fun c hc => ?_⟩
    obtain ⟨m, hm, rfl⟩ := hc
    rcases callRows_step h hm with hold | ⟨-, hnew, -⟩
    · exact hl.call c ⟨m, hold, rfl⟩
    · exact absurd hl.used (hfresh.2 _ hnew)

/-- Once the call has drawn the id, a message under it or a delivery of that message is in
    the database only after the call's commit has put everything there at once. -/
def AllOrNothing (lib : Lib) (cfg : Settings) (s : Sys) (call : Nat) (id : String) : Prop :=
  ∀ tr₀ v now u tr t, Run lib cfg s tr₀ v → Step lib cfg v (.inbound call (.flush id now)) u →
    Run lib cfg u tr t →
    ((∃ m ∈ t.db.messages, m.id = id) ∨ ∃ d ∈ t.db.deliveries, d.messageId = id) →
    ∃ tr₁ a tr₂ x y, tr = tr₁ ++ a :: tr₂ ∧ Run lib cfg u tr₁ x ∧
      CommitsAtOnce lib cfg x call id a y

/-- Up to the commit there is nothing. -/
theorem traceless_run (hl : s.Traceless call id) (hi : Inv cfg s) (hrun : Run lib cfg s tr t) :
    t.Traceless call id ∨ ∃ tr₁ a tr₂ x y, tr = tr₁ ++ a :: tr₂ ∧ Run lib cfg s tr₁ x ∧
      CommitsAtOnce lib cfg x call id a y := by
  -- Induction on the run: the first step that leaves a trace is the commit
  induction hrun with
  | nil => exact .inl hl
  | @snoc tr t a u hrun hstep ih =>
    rcases ih with hnone | ⟨tr₁, b, tr₂, x, y, rfl, hx, hcommit⟩
    · rcases traceless_step hnone (inv_run hi hrun) hstep with hnone' | hcommit
      · exact .inl hnone'
      · exact .inr ⟨tr, a, [], t, u, rfl, hrun, hcommit⟩
    · exact .inr ⟨tr₁, b, tr₂ ++ [a], x, y, by simp, hx, hcommit⟩

theorem allOrNothing (hrun : Run lib cfg (Sys.init env) tr s) (call : Nat) (id : String) :
    AllOrNothing lib cfg s call id := by
  intro tr₀ v now u tr t hv hflush ht htrace
  have hi := inv_reachable (hrun.append hv)
  rcases traceless_run (traceless_flush hi hflush) (inv_step hi hflush) ht with hnone | hcommit
  · rcases htrace with ⟨m, hm, hid⟩ | ⟨d, hd, hid⟩
    · exact absurd hid (hnone.row m hm)
    · exact absurd hid (hnone.delivery d hd)
  · exact hcommit

end

/-! ## Accepted and fanned out -/

namespace Inbound

/-- A text message as the gateway sends it: the text is a non-empty string, and the sender,
    when there is one, is a string. -/
structure WellFormed (lib : Lib) (event : List (PyStr × Json PyStr)) (text : PyStr) : Prop where
  kind : IsText event
  body : (extract lib event).body = .str text
  nonempty : text ≠ ""
  sender : StringOrFalsy (extract lib event).sender

end Inbound

/-- There is one pending delivery for each name of an interested subscriber, and no other. -/
def FannedOut (env : Env) (m : Message) (ds : List WebhookDelivery) : Prop :=
  ∃ subs, env.subscribers = .ok subs ∧ (ds.map WebhookDelivery.subscriber).Nodup ∧
    (∀ name, name ∈ ds.map (fun d => PyStr.text d.subscriber) ↔
      ∃ sub ∈ interested subs, sub.name = name) ∧
    ∀ d ∈ ds, d.messageId = m.id ∧ d.status = .pending

/-- **Fan-out at acceptance.**  In every reachable state, a well-formed event under a new
    id is answered 202 and committed with one pending delivery for each name of an
    interested subscriber, all or nothing, exactly when `json.loads` can read it, the
    subscriber list can be read and names no interested subscriber twice, and what is to be
    stored of the event and of these subscribers has no surrogate. -/
theorem inbound_fanout_iff {lib : Lib} {cfg : Settings} {env : Env} {tr : List Action} {s : Sys}
    {call : Nat} {event : List (PyStr × Json PyStr)}
    {parsed : Except LoadsError (Json PyStr)} {text : PyStr} {draws : Draws}
    (hrun : Run lib cfg (Sys.init env) tr s) (hidle : s.inbounds call = .idle)
    (hparsed : Holds parsed event) (hevent : WellFormed lib event text)
    (hnew : NewId lib s.db event) (hfresh : DrawsFresh s (draws.uuid :: draws.uuids))
    (henough : draws.Enough s.env) :
    (∃ m ds, Completes lib cfg s call event parsed draws m ds ∧ m.id = draws.uuid ∧
        PyStr.text m.body = text ∧ FannedOut s.env m ds) ∧
        AllOrNothing lib cfg s call draws.uuid ↔
      parsed = .ok (.obj event) ∧ Bindable lib cfg event text ∧ s.env.Fannable := by
  have hstored := exists_completes_iff hrun hidle hparsed hevent.kind hevent.body hevent.nonempty
    hnew hfresh henough
  constructor
  -- A committed event was read, and so was the list; no name stood twice
  · rintro ⟨⟨m, ds, hdone, -⟩, -⟩
    obtain ⟨hread, -, hbind, hfan⟩ := hstored.mp ⟨m, ds, hdone⟩
    exact ⟨hread, hbind, hfan⟩
  · rintro ⟨hread, hbind, hfan⟩
    refine ⟨?_, allOrNothing hrun call draws.uuid⟩
    obtain ⟨m, ds, hdone⟩ := hstored.mpr ⟨hread, hevent.sender, hbind, hfan⟩
    obtain ⟨hid, -, hbody, -⟩ := hdone.row hrun hidle hparsed hevent.kind hevent.body
      hevent.nonempty hnew hfresh henough
    -- the deliveries are those of the list
    obtain ⟨-, -, subs, -, -, hsubs, hds, hnames⟩ := (completes_iff hrun hidle hparsed hevent.kind
      hevent.body hevent.nonempty hnew hfresh henough).mp hdone
    have hlen := henough subs hsubs
    refine ⟨m, ds, hdone, hid, hbody, subs, hsubs, (nodup_subscriber_iff hlen hds).mpr hnames,
      fun name => ?_, fun d hd => messageId_enqueueFanout hds hd⟩
    rw [map_subscriber_enqueueFanout hlen hds, List.mem_map]

namespace Sample

/-- Two subscribers to inbound messages. -/
def pair : Env := subscribers [entry "app" "http://a", entry "log" "http://b"]

/-- Two entries under one name. -/
def twins : Env := subscribers [entry "app" "http://a", entry "app" "http://b"]

theorem wellFormed_text : WellFormed lib (textFrom (.str "+12025550101")) "hi" where
  kind := .inl rfl
  body := rfl
  nonempty := by decide
  sender _ := ⟨_, rfl⟩

end Sample

/-- A message for two subscribers. -/
theorem inbound_fanout_iff_pair :
    ∃ m ds, Completes Sample.lib Sample.cfg (Sys.init Sample.pair) 0
        (Sample.textFrom (.str "+12025550101")) (.ok (.obj (Sample.textFrom (.str "+12025550101"))))
        (Sample.draws ["d1", "d2"]) m ds ∧
      m.id = "m1" ∧ PyStr.text m.body = "hi" ∧ FannedOut Sample.pair m ds :=
  ((inbound_fanout_iff .nil rfl (fun _ h => (Except.ok.inj h).symm) Sample.wellFormed_text
    (fun _ _ _ => rfl) ⟨by decide, by simp [Sys.init]⟩ (fun subs hsubs => by
      obtain rfl := Except.ok.inj hsubs
      rfl)).mpr ⟨rfl, ⟨by decide, by decide, by decide⟩, _, rfl, by decide, by decide⟩).1

/-- With two entries under one name in the configuration every inbound message is refused:
    the second delivery breaks the unique constraint, and nothing is committed. -/
theorem not_inbound_fanout_twins :
    WellFormed Sample.lib (Sample.textFrom (.str "+12025550101")) "hi" ∧
    NewId Sample.lib (Sys.init Sample.twins).db (Sample.textFrom (.str "+12025550101")) ∧
    ¬ ∃ m ds, Completes Sample.lib Sample.cfg (Sys.init Sample.twins) 0
        (Sample.textFrom (.str "+12025550101")) (.ok (.obj (Sample.textFrom (.str "+12025550101"))))
        (Sample.draws ["d1", "d2"]) m ds ∧
      m.id = "m1" ∧ PyStr.text m.body = "hi" ∧ FannedOut Sample.twins m ds := by
  have hevent := Sample.wellFormed_text
  refine ⟨hevent, fun _ _ _ => rfl, ?_⟩
  rintro ⟨m, ds, hdone, -⟩
  obtain ⟨-, -, -, subs, hsubs, hnames, -⟩ := (exists_completes_iff .nil rfl
    (fun _ h => (Except.ok.inj h).symm) hevent.kind hevent.body hevent.nonempty (fun _ _ _ => rfl)
    ⟨by decide, by simp [Sys.init]⟩ (fun subs hsubs => by
      obtain rfl := Except.ok.inj hsubs
      rfl)).mp ⟨m, ds, hdone⟩
  obtain rfl := Except.ok.inj hsubs
  -- the two names are equal
  revert hnames
  decide

end SmsRelay
