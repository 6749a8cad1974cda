import SmsRelay.Spec.Provenance

/-!
# Retention and fan-out

An inbound row has a status that is never left from the moment it is stored, and
`created_at` is when the phone says the text came in.  Its deliveries have a schedule of
their own, and the foreign key deletes them with the row.

## Key results

- `inbound_terminal`: an inbound row is always one that the sweep may delete
- `prunable_iff`: what decides about a message with a delivery is the stamp of its event
- `prune_spares_pending_iff`: which runs lose no pending delivery to the sweep
-/

namespace SmsRelay

open Transition Inbound

/-- The `created_at` of the message that the handler makes of an event. -/
def stampOf (lib : Lib) (event : List (PyStr × Json PyStr)) (now : Time) : Time :=
  (parseTimestamp lib now (extract lib event).receivedAt).fields

/-- The message has a delivery that is still to be made. -/
def Sys.HasPending (s : Sys) (id : String) : Prop :=
  ∃ d ∈ s.db.deliveries, d.messageId = id ∧ d.status = .pending

section
variable {lib : Lib} {cfg : Settings} {env : Env} {s t : Sys} {tr : List Action} {m : Message}

/-- The status of an inbound row is one that a row never leaves. -/
theorem RowInv.inbound_terminal (h : RowInv cfg m) (hdir : m.direction = .inbound) :
    m.status ∈ terminalStatuses := by
  rcases h.inbound_status hdir with hs | hs <;> rw [hs] <;> decide

/-- The creation time of an inbound row is the stamp of its event. -/
theorem Came.createdAt {event : List (PyStr × Json PyStr)} {now : Time}
    (hrun : Run lib cfg (Sys.init env) tr s) (h : Came lib cfg tr m)
    (hreceives : Receives tr m.id event now) : m.createdAt = stampOf lib event now := by
  obtain ⟨event', now', number, r, hreceives', -, hnew, hcontent⟩ := h
  -- an id is drawn for one event
  obtain ⟨rfl, rfl⟩ := receives_unique hrun hreceives hreceives'
  have hcreated : m.createdAt = r.createdAt := congrArg (·.2.2.2.2.2.2.2.2.2) hcontent
  rw [hcreated]
  unfold newMessage at hnew
  split at hnew
  · cases hnew
    rfl
  · cases hnew

/-- **The stamp of the event decides.**  A message with a delivery is deleted by a sweep
    exactly when its event was stamped before the cutoff. -/
theorem prunable_iff (hrun : Run lib cfg (Sys.init env) tr s) (hm : m ∈ s.db.messages)
    (hpending : s.HasPending m.id) (now : Time) :
    isPrunable cfg now m = true ↔ ∃ event received, Receives tr m.id event received ∧
      stampOf lib event received < now - days cfg.retentionDays := by
  obtain ⟨d, hd, hid, -⟩ := hpending
  have hdir := (parents_reachable hrun).stored d hd m hm hid.symm
  have hterminal := ((inv_reachable hrun).row m hm).1.inbound_terminal hdir
  have hcame := (provenance_reachable hrun).stored m hm hdir
  -- an inbound row is terminal from the start, so only its age counts
  have hstamp : isPrunable cfg now m = true ↔ m.createdAt < now - days cfg.retentionDays := by
    simp [isPrunable, hterminal]
  rw [hstamp]
  constructor
  · intro hold
    obtain ⟨event, received, _, _, hreceives, -⟩ := id hcame
    exact ⟨event, received, hreceives, hcame.createdAt hrun hreceives ▸ hold⟩
  · rintro ⟨event, received, hreceives, hold⟩
    rwa [hcame.createdAt hrun hreceives]

/-- What a sweep does to the database. -/
theorem db_of_prune {now : Time} (hstep : Step lib cfg s (.prune now) t) :
    t.db = prune cfg now s.db := by
  cases (trans_of_step hstep).2
  rfl

/-- No sweep of the run deletes a message that has a pending delivery. -/
def SparesPending (lib : Lib) (cfg : Settings) (env : Env) (tr : List Action) : Prop :=
  ∀ tr₁ now tr₂ s t, tr = tr₁ ++ .prune now :: tr₂ → Run lib cfg (Sys.init env) tr₁ s →
    Step lib cfg s (.prune now) t → ∀ m ∈ s.db.messages, s.HasPending m.id → m ∈ t.db.messages

/-- At every sweep of the run, the events of the messages that have a pending delivery are
    stamped within the retention window. -/
def StampsWithinWindow (lib : Lib) (cfg : Settings) (env : Env) (tr : List Action) : Prop :=
  ∀ tr₁ now tr₂ s, tr = tr₁ ++ .prune now :: tr₂ → Run lib cfg (Sys.init env) tr₁ s →
    ∀ id, s.HasPending id → ∀ event received, Receives tr₁ id event received →
      now - days cfg.retentionDays ≤ stampOf lib event received

/-- **Retention and fan-out.**  The sweeps of a run delete no message with a pending
    delivery exactly when the gateway has stamped the events of such messages within the
    retention window before each sweep. -/
theorem prune_spares_pending_iff (hrun : Run lib cfg (Sys.init env) tr t) :
    SparesPending lib cfg env tr ↔ StampsWithinWindow lib cfg env tr := by
  constructor
  · intro hspares tr₁ now tr₂ s htr hs id hpending event received hreceives
    subst htr
    obtain ⟨u, hstep, -⟩ := (run_rest hrun hs).cons_inv
    obtain ⟨d, hd, rfl, hstatus⟩ := hpending
    -- the message of the delivery was spared, so it was not old enough
    obtain ⟨m, hm, hid⟩ := List.mem_map.mp (s.db.integrity.fkMessage d hd)
    rw [← hid] at hreceives
    have hpending' : s.HasPending m.id := ⟨d, hd, hid.symm, hstatus⟩
    have hkept := hspares tr₁ now tr₂ s u rfl hs hstep m hm hpending'
    rw [db_of_prune hstep] at hkept
    have hnot : ¬ isPrunable cfg now m = true := by
      simpa using (Store.mem_deleteMessages.mp hkept).2
    rw [prunable_iff hs hm hpending'] at hnot
    exact Int.not_lt.mp fun hlt => hnot ⟨event, received, hreceives, hlt⟩
  · intro hwithin tr₁ now tr₂ s u htr hs hstep m hm hpending
    rw [db_of_prune hstep]
    refine Store.mem_deleteMessages.mpr ⟨hm, ?_⟩
    by_contra hprunable
    obtain ⟨event, received, hreceives, hlt⟩ :=
      (prunable_iff hs hm hpending now).mp (by simpa using hprunable)
    exact absurd (hwithin tr₁ now tr₂ s htr hs m.id hpending event received hreceives)
      (Int.not_le.mpr hlt)

end

namespace Sample

/-- `datetime.fromisoformat` on the first moment of 1969, a year before the epoch. -/
def datedLib : Lib :=
  { lib with
    fromisoformat := fun s =>
      if s = "1969-01-01T00:00:00+00:00" then some ⟨-days 365, some 0⟩ else none }

/-- A text that the phone says it got at the given time. -/
def textAt (receivedAt : String) : List (PyStr × Json PyStr) :=
  [("event", .str "sms:received"), ("id", .str "e1"),
    ("payload", .obj [("phoneNumber", .str "+12025550101"), ("message", .str "hi"),
      ("receivedAt", .str receivedAt)])]

/-- The text is stored for one subscriber, and the sweep comes before the fan-out loop. -/
def swept (receivedAt : String) : List Action :=
  [.inbound 0 (.begin (.ok (.obj (textAt receivedAt)))), .inbound 0 .select] ++
    store 0 "m1" ["d1"] 1

/-- The messages, and the messages with a pending delivery. -/
def pendingIds (s : Sys) : List String × List (String × DeliveryStatus) :=
  (s.db.messages.map Message.id, s.db.deliveries.map fun d => (d.messageId, d.status))

end Sample

/-- A text without a stamp of the phone is stamped by the relay, and the sweep spares it. -/
theorem prune_spares_pending_iff_unstamped : ∃ t,
    Run Sample.lib Sample.cfg (Sys.init Sample.subscribed) (Sample.swept "" ++ [.prune 2]) t ∧
    Sample.pendingIds t = (["m1"], [("m1", .pending)]) ∧
    SparesPending Sample.lib Sample.cfg Sample.subscribed (Sample.swept "" ++ [.prune 2]) := by
  obtain ⟨t, hrun, ht⟩ : ∃ t, Run Sample.lib Sample.cfg (Sys.init Sample.subscribed)
      (Sample.swept "" ++ [.prune 2]) t ∧ Sample.pendingIds t = (["m1"], [("m1", .pending)]) :=
    run_of_exec_map (by decide +kernel)
  refine ⟨t, hrun, ht, (prune_spares_pending_iff hrun).mpr ?_⟩
  rintro tr₁ now tr₂ s htr - id - event received ⟨tr₃, call, tr₄, rfl, -⟩
  have hnow : now = 2 := by
    have hmem : Action.prune now ∈ Sample.swept "" ++ [.prune 2] := by rw [htr]; simp
    simpa [Sample.swept, Sample.store] using hmem
  have hreceived : received = 1 := by
    have hmem : Action.inbound call (.flush id received) ∈ Sample.swept "" ++ [.prune 2] := by
      rw [htr]
      simp
    simp [Sample.swept, Sample.store] at hmem
    exact hmem.2.2
  -- the sample library parses no timestamp, so every stamp is the clock of the flush
  have hstamp : stampOf Sample.lib event received = received := by
    unfold stampOf parseTimestamp
    split
    · rfl
    · rfl
  rw [hstamp, hnow, hreceived]
  decide

/-- The phone stamped the text a year before the epoch.  The sweep deletes the message, and
    its delivery goes with it before the first attempt. -/
theorem not_prune_spares_pending_backdated : ¬ SparesPending Sample.datedLib Sample.cfg
    Sample.subscribed (Sample.swept "1969-01-01T00:00:00Z" ++ [.prune 2]) := by
  intro hspares
  obtain ⟨s, t, hs, hrun, hms, hmt⟩ : ∃ s t,
      Run Sample.datedLib Sample.cfg (Sys.init Sample.subscribed)
        (Sample.swept "1969-01-01T00:00:00Z") s ∧
      Run Sample.datedLib Sample.cfg s [.prune 2] t ∧
      Sample.pendingIds s = (["m1"], [("m1", .pending)]) ∧ Sample.pendingIds t = ([], []) :=
    run_of_exec_map₂ (by decide +kernel) (by decide +kernel)
  obtain ⟨hids, hpending⟩ := Prod.mk.inj hms
  obtain ⟨u, hstep, hnil⟩ := hrun.cons_inv
  obtain rfl := hnil.nil_inv
  obtain ⟨m, hm, hid⟩ : ∃ m ∈ s.db.messages, m.id = "m1" :=
    List.mem_map.mp (by rw [hids]; exact List.mem_singleton.mpr rfl)
  obtain ⟨d, hd, hpair⟩ : ∃ d ∈ s.db.deliveries, (d.messageId, d.status) = ("m1", .pending) :=
    List.mem_map.mp (by rw [hpending]; exact List.mem_singleton.mpr rfl)
  obtain ⟨hmessage, hstatus⟩ := Prod.mk.inj hpair
  -- the sweep at 2 would have spared the row
  have hkept := hspares _ 2 [] s u rfl hs hstep m hm ⟨d, hd, hmessage.trans hid.symm, hstatus⟩
  have hgone : u.db.messages = [] := by simpa [Sample.pendingIds] using (Prod.mk.inj hmt).1
  rw [hgone] at hkept
  cases hkept

end SmsRelay
