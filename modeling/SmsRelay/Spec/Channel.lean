import SmsRelay.Spec.Queue

/-!
# The choice of channel

A message with an ntfy route is either published or sent as a text message.  The choice
is written down before the text message goes out, so it survives crashes: nothing is
published after a text message was handed over, and nothing is sent after a published
one was recorded.

## Key results

- `channel_one_way`: the order of external calls and of what was committed before them
-/

namespace SmsRelay

open Transition

/-- What the send loop holds when it calls the provider: a row being sent, not for ntfy. -/
theorem providerSend_row {lib : Lib} {cfg : Settings} {s t : Sys} {id : String}
    (hi : Inv cfg s) (hstep : Step lib cfg s (.send (.providerSend id)) t) :
    ∃ m ∈ s.db.messages, m.id = id ∧ m.status = .sending ∧ m.transport ≠ .ntfy := by
  obtain ⟨-, htrans⟩ := trans_of_step hstep
  have hsend := hi.send
  cases htrans with
  | send h =>
    generalize s.send = pc at h hsend
    cases h with
    | providerSend => exact ⟨_, hsend.1, rfl, hsend.2⟩

/-- What the send loop holds when it calls `publish`: a row being sent, for ntfy. -/
theorem publish_row {lib : Lib} {cfg : Settings} {s t : Sys} {id : String}
    (hi : Inv cfg s) (hstep : Step lib cfg s (.send (.publish id)) t) :
    ∃ m ∈ s.db.messages, m.id = id ∧ m.status = .sending ∧ m.transport = .ntfy := by
  obtain ⟨-, htrans⟩ := trans_of_step hstep
  have hsend := hi.send
  cases htrans with
  | send h =>
    generalize s.send = pc at h hsend
    cases h with
    | publish => exact ⟨_, hsend.1, rfl, hsend.2⟩

variable {lib : Lib} {cfg : Settings} {env : Env} {tr : List Action} {t : Sys}

/-- No publication follows a call of the provider for the same message. -/
theorem no_publish_after_providerSend (hrun : Run lib cfg (Sys.init env) tr t) (id : String) :
    tr.Pairwise fun b a => b = .send (.providerSend id) → ¬ a = .send (.publish id) := by
  refine Run.pairwise_never (fun tr u a v hrun hstep ha b hb hbid => ?_) hrun
  subst ha hbid
  obtain ⟨tr₁, tr₂, s, s', -, h₁, hsend, h₂⟩ := hrun.of_mem hb
  obtain ⟨m, hm, hid, -, hsms⟩ := providerSend_row (inv_reachable h₁) hsend
  obtain ⟨r, hr, hid', -, hntfy⟩ := publish_row (inv_reachable hrun) hstep
  have hevolved := evolved_run (inv_reachable h₁) ((Run.single hsend).append h₂) hm hr
    (hid'.trans hid.symm)
  exact not_ntfy_evolved hsms hevolved hntfy

/-- A message whose row has left the queue is not handed to anybody again. -/
theorem no_call_after_leftQueue {s : Sys} {tr₂ : List Action} (hi : Inv cfg s)
    (hrun : Run lib cfg s tr₂ t) {m : Message} (hm : m ∈ s.db.messages) (hleft : m.LeftQueue) :
    Action.send (.publish m.id) ∉ tr₂ ∧ Action.send (.providerSend m.id) ∉ tr₂ := by
  have hnone : ∀ {u : Sys} {tr : List Action} {r : Message}, Run lib cfg s tr u →
      r ∈ u.db.messages → r.id = m.id → r.status ≠ .sending := fun hrun hr hid =>
    (leftQueue_evolved hleft (evolved_run hi hrun hm hr hid)).2
  constructor <;> intro hmem <;> obtain ⟨tr₁, tr₃, u, v, -, h₁, hstep, -⟩ := hrun.of_mem hmem
  · obtain ⟨r, hr, hid, hs, -⟩ := publish_row (inv_run hi h₁) hstep
    exact hnone h₁ hr hid hs
  · obtain ⟨r, hr, hid, hs, -⟩ := providerSend_row (inv_run hi h₁) hstep
    exact hnone h₁ hr hid hs

/-- A message that was for ntfy is only handed to the provider once its row says so. -/
theorem fallback_before_providerSend {s u v : Sys} {tr₂ : List Action} (hi : Inv cfg s)
    (hrun : Run lib cfg s tr₂ u) {m : Message} (hm : m ∈ s.db.messages)
    (hntfy : m.transport = .ntfy) (hstep : Step lib cfg u (.send (.providerSend m.id)) v) :
    ∃ r ∈ u.db.messages, r.id = m.id ∧ r.transport = .smsFallback := by
  have hu := inv_run hi hrun
  obtain ⟨r, hr, hid, -, hsms⟩ := providerSend_row hu hstep
  have htopic := Message.topic_eq_of_content (evolved_run hi hrun hm hr hid).frame
  refine ⟨r, hr, hid, ?_⟩
  rcases sms_of_not_ntfy hsms with ht | ht
  · -- a plain text message has no topic, and the message had one
    have hnone := htopic.symm.trans ((hu.row r hr).1.sms.mp ht)
    rw [(hi.row m hm).1.sms.mpr hnone] at hntfy
    cases hntfy
  · exact ht

/-- **The choice of channel is one-way**, along every run and for every message:
    no publication follows a call of the provider; once `published` is committed neither
    is called again; and whenever the provider is called for a message that was
    committed for ntfy, the fallback is already committed. -/
theorem channel_one_way (hrun : Run lib cfg (Sys.init env) tr t) (id : String) :
    (tr.Pairwise fun b a => b = .send (.providerSend id) → ¬ a = .send (.publish id)) ∧
    (∀ tr₁ tr₂ s, tr = tr₁ ++ tr₂ → Run lib cfg (Sys.init env) tr₁ s →
      (∃ m ∈ s.db.messages, m.id = id ∧ m.status = .published) →
        Action.send (.publish id) ∉ tr₂ ∧ Action.send (.providerSend id) ∉ tr₂) ∧
    (∀ tr₀ tr₁ tr₂ s₀ s, tr = tr₀ ++ tr₁ ++ .send (.providerSend id) :: tr₂ →
      Run lib cfg (Sys.init env) tr₀ s₀ → Run lib cfg s₀ tr₁ s →
      (∃ m ∈ s₀.db.messages, m.id = id ∧ m.transport = .ntfy) →
        ∃ r ∈ s.db.messages, r.id = id ∧ r.transport = .smsFallback) := by
  refine ⟨no_publish_after_providerSend hrun id, ?_, ?_⟩
  · rintro tr₁ tr₂ s rfl h₁ ⟨m, hm, rfl, hs⟩
    exact no_call_after_leftQueue (inv_reachable h₁) (run_rest hrun h₁) hm
      ⟨by rw [hs]; exact nofun, by rw [hs]; exact nofun⟩
  · rintro tr₀ tr₁ tr₂ s₀ s rfl h₀ h₁ ⟨m, hm, rfl, hntfy⟩
    -- the call comes after the commit of the ntfy row
    obtain ⟨u, hstep, -⟩ := (run_rest hrun (h₀.append h₁)).cons_inv
    exact fallback_before_providerSend (inv_reachable h₀) h₁ hm hntfy hstep

namespace Sample

/-- A deployment whose service `svc` publishes to the owner's topic. -/
def ntfyCfg : Settings := { Sample.cfg with ntfyUrl := "https://ntfy.example" }

def ntfyEnv : Env where
  notificationRoutes :=
    [("svc", .obj [("to", .str "+12025550101"), ("topic", .str "alerts")])]
  subscribers := .ok []

/-- ntfy does not answer, and the message goes out as a text message. -/
def fellBack : List Action :=
  queue "m1" 0 ++
    [.send (.requeueSelect 1 1), .send (.claimSelect 1 (some "m1")), .send (.commit 1),
      .send (.publish "m1"), .send (.publishReply "m1" (.error .timeout) 9),
      .send (.commit 9), .send (.providerSend "m1")]

end Sample

/-- A fallback run, in which both channels are tried. -/
theorem channel_one_way_fellBack : ∃ t,
    Run Sample.lib Sample.ntfyCfg (Sys.init Sample.ntfyEnv) Sample.fellBack t ∧
    (t.db.messages.map fun m => (m.id, m.transport)) = [("m1", .smsFallback)] ∧
    Sample.fellBack.Pairwise fun b a =>
      b = .send (.providerSend "m1") → ¬ a = .send (.publish "m1") := by
  obtain ⟨t, hrun, ht⟩ : ∃ t,
      Run Sample.lib Sample.ntfyCfg (Sys.init Sample.ntfyEnv) Sample.fellBack t ∧
      (t.db.messages.map fun m => (m.id, m.transport)) = [("m1", .smsFallback)] :=
    run_of_exec_map (f := fun t : Sys => t.db.messages.map fun m => (m.id, m.transport))
      (by decide +kernel)
  exact ⟨t, hrun, ht, (channel_one_way hrun "m1").1⟩

end SmsRelay
