import SmsRelay.Spec.Queue

/-!
# Terminal statuses

`TERMINAL_STATUSES` are meant to be final, and two writers do not look: the status
loop commits answers to a snapshot that may be old by then, and a pushed receipt only
looks at the provider id.

## Key results

- `keepsTerminal_iff`: which steps leave every terminal status alone
- `absorbing_iff`: terminal statuses are final along exactly the runs of such steps
-/

namespace SmsRelay

open UnitOfWork Transition

/-- A terminal row is only ever touched by the status poll and by receipts. -/
theorem leftQueue_of_terminal {m : Message} (h : m.status ∈ terminalStatuses) : m.LeftQueue := by
  constructor <;> intro hs <;> simp [hs, terminalStatuses] at h

/-- No row reaches a terminal status and then another status. -/
def Absorbing (lib : Lib) (cfg : Settings) (s₀ : Sys) (tr : List Action) : Prop :=
  ∀ tr₁ tr₂ tr₃ s t, tr = tr₁ ++ tr₂ ++ tr₃ → Run lib cfg s₀ tr₁ s → Run lib cfg s tr₂ t →
    ∀ m ∈ s.db.messages, m.status ∈ terminalStatuses →
      (∀ r ∈ t.db.messages, r.id = m.id → r = { m with updatedAt := r.updatedAt }) ∧
      ((∀ r ∈ t.db.messages, r.id ≠ m.id) → ∃ now, Action.prune now ∈ tr₂)

/-- A poll's commit finds no row that has meanwhile reached another terminal status,
    and a receipt's commit no row that is terminal in another way than `delivered`. -/
def KeepsTerminal (s : Sys) : Action → Prop
  | .status (.commit _) => ∀ o ∈ s.status.objs, o.Dirty → ∀ r ∈ s.db.messages,
      r.id = o.loaded.id → r.status ∈ terminalStatuses → r.status = o.current.status
  | .inbound call (.commit _) => ∀ o ∈ (s.inbounds call).receiptObj, o.Dirty →
      ∀ r ∈ s.db.messages, r.id = o.loaded.id → r.status ∈ terminalStatuses →
        r.status = .delivered
  | _ => True

instance (s : Sys) (a : Action) : Decidable (KeepsTerminal s a) := by
  unfold KeepsTerminal
  split <;> infer_instance

/-- What a step does to a terminal row. -/
theorem terminal_step {lib : Lib} {cfg : Settings} {s t : Sys} {a : Action} (hi : Inv cfg s)
    (h : Trans lib cfg s a t) {m r : Message} (hm : m ∈ s.db.messages)
    (hs : m.status ∈ terminalStatuses) (hr : r ∈ t.db.messages) (hid : r.id = m.id) :
    r = m ∨ RowCause s m a r := by
  rcases rows_origin hi h hr with ⟨r₀, hr₀, rfl | hcause⟩ | ⟨c, -, hrow, -⟩
  · exact .inl (Store.eq_of_id hr₀ hm hid)
  · have hid₀ : r.id = r₀.id := Message.id_eq_of_content (hcause.change hi hr₀).frame
    obtain rfl := Store.eq_of_id hr₀ hm (hid₀.symm.trans hid)
    exact .inr hcause
  · exact absurd ⟨r, hrow, hid⟩ ((hi.row m hm).2.2 c)

/-- **Which steps leave every terminal status alone.** -/
theorem keepsTerminal_iff {lib : Lib} {cfg : Settings} {s t : Sys} {a : Action}
    (hi : Inv cfg s) (h : Trans lib cfg s a t) :
    KeepsTerminal s a ↔ ∀ m ∈ s.db.messages, m.status ∈ terminalStatuses →
      ∀ r ∈ t.db.messages, r.id = m.id → r.status = m.status := by
  constructor
  · intro hkeep m hm hs r hr hid
    rcases terminal_step hi h hm hs hr hid with rfl | hcause
    · rfl
    · cases hcause with
      | send ho hloaded =>
        -- the send loop's objects are in the queue
        have hq := ((hi.send.objs.2 _ ho).2).inQueue
        rw [hloaded] at hq
        exact absurd hq (not_or.mpr (leftQueue_of_terminal hs))
      | poll hpc ho hdirty hload => exact (hkeep _ (hpc ▸ ho) hdirty m hm hload.symm hs).symm
      | receipt hpc hdirty hload =>
        exact (hkeep _ (by rw [hpc]; rfl) hdirty m hm hload.symm hs).symm
  · intro hsame
    cases h with
    | status h =>
      generalize hpc : s.status = pc₀ at h
      cases h with
      | @commit objs now db hdb =>
        intro o ho hdirty r hr hid hs
        have hcur := fun o ho hd => ((hi.status o ho).1.current_eq hd).1
        have hobjs : s.status.objs = objs := congrArg StatusLoop.Pc.objs hpc
        rw [← hobjs] at hdb
        have hmem := mem_update_status hdb hcur hi.status_nodup ho hdirty hr hid
        exact (hsame r hr hs _ hmem rfl).symm
      | _ => trivial
    | @inbound call _ _ _ h =>
      generalize hpc : s.inbounds call = pc₀ at h
      cases h with
      | @receiptCommit o₀ now _ hdb =>
        intro o ho hdirty r hr hid hs
        have hcur := (hi.receipt call o ho).1
        obtain rfl : o₀ = o := by simpa [hpc, Inbound.Pc.receiptObj] using ho
        have hstatus : o₀.current.status = .delivered := by rw [hcur]; rfl
        have hmem := mem_update_status hdb
          (fun o ho _ => by rw [List.mem_singleton.mp ho, hcur]; rfl) (by simp)
          (List.mem_singleton.mpr rfl) hdirty hr hid
        exact (hsame r hr hs _ hmem rfl).symm.trans hstatus
      | commit | unbindable =>
        intro o ho
        simp [hpc, Inbound.Pc.receiptObj] at ho
      | _ => trivial
    | _ => trivial

/-- Along steps that leave terminal statuses alone, a terminal row only gets new stamps,
    and only the retention sweep removes it. -/
theorem absorbing_of_keepsTerminal {lib : Lib} {cfg : Settings} {s t : Sys}
    {tr : List Action} (hi : Inv cfg s)
    (hrun : Transition.Run (Guarded KeepsTerminal (Step lib cfg)) s tr t) {m : Message}
    (hm : m ∈ s.db.messages) (hs : m.status ∈ terminalStatuses) :
    (∃ r ∈ t.db.messages, r = { m with updatedAt := r.updatedAt }) ∨
      ((∀ r ∈ t.db.messages, r.id ≠ m.id) ∧ ∃ now, Action.prune now ∈ tr) := by
  induction hrun with
  | nil => exact .inl ⟨m, hm, rfl⟩
  | @snoc tr u a t hrun hstep ih =>
    have hiu := inv_run hi hrun.unguard
    obtain ⟨hkeep, hstep⟩ := hstep
    obtain ⟨-, h⟩ := trans_of_step hstep
    rcases ih with ⟨r, hr, heq⟩ | ⟨hgone, now, hnow⟩
    · have hrs : r.status ∈ terminalStatuses := by rw [heq]; exact hs
      have hid : r.id = m.id := by rw [heq]
      rcases rows_fate hiu h hr with ⟨r', hr', rfl | hcause⟩ | ⟨now, rfl, hprune⟩
      · exact .inl ⟨_, hr', heq⟩
      · have hchange := hcause.change hiu hr
        have hsame := (keepsTerminal_iff hiu h).mp hkeep r hr hrs r' hr'
          (Message.id_eq_of_content hchange.frame)
        refine .inl ⟨r', hr', ?_⟩
        rw [leftQueue_frozen (leftQueue_of_terminal hrs) hchange, hsame, heq]
      · refine .inr ⟨fun r' hr' hid' => ?_, now, by simp⟩
        cases h with
        | prune =>
          obtain ⟨hold, hkept⟩ := Store.mem_deleteMessages.mp hr'
          rw [Store.eq_of_id hold hr (hid'.trans hid.symm), hprune] at hkept
          cases hkept
    · exact .inr ⟨((hi.row m hm).2.run hrun.unguard).stays_gone hiu h hgone, now,
        List.mem_append_left _ hnow⟩

/-- **Terminal statuses are final along a run exactly when each of its steps leaves them
    alone**: no commit of a polled answer finds its row in another terminal status, and
    no receipt's commit finds it failed, received or published. -/
theorem absorbing_iff {lib : Lib} {cfg : Settings} {env : Env} {tr : List Action} {t : Sys}
    (hrun : Run lib cfg (Sys.init env) tr t) :
    Transition.Run (Guarded KeepsTerminal (Step lib cfg)) (Sys.init env) tr t ↔
      Absorbing lib cfg (Sys.init env) tr := by
  constructor
  · rintro hguard tr₁ tr₂ tr₃ s u rfl h₁ h₂ m hm hs
    obtain ⟨u', h₁₂, -⟩ := hguard.split
    obtain ⟨s', h₁', h₂'⟩ := h₁₂.split
    obtain rfl := run_unique h₁ h₁'.unguard
    obtain rfl := run_unique h₂ h₂'.unguard
    rcases absorbing_of_keepsTerminal (inv_reachable h₁) h₂' hm hs with
      ⟨r, hr, heq⟩ | ⟨hgone, hprune⟩
    · refine ⟨fun r' hr' hid => ?_, fun hgone => absurd (by rw [heq]) (hgone r hr)⟩
      obtain rfl := Store.eq_of_id hr' hr (hid.trans (by rw [heq]))
      exact heq
    · exact ⟨fun r hr hid => absurd hid (hgone r hr), fun _ => hprune⟩
  · intro habs
    induction hrun with
    | nil => exact .nil
    | @snoc tr u a t hrun hstep ih =>
      have hi := inv_reachable hrun
      obtain ⟨-, h⟩ := trans_of_step hstep
      refine (ih ?_).snoc ⟨(keepsTerminal_iff hi h).mpr fun m hm hs r hr hid => ?_, hstep⟩
      · rintro tr₁ tr₂ tr₃ s v rfl
        exact habs tr₁ tr₂ (tr₃ ++ [a]) s v (by simp)
      · have heq := (habs tr [a] [] u t (by simp) hrun (.single hstep) m hm hs).1 r hr hid
        rw [heq]

namespace Sample

/-- The gateway's answer to a poll. -/
def polled (id state : String) : Action :=
  .status (.fetched id (.gateway (.ok ⟨200, "", .ok (.obj [("state", .str state)])⟩)))

/-- The gateway pushes an `sms:delivered` receipt. -/
def receipt (call : Nat) (providerId : String) (now : Time) : List Action :=
  [.inbound call (.begin (.ok (.obj [("event", .str "sms:delivered"),
      ("payload", .obj [("messageId", .str providerId)])]))),
    .inbound call .select, .inbound call (.commit now)]

/-- A poll and then a receipt say that a sent message was delivered. -/
def deliveredTwice : List Action :=
  sent ++ [.status (.select 3), polled "m1" "Delivered", .status (.commit 4)] ++ receipt 0 "g1" 5

end Sample

/-- A message that the status loop has found delivered stays so through a receipt. -/
theorem absorbing_iff_delivered : ∃ t,
    Run Sample.lib Sample.cfg (Sys.init Sample.env) Sample.deliveredTwice t ∧
    Sample.statuses t = [("m1", .delivered)] ∧
    Absorbing Sample.lib Sample.cfg (Sys.init Sample.env) Sample.deliveredTwice := by
  obtain ⟨t, ht, hrows⟩ : ∃ t, exec (fun s a => if KeepsTerminal s a then
      step Sample.lib Sample.cfg s a else none) (Sys.init Sample.env) Sample.deliveredTwice =
        some t ∧ Sample.statuses t = [("m1", .delivered)] :=
    Option.map_eq_some_iff.mp (by decide +kernel)
  have hguard := guarded_of_exec ht
  exact ⟨t, hguard.unguard, hrows, (absorbing_iff hguard.unguard).mp hguard⟩

/-- The poll asks for a sent message and hears `Failed`; before it commits, a receipt marks
    the message delivered; the poll's commit then takes it to failed. -/
theorem not_absorbing_stale_poll : ¬ Absorbing Sample.lib Sample.cfg (Sys.init Sample.env)
    (Sample.sent ++ [.status (.select 3), Sample.polled "m1" "Failed"] ++
      Sample.receipt 0 "g1" 4 ++ [.status (.commit 5)]) := by
  intro habs
  obtain ⟨s, t, h₁, h₂, hs, ht⟩ : ∃ s t, Run Sample.lib Sample.cfg (Sys.init Sample.env)
      (Sample.sent ++ [.status (.select 3), Sample.polled "m1" "Failed"] ++
        Sample.receipt 0 "g1" 4) s ∧ Run Sample.lib Sample.cfg s [.status (.commit 5)] t ∧
      Sample.statuses s = [("m1", .delivered)] ∧ Sample.statuses t = [("m1", .failed)] :=
    run_of_exec_map₂ (by decide +kernel) (by decide +kernel)
  obtain ⟨m, hm, hid, hdelivered⟩ := Sample.mem_of_statuses
    (show ("m1", .delivered) ∈ Sample.statuses s by rw [hs]; exact List.mem_singleton.mpr rfl)
  obtain ⟨r, hr, hid', hfailed⟩ := Sample.mem_of_statuses
    (show ("m1", .failed) ∈ Sample.statuses t by rw [ht]; exact List.mem_singleton.mpr rfl)
  have heq := (habs _ _ [] s t (by simp) h₁ h₂ m hm (by simp [hdelivered, terminalStatuses])).1
    r hr (hid'.trans hid.symm)
  rw [heq, hdelivered] at hfailed
  cases hfailed

end SmsRelay
