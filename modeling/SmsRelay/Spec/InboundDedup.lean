import SmsRelay.Spec.Queue

/-!
# Deduplication of inbound messages

The gateway redelivers an event until it hears a 2xx, and `android_gateway_inbound` looks
for the event's id before it adds a row.  Nothing in the schema backs the lookup: two
handlers of one event can both find nothing.

## Key results

- `inboundUnique_step`: a step keeps the rows apart unless a handler commits an id that
  was committed after its lookup
- `inbound_dedup_iff`: deduplication works along exactly the runs of such steps
-/

namespace SmsRelay

open UnitOfWork Transition

namespace Inbound

/-- No two inbound rows have one provider id. -/
def Unique (db : Store) : Prop :=
  ∀ m ∈ db.messages, ∀ m' ∈ db.messages, m.direction = .inbound → m'.direction = .inbound →
    ∀ p, p ≠ "" → m.providerMessageId = some p → m'.providerMessageId = some p → m = m'

theorem mem_alreadyStored {db : Store} {p : String} {m : Message} :
    m ∈ alreadyStored db p ↔
      m ∈ db.messages ∧ m.direction = .inbound ∧ m.providerMessageId = some p := by
  simp [alreadyStored, List.mem_filter]

/-- At most one row for each id is what the lookup relies on. -/
theorem unique_iff_length {db : Store} :
    Unique db ↔ ∀ p, p ≠ "" → (alreadyStored db p).length ≤ 1 := by
  constructor
  · intro h p hp
    have hall : ∀ m ∈ alreadyStored db p, ∀ m' ∈ alreadyStored db p, m = m' := by
      intro m hm m' hm'
      obtain ⟨hmem, hdir, hpid⟩ := mem_alreadyStored.mp hm
      obtain ⟨hmem', hdir', hpid'⟩ := mem_alreadyStored.mp hm'
      exact h m hmem m' hmem' hdir hdir' p hp hpid hpid'
    rcases Store.select_cases hall with hnone | ⟨m, hone⟩
    · rw [alreadyStored, hnone]
      exact Nat.zero_le 1
    · rw [alreadyStored, hone]
      exact Nat.le_refl 1
  · intro h m hm m' hm' hdir hdir' p hp hpid hpid'
    have hmem := mem_alreadyStored.mpr ⟨hm, hdir, hpid⟩
    have hmem' := mem_alreadyStored.mpr ⟨hm', hdir', hpid'⟩
    have hlen := h p hp
    cases hrows : alreadyStored db p with
    | nil =>
      rw [hrows] at hmem
      cases hmem
    | cons r rows =>
      rw [hrows] at hmem hmem' hlen
      obtain rfl : rows = [] := List.eq_nil_of_length_eq_zero (by simpa using hlen)
      rw [List.mem_singleton.mp hmem, List.mem_singleton.mp hmem']

/-- A lookup that finds at most one row answers; with a stored event, `duplicate`. -/
theorem afterDedup_of_unique {db : Store} (h : Unique db) {draft : Draft} {p : String}
    (hp : p ≠ "") (hid : draft.providerId = .text p) :
    (∀ e, afterDedup db draft ≠ .done (.raised e)) ∧
      ∀ m ∈ db.messages, m.direction = .inbound → m.providerMessageId = some p →
        afterDedup db draft = .done (.duplicate m.id) := by
  have hlen := unique_iff_length.mp h p hp
  -- `scalar_one_or_none` has nothing to complain of
  have hone : ∀ m ∈ alreadyStored db p, alreadyStored db p = [m] := by
    intro m hm
    obtain ⟨r, hr⟩ := List.length_eq_one_iff.mp
      (Nat.le_antisymm hlen (List.length_pos_of_mem hm))
    rw [hr] at hm ⊢
    rw [List.mem_singleton.mp hm]
  unfold afterDedup
  rw [hid, PyStr.encode_text]
  constructor
  · intro e
    dsimp only
    cases hrows : alreadyStored db p with
    | nil => exact nofun
    | cons m rows =>
      rw [hrows] at hlen
      obtain rfl : rows = [] := List.eq_nil_of_length_eq_zero (by simpa using hlen)
      exact nofun
  · intro m hm hdir hpid
    dsimp only
    rw [hone m (mem_alreadyStored.mpr ⟨hm, hdir, hpid⟩)]
    rfl

end Inbound

/-! ## Inbound rows over time -/

/-- An inbound row is never in the queue, so its columns stay what they are. -/
theorem inbound_leftQueue {cfg : Settings} {m : Message} (h : RowInv cfg m)
    (hdir : m.direction = .inbound) : m.LeftQueue := by
  constructor <;> intro hs
  · rw [(h.pending (.inl hs)).1] at hdir
    cases hdir
  · rw [(h.pending (.inr hs)).1] at hdir
    cases hdir

/-- The direction and the provider id of an inbound row never change. -/
theorem inbound_frozen {cfg : Settings} {m r : Message} (hrow : RowInv cfg m)
    (he : Evolved cfg m r) (hdir : r.direction = .inbound) :
    m.direction = .inbound ∧ r.providerMessageId = m.providerMessageId := by
  have hdir' := (Message.direction_eq_of_content he.frame).symm.trans hdir
  exact ⟨hdir', by rw [frozen_evolved (inbound_leftQueue hrow hdir') he]⟩

/-- The inbound rows a step brings: old ones, or the row of a call that commits. -/
theorem inbound_origin {lib : Lib} {cfg : Settings} {s t : Sys} {a : Action} (hi : Inv cfg s)
    (h : Trans lib cfg s a t) {m : Message} (hm : m ∈ t.db.messages)
    (hdir : m.direction = .inbound) :
    (∃ r ∈ s.db.messages, r.id = m.id ∧ r.direction = .inbound ∧
        m.providerMessageId = r.providerMessageId) ∨
      ∃ call now, a = .inbound call (.commit now) ∧ (s.inbounds call).rows = [m] := by
  rcases rows_evolved hi h hm with ⟨r, hr, hevolved, hid⟩ | ⟨c, hcommit, hrow⟩
  · obtain ⟨hdir', hpid⟩ := inbound_frozen (hi.row r hr).1 hevolved hdir
    exact .inl ⟨r, hr, hid.symm, hdir', hpid⟩
  · cases c with
    | inl call =>
      -- `send_message` only adds outbound rows
      rw [(hi.call_row (.inl call) m hrow).1.2.1] at hdir
      cases hdir
    | inr call =>
      refine .inr ?_
      cases a with
      | inbound call' b =>
        cases b with
        | commit now =>
          obtain rfl : call' = call := by simpa [Action.commits] using hcommit
          refine ⟨call', now, rfl, ?_⟩
          simp only [Sys.callRows] at hrow
          cases hpc : s.inbounds call' <;> rw [hpc] at hrow <;>
            simp [Inbound.Pc.rows] at hrow ⊢ <;> exact hrow.symm
        | _ => cases hcommit
      | sendMessage call' b => cases b <;> cases hcommit
      | _ => cases hcommit

/-- The handler that commits finds no row with the id of its own: none was committed
    since its lookup. -/
def Unraced (s : Sys) : Action → Prop
  | .inbound call (.commit _) => ∀ m ∈ (s.inbounds call).rows, ∀ p, p ≠ "" →
      m.providerMessageId = some p → ∀ r ∈ s.db.messages, r.direction = .inbound →
        r.providerMessageId ≠ some p
  | _ => True

/-- **Such a step keeps the rows apart.** -/
theorem inboundUnique_step {lib : Lib} {cfg : Settings} {s t : Sys} {a : Action}
    (hi : Inv cfg s) (h : Trans lib cfg s a t) (hu : Inbound.Unique s.db)
    (hunraced : Unraced s a) : Inbound.Unique t.db := by
  intro m hm m' hm' hdir hdir' p hp hpid hpid'
  -- each of the two rows was there before or is committed by this step
  rcases inbound_origin hi h hm hdir with ⟨r, hr, hid, hrdir, heq⟩ | ⟨call, now, rfl, hrows⟩
  · rcases inbound_origin hi h hm' hdir' with
      ⟨r', hr', hid', hrdir', heq'⟩ | ⟨call, now, rfl, hrows⟩
    · obtain rfl := hu r hr r' hr' hrdir hrdir' p hp (heq.symm.trans hpid) (heq'.symm.trans hpid')
      exact Store.eq_of_id hm hm' (hid.symm.trans hid')
    · refine absurd (heq.symm.trans hpid) (hunraced m' ?_ p hp hpid' r hr hrdir)
      rw [hrows]
      exact List.mem_singleton.mpr rfl
  · rcases inbound_origin hi h hm' hdir' with
      ⟨r', hr', hid', hrdir', heq'⟩ | ⟨call', now', ha, hrows'⟩
    · refine absurd (heq'.symm.trans hpid') (hunraced m ?_ p hp hpid r' hr' hrdir')
      rw [hrows]
      exact List.mem_singleton.mpr rfl
    · obtain rfl : call = call' := by injection ha
      exact List.singleton_injective (hrows.symm.trans hrows')

/-- A handler that commits a second row for an id leaves both of them. -/
theorem unraced_of_unique {lib : Lib} {cfg : Settings} {s t : Sys} {a : Action}
    (hi : Inv cfg s) (h : Trans lib cfg s a t) (hu : Inbound.Unique t.db) : Unraced s a := by
  cases h with
  | @inbound call b db pc h =>
    generalize hpc : s.inbounds call = pc₀ at h
    cases h with
    | @commit m ds now _ hdb =>
      intro m' hm' p hp hpid r hr hrdir hrpid
      obtain rfl : m' = m := by simpa [hpc, Inbound.Pc.rows] using hm'
      have hrow : m' ∈ s.callRows (.inr call) := hm'
      have hms := (Store.insertInbound_eq_some.mp hdb).1
      obtain rfl : m' = r := hu m' (by rw [hms]; simp) r (by rw [hms]; simp [hr])
        (hi.call_row (.inr call) m' hrow).1.2.1 hrdir p hp hpid hrpid
      -- the call's row would be in the database already
      exact (hi.row m' hr).2.2 (.inr call) ⟨m', hrow, rfl⟩
    | unbindable | receiptCommit =>
      intro m' hm'
      simp [hpc, Inbound.Pc.rows] at hm'
    | _ => trivial
  | _ => trivial

variable {lib : Lib} {cfg : Settings} {env : Env} {tr : List Action} {t : Sys}

/-- Deduplication works along the run: in every state there is at most one inbound row
    for an id, no lookup of an id that a row can have raises, and a redelivery of an event
    that was stored is answered `duplicate` with the id of the row. -/
def Deduplicated (lib : Lib) (cfg : Settings) (s₀ : Sys) (tr : List Action) : Prop :=
  ∀ tr₁ tr₂ tr₃ s u, tr = tr₁ ++ tr₂ ++ tr₃ → Run lib cfg s₀ tr₁ s → Run lib cfg s tr₂ u →
    (∀ p, p ≠ "" → (Inbound.alreadyStored u.db p).length ≤ 1) ∧
    ∀ (draft : Inbound.Draft) (p : String), p ≠ "" → draft.providerId = .text p →
      (∀ e, Inbound.afterDedup u.db draft ≠ .done (.raised e)) ∧
      ∀ m ∈ s.db.messages, m.direction = .inbound → m.providerMessageId = some p →
        Inbound.afterDedup u.db draft = .done (.duplicate m.id)

/-- **Deduplication works along a run without pruning exactly when no handler commits an
    id that is committed already.** -/
theorem inbound_dedup_iff (hrun : Run lib cfg (Sys.init env) tr t)
    (hprune : ∀ now, Action.prune now ∉ tr) :
    Transition.Run (Guarded Unraced (Step lib cfg)) (Sys.init env) tr t ↔
      Deduplicated lib cfg (Sys.init env) tr := by
  constructor
  · rintro hguard tr₁ tr₂ tr₃ s u rfl h₁ h₂
    -- the guard keeps the rows apart up to `u`
    have hu : Inbound.Unique u.db := by
      obtain ⟨u', h₁₂, -⟩ := hguard.split
      obtain rfl := run_unique (h₁.append h₂) h₁₂.unguard
      exact h₁₂.traceInvariant (P := fun _ v => Inbound.Unique v.db)
        (fun m hm => absurd hm List.not_mem_nil) fun _ _ _ _ hrun hu hstep =>
          inboundUnique_step (inv_reachable hrun.unguard) (trans_of_step hstep.2).2 hu hstep.1
    refine ⟨Inbound.unique_iff_length.mp hu, fun draft p hp hpid => ?_⟩
    obtain ⟨hraise, hdup⟩ := Inbound.afterDedup_of_unique hu hp hpid
    refine ⟨hraise, fun m hm hdir hpid => ?_⟩
    have hi := inv_reachable h₁
    -- without pruning the row of `s` is still there in `u`, with the same columns
    obtain ⟨r, hr, hid⟩ := row_persists hi h₂
      (fun now hmem => hprune now (by simp [hmem])) hm
    have hevolved := evolved_run hi h₂ hm hr hid
    have hrdir := (Message.direction_eq_of_content hevolved.frame).trans hdir
    rw [← hid]
    exact hdup r hr hrdir ((inbound_frozen (hi.row m hm).1 hevolved hrdir).2.trans hpid)
  · intro hdedup
    induction hrun with
    | nil => exact .nil
    | @snoc tr u a t hrun hstep ih =>
      have hu : Inbound.Unique t.db := Inbound.unique_iff_length.mpr
        (hdedup tr [a] [] u t (by simp) hrun (.single hstep)).1
      -- a step that broke the guard would leave two rows for the id
      have hunraced := unraced_of_unique (inv_reachable hrun) (trans_of_step hstep).2 hu
      refine (ih (fun now hmem => hprune now (by simp [hmem])) ?_).snoc ⟨hunraced, hstep⟩
      rintro tr₁ tr₂ tr₃ s v rfl
      exact hdedup tr₁ tr₂ (tr₃ ++ [a]) s v (by simp)

namespace Sample

/-- The event is delivered again after it was stored. -/
def redelivered : List Action := deliver 0 "e1" ++ store 0 "m1" [] 1 ++ deliver 1 "e1"

/-- The event is delivered again while the first handler is between lookup and commit. -/
def overlapping : List Action :=
  deliver 0 "e1" ++ deliver 1 "e1" ++ store 0 "m1" [] 1 ++ store 1 "m2" [] 2

/-- The provider ids of the inbound rows. -/
def inboundIds (s : Sys) : List (Option String) :=
  (s.db.messages.filter fun m => m.direction = .inbound).map Message.providerMessageId

end Sample

/-- A redelivery in sequence. -/
theorem inbound_dedup_iff_redelivered : ∃ t,
    Run Sample.lib Sample.cfg (Sys.init Sample.env) Sample.redelivered t ∧
    Sample.inboundIds t = [some "e1"] ∧
    (Transition.Run (Guarded Unraced (Step Sample.lib Sample.cfg)) (Sys.init Sample.env)
        Sample.redelivered t ↔
      Deduplicated Sample.lib Sample.cfg (Sys.init Sample.env) Sample.redelivered) := by
  obtain ⟨t, hrun, hids⟩ : ∃ t,
      Run Sample.lib Sample.cfg (Sys.init Sample.env) Sample.redelivered t ∧
      Sample.inboundIds t = [some "e1"] := run_of_exec_map (by decide +kernel)
  exact ⟨t, hrun, hids, inbound_dedup_iff hrun
    (by simp [Sample.redelivered, Sample.deliver, Sample.store])⟩

/-- Two overlapping deliveries of one event leave two rows. -/
theorem not_deduplicated_overlapping :
    ¬ Deduplicated Sample.lib Sample.cfg (Sys.init Sample.env) Sample.overlapping := by
  intro hdedup
  obtain ⟨t, hrun, hrows⟩ : ∃ t,
      Run Sample.lib Sample.cfg (Sys.init Sample.env) Sample.overlapping t ∧
      (Inbound.alreadyStored t.db "e1").length = 2 :=
    run_of_exec_map (f := fun t : Sys => (Inbound.alreadyStored t.db "e1").length)
      (by decide +kernel)
  have hle := (hdedup Sample.overlapping [] [] t t (by simp) hrun .nil).1 "e1" (by decide)
  omega

end SmsRelay
