import SmsRelay.Spec.Isolation

/-!
# How long a due delivery can be passed over

The loop takes the oldest due rows first, and a failed row is due again once its backoff
is over.  A row that waits behind a backlog can therefore be passed over by older rows
that fail again and again.

## Key results

- `waits_step`: while a delivery waits, no batch posts another one a second time unless
  it found it due again
- `bounded_bypass`: in a run in which that never happens, nothing overtakes a waiting
  delivery twice
-/

namespace SmsRelay

open UnitOfWork Transition

/-! ## The condition and the property -/

/-- The time of a selection. -/
def Action.selectedAt : Action → Option Time
  | .fanout (.select now _) => some now
  | _ => none

/-- The clock never goes back between two selections. -/
def Chronological (tr : List Action) : Prop :=
  (tr.filterMap Action.selectedAt).Pairwise fun now later => now ≤ later

/-- Since some selection at which the delivery `d` was due, `e` has been posted and `d`
    has not. -/
def PassedOver (lib : Lib) (cfg : Settings) (s₀ : Sys) (tr : List Action) (d e : String) : Prop :=
  ∃ tr₁ now ids tr₂ s, tr = tr₁ ++ .fanout (.select now ids) :: tr₂ ∧ Run lib cfg s₀ tr₁ s ∧
    (∃ r ∈ FanoutLoop.due s.db now, r.id = d) ∧ deliveryPosts d tr₂ = 0 ∧
    deliveryPosts e tr₂ ≠ 0

/-- No selection finds a delivery due again that was posted past another one that is
    still due. -/
def NoneReturns (lib : Lib) (cfg : Settings) (s₀ : Sys) (tr : List Action) : Prop :=
  ∀ tr₁ now ids tr₂ s, tr = tr₁ ++ .fanout (.select now ids) :: tr₂ → Run lib cfg s₀ tr₁ s →
    ∀ d ∈ FanoutLoop.due s.db now, ∀ e ∈ FanoutLoop.due s.db now, d.id ≠ e.id →
      ¬ PassedOver lib cfg s₀ tr₁ d.id e.id

/-- What the loop has still to attempt in the running batch. -/
def FanoutLoop.Pc.ahead : FanoutLoop.Pc → List WebhookDelivery
  | .idle => []
  | .next _ todo => todo
  | .ready _ o _ todo => o.loaded :: todo
  | .posting _ _ _ todo => todo

/-- The object whose `POST` is awaited. -/
def FanoutLoop.Pc.inPost : FanoutLoop.Pc → Option (Tracked WebhookDelivery)
  | .posting _ o _ _ => some o
  | _ => none

/-- The delivery is out of the way: it is not pending, and the running batch does not
    hold it any more. -/
structure Decided (s : Sys) (id : String) : Prop where
  row : ∀ r ∈ s.db.deliveries, r.id = id → r.status ≠ .pending
  ahead : ∀ r ∈ s.fanout.ahead, r.id ≠ id

/-- A dead subscriber does not hold up the others: from a selection at which a delivery is
    due until it is posted or otherwise decided, no other delivery is posted twice. -/
def Fair (lib : Lib) (cfg : Settings) (s₀ : Sys) (tr : List Action) : Prop :=
  ∀ tr₁ now ids tr₂ tr₃ s u, tr = tr₁ ++ .fanout (.select now ids) :: tr₂ ++ tr₃ →
    Run lib cfg s₀ tr₁ s → Run lib cfg s₀ (tr₁ ++ .fanout (.select now ids) :: tr₂) u →
    ∀ d ∈ FanoutLoop.due s.db now, deliveryPosts d.id tr₂ = 0 → ¬ Decided u d.id →
      ∀ e, e ≠ d.id → deliveryPosts e tr₂ ≤ 1

/-! ## What a waiting delivery sees -/

/-- The delivery `d` waits since the beginning of `tr`, and `e` was posted at most once. -/
structure Waits (d : WebhookDelivery) (e : String) (tr : List Action) (s : Sys) : Prop where
  row : ∀ r ∈ s.db.deliveries, r.id = d.id → r.status = .pending → r = d
  handled : ∀ o ∈ s.fanout.handled, o.loaded.id = d.id → o.current.status ≠ .pending
  posting : ∀ o ∈ s.fanout.inPost, o.loaded.id ≠ d.id
  once : deliveryPosts e tr ≤ 1
  behind : deliveryPosts e tr ≠ 0 → ∀ r ∈ s.fanout.ahead, r.id ≠ e

namespace FanoutLoop

/-- Within a batch the loop only leaves deliveries behind. -/
theorem Trans.ahead {lib : Lib} {env : Env} {db db' : Store} {pc pc' : Pc} {a : Act}
    (h : Trans lib env db pc a db' pc') (ha : ∀ now ids, a ≠ .select now ids)
    {d : WebhookDelivery} (hd : d ∈ pc'.ahead) : d ∈ pc.ahead := by
  -- A step hands on the rest of the batch, or drops it
  cases h with
  | selectNone | select => exact absurd rfl (ha _ _)
  | stale | commit | dbError => exact absurd hd List.not_mem_nil
  | @get ses ses' d' todo collected now message =>
    rcases handle_cases lib env ses' d' message todo with
      ⟨hidle, -⟩ | ⟨d'', -, -, hnext⟩ | ⟨m, request, -, hready⟩
    · rw [hidle] at hd
      exact absurd hd List.not_mem_nil
    · rw [hnext] at hd
      exact List.mem_cons_of_mem _ hd
    · rw [hready] at hd
      exact hd
  | post => exact List.mem_cons_of_mem _ hd
  | posted =>
    unfold afterPost at hd
    split at hd
    · exact absurd hd List.not_mem_nil
    · exact hd

/-- Where the handled objects of the next program point come from. -/
theorem Trans.handled {lib : Lib} {env : Env} {db db' : Store} {pc pc' : Pc} {a : Act}
    (h : Trans lib env db pc a db' pc') {o : Tracked WebhookDelivery} (ho : o ∈ pc'.handled) :
    (∃ o' ∈ pc.handled, o.loaded = o'.loaded ∧ o.current.status = o'.current.status) ∨
      o.current.status = .cancelled ∨ ∃ o' ∈ pc.inPost, o.loaded = o'.loaded := by
  cases h with
  | selectNone | select | stale | commit | dbError => exact absurd ho List.not_mem_nil
  | post => exact .inl ⟨o, ho, rfl, rfl⟩
  | @get ses ses' d todo collected now message hget =>
    have hold : o ∈ ses'.objs → ∃ o' ∈ ses.objs, o.loaded = o'.loaded ∧
        o.current.status = o'.current.status := fun ho => by
      obtain ⟨o', ho', hloaded, hcur⟩ := (getMessage_objs hget).2 o ho
      exact ⟨o', ho', hloaded, by rw [hcur]⟩
    -- The delivery is cancelled at once, or still has to be posted
    rcases handle_cases lib env ses' d message todo with
      ⟨hidle, -⟩ | ⟨d', -, hs, hnext⟩ | ⟨m, request, -, hready⟩
    · rw [hidle] at ho
      exact absurd ho List.not_mem_nil
    · rw [hnext] at ho
      rcases List.mem_append.mp ho with ho | ho
      · exact .inl (hold ho)
      · obtain rfl := List.mem_singleton.mp ho
        exact .inr (.inl hs)
    · rw [hready] at ho
      exact .inl (hold ho)
  | @posted ses o' request todo reply now =>
    unfold afterPost at ho
    split at ho
    · exact absurd ho List.not_mem_nil
    · rcases List.mem_append.mp ho with ho | ho
      · exact .inl ⟨o, ho, rfl, rfl⟩
      · obtain rfl := List.mem_singleton.mp ho
        exact .inr (.inr ⟨o', rfl, rfl⟩)

/-- A `POST` is awaited from its label on. -/
theorem Trans.inPost {lib : Lib} {env : Env} {db db' : Store} {pc pc' : Pc} {a : Act}
    (h : Trans lib env db pc a db' pc') {o : Tracked WebhookDelivery} (ho : o ∈ pc'.inPost) :
    a = .post o.loaded.id := by
  cases h with
  | selectNone | select | stale | commit | dbError => cases ho
  | @get ses ses' d todo collected now message =>
    rcases handle_cases lib env ses' d message todo with
      ⟨heq, -⟩ | ⟨d', -, -, heq⟩ | ⟨m, request, -, heq⟩ <;> rw [heq] at ho <;> cases ho
  | post =>
    cases ho
    rfl
  | posted =>
    unfold afterPost at ho
    split at ho <;> cases ho

end FanoutLoop

section
variable {lib : Lib} {cfg : Settings} {s t : Sys} {a : Action} {tr : List Action}
  {d : WebhookDelivery} {e : String}

/-- Only a selection brings deliveries into the batch. -/
theorem ahead_step (h : Trans lib cfg s a t) (ha : a.selectedAt = none)
    {r : WebhookDelivery} (hr : r ∈ t.fanout.ahead) : r ∈ s.fanout.ahead := by
  cases h with
  | fanout h =>
    refine h.ahead (fun now ids heq => ?_) hr
    rw [heq] at ha
    cases ha
  | crash => exact absurd hr List.not_mem_nil
  | send | status | prune | sendMessage | inbound | configure => exact hr

/-- A selection loads rows that are due. -/
theorem select_inv {now : Time} (h : Trans lib cfg s a t) (ha : a.selectedAt = some now) :
    t.db = s.db ∧ t.fanout.handled = [] ∧ t.fanout.inPost = none ∧
      ∀ r ∈ t.fanout.ahead, r ∈ FanoutLoop.due s.db now := by
  cases h with
  | @fanout b db pc h =>
    generalize hpc : s.fanout = pc₀ at h
    cases h with
    | selectNone => exact ⟨rfl, rfl, rfl, fun r hr => absurd hr List.not_mem_nil⟩
    | select hbatch =>
      obtain rfl := Option.some.inj ha
      exact ⟨rfl, rfl, rfl, hbatch.mem_due⟩
    | _ => simp [Action.selectedAt] at ha
  | _ => simp [Action.selectedAt] at ha

/-- A pending delivery of the next state is an old one, once its id is settled. -/
theorem pending_origin (hi : FanInv s) (h : Trans lib cfg s a t)
    (hset : s.DeliverySettled d.id) {r : WebhookDelivery} (hr : r ∈ t.db.deliveries)
    (hid : r.id = d.id) : r ∈ s.db.deliveries ∨
      ∃ o ∈ s.fanout.handled, o.loaded ∈ s.db.deliveries ∧ o.loaded.id = d.id ∧
        o.loaded.status = .pending ∧ r.status = o.current.status := by
  cases deliveries_origin hi h hr with
  | kept hold _ => exact .inl hold
  | @committed now ses o _ hpc ho hold heq =>
    -- a row the batch has just committed, with the status of its object
    have hmem : o ∈ s.fanout.handled := by rwa [hpc]
    have hbatch : o.loaded ∈ s.fanout.batch := by
      rw [hpc]
      exact List.mem_append_left _ (List.mem_map_of_mem ho)
    have hsame : r.id = o.loaded.id := by
      rw [heq]
      exact WebhookDelivery.id_eq_of_content (hi.handled o hmem).content
    exact .inr ⟨o, hmem, hold, hsame.symm.trans hid, (hi.standing _ hbatch).2.1, by rw [heq]⟩
  | inserted _ hcall _ => exact absurd hid (hset.2 _ r hcall)

/-- What is decided stays decided. -/
theorem Decided.step (hd : Decided s d.id) (hi : FanInv s) (h : Trans lib cfg s a t)
    (hset : s.DeliverySettled d.id) : Decided t d.id := by
  constructor
  · intro r hr hid
    rcases pending_origin hi h hset hr hid with hold | ⟨o, -, hold, hid', hs, -⟩
    · exact hd.row r hold hid
    · exact absurd hs (hd.row o.loaded hold hid')
  · intro r hr hid
    -- only a selection could bring it back, and it is not pending
    cases ha : a.selectedAt with
    | none => exact hd.ahead r (ahead_step h ha hr) hid
    | some now =>
      obtain ⟨hrow, hdue⟩ := List.mem_filter.mp ((select_inv h ha).2.2.2 r hr)
      simp only [FanoutLoop.isDue, Bool.and_eq_true, decide_eq_true_eq] at hdue
      exact hd.row r hrow hid hdue.1

/-- The handled objects of the next state. -/
theorem handled_step (h : Trans lib cfg s a t) {o : Tracked WebhookDelivery}
    (ho : o ∈ t.fanout.handled) :
    (∃ o' ∈ s.fanout.handled, o.loaded = o'.loaded ∧ o.current.status = o'.current.status) ∨
      o.current.status = .cancelled ∨ ∃ o' ∈ s.fanout.inPost, o.loaded = o'.loaded := by
  cases h with
  | fanout h => exact h.handled ho
  | crash => exact absurd ho List.not_mem_nil
  | send | status | prune | sendMessage | inbound | configure => exact .inl ⟨o, ho, rfl, rfl⟩

/-- The `POST` awaited in the next state. -/
theorem inPost_step (h : Trans lib cfg s a t) {o : Tracked WebhookDelivery}
    (ho : o ∈ t.fanout.inPost) : o ∈ s.fanout.inPost ∨ a.delivers o.loaded.id = true := by
  cases h with
  | fanout h =>
    rw [h.inPost ho]
    exact .inr (by simp [Action.delivers])
  | crash => cases ho
  | send | status | prune | sendMessage | inbound | configure => exact .inl ho

/-- **A waiting delivery keeps waiting until it is posted**, and nothing is posted past it
    twice, as long as no selection brings back what was posted. -/
theorem waits_step (hw : Waits d e tr s) (hi : FanInv s) (h : Trans lib cfg s a t)
    (hset : s.DeliverySettled d.id) (hpost : a.delivers d.id = false)
    (hselect : ∀ now, a.selectedAt = some now → deliveryPosts e tr ≠ 0 →
      ∀ r ∈ FanoutLoop.due s.db now, r.id ≠ e) : Waits d e (tr ++ [a]) t := by
  -- a delivery posted before is not ahead any more
  have hbehind : a.delivers e = true → deliveryPosts e tr = 0 := fun hpost => by
    obtain ⟨ses, o, request, todo, hpc, -, rfl⟩ := delivers_inv h hpost
    by_contra hne
    exact hw.behind hne o.loaded (by simp [hpc, FanoutLoop.Pc.ahead]) rfl
  refine ⟨fun r hr hid hs => ?_, fun o ho hid => ?_, fun o ho hid => ?_, ?_, fun hne r hr => ?_⟩
  · rcases pending_origin hi h hset hr hid with hold | ⟨o, ho, -, hid', -, heq⟩
    · exact hw.row r hold hid hs
    · exact absurd (heq.symm.trans hs) (hw.handled o ho hid')
  · rcases handled_step h ho with ⟨o', ho', hloaded, hs⟩ | hs | ⟨o', ho', hloaded⟩
    · rw [hs]
      exact hw.handled o' ho' (hloaded ▸ hid)
    · rw [hs]
      exact nofun
    · exact absurd (hloaded ▸ hid) (hw.posting o' ho')
  · rcases inPost_step h ho with hold | hnew
    · exact hw.posting o hold hid
    · rw [hid, hpost] at hnew
      cases hnew
  · rw [deliveryPosts_snoc]
    split
    · next hpost => simp [hbehind hpost]
    · exact hw.once
  · cases ha : a.selectedAt with
    | some now =>
      -- a selection is no `POST`
      have hquiet : a.delivers e = false := by
        cases a with
        | fanout b => cases b <;> first | rfl | cases ha
        | _ => rfl
      rw [deliveryPosts_snoc, hquiet] at hne
      exact hselect now ha (by simpa using hne) r ((select_inv h ha).2.2.2 r hr)
    | none =>
      by_cases hpost : a.delivers e = true
      · -- each delivery is ahead at most once
        obtain ⟨ses, o, request, todo, hpc, hpc', rfl⟩ := delivers_inv h hpost
        rw [hpc'] at hr
        have hnd := hi.nodup
        rw [hpc] at hnd
        exact (ne_of_nodup_batch hnd).2 r hr
      · rw [deliveryPosts_snoc, if_neg hpost] at hne
        exact hw.behind hne r (ahead_step h ha hr)

/-- A delivery that was waiting, is due and is not found by a selection is decided. -/
theorem Waits.decided (hw : Waits d e tr s) (h : Trans lib cfg s a t) {now : Time}
    (ha : a.selectedAt = some now) (hdue : FanoutLoop.isDue now d = true)
    (hgone : d ∉ FanoutLoop.due s.db now) : Decided t d.id := by
  obtain ⟨hdb, -, -, hahead⟩ := select_inv h ha
  have hrow : ∀ r ∈ s.db.deliveries, r.id = d.id → r.status ≠ .pending := by
    intro r hr hid hpending
    obtain rfl := hw.row r hr hid hpending
    exact hgone (List.mem_filter.mpr ⟨hr, hdue⟩)
  refine ⟨by rw [hdb]; exact hrow, fun r hr hid => ?_⟩
  -- the batch only has pending rows
  obtain ⟨hmem, hisDue⟩ := List.mem_filter.mp (hahead r hr)
  simp only [FanoutLoop.isDue, Bool.and_eq_true, decide_eq_true_eq] at hisDue
  exact hrow r hmem hid hisDue.1

end

/-! ## Runs -/

theorem Chronological.of_append {tr tr' : List Action} (h : Chronological (tr ++ tr')) :
    Chronological tr := by
  unfold Chronological at h
  rw [List.filterMap_append] at h
  exact (List.pairwise_append.mp h).1

/-- Two selections in the order of their times. -/
theorem Chronological.le {tr₁ tr₂ : List Action} {now later : Time} {ids ids' : List String}
    (h : Chronological (tr₁ ++ .fanout (.select now ids) ::
      (tr₂ ++ [.fanout (.select later ids')]))) : now ≤ later := by
  unfold Chronological at h
  rw [List.filterMap_append] at h
  have hlast : later ∈
      (tr₂ ++ [Action.fanout (.select later ids')]).filterMap Action.selectedAt := by
    simp [Action.selectedAt]
  exact List.rel_of_pairwise_cons (List.pairwise_append.mp h).2.1 hlast

theorem NoneReturns.of_append {lib : Lib} {cfg : Settings} {s₀ : Sys} {tr tr' : List Action}
    (h : NoneReturns lib cfg s₀ (tr ++ tr')) : NoneReturns lib cfg s₀ tr := by
  rintro tr₁ now ids tr₂ s rfl
  exact h tr₁ now ids (tr₂ ++ tr') s (by simp)

/-- A row that is due stays due. -/
theorem isDue_mono {d : WebhookDelivery} {now later : Time} (h : FanoutLoop.isDue now d = true)
    (hle : now ≤ later) : FanoutLoop.isDue later d = true := by
  unfold FanoutLoop.isDue at h ⊢
  cases hnext : d.nextAttemptAt with
  | none => simpa [hnext] using h
  | some u =>
    simp only [hnext, Bool.and_eq_true, decide_eq_true_eq] at h ⊢
    exact ⟨h.1, Int.le_trans h.2 hle⟩

theorem eq_select_of_selectedAt {a : Action} {now : Time} (h : a.selectedAt = some now) :
    ∃ ids, a = .fanout (.select now ids) := by
  unfold Action.selectedAt at h
  split at h
  · next ids =>
    obtain rfl := Option.some.inj h
    exact ⟨ids, rfl⟩
  · cases h

section
variable {lib : Lib} {cfg : Settings} {env : Env} {s t u v : Sys} {tr tr₁ tr₂ : List Action}
  {now : Time} {ids : List String} {d : WebhookDelivery} {e : String}

/-- What a delivery that is due at a selection sees from then on. -/
theorem waits_run (hs : Run lib cfg (Sys.init env) tr₁ s)
    (hselect : Step lib cfg s (.fanout (.select now ids)) v) (hrun : Run lib cfg v tr₂ u)
    (hclock : Chronological (tr₁ ++ .fanout (.select now ids) :: tr₂))
    (hnone : NoneReturns lib cfg (Sys.init env) (tr₁ ++ .fanout (.select now ids) :: tr₂))
    (hd : d ∈ FanoutLoop.due s.db now) (hne : e ≠ d.id) :
    u.DeliverySettled d.id ∧
      (deliveryPosts d.id tr₂ ≠ 0 ∨ Decided u d.id ∨ Waits d e tr₂ u) := by
  obtain ⟨hrow, hdue⟩ := List.mem_filter.mp hd
  have hreach : ∀ {tr w}, Run lib cfg v tr w →
      Run lib cfg (Sys.init env) (tr₁ ++ .fanout (.select now ids) :: tr) w := fun hrun => by
    have h := (hs.snoc hselect).append hrun
    rwa [List.append_assoc] at h
  -- Induction on the run since the selection
  induction hrun with
  | nil =>
    obtain ⟨hfresh, h⟩ := trans_of_step hselect
    obtain ⟨hdb, hhandled, hinPost, -⟩ := select_inv h rfl
    refine ⟨((fanInv_reachable hs).row d hrow).1.step hfresh h, .inr (.inr ?_)⟩
    exact
      { row := fun r hr hid _ => Store.eq_of_deliveryId (hdb ▸ hr) hrow hid
        handled := fun o ho => by
          rw [hhandled] at ho
          exact absurd ho List.not_mem_nil
        posting := fun o ho => by
          rw [hinPost] at ho
          cases ho
        once := by simp
        behind := fun h => absurd rfl h }
  | @snoc tr₂ w a u hrun hstep ih =>
    have hi := fanInv_reachable (hreach hrun)
    obtain ⟨hfresh, h⟩ := trans_of_step hstep
    rw [← List.cons_append, ← List.append_assoc] at hclock hnone
    obtain ⟨hset, hcase⟩ := ih hclock.of_append hnone.of_append
    refine ⟨hset.step hfresh h, ?_⟩
    by_cases hzero : deliveryPosts d.id tr₂ = 0
    · rcases hcase with hposted | hdecided | hwaits
      · exact absurd hzero hposted
      · exact .inr (.inl (hdecided.step hi h hset))
      · by_cases hpost : a.delivers d.id = true
        · exact .inl (by simp [hpost])
        · refine .inr ?_
          -- still waiting, so nothing posted past it returns; or decided
          by_cases hstill : ∀ later, a.selectedAt = some later → d ∈ FanoutLoop.due w.db later
          · refine .inr (waits_step hwaits hi h hset (by simpa using hpost) ?_)
            rintro later ha hposts r hr rfl
            obtain ⟨ids', rfl⟩ := eq_select_of_selectedAt ha
            exact hnone _ later ids' [] w rfl (hreach hrun) d (hstill later rfl) r hr hne.symm
              ⟨tr₁, now, ids, tr₂, s, rfl, hs, ⟨d, hd, rfl⟩, hzero, hposts⟩
          · -- the selection does not find the delivery: it is no longer pending
            push Not at hstill
            obtain ⟨later, ha, hgone⟩ := hstill
            obtain ⟨ids', rfl⟩ := eq_select_of_selectedAt ha
            rw [List.append_assoc, List.cons_append] at hclock
            exact .inl (hwaits.decided h rfl (isDue_mono hdue hclock.le) hgone)
    · exact .inl (by
        rw [deliveryPosts_snoc]
        omega)

/-- **A dead subscriber does not hold up the others**, as long as nothing that was posted
    past a waiting delivery is due again at a selection that still finds that one due. -/
theorem bounded_bypass (hclock : Chronological tr)
    (hnone : NoneReturns lib cfg (Sys.init env) tr) : Fair lib cfg (Sys.init env) tr := by
  rintro tr₁ now ids tr₂ tr₃ s u rfl hs hu d hd hzero hundecided e hne
  obtain ⟨v, hselect, hrun⟩ := (run_rest hu hs).cons_inv
  rcases (waits_run hs hselect hrun hclock.of_append hnone.of_append hd hne).2 with
    hposted | hdecided | hwaits
  · exact absurd hzero hposted
  · exact absurd hdecided hundecided
  · exact hwaits.once

end

/-- Each selection is the first one, or finds one delivery due at most. -/
def Lone (lib : Lib) (cfg : Settings) (s₀ : Sys) (tr : List Action) : Bool :=
  (List.range tr.length).all fun k =>
    match tr[k]?.bind Action.selectedAt with
    | none => true
    | some now =>
      ((tr.take k).filterMap Action.selectedAt).isEmpty ||
        (exec (step lib cfg) s₀ (tr.take k)).all fun s => (FanoutLoop.due s.db now).length ≤ 1

/-- Where no other delivery waits there is no return. -/
theorem noneReturns_of_lone {lib : Lib} {cfg : Settings} {s₀ : Sys} {tr : List Action}
    (h : Lone lib cfg s₀ tr = true) : NoneReturns lib cfg s₀ tr := by
  rintro tr₁ now ids tr₂ s rfl hrun d hd e he hne ⟨tr₃, now', ids', tr₄, s', rfl, -⟩
  have hk := List.all_eq_true.mp h (tr₃ ++ .fanout (.select now' ids') :: tr₄).length (by simp)
  simp only [List.getElem?_append_right (Nat.le_refl _), Nat.sub_self, List.getElem?_cons_zero,
    Option.bind_some, Action.selectedAt, List.take_left', Bool.or_eq_true] at hk
  rcases hk with hfirst | hone
  · simp [Action.selectedAt] at hfirst
  · -- both deliveries would be the one that is due
    rw [exec_of_run hrun, Option.all_some, decide_eq_true_eq] at hone
    obtain ⟨r, hr⟩ : ∃ r, FanoutLoop.due s.db now = [r] :=
      List.length_eq_one_iff.mp (Nat.le_antisymm hone (List.length_pos_of_mem hd))
    rw [hr, List.mem_singleton] at hd he
    exact hne (by rw [hd, he])

namespace Sample

/-- Of two deliveries that are posted in one batch one fails, and is posted again when its
    backoff is over. -/
def twoBatches : List Action :=
  receive 0 "e1" "m1" "d1" 1 ++ receive 1 "e2" "m2" "d2" 2 ++
    [.fanout (.select 3 ["d1", "d2"])] ++ postDelivery "d1" 3 ++ [webhookReply "d1" 500 4] ++
    postDelivery "d2" 4 ++ [webhookReply "d2" 200 5, .fanout (.commit 5),
      .fanout (.select (seconds 40) ["d1"])] ++
    postDelivery "d1" (seconds 40) ++
    [webhookReply "d1" 200 (seconds 41), .fanout (.commit (seconds 41))]

def deadNames : List String :=
  ["s01", "s02", "s03", "s04", "s05", "s06", "s07", "s08", "s09", "s10",
    "s11", "s12", "s13", "s14", "s15", "s16", "s17", "s18", "s19", "s20"]

/-- The deliveries of an older message to the dead subscribers. -/
def older : List String :=
  ["a01", "a02", "a03", "a04", "a05", "a06", "a07", "a08", "a09", "a10",
    "a11", "a12", "a13", "a14", "a15", "a16", "a17", "a18", "a19", "a20"]

/-- The deliveries of a newer message to them. -/
def newer : List String :=
  ["b01", "b02", "b03", "b04", "b05", "b06", "b07", "b08", "b09", "b10",
    "b11", "b12", "b13", "b14", "b15", "b16", "b17", "b18", "b19", "b20"]

def subscriber (name : String) : Subscriber := ⟨name, "http://app", "", ["message.received"]⟩

/-- Twenty subscribers that do not answer. -/
def dead : Env := ⟨[], .ok (deadNames.map subscriber)⟩

/-- One more subscriber is configured. -/
def deadAndLive : Env := ⟨[], .ok ((deadNames ++ ["live"]).map subscriber)⟩

/-- A message for the dead subscribers, then one for all. -/
def queued : List Action :=
  deliver 0 "e1" ++ store 0 "m1" older 1 ++ [.configure deadAndLive] ++
    deliver 1 "e2" ++ store 1 "m2" (newer ++ ["live"]) 2

/-- Each `POST` of the first batch runs into its timeout of 15 seconds. -/
def timeouts : List String → Time → List Action
  | [], now => [.fanout (.commit now)]
  | id :: ids, now =>
    postDelivery id now ++
      .fanout (.posted id (.error (.httpError "timed out")) (now + seconds 15)) ::
      timeouts ids (now + seconds 15)

/-- After the first batch, the next one begins with the oldest delivery again. -/
def passedOver : List Action :=
  timeouts older 2 ++ [.fanout (.select (seconds 301) (older.take 18 ++ newer.take 2))] ++
    postDelivery "a01" (seconds 301)

end Sample

/-- The failed delivery is selected again when no other waits. -/
theorem bounded_bypass_twoBatches :
    (∃ t, Run Sample.lib Sample.cfg (Sys.init Sample.subscribed) Sample.twoBatches t) ∧
    deliveryPosts "d1" Sample.twoBatches = 2 ∧
    Fair Sample.lib Sample.cfg (Sys.init Sample.subscribed) Sample.twoBatches := by
  obtain ⟨t, ht⟩ : ∃ t, exec (step Sample.lib Sample.cfg) (Sys.init Sample.subscribed)
      Sample.twoBatches = some t := Option.isSome_iff_exists.mp (by decide +kernel)
  exact ⟨⟨t, run_of_exec ht⟩, by decide +kernel, bounded_bypass
    (by unfold Chronological; decide +kernel) (noneReturns_of_lone (by decide +kernel))⟩

/-- While the delivery to the live subscriber waits, a delivery to a dead one is posted
    twice. -/
theorem not_fair_backlog : ¬ Fair Sample.lib Sample.cfg (Sys.init Sample.dead)
    (Sample.queued ++ .fanout (.select 2 Sample.older) :: Sample.passedOver) := by
  intro hfair
  obtain ⟨s, hs, hdue⟩ : ∃ s, Run Sample.lib Sample.cfg (Sys.init Sample.dead) Sample.queued s ∧
      ((FanoutLoop.due s.db 2).any fun d => d.id = "live") = true :=
    run_of_exec_map (f := fun s : Sys => (FanoutLoop.due s.db 2).any fun d => d.id = "live")
      (by decide +kernel)
  obtain ⟨u, hu, hwaits⟩ : ∃ u, Run Sample.lib Sample.cfg (Sys.init Sample.dead)
      (Sample.queued ++ .fanout (.select 2 Sample.older) :: Sample.passedOver) u ∧
      (u.db.deliveries.any fun d => d.id = "live" && d.status = .pending) = true :=
    run_of_exec_map
      (f := fun u : Sys => u.db.deliveries.any fun d => d.id = "live" && d.status = .pending)
      (by decide +kernel)
  obtain ⟨d, hd, hid⟩ := List.any_eq_true.mp hdue
  obtain ⟨r, hr, hrow⟩ := List.any_eq_true.mp hwaits
  simp only [Bool.and_eq_true, decide_eq_true_eq] at hid hrow
  -- the live delivery is due at both selections, and the old ones come first
  have hle := hfair Sample.queued 2 Sample.older Sample.passedOver [] s u (by simp) hs hu d hd
    (by rw [hid]; decide +kernel) (fun hdecided => hdecided.row r hr (by rw [hid, hrow.1]) hrow.2)
    "a01" (by rw [hid]; decide)
  revert hle
  decide +kernel

end SmsRelay
