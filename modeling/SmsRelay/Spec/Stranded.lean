import SmsRelay.Spec.Handover
import SmsRelay.Spec.Lifespan
import SmsRelay.Spec.Queue

/-!
# Rows left in `sending`

A row in `sending` is in the hand of the send loop, or an iteration has left it behind.  The
latter happens in four ways: the process dies or cancels the task, the database raises, and
ntfy or the provider raises what the iteration does not catch.  A process that ends in order
leaves no such row.

## Key results

- `sending_origin`: a row is in `sending` because it was before, or by the commit of a claim
- `abandons_of_lost`: an iteration that leaves its row in `sending` was broken off
- `stranded_cause`: every row left behind goes back to such an iteration
- `orderly_shutdown`: a process that ends in order leaves none behind
-/

namespace SmsRelay

open UnitOfWork Transition

/-- The row is in `sending`, and the send loop has not got it. -/
def Stranded (s : Sys) (id : String) : Prop :=
  (∃ m ∈ s.db.messages, m.id = id ∧ m.status = .sending) ∧ s.send.inHand ≠ some id

/-- The labels that break off the iteration with the message `id`. -/
inductive Abandons (cfg : Settings) (id : String) : Action → Prop
  /-- The process dies, or the task is cancelled. -/
  | crash : Abandons cfg id .crash
  | dbError : Abandons cfg id (.send .dbError)
  /-- `publish` raises what `except (httpx.HTTPError, ValueError, TimeoutError)` does not name. -/
  | publishReply {reply : HttpReply} {now : Time} {e : PyError} : publish reply = .error e →
      e.fallsBack = false → Abandons cfg id (.send (.publishReply id reply now))
  /-- `provider.send` raises something else than `ProviderError`. -/
  | providerReply {reply : ProviderReply} {now : Time} {e : PyError} :
      providerSend cfg.provider reply = some (.error e) →
      (∀ message permanent, e ≠ .providerError message permanent) →
      Abandons cfg id (.send (.providerReply id reply now))

/-! ## The iteration and its row -/

section
variable {lib : Lib} {cfg : Settings} {db db' : Store} {pc pc' : SendLoop.Pc} {a : SendLoop.Act}
  {s t : Sys} {id : String}

/-- **Where a row in `sending` comes from**: it was in `sending` before, or its claim has just
    been committed. -/
theorem sending_origin {a : Action} (hi : Inv cfg s) (h : Trans lib cfg s a t) {m : Message}
    (hm : m ∈ t.db.messages) (hs : m.status = .sending) :
    (∃ r ∈ s.db.messages, r.id = m.id ∧ r.status = .sending) ∨
      ∃ o, s.send = .claimed o ∧ o.loaded.id = m.id := by
  rcases rows_origin hi h hm with ⟨r, hr, rfl | hcause⟩ | ⟨c, -, hrow, -⟩
  · exact .inl ⟨m, hr, rfl, hs⟩
  · cases hcause with
    | @send o now stamp ho hloaded =>
      subst hloaded
      obtain ⟨hmem, hchange⟩ := hi.send.objs.2 o ho
      have hid : o.loaded.id = o.current.id := (hi.send.keepsKeys o ho).symm
      rcases hchange.inQueue with hqueued | hsending
      · -- a queued row is in the loop's hand between its claim and the commit
        have hsend := hi.send
        generalize s.send = pc at ho hsend
        cases pc with
        | claimed o' =>
          obtain rfl := List.mem_singleton.mp ho
          exact .inr ⟨o, rfl, hid⟩
        | requeueing objs =>
          have hsending := (hsend.2 o ho).2.1
          rw [hqueued] at hsending
          cases hsending
        | acknowledged o' | fellBack o' | finishing o' =>
          obtain rfl := List.mem_singleton.mp ho
          have hsending := hsend.2.1
          rw [hqueued] at hsending
          cases hsending
        | _ => cases ho
      · exact .inl ⟨o.loaded, hmem, hid, hsending⟩
    | poll hpc ho hdirty hid =>
      have hpolled := (hi.status _ (by rw [hpc]; exact ho)).1
      rcases (hpolled.current_eq hdirty).2 with hcur | hcur <;> rw [hcur] at hs <;> cases hs
    | receipt => cases hs
  · -- a call commits new rows, which are queued or received
    obtain ⟨hinv, hnew⟩ := (hi.call_row c m hrow).1
    cases c with
    | inl call =>
      have hqueued := hnew.2.2 rfl
      rw [hs] at hqueued
      cases hqueued
    | inr call =>
      have hout := (hinv.pending (.inr hs)).1
      rw [hnew.1] at hout
      cases hout

/-- The loop passes on what it has in hand, writes it, or is broken off. -/
theorem SendLoop.Trans.hand_cases (hi : SendInv cfg db pc)
    (h : SendLoop.Trans lib cfg db pc a db' pc') (hid : pc.inHand = some id) :
    pc'.inHand = some id ∨ Abandons cfg id (.send a) ∨
      ∃ o now, pc.objs = [o] ∧ db.updateMessages now pc.objs = some db' ∧
        o.loaded.id = id ∧ o.current.status ≠ .sending := by
  cases h with
  | requeueNone | requeueSome | requeued | claimNone | claimSome => cases hid
  | @claimed o now _ hdb =>
    left
    have hsaved := SendLoop.saved_id hi (List.mem_singleton.mpr rfl) now
    have hhand : (SendLoop.afterClaim (o.saved now)).inHand = some (o.saved now).id := by
      unfold SendLoop.afterClaim
      split <;> rfl
    rw [hhand, hsaved]
    exact hid
  | @fellBack o now _ hdb =>
    left
    have hsaved := SendLoop.saved_id hi (List.mem_singleton.mpr rfl) now
    show some (o.saved now).id = some id
    rw [hsaved]
    exact hid
  | publish | providerSend => exact .inl hid
  | @publishReply m reply now =>
    obtain rfl := Option.some.inj hid
    unfold SendLoop.afterPublish
    split
    · split <;> exact .inl rfl
    · next e he =>
      by_cases hfalls : e.fallsBack = true
      · rw [if_pos hfalls]
        exact .inl rfl
      · exact .inr (.inl (.publishReply he (by simpa using hfalls)))
  | @providerReply m reply now result hresult =>
    obtain rfl := Option.some.inj hid
    unfold SendLoop.afterSend
    split
    · split <;> exact .inl rfl
    · split <;> exact .inl rfl
    · next e hother =>
      exact .inr (.inl (.providerReply hresult hother))
  | @acknowledged o now _ hdb =>
    right; right
    obtain ⟨-, -, -, receipt, stamp, hcur⟩ := hi
    exact ⟨o, now, rfl, hdb, Option.some.inj hid, by simp [hcur, SendLoop.markPublished]⟩
  | @finishing o now _ hdb =>
    right; right
    refine ⟨o, now, rfl, hdb, Option.some.inj hid, ?_⟩
    obtain ⟨-, -, -, ⟨message, permanent, stamp, hcur⟩ | ⟨pid, stamp, hcur⟩⟩ := hi
    · rw [hcur]
      obtain ⟨-, -, -, -, ⟨hstatus, -⟩ | ⟨hstatus, -⟩⟩ :=
        recordFailure_cases cfg message permanent stamp o.loaded <;> rw [hstatus] <;> decide
    · simp [hcur, SendLoop.markSent]
  | dbError => exact .inr (.inl .dbError)

/-- **An iteration that leaves its row in `sending` was broken off.** -/
theorem abandons_of_lost {a : Action} (hi : Inv cfg s) (h : Trans lib cfg s a t)
    (hhand : s.send.inHand = some id) (ht : Stranded t id) : Abandons cfg id a := by
  obtain ⟨⟨m, hm, hmid, hs⟩, hlost⟩ := ht
  by_cases hcrash : a = .crash
  · rw [hcrash]
    exact .crash
  · by_cases hsend : ∃ b, a = .send b
    · obtain ⟨b, rfl⟩ := hsend
      cases h with
      | send h =>
        rcases h.hand_cases hi.send hhand with hkept | habandons | ⟨o, now, hobjs, hdb, hoid, hne⟩
        · exact absurd hkept hlost
        · exact habandons
        · -- the row would be the saved object
          rcases hi.send.mem_commit hdb hm with ⟨-, hother⟩ | ⟨o', ho', hsaved⟩
          · exact absurd (hmid.trans hoid.symm) (hother o (by rw [hobjs]; simp))
          · rw [hobjs] at ho'
            obtain rfl := List.mem_singleton.mp ho'
            rw [hsaved, saved_eq] at hs
            exact absurd hs hne
    · have hsame := send_of_other h (fun b hb => hsend ⟨b, hb⟩) hcrash
      rw [hsame] at hlost
      exact absurd hhand hlost

end

/-! ## Along a run -/

/-- Some iteration with the row was broken off, and the row has been left behind since. -/
def LeftBehind (lib : Lib) (cfg : Settings) (env : Env) (tr : List Action) (id : String) : Prop :=
  ∃ tr₁ a tr₂ u v, tr = tr₁ ++ a :: tr₂ ∧ Run lib cfg (Sys.init env) tr₁ u ∧
    Step lib cfg u a v ∧ u.send.inHand = some id ∧ Abandons cfg id a ∧
    ∀ tr₃ w, tr₃ <+: tr₂ → Run lib cfg v tr₃ w → Stranded w id

section
variable {lib : Lib} {cfg : Settings} {env : Env} {tr : List Action} {s t : Sys} {id : String}

/-- A row that is not in hand was left behind, or is by this step. -/
private theorem stranded_step {a : Action} (hi : Inv cfg s) (h : Trans lib cfg s a t)
    (ht : Stranded t id) : Stranded s id ∨ s.send.inHand = some id ∧ Abandons cfg id a := by
  by_cases hhand : s.send.inHand = some id
  · exact .inr ⟨hhand, abandons_of_lost hi h hhand ht⟩
  · obtain ⟨⟨m, hm, rfl, hs⟩, -⟩ := ht
    rcases sending_origin hi h hm hs with ⟨r, hr, hrid, hrs⟩ | ⟨o, hpc, hoid⟩
    · exact .inl ⟨⟨r, hr, hrid, hrs⟩, hhand⟩
    · rw [hpc] at hhand
      exact absurd (congrArg some hoid) hhand

/-- **Every row left behind goes back to an iteration that was broken off**, and has been left
    behind ever since.  An iteration that `now - timedelta(seconds=stuck_after_seconds)` breaks
    off, as no `datetime`, is left out with `SendLoop.isStuck`. -/
theorem stranded_cause (hrun : Run lib cfg (Sys.init env) tr t) (ht : Stranded t id) :
    LeftBehind lib cfg env tr id := by
  suffices h : ∀ id, Stranded t id → LeftBehind lib cfg env tr id from h id ht
  clear ht
  -- Induction on the run: a row is left behind by the last step, or was before it
  refine hrun.traceInvariant
    (P := fun tr s => ∀ id, Stranded s id → LeftBehind lib cfg env tr id) ?_ ?_
  · rintro id ⟨⟨m, hm, -⟩, -⟩
    cases hm
  · intro tr s a t hrun ih hstep id ht
    rcases stranded_step (inv_reachable hrun) (trans_of_step hstep).2 ht with
      hs | ⟨hhand, habandons⟩
    · obtain ⟨tr₁, b, tr₂, u, v, rfl, h₁, huv, hhand, habandons, hsince⟩ := ih id hs
      refine ⟨tr₁, b, tr₂ ++ [a], u, v, by simp, h₁, huv, hhand, habandons, ?_⟩
      intro tr₃ w hprefix hw
      rcases List.prefix_concat_iff.mp hprefix with rfl | hprefix
      · -- the whole run, which ends in `t`
        have hall : Run lib cfg (Sys.init env) (tr₁ ++ b :: (tr₂ ++ [a])) w := by
          have hfirst := h₁.append (.single huv)
          simpa using hfirst.append hw
        have hsame : Run lib cfg (Sys.init env) (tr₁ ++ b :: (tr₂ ++ [a])) t := by
          simpa using hrun.snoc hstep
        rwa [run_unique hall hsame]
      · exact hsince tr₃ w hprefix hw
    · refine ⟨tr, a, [], s, t, rfl, hrun, hstep, hhand, habandons, ?_⟩
      intro tr₃ w hprefix hw
      obtain rfl := List.prefix_nil.mp hprefix
      rwa [← hw.nil_inv]

end

/-! ## The end of a process -/

namespace Lifespan

section
variable {lib : Lib} {cfg : Settings} {perMinute : Int} {env : Env} {clock : ℚ}
  {tr : List Label} {p : Process}

/-- **A process that ends in order leaves no row behind.**  When no iteration of the send loop
    is broken off, the rows in `sending` are those the loop has in hand, and once its task is
    out of the loop's body there is none. -/
theorem orderly_shutdown (hrun : Run lib cfg perMinute (init perMinute env clock) tr p)
    (horder : ∀ a ∈ tr.flatMap Label.actions, ∀ id, ¬ Abandons cfg id a) :
    ∀ m ∈ p.sys.db.messages, m.status = .sending →
      p.tasks .send = .running ∧ p.sys.send.inHand = some m.id := by
  intro m hm hs
  have hhand : p.sys.send.inHand = some m.id := by
    by_contra hlost
    obtain ⟨tr₁, a, tr₂, u, v, heq, -, -, -, habandons, -⟩ :=
      stranded_cause (run_projects hrun) ⟨⟨m, hm, rfl, hs⟩, hlost⟩
    exact horder a (by rw [heq]; simp) m.id habandons
  refine ⟨?_, hhand⟩
  by_contra hrunning
  have hidle := send_of_over ((processInv_reachable hrun).idle .send hrunning)
  rw [hidle] at hhand
  cases hhand

end

end Lifespan

namespace Sample

/-- The process dies while it waits for the gateway. -/
def cutOff : List Action := queue "m1" 0 ++ post "m1" 1 ++ [.crash]

/-- The process is stopped while it waits for the gateway. -/
def stopped : List Lifespan.Label :=
  [.start 0] ++ (queue "m1" 0).map .act ++
    [.enter .send, .act (.send (.requeueSelect 1 1)), .act (.send (.claimSelect 1 (some "m1"))),
      .act (.send (.commit 1)), .acquire "m1" 1 .granted, .stop]

/-- The gateway takes the message, and the tasks end. -/
def ending : List Lifespan.Label :=
  [.act (answer "m1" 202 (some (.obj [("id", .str "g1")])) 2), .act (.send (.commit 2)),
    .leave .send, .leave .status, .leave .fanout, .leave .prune, .exit]

/-- One message goes out, and the process ends in order. -/
def orderly : List Lifespan.Label := stopped ++ ending

end Sample

/-- The row of the dead process is left behind by the crash. -/
theorem stranded_cause_cutOff : ∃ t,
    Run Sample.lib Sample.cfg (Sys.init Sample.env) Sample.cutOff t ∧ Stranded t "m1" ∧
    LeftBehind Sample.lib Sample.cfg Sample.env Sample.cutOff "m1" := by
  obtain ⟨t, hrun, ht⟩ : ∃ t,
      Run Sample.lib Sample.cfg (Sys.init Sample.env) Sample.cutOff t ∧
      (Sample.statuses t, t.send.inHand) = ([("m1", .sending)], none) :=
    run_of_exec_map (f := fun t : Sys => (Sample.statuses t, t.send.inHand)) (by decide +kernel)
  obtain ⟨hrows, hhand⟩ := Prod.mk.inj ht
  have hstranded : Stranded t "m1" := by
    constructor
    · apply Sample.mem_of_statuses
      rw [hrows]
      exact List.mem_singleton.mpr rfl
    · rw [hhand]
      simp
  exact ⟨t, hrun, hstranded, stranded_cause hrun hstranded⟩

/-- The orderly run ends with the process down and the message sent. -/
theorem orderly_shutdown_orderly : ∃ p,
    Lifespan.Run Sample.lib Sample.cfg 1 (Lifespan.init 1 Sample.env 0) Sample.orderly p ∧
    (Sample.statuses p.sys, p.phase) = ([("m1", .sent)], .down) ∧
    ∀ m ∈ p.sys.db.messages, m.status = .sending →
      p.tasks .send = .running ∧ p.sys.send.inHand = some m.id := by
  obtain ⟨p, hrun, hrows⟩ : ∃ p,
      Lifespan.Run Sample.lib Sample.cfg 1 (Lifespan.init 1 Sample.env 0) Sample.orderly p ∧
      (Sample.statuses p.sys, p.phase) = ([("m1", .sent)], .down) :=
    run_of_exec_map (f := fun p : Lifespan.Process => (Sample.statuses p.sys, p.phase))
      (by decide +kernel)
  refine ⟨p, hrun, hrows, Lifespan.orderly_shutdown hrun ?_⟩
  intro a ha id habandons
  cases habandons with
  | providerReply hresult hother =>
    simp [Sample.orderly, Sample.stopped, Sample.ending, Sample.queue, Sample.answer,
      Lifespan.Label.actions] at ha
    obtain ⟨-, rfl, -⟩ := ha
    have hok : providerSend Sample.cfg.provider
        (.gateway (.ok ⟨202, "", .ok (.obj [("id", .str "g1")])⟩)) = some (.ok ⟨.str "g1"⟩) := rfl
    rw [hok] at hresult
    cases hresult
  | _ => simp [Sample.orderly, Sample.stopped, Sample.ending, Sample.queue, Sample.answer,
      Lifespan.Label.actions] at ha

end SmsRelay
