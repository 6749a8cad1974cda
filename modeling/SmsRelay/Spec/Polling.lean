import SmsRelay.Spec.Sends

/-!
# One pass of the status loop

The loop asks the gateway about every sent message of the last day, one after the other,
and commits what it has heard once, after the last of them.  `fetch_status` expects an
object with a state that can be looked up.  An answer of another shape raises, the pass
ends before its commit, and what was heard about the other messages is lost with it.

## Key results

- `fetchStatus_eq`: what an answer tells, unless it is an odd one
- `stage_run`: where a pass stands, whatever happens around it
- `polls_all_iff`: with which answers a pass commits what it was told
-/

namespace SmsRelay

open UnitOfWork Transition StatusLoop

/-! ## Answers -/

/-- What a looked-up state tells. -/
def stateTells (state : Json PyStr) : Option MessageStatus :=
  match AndroidGatewayProvider.stateMap state with
  | .ok status => status
  | .error _ => none

/-- The status that an answer of the gateway tells: that of a successful JSON object with a
    state in `_STATE_MAP`. -/
def tells : HttpReply → Option MessageStatus
  | .error _ => none
  | .ok response =>
    if response.isSuccess then
      match response.json with
      | .ok (.obj items) => stateTells (Json.get items "state")
      | _ => none
    else none

/-- A state that is not hashable. -/
def oddState : Json PyStr → Bool
  | .arr _ => true
  | .obj _ => true
  | _ => false

/-- A JSON body that `fetch_status` trips over: a truthy value that is no object, or an
    object whose state is a list or an object. -/
def oddBody : Json PyStr → Bool
  | .obj items => oddState (Json.get items "state")
  | body => body.truthy

/-- What `json.loads` makes of a body that `fetch_status` trips over. -/
def oddJson : Except LoadsError (Json PyStr) → Bool
  | .ok body => oddBody body
  | .error (.other _) => true
  | .error _ => false

/-- An answer `fetch_status` does not expect: a successful one with an odd body, or an
    exception other than `httpx.HTTPError` and `ValueError`, be it from the request or from
    `response.json()`. -/
def odd : HttpReply → Bool
  | .error (.httpError _) => false
  | .error (.valueError _) => false
  | .error _ => true
  | .ok response => response.isSuccess && oddJson response.json

theorem stateMap_eq {state : Json PyStr} (h : oddState state = false) :
    AndroidGatewayProvider.stateMap state = .ok (stateTells state) := by
  unfold stateTells
  cases hmap : AndroidGatewayProvider.stateMap state with
  | ok status => rfl
  | error e =>
    unfold AndroidGatewayProvider.stateMap at hmap
    split at hmap <;> cases hmap <;> cases h

theorem stateMap_odd {state : Json PyStr} (h : oddState state = true) :
    AndroidGatewayProvider.stateMap state = .error .typeError := by
  cases state with
  | arr | obj => rfl
  | _ => cases h

/-- `(x or {}).get("state")` of an object, be it empty or not. -/
theorem getOfDict_obj (items : List (PyStr × Json PyStr)) (key : String) :
    getOfDict (.obj items) key = .ok (Json.get items key) := by
  unfold getOfDict Json.or
  cases items <;> rfl

/-- **What `fetch_status` returns**: what the answer tells, unless the answer is odd. -/
theorem fetchStatus_eq {reply : HttpReply} (h : odd reply = false) :
    AndroidGatewayProvider.fetchStatus reply = .ok (tells reply) := by
  cases reply with
  | error e =>
    cases e with
    | httpError | valueError => rfl
    | timeout | other => cases h
  | ok response =>
    simp only [AndroidGatewayProvider.fetchStatus, tells]
    by_cases hsuccess : response.isSuccess = true
    · have hfound : response.statusCode ≠ 404 := by
        simp only [Response.isSuccess, Bool.and_eq_true, decide_eq_true_eq] at hsuccess
        omega
      simp only [odd, hsuccess, Bool.true_and] at h
      rw [if_neg hfound, hsuccess, if_neg (by decide), if_pos rfl]
      cases hjson : response.json with
      | error e =>
        rw [hjson] at h
        cases e with
        | other => cases h
        | jsonDecodeError | valueError => rfl
      | ok body =>
        rw [hjson] at h
        cases body with
        | obj items =>
          show (getOfDict (.obj items) "state").bind AndroidGatewayProvider.stateMap = _
          rw [getOfDict_obj]
          exact stateMap_eq h
        | _ =>
          -- a falsy value counts as `{}`, which has no state
          simp only [getOfDict, Json.or]
          rw [if_neg (by simpa [oddJson, oddBody] using h)]
          rfl
    · -- any other status says nothing
      rw [if_neg hsuccess]
      split
      · rfl
      · rw [if_pos (by simpa using hsuccess)]

/-- An odd answer raises. -/
theorem fetchStatus_odd {reply : HttpReply} (h : odd reply = true) :
    ∃ e, AndroidGatewayProvider.fetchStatus reply = .error e := by
  cases reply with
  | error e =>
    cases e with
    | httpError | valueError => cases h
    | timeout | other => exact ⟨_, rfl⟩
  | ok response =>
    obtain ⟨hsuccess, hbody⟩ := Bool.and_eq_true_iff.mp h
    have hfound : response.statusCode ≠ 404 := by
      simp only [Response.isSuccess, Bool.and_eq_true, decide_eq_true_eq] at hsuccess
      omega
    simp only [AndroidGatewayProvider.fetchStatus]
    rw [if_neg hfound, hsuccess, if_neg (by decide)]
    cases hjson : response.json with
    | error e =>
      rw [hjson] at hbody
      cases e with
      | other => exact ⟨_, rfl⟩
      | jsonDecodeError | valueError => cases hbody
    | ok body =>
      rw [hjson] at hbody
      cases body with
      | obj items =>
        show ∃ e, (getOfDict (.obj items) "state").bind AndroidGatewayProvider.stateMap = .error e
        rw [getOfDict_obj]
        exact ⟨_, stateMap_odd hbody⟩
      | _ =>
        simp only [getOfDict, Json.or]
        rw [if_pos (by simpa [oddJson, oddBody] using hbody)]
        exact ⟨_, rfl⟩

/-! ## A pass -/

/-- The messages that a pass asks about. -/
def polledAt (s : Sys) (now : Time) : List Message := s.db.messages.filter (isPolled now)

/-- What may happen during a pass that gets these answers: anything, as long as the process
    lives and the loop's database operations succeed. -/
def WithinPass (replies : String → HttpReply) : Action → Prop
  | .status (.select _) => False
  | .status (.fetched id reply) => reply = .gateway (replies id)
  | .status .dbError => False
  | .crash => False
  | _ => True

/-- The steps of a pass and of everything around it. -/
abbrev PassStep (lib : Lib) (cfg : Settings) (replies : String → HttpReply) :
    Sys → Action → Sys → Prop :=
  Guarded (fun _ a => WithinPass replies a) (Step lib cfg)

/-- The answer for the message tells a status other than `sent`. -/
def News (replies : String → HttpReply) (m : Message) (status : MessageStatus) : Prop :=
  tells (replies m.id) = some status ∧ status ≠ .sent

/-- The step changes at most statuses, those of polled messages to what their own answers
    tell. -/
def OnlyTold (s : Sys) (now : Time) (replies : String → HttpReply) (db db' : Store) : Prop :=
  db'.deliveries = db.deliveries ∧ ∃ f, db'.messages = db.messages.map f ∧
    ∀ r ∈ db.messages, f r = r ∨ ∃ m ∈ polledAt s now, m.id = r.id ∧ ∃ status stamp,
      News replies m status ∧ f r = { r with status := status, updatedAt := stamp }

/-- The commit in the trace writes every news. -/
def CommitsNews (lib : Lib) (cfg : Settings) (s : Sys) (now : Time)
    (replies : String → HttpReply) (s₁ : Sys) (tr : List Action) : Prop :=
  ∃ tr₁ stamp tr₂ u v, tr = tr₁ ++ .status (.commit stamp) :: tr₂ ∧
    Transition.Run (PassStep lib cfg replies) s₁ tr₁ u ∧
    Step lib cfg u (.status (.commit stamp)) v ∧
    ∀ m ∈ polledAt s now, ∀ status, News replies m status →
      ∃ r ∈ v.db.messages, r.id = m.id ∧ r.status = status

/-- The pass that selects in the state `s`, at the time `now`, and gets these answers commits
    all it was told, and nothing else. -/
structure PollsAll (lib : Lib) (cfg : Settings) (s : Sys) (now : Time)
    (replies : String → HttpReply) : Prop where
  /-- Left alone, the pass comes to an end. -/
  ends : ∃ s₁ tr t, Step lib cfg s (.status (.select now)) s₁ ∧
    Transition.Run (PassStep lib cfg replies) s₁ tr t ∧ (∀ a ∈ tr, ∃ b, a = .status b) ∧
    t.status = .idle
  /-- Whatever goes on around it, at its end all news has been committed. -/
  updates : ∀ s₁ tr t, Step lib cfg s (.status (.select now)) s₁ →
    Transition.Run (PassStep lib cfg replies) s₁ tr t → t.status = .idle →
    (∃ m ∈ polledAt s now, ∃ status, News replies m status) →
      CommitsNews lib cfg s now replies s₁ tr
  /-- Its steps change nothing else. -/
  others : ∀ s₁ tr u a v, Step lib cfg s (.status (.select now)) s₁ →
    Transition.Run (PassStep lib cfg replies) s₁ tr u →
    PassStep lib cfg replies u (.status a) v → OnlyTold s now replies u.db v.db

/-- The object of a message whose answer was heard. -/
def heard (replies : String → HttpReply) (m : Message) : Tracked Message :=
  (Tracked.load m).assign (upgrade (tells (replies m.id)))

/-- Where a pass stands. -/
inductive Stage (lib : Lib) (cfg : Settings) (s : Sys) (now : Time)
    (replies : String → HttpReply) (s₁ : Sys) (tr : List Action) (u : Sys) : Prop
  /-- It has heard the answers for `done`, none of them odd. -/
  | asking (done rest : List Message) : polledAt s now = done ++ rest →
      (∀ m ∈ done, odd (replies m.id) = false) →
      u.status = resume (done.map (heard replies)) rest → Stage lib cfg s now replies s₁ tr u
  /-- An odd answer has ended it. -/
  | escaped : (∃ m ∈ polledAt s now, odd (replies m.id) = true) → u.status = .idle →
      Stage lib cfg s now replies s₁ tr u
  /-- It has committed. -/
  | committed : (∀ m ∈ polledAt s now, odd (replies m.id) = false) → u.status = .idle →
      CommitsNews lib cfg s now replies s₁ tr → Stage lib cfg s now replies s₁ tr u

section
variable {lib : Lib} {cfg : Settings} {env : Env} {s s₁ t u v : Sys} {a : Action}
  {tr : List Action} {now : Time} {replies : String → HttpReply} {m : Message}

theorem sent_of_polled (hm : m ∈ polledAt s now) : m ∈ s.db.messages ∧ m.status = .sent := by
  obtain ⟨hmem, hpolled⟩ := List.mem_filter.mp hm
  simp only [isPolled, Bool.and_eq_true, decide_eq_true_eq] at hpolled
  exact ⟨hmem, hpolled.1.1⟩

/-- What was heard about a message changes its status at most. -/
theorem heard_current (o : Message) :
    (heard replies o).current = { o with status := (heard replies o).current.status } := by
  show upgrade (tells (replies o.id)) o =
    { o with status := (upgrade (tells (replies o.id)) o).status }
  cases tells (replies o.id) <;> rfl

/-- An object is changed by news, and by nothing else. -/
theorem dirty_heard (hm : m ∈ polledAt s now) :
    (heard replies m).Dirty ↔ ∃ status, News replies m status := by
  have hs := (sent_of_polled hm).2
  show upgrade (tells (replies m.id)) m ≠ m ↔ _
  unfold News
  cases tells (replies m.id) with
  | none => simp [upgrade]
  | some status =>
    constructor
    · intro hne
      refine ⟨status, rfl, ?_⟩
      rintro rfl
      exact hne (by rw [upgrade, ← hs])
    · intro hnews heq
      obtain ⟨status', heq', hne⟩ := hnews
      obtain rfl := Option.some.inj heq'
      exact hne ((congrArg Message.status heq).trans hs)

theorem heard_status {status : MessageStatus} (h : News replies m status) :
    (heard replies m).current.status = status := by
  show (upgrade (tells (replies m.id)) m).status = status
  rw [h.1]
  rfl

theorem nodup_heard : ((polledAt s now).map (heard replies) |>.map fun o => o.loaded.id).Nodup := by
  rw [List.map_map]
  exact s.db.integrity.pkMessages.sublist (List.filter_sublist.map _)

theorem heard_changes : ∀ o ∈ (polledAt s now).map (heard replies), o.Dirty →
    o.current = { o.loaded with status := o.current.status } := by
  intro o ho _
  obtain ⟨m, -, rfl⟩ := List.mem_map.mp ho
  exact heard_current m

/-- The objects a pass commits are those of all polled messages. -/
theorem resume_nil_committing {objs objs' : List (Tracked Message)}
    (h : resume objs [] = .committing objs') : objs' = objs ∧ ∃ o ∈ objs, o.Dirty := by
  simp only [resume] at h
  split at h
  · next hdirty => exact ⟨(Pc.committing.inj h).symm, hdirty⟩
  · cases h

/-- **The commit of a pass** writes its news and nothing else. -/
theorem commit_pass {db db' : Store} {stamp : Time}
    (h : db.updateMessages stamp ((polledAt s now).map (heard replies)) = some db') :
    OnlyTold s now replies db db' ∧ ∀ m ∈ polledAt s now, ∀ status, News replies m status →
      ∃ r ∈ db'.messages, r.id = m.id ∧ r.status = status := by
  obtain ⟨hmatched, hms, hds⟩ := Store.updateMessages_eq_some.mp h
  constructor
  · refine ⟨hds, _, hms, fun r hr => ?_⟩
    rcases flushRow_status stamp _ heard_changes nodup_heard r with heq | ⟨o, ho, hdirty, hid, heq⟩
    · exact .inl heq
    · -- the row is that of a polled message with news
      obtain ⟨m, hm, rfl⟩ := List.mem_map.mp ho
      obtain ⟨status, hnews⟩ := (dirty_heard hm).mp hdirty
      rw [heard_status hnews] at heq
      exact .inr ⟨m, hm, hid, status, stamp, hnews, heq⟩
  · intro m hm status hnews
    have ho : heard replies m ∈ (polledAt s now).map (heard replies) := List.mem_map_of_mem hm
    have hdirty := (dirty_heard hm).mpr ⟨status, hnews⟩
    obtain ⟨r, hr, hid⟩ := hmatched _ ho hdirty
    have hmem := mem_update_status h heard_changes nodup_heard ho hdirty hr hid
    rw [heard_status hnews] at hmem
    exact ⟨_, hmem, hid, rfl⟩

/-- A step around the pass leaves the loop where it is. -/
theorem status_of_other (h : Trans lib cfg s a t) (ha : ∀ b, a ≠ .status b) (hcrash : a ≠ .crash) :
    t.status = s.status := by
  cases h with
  | status => exact absurd rfl (ha _)
  | crash => exact absurd rfl hcrash
  | send | fanout | prune | sendMessage | inbound | configure => rfl

theorem CommitsNews.snoc (h : CommitsNews lib cfg s now replies s₁ tr) (a : Action) :
    CommitsNews lib cfg s now replies s₁ (tr ++ [a]) := by
  obtain ⟨tr₁, stamp, tr₂, u, v, rfl, hrest⟩ := h
  exact ⟨tr₁, stamp, tr₂ ++ [a], u, v, by simp, hrest⟩

/-- The answer of the gateway, as the loop reads it. -/
theorem fetched_cases (hprov : cfg.provider = .androidGateway)
    {result : Except PyError (Option MessageStatus)}
    (h : providerFetchStatus cfg.provider (.gateway (replies m.id)) = some result) :
    (odd (replies m.id) = false ∧ result = .ok (tells (replies m.id))) ∨
      odd (replies m.id) = true ∧ ∃ e, result = .error e := by
  rw [hprov] at h
  obtain rfl := Option.some.inj h
  cases hodd : odd (replies m.id) with
  | false => exact .inl ⟨rfl, fetchStatus_eq hodd⟩
  | true => exact .inr ⟨rfl, fetchStatus_odd hodd⟩

/-- A loop that is done with the pass could only start another one. -/
theorem not_idle_of_pass {b : Act} (hstep : PassStep lib cfg replies u (.status b) v) :
    u.status ≠ .idle := by
  intro hidle
  obtain ⟨hwithin, hstep⟩ := hstep
  cases (trans_of_step hstep).2 with
  | status h =>
    rw [hidle] at h
    cases h <;> exact hwithin

/-- A step of the pass itself, from where it is still asking. -/
theorem asking_step (hprov : cfg.provider = .androidGateway) {done rest : List Message}
    (hsplit : polledAt s now = done ++ rest) (hnone : ∀ m ∈ done, odd (replies m.id) = false)
    (hpc : u.status = resume (done.map (heard replies)) rest)
    (hrun : Transition.Run (PassStep lib cfg replies) s₁ tr u) {b : Act}
    (hstep : PassStep lib cfg replies u (.status b) v) :
    Stage lib cfg s now replies s₁ (tr ++ [.status b]) v ∧ OnlyTold s now replies u.db v.db := by
  obtain ⟨hwithin, hstep⟩ := hstep
  have hsame : OnlyTold s now replies u.db u.db :=
    ⟨rfl, id, (List.map_id _).symm, fun _ _ => .inl rfl⟩
  cases (trans_of_step hstep).2 with
  | @status b db pc h =>
    rw [hpc] at h
    cases rest with
    | cons m rest =>
      generalize hdone : done.map (heard replies) = objs at h
      rw [resume] at h
      cases h with
      | fetched hresult =>
        obtain rfl := hwithin
        rcases fetched_cases hprov hresult with ⟨hodd, hok⟩ | ⟨-, e, herr⟩
        · obtain rfl := Except.ok.inj hok
          refine ⟨.asking (done ++ [m]) rest (by rw [hsplit]; simp) ?_ ?_, hsame⟩
          · intro x hx
            rcases List.mem_append.mp hx with hx | hx
            · exact hnone x hx
            · rw [List.mem_singleton.mp hx]
              exact hodd
          · rw [List.map_append, hdone]
            rfl
        · cases herr
      | escaped hresult =>
        obtain rfl := hwithin
        rcases fetched_cases hprov hresult with ⟨-, hok⟩ | ⟨hodd, -⟩
        · cases hok
        · exact ⟨.escaped ⟨m, by rw [hsplit]; simp, hodd⟩ rfl, hsame⟩
      | dbError => exact absurd hwithin id
    | nil =>
      -- all have been asked about; only the commit is left
      rw [List.append_nil] at hsplit
      generalize hres : resume (done.map (heard replies)) [] = pc₀ at h
      cases h with
      | select => exact absurd hwithin id
      | dbError => exact absurd hwithin id
      | fetched => simp only [resume] at hres; split at hres <;> cases hres
      | escaped => simp only [resume] at hres; split at hres <;> cases hres
      | @commit objs stamp db hdb =>
        obtain ⟨rfl, -⟩ := resume_nil_committing hres
        rw [← hsplit] at hdb hnone
        obtain ⟨honly, hnews⟩ := commit_pass hdb
        exact ⟨.committed hnone rfl ⟨tr, stamp, [], u, _, rfl, hrun, hstep, hnews⟩, honly⟩

/-- **Where a pass stands** after each of its steps, and after each step around it. -/
theorem stage_step (hprov : cfg.provider = .androidGateway)
    (hstage : Stage lib cfg s now replies s₁ tr u)
    (hrun : Transition.Run (PassStep lib cfg replies) s₁ tr u)
    (hstep : PassStep lib cfg replies u a v) : Stage lib cfg s now replies s₁ (tr ++ [a]) v := by
  by_cases hown : ∃ b, a = .status b
  · obtain ⟨b, rfl⟩ := hown
    cases hstage with
    | asking done rest hsplit hnone hpc => exact (asking_step hprov hsplit hnone hpc hrun hstep).1
    | escaped _ hidle => exact absurd hidle (not_idle_of_pass hstep)
    | committed _ hidle => exact absurd hidle (not_idle_of_pass hstep)
  · have hcrash : a ≠ .crash := by
      rintro rfl
      exact hstep.1
    have hsame := status_of_other (trans_of_step hstep.2).2 (fun b hb => hown ⟨b, hb⟩) hcrash
    cases hstage with
    | asking done rest hsplit hnone hpc => exact .asking done rest hsplit hnone (hsame.trans hpc)
    | escaped hodd hidle => exact .escaped hodd (hsame.trans hidle)
    | committed hnone hidle hnews =>
      exact .committed hnone (hsame.trans hidle) (hnews.snoc a)

/-- What the `SELECT` leads to. -/
theorem select_pass (hstep : Step lib cfg s (.status (.select now)) s₁) :
    s₁.db = s.db ∧ s₁.status = resume [] (polledAt s now) := by
  cases (trans_of_step hstep).2 with
  | status h =>
    generalize s.status = pc at h
    cases h with
    | select => exact ⟨rfl, rfl⟩

theorem stage_run (hprov : cfg.provider = .androidGateway)
    (hselect : Step lib cfg s (.status (.select now)) s₁)
    (hrun : Transition.Run (PassStep lib cfg replies) s₁ tr u) :
    Stage lib cfg s now replies s₁ tr u := by
  induction hrun with
  | nil =>
    have hnone : ∀ m ∈ ([] : List Message), odd (replies m.id) = false := fun _ h =>
      absurd h List.not_mem_nil
    exact .asking [] (polledAt s now) rfl hnone (select_pass hselect).2
  | snoc hrun hstep ih => exact stage_step hprov ih hrun hstep

/-! ### Every pass ends -/

/-- A move of the status loop is a step of the relay. -/
theorem step_status {b : Act} {db : Store} {pc : Pc}
    (h : StatusLoop.step cfg s.db s.status b = some (db, pc)) :
    Step lib cfg s (.status b) { s with db := db, status := pc } := by
  simp [Step, StepOf, SmsRelay.step, Fresh, Action.uuids, act, h]

/-- The next answer. -/
theorem fetch_pass (hprov : cfg.provider = .androidGateway) {objs : List (Tracked Message)}
    {rest : List Message} (hpc : u.status = resume objs (m :: rest)) :
    PassStep lib cfg replies u (.status (.fetched m.id (.gateway (replies m.id))))
      { u with
        status := match AndroidGatewayProvider.fetchStatus (replies m.id) with
          | .ok status => resume (objs ++ [(Tracked.load m).assign (upgrade status)]) rest
          | .error _ => .idle } := by
  refine ⟨rfl, @step_status _ _ u _ u.db _ ?_⟩
  rw [resume] at hpc
  rw [hpc]
  simp only [StatusLoop.step, if_pos, providerFetchStatus, hprov, Option.map_some]
  cases AndroidGatewayProvider.fetchStatus (replies m.id) <;> rfl

/-- Once all answers are in, the pass commits, if there is something to write. -/
theorem exists_passCommit (hdb : u.db = s.db)
    (hpc : u.status = resume ((polledAt s now).map (heard replies)) []) :
    ∃ tr t, Transition.Run (PassStep lib cfg replies) u tr t ∧
      (∀ a ∈ tr, ∃ b, a = .status b) ∧ t.status = .idle := by
  by_cases hdirty : ∃ o ∈ (polledAt s now).map (heard replies), o.Dirty
  · -- the commit succeeds, the rows are as they were selected
    have hheard := @heard_changes s now replies
    obtain ⟨db, hcommit⟩ := exists_update_status 0 hheard nodup_heard fun o ho => by
      obtain ⟨m, hm, rfl⟩ := List.mem_map.mp ho
      exact ⟨m, (sent_of_polled hm).1, rfl⟩
    rw [← hdb] at hcommit
    rw [resume, if_pos hdirty] at hpc
    have hstep : Step lib cfg u (.status (.commit 0)) { u with db := db, status := .idle } :=
      step_status (by rw [hpc]; simp only [StatusLoop.step, hcommit]; rfl)
    have hpass : PassStep lib cfg replies u (.status (.commit 0)) _ := ⟨trivial, hstep⟩
    exact ⟨_, _, Run.single hpass, by simp, rfl⟩
  · rw [resume, if_neg hdirty] at hpc
    exact ⟨[], u, .nil, by simp, hpc⟩

/-- A pass that is left alone comes to an end. -/
theorem exists_pass (hprov : cfg.provider = .androidGateway) (rest : List Message) :
    ∀ (done : List Message) (u : Sys), polledAt s now = done ++ rest → u.db = s.db →
      u.status = resume (done.map (heard replies)) rest →
      ∃ tr t, Transition.Run (PassStep lib cfg replies) u tr t ∧
        (∀ a ∈ tr, ∃ b, a = .status b) ∧ t.status = .idle := by
  -- Induction on the messages that are left to ask about
  induction rest with
  | nil =>
    intro done u hsplit hdb hpc
    rw [List.append_nil] at hsplit
    exact exists_passCommit hdb (hsplit ▸ hpc)
  | cons m rest ih =>
    intro done u hsplit hdb hpc
    have hfetch := @fetch_pass lib cfg u replies m hprov _ rest hpc
    cases hodd : odd (replies m.id) with
    | true =>
      obtain ⟨e, he⟩ := fetchStatus_odd hodd
      rw [he] at hfetch
      exact ⟨_, _, Run.single hfetch, by simp, rfl⟩
    | false =>
      rw [fetchStatus_eq hodd] at hfetch
      have hdone : (done ++ [m]).map (heard replies) =
          done.map (heard replies) ++ [heard replies m] := List.map_append
      obtain ⟨tr, t, hrun, hown, hidle⟩ := ih (done ++ [m])
        { u with status := resume ((done ++ [m]).map (heard replies)) rest }
        (by rw [hsplit]; simp) hdb rfl
      rw [hdone] at hrun
      refine ⟨_, t, (Run.single hfetch).append hrun, fun a ha => ?_, hidle⟩
      rcases List.mem_append.mp ha with ha | ha
      · exact ⟨_, List.mem_singleton.mp ha⟩
      · exact hown a ha

/-! ### What a pass needs -/

/-- A pass that has come to its end without a commit has met an odd answer, or had nothing
    to write. -/
theorem Stage.over (h : Stage lib cfg s now replies s₁ tr u) (hidle : u.status = .idle) :
    (∃ m ∈ polledAt s now, odd (replies m.id) = true) ∨
      CommitsNews lib cfg s now replies s₁ tr ∨
      ∀ m ∈ polledAt s now, ∀ status, ¬ News replies m status := by
  cases h with
  | escaped hodd _ => exact .inl hodd
  | committed _ _ hnews => exact .inr (.inl hnews)
  | asking done rest hsplit _ hpc =>
    rw [hidle] at hpc
    cases rest with
    | cons m rest => cases hpc
    | nil =>
      rw [List.append_nil] at hsplit
      rw [← hsplit, resume] at hpc
      split at hpc
      · cases hpc
      · next hclean =>
        refine .inr (.inr fun m hm status hnews => hclean ?_)
        exact ⟨_, List.mem_map_of_mem hm, (dirty_heard hm).mpr ⟨status, hnews⟩⟩

/-- A pass that commits has met no odd answer. -/
theorem Stage.not_odd (h : Stage lib cfg s now replies s₁ tr u) {stamp : Time}
    (hstep : Step lib cfg u (.status (.commit stamp)) v) :
    ∀ m ∈ polledAt s now, odd (replies m.id) = false := by
  have hpc : ∃ objs, u.status = .committing objs := by
    cases (trans_of_step hstep).2 with
    | status h =>
      generalize u.status = pc at h
      cases h with
      | commit => exact ⟨_, rfl⟩
  obtain ⟨objs, hpc⟩ := hpc
  cases h with
  | escaped _ hidle => rw [hidle] at hpc; cases hpc
  | committed _ hidle _ => rw [hidle] at hpc; cases hpc
  | asking done rest hsplit hnone hres =>
    cases rest with
    | cons m rest => rw [hres, resume] at hpc; cases hpc
    | nil =>
      rw [List.append_nil] at hsplit
      rw [hsplit]
      exact hnone

/-- The steps of a pass write only what it was told. -/
theorem Stage.onlyTold (hprov : cfg.provider = .androidGateway)
    (h : Stage lib cfg s now replies s₁ tr u)
    (hrun : Transition.Run (PassStep lib cfg replies) s₁ tr u) {b : Act}
    (hstep : PassStep lib cfg replies u (.status b) v) : OnlyTold s now replies u.db v.db := by
  cases h with
  | asking done rest hsplit hnone hpc => exact (asking_step hprov hsplit hnone hpc hrun hstep).2
  | escaped _ hidle => exact absurd hidle (not_idle_of_pass hstep)
  | committed _ hidle _ => exact absurd hidle (not_idle_of_pass hstep)

/-- What the property needs: no odd answer, unless no answer has news. -/
theorem harmless_of_pollsAll (hprov : cfg.provider = .androidGateway)
    (h : PollsAll lib cfg s now replies) :
    (∀ m ∈ polledAt s now, odd (replies m.id) = false) ∨
      ∀ m ∈ polledAt s now, ∀ status, ¬ News replies m status := by
  by_cases hnews : ∃ m ∈ polledAt s now, ∃ status, News replies m status
  · -- the pass left alone commits the news, so nothing raised
    left
    obtain ⟨s₁, tr, t, hselect, hrun, -, hidle⟩ := h.ends
    obtain ⟨tr₁, stamp, tr₂, u, v, -, hbefore, hstep, -⟩ :=
      h.updates s₁ tr t hselect hrun hidle hnews
    exact (stage_run hprov hselect hbefore).not_odd hstep
  · right
    intro m hm status hstatus
    exact hnews ⟨m, hm, status, hstatus⟩

end

/-- **One odd answer stops a pass**, unless there was nothing to commit: a pass commits what
    each answer tells about its own message exactly when no answer is odd, or none has
    news. -/
theorem polls_all_iff {lib : Lib} {cfg : Settings} {s : Sys} {now : Time}
    {replies : String → HttpReply} (hprov : cfg.provider = .androidGateway)
    (hidle : s.status = .idle) :
    PollsAll lib cfg s now replies ↔
      (∀ m ∈ polledAt s now, odd (replies m.id) = false) ∨
        ∀ m ∈ polledAt s now, ∀ status, ¬ News replies m status := by
  constructor
  · exact harmless_of_pollsAll hprov
  · intro h
    have hselect : Step lib cfg s (.status (.select now))
        { s with db := s.db, status := resume [] (polledAt s now) } :=
      step_status (by rw [hidle]; rfl)
    obtain ⟨tr', t, hpass, hown, hend⟩ :=
      exists_pass hprov (polledAt s now) []
        { s with db := s.db, status := resume [] (polledAt s now) } rfl rfl rfl
    refine ⟨⟨_, tr', t, hselect, hpass, hown, hend⟩, ?_, ?_⟩
    · intro s₁ tr₁ u hselect hpass hend hnews
      obtain ⟨m, hm, status, hstatus⟩ := hnews
      -- the pass has not met an odd answer, and it had something to write
      rcases (stage_run hprov hselect hpass).over hend with ⟨m', hm', hodd⟩ | hdone | hnone
      · rcases h with hfine | hnothing
        · rw [hfine m' hm'] at hodd
          cases hodd
        · exact absurd hstatus (hnothing m hm status)
      · exact hdone
      · exact absurd hstatus (hnone m hm status)
    · intro s₁ tr₁ u a v hselect hpass hstep
      exact (stage_run hprov hselect hpass).onlyTold hprov hpass hstep

namespace Sample

/-- Two messages go out and are accepted, as `g1` and `g2`. -/
def twoSent : List Action :=
  sent ++
    [.sendMessage 1 (.begin "svc" request), .sendMessage 1 (.create ["m2"] 3),
      .sendMessage 1 .commit] ++
    post "m2" 4 ++ [answer "m2" 202 (some (.obj [("id", .str "g2")])) 5, .send (.commit 5)]

/-- What a pass at time 6 asks about, and whether the loop is ready for one. -/
def dueForPoll (s : Sys) : List String × Bool :=
  ((polledAt s 6).map Message.id,
    match s.status with
    | .idle => true
    | _ => false)

theorem run_twoSent : ∃ s, Run lib cfg (Sys.init env) twoSent s ∧
    (polledAt s 6).map Message.id = ["m1", "m2"] ∧ s.status = .idle := by
  obtain ⟨s, hrun, hs⟩ : ∃ s, Run lib cfg (Sys.init env) twoSent s ∧
      dueForPoll s = (["m1", "m2"], true) := run_of_exec_map (by decide +kernel)
  refine ⟨s, hrun, congrArg Prod.fst hs, ?_⟩
  have hflag := congrArg Prod.snd hs
  simp only [dueForPoll] at hflag
  split at hflag
  · assumption
  · cases hflag

/-- The gateway's answer to a poll. -/
def stateReply (state : String) : HttpReply := .ok ⟨200, "", .ok (.obj [("state", .str state)])⟩

/-- The first message was delivered, the second one failed. -/
def plainReplies (id : String) : HttpReply :=
  if id = "m1" then stateReply "Delivered" else stateReply "Failed"

/-- Something that is no object for the first message; the second one was delivered. -/
def oddReplies (id : String) : HttpReply :=
  if id = "m1" then .ok ⟨200, "", .ok (.arr [.int 1])⟩ else stateReply "Delivered"

end Sample

/-- Two plain answers are both committed. -/
theorem polls_all_iff_plain : ∃ s,
    Run Sample.lib Sample.cfg (Sys.init Sample.env) Sample.twoSent s ∧
    PollsAll Sample.lib Sample.cfg s 6 Sample.plainReplies := by
  obtain ⟨s, hrun, -, hidle⟩ := Sample.run_twoSent
  refine ⟨s, hrun, (polls_all_iff rfl hidle).mpr (.inl fun m _ => ?_)⟩
  unfold Sample.plainReplies
  split <;> rfl

/-- The promise, of every pass that gets an answer or an `httpx.HTTPError` for each message. -/
def PollsEverything (lib : Lib) (cfg : Settings) (env : Env) : Prop :=
  ∀ tr s now replies, Run lib cfg (Sys.init env) tr s → s.status = .idle →
    (∀ id e, replies id = .error e → ∃ text, e = .httpError text) →
      PollsAll lib cfg s now replies

/-- The gateway answers `[1]` about one message: that the other one was delivered is lost. -/
theorem not_pollsEverything_array : ¬ PollsEverything Sample.lib Sample.cfg Sample.env := by
  intro hclaim
  obtain ⟨s, hrun, hids, hidle⟩ := Sample.run_twoSent
  have hanswers : ∀ id e, Sample.oddReplies id = .error e → ∃ text, e = .httpError text := by
    intro id e h
    unfold Sample.oddReplies at h
    split at h <;> cases h
  have hpolls := hclaim _ s 6 Sample.oddReplies hrun hidle hanswers
  have hmem : ∀ id ∈ ["m1", "m2"], ∃ m ∈ polledAt s 6, m.id = id := by
    intro id hid
    rw [← hids] at hid
    exact List.mem_map.mp hid
  obtain ⟨m₁, hm₁, hid₁⟩ := hmem "m1" (by decide)
  obtain ⟨m₂, hm₂, hid₂⟩ := hmem "m2" (by decide)
  rcases harmless_of_pollsAll rfl hpolls with hfine | hnothing
  · have hodd := hfine m₁ hm₁
    rw [hid₁] at hodd
    cases hodd
  · refine hnothing m₂ hm₂ .delivered ?_
    rw [News, hid₂]
    exact ⟨rfl, by decide⟩

end SmsRelay
