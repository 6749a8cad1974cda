import SmsRelay.ForStd.Except
import SmsRelay.Spec.Queue

/-!
# Idempotency keys

A caller that repeats a request under one key gets one message.  Two code paths have to
agree on that: the lookup before the insert, and the second lookup after another call
has won the race for `uq_messages_service_idem`.

## Key results

- `answers_step`: an answer under a key always names a committed row of that key
- `idempotent_send`: one row for every key, and all answers name it
-/

namespace SmsRelay

open UnitOfWork Transition

/-! ## One row for a request with a key -/

namespace SendMessage

/-- A key goes with exactly one recipient. -/
theorem length_of_validate {lib : Lib} {cfg : Settings} {request : SendRequest}
    {normalized : List String} (h : validate lib cfg request = .ok normalized)
    (hkey : (keyOf request).isSome) : normalized.length = 1 := by
  unfold validate at h
  split at h
  · cases h
  · next hne =>
    split at h
    · cases h
    · cases h
    · next zs hmap =>
      split at h
      · cases h
      · next hfew =>
        obtain rfl : zs = normalized := by simpa using h
        -- one number for each recipient, and at least one recipient
        have hlen := (Except.mapM_eq_ok.mp hmap).length_eq
        have hpos : 0 < (recipientsOf request).length := List.length_pos_of_ne_nil hne
        have hle : ¬ 1 < zs.length := fun hmany => hfew ⟨hkey, hmany⟩
        omega

/-- The key a new row is stored under. -/
theorem idemKey_newMessage {service key : String} {request : SendRequest}
    {id toNumber : String} {topic : Option String} {now : Time} (hkey : keyOf request = some key) :
    (newMessage service request id toNumber topic now).idemKey = some (service, key) := by
  unfold keyOf at hkey
  split at hkey
  · next stored heq =>
    split at hkey
    · cases hkey
    · obtain rfl : stored = key := by simpa using hkey
      simp [Message.idemKey, newMessage, heq]
  · cases hkey

/-- What a call with a key holds at each point. -/
def KeyInv : Pc → Prop
  | .lookup _ request normalized => (keyOf request).isSome → normalized.length = 1
  | .creating _ request normalized => (keyOf request).isSome → normalized.length = 1
  | .committing service request rows => ∀ key, keyOf request = some key →
      ∃ m, rows = [m] ∧ m.idemKey = some (service, key)
  | _ => True

/-- A lookup under a key answers with the row that has the key, or goes on. -/
theorem mem_existing {db : Store} {service key : String} {m : Message}
    (h : scalarOneOrNone (existingByIdempotencyKey db service key) = .ok (some m)) :
    m ∈ db.messages ∧ m.idemKey = some (service, key) := by
  have hmem : m ∈ existingByIdempotencyKey db service key := by
    rw [Inbound.scalarOneOrNone_some h]
    exact List.mem_singleton.mpr rfl
  obtain ⟨hm, hmatch⟩ := List.mem_filter.mp hmem
  simp only [Bool.and_eq_true, decide_eq_true_eq] at hmatch
  exact ⟨hm, by simp [Message.idemKey, hmatch.1, hmatch.2]⟩

/-- **Where a 202 comes from**: the call has committed its rows, or it has found the row
    that is stored under its key. -/
theorem Trans.accepted_cases {lib : Lib} {cfg : Settings} {env : Env} {db db' : Store}
    {pc pc' : Pc} {a : Act} (h : Trans lib cfg env db pc a db' pc') {service : String}
    {request : SendRequest} {rows : List Message}
    (hdone : pc' = .done service request (.accepted rows)) :
    (pc = .committing service request rows ∧ db'.messages = db.messages ++ rows) ∨
      ∃ key m, keyOf request = some key ∧ rows = [m] ∧ m ∈ db'.messages ∧
        m.idemKey = some (service, key) := by
  cases h with
  | refuse | topicRaises | dbError => cases hdone
  | begin => split at hdone <;> cases hdone
  | create | integrityError => cases hdone
  | commit hdb =>
    cases hdone
    exact .inl ⟨rfl, (Store.insertMessages_eq_some.mp hdb).1⟩
  -- the lookup before the insert, and the one after an `IntegrityError`
  | @lookup _ _ _ key hkey =>
    unfold afterLookup at hdone
    split at hdone
    · cases hdone
    · next m hm =>
      cases hdone
      exact .inr ⟨key, m, hkey, rfl, mem_existing hm⟩
    · cases hdone
  | recover =>
    unfold afterRecovery at hdone
    split at hdone
    · cases hdone
    · next key hkey =>
      split at hdone
      · cases hdone
      · next m hm =>
        cases hdone
        exact .inr ⟨key, m, hkey, rfl, mem_existing hm⟩
      · cases hdone

/-- The invariant of a call is kept by its steps. -/
theorem keyInv_step {lib : Lib} {cfg : Settings} {env : Env} {db db' : Store} {pc pc' : Pc}
    {a : Act} (hi : KeyInv pc) (h : Trans lib cfg env db pc a db' pc') : KeyInv pc' := by
  cases h with
  | begin hv =>
    split
    · exact fun hkey => length_of_validate hv hkey
    · exact fun hkey => length_of_validate hv hkey
  | lookup hkey =>
    unfold afterLookup
    split
    · trivial
    · trivial
    · exact hi
  | @create service request normalized uuids now rows hlen hcreated =>
    intro key hkey
    -- the key was checked against the number of recipients
    have hone : normalized.length = 1 := hi (by rw [hkey]; rfl)
    obtain ⟨hids, hmem⟩ := mem_created hcreated
    have hrows : rows.length = 1 := by
      have := congrArg List.length hids
      simp only [List.length_map, List.length_zip] at this
      omega
    obtain ⟨m, rfl⟩ := List.length_eq_one_iff.mp hrows
    obtain ⟨id, toNumber, topic, -, rfl⟩ := hmem m (List.mem_singleton.mpr rfl)
    exact ⟨_, rfl, idemKey_newMessage hkey⟩
  | recover =>
    unfold afterRecovery
    split
    · trivial
    · split <;> trivial
  | refuse | topicRaises | commit | integrityError | dbError => trivial

end SendMessage

/-! ## Answers -/

/-- Some call was answered 202 for the service and the key `k`, with `m` in the answer. -/
def Sys.Answer (s : Sys) (k : String × String) (m : Message) : Prop :=
  ∃ call request rows, s.sendMessages call = .done k.1 request (.accepted rows) ∧
    SendMessage.keyOf request = some k.2 ∧ m ∈ rows

/-- The answers of a new state are the old ones and one that names a committed row. -/
theorem SendMessage.Trans.answer {lib : Lib} {cfg : Settings} {env : Env} {db db' : Store}
    {pc pc' : SendMessage.Pc} {a : SendMessage.Act} (hi : SendMessage.KeyInv pc)
    (h : SendMessage.Trans lib cfg env db pc a db' pc') {service key : String}
    {request : SendRequest} {rows : List Message}
    (hdone : pc' = .done service request (.accepted rows))
    (hkey : SendMessage.keyOf request = some key) :
    ∃ m, rows = [m] ∧ m ∈ db'.messages ∧ m.idemKey = some (service, key) := by
  cases h.accepted_cases hdone with
  | inl hcommit =>
    obtain ⟨rfl, hrows⟩ := hcommit
    -- the call has a key, so it has committed one row
    obtain ⟨m, rfl, hk⟩ := hi key hkey
    refine ⟨m, rfl, ?_, hk⟩
    rw [hrows]
    exact List.mem_append_right _ (List.mem_singleton.mpr rfl)
  | inr hfound =>
    obtain ⟨key', m, hkey', rfl, hm, hk⟩ := hfound
    obtain rfl := Option.some.inj (hkey'.symm.trans hkey)
    exact ⟨m, rfl, hm, hk⟩

/-- What answers under keys agree on, in every state. -/
structure KeyLedger (cfg : Settings) (s : Sys) : Prop where
  calls : ∀ call, SendMessage.KeyInv (s.sendMessages call)
  single : ∀ call service request rows,
    s.sendMessages call = .done service request (.accepted rows) →
      (SendMessage.keyOf request).isSome → rows.length = 1
  key : ∀ k m, s.Answer k m → m.idemKey = some k
  tracks : ∀ k m, s.Answer k m → Tracks cfg s m
  agree : ∀ k k' m m', s.Answer k m → s.Answer k' m' → m.id = m'.id → k = k'

/-- A call of the next state that was answered under a key was answered before, or has
    just been answered with a committed row of the key. -/
theorem done_step {lib : Lib} {cfg : Settings} {s t : Sys} {a : Action}
    (hcalls : ∀ call, SendMessage.KeyInv (s.sendMessages call)) (h : Trans lib cfg s a t)
    {call : Nat} {service key : String} {request : SendRequest} {rows : List Message}
    (hdone : t.sendMessages call = .done service request (.accepted rows))
    (hkey : SendMessage.keyOf request = some key) :
    s.sendMessages call = .done service request (.accepted rows) ∨
      ∃ m, rows = [m] ∧ m ∈ t.db.messages ∧ m.idemKey = some (service, key) := by
  cases h.sendMessage_step call with
  | other _ hpc => exact .inl (hpc ▸ hdone)
  | crash hpc => exact .inl (SendMessage.Pc.done_of_crashed (hpc ▸ hdone))
  | own h => exact .inr (h.answer (hcalls call) hdone hkey)

/-- **An answer under a key names a committed row of that key.** -/
theorem answers_step {lib : Lib} {cfg : Settings} {s t : Sys} {a : Action}
    (hl : KeyLedger cfg s) (h : Trans lib cfg s a t) {k : String × String} {m : Message}
    (hm : t.Answer k m) : s.Answer k m ∨ (m ∈ t.db.messages ∧ m.idemKey = some k) := by
  obtain ⟨call, request, rows, hdone, hkey, hmem⟩ := hm
  rcases done_step hl.calls h hdone hkey with hold | ⟨m', rfl, hrow, hk⟩
  · exact .inl ⟨call, request, rows, hold, hkey, hmem⟩
  · obtain rfl := List.mem_singleton.mp hmem
    exact .inr ⟨hrow, hk⟩

/-- The invariants of the calls after a step. -/
theorem keyInv_sys_step {lib : Lib} {cfg : Settings} {s t : Sys} {a : Action}
    (hcalls : ∀ call, SendMessage.KeyInv (s.sendMessages call)) (h : Trans lib cfg s a t) :
    ∀ call, SendMessage.KeyInv (t.sendMessages call) := by
  intro call
  cases h.sendMessage_step call with
  | other _ hpc => exact hpc ▸ hcalls call
  | crash hpc =>
    rw [hpc]
    cases s.sendMessages call <;> trivial
  | own h => exact SendMessage.keyInv_step (hcalls call) h

/-- **The agreement of all answers is kept by every step.** -/
theorem keyLedger_step {lib : Lib} {cfg : Settings} {s t : Sys} {a : Action}
    (hl : KeyLedger cfg s) (hi : Inv cfg s) (hstep : Step lib cfg s a t) : KeyLedger cfg t := by
  have hit := inv_step hi hstep
  obtain ⟨hfresh, h⟩ := trans_of_step hstep
  have hanswers := fun {k m} hm => answers_step hl h (k := k) (m := m) hm
  -- what an answer stands for, whether it is old or new
  have htracks : ∀ k m, t.Answer k m → m.idemKey = some k ∧ Tracks cfg t m := fun k m hm => by
    rcases hanswers hm with hold | ⟨hrow, hk⟩
    · exact ⟨hl.key k m hold, (hl.tracks k m hold).step hi hfresh h⟩
    · exact ⟨hk, hit.tracks_self hrow⟩
  have hsame : ∀ k m m', t.Answer k m → m' ∈ t.db.messages → m'.id = m.id →
      m'.idemKey = some k := fun k m m' hm hrow hid => by
    obtain ⟨hk, -, hevolved⟩ := htracks k m hm
    exact (Message.idemKey_eq_of_content (hevolved m' hrow hid).frame).trans hk
  refine
    { calls := keyInv_sys_step hl.calls h
      single := fun call service request rows hdone hkey => ?_
      key := fun k m hm => (htracks k m hm).1
      tracks := fun k m hm => (htracks k m hm).2
      agree := fun k k' m m' hm hm' hid => ?_ }
  · obtain ⟨key, hkey'⟩ := Option.isSome_iff_exists.mp hkey
    rcases done_step hl.calls h hdone hkey' with hold | ⟨m, rfl, -⟩
    · exact hl.single call service request rows hold hkey
    · rfl
  · rcases hanswers hm with hold | ⟨hrow, hk⟩
    · rcases hanswers hm' with hold' | ⟨hrow', hk'⟩
      · exact hl.agree k k' m m' hold hold' hid
      · exact Option.some.inj ((hsame k m m' hm hrow' hid.symm).symm.trans hk')
    · exact Option.some.inj (hk.symm.trans (hsame k' m' m hm' hrow hid))

variable {lib : Lib} {cfg : Settings} {env : Env} {tr : List Action} {t : Sys}

theorem keyLedger_init (cfg : Settings) (env : Env) : KeyLedger cfg (Sys.init env) where
  calls _ := trivial
  single _ _ _ _ hdone _ := by cases hdone
  key k m hm := by
    obtain ⟨_, _, _, hdone, -⟩ := hm
    cases hdone
  tracks k m hm := by
    obtain ⟨_, _, _, hdone, -⟩ := hm
    cases hdone
  agree k k' m m' hm := by
    obtain ⟨_, _, _, hdone, -⟩ := hm
    cases hdone

theorem keyLedger_reachable (hrun : Run lib cfg (Sys.init env) tr t) : KeyLedger cfg t :=
  hrun.traceInvariant (P := fun _ s => KeyLedger cfg s) (keyLedger_init cfg env)
    fun _ _ _ _ hrun hl hstep => keyLedger_step hl (inv_reachable hrun) hstep

/-! ## While the row is kept -/

/-- The retention sweep does not delete the row of the key. -/
def SparesKey (cfg : Settings) (k : String × String) (s : Sys) : Action → Prop
  | .prune now => ∀ m ∈ s.db.messages, m.idemKey = some k → isPrunable cfg now m = false
  | _ => True

/-- A step that does not prune the row of the key keeps it. -/
theorem kept_step {s : Sys} {a : Action} {k : String × String} (hi : Inv cfg s)
    (h : Trans lib cfg s a t) (hspares : SparesKey cfg k s a) {r : Message}
    (hr : r ∈ s.db.messages) (hk : r.idemKey = some k) :
    ∃ r' ∈ t.db.messages, r'.id = r.id ∧ r'.idemKey = some k := by
  rcases rows_fate hi h hr with ⟨r', hr', rfl | hcause⟩ | ⟨now, rfl, hprune⟩
  · exact ⟨_, hr', rfl, hk⟩
  · have hframe := (hcause.change hi hr).frame
    exact ⟨r', hr', Message.id_eq_of_content hframe,
      (Message.idemKey_eq_of_content hframe).trans hk⟩
  · rw [hspares r hr hk] at hprune
    cases hprune

/-- As long as it is not pruned, the row an answer named stays in the database. -/
theorem answer_stored {k : String × String}
    (hrun : Transition.Run (Guarded (SparesKey cfg k) (Step lib cfg)) (Sys.init env) tr t) :
    ∀ m, t.Answer k m → ∃ r ∈ t.db.messages, r.id = m.id ∧ r.idemKey = some k := by
  induction hrun with
  | nil =>
    rintro m ⟨_, _, _, hdone, -⟩
    cases hdone
  | snoc hrun hstep ih =>
    obtain ⟨hspares, hstep⟩ := hstep
    have hi := inv_reachable hrun.unguard
    obtain ⟨-, h⟩ := trans_of_step hstep
    intro m hm
    -- an old answer's row is kept by the step, a new one names a stored row
    rcases answers_step (keyLedger_reachable hrun.unguard) h hm with hold | ⟨hrow, hk⟩
    · obtain ⟨r, hr, hid, hk⟩ := ih m hold
      obtain ⟨r', hr', hid', hk'⟩ := kept_step hi h hspares hr hk
      exact ⟨r', hr', hid'.trans hid, hk'⟩
    · exact ⟨m, hrow, rfl, hk⟩

/-- **Idempotent send.**  As long as the retention sweep spares the row of
    `(service, key)`: once a call was answered 202 under the key, the database has
    exactly one row for it, every such answer names that row and nothing else, and no
    answer under another service or key names the same row. -/
theorem idempotent_send {service key : String}
    (hrun : Transition.Run (Guarded (SparesKey cfg (service, key)) (Step lib cfg))
      (Sys.init env) tr t) {call : Nat} {request : SendRequest} {rows : List Message}
    (hdone : t.sendMessages call = .done service request (.accepted rows))
    (hkey : SendMessage.keyOf request = some key) :
    (∃ m ∈ t.db.messages, (∀ r ∈ t.db.messages, r.idemKey = some (service, key) ↔ r = m) ∧
      ∀ call' request' rows', t.sendMessages call' = .done service request' (.accepted rows') →
        SendMessage.keyOf request' = some key → rows'.map Message.id = [m.id]) ∧
    ∀ call' service' request' rows' key',
      t.sendMessages call' = .done service' request' (.accepted rows') →
        SendMessage.keyOf request' = some key' → (service', key') ≠ (service, key) →
          ∀ m ∈ rows, ∀ m' ∈ rows', m.id ≠ m'.id := by
  have hl := keyLedger_reachable hrun.unguard
  have hstored := answer_stored hrun
  have hanswer : ∀ {call request rows m},
      t.sendMessages call = .done service request (.accepted rows) →
      SendMessage.keyOf request = some key → m ∈ rows → t.Answer (service, key) m :=
    fun hdone hkey hm => ⟨_, _, _, hdone, hkey, hm⟩
  have hone : ∀ {call request rows}, t.sendMessages call = .done service request (.accepted rows) →
      SendMessage.keyOf request = some key → ∃ m, rows = [m] := fun hdone hkey =>
    List.length_eq_one_iff.mp (hl.single _ _ _ _ hdone (by rw [hkey]; rfl))
  constructor
  · obtain ⟨m₀, rfl⟩ := hone hdone hkey
    obtain ⟨m, hm, -, hk⟩ := hstored m₀ (hanswer hdone hkey (List.mem_singleton.mpr rfl))
    have honly : ∀ r ∈ t.db.messages, r.idemKey = some (service, key) → r = m :=
      fun r hr hk' => Store.eq_of_idemKey hr hm hk' hk
    -- `uq_service_idem`: every answer under the key is found to name `m`
    refine ⟨m, hm, fun r hr => ⟨honly r hr, fun heq => heq ▸ hk⟩, ?_⟩
    intro call' request' rows' hdone' hkey'
    obtain ⟨m', rfl⟩ := hone hdone' hkey'
    obtain ⟨r, hr, hid, hkr⟩ := hstored m' (hanswer hdone' hkey' (List.mem_singleton.mpr rfl))
    obtain rfl := honly r hr hkr
    rw [List.map_singleton, hid]
  · intro call' service' request' rows' key' hdone' hkey' hne m hm m' hm' hid
    exact hne (hl.agree (service', key') (service, key) m' m ⟨_, _, _, hdone', hkey', hm'⟩
      (hanswer hdone hkey hm) hid.symm)

namespace Sample

/-- The request again, under a key. -/
def keyedRequest : SendRequest :=
  { request with
    idempotencyKey := some "k"
    key_length := fun key hkey => by
      obtain rfl := Option.some.inj hkey
      decide }

/-- Two calls with one key race: both find nothing, the first commits, the second runs
    into the constraint and recovers. -/
def race : List Action :=
  [.sendMessage 0 (.begin "svc" keyedRequest), .sendMessage 1 (.begin "svc" keyedRequest),
    .sendMessage 0 .lookup, .sendMessage 1 .lookup,
    .sendMessage 0 (.create ["m1"] 0), .sendMessage 1 (.create ["m2"] 0),
    .sendMessage 0 .commit, .sendMessage 1 .integrityError, .sendMessage 1 .recover]

/-- The row the race leaves, which both calls answer with. -/
def winner : Message := SendMessage.newMessage "svc" keyedRequest "m1" "+12025550101" none 0

end Sample

/-- Both calls of the race are answered with the winner's row. -/
theorem idempotent_send_race : ∃ t, Run Sample.lib Sample.cfg (Sys.init Sample.env) Sample.race t ∧
    t.sendMessages 0 = .done "svc" Sample.keyedRequest (.accepted [Sample.winner]) ∧
    t.sendMessages 1 = .done "svc" Sample.keyedRequest (.accepted [Sample.winner]) ∧
    ∃ m ∈ t.db.messages, ∀ r ∈ t.db.messages, r.idemKey = some ("svc", "k") ↔ r = m := by
  obtain ⟨t, ht⟩ : ∃ t, exec (step Sample.lib Sample.cfg) (Sys.init Sample.env) Sample.race =
      some t := Option.isSome_iff_exists.mp (by decide +kernel)
  have hrun : Run Sample.lib Sample.cfg (Sys.init Sample.env) Sample.race t := run_of_exec ht
  have hdone : (exec (step Sample.lib Sample.cfg) (Sys.init Sample.env) Sample.race).map
      (fun t => (t.sendMessages 0, t.sendMessages 1)) =
      some (.done "svc" Sample.keyedRequest (.accepted [Sample.winner]),
        .done "svc" Sample.keyedRequest (.accepted [Sample.winner])) := rfl
  rw [ht] at hdone
  obtain ⟨hdone₀, hdone₁⟩ := Prod.mk.inj (Option.some.inj hdone)
  have hguard := hrun.guard (P := fun a => ∀ s, SparesKey Sample.cfg ("svc", "k") s a) (by
    simp [Sample.race, SparesKey])
  have hspared : Transition.Run (Guarded (SparesKey Sample.cfg ("svc", "k"))
      (Step Sample.lib Sample.cfg)) (Sys.init Sample.env) Sample.race t :=
    hguard.mono fun _ _ _ h => ⟨h.1 _, h.2⟩
  obtain ⟨⟨m, hm, hiff, -⟩, -⟩ := idempotent_send hspared hdone₀ (by decide +kernel)
  exact ⟨t, hrun, hdone₀, hdone₁, m, hm, hiff⟩

end SmsRelay
