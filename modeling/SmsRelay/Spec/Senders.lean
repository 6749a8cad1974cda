import SmsRelay.Spec.Receive

/-!
# Texts from any sender

The sender of an event is whatever JSON value the gateway put there.  `normalize` expects a
`str`, and its caller catches one exception.

## Key results

- `answersDuplicate_iff`: when an event that is stored already is answered as a duplicate
- `sender_never_drops_iff`: which events with a text are stored
-/

namespace SmsRelay

open Transition Webhooks Inbound

/-- The call, made in the state `s`, stores one inbound message with the text and the
    expected sender. -/
def StoresText (lib : Lib) (cfg : Settings) (s : Sys) (call : Nat)
    (event : List (PyStr × Json PyStr)) (parsed : Except LoadsError (Json PyStr)) (text : PyStr)
    (draws : Draws) : Prop :=
  ∃ m ds, Completes lib cfg s call event parsed draws m ds ∧ m.direction = .inbound ∧
    PyStr.text m.body = text ∧
    m.fromNumber.map PyStr.text = expectedFrom lib cfg (extract lib event).sender

/-- The call, made in the state `s`, answers that the message is there already, and
    changes nothing. -/
def AnswersDuplicate (lib : Lib) (cfg : Settings) (s : Sys) (call : Nat)
    (parsed : Except LoadsError (Json PyStr)) : Prop :=
  ∃ t id, Run lib cfg s (List.map (Action.inbound call) [.begin parsed, .select]) t ∧
    t.inbounds call = .done (.duplicate id) ∧ t.db = s.db

section
variable {lib : Lib} {cfg : Settings} {env : Env} {s : Sys} {tr : List Action} {call : Nat}
  {event : List (PyStr × Json PyStr)} {parsed : Except LoadsError (Json PyStr)} {text : PyStr}
  {draws : Draws}

/-- An event that is stored already is answered as a duplicate when it can be read, its
    sender raises nothing and it is stored once. -/
theorem answersDuplicate_iff (hidle : s.inbounds call = .idle) (hparsed : Holds parsed event)
    (htext : IsText event) (hbody : (extract lib event).body = .str text) (hne : text ≠ "")
    {id : String} (hid : (extract lib event).providerId = .text id) (hstored : id ≠ "") :
    AnswersDuplicate lib cfg s call parsed ↔
      parsed = .ok (.obj event) ∧ StringOrFalsy (extract lib event).sender ∧
        (alreadyStored s.db id).length = 1 := by
  have hdraws : DrawsFresh s (List.flatMap (fun a => (Action.inbound call a).uuids)
      [.begin parsed, .select]) := by
    simp [Action.uuids, DrawsFresh]
  have hbegin := begin_text cfg htext hbody hne
  have hlookup : (extract lib event).providerId ≠ "" := fun h =>
    hstored (PyStr.text.inj (hid.symm.trans h))
  simp only [if_neg hlookup] at hbegin
  constructor
  · rintro ⟨t, found, hrun, hdone, -⟩
    have hexec := (run_inbound_iff hdraws).mp ⟨t, hrun, rfl, hdone⟩
    cases parsed with
    | error e =>
      obtain ⟨answer, hanswer⟩ := begin_error lib cfg e
      simp [exec, move, Inbound.step, hidle, hanswer] at hexec
    | ok x =>
      obtain rfl := hparsed x rfl
      cases hnumber : fromNumber lib cfg (extract lib event).sender with
      | error e => simp [exec, move, Inbound.step, hidle, hbegin, hnumber] at hexec
      | ok number =>
        refine ⟨rfl, (fromNumber_eq_ok.mp hnumber).1, ?_⟩
        simp only [exec, move, Inbound.step, hidle, hbegin, hnumber, afterDedup, draftOf, hid,
          PyStr.encode_text, Option.bind_some, Option.some.injEq, Prod.mk.injEq] at hexec
        -- the lookup has ended the call, so it found one row
        have hpc := hexec.2
        split at hpc
        · cases hpc
        · next already halready =>
          have hone := scalarOneOrNone_some halready
          rw [hone]
          rfl
        · cases hpc
  · rintro ⟨rfl, hsender, hone⟩
    obtain ⟨already, halready⟩ := List.length_eq_one_iff.mp hone
    have hnumber : fromNumber lib cfg (extract lib event).sender =
        .ok (expectedFrom lib cfg (extract lib event).sender) :=
      fromNumber_eq_ok.mpr ⟨hsender, rfl⟩
    have hexec : exec (move lib cfg s.env) (s.db, s.inbounds call)
        [.begin (.ok (.obj event)), .select] = some (s.db, .done (.duplicate already.id)) := by
      simp [exec, move, Inbound.step, hidle, hbegin, hnumber, hid, afterDedup, draftOf,
        halready, scalarOneOrNone]
    obtain ⟨t, hrun, hdb, hdone⟩ := (run_inbound_iff hdraws).mpr hexec
    exact ⟨t, already.id, hrun, hdone, hdb⟩

/-- **No text is dropped because of its sender.**  In every reachable state, an event with a
    text is stored with the text and the expected sender, or answered as a duplicate when a
    message is stored under its id, exactly when its sender is a string or falsy, and
    nothing else goes wrong: `json.loads` can read the body; what is to be stored of a new
    message can be bound, and its subscribers can be read, have distinct names and can be
    bound; and an old message is stored once. -/
theorem sender_never_drops_iff (hrun : Run lib cfg (Sys.init env) tr s)
    (hidle : s.inbounds call = .idle) (hparsed : Holds parsed event) (htext : IsText event)
    (hbody : (extract lib event).body = .str text) (hne : text ≠ "")
    (hfresh : DrawsFresh s (draws.uuid :: draws.uuids)) (henough : draws.Enough s.env) :
    (NewId lib s.db event → StoresText lib cfg s call event parsed text draws) ∧
        (¬ NewId lib s.db event → AnswersDuplicate lib cfg s call parsed) ↔
      parsed = .ok (.obj event) ∧ StringOrFalsy (extract lib event).sender ∧
        (NewId lib s.db event → Bindable lib cfg event text ∧ s.env.Fannable) ∧
        (¬ NewId lib s.db event → ∀ id, (extract lib event).providerId = .text id →
          (alreadyStored s.db id).length = 1) := by
  by_cases hnew : NewId lib s.db event
  · -- A new id: the row is that of the text and of the expected sender
    have hstores : StoresText lib cfg s call event parsed text draws ↔
        ∃ m ds, Completes lib cfg s call event parsed draws m ds := by
      constructor
      · rintro ⟨m, ds, hdone, -⟩
        exact ⟨m, ds, hdone⟩
      · rintro ⟨m, ds, hdone⟩
        obtain ⟨-, hdir, hmbody, hfrom, -⟩ :=
          hdone.row hrun hidle hparsed htext hbody hne hnew hfresh henough
        exact ⟨m, ds, hdone, hdir, hmbody, hfrom⟩
    have hiff := hstores.trans
      (exists_completes_iff hrun hidle hparsed htext hbody hne hnew hfresh henough)
    simp [hnew, hiff]
  · -- An old one: the lookup has found a message
    obtain ⟨id, hid, hstored, -⟩ : ∃ id, (extract lib event).providerId = .text id ∧ id ≠ "" ∧
        alreadyStored s.db id ≠ [] := by
      simpa [NewId] using hnew
    have hduplicate : AnswersDuplicate lib cfg s call parsed ↔ _ :=
      answersDuplicate_iff hidle hparsed htext hbody hne hid hstored
    simp [hnew, hduplicate, hid]

end

/-- A sender that does not normalize is kept. -/
theorem sender_never_drops_iff_shortcode :
    StoresText Sample.lib Sample.cfg (Sys.init Sample.env) 0 (Sample.textFrom (.str "BANK"))
      (.ok (.obj (Sample.textFrom (.str "BANK")))) "hi" (Sample.draws []) ∧
    expectedFrom Sample.lib Sample.cfg (.str "BANK") = some "BANK" :=
  ⟨((sender_never_drops_iff .nil rfl (fun _ h => (Except.ok.inj h).symm) (.inl rfl) rfl (by decide)
    ⟨by decide, by simp [Sys.init]⟩ (fun subs hsubs => by
      obtain rfl := Except.ok.inj hsubs
      rfl)).mpr ⟨rfl, fun _ => ⟨_, rfl⟩,
        fun _ => ⟨⟨by decide, by decide, by decide⟩, _, rfl, by decide, by decide⟩,
        fun hold => absurd (fun _ _ _ => rfl) hold⟩).1 fun _ _ _ => rfl, by decide⟩

/-- A sender that is a JSON number: `normalize` raises `AttributeError`, the gateway gets a
    500, and the text is not stored. -/
theorem not_sender_never_drops_number :
    IsText (Sample.textFrom (.int 12025550101)) ∧
    (extract Sample.lib (Sample.textFrom (.int 12025550101))).body = .str "hi" ∧
    NewId Sample.lib (Sys.init Sample.env).db (Sample.textFrom (.int 12025550101)) ∧
    ¬ StoresText Sample.lib Sample.cfg (Sys.init Sample.env) 0
      (Sample.textFrom (.int 12025550101)) (.ok (.obj (Sample.textFrom (.int 12025550101)))) "hi"
      (Sample.draws []) := by
  refine ⟨.inl rfl, rfl, fun _ _ _ => rfl, ?_⟩
  rintro ⟨m, ds, hdone, -⟩
  obtain ⟨-, hsender, -⟩ := (exists_completes_iff .nil rfl (fun _ h => (Except.ok.inj h).symm)
    (.inl rfl) rfl (by decide) (fun _ _ _ => rfl) ⟨by decide, by simp [Sys.init]⟩
    (fun subs hsubs => by
      obtain rfl := Except.ok.inj hsubs
      rfl)).mp ⟨m, ds, hdone⟩
  -- a truthy sender that was accepted would be a string
  obtain ⟨raw, hraw⟩ := hsender rfl
  cases hraw

end SmsRelay
