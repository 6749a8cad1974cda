import SmsRelay.ForStd.Except
import SmsRelay.Spec.Accepted

/-!
# The subscriber list

`SMS_RELAY_SUBSCRIBERS` is text that somebody has typed.  An entry that is no object or
has no `url` is skipped.  Every other entry is converted field by field, and one of these
conversions can raise: `tuple` of an `events` that is `true` or a number.  The list is read
again for every inbound message and every delivery, so such an entry stops them all.  A
surrogate in a name or a url is read without an exception and stops the messages at their
commit; one in a secret stops the deliveries of its subscriber.

## Key results

- `subscribersOf_append`: the entries are read independently, in their order
- `subscribers_degrade_iff`: with which values a bad entry degrades fan-out only
-/

namespace SmsRelay

open Transition Webhooks Inbound

namespace Subscribers

/-! ## One entry -/

/-- The entry passes both shape checks: it is an object with a truthy `url`. -/
def listed : Json PyStr → Bool
  | .obj items => (Json.get items "url").truthy
  | _ => false

/-- `tuple` accepts what the entry has under `events`, or the default takes its place. -/
def iterable : Json PyStr → Bool
  | .arr _ => true
  | .str _ => true
  | .obj _ => true
  | events => !events.truthy

/-- The entry passes both shape checks, and the conversion of its events raises. -/
def unreadable : Json PyStr → Bool
  | .obj items => (Json.get items "url").truthy && !iterable (Json.get items "events")
  | _ => false

/-- The entry describes a subscriber. -/
def wellFormed (entry : Json PyStr) : Bool := listed entry && !unreadable entry

/-- The name of the subscriber an entry describes. -/
def nameOf (lib : Lib) : Json PyStr → PyStr
  | .obj items => lib.str ((Json.get items "name").or (Json.get items "url"))
  | _ => ""

/-- Its url. -/
def urlOf (lib : Lib) : Json PyStr → PyStr
  | .obj items => lib.str (Json.get items "url")
  | _ => ""

/-- Its secret. -/
def secretOf (lib : Lib) : Json PyStr → PyStr
  | .obj items => lib.str ((Json.lookup items "secret").getD (.str ""))
  | _ => ""

/-- The item is the name of the event. -/
def isReceived : Json PyStr → Bool
  | .str s => s = "message.received"
  | _ => false

/-- The events ask for inbound messages: they name them, or the default does. -/
def wants : Json PyStr → Bool
  | .arr items => items.isEmpty || items.any isReceived
  | .obj items => items.isEmpty || items.any fun kv => kv.1 = "message.received"
  | .str s => s = ""
  | _ => true

/-- The entry describes a subscriber to inbound messages. -/
def wantsInbound : Json PyStr → Bool
  | .obj items => wellFormed (.obj items) && wants (Json.get items "events")
  | _ => false

section
variable {lib : Lib} {entry : Json PyStr} {items : List (PyStr × Json PyStr)}

/-- The events of an entry whose `events` can be listed. -/
theorem tupleOf_events {events : Json PyStr} (h : iterable events = true) :
    ∃ names, tupleOf (events.or (.arr [.str "message.received"])) = .ok names ∧
      (PyStr.text "message.received" ∈ names ↔ wants events = true) := by
  by_cases htruthy : events.truthy = true
  · rw [Json.or, if_pos htruthy]
    -- a truthy value that can be iterated: its own items count
    cases events with
    | arr xs =>
      refine ⟨_, rfl, ?_⟩
      have hne : xs.isEmpty = false := by simpa [Json.truthy] using htruthy
      simp only [wants, hne, Bool.false_or, List.any_eq_true, List.mem_filterMap]
      constructor
      · intro hmem
        obtain ⟨x, hx, heq⟩ := hmem
        cases x with
        | str s => exact ⟨.str s, hx, by simpa [isReceived] using heq⟩
        | _ => cases heq
      · intro hany
        obtain ⟨x, hx, heq⟩ := hany
        cases x with
        | str s => exact ⟨.str s, hx, by simpa [isReceived] using heq⟩
        | _ => cases heq
    | obj kvs =>
      refine ⟨_, rfl, ?_⟩
      have hne : kvs.isEmpty = false := by simpa [Json.truthy] using htruthy
      simp [wants, hne]
    | str s =>
      -- the code points of a string, none of which is the name of an event
      refine ⟨_, rfl, ?_⟩
      have hne : s ≠ "" := by simpa [Json.truthy] using htruthy
      constructor
      · intro hmem
        obtain ⟨c, -, hc⟩ := List.mem_map.mp hmem
        cases c with
        | surrogate n => cases hc
        | char c =>
          have hone : 1 = "message.received".length := by
            simpa using congrArg String.length (PyStr.text.inj hc)
          exact absurd hone (by decide)
      · intro hwants
        exact absurd (by simpa [wants] using hwants) hne
    | null => cases htruthy
    | bool b => simp [iterable, htruthy] at h
    | int n => simp [iterable, htruthy] at h
    | float r => simp [iterable, htruthy] at h
  · -- a falsy value: the default names the event
    rw [Json.or, if_neg htruthy]
    refine ⟨["message.received"], rfl, ?_⟩
    cases events <;> simp_all [wants, Json.truthy]

/-- `tuple` raises on everything else. -/
theorem tupleOf_not_iterable {events : Json PyStr} (h : iterable events = false) :
    tupleOf (events.or (.arr [.str "message.received"])) = .error .typeError := by
  have htruthy : events.truthy = true := by
    cases events <;> simp_all [iterable, Json.truthy]
  rw [Json.or, if_pos htruthy]
  cases events with
  | arr xs => cases h
  | str s => cases h
  | obj kvs => cases h
  | _ => rfl

/-- An entry that fails a shape check is skipped. -/
theorem subscriberOf_skipped (lib : Lib) (h : listed entry = false) :
    subscriberOf lib entry = .ok none := by
  cases entry with
  | obj items => simp only [subscriberOf, show (Json.get items "url").truthy = false from h]; rfl
  | _ => rfl

/-- An unreadable entry raises. -/
theorem subscriberOf_unreadable (lib : Lib) (h : unreadable entry = true) :
    subscriberOf lib entry = .error .typeError := by
  cases entry with
  | obj items =>
    simp only [unreadable, Bool.and_eq_true, Bool.not_eq_true'] at h
    simp only [subscriberOf, h.1, if_true, tupleOf_not_iterable h.2]
    rfl
  | _ => cases h

/-- A well-formed entry gives its subscriber. -/
theorem subscriberOf_wellFormed (lib : Lib) (h : wellFormed entry = true) :
    ∃ sub, subscriberOf lib entry = .ok (some sub) ∧ sub.name = nameOf lib entry ∧
      sub.url = urlOf lib entry ∧ sub.secret = secretOf lib entry ∧
      (PyStr.text "message.received" ∈ sub.events ↔ wantsInbound entry = true) := by
  cases entry with
  | obj items =>
    have hentry := h
    simp only [wellFormed, listed, unreadable, Bool.and_eq_true, Bool.not_eq_true'] at h
    have hiterable : iterable (Json.get items "events") = true := by simpa [h.1] using h.2
    obtain ⟨names, hnames, hwants⟩ := tupleOf_events hiterable
    simp only [subscriberOf, h.1, if_true, hnames]
    refine ⟨_, rfl, rfl, rfl, rfl, ?_⟩
    rw [hwants, wantsInbound, hentry, Bool.true_and]
  | _ => cases h

/-- An entry can be read unless it is unreadable. -/
theorem subscriberOf_ok_iff : (∃ o, subscriberOf lib entry = .ok o) ↔ unreadable entry = false := by
  constructor
  · intro h
    obtain ⟨o, ho⟩ := h
    cases hbad : unreadable entry with
    | false => rfl
    | true =>
      rw [subscriberOf_unreadable lib hbad] at ho
      cases ho
  · intro h
    cases hlisted : listed entry with
    | false => exact ⟨_, subscriberOf_skipped lib hlisted⟩
    | true =>
      have hwf : wellFormed entry = true := by simp [wellFormed, hlisted, h]
      obtain ⟨sub, hsub, -⟩ := subscriberOf_wellFormed lib hwf
      exact ⟨_, hsub⟩

end

/-! ## The whole list -/

/-- The entries of the variable's value: none when it is not an array. -/
def entriesOf : Json PyStr → List (Json PyStr)
  | .arr entries => entries
  | _ => []

section
variable {lib : Lib} {entry : Json PyStr} {entries xs ys bad : List (Json PyStr)}
  {subs : List Subscriber}

theorem subscribersOf_nil (lib : Lib) : subscribersOf lib (.arr []) = .ok [] := rfl

/-- The first entry and the rest. -/
theorem subscribersOf_cons :
    subscribersOf lib (.arr (entry :: entries)) = .ok subs ↔
      ∃ o rest, subscriberOf lib entry = .ok o ∧ subscribersOf lib (.arr entries) = .ok rest ∧
        subs = o.toList ++ rest := by
  simp only [subscribersOf, List.mapM_cons]
  cases hentry : subscriberOf lib entry with
  | error e => simp [bind, Except.bind, Except.map]
  | ok o =>
    cases hrest : entries.mapM (subscriberOf lib) with
    | error e => simp [bind, Except.bind, Except.map]
    | ok os => cases o <;> simp [bind, Except.bind, Except.map, pure, Except.pure, eq_comm]

/-- **The entries are read independently**, and the subscribers stand in their order. -/
theorem subscribersOf_append :
    subscribersOf lib (.arr (xs ++ ys)) = .ok subs ↔
      ∃ a b, subscribersOf lib (.arr xs) = .ok a ∧ subscribersOf lib (.arr ys) = .ok b ∧
        subs = a ++ b := by
  induction xs generalizing subs with
  | nil =>
    rw [List.nil_append, subscribersOf_nil]
    constructor
    · intro h
      exact ⟨[], subs, rfl, h, rfl⟩
    · intro h
      obtain ⟨a, b, ha, hb, rfl⟩ := h
      obtain rfl := Except.ok.inj ha
      exact hb
  | cons x xs ih =>
    rw [List.cons_append, subscribersOf_cons]
    constructor
    · intro h
      obtain ⟨o, rest, ho, hrest, rfl⟩ := h
      obtain ⟨a, b, ha, hb, rfl⟩ := ih.mp hrest
      exact ⟨o.toList ++ a, b, subscribersOf_cons.mpr ⟨o, a, ho, ha, rfl⟩, hb, by simp⟩
    · intro h
      obtain ⟨a', b, ha', hb, rfl⟩ := h
      obtain ⟨o, a, ho, ha, rfl⟩ := subscribersOf_cons.mp ha'
      exact ⟨o, a ++ b, ho, ih.mpr ⟨a, b, ha, hb, rfl⟩, by simp⟩

/-- Malformed entries give nothing. -/
theorem eq_nil_of_malformed (hbad : ∀ entry ∈ bad, wellFormed entry = false)
    (h : subscribersOf lib (.arr bad) = .ok subs) : subs = [] := by
  induction bad generalizing subs with
  | nil => exact (Except.ok.inj h).symm
  | cons entry bad ih =>
    obtain ⟨o, rest, ho, hrest, rfl⟩ := subscribersOf_cons.mp h
    -- it was read, so it is one of those that are skipped
    have hreadable : unreadable entry = false := subscriberOf_ok_iff.mp ⟨o, ho⟩
    have hlisted : listed entry = false := by
      simpa [wellFormed, hreadable] using hbad entry List.mem_cons_self
    obtain rfl := Except.ok.inj ((subscriberOf_skipped lib hlisted).symm.trans ho)
    rw [ih (fun e he => hbad e (List.mem_cons_of_mem _ he)) hrest]
    rfl

/-- The list can be read when each entry can. -/
theorem subscribersOf_ok_iff (lib : Lib) (raw : Json PyStr) :
    (∃ subs, subscribersOf lib raw = .ok subs) ↔
      ∀ entry ∈ entriesOf raw, unreadable entry = false := by
  cases raw with
  | arr entries =>
    -- Induction on the entries: each is read before the rest
    induction entries with
    | nil => simp [entriesOf, subscribersOf_nil]
    | cons entry entries ih =>
      rw [entriesOf, List.forall_mem_cons, ← @subscriberOf_ok_iff lib]
      constructor
      · intro h
        obtain ⟨subs, hsubs⟩ := h
        obtain ⟨o, rest, ho, hrest, -⟩ := subscribersOf_cons.mp hsubs
        exact ⟨⟨o, ho⟩, ih.mp ⟨rest, hrest⟩⟩
      · intro h
        obtain ⟨⟨o, ho⟩, hall⟩ := h
        obtain ⟨rest, hrest⟩ := ih.mpr hall
        exact ⟨_, subscribersOf_cons.mpr ⟨o, rest, ho, hrest, rfl⟩⟩
  | _ => exact ⟨fun _ _ h => absurd h List.not_mem_nil, fun _ => ⟨[], rfl⟩⟩

/-- The entry that the first subscriber of the list stems from. -/
theorem cons_cases (h : subscribersOf lib (.arr (entry :: entries)) = .ok subs) :
    ∃ rest, subscribersOf lib (.arr entries) = .ok rest ∧
      ((wellFormed entry = false ∧ subs = rest) ∨
        ∃ sub, wellFormed entry = true ∧ subscriberOf lib entry = .ok (some sub) ∧
          subs = sub :: rest) := by
  obtain ⟨o, rest, ho, hrest, rfl⟩ := subscribersOf_cons.mp h
  refine ⟨rest, hrest, ?_⟩
  cases hwf : wellFormed entry with
  | false =>
    -- a malformed entry that was read has been skipped
    have hnone : o.toList = [] := @eq_nil_of_malformed lib [entry] _
      (by simpa using hwf) (subscribersOf_cons.mpr ⟨o, [], ho, rfl, by simp⟩)
    exact .inl ⟨rfl, by rw [hnone, List.nil_append]⟩
  | true =>
    obtain ⟨sub, hsub, -⟩ := subscriberOf_wellFormed lib hwf
    obtain rfl := Except.ok.inj (hsub.symm.trans ho)
    exact .inr ⟨sub, rfl, hsub, rfl⟩

/-- The names and the urls of the subscribers to inbound messages. -/
theorem map_interested (h : subscribersOf lib (.arr entries) = .ok subs) :
    (interested subs).map (fun sub => (sub.name, sub.url)) =
      (entries.filter wantsInbound).map fun entry => (nameOf lib entry, urlOf lib entry) := by
  induction entries generalizing subs with
  | nil =>
    obtain rfl := Except.ok.inj h
    rfl
  | cons entry entries ih =>
    obtain ⟨rest, hrest, ⟨hwf, rfl⟩ | ⟨sub, hwf, hsub, rfl⟩⟩ := cons_cases h
    · -- a malformed entry wants nothing
      have hwants : wantsInbound entry = false := by
        cases entry with
        | obj items => simp [wantsInbound, hwf]
        | _ => rfl
      rw [List.filter_cons_of_neg (by simp [hwants]), ih hrest]
    · obtain ⟨sub', hsub', hname, hurl, -, hevents⟩ := subscriberOf_wellFormed lib hwf
      obtain rfl := Option.some.inj (Except.ok.inj (hsub'.symm.trans hsub))
      by_cases hwants : wantsInbound entry = true
      · rw [List.filter_cons_of_pos hwants, List.map_cons, ← ih hrest, ← hname, ← hurl]
        simp [interested, hevents.mpr hwants]
      · have hnot : PyStr.text "message.received" ∉ sub'.events :=
          fun hmem => hwants (hevents.mp hmem)
        rw [List.filter_cons_of_neg hwants, ← ih hrest]
        simp [interested, hnot]

/-- The secret under which a delivery is signed: that of the first entry with the name. -/
theorem secret_find? (h : subscribersOf lib (.arr entries) = .ok subs) (name : PyStr) :
    (subs.find? fun sub => sub.name = name).map Subscriber.secret =
      (entries.find? fun entry => wellFormed entry && nameOf lib entry = name).map
        (secretOf lib) := by
  induction entries generalizing subs with
  | nil =>
    obtain rfl := Except.ok.inj h
    rfl
  | cons entry entries ih =>
    obtain ⟨rest, hrest, ⟨hwf, rfl⟩ | ⟨sub, hwf, hsub, rfl⟩⟩ := cons_cases h
    · rw [List.find?_cons_of_neg (by simp [hwf]), ih hrest]
    · obtain ⟨sub', hsub', hname, -, hsecret, -⟩ := subscriberOf_wellFormed lib hwf
      obtain rfl := Option.some.inj (Except.ok.inj (hsub'.symm.trans hsub))
      by_cases heq : sub'.name = name
      · rw [List.find?_cons_of_pos (by simpa using heq),
          List.find?_cons_of_pos (by simp [hwf, ← hname, heq])]
        simp [hsecret]
      · rw [List.find?_cons_of_neg (by simpa using heq),
          List.find?_cons_of_neg (by simp [← hname, heq]), ih hrest]

end

/-! ## Degrading -/

/-- Other entries in the place of `bad`, malformed ones, change nothing about what the
    entries before and after it produce.  No `bad` is an addition, no `other` a removal. -/
def Undisturbed (lib : Lib) (entries : List (Json PyStr)) (subs : List Subscriber) : Prop :=
  ∀ pre bad post other subs', entries = pre ++ bad ++ post →
    (∀ entry ∈ bad, wellFormed entry = false) →
    subscribersOf lib (.arr (pre ++ other ++ post)) = .ok subs' →
    ∃ before own after, subscribersOf lib (.arr pre) = .ok before ∧
      subscribersOf lib (.arr other) = .ok own ∧ subscribersOf lib (.arr post) = .ok after ∧
      subs = before ++ after ∧ subs' = before ++ own ++ after ∧
      ((∀ entry ∈ other, wellFormed entry = false) → own = [])

/-- Every text message that arrives while the list has this value is accepted, if it can be
    read and what is to be stored of it can be bound. -/
def Accepts (lib : Lib) (cfg : Settings) (list : Except PyError (List Subscriber)) : Prop :=
  ∀ env tr s call event text draws, Run lib cfg (Sys.init env) tr s → s.env.subscribers = list →
    s.inbounds call = .idle → WellFormed lib event text → Bindable lib cfg event text →
    NewId lib s.db event → DrawsFresh s (draws.uuid :: draws.uuids) → draws.Enough s.env →
    ∃ m ds, Completes lib cfg s call event (.ok (.obj event)) draws m ds

/-- A bad entry degrades fan-out only. -/
structure Degrades (lib : Lib) (cfg : Settings) (loads : PyStr → Option (Json PyStr))
    (value : PyStr) : Prop where
  /-- The property returns, and a malformed entry does not touch the others. -/
  returns : ∃ subs, subscribers lib loads value = .ok subs ∧
    ∀ entries, envJson loads value (.arr []) = .arr entries → Undisturbed lib entries subs
  startup : ∀ env, env.subscribers = subscribers lib loads value → ∃ n, lifespan env = .ok n
  acceptance : Accepts lib cfg (subscribers lib loads value)
  delivery : ∀ env d m, env.subscribers = subscribers lib loads value →
    ∃ p, prepare lib env d m = .ok p

/-- No entry of the array is unreadable, no two of those that ask for inbound messages have
    one name, and no surrogate stands where one would be stored or signed with. -/
structure Sound (lib : Lib) (raw : Json PyStr) : Prop where
  readable : ∀ entry ∈ entriesOf raw, unreadable entry = false
  names : (((entriesOf raw).filter wantsInbound).map (nameOf lib)).Nodup
  bindable : ∀ entry ∈ (entriesOf raw).filter wantsInbound,
    (nameOf lib entry).encode.isSome ∧ (urlOf lib entry).encode.isSome
  /-- Deliveries are for the first entry with their name, whether it still asks for inbound
      messages or not. -/
  secrets : ∀ name : String, ∀ entry ∈ (entriesOf raw).find? fun entry =>
      wellFormed entry && nameOf lib entry = PyStr.text name,
    (secretOf lib entry).encode.isSome

section
variable {lib : Lib} {cfg : Settings} {raw : Json PyStr} {entries : List (Json PyStr)}
  {subs : List Subscriber}

/-- A list that was read is undisturbed. -/
theorem undisturbed (h : subscribersOf lib (.arr entries) = .ok subs) :
    Undisturbed lib entries subs := by
  intro pre bad post other subs' heq hbad hsubs'
  rw [heq] at h
  obtain ⟨x, after, hx, hafter, rfl⟩ := subscribersOf_append.mp h
  obtain ⟨before, none', hbefore, hnone, rfl⟩ := subscribersOf_append.mp hx
  obtain rfl := eq_nil_of_malformed hbad hnone
  -- the same entries around, with something else between them
  obtain ⟨y, after', hy, hafter', rfl⟩ := subscribersOf_append.mp hsubs'
  obtain ⟨before', own, hbefore', hown, rfl⟩ := subscribersOf_append.mp hy
  obtain rfl := Except.ok.inj (hbefore.symm.trans hbefore')
  obtain rfl := Except.ok.inj (hafter.symm.trans hafter')
  exact ⟨before, own, after, hbefore, hown, hafter, by simp, rfl,
    fun hother => eq_nil_of_malformed hother hown⟩

/-- The list reads as its entries do. -/
theorem exists_entries (h : subscribersOf lib raw = .ok subs) :
    subscribersOf lib (.arr (entriesOf raw)) = .ok subs := by
  cases raw with
  | arr entries => exact h
  | _ => exact h

/-- What the transaction of a message asks of the entries. -/
theorem fannable_iff (h : subscribersOf lib raw = .ok subs) :
    ((interested subs).map Subscriber.name).Nodup ∧ (∀ sub ∈ interested subs, sub.Bindable) ↔
      (((entriesOf raw).filter wantsInbound).map (nameOf lib)).Nodup ∧
        ∀ entry ∈ (entriesOf raw).filter wantsInbound,
          (nameOf lib entry).encode.isSome ∧ (urlOf lib entry).encode.isSome := by
  have hpairs := map_interested (exists_entries h)
  have hnames : (interested subs).map Subscriber.name =
      ((entriesOf raw).filter wantsInbound).map (nameOf lib) := by
    simpa only [List.map_map, Function.comp_def] using congrArg (List.map Prod.fst) hpairs
  have hbind : (∀ sub ∈ interested subs, sub.Bindable) ↔
      ∀ p ∈ (interested subs).map (fun sub => (sub.name, sub.url)),
        p.1.encode.isSome ∧ p.2.encode.isSome := by
    rw [List.forall_mem_map]
    rfl
  rw [hnames, hbind, hpairs, List.forall_mem_map]

/-- What the signature of a delivery asks of the entries. -/
theorem signable_iff {env : Env} (h : subscribersOf lib raw = .ok subs)
    (henv : env.subscribers = .ok subs) (d : WebhookDelivery) :
    ¬ RaisesEarly env d ↔
      ∀ entry ∈ (entriesOf raw).find? (fun entry =>
          wellFormed entry && nameOf lib entry = PyStr.text d.subscriber),
        (secretOf lib entry).encode.isSome := by
  have hsecret := secret_find? (exists_entries h) (PyStr.text d.subscriber)
  have hraises : ¬ RaisesEarly env d ↔
      ∀ secret ∈ (subscriberFor subs d).map Subscriber.secret, secret.encode.isSome := by
    simp [RaisesEarly, henv, Option.isSome_iff_ne_none]
  rw [hraises, subscriberFor, hsecret]
  simp

/-- Different strings, as many as one likes. -/
def tag (i : Nat) : String := String.ofList (List.replicate i 'd')

theorem tag_injective : Function.Injective tag := by
  intro i j h
  have hlen := congrArg (fun s => s.toList.length) h
  simpa [tag] using hlen

/-- A text from nobody, which carries no id. -/
def anonymous : List (PyStr × Json PyStr) :=
  [("event", .str "sms:received"), ("payload", .obj [("message", .str "hi")])]

theorem wellFormed_anonymous (lib : Lib) : WellFormed lib anonymous "hi" where
  kind := .inl rfl
  body := rfl
  nonempty := by decide
  sender h := by cases h

theorem bindable_anonymous (lib : Lib) (cfg : Settings) : Bindable lib cfg anonymous "hi" where
  text := rfl
  sender n h := by cases h
  providerId := rfl

/-- Where every message is accepted, no name stands twice, and every subscriber can be
    bound. -/
theorem fannable_of_accepts (h : Accepts lib cfg (.ok subs)) :
    ((interested subs).map Subscriber.name).Nodup ∧ ∀ sub ∈ interested subs, sub.Bindable := by
  -- a new deployment with this list, and a text that comes with nothing but itself
  let env : Env := ⟨[], .ok subs⟩
  let draws : Draws := ⟨tag 0, (List.range' 1 (interested subs).length).map tag, 0, 0, 0⟩
  have hevent := wellFormed_anonymous lib
  have hnew : NewId lib (Sys.init env).db anonymous := fun _ _ _ => rfl
  have hfresh : DrawsFresh (Sys.init env) (draws.uuid :: draws.uuids) := by
    refine ⟨?_, fun id _ => List.not_mem_nil⟩
    rw [List.nodup_cons]
    constructor
    · intro hmem
      obtain ⟨i, hi, heq⟩ := List.mem_map.mp hmem
      have hzero := tag_injective heq
      have hpos := (List.mem_range'_1.mp hi).1
      omega
    · exact (List.nodup_map_iff tag_injective).mpr List.nodup_range'
  have henough : draws.Enough (Sys.init env).env := by
    intro subs' hsubs'
    obtain rfl := Except.ok.inj hsubs'
    simp [draws]
  obtain ⟨-, -, -, subs', hsubs', hnames, hrows⟩ := (exists_completes_iff .nil rfl
    (fun _ h => (Except.ok.inj h).symm) hevent.kind hevent.body hevent.nonempty hnew hfresh
    henough).mp (h env [] (Sys.init env) 0 anonymous "hi" draws .nil rfl rfl hevent
      (bindable_anonymous lib cfg) hnew hfresh henough)
  obtain rfl := Except.ok.inj hsubs'
  exact ⟨hnames, hrows⟩

/-- Conversely such a list refuses no message. -/
theorem accepts_of_fannable (hnames : ((interested subs).map Subscriber.name).Nodup)
    (hrows : ∀ sub ∈ interested subs, sub.Bindable) : Accepts lib cfg (.ok subs) := by
  intro env tr s call event text draws hrun hsubs hidle hevent hbind hnew hfresh henough
  exact (exists_completes_iff hrun hidle (fun _ h => (Except.ok.inj h).symm) hevent.kind
    hevent.body hevent.nonempty hnew hfresh henough).mpr
      ⟨rfl, hevent.sender, hbind, subs, hsubs, hnames, hrows⟩

end

/-- **A bad entry degrades fan-out only**, exactly when the array has no entry with a `url`
    whose `events` is `true` or a nonzero number, no two entries that ask for inbound
    messages have one name, and there is no surrogate in the name or the url of one of
    these, nor in the secret of the first entry with a name.  What is no JSON, or no array,
    always counts as no subscribers. -/
theorem subscribers_degrade_iff (lib : Lib) (cfg : Settings)
    (loads : PyStr → Option (Json PyStr)) (value : PyStr) :
    Degrades lib cfg loads value ↔ Sound lib (envJson loads value (.arr [])) := by
  constructor
  · intro h
    obtain ⟨subs, hsubs, -⟩ := h.returns
    have haccepts := h.acceptance
    rw [hsubs] at haccepts
    obtain ⟨hnames, hbind⟩ := (fannable_iff hsubs).mp (fannable_of_accepts haccepts)
    refine ⟨(subscribersOf_ok_iff lib _).mp ⟨subs, hsubs⟩, hnames, hbind, fun name => ?_⟩
    -- a delivery for the name, left from another configuration
    let m := SendMessage.newMessage "svc" SmsRelay.Sample.request "m1" "+12025550101" none 0
    have hprep := h.delivery ⟨[], .ok subs⟩ (newDelivery m.id "d1" name "http://a" 0) m hsubs.symm
    exact (signable_iff hsubs rfl _).mp (exists_prepare_iff.mp hprep)
  · intro h
    obtain ⟨subs, hsubs⟩ := (subscribersOf_ok_iff lib _).mpr h.readable
    have hvalue : subscribers lib loads value = .ok subs := hsubs
    constructor
    · refine ⟨subs, hvalue, fun entries hentries => undisturbed ?_⟩
      rw [← hentries]
      exact hsubs
    · intro env henv
      exact ⟨subs.length, by rw [lifespan, henv, hvalue]; rfl⟩
    · rw [hvalue]
      obtain ⟨hnames, hrows⟩ := (fannable_iff hsubs).mpr ⟨h.names, h.bindable⟩
      exact accepts_of_fannable hnames hrows
    · intro env d m henv
      exact exists_prepare_iff.mpr ((signable_iff hsubs (henv.trans hvalue) d).mpr
        (h.secrets d.subscriber))

namespace Sample

/-- A list with a typo in one entry. -/
def typo : PyStr :=
  "[\x7b\"name\":\"app\",\"url\":\"http://a\"\x7d,\x7b\"url\":\"http://b\",\"events\":true\x7d]"

/-- What `json.loads` makes of it. -/
def loads (raw : PyStr) : Option (Json PyStr) :=
  if raw = typo then
    some (.arr [SmsRelay.Sample.entry "app" "http://a",
      .obj [("url", .str "http://b"), ("events", .bool true)]])
  else none

end Sample

/-- `"events": true` in one entry: `settings.subscribers` raises, and so does the start. -/
theorem not_degrades_typo :
    subscribers SmsRelay.Sample.lib Sample.loads Sample.typo = .error .typeError ∧
      ¬ Degrades SmsRelay.Sample.lib SmsRelay.Sample.cfg Sample.loads Sample.typo := by
  have hraises : subscribers SmsRelay.Sample.lib Sample.loads Sample.typo = .error .typeError :=
    rfl
  refine ⟨hraises, fun h => ?_⟩
  obtain ⟨subs, hsubs, -⟩ := h.returns
  rw [hraises] at hsubs
  cases hsubs

end Subscribers

end SmsRelay
