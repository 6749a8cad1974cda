import SmsRelay.ForStd.Except
import SmsRelay.Native.Routes.Grafana

/-!
# Valid alerts

What the Grafana webhook takes from a payload.  Its checks accept an alert exactly when
the alert has the fields of an `Alert`, and a payload of one to a hundred of them always
becomes a request, however long their texts are.

## Key results

- `entryOf_eq_ok`: the alerts that the webhook accepts
- `messageOf_payload`: the request it makes of a payload
- `grafana_requests`: a payload of alerts under a working route becomes a request
-/

namespace SmsRelay.Grafana

/-- An alert that passes the checks of the webhook. -/
structure Alert (lib : Lib) where
  items : List (String × Json)
  labels : List (String × Json)
  annotations : List (String × Json)
  name : String
  summary : String
  fingerprint : String
  startsAt : String
  state : AlertState
  /-- The instant that `startsAt` denotes. -/
  started : Time
  has_labels : Json.get items "labels" = .obj labels
  has_annotations : (Json.lookup items "annotations").getD (.obj []) = .obj annotations
  has_status : Json.lookup items "status" = some (.str state.value)
  has_name : Json.lookup labels "alertname" = some (.str name)
  has_summary : (Json.lookup annotations "summary").getD (.str name) = .str summary
  has_fingerprint : Json.lookup items "fingerprint" = some (.str fingerprint)
  has_startsAt : Json.lookup items "startsAt" = some (.str startsAt)
  nonempty : ¬ (name = "" ∨ summary = "" ∨ fingerprint = "" ∨ startsAt = "")
  /-- `startsAt` is valid when `datetime.fromisoformat` accepts it, with an offset. -/
  has_started : ∃ fields offset,
    lib.fromisoformat (Inbound.replaceZ startsAt) = some ⟨fields, some offset⟩ ∧
      started = timestamp fields offset

variable {lib : Lib} {sha256 : String → String} {env : Env} {size : Nat} {data : Json}
  {clock : Nat → Time} {request : SendRequest} {n : Nat}

namespace Alert

/-- The alert as `json.loads` returns it. -/
def json (a : Alert lib) : Json := .obj a.items

/-- The four-hour reminder window of the alert at the time `now`, counted from its start. -/
def bucket (a : Alert lib) (now : Time) : Int :=
  match a.state with
  | .firing => max 0 ((now - a.started) / seconds 14400)
  | .resolved => 0

/-- `(fingerprint, startsAt, state, bucket)` at the time `now`. -/
def identity (a : Alert lib) (now : Time) : String × String × AlertState × Int :=
  (a.fingerprint, a.startsAt, a.state, a.bucket now)

/-- The member of `entries` for the alert in a reminder window. -/
def entry (a : Alert lib) (bucket : Int) : Entry where
  identity := ⟨a.fingerprint, a.startsAt, a.state, bucket.toNat⟩
  text := sliceTo 1800 (alertText lib a.labels a.state a.name a.summary)
  priority := alertPriority a.labels a.state

end Alert

/-! ## The checks -/

theorem subscript_eq_ok {items : List (String × Json)} {key : String} {x : Json} :
    subscript (.obj items) key = .ok x ↔ Json.lookup items key = some x := by
  unfold subscript
  dsimp only
  cases Json.lookup items key with
  | none => simp
  | some y => simp

theorem alertState_eq_ok {status : Json} {state : AlertState} :
    alertState status = .ok state ↔ status = .str state.value := by
  constructor
  · intro h
    unfold alertState at h
    split at h
    · obtain rfl := Except.ok.inj h
      rfl
    · obtain rfl := Except.ok.inj h
      rfl
    · cases h
  · rintro rfl
    cases state <;> rfl

/-- The reminder in an entry is the window of the alert. -/
private theorem reminder_eq (a : Alert lib) (now : Time) :
    reminder a.state now a.started = (a.bucket now).toNat := by
  unfold reminder Alert.bucket
  cases a.state with
  | firing =>
    dsimp only
    generalize (now - a.started) / seconds 14400 = k
    omega
  | resolved => rfl

/-- An alert passes the checks. -/
theorem entryOf_json (a : Alert lib) (now : Time) :
    entryOf lib now a.json = .ok (a.entry (a.bucket now)) := by
  obtain ⟨fields, offset, hiso, hstarted⟩ := a.has_started
  unfold entryOf Alert.json
  dsimp only
  rw [a.has_labels, a.has_annotations]
  dsimp only
  rw [subscript_eq_ok.mpr a.has_status, subscript_eq_ok.mpr a.has_name,
    subscript_eq_ok.mpr a.has_fingerprint, subscript_eq_ok.mpr a.has_startsAt]
  simp only [bind, Except.bind, alertState_eq_ok.mpr rfl, a.has_summary, if_neg a.nonempty, hiso,
    ← hstarted, reminder_eq, Alert.entry]

/-- **The alerts that the webhook accepts**, and what it takes from them. -/
theorem entryOf_eq_ok {now : Time} {alert : Json} {e : Entry} :
    entryOf lib now alert = .ok e ↔
      ∃ a : Alert lib, a.json = alert ∧ a.entry (a.bucket now) = e := by
  constructor
  · intro h
    unfold entryOf at h
    split at h
    · next items =>
      split at h
      · next labels annotations hlabels hannotations =>
        -- Peel off the checks one after another
        obtain ⟨status, hstatus, h₁⟩ := Except.bind_eq_ok.mp h
        obtain ⟨state, hstate, h₂⟩ := Except.bind_eq_ok.mp h₁
        obtain ⟨name, hname, h₃⟩ := Except.bind_eq_ok.mp h₂
        obtain ⟨fingerprint, hfingerprint, h₄⟩ := Except.bind_eq_ok.mp h₃
        obtain ⟨starts, hstarts, h₅⟩ := Except.bind_eq_ok.mp h₄
        clear h h₁ h₂ h₃ h₄
        dsimp only at h₅
        split at h₅
        · next name summary fingerprint starts hsummary =>
          split at h₅
          · cases h₅
          · next hne =>
            split at h₅
            · next fields offset hiso =>
              obtain rfl := Except.ok.inj h₅
              obtain rfl := alertState_eq_ok.mp hstate
              let a : Alert lib :=
                { items, labels, annotations, name, summary, fingerprint, startsAt := starts,
                  state, started := timestamp fields offset
                  has_labels := hlabels
                  has_annotations := hannotations
                  has_status := subscript_eq_ok.mp hstatus
                  has_name := subscript_eq_ok.mp hname
                  has_summary := hsummary
                  has_fingerprint := subscript_eq_ok.mp hfingerprint
                  has_startsAt := subscript_eq_ok.mp hstarts
                  nonempty := hne
                  has_started := ⟨fields, offset, hiso, rfl⟩ }
              refine ⟨a, rfl, ?_⟩
              rw [Alert.entry, ← reminder_eq]
            · cases h₅
        · cases h₅
      · cases h
    · cases h
  · rintro ⟨a, rfl, rfl⟩
    exact entryOf_json a now

/-! ## The entries of a payload -/

/-- `data["alerts"]` is the list of these alerts. -/
def Payload (data : Json) (alerts : List (Alert lib)) : Prop :=
  subscript data "alerts" = .ok (.arr (alerts.map Alert.json))

/-- The entries of the alerts, the `i`-th checked at the time `clock i`. -/
def entries (alerts : List (Alert lib)) (clock : Nat → Time) : List Entry :=
  alerts.zipIdx.map fun p => p.1.entry (p.1.bucket (clock p.2))

theorem length_entries (alerts : List (Alert lib)) (clock : Nat → Time) :
    (entries alerts clock).length = alerts.length := by
  simp [entries]

/-- The loop over the alerts of a payload raises nothing. -/
theorem mapM_entryOf (alerts : List (Alert lib)) (clock : Nat → Time) :
    ((alerts.map Alert.json).zipIdx.mapM fun p => entryOf lib (clock p.2) p.1) =
      .ok (entries alerts clock) := by
  have hzip : (alerts.map Alert.json).zipIdx = alerts.zipIdx.map fun p => (p.1.json, p.2) := by
    rw [List.zipIdx_map]
    rfl
  rw [hzip, List.mapM_map]
  show (alerts.zipIdx.mapM fun p => entryOf lib (clock p.2) p.1.json) = _
  simp only [entryOf_json]
  exact List.mapM_pure

/-- **The request that the webhook makes of a payload.** -/
theorem messageOf_payload {route : Json} {alerts : List (Alert lib)} (hdata : Payload data alerts)
    (hlen : 1 ≤ alerts.length ∧ alerts.length ≤ 100) :
    messageOf lib sha256 route (.ok data) clock = do
      let owner ← subscript route "to"
      let to_ ← recipients owner
      let request ← sendRequest to_ (groupText (sortEntries (entries alerts clock)))
        (((sortEntries (entries alerts clock)).map Entry.priority).foldl max 0)
        (groupKey sha256 (sortEntries (entries alerts clock)))
      return (request, alerts.length) := by
  -- the number of alerts passes its check
  have hfew : ¬ ((alerts.map Alert.json).length < 1 ∨ 100 < (alerts.map Alert.json).length) := by
    rw [List.length_map]
    omega
  unfold messageOf
  simp only [bind, Except.bind, show subscript data "alerts" = _ from hdata, if_neg hfew,
    mapM_entryOf]
  -- the answer counts the alerts in the sorted list
  have hsorted : (sortEntries (entries alerts clock)).length = alerts.length :=
    (List.length_insertionSort _ _).trans (length_entries alerts clock)
  rw [hsorted]

/-! ## The text of the message -/

/-- The length of a joined list. -/
private theorem length_intercalate_le (sep : List Char) (ls : List (List Char)) :
    (sep.intercalate ls).length ≤ (ls.map fun l => l.length + sep.length).sum := by
  induction ls with
  | nil => simp
  | cons l ls ih =>
    cases ls with
    | nil => simp
    | cons l' ls =>
      rw [List.intercalate_cons_cons, List.length_append, List.length_append, List.map_cons,
        List.sum_cons]
      omega

/-- The texts that fit are the first ones, and they do fit. -/
theorem fitting_spec (lines rest : List String)
    (h : (lines.map fun s => s.length + 2).sum ≤ 3802) :
    (∃ p, p <+: rest ∧ fitting lines rest = lines ++ p) ∧
      ((fitting lines rest).map fun s => s.length + 2).sum ≤ 3802 := by
  induction rest generalizing lines with
  | nil => exact ⟨⟨[], List.prefix_rfl, (List.append_nil _).symm⟩, h⟩
  | cons text rest ih =>
    unfold fitting
    split
    · exact ⟨⟨[], List.nil_prefix, (List.append_nil _).symm⟩, h⟩
    · next hroom =>
      -- there was room for `text`, so the sum stays below the bound with it
      have hsum : ((lines ++ [text]).map fun s => s.length + 2).sum ≤ 3802 := by
        simp only [List.map_append, List.map_cons, List.map_nil, List.sum_append, List.sum_cons,
          List.sum_nil]
        omega
      obtain ⟨⟨p, hp, heq⟩, hle⟩ := ih _ hsum
      exact ⟨⟨text :: p, (List.prefix_cons_inj text).mpr hp, by rw [heq]; simp⟩, hle⟩

/-- The text of an entry is never empty. -/
theorem Alert.text_length (a : Alert lib) (bucket : Int) : 1 ≤ (a.entry bucket).text.length := by
  have hbracket : "[".length = 1 := by rfl
  have hne : 1 ≤ (alertText lib a.labels a.state a.name a.summary).length := by
    unfold alertText
    dsimp only
    split <;> simp only [String.length_append] <;> omega
  simp only [Alert.entry, sliceTo, String.length_ofList, List.length_take]
  rw [String.length] at hne
  omega

theorem Alert.priority_range (a : Alert lib) (bucket : Int) :
    1 ≤ (a.entry bucket).priority ∧ (a.entry bucket).priority ≤ 5 := by
  show 1 ≤ alertPriority a.labels a.state ∧ alertPriority a.labels a.state ≤ 5
  unfold alertPriority
  split <;> decide

/-- **The text of a message fits**, however many alerts there are. -/
theorem groupText_length {es : List Entry} (hlen : 1 ≤ es.length ∧ es.length ≤ 100)
    (htext : ∀ e ∈ es, 1 ≤ e.text.length) :
    1 ≤ (groupText es).length ∧ (groupText es).length ≤ 4000 := by
  obtain ⟨⟨p, hp, heq⟩, hsum⟩ := fitting_spec [] (es.map Entry.text) (by simp)
  rw [List.nil_append] at heq
  have hjoined : (String.intercalate "\n\n" p).length ≤ 3802 := by
    have hle := length_intercalate_le "\n\n".toList (p.map String.toList)
    rw [← String.toList_intercalate, List.map_map] at hle
    exact hle.trans (heq ▸ hsum)
  unfold groupText
  dsimp only
  rw [heq]
  split
  · next hmore =>
    -- the number of alerts left out has at most three digits
    have hdigits : (toString (es.length - p.length)).length ≤ 3 :=
      (Nat.length_repr_le_iff (by decide)).mpr (by omega)
    simp only [String.length_append]
    have hsuffix : " additional alerts; see Grafana.".length = 32 := by rfl
    have hgap : "\n\n".length = 2 := by rfl
    omega
  · next hall =>
    -- all texts are there, the first one among them
    refine ⟨?_, by omega⟩
    have hfull : p = es.map Entry.text := hp.eq_of_length_le (by rw [List.length_map]; omega)
    obtain ⟨e, es, rfl⟩ := List.exists_cons_of_length_pos hlen.1
    subst hfull
    have hfirst := htext e (List.mem_cons_self ..)
    rw [List.map_cons]
    cases hrest : es.map Entry.text with
    | nil => simpa using hfirst
    | cons text rest =>
      rw [String.length, String.toList_intercalate, List.map_cons, List.map_cons,
        List.intercalate_cons_cons, List.length_append, List.length_append]
      exact Nat.le_trans hfirst (by rw [String.length]; omega)

/-- The largest of some priorities is a priority. -/
private theorem foldl_max_range {ps : List Int} (h : ∀ p ∈ ps, 1 ≤ p ∧ p ≤ 5) (top : Int)
    (htop : top ≤ 5) : top ≤ ps.foldl max top ∧ ps.foldl max top ≤ 5 ∧
      (ps ≠ [] → 1 ≤ ps.foldl max top) := by
  induction ps generalizing top with
  | nil => exact ⟨Int.le_refl _, htop, fun hne => absurd rfl hne⟩
  | cons p ps ih =>
    obtain ⟨hpos, hle⟩ := h p (List.mem_cons_self ..)
    obtain ⟨hlow, hhigh, -⟩ := ih (fun q hq => h q (List.mem_cons_of_mem _ hq)) (max top p)
      (by omega)
    rw [List.foldl_cons]
    exact ⟨by omega, hhigh, fun _ => by omega⟩

/-! ## Requests -/

/-- A request that passes its validation. -/
theorem sendRequest_eq_ok (to_ : String ⊕ List String) {body key : String} {priority : Int}
    (hbody : 1 ≤ body.length ∧ body.length ≤ 4000) (hkey : key.length ≤ 128)
    (hpriority : 1 ≤ priority ∧ priority ≤ 5) :
    ∃ request, sendRequest to_ body priority key = .ok request ∧ request.recipients = to_ := by
  unfold sendRequest
  rw [dif_pos ⟨hbody, hkey, hpriority⟩]
  exact ⟨_, rfl, rfl⟩

/-- The key of a request that has passed its validation. -/
theorem sendRequest_key {to_ : String ⊕ List String} {body key : String} {priority : Int}
    (h : sendRequest to_ body priority key = .ok request) : request.idempotencyKey = some key := by
  unfold sendRequest at h
  split at h
  · obtain rfl := Except.ok.inj h
    rfl
  · cases h

/-- **A payload of alerts under a working route becomes a request.** -/
theorem grafana_requests {alerts : List (Alert lib)} {owner : Json}
    {to_ : String ⊕ List String} (hdata : Payload data alerts)
    (hlen : 1 ≤ alerts.length ∧ alerts.length ≤ 100) (hsize : size ≤ 65536)
    (hroute : (Json.get env.notificationRoutes "grafana").truthy = true)
    (howner : subscript (Json.get env.notificationRoutes "grafana") "to" = .ok owner)
    (hto : recipients owner = .ok to_) (hhex : ∀ text, (sha256 text).length = 64) :
    ∃ request, grafana lib sha256 env "grafana" size (.ok data) clock =
      .ok (request, alerts.length) ∧ request.recipients = to_ := by
  let es := sortEntries (entries alerts clock)
  have hperm : es.Perm (entries alerts clock) := List.perm_insertionSort _ _
  have heslen : es.length = alerts.length := hperm.length_eq.trans (length_entries _ _)
  -- each entry is of an alert, in some bucket
  have hentry : ∀ e ∈ es, ∃ (a : Alert lib) (bucket : Int), e = a.entry bucket := fun e he => by
    obtain ⟨p, -, rfl⟩ := List.mem_map.mp (hperm.mem_iff.mp he)
    exact ⟨_, _, rfl⟩
  -- The three checks of `SendRequest`
  have htext : ∀ e ∈ es, 1 ≤ e.text.length := fun e he => by
    obtain ⟨a, bucket, rfl⟩ := hentry e he
    exact a.text_length bucket
  have hbody := groupText_length (by omega) htext
  have hkey : (groupKey sha256 es).length ≤ 128 := by
    rw [groupKey, String.length_append, hhex]
    decide
  have hpriority : ∀ p ∈ es.map Entry.priority, 1 ≤ p ∧ p ≤ 5 := fun p hp => by
    obtain ⟨e, he, rfl⟩ := List.mem_map.mp hp
    obtain ⟨a, bucket, rfl⟩ := hentry e he
    exact a.priority_range bucket
  obtain ⟨-, hhigh, hlow⟩ := foldl_max_range hpriority 0 (by decide)
  have hne : es.map Entry.priority ≠ [] := fun hnil => by
    have hzero := congrArg List.length hnil
    rw [List.length_map, List.length_nil] at hzero
    omega
  obtain ⟨request, hrequest, hrecipients⟩ := sendRequest_eq_ok to_ hbody hkey ⟨hlow hne, hhigh⟩
  -- No check before the request refuses the payload
  refine ⟨request, ?_, hrecipients⟩
  unfold grafana
  rw [if_neg (by simp)]
  dsimp only
  rw [hroute, if_neg (by simp), if_neg (by omega), messageOf_payload hdata hlen]
  simp only [bind, Except.bind, howner, hto]
  rw [hrequest]
  rfl

/-- The key of the request that a payload becomes. -/
theorem idempotencyKey_of_grafana {alerts : List (Alert lib)} {service : String}
    (hdata : Payload data alerts)
    (h : grafana lib sha256 env service size (.ok data) clock = .ok (request, n)) :
    request.idempotencyKey = some (groupKey sha256 (sortEntries (entries alerts clock))) := by
  -- Of the branches of the webhook only the last one answers
  unfold grafana at h
  split at h
  · cases h
  · dsimp only at h
    split at h
    · cases h
    · split at h
      · cases h
      · split at h
        · next result hmessage =>
          obtain rfl := Except.ok.inj h
          by_cases hlen : 1 ≤ alerts.length ∧ alerts.length ≤ 100
          · rw [messageOf_payload hdata hlen] at hmessage
            obtain ⟨owner, -, hrest⟩ := Except.bind_eq_ok.mp hmessage
            obtain ⟨to_, -, hrest⟩ := Except.bind_eq_ok.mp hrest
            obtain ⟨request', hrequest, hpair⟩ := Except.bind_eq_ok.mp hrest
            obtain ⟨rfl, -⟩ := Prod.mk.inj (Except.ok.inj hpair)
            exact sendRequest_key hrequest
          · -- too few or too many alerts
            have hmany : (alerts.map Alert.json).length < 1 ∨
                100 < (alerts.map Alert.json).length := by
              rw [List.length_map]
              omega
            unfold messageOf at hmessage
            simp only [bind, Except.bind, show subscript data "alerts" = _ from hdata,
              if_pos hmany] at hmessage
            cases hmessage
        · split at h <;> cases h

end SmsRelay.Grafana
