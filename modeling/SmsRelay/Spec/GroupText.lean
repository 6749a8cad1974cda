import Mathlib.Algebra.BigOperators.Group.List.Basic
import SmsRelay.Spec.GroupKey

/-!
# What a group's message says

The body of the message for a group of alerts: as many texts as fit, the most urgent
ones first, and a notice that counts the rest.  The loop stops at the first text that
does not fit; since every text adds to the length, no longer prefix would fit either.

## Key results

- `fitting_longest`: the loop takes as many texts as any prefix that fits
- `groupText_split`: the texts in the body and the ones left out
- `Alert.yields_entry`: the text and the priority of an alert
- `group_fits`: the body of the request for any group
-/

namespace SmsRelay

namespace Grafana

/-- The texts, blank lines between them. -/
def joined (texts : List String) : String := String.intercalate "\n\n" texts

/-- The notice after the texts, when `n` alerts are left out. -/
def notice (n : Nat) : String :=
  if n = 0 then "" else "\n\n" ++ toString n ++ " additional alerts; see Grafana."

/-- The length that the loop reckons with is the length of the text it builds. -/
theorem length_joined {texts : List String} (hne : texts ≠ []) :
    (joined texts).length + 2 = (texts.map fun s => s.length + 2).sum := by
  have hgap : "\n\n".length = 2 := by rfl
  induction texts with
  | nil => exact absurd rfl hne
  | cons text texts ih =>
    cases texts with
    | nil => simp [joined]
    | cons text' texts =>
      have hrest := ih (List.cons_ne_nil _ _)
      unfold joined at hrest ⊢
      rw [String.intercalate_cons_cons, String.length_append, String.length_append, List.map_cons,
        List.sum_cons, ← hrest]
      omega

/-- A list of texts fits when the loop's reckoning says so. -/
theorem joined_le_iff {texts : List String} :
    (joined texts).length ≤ 3800 ↔ (texts.map fun s => s.length + 2).sum ≤ 3802 := by
  by_cases hne : texts = []
  · subst hne
    simp [joined]
  · have hlen := length_joined hne
    omega

/-- **The loop takes as many texts as any prefix that fits.** -/
theorem fitting_longest {lines rest p : List String} (hp : p <+: rest)
    (hsum : ((lines ++ p).map fun s => s.length + 2).sum ≤ 3802) :
    (lines ++ p).length ≤ (fitting lines rest).length := by
  induction rest generalizing lines p with
  | nil =>
    obtain rfl := List.prefix_nil.mp hp
    simp [fitting]
  | cons text rest ih =>
    -- what comes before the text fits as well
    have hlines : (lines.map fun s => s.length + 2).sum ≤ 3802 := by
      rw [List.map_append, List.sum_append] at hsum
      omega
    cases p with
    | nil =>
      obtain ⟨⟨q, -, heq⟩, -⟩ := fitting_spec lines (text :: rest) hlines
      rw [heq, List.append_nil, List.length_append]
      omega
    | cons text' p =>
      obtain ⟨rfl, hp'⟩ := List.cons_prefix_cons.mp hp
      have hroom : ¬ 3800 < (lines.map fun s => s.length + 2).sum + text'.length := by
        rw [List.map_append, List.map_cons, List.sum_append, List.sum_cons] at hsum
        omega
      rw [fitting, if_neg hroom, List.append_cons]
      exact ih hp' (by rwa [← List.append_cons])

/-- **The texts in the body and the ones left out.** -/
theorem groupText_split {es : List Entry} (hne : es ≠ []) (htext : ∀ e ∈ es, e.text.length ≤ 1800) :
    ∃ included left, es = included ++ left ∧ included ≠ [] ∧
      (joined (included.map Entry.text)).length ≤ 3800 ∧
      (∀ p, p <+: es → (joined (p.map Entry.text)).length ≤ 3800 → p.length ≤ included.length) ∧
      groupText es = joined (included.map Entry.text) ++ notice left.length := by
  obtain ⟨⟨lines, hlines, heq⟩, hsum⟩ := fitting_spec [] (es.map Entry.text) (by simp)
  rw [List.nil_append] at heq
  rw [heq] at hsum
  -- The lines are the texts of the first entries
  have htake : (es.take lines.length).map Entry.text = lines := by
    rw [List.map_take]
    exact (List.prefix_iff_eq_take.mp hlines).symm
  have hle : lines.length ≤ es.length := by simpa using hlines.length_le
  have hlen : (es.take lines.length).length = lines.length := List.length_take_of_le hle
  have hlongest : ∀ p, p <+: es → (joined (p.map Entry.text)).length ≤ 3800 →
      p.length ≤ (es.take lines.length).length := by
    intro p hp hfits
    have hmap : p.map Entry.text <+: es.map Entry.text := hp.map Entry.text
    have hnil : (([] ++ p.map Entry.text).map fun s : String => s.length + 2).sum ≤ 3802 := by
      simpa using joined_le_iff.mp hfits
    have := fitting_longest hmap hnil
    rw [heq, List.nil_append, List.length_map] at this
    omega
  refine ⟨es.take lines.length, es.drop lines.length, (List.take_append_drop _ _).symm, ?_,
    by rw [htake]; exact joined_le_iff.mpr hsum, hlongest, ?_⟩
  · -- the first text fits by itself
    obtain ⟨e, rest, rfl⟩ := List.exists_cons_of_ne_nil hne
    have hfirst := htext e (List.mem_cons_self ..)
    have hone := hlongest [e] ⟨rest, rfl⟩ (by
      show (joined [e.text]).length ≤ 3800
      simp only [joined, String.intercalate_singleton]
      omega)
    intro hnil
    rw [hnil] at hone
    cases hone
  · rw [htake, List.length_drop]
    unfold groupText notice joined
    dsimp only
    rw [heq]
    by_cases hmore : lines.length < es.length
    · rw [if_pos hmore, if_neg (by omega)]
      simp only [String.append_assoc]
    · rw [if_neg hmore, if_pos (by omega), String.append_empty]

/-! ## The order of the alerts -/

/-- An identity, as `list` comparison sees it. -/
def Identity.sortKey (i : Identity) : String ×ₗ String ×ₗ String ×ₗ Nat :=
  toLex (i.fingerprint, toLex (i.startsAt, toLex (i.state.value, i.reminder)))

/-- `e` may stand before `e'`: it is more urgent, or as urgent and its identity comes first. -/
def Entry.Before (e e' : Entry) : Prop :=
  e'.priority < e.priority ∨
    e.priority = e'.priority ∧ e.identity.sortKey ≤ e'.identity.sortKey

theorem Entry.before_iff {e e' : Entry} : e.Before e' ↔ e.sortKey ≤ e'.sortKey := by
  have hkey : ∀ x : Entry, x.sortKey = toLex (-x.priority, x.identity.sortKey) := fun _ => rfl
  rw [hkey, hkey, Prod.Lex.toLex_le_toLex, Entry.Before, neg_lt_neg_iff, neg_inj]

/-- The entries are sorted by priority, then by identity. -/
theorem sortEntries_before (es : List Entry) : (sortEntries es).Pairwise Entry.Before :=
  (List.pairwise_insertionSort _ es).imp Entry.before_iff.mpr

theorem Entry.Before.priority_le {e e' : Entry} (h : e.Before e') : e'.priority ≤ e.priority := by
  cases h with
  | inl hlt => exact Int.le_of_lt hlt
  | inr heq => exact Int.le_of_eq heq.1.symm

/-- The largest priority is the first one. -/
theorem foldl_max_sorted {e : Entry} {es : List Entry} (h : (e :: es).Pairwise Entry.Before)
    (hpos : 0 ≤ e.priority) : ((e :: es).map Entry.priority).foldl max 0 = e.priority := by
  have hstay : ∀ ps : List Int, (∀ p ∈ ps, p ≤ e.priority) →
      ps.foldl max e.priority = e.priority := by
    intro ps hps
    induction ps with
    | nil => rfl
    | cons p ps ih =>
      rw [List.foldl_cons, max_eq_left (hps p (List.mem_cons_self ..))]
      exact ih fun q hq => hps q (List.mem_cons_of_mem _ hq)
  rw [List.map_cons, List.foldl_cons, max_eq_right hpos]
  apply hstay
  intro p hp
  obtain ⟨e', he', rfl⟩ := List.mem_map.mp hp
  exact ((List.pairwise_cons.mp h).1 e' he').priority_le

/-! ## What an alert says -/

section
variable {lib : Lib}

/-- The text of an alert in full: what is the matter, and on a line of its own what it
    affects. -/
def Alert.text (a : Alert lib) : String :=
  let what :=
    match a.state with
    | .firing => "[FIRING] " ++ a.name ++ ": " ++ a.summary
    | .resolved => "[RESOLVED] " ++ a.name ++ ": " ++ "Alert condition cleared."
  what ++ if affected lib a.labels = "" then "" else "\n" ++ affected lib a.labels

/-- The labels call the alert critical. -/
def Alert.IsCritical (a : Alert lib) : Prop := Json.get a.labels "severity" = .str "critical"

/-- The entry is the alert's: its text, cut off after 1800 characters, and its priority. -/
structure Alert.Yields (a : Alert lib) (e : Entry) : Prop where
  fingerprint : e.identity.fingerprint = a.fingerprint
  startsAt : e.identity.startsAt = a.startsAt
  state : e.identity.state = a.state
  text : e.text.toList = a.text.toList.take 1800
  critical : a.IsCritical → e.priority = match a.state with | .firing => 4 | .resolved => 3
  other : ¬ a.IsCritical → e.priority = match a.state with | .firing => 3 | .resolved => 1

theorem Alert.alertText_eq (a : Alert lib) :
    alertText lib a.labels a.state a.name a.summary = a.text := by
  have hwords : a.state.value.map Char.toUpper =
      match a.state with
      | .firing => "FIRING"
      | .resolved => "RESOLVED" := by
    rw [← String.toList_inj, String.toList_map]
    cases a.state <;> decide
  unfold alertText Alert.text
  rw [hwords]
  by_cases hnone : affected lib a.labels = ""
  · rw [if_pos hnone, if_pos hnone, String.append_empty]
    cases a.state <;> rfl
  · rw [if_neg hnone, if_neg hnone, String.append_assoc]
    cases a.state <;> rfl

/-- **The text and the priority of an alert.** -/
theorem Alert.yields_entry (a : Alert lib) (bucket : Int) : a.Yields (a.entry bucket) where
  fingerprint := rfl
  startsAt := rfl
  state := rfl
  text := by
    rw [← a.alertText_eq]
    simp [Alert.entry, sliceTo]
  critical := fun h => by
    show alertPriority a.labels a.state = _
    unfold alertPriority
    rw [show Json.get a.labels "severity" = .str "critical" from h]
    cases a.state <;> rfl
  other := fun h => by
    show alertPriority a.labels a.state = _
    unfold alertPriority
    split
    · next hcritical _ => exact absurd hcritical h
    · next hcritical _ => exact absurd hcritical h
    · next hstate _ => rw [hstate]
    · next hstate _ => rw [hstate]

end

/-! ## The request -/

section
variable {lib : Lib} {sha256 : String → String} {data : Json} {clock : Nat → Time}
  {request : SendRequest} {alerts : List (Alert lib)}

/-- The fields of a request that has passed its validation. -/
theorem sendRequest_fields {to_ : String ⊕ List String} {body key : String} {priority : Int}
    (h : sendRequest to_ body priority key = .ok request) :
    request.body = body ∧ request.notificationPriority = priority := by
  unfold sendRequest at h
  split at h
  · obtain rfl := Except.ok.inj h
    exact ⟨rfl, rfl⟩
  · cases h

/-- The text of an entry is cut off. -/
theorem Alert.text_length_le (a : Alert lib) (bucket : Int) :
    (a.entry bucket).text.length ≤ 1800 := by
  simp only [Alert.entry, sliceTo, String.length_ofList, List.length_take]
  omega

/-- Every entry of a payload is the entry of an alert. -/
theorem mem_sortEntries {e : Entry} (he : e ∈ sortEntries (entries alerts clock)) :
    ∃ a ∈ alerts, ∃ bucket : Int, e = a.entry bucket := by
  obtain ⟨⟨a, i⟩, hp, rfl⟩ := List.mem_map.mp ((List.perm_insertionSort _ _).mem_iff.mp he)
  exact ⟨a, (List.mem_zipIdx' hp).2 ▸ List.getElem_mem _, _, rfl⟩

/-- **The message for a group of alerts**, of whatever length their texts are. -/
theorem group_fits {route owner : Json} {to_ : String ⊕ List String} (hdata : Payload data alerts)
    (hlen : 1 ≤ alerts.length ∧ alerts.length ≤ 100) (howner : subscript route "to" = .ok owner)
    (hto : recipients owner = .ok to_) (hhex : ∀ text, (sha256 text).length = 64) :
    ∃ request first included left,
      messageOf lib sha256 route (.ok data) clock = .ok (request, alerts.length) ∧
      -- the alerts in order, the ones in the body first
      (first :: included ++ left).Perm (entries alerts clock) ∧
      (first :: included ++ left).Pairwise Entry.Before ∧
      (∀ e ∈ first :: included ++ left, ∃ a ∈ alerts, a.Yields e) ∧
      -- the body and its notice
      request.body = joined ((first :: included).map Entry.text) ++ notice left.length ∧
      (first :: included).length + left.length = alerts.length ∧
      -- the longest prefix that fits
      (joined ((first :: included).map Entry.text)).length ≤ 3800 ∧
      (∀ p, p <+: first :: included ++ left → (joined (p.map Entry.text)).length ≤ 3800 →
        p.length ≤ (first :: included).length) ∧
      -- nothing more urgent is left out
      (∀ e ∈ first :: included, ∀ e' ∈ left, e'.priority ≤ e.priority) ∧
      (∀ e ∈ first :: included ++ left, e.priority ≤ request.notificationPriority) ∧
      first.priority = request.notificationPriority ∧
      -- the checks of `SendRequest`
      1 ≤ request.body.length ∧ request.body.length ≤ 4000 ∧
      ∃ key, request.idempotencyKey = some key ∧ key.length ≤ 128 := by
  let es := sortEntries (entries alerts clock)
  have hperm : es.Perm (entries alerts clock) := List.perm_insertionSort _ _
  have heslen : es.length = alerts.length := hperm.length_eq.trans (length_entries _ _)
  have hne : es ≠ [] := fun hnil => by
    have := congrArg List.length hnil
    rw [List.length_nil] at this
    omega
  obtain ⟨included, left, hes, hinc, hfits, hlongest, htext⟩ := groupText_split hne fun e he => by
    obtain ⟨a, -, bucket, rfl⟩ := mem_sortEntries he
    exact a.text_length_le bucket
  obtain ⟨first, included, rfl⟩ := List.exists_cons_of_ne_nil hinc
  -- the first alert is the most urgent one
  have hsorted : (first :: included ++ left).Pairwise Entry.Before := hes ▸ sortEntries_before _
  have hrange : ∀ e ∈ es, 1 ≤ e.priority ∧ e.priority ≤ 5 := fun e he => by
    obtain ⟨a, -, bucket, rfl⟩ := mem_sortEntries he
    exact a.priority_range bucket
  have hfirst := hrange first (by rw [hes]; simp)
  have hmax : (es.map Entry.priority).foldl max 0 = first.priority := by
    rw [hes]
    exact foldl_max_sorted hsorted (by omega)
  -- the request passes its validation
  have hlength : ∀ e ∈ es, 1 ≤ e.text.length := fun e he => by
    obtain ⟨a, -, bucket, rfl⟩ := mem_sortEntries he
    exact a.text_length bucket
  have hbody := groupText_length (by omega) hlength
  have hkey : (groupKey sha256 es).length ≤ 128 := by
    rw [groupKey, String.length_append, hhex]
    decide
  obtain ⟨request, hrequest, -⟩ := sendRequest_eq_ok to_ hbody hkey (hmax ▸ hfirst)
  obtain ⟨hbodyeq, hpriority⟩ := sendRequest_fields hrequest
  have hmessage : messageOf lib sha256 route (.ok data) clock = .ok (request, alerts.length) := by
    rw [messageOf_payload hdata hlen]
    simp only [bind, Except.bind, howner, hto]
    rw [hrequest]
    rfl
  refine ⟨request, first, included, left, hmessage, hes ▸ hperm, hsorted, fun e he => ?_,
    hbodyeq.trans htext, ?_, hfits, hes ▸ hlongest, fun e he e' he' => ?_, fun e he => ?_,
    (hpriority.trans hmax).symm, hbodyeq ▸ hbody.1, hbodyeq ▸ hbody.2, _, sendRequest_key hrequest, hkey⟩
  · obtain ⟨a, ha, bucket, rfl⟩ := mem_sortEntries (hes ▸ he : e ∈ es)
    exact ⟨a, ha, a.yields_entry bucket⟩
  · rw [← heslen, hes, List.length_append]
  · exact ((List.pairwise_append.mp hsorted).2.2 e he e' he').priority_le
  · rw [hpriority, hmax]
    rcases List.mem_cons.mp he with rfl | he
    · exact Int.le_refl _
    · exact ((List.pairwise_cons.mp hsorted).1 e he).priority_le

end

end Grafana

namespace Sample

open Grafana

/-- A summary of `n` characters. -/
def summary (n : Nat) : String := String.ofList (List.replicate n 'x')

theorem length_summary (n : Nat) : (summary n).length = n := by
  simp only [summary, String.length_ofList, List.length_replicate]

theorem summary_nonempty {check : String} (h : check ≠ "") :
    ¬ ("check" = "" ∨ summary 2000 = "" ∨ check = "" ∨ "2026-10-25T01:00:00Z" = "") := by
  have hsummary : summary 2000 ≠ "" := fun hnone => by
    have hlen := length_summary 2000
    rw [hnone] at hlen
    cases hlen
  simp [h, hsummary]

/-- A check fails, and the alert says so at length. -/
def longAlert (check severity : String) (h : check ≠ "") : Alert groupLib where
  items :=
    [("status", .str "firing"), ("fingerprint", .str check),
      ("startsAt", .str "2026-10-25T01:00:00Z"),
      ("labels", .obj [("alertname", .str "check"), ("severity", .str severity)]),
      ("annotations", .obj [("summary", .str (summary 2000))])]
  labels := [("alertname", .str "check"), ("severity", .str severity)]
  annotations := [("summary", .str (summary 2000))]
  name := "check"
  summary := summary 2000
  fingerprint := check
  startsAt := "2026-10-25T01:00:00Z"
  state := .firing
  started := 1792890000000000
  has_labels := rfl
  has_annotations := rfl
  has_status := rfl
  has_name := rfl
  has_summary := rfl
  has_fingerprint := rfl
  has_startsAt := rfl
  nonempty := summary_nonempty h
  has_started := group_started

/-- Two alerts and a critical one. -/
def longAlerts : List (Alert groupLib) :=
  [longAlert "disk" "warning" (by decide), longAlert "fan" "warning" (by decide),
    longAlert "raid" "critical" (by decide)]

/-- The entries of the long alerts have texts of 1800 characters. -/
theorem length_longAlert {a : Alert groupLib} (ha : a ∈ longAlerts) {e : Entry}
    (he : a.Yields e) : e.text.length = 1800 := by
  obtain ⟨check, severity, h, rfl⟩ : ∃ check severity h, a = longAlert check severity h := by
    simp only [longAlerts, List.mem_cons, List.not_mem_nil, or_false] at ha
    rcases ha with rfl | rfl | rfl <;> exact ⟨_, _, _, rfl⟩
  have hlen : 2000 ≤ (longAlert check severity h).text.length := by
    show 2000 ≤ ("[FIRING] " ++ "check" ++ ": " ++ summary 2000 ++ _ : String).length
    simp only [String.length_append, length_summary]
    omega
  rw [← String.length_toList, he.text, List.length_take, String.length_toList]
  omega

/-- Such texts, joined. -/
theorem length_joined_long (es : List Entry) (hne : es ≠ [])
    (hlen : ∀ e ∈ es, e.text.length = 1800) :
    (joined (es.map Entry.text)).length + 2 = es.length * 1802 := by
  rw [length_joined (by simpa using hne), List.map_map,
    List.sum_eq_card_nsmul _ 1802 (by simpa using hlen), List.length_map]
  rfl

end Sample

open Grafana in
/-- Of three long alerts the critical one is in the body with one other, and the notice
    counts the third. -/
theorem Grafana.group_fits_notice : ∃ (request : SendRequest) (first second third : Entry),
    messageOf Sample.groupLib Sample.groupSha256 (.obj [("to", .str "+12025550101")])
      (.ok (Sample.groupBody Sample.longAlerts)) (fun _ => 1792890000000000) =
        .ok (request, 3) ∧
    [first, second, third].Perm (entries Sample.longAlerts fun _ => 1792890000000000) ∧
    request.body =
      first.text ++ "\n\n" ++ second.text ++ "\n\n1 additional alerts; see Grafana." ∧
    first.priority = 4 ∧ second.priority = 3 ∧ third.priority = 3 ∧
    first.text.length = 1800 ∧ second.text.length = 1800 := by
  have hhex : ∀ text, (Sample.groupSha256 text).length = 64 := fun text => by
    unfold Sample.groupSha256
    split <;> rfl
  have howner : subscript (.obj [("to", .str "+12025550101")]) "to" =
      .ok (.str "+12025550101") := rfl
  have hdata : Payload (Sample.groupBody Sample.longAlerts) Sample.longAlerts := rfl
  obtain ⟨request, first, included, left, hmessage, hperm, hsorted, hyields, hbody, hcount, hfits,
    hlongest, -⟩ := @group_fits _ _ _ (fun _ => 1792890000000000) _ _ _ _ hdata
      ⟨by decide, by decide⟩ howner rfl hhex
  -- two texts fit and three do not
  have hlen : ∀ e ∈ first :: included ++ left, e.text.length = 1800 := fun e he => by
    obtain ⟨a, ha, hentry⟩ := hyields e he
    exact Sample.length_longAlert ha hentry
  have hjoined := Sample.length_joined_long (first :: included) (List.cons_ne_nil _ _)
    fun e he => hlen e (List.mem_append_left _ he)
  have htwo := hlongest _ (List.take_prefix 2 _) (by
    have := Sample.length_joined_long ((first :: included ++ left).take 2)
      (by simp) fun e he => hlen e (List.mem_of_mem_take he)
    have := List.length_take_le 2 (first :: included ++ left)
    omega)
  have hthree : (first :: included).length + left.length = 3 := hcount
  rw [List.length_take, List.length_append, hthree] at htwo
  obtain ⟨second, rfl⟩ : ∃ second, included = [second] :=
    List.length_eq_one_iff.mp (by rw [List.length_cons] at *; omega)
  obtain ⟨third, rfl⟩ : ∃ third, left = [third] :=
    List.length_eq_one_iff.mp (by simp only [List.length_cons, List.length_nil] at hthree; omega)
  -- the critical alert comes first
  have hpriorities : ([first, second, third].map Entry.priority).Perm [3, 3, 4] :=
    hperm.map Entry.priority
  have hsum : first.priority + (second.priority + (third.priority + 0)) = 3 + (3 + (4 + 0)) :=
    hpriorities.sum_eq
  have hrange : ∀ e ∈ [first, second, third], e.priority = 3 ∨ e.priority = 4 := fun e he => by
    have hmem := hpriorities.mem_iff.mp (List.mem_map_of_mem (f := Entry.priority) he)
    simpa using hmem
  have hf := hrange first (by simp)
  have hs := hrange second (by simp)
  have ht := hrange third (by simp)
  obtain ⟨hfirst, hrest⟩ := List.pairwise_cons.mp hsorted
  have hfs := (hfirst second (by simp)).priority_le
  have hst := ((List.pairwise_cons.mp hrest).1 third (by simp)).priority_le
  refine ⟨request, first, second, third, hmessage, hperm, ?_, by omega, by omega, by omega,
    hlen first (by simp), hlen second (by simp)⟩
  rw [hbody]
  show String.intercalate "\n\n" [first.text, second.text] ++ ("\n\n" ++ toString 1 ++ _) = _
  have hone : toString 1 = "1" := rfl
  simp [hone]

end SmsRelay
