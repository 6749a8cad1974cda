import SmsRelay.ForStd.Paging
import SmsRelay.Spec.Invariant
import SmsRelay.Spec.Queries
import SmsRelay.Spec.Queue

/-!
# Reading the log page by page

A client of `list_messages` goes through the log with growing offsets, and the relay goes on
in the meantime.  A row stays in the log with the time it was created at, so what the client
sees of it depends on how many newer rows there are when a page is read: new rows push it
back, and a prune pass pulls it to the front.

## Key results

- `logKeys_run`: what a run does to the rows of the log
- `shown_iff`: on which page a row is
- `log_walk`: without a prune pass the client misses no row, and without new rows it sees
  none twice
-/

namespace SmsRelay

open Transition ListMessages Paging

/-- The rows that `list_messages` looks at when it is not asked for a status. -/
def inLog (service : String) (direction : Option String) (m : Message) : Bool :=
  scope service m && passes direction m.direction.value

/-- What says whether a row is in the log of a caller, and where. -/
def Message.logKey (m : Message) : String × Direction × Time :=
  (m.service, m.direction, m.createdAt)

/-- The pages that a client reads one after the other, while the relay goes on. -/
structure Walk (lib : Lib) (cfg : Settings) (env : Env) (service : String)
    (direction : Option String) (limit last : Nat) where
  before : List Action
  between : Nat → List Action
  /-- The states that the statements of the pages see. -/
  state : Nat → Sys
  countDb : Nat → Store
  order : Nat → RowOrder
  list : Nat → MessageList
  limit_range : 1 ≤ limit ∧ limit ≤ 500
  reached : Run lib cfg (Sys.init env) before (state 0)
  goesOn : ∀ k < last, Run lib cfg (state k) (between k) (state (k + 1))
  page : ∀ k ≤ last, listMessages (order k) (countDb k) (state k).db service
    ⟨direction, none, limit, k * limit, limit_range⟩ = .ok (list k)

/-- The list shows the message. -/
def Shows (list : MessageList) (id : String) : Prop := ∃ out ∈ list.messages, out.id = id

/-! ## The log along a run -/

section
variable {lib : Lib} {cfg : Settings} {s t : Sys} {tr : List Action} {a : Action}

theorem logKey_of_content {m m' : Message} (h : m'.content = m.content) :
    m'.logKey = m.logKey := by
  have hservice : m'.service = m.service := congrArg (·.2.2.2.2.2.1) h
  have hcreated : m'.createdAt = m.createdAt := congrArg (·.2.2.2.2.2.2.2.2.2) h
  unfold Message.logKey
  rw [hservice, Message.direction_eq_of_content h, hcreated]

/-- A step adds rows to the log, or removes some, or leaves it as it is. -/
private theorem logKeys_step (hi : Inv cfg s) (h : Trans lib cfg s a t) :
    ((∀ now, a ≠ .prune now) →
      (s.db.messages.map Message.logKey).Sublist (t.db.messages.map Message.logKey)) ∧
    (a.commits = none →
      (t.db.messages.map Message.logKey).Sublist (s.db.messages.map Message.logKey)) := by
  cases rowsStep_of_trans hi h with
  | same hms =>
    rw [hms]
    exact ⟨fun _ => .refl _, fun _ => .refl _⟩
  | change f hms hf =>
    -- a commit leaves the columns of the log alone
    have hkeys : t.db.messages.map Message.logKey = s.db.messages.map Message.logKey := by
      rw [hms, List.map_map]
      apply List.map_congr_left
      intro r hr
      rcases hf r hr with heq | hcause
      · exact congrArg Message.logKey heq
      · exact logKey_of_content (hcause.change hi hr).frame
    rw [hkeys]
    exact ⟨fun _ => .refl _, fun _ => .refl _⟩
  | prune now ha hdb =>
    refine ⟨fun hprune => absurd ha (hprune now), fun _ => ?_⟩
    rw [hdb]
    exact List.Sublist.map _ List.filter_sublist
  | insert c hcommit hms =>
    refine ⟨fun _ => ?_, fun hnone => by rw [hnone] at hcommit; cases hcommit⟩
    rw [hms, List.map_append]
    exact List.sublist_append_left _ _

/-- **What a run does to the rows of the log**: without a prune pass none goes, and without a
    new row none comes. -/
theorem logKeys_run (hi : Inv cfg s) (hrun : Run lib cfg s tr t) :
    ((∀ now, .prune now ∉ tr) →
      (s.db.messages.map Message.logKey).Sublist (t.db.messages.map Message.logKey)) ∧
    ((∀ a ∈ tr, a.commits = none) →
      (t.db.messages.map Message.logKey).Sublist (s.db.messages.map Message.logKey)) := by
  induction hrun with
  | nil => exact ⟨fun _ => .refl _, fun _ => .refl _⟩
  | @snoc tr u a t hrun hstep ih =>
    obtain ⟨hkeep, hnew⟩ := logKeys_step (inv_run hi hrun) (trans_of_step hstep).2
    constructor
    · intro hprune
      have hsofar := ih.1 fun now hmem => hprune now (List.mem_append_left _ hmem)
      refine hsofar.trans (hkeep fun now heq => hprune now ?_)
      rw [heq]
      exact List.mem_append_right _ (List.mem_singleton.mpr rfl)
    · intro hcommits
      have hsofar := ih.2 fun b hb => hcommits b (List.mem_append_left _ hb)
      exact (hnew (hcommits a (List.mem_append_right _ (List.mem_singleton.mpr rfl)))).trans hsofar

end

/-! ## Where a row is -/

section
variable {service : String} {direction : Option String} {db countDb : Store} {order : RowOrder}
  {limit k : Nat} {list : MessageList} {m : Message}

/-- The rows of the log that are newer than `time`. -/
def newer (service : String) (direction : Option String) (time : Time) (db : Store) : Nat :=
  db.messages.countP fun r => inLog service direction r && time < r.createdAt

/-- The columns of the log decide which rows are newer. -/
private theorem newer_le {db db' : Store} (time : Time)
    (h : (db.messages.map Message.logKey).Sublist (db'.messages.map Message.logKey)) :
    newer service direction time db ≤ newer service direction time db' := by
  have hle := h.countP_le (p := fun key : String × Direction × Time =>
    ((key.1 = service || key.2.1 = .inbound) && passes direction key.2.1.value) && time < key.2.2)
  rw [List.countP_map, List.countP_map] at hle
  exact hle

/-- No other row of the log was created at the time of the row. -/
def OwnTime (service : String) (direction : Option String) (m : Message) (db : Store) : Prop :=
  ∀ r ∈ db.messages, inLog service direction r = true → r.createdAt = m.createdAt → r.id = m.id

/-- The sorted log around a row: newer rows in front of it, older ones behind. -/
private theorem ordered_split {q : ListQuery} (hq : q.direction = direction ∧ q.status = none)
    (hm : m ∈ db.messages) (hlog : inLog service direction m = true)
    (hown : OwnTime service direction m db) :
    ∃ before after, ordered order db service q = before ++ m :: after ∧ m ∉ before ∧ m ∉ after ∧
      before.length = newer service direction m.createdAt db := by
  have hfilter : filters service q = inLog service direction := by
    funext r
    obtain ⟨rfl, hstatus⟩ := hq
    simp [filters, inLog, passes, hstatus]
  have hperm := order.perm service q.direction q.status (db.messages.filter (filters service q))
  have hsorted := order.sorted service q.direction q.status (db.messages.filter (filters service q))
  rw [hfilter] at hperm hsorted
  have hordered : ordered order db service q = order.rows service q.direction q.status
      (db.messages.filter (inLog service direction)) := by
    unfold ordered
    rw [hfilter]
  rw [← hordered] at hperm hsorted
  have hmem : m ∈ ordered order db service q :=
    hperm.mem_iff.mpr (List.mem_filter.mpr ⟨hm, hlog⟩)
  obtain ⟨before, after, hsplit⟩ := List.append_of_mem hmem
  -- no row comes twice
  have hids : (db.messages.map Message.id).Nodup := db.integrity.pkMessages
  have hnodup : (ordered order db service q).Nodup :=
    hperm.nodup_iff.mpr ((List.Nodup.of_map _ hids).filter _)
  rw [hsplit] at hnodup hsorted
  have hbefore : m ∉ before := fun h =>
    (List.nodup_append.mp hnodup).2.2 m h m List.mem_cons_self rfl
  have hafter : m ∉ after := (List.nodup_cons.mp (List.nodup_append.mp hnodup).2.1).1
  refine ⟨before, after, hsplit, hbefore, hafter, ?_⟩
  -- a row of the log with the time of `m` is `m`
  have hrow : ∀ r ∈ before ++ m :: after, r.createdAt = m.createdAt → r = m := by
    intro r hr heq
    rw [← hsplit] at hr
    obtain ⟨hrdb, hrlog⟩ := List.mem_filter.mp (hperm.mem_iff.mp hr)
    exact Store.eq_of_id hrdb hm (hown r hrdb hrlog heq)
  have hnewer : newer service direction m.createdAt db =
      (before ++ m :: after).countP fun r => m.createdAt < r.createdAt := by
    rw [← hsplit, hperm.countP_eq, newer, List.countP_filter]
    simp only [Bool.and_comm]
  have hfront : before.countP (fun r => m.createdAt < r.createdAt) = before.length := by
    rw [List.countP_eq_length]
    intro r hr
    have hle : m.createdAt ≤ r.createdAt :=
      (List.pairwise_append.mp hsorted).2.2 r hr m List.mem_cons_self
    have hne : r.createdAt ≠ m.createdAt := fun heq =>
      hbefore (hrow r (List.mem_append_left _ hr) heq ▸ hr)
    exact decide_eq_true (Int.lt_iff_le_and_ne.mpr ⟨hle, hne.symm⟩)
  have hback : (m :: after).countP (fun r => m.createdAt < r.createdAt) = 0 := by
    rw [List.countP_eq_zero]
    intro r hr hlt
    have hlt : m.createdAt < r.createdAt := of_decide_eq_true hlt
    rcases List.mem_cons.mp hr with rfl | hr
    · exact absurd hlt (Int.lt_irrefl _)
    · have hle : r.createdAt ≤ m.createdAt :=
        (List.pairwise_cons.mp (List.pairwise_append.mp hsorted).2.1).1 r hr
      exact absurd hlt (Int.not_lt.mpr hle)
  rw [hnewer, List.countP_append, hfront, hback, Nat.add_zero]

/-- **On which page a row is**: the one of its rank among the newer rows. -/
theorem shown_iff {limit_range : 1 ≤ limit ∧ limit ≤ 500}
    (h : listMessages order countDb db service ⟨direction, none, limit, k * limit, limit_range⟩ =
      .ok list)
    (hm : m ∈ db.messages) (hlog : inLog service direction m = true)
    (hown : OwnTime service direction m db) :
    Shows list m.id ↔ OnPage limit k (newer service direction m.createdAt db) := by
  obtain ⟨before, after, hsplit, hbefore, hafter, hlen⟩ :=
    @ordered_split service direction db order m
      ⟨direction, none, limit, k * limit, limit_range⟩ ⟨rfl, rfl⟩ hm hlog hown
  rw [← hlen, ← mem_page_iff hbefore hafter, ← hsplit]
  unfold listMessages at h
  dsimp only at h
  split at h
  · cases h
  · obtain rfl := Except.ok.inj h
    constructor
    · rintro ⟨out, hout, hid⟩
      obtain ⟨r, hr, rfl⟩ := List.mem_map.mp hout
      have hrow := mem_of_ordered (List.mem_of_mem_drop (List.mem_of_mem_take hr))
      obtain rfl : r = m := Store.eq_of_id (mem_view.mp hrow).1 hm hid
      exact hr
    · intro hmem
      exact ⟨MessageOut.of .loaded m, List.mem_map_of_mem hmem, rfl⟩

/-- A message that is not stored is not shown. -/
theorem stored_of_shows {q : ListQuery} (h : listMessages order countDb db service q = .ok list)
    {id : String} (hshows : Shows list id) : ∃ m ∈ db.messages, m.id = id := by
  obtain ⟨out, hout, rfl⟩ := hshows
  obtain ⟨rows, hsub, hrows⟩ := messages_of_listMessages h
  rw [hrows] at hout
  obtain ⟨r, hr, rfl⟩ := List.mem_map.mp hout
  exact ⟨r, (mem_view.mp (mem_of_ordered (hsub.mem hr))).1, rfl⟩

/-- A page that is not full is the last one. -/
theorem newer_lt_of_short {limit_range : 1 ≤ limit ∧ limit ≤ 500}
    (h : listMessages order countDb db service ⟨direction, none, limit, k * limit, limit_range⟩ =
      .ok list)
    (hshort : list.messages.length < limit)
    (hm : m ∈ db.messages) (hlog : inLog service direction m = true)
    (hown : OwnTime service direction m db) :
    newer service direction m.createdAt db < (k + 1) * limit := by
  obtain ⟨before, after, hsplit, -, -, hlen⟩ :=
    @ordered_split service direction db order m
      ⟨direction, none, limit, k * limit, limit_range⟩ ⟨rfl, rfl⟩ hm hlog hown
  unfold listMessages at h
  dsimp only at h
  split at h
  · cases h
  · obtain rfl := Except.ok.inj h
    rw [hsplit] at hshort
    simp only [List.length_map, List.length_take, List.length_drop, List.length_append,
      List.length_cons] at hshort
    rw [← hlen, Nat.add_mul, Nat.one_mul]
    omega

end

/-! ## The walk -/

section
variable {lib : Lib} {cfg : Settings} {env : Env} {service : String} {direction : Option String}
  {limit last : Nat} {w : Walk lib cfg env service direction limit last} {m r : Message}
  {k k' : Nat}

/-- From one page to a later one. -/
private theorem Walk.run (hle : k ≤ k') (hk : k' ≤ last) : ∃ tr,
    Run lib cfg (w.state k) tr (w.state k') ∧ ∀ a ∈ tr, ∃ j < last, a ∈ w.between j := by
  induction hle with
  | refl => exact ⟨[], .nil, fun a ha => absurd ha List.not_mem_nil⟩
  | @step k' hle ih =>
    obtain ⟨tr, hrun, hmem⟩ := ih (Nat.le_of_succ_le hk)
    refine ⟨tr ++ w.between k', hrun.append (w.goesOn k' hk), fun a ha => ?_⟩
    rcases List.mem_append.mp ha with ha | ha
    · exact hmem a ha
    · exact ⟨k', hk, ha⟩

private theorem Walk.inv (hk : k ≤ last) : Inv cfg (w.state k) := by
  obtain ⟨tr, hrun, -⟩ := w.run (Nat.zero_le k) hk
  exact inv_run (inv_reachable w.reached) hrun

/-- A row of a later page has the content that it had on the first one. -/
private theorem Walk.content (hk : k ≤ last) (hm : m ∈ (w.state 0).db.messages)
    (hr : r ∈ (w.state k).db.messages) (hid : r.id = m.id) : r.content = m.content := by
  obtain ⟨tr, hrun, -⟩ := w.run (Nat.zero_le k) hk
  exact (evolved_run (inv_reachable w.reached) hrun hm hr hid).frame

/-- The log and the place in it are read off the content. -/
private theorem Walk.place (hk : k ≤ last) (hm : m ∈ (w.state 0).db.messages)
    (hlog : inLog service direction m = true) (hown : OwnTime service direction m (w.state k).db)
    (hr : r ∈ (w.state k).db.messages) (hid : r.id = m.id) :
    inLog service direction r = true ∧ OwnTime service direction r (w.state k).db ∧
      r.createdAt = m.createdAt := by
  have hkey := logKey_of_content (w.content hk hm hr hid)
  simp only [Message.logKey, Prod.mk.injEq] at hkey
  obtain ⟨hservice, hdirection, hcreated⟩ := hkey
  refine ⟨?_, fun x hx hxlog hxtime => ?_, hcreated⟩
  · unfold inLog scope at hlog ⊢
    rwa [hservice, hdirection]
  · rw [hid]
    exact hown x hx hxlog (hxtime.trans hcreated)

/-- The page that shows a message is the one of its rank. -/
private theorem Walk.onPage (hk : k ≤ last) (hm : m ∈ (w.state 0).db.messages)
    (hlog : inLog service direction m = true) (hown : OwnTime service direction m (w.state k).db)
    (h : Shows (w.list k) m.id) :
    OnPage limit k (newer service direction m.createdAt (w.state k).db) := by
  obtain ⟨r, hr, hid⟩ := stored_of_shows (w.page k hk) h
  obtain ⟨hrlog, hrown, htime⟩ := w.place hk hm hlog hown hr hid
  rw [← hid, shown_iff (w.page k hk) hr hrlog hrown, htime] at h
  exact h

/-- **The log, read page by page while the relay goes on.**  The client asks for the whole
    log of one direction, or of both, and every time from where the last page ended.  A row
    that was stored when it started, and that no other row shares its time with, is on one of
    the pages up to the first that is not full, unless a prune pass comes in between.  It is
    on one page at most, unless a row is added in between; so each row is read exactly once
    where neither comes. -/
theorem log_walk (w : Walk lib cfg env service direction limit last)
    (hm : m ∈ (w.state 0).db.messages) (hlog : inLog service direction m = true)
    (hown : ∀ k ≤ last, OwnTime service direction m (w.state k).db) :
    ((∀ k < last, ∀ now, .prune now ∉ w.between k) → (w.list last).messages.length < limit →
      ∃ k ≤ last, Shows (w.list k) m.id) ∧
    ((∀ k < last, ∀ a ∈ w.between k, a.commits = none) →
      ∀ k ≤ last, ∀ k' ≤ last, Shows (w.list k) m.id → Shows (w.list k') m.id → k = k') := by
  constructor
  · intro hprune hshort
    -- the row stays, and its rank does not come down
    have hstays : ∀ k ≤ last, ∃ r ∈ (w.state k).db.messages, r.id = m.id := by
      intro k hk
      obtain ⟨tr, hrun, hmem⟩ := w.run (Nat.zero_le k) hk
      refine row_persists (inv_reachable w.reached) hrun (fun now hnow => ?_) hm
      obtain ⟨j, hj, hbetween⟩ := hmem _ hnow
      exact hprune j hj now hbetween
    have hup : ∀ k < last, newer service direction m.createdAt (w.state k).db ≤
        newer service direction m.createdAt (w.state (k + 1)).db := by
      intro k hk
      apply newer_le
      exact (logKeys_run (w.inv (Nat.le_of_lt hk)) (w.goesOn k hk)).1 (hprune k hk)
    -- the last page was not full, so the rank is on it or before it
    obtain ⟨r, hr, hid⟩ := hstays last (Nat.le_refl last)
    obtain ⟨hrlog, hrown, htime⟩ :=
      w.place (Nat.le_refl last) hm hlog (hown last (Nat.le_refl last)) hr hid
    have hlast := newer_lt_of_short (w.page last (Nat.le_refl last)) hshort hr hrlog hrown
    rw [htime] at hlast
    obtain ⟨k, hk, hpage⟩ := exists_onPage hup hlast
    obtain ⟨r, hr, hid⟩ := hstays k hk
    obtain ⟨hrlog, hrown, htime⟩ := w.place hk hm hlog (hown k hk) hr hid
    refine ⟨k, hk, ?_⟩
    rw [← hid, shown_iff (w.page k hk) hr hrlog hrown, htime]
    exact hpage
  · intro hcommits
    have hdown : ∀ k k', k ≤ k' → k' ≤ last → newer service direction m.createdAt (w.state k').db ≤
        newer service direction m.createdAt (w.state k).db := by
      intro k k' hle hk'
      obtain ⟨tr, hrun, hmem⟩ := w.run hle hk'
      apply newer_le
      refine (logKeys_run (w.inv (Nat.le_trans hle hk')) hrun).2 fun a ha => ?_
      obtain ⟨j, hj, hbetween⟩ := hmem a ha
      exact hcommits j hj a hbetween
    intro k hk k' hk' hshows hshows'
    have hpage := w.onPage hk hm hlog (hown k hk) hshows
    have hpage' := w.onPage hk' hm hlog (hown k' hk') hshows'
    rcases Nat.le_total k k' with hle | hle
    · exact hpage.unique hpage' hle (hdown k k' hle hk')
    · exact (hpage'.unique hpage hle (hdown k' k hle hk)).symm

end

namespace Sample

/-- Newest first; rows with one time in the order they are found in. -/
def newestFirst : ListMessages.RowOrder where
  rows _ _ _ ms := ms.mergeSort fun m m' => m'.createdAt ≤ m.createdAt
  perm _ _ _ ms := List.mergeSort_perm ms _
  sorted _ _ _ ms := by
    have hsorted : (ms.mergeSort fun m m' => m'.createdAt ≤ m.createdAt).Pairwise fun m m' =>
        decide (m'.createdAt ≤ m.createdAt) = true := by
      apply List.pairwise_mergeSort
      · intro m m' m'' h h'
        exact decide_eq_true (Int.le_trans (of_decide_eq_true h') (of_decide_eq_true h))
      · intro m m'
        simp only [Bool.or_eq_true, decide_eq_true_eq]
        exact Int.le_total _ _
    exact hsorted.imp of_decide_eq_true

theorem one_in_range : 1 ≤ 1 ∧ 1 ≤ 500 := by decide

/-- One row to a page. -/
def onePerPage (offset : Nat) : ListQuery := ⟨none, none, 1, offset, one_in_range⟩

/-- A response to `list_messages`. -/
def response (db : Store) (offset : Nat) : MessageList where
  messages := (((ordered newestFirst db "svc" (onePerPage offset)).drop offset).take 1).map
    (MessageOut.of .loaded)
  total := (db.messages.filter (filters "svc" (onePerPage offset))).length

theorem response_eq (db : Store) {k : Nat} (hk : k ≤ 2) :
    listMessages newestFirst db db "svc" (onePerPage (k * 1)) = .ok (response db (k * 1)) := by
  unfold listMessages
  rw [if_neg (by simp only [onePerPage]; omega)]
  rfl

/-- Three pages; the relay goes from `s` to `t` after the first one. -/
def threePages {before between : List Action} {s t : Sys}
    (hs : Run lib cfg (Sys.init env) before s) (ht : Run lib cfg s between t) :
    Walk lib cfg env "svc" none 1 2 where
  before := before
  between k := if k = 0 then between else []
  state k := if k = 0 then s else t
  countDb k := if k = 0 then s.db else t.db
  order _ := newestFirst
  list k := response (if k = 0 then s.db else t.db) (k * 1)
  limit_range := one_in_range
  reached := hs
  goesOn := by
    intro k _
    by_cases hk : k = 0
    · subst hk
      exact ht
    · simp only [if_neg hk, if_neg (Nat.succ_ne_zero k)]
      exact .nil
  page := by
    intro k hk
    by_cases h : k = 0
    · simp only [if_pos h]
      exact response_eq s.db hk
    · simp only [if_neg h]
      exact response_eq t.db hk

/-- Two requests, one after the other. -/
def sendTwice : List Action :=
  queue "m1" 0 ++ [.sendMessage 1 (.begin "svc" request), .sendMessage 1 (.create ["m2"] 5),
    .sendMessage 1 .commit]

/-- The committed rows as the log has them. -/
def logOf (s : Sys) : List (String × String × Direction × Time) :=
  s.db.messages.map fun m => (m.id, m.logKey)

/-- Two messages of a service. -/
def twoRows : List (String × String × Direction × Time) :=
  [("m1", "svc", .outbound, 0), ("m2", "svc", .outbound, 5)]

/-- The row of the older message shares its time with no other. -/
theorem ownTime_of_logOf {s : Sys} {m : Message} (hlog : logOf s = twoRows)
    (hm : m.createdAt = 0 ∧ m.id = "m1") : OwnTime "svc" none m s.db := by
  intro r hr _ htime
  have hrow : (r.id, r.logKey) ∈ twoRows := hlog ▸ List.mem_map_of_mem hr
  simp only [twoRows, Message.logKey, List.mem_cons, Prod.mk.injEq, List.not_mem_nil,
    or_false] at hrow
  rcases hrow with h | h
  · exact h.1.trans hm.2.symm
  · exact absurd (h.2.2.2.symm.trans (htime.trans hm.1)) (by decide)

end Sample

/-- Two messages on a page each; the older one goes out after the first page is read. -/
theorem log_walk_sending : ∃ (w : Walk Sample.lib Sample.cfg Sample.env "svc" none 1 2)
    (m : Message), w.between 0 = Sample.post "m1" 6 ∧ m ∈ (w.state 0).db.messages ∧ m.id = "m1" ∧
    ∃ k ≤ 2, Shows (w.list k) m.id ∧ ∀ k' ≤ 2, Shows (w.list k') m.id → k = k' := by
  obtain ⟨s, t, hs, ht, hslog, htlog⟩ : ∃ s t,
      Run Sample.lib Sample.cfg (Sys.init Sample.env) Sample.sendTwice s ∧
      Run Sample.lib Sample.cfg s (Sample.post "m1" 6) t ∧
      Sample.logOf s = Sample.twoRows ∧ Sample.logOf t = Sample.twoRows :=
    run_of_exec_map₂ (by decide +kernel) (by decide +kernel)
  obtain ⟨m, hm, hrow⟩ : ∃ m ∈ s.db.messages, (m.id, m.logKey) = ("m1", "svc", .outbound, 0) :=
    List.mem_map.mp (by rw [← Sample.logOf, hslog]; exact List.mem_cons_self)
  simp only [Message.logKey, Prod.mk.injEq] at hrow
  obtain ⟨hid, hservice, hdirection, htime⟩ := hrow
  have hwalk := log_walk (Sample.threePages hs ht) (m := m) hm
    (by simp [inLog, scope, passes, hservice]) fun k hk => by
      by_cases h : k = 0
      · subst h
        exact Sample.ownTime_of_logOf hslog ⟨htime, hid⟩
      · simp only [Sample.threePages, if_neg h]
        exact Sample.ownTime_of_logOf htlog ⟨htime, hid⟩
  have hbetween : ∀ k, ∀ a ∈ (Sample.threePages hs ht).between k, a ∈ Sample.post "m1" 6 := by
    intro k a ha
    by_cases h : k = 0
    · subst h
      exact ha
    · simp only [Sample.threePages, if_neg h] at ha
      exact absurd ha List.not_mem_nil
  refine ⟨Sample.threePages hs ht, m, rfl, hm, hid, ?_⟩
  -- the log has two rows, so the third page is empty
  have hshort : (Sample.response t.db 2).messages.length = 0 := by
    have hlen : (ordered Sample.newestFirst t.db "svc" (Sample.onePerPage 2)).length ≤ 2 := by
      have htwo : t.db.messages.length = 2 := by
        have hmap := congrArg List.length htlog
        rwa [Sample.logOf, List.length_map] at hmap
      rw [ordered, (Sample.newestFirst.perm _ _ _ _).length_eq, ← htwo]
      exact List.length_filter_le _ _
    simp only [Sample.response, List.length_map, List.length_take, List.length_drop]
    omega
  obtain ⟨k, hk, hshows⟩ := hwalk.1
    (fun k _ now hnow => by
      have hmem := hbetween k _ hnow
      simp [Sample.post] at hmem) (Nat.lt_of_le_of_lt (Nat.le_of_eq hshort) Nat.one_pos)
  refine ⟨k, hk, hshows, fun k' hk' hshows' => ?_⟩
  refine hwalk.2 (fun j _ a ha => ?_) k hk k' hk' hshows hshows'
  have hmem := hbetween j a ha
  simp only [Sample.post, List.mem_cons, List.not_mem_nil, or_false] at hmem
  rcases hmem with rfl | rfl | rfl | rfl <;> rfl

end SmsRelay
