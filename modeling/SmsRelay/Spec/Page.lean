import SmsRelay.Native.Page
import SmsRelay.Spec.Queries
import SmsRelay.Spec.Queue

/-!
# The log viewer shows text as text

A stranger decides what the body of an inbound message says, and a gateway what an error
says.  On the page these values stand in holes of template literals, escaped; the fields
that are not escaped take only values that the relay itself has chosen.

## Key results

- `plain_row`, `plain_stats`: what is in the holes has no markup character
- `status_mem_vocabulary`: the directions and statuses that a response can have
- `markup_independent`: the markup of the page does not depend on the texts
- `read_of_listMessages`: the messages of a response are messages that were read
-/

namespace SmsRelay

open Transition Template

namespace Page

/-- The characters that delimit tags and attributes. -/
def isMarkup (c : Char) : Bool := c ∈ "<>\"'".toList

/-- A value in a hole: without markup, and each `&` starts one of the entities of `esc`. -/
abbrev Plain (v : List Char) : Prop := Inert entities '&' "<>\"'".toList v

/-- The fields whose contents come from outside. -/
structure Texts where
  body : String
  error : Option String
  service : String
  fromNumber : Option String
  toNumber : Option String

/-- A message with other texts. -/
def withTexts (m : MessageOut) (x : Texts) : MessageOut :=
  { m with
    body := x.body
    error := x.error
    service := x.service
    fromNumber := x.fromNumber
    toNumber := x.toNumber }

/-- The messages of a response, read from rows, with texts given by position. -/
def read (texts : Nat → Texts) (ms : List Message) : List MessageOut :=
  ms.mapIdx fun i m => withTexts (.of .loaded m) (texts i)

/-- The statuses that the relay stores in rows of a direction. -/
def vocabulary : String → List String
  | "outbound" => ["queued", "sending", "sent", "delivered", "failed", "published"]
  | "inbound" => ["received", "delivered"]
  | _ => []

/-- Two lists of pieces differ only in what is in the holes, and that is plain. -/
structure SameMarkup (ps qs : List (Piece Char)) : Prop where
  skeleton : skeleton ps = skeleton qs
  markup : (html ps).filter isMarkup = (html qs).filter isMarkup
  plain : ∀ v ∈ holes ps ++ holes qs, Plain v

variable {fmt : DateTime → String} {m : Message} {x y : Texts} {ms : List Message}
  {f g : Nat → Texts}

/-! ## What is in the holes -/

/-- The table of `esc`: the five characters, each with an entity. -/
theorem escaper_entities : Escaper entities '&' "<>\"'".toList where
  replacement e he := by
    have hall : ((entities.map Prod.snd).all fun e => e = '&' :: e.tail ∧ '&' ∉ e.tail ∧
        e.all fun c => c ∉ "<>\"'".toList) = true := by decide
    obtain ⟨heq, htail, hmarked⟩ := of_decide_eq_true (List.all_eq_true.mp hall e he)
    refine ⟨e.tail, heq, htail, fun c hc hmem => ?_⟩
    exact of_decide_eq_true (List.all_eq_true.mp hmarked c hmem) hc
  marked_mem c hc := by
    have hall : ("<>\"'".toList.all fun c => c ∈ entities.map Prod.fst) = true := by decide
    exact of_decide_eq_true (List.all_eq_true.mp hall c hc)
  opener_mem := by decide

/-- What `esc` returns is plain, whatever it is given. -/
theorem plain_esc (s : Option String) : Plain (esc s) := inert_escape escaper_entities _

/-- A value with none of the five characters is plain. -/
theorem plain_of_not_mem {v : List Char} (h : ∀ c ∈ v, c ∉ "&<>\"'".toList) : Plain v :=
  inert_of_not_mem (fun c hc hmem => h c hmem (List.mem_cons_of_mem '&' hc))
    fun hmem => h '&' hmem List.mem_cons_self

/-- The same, as a test. -/
theorem plain_of_all {v : List Char} (h : (v.all fun c => c ∉ "&<>\"'".toList) = true) :
    Plain v :=
  plain_of_not_mem fun c hc => of_decide_eq_true (List.all_eq_true.mp h c hc)

/-- A number is written in digits. -/
theorem isDigit_number {n : Nat} {c : Char} (hc : c ∈ number n) : c.isDigit = true := by
  rw [number, Nat.toString_eq_repr, Nat.toList_repr] at hc
  exact Nat.isDigit_of_mem_toDigits (by decide) (by decide) hc

/-- A number is plain. -/
theorem plain_number (n : Nat) : Plain (number n) := by
  have hnone : ("&<>\"'".toList.all fun c => !c.isDigit) = true := by decide
  apply plain_of_not_mem
  intro c hc hmem
  have hnot := List.all_eq_true.mp hnone c hmem
  rw [isDigit_number hc] at hnot
  cases hnot

/-- A direction is plain. -/
theorem plain_direction (d : Direction) : Plain d.value.toList := by
  cases d <;> exact plain_of_all (by decide)

/-- A status is plain. -/
theorem plain_status (s : MessageStatus) : Plain s.value.toList := by
  cases s <;> exact plain_of_all (by decide)

/-- What the browser writes for a time is plain, when it has no character that `esc` would
    replace. -/
theorem plain_fmt (hfmt : ∀ at_, ∀ c ∈ (fmt at_).toList, c ∉ "&<>\"'".toList) (at_ : DateTime) :
    Plain (fmt at_).toList := plain_of_not_mem (hfmt at_)

/-- **The holes of a row** of the table are plain, whatever the texts of the message are. -/
theorem plain_row (hfmt : ∀ at_, ∀ c ∈ (fmt at_).toList, c ∉ "&<>\"'".toList) (m : Message)
    (x : Texts) {v : List Char} (hv : v ∈ holes (row fmt (withTexts (.of .loaded m) x))) :
    Plain v := by
  rw [row, holes_append, holes_append, List.mem_append, List.mem_append] at hv
  rcases hv with (hcell | hnote) | hattempts
  · -- the cells up to the body, in their order
    simp only [holes, List.filterMap_cons, List.filterMap_nil, List.mem_cons, List.not_mem_nil,
      or_false] at hcell
    rcases hcell with rfl | rfl | rfl | rfl | rfl | rfl | rfl
    · exact plain_fmt hfmt _
    · exact plain_direction m.direction
    · exact plain_status m.status
    · exact plain_status m.status
    · exact plain_esc _
    · exact plain_esc _
    · exact plain_esc _
  · unfold errorNote at hnote
    split at hnote
    · simp only [holes, List.filterMap_cons, List.filterMap_nil, List.mem_singleton] at hnote
      exact hnote ▸ plain_esc _
    · cases hnote
  · simp only [holes, List.filterMap_cons, List.filterMap_nil, List.mem_singleton] at hattempts
    exact hattempts ▸ plain_number _

/-- Counting a status adds no other key. -/
theorem key_of_count {acc : List (String × Nat)} {s key : String}
    (h : key ∈ (count acc s).map Prod.fst) : key = s ∨ key ∈ acc.map Prod.fst := by
  unfold count at h
  split at h
  · -- only the number of the entry changes
    obtain ⟨entry, hentry, rfl⟩ := List.mem_map.mp h
    obtain ⟨old, hold, rfl⟩ := List.mem_map.mp hentry
    by_cases hs : old.1 = s
    · exact .inl (by simp [hs])
    · right
      rw [if_neg hs]
      exact List.mem_map_of_mem hold
  · rw [List.map_append, List.mem_append] at h
    exact h.symm.imp_left List.mem_singleton.mp

/-- The keys of a count are what was counted and the keys it began with. -/
theorem key_of_foldl_count {statuses : List String} {acc : List (String × Nat)} {key : String}
    (h : key ∈ (statuses.foldl count acc).map Prod.fst) :
    key ∈ statuses ∨ key ∈ acc.map Prod.fst := by
  induction statuses generalizing acc with
  | nil => exact .inr h
  | cons s statuses ih =>
    rcases ih h with hlater | hkey
    · exact .inl (List.mem_cons_of_mem s hlater)
    · rcases key_of_count hkey with rfl | hold
      · exact .inl List.mem_cons_self
      · exact .inr hold

/-- A counted status is the status of a message. -/
theorem status_of_mem_counts {messages : List MessageOut} {entry : String × Nat}
    (h : entry ∈ counts messages) : entry.1 ∈ messages.map MessageOut.status :=
  (key_of_foldl_count (List.mem_map_of_mem h)).resolve_right (by simp)

/-- The statuses of the messages that were read are those of the rows. -/
theorem statuses_read (f : Nat → Texts) (ms : List Message) :
    (read f ms).map MessageOut.status = ms.map fun m => m.status.value := by
  induction ms generalizing f with
  | nil => rfl
  | cons m ms ih =>
    rw [read, List.mapIdx_cons, List.map_cons, List.map_cons]
    exact congrArg _ (ih fun i => f (i + 1))

/-- The stats do not depend on the texts at all. -/
theorem stats_read (f g : Nat → Texts) (ms : List Message) (total : Nat) :
    stats (read f ms) total = stats (read g ms) total := by
  unfold stats counts
  rw [statuses_read, statuses_read]

/-- **The holes of the stats** are plain. -/
theorem plain_stats (f : Nat → Texts) (ms : List Message) (total : Nat) {v : List Char}
    (hv : v ∈ holes (stats (read f ms) total)) : Plain v := by
  rw [stats, holes_append, List.mem_append, mem_holes_flatMap] at hv
  rcases hv with htotal | ⟨entry, hentry, hstat⟩
  · simp only [stat, holes, List.filterMap_cons, List.filterMap_nil, List.mem_singleton] at htotal
    exact htotal ▸ plain_number _
  · simp only [stat, holes, List.filterMap_cons, List.filterMap_nil, List.mem_cons,
      List.not_mem_nil, or_false] at hstat
    rcases hstat with rfl | rfl
    · exact plain_number _
    · have hstatus := status_of_mem_counts hentry
      rw [statuses_read] at hstatus
      obtain ⟨m, -, hm⟩ := List.mem_map.mp hstatus
      exact hm ▸ plain_status m.status

/-- The holes of the rows are plain. -/
theorem plain_rows (hfmt : ∀ at_, ∀ c ∈ (fmt at_).toList, c ∉ "&<>\"'".toList) (f : Nat → Texts)
    (ms : List Message) {v : List Char} (hv : v ∈ holes ((read f ms).flatMap (row fmt))) :
    Plain v := by
  obtain ⟨out, hout, hrow⟩ := mem_holes_flatMap.mp hv
  obtain ⟨i, hi, rfl⟩ := List.mem_mapIdx.mp hout
  exact plain_row hfmt _ _ hrow

/-! ## What is around the holes -/

/-- The template of a row depends on the error only by whether there is one. -/
theorem skeleton_row (m : Message) (h : truthy x.error = truthy y.error) :
    skeleton (row fmt (withTexts (.of .loaded m) x)) =
      skeleton (row fmt (withTexts (.of .loaded m) y)) := by
  have hnote : skeleton (errorNote x.error) = skeleton (errorNote y.error) := by
    unfold errorNote
    rw [h]
    split <;> rfl
  simp only [row, skeleton_append, withTexts, hnote]
  rfl

/-- The rows have one template, when the errors agree on which are empty. -/
theorem skeleton_rows (hagree : ∀ i < ms.length, truthy (f i).error = truthy (g i).error) :
    skeleton ((read f ms).flatMap (row fmt)) = skeleton ((read g ms).flatMap (row fmt)) := by
  induction ms generalizing f g with
  | nil => rfl
  | cons m ms ih =>
    have hrest := @ih (fun i => f (i + 1)) (fun i => g (i + 1)) fun i hi =>
      hagree (i + 1) (by simpa using hi)
    simp only [read, List.mapIdx_cons, List.flatMap_cons, skeleton_append] at hrest ⊢
    rw [skeleton_row m (hagree 0 (by simp)), hrest]

/-- One template with plain values in its holes. -/
theorem sameMarkup_of_plain {ps qs : List (Piece Char)} (hsame : skeleton ps = skeleton qs)
    (hps : ∀ v ∈ holes ps, Plain v) (hqs : ∀ v ∈ holes qs, Plain v) : SameMarkup ps qs := by
  have hunmarked : ∀ v, Plain v → ∀ c ∈ v, isMarkup c = false := by
    intro v hv c hc
    by_contra hmarkup
    rw [Bool.not_eq_false, isMarkup, decide_eq_true_eq] at hmarkup
    exact hv.unmarked c hmarkup hc
  refine ⟨hsame, markup_eq hsame (fun v hv => hunmarked v (hps v hv))
    fun v hv => hunmarked v (hqs v hv), fun v hv => ?_⟩
  exact (List.mem_append.mp hv).elim (hps v) (hqs v)

/-! ## The fields that are not escaped -/

section
variable {lib : Lib} {cfg : Settings} {env : Env} {s : Sys} {tr : List Action}

/-- A stored row has one of the statuses of its direction. -/
theorem status_mem_vocabulary (h : RowInv cfg m) :
    m.status.value ∈ vocabulary m.direction.value := by
  cases hdir : m.direction with
  | outbound =>
    cases hs : m.status with
    | received => exact absurd ((h.received hs).symm.trans hdir) (by decide)
    | _ => decide
  | inbound =>
    rcases h.inbound_status hdir with hs | hs <;> rw [hs] <;> decide

/-- The texts of a row are one of the assignments. -/
theorem exists_read (ms : List Message) :
    ∃ f, read f ms = ms.map (MessageOut.of .loaded) := by
  induction ms with
  | nil => exact ⟨fun _ => ⟨"", none, "", none, none⟩, rfl⟩
  | cons m ms ih =>
    obtain ⟨f, hf⟩ := ih
    refine ⟨fun
      | 0 => ⟨m.body, m.error, m.service, m.fromNumber, m.toNumber⟩
      | i + 1 => f i, ?_⟩
    rw [List.map_cons, ← hf]
    exact List.mapIdx_cons

/-- **What the page gets** from `list_messages` are messages that were read from rows. -/
theorem read_of_listMessages {order : ListMessages.RowOrder} {countDb db : Store}
    {service : String} {q : ListMessages.ListQuery} {list : MessageList}
    (h : listMessages order countDb db service q = .ok list) :
    ∃ ms f, (∀ m ∈ ms, m ∈ db.messages) ∧ list.messages = read f ms := by
  obtain ⟨page, hpage, hlist⟩ := messages_of_listMessages h
  obtain ⟨f, hf⟩ := exists_read page
  refine ⟨page, f, fun m hm => ?_, hlist.trans hf.symm⟩
  exact (mem_view.mp (mem_of_ordered (hpage.subset hm))).1

/-- **Message text cannot inject markup.**  Whatever the texts of messages that were read
    from a reachable store are, the page has the markup of its templates around them, and
    the fields that it does not escape have values of the relay's own vocabulary. -/
theorem markup_independent (hfmt : ∀ at_, ∀ c ∈ (fmt at_).toList, c ∉ "&<>\"'".toList)
    (hrun : Run lib cfg (Sys.init env) tr s) (hms : ∀ m ∈ ms, m ∈ s.db.messages) (total : Nat)
    (hagree : ∀ i < ms.length, truthy (f i).error = truthy (g i).error) :
    SameMarkup (render fmt (read f ms) total).stats (render fmt (read g ms) total).stats ∧
    SameMarkup (render fmt (read f ms) total).rows (render fmt (read g ms) total).rows ∧
    (∀ out ∈ read f ms, out.status ∈ vocabulary out.direction ∧
      ∀ c ∈ number out.attempts, c.isDigit = true) ∧ ∀ c ∈ number total, c.isDigit = true := by
  refine ⟨?_, ?_, ?_, fun c hc => isDigit_number hc⟩
  · apply sameMarkup_of_plain
    · exact congrArg skeleton (stats_read f g ms total)
    · exact fun v hv => plain_stats f ms total hv
    · exact fun v hv => plain_stats g ms total hv
  · apply sameMarkup_of_plain
    · exact skeleton_rows hagree
    · exact fun v hv => plain_rows hfmt f ms hv
    · exact fun v hv => plain_rows hfmt g ms hv
  · intro out hout
    obtain ⟨i, hi, rfl⟩ := List.mem_mapIdx.mp hout
    have hrow := ((inv_reachable hrun).row _ (hms _ (List.getElem_mem hi))).1
    exact ⟨status_mem_vocabulary hrow, fun c hc => isDigit_number hc⟩

end

end Page

namespace Sample

/-- A time as the browser writes it. -/
def fmt (_ : DateTime) : String := "Jan 1, 12:00 AM"

/-- The texts of senders who try to run a script. -/
def hostile (_ : Nat) : Page.Texts :=
  ⟨"<script>'x' & \"y\"</script>", some "<img src=\"x\">", "<b>", some "\"><i>", none⟩

/-- Texts that say little. -/
def harmless (_ : Nat) : Page.Texts := ⟨"", some "timed out", "svc", none, none⟩

end Sample

namespace Page

/-- A text was received, and it does not matter what it said. -/
theorem markup_independent_hostile : ∃ t,
    Run Sample.lib Sample.cfg (Sys.init Sample.subscribed)
      (Sample.receive 0 "e1" "m1" "d1" 1) t ∧
    Sample.statuses t = [("m1", .received)] ∧
    SameMarkup (render Sample.fmt (read Sample.hostile t.db.messages) 1).rows
      (render Sample.fmt (read Sample.harmless t.db.messages) 1).rows := by
  obtain ⟨t, hrun, ht⟩ : ∃ t, Run Sample.lib Sample.cfg (Sys.init Sample.subscribed)
      (Sample.receive 0 "e1" "m1" "d1" 1) t ∧ Sample.statuses t = [("m1", .received)] :=
    run_of_exec_map (by decide +kernel)
  have hfmt : ∀ at_, ∀ c ∈ (Sample.fmt at_).toList, c ∉ "&<>\"'".toList := by
    have hall : ("Jan 1, 12:00 AM".toList.all fun c => c ∉ "&<>\"'".toList) = true := by decide
    exact fun _ c hc => of_decide_eq_true (List.all_eq_true.mp hall c hc)
  have hagree : ∀ i < t.db.messages.length,
      truthy (Sample.hostile i).error = truthy (Sample.harmless i).error := fun _ _ => rfl
  exact ⟨t, hrun, ht, (markup_independent hfmt hrun (fun _ h => h) 1 hagree).2.1⟩

end Page

end SmsRelay
