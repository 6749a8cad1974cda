import SmsRelay.Spec.Queries
import SmsRelay.Spec.Retention

/-!
# The instant of an inbound text

`receivedAt` denotes an instant, with or without a UTC offset.  The database column keeps
the year-to-microsecond fields of the `datetime` it is given and forgets the offset, and
everything that leaves the relay is read back from there.

## Key results

- `createdAt_of_receivedAt`: what the column holds
- `Stored.keeps_iff`: which events keep their instant
- `instants_kept_iff`: the same for all events of a run, with the order of the log
-/

namespace SmsRelay

open Transition Inbound ListMessages

/-- The instant a timestamp denotes, without an offset read as UTC. -/
def DateTime.instant (dt : DateTime) : Time := dt.fields - dt.utcoffset.getD 0

@[simp] theorem DateTime.instant_loaded (t : Time) : (DateTime.loaded t).instant = t := by
  simp [DateTime.instant, DateTime.loaded]

/-- The event has a valid timestamp: one that `datetime.fromisoformat` accepts once its `Z` is
    replaced.  Validity and the instant are the parser's, to the microsecond. -/
def ReceivedAt (lib : Lib) (event : List (PyStr × Json PyStr)) (dt : DateTime) : Prop :=
  ∃ s, (extract lib event).receivedAt = .str s ∧ lib.fromisoformat (replaceZ s) = some dt

/-- `m` is the inbound row of an event of the run that has the valid timestamp `dt`. -/
structure Stored (lib : Lib) (tr : List Action) (t : Sys) (m : Message) (dt : DateTime) : Prop where
  row : m ∈ t.db.messages
  inbound : m.direction = .inbound
  event : ∃ event received, Receives tr m.id event received ∧ ReceivedAt lib event dt

/-- The text under `message.received_at` in a webhook body. -/
def receivedAtIn : Json → Option String
  | .obj items =>
    match Json.get items "message" with
    | .obj message =>
      match Json.get message "received_at" with
      | .str s => some s
      | _ => none
    | _ => none
  | _ => none

/-- The webhook body built from the row denotes the instant. -/
def PayloadDenotes (lib : Lib) (m : Message) (instant : Time) : Prop :=
  ∃ s dt, receivedAtIn (Webhooks.payload lib m) = some s ∧ lib.fromisoformat s = some dt ∧
    dt.instant = instant

/-- Whatever the query API returns for the row denotes the instant. -/
def QueriesDenote (db : Store) (m : Message) (instant : Time) : Prop :=
  (∀ service out, getMessage db service m.id = .ok out → out.createdAt.instant = instant) ∧
    ∀ order countDb service q list, listMessages order countDb db service q = .ok list →
      ∀ out ∈ list.messages, out.id = m.id → out.createdAt.instant = instant

/-- The log is in the order of the instants: of two inbound messages on a page, the first
    has the later one. -/
def OrderAgrees (lib : Lib) (tr : List Action) (t : Sys) : Prop :=
  ∀ order countDb service q list, listMessages order countDb t.db service q = .ok list →
    list.messages.Pairwise fun out out' => ∀ m m' dt dt', Stored lib tr t m dt →
      Stored lib tr t m' dt' → out.id = m.id → out'.id = m'.id → dt'.instant ≤ dt.instant

/-- Inbound timestamps keep their instant. -/
structure KeepsInstants (lib : Lib) (tr : List Action) (t : Sys) : Prop where
  payload : ∀ m dt, Stored lib tr t m dt → PayloadDenotes lib m dt.instant
  queries : ∀ m dt, Stored lib tr t m dt → QueriesDenote t.db m dt.instant
  order : OrderAgrees lib tr t

section
variable {lib : Lib} {cfg : Settings} {env : Env} {t : Sys} {tr : List Action} {m : Message}
  {dt : DateTime} {db countDb : Store} {service : String}

/-- The column holds the fields of the timestamp. -/
theorem createdAt_of_receivedAt (hrun : Run lib cfg (Sys.init env) tr t)
    (h : Stored lib tr t m dt) : m.createdAt = dt.fields := by
  obtain ⟨hm, hdir, event, received, hreceives, s, hs, hparsed⟩ := h
  have hcame := (provenance_reachable hrun).stored m hm hdir
  -- a naive timestamp is given the offset zero, and no offset is stored
  rw [hcame.createdAt hrun hreceives, stampOf, hs]
  simp only [parseTimestamp, hparsed]
  split <;> rfl

/-- The webhook body denotes the instant that the column denotes. -/
theorem payloadDenotes_iff {instant : Time}
    (hiso : lib.fromisoformat (lib.isoformat m.createdAt) = some (.loaded m.createdAt)) :
    PayloadDenotes lib m instant ↔ m.createdAt = instant := by
  have hin : receivedAtIn (Webhooks.payload lib m) = some (lib.isoformat m.createdAt) := rfl
  simp [PayloadDenotes, hin, hiso]

/-- So does the query API. -/
theorem queriesDenote_createdAt (hm : m ∈ db.messages) : QueriesDenote db m m.createdAt := by
  constructor
  · intro service out h
    obtain ⟨r, hr, hid, rfl⟩ := getMessage_eq_ok.mp h
    obtain rfl := Store.eq_of_id (mem_view.mp hr).1 hm hid
    exact DateTime.instant_loaded _
  · intro order countDb service q list h out hout hid
    obtain ⟨page, hsub, hpage⟩ := messages_of_listMessages h
    rw [hpage] at hout
    obtain ⟨r, hr, rfl⟩ := List.mem_map.mp hout
    obtain rfl := Store.eq_of_id (mem_view.mp (mem_of_ordered (hsub.mem hr))).1 hm hid
    exact DateTime.instant_loaded _

/-- **An event keeps its instant exactly when its timestamp is in UTC**, given as such or
    without an offset. -/
theorem Stored.keeps_iff (hrun : Run lib cfg (Sys.init env) tr t) (h : Stored lib tr t m dt)
    (hiso : lib.fromisoformat (lib.isoformat m.createdAt) = some (.loaded m.createdAt)) :
    PayloadDenotes lib m dt.instant ∧ QueriesDenote t.db m dt.instant ↔
      dt.utcoffset.getD 0 = 0 := by
  have hcreated := createdAt_of_receivedAt hrun h
  -- what the column shows is off by the offset of the event
  have hzero : m.createdAt = dt.instant ↔ dt.utcoffset.getD 0 = 0 := by
    have hsub : ∀ fields offset : Int, fields = fields - offset ↔ offset = 0 := by omega
    rw [hcreated]
    exact hsub _ _
  rw [payloadDenotes_iff hiso, hzero]
  refine ⟨And.left, fun hoff => ⟨hoff, ?_⟩⟩
  rw [← hzero.mpr hoff]
  exact queriesDenote_createdAt h.row

/-- The log is in the order of the column. -/
theorem pairwise_listMessages {order : RowOrder} {q : ListQuery} {list : MessageList}
    (h : listMessages order countDb db service q = .ok list) :
    list.messages.Pairwise fun out out' => ∀ m ∈ db.messages, ∀ m' ∈ db.messages,
      out.id = m.id → out'.id = m'.id → m'.createdAt ≤ m.createdAt := by
  obtain ⟨page, hsub, hpage⟩ := messages_of_listMessages h
  rw [hpage, List.pairwise_map]
  -- a page is a part of rows that are sorted by the column
  have hsorted := (order.sorted service q.direction q.status
    (db.messages.filter (filters service q))).sublist hsub
  refine hsorted.imp_of_mem fun {r r'} hr hr' hle m hm m' hm' hid hid' => ?_
  obtain rfl := Store.eq_of_id (mem_view.mp (mem_of_ordered (hsub.mem hr))).1 hm hid
  obtain rfl := Store.eq_of_id (mem_view.mp (mem_of_ordered (hsub.mem hr'))).1 hm' hid'
  exact hle

/-- **Inbound timestamps keep their instant**, in webhook bodies, in what the query API
    returns and in the order of the log, exactly when every stored event that has a valid
    timestamp has it without an offset or in UTC. -/
theorem instants_kept_iff (hrun : Run lib cfg (Sys.init env) tr t)
    (hiso : ∀ m ∈ t.db.messages,
      lib.fromisoformat (lib.isoformat m.createdAt) = some (.loaded m.createdAt)) :
    KeepsInstants lib tr t ↔
      ∀ m dt, Stored lib tr t m dt → dt.utcoffset = none ∨ dt.utcoffset = some 0 := by
  have hoffset : ∀ dt : DateTime, dt.utcoffset.getD 0 = 0 ↔
      dt.utcoffset = none ∨ dt.utcoffset = some 0 := fun dt => by
    cases dt.utcoffset <;> simp
  constructor
  · intro h m dt hstored
    rw [← hoffset, ← hstored.keeps_iff hrun (hiso m hstored.row)]
    exact ⟨h.payload m dt hstored, h.queries m dt hstored⟩
  · intro h
    -- each event keeps its instant
    have hkeeps := fun m dt (hstored : Stored lib tr t m dt) =>
      (hstored.keeps_iff hrun (hiso m hstored.row)).mpr ((hoffset dt).mpr (h m dt hstored))
    refine ⟨fun m dt hm => (hkeeps m dt hm).1, fun m dt hm => (hkeeps m dt hm).2, ?_⟩
    intro order countDb service q list hlist
    refine (pairwise_listMessages hlist).imp fun {out out'} hle m m' dt dt' hm hm' hid hid' => ?_
    -- without offsets the column is the instant
    have hinstant : ∀ m dt, Stored lib tr t m dt → dt.instant = m.createdAt := fun m dt hm => by
      rw [createdAt_of_receivedAt hrun hm, DateTime.instant, (hoffset dt).mpr (h m dt hm),
        Int.sub_zero]
    rw [hinstant m dt hm, hinstant m' dt' hm']
    exact hle m hm.row m' hm'.row hid hid'

end

namespace Sample

/-- `fromisoformat` and `isoformat` on two o'clock in the morning of the first day of the
    epoch, with an offset of two hours and without one. -/
def offsetLib : Lib :=
  { lib with
    fromisoformat := fun s =>
      if s = "1970-01-01T02:00:00+02:00" then some ⟨seconds 7200, some (seconds 7200)⟩
      else if s = "1970-01-01T02:00:00" then some ⟨seconds 7200, none⟩
      else none
    isoformat := fun _ => "1970-01-01T02:00:00" }

/-- The creation times of the inbound rows. -/
def inboundTimes (s : Sys) : List (String × Direction × Time) :=
  s.db.messages.map fun m => (m.id, m.direction, m.createdAt)

/-- The run that stores a text with a timestamp, and its one row. -/
theorem run_textAt (receivedAt : String) (stored : Time)
    (h : (exec (step offsetLib cfg) (Sys.init subscribed) (swept receivedAt)).map inboundTimes =
      some [("m1", .inbound, stored)]) :
    ∃ t m, Run offsetLib cfg (Sys.init subscribed) (swept receivedAt) t ∧ t.db.messages = [m] ∧
      m.id = "m1" ∧ m.direction = .inbound ∧ m.createdAt = stored := by
  obtain ⟨t, hrun, ht⟩ := run_of_exec_map h
  obtain ⟨m, hm, hmap⟩ := List.map_eq_singleton_iff.mp ht
  obtain ⟨hid, hrest⟩ := Prod.mk.inj hmap
  obtain ⟨hdir, hcreated⟩ := Prod.mk.inj hrest
  exact ⟨t, m, hrun, hm, hid, hdir, hcreated⟩

/-- The event of the row is the one that the run began with. -/
theorem receives_textAt (receivedAt : String) :
    Receives (swept receivedAt) "m1" (textAt receivedAt) 1 :=
  ⟨[.inbound 0 (.begin (.ok (.obj (textAt receivedAt)))), .inbound 0 .select], 0,
    [.inbound 0 (.enqueue ["d1"] 1), .inbound 0 (.commit 1)], rfl, rfl⟩

end Sample

/-- A timestamp without an offset. -/
theorem instants_kept_iff_naive : ∃ t m dt,
    Run Sample.offsetLib Sample.cfg (Sys.init Sample.subscribed)
      (Sample.swept "1970-01-01T02:00:00") t ∧
    Stored Sample.offsetLib (Sample.swept "1970-01-01T02:00:00") t m dt ∧
    KeepsInstants Sample.offsetLib (Sample.swept "1970-01-01T02:00:00") t := by
  obtain ⟨t, m, hrun, hm, hid, hdir, hcreated⟩ :=
    Sample.run_textAt "1970-01-01T02:00:00" (seconds 7200) (by decide +kernel)
  have hreceives := Sample.receives_textAt "1970-01-01T02:00:00"
  have hiso : ∀ r ∈ t.db.messages, Sample.offsetLib.fromisoformat
      (Sample.offsetLib.isoformat r.createdAt) = some (.loaded r.createdAt) := fun r hr => by
    rw [hm] at hr
    obtain rfl := List.mem_singleton.mp hr
    rw [hcreated]
    decide +kernel
  refine ⟨t, m, ⟨seconds 7200, none⟩, hrun, ⟨by simp [hm], hdir, _, 1, hid ▸ hreceives,
    "1970-01-01T02:00:00", rfl, by decide +kernel⟩, (instants_kept_iff hrun hiso).mpr ?_⟩
  -- the one stored row comes from the one event, which names no offset
  rintro r dt ⟨hr, -, event, received, hreceives', s, hs, hparsed⟩
  rw [hm] at hr
  obtain rfl := List.mem_singleton.mp hr
  obtain ⟨rfl, -⟩ := receives_unique hrun hreceives (hid ▸ hreceives')
  obtain rfl : "1970-01-01T02:00:00" = s := Json.str.inj hs
  obtain rfl := Option.some.inj ((by decide +kernel :
    some ⟨seconds 7200, none⟩ = Sample.offsetLib.fromisoformat
      (replaceZ "1970-01-01T02:00:00")).trans hparsed)
  exact .inl rfl

/-- A timestamp with an offset of two hours comes out two hours late. -/
theorem not_instants_kept_offset : ∃ t,
    Run Sample.offsetLib Sample.cfg (Sys.init Sample.subscribed)
      (Sample.swept "1970-01-01T02:00:00+02:00") t ∧
    ¬ KeepsInstants Sample.offsetLib (Sample.swept "1970-01-01T02:00:00+02:00") t := by
  obtain ⟨t, m, hrun, hm, hid, hdir, hcreated⟩ :=
    Sample.run_textAt "1970-01-01T02:00:00+02:00" (seconds 7200) (by decide +kernel)
  refine ⟨t, hrun, fun hkeeps => ?_⟩
  have hstored : Stored Sample.offsetLib (Sample.swept "1970-01-01T02:00:00+02:00") t m
      ⟨seconds 7200, some (seconds 7200)⟩ :=
    ⟨by simp [hm], hdir, _, 1, hid ▸ Sample.receives_textAt _, "1970-01-01T02:00:00+02:00", rfl,
      by decide +kernel⟩
  have hiso : Sample.offsetLib.fromisoformat (Sample.offsetLib.isoformat m.createdAt) =
      some (.loaded m.createdAt) := by
    rw [hcreated]
    decide +kernel
  -- the payload has the text of `createdAt`, two hours after the instant of the event
  have hdenotes := (payloadDenotes_iff hiso).mp (hkeeps.payload m _ hstored)
  rw [hcreated] at hdenotes
  revert hdenotes
  decide

end SmsRelay
