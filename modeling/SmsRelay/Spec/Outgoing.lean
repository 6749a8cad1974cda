import SmsRelay.ForStd.PrefixCode
import SmsRelay.Spec.Atomicity
import SmsRelay.Spec.Topics

/-!
# What goes out was asked for

A carrier gets a number and a text from the send loop, which has read them from a row.  The
row may have been through restarts and failed attempts, but it says what the call of
`send_message` committed: its service asked for exactly this text, and the number is that of
one of its recipients.  Whether the caller has heard of it is another matter, since the
process may die between the commit and the answer.

## Key results

- `asked_reachable`: every outbound row goes back to a call that has committed it
- `providerRequest_inj`: the provider is told the number and the text unambiguously
- `outgoing_asked`: whatever goes out was asked for
-/

namespace SmsRelay

open Transition SendMessage

/-! ## Requests to a provider -/

/-- The gateway's JSON says to whom which text is to go. -/
theorem AndroidGatewayProvider.payload_inj {number number' text text' : String}
    (h : payload number text = payload number' text') : number = number' ∧ text = text' := by
  simp only [payload, Json.obj.injEq, List.cons.injEq, Prod.mk.injEq, Json.str.injEq,
    Json.arr.injEq] at h
  exact ⟨h.2.1.2.1, h.1.2.1.2⟩

/-- So does the file, up to the first line break. -/
theorem DevProvider.fileText_inj {number number' text text' : String}
    (hnumber : '\n' ∉ number.toList) (hnumber' : '\n' ∉ number'.toList)
    (h : fileText number text = fileText number' text') : number = number' ∧ text = text' := by
  have hlists := congrArg String.toList h
  simp only [fileText, String.toList_append, List.append_assoc] at hlists
  have hrest := List.append_cancel_left hlists
  obtain ⟨hnum, htail⟩ := PrefixCode.IsPrefixCode.eq_of_append_cons hnumber hnumber' hrest
  have htext : text.toList = text'.toList := List.append_cancel_right (List.cons.inj htail).2
  exact ⟨String.toList_inj.mp hnum, String.toList_inj.mp htext⟩

/-- **The provider is told the number and the text unambiguously.** -/
theorem providerRequest_inj {isWord : Char → Bool} {stamp : String} {provider : ProviderName}
    {number number' text text' : String} (hnumber : '\n' ∉ number.toList)
    (hnumber' : '\n' ∉ number'.toList)
    (h : providerRequest isWord stamp provider number text =
      providerRequest isWord stamp provider number' text') :
    number = number' ∧ text = text' := by
  cases provider with
  | androidGateway => exact AndroidGatewayProvider.payload_inj (ProviderRequest.post.inj h)
  | dev => exact DevProvider.fileText_inj hnumber hnumber' (ProviderRequest.file.inj h).2

/-! ## Calls and what they were begun with -/

/-- The request that the label begins call `call` with. -/
def Action.asks (call : Nat) : Action → Option (String × SendRequest)
  | .sendMessage c (.begin service request) => if c = call then some (service, request) else none
  | _ => none

/-- The request that call `call` was begun with last, and the service that sent it. -/
def requestOf (call : Nat) (tr : List Action) : Option (String × SendRequest) :=
  (tr.filterMap (Action.asks call)).getLast?

section
variable {tr : List Action} {call : Nat} {service : String} {request : SendRequest}

theorem requestOf_begin :
    requestOf call (tr ++ [.sendMessage call (.begin service request)]) =
      some (service, request) := by
  simp [requestOf, Action.asks]

/-- Only a call's own begin changes its request. -/
theorem requestOf_append {a : Action} (h : KeepsOn call a) :
    requestOf call (tr ++ [a]) = requestOf call tr := by
  have hasks : a.asks call = none := by
    cases a with
    | sendMessage c b =>
      cases b with
      | begin service request =>
        have hne : c ≠ call := fun heq => h service request (by rw [heq])
        simp [Action.asks, hne]
      | _ => rfl
    | _ => rfl
  simp [requestOf, hasks]

end

section
variable {lib : Lib} {cfg : Settings} {env : Env} {tr : List Action} {s t : Sys} {call : Nat}

/-- **Every call works on the request it was begun with.** -/
theorem awaiting_reachable (hrun : Run lib cfg (Sys.init env) tr t) (call : Nat) :
    t.sendMessages call = .idle ∨ ∃ service request, requestOf call tr = some (service, request) ∧
      Awaiting lib cfg service request (t.sendMessages call) := by
  induction hrun with
  | nil => exact .inl rfl
  | @snoc tr s a t hrun hstep ih =>
    by_cases hbegin : ∃ service request, a = .sendMessage call (.begin service request)
    · obtain ⟨service, request, rfl⟩ := hbegin
      exact .inr ⟨service, request, requestOf_begin, (awaiting_begin hstep).2⟩
    · have hkeeps : KeepsOn call a := fun service request heq => hbegin ⟨service, request, heq⟩
      rw [requestOf_append hkeeps]
      rcases ih with hidle | ⟨service, request, hrequest, hawaits⟩
      · -- a call that is not there stays away
        left
        cases (SmsRelay.trans_of_step hstep).2.sendMessage_step call with
        | other _ hpc => exact hpc.trans hidle
        | crash hpc =>
          rw [hpc, hidle]
          rfl
        | @own b _ _ =>
          have hown := step_of_sys hstep
          rw [hidle] at hown
          cases b with
          | begin service request => exact absurd rfl (hkeeps service request)
          | _ => cases hown
      · refine .inr ⟨service, request, hrequest, ?_⟩
        rcases hawaits.sys_step hkeeps hstep with ⟨-, hnext⟩ | ⟨rows, -, -, hdone⟩
        · exact hnext
        · rw [hdone]
          exact .done

/-! ## Rows and the calls they come from -/

/-- Along the run, call `call` was begun by `service` with `request`, and has committed the
    rows that it answers with. -/
def HasCommitted (lib : Lib) (cfg : Settings) (env : Env) (tr : List Action) (call : Nat)
    (service : String) (request : SendRequest) (rows : List Message) : Prop :=
  ∃ tr₁ tr₂ u, tr = tr₁ ++ .sendMessage call .commit :: tr₂ ∧
    requestOf call tr₁ = some (service, request) ∧
    Run lib cfg (Sys.init env) (tr₁ ++ [.sendMessage call .commit]) u ∧
    u.sendMessages call = .done service request (.accepted rows) ∧
    Covers lib cfg service request rows

theorem HasCommitted.extend {service : String} {request : SendRequest} {rows : List Message}
    (h : HasCommitted lib cfg env tr call service request rows) (tr' : List Action) :
    HasCommitted lib cfg env (tr ++ tr') call service request rows := by
  obtain ⟨tr₁, tr₂, u, rfl, hrest⟩ := h
  exact ⟨tr₁, tr₂ ++ tr', u, by simp, hrest⟩

/-- The message is one of the rows that a call of the run has committed. -/
def Asked (lib : Lib) (cfg : Settings) (env : Env) (tr : List Action) (m : Message) : Prop :=
  ∃ call request rows r, HasCommitted lib cfg env tr call m.service request rows ∧ r ∈ rows ∧
    m.content = r.content

theorem Asked.extend {m : Message} (h : Asked lib cfg env tr m) (tr' : List Action) :
    Asked lib cfg env (tr ++ tr') m := by
  obtain ⟨call, request, rows, r, hcommitted, hr, hcontent⟩ := h
  exact ⟨call, request, rows, r, hcommitted.extend tr', hr, hcontent⟩

/-- Later versions of a row were asked for as well. -/
theorem Asked.of_content {m m' : Message} (h : Asked lib cfg env tr m)
    (hcontent : m'.content = m.content) : Asked lib cfg env tr m' := by
  obtain ⟨call, request, rows, r, hcommitted, hr, hrow⟩ := h
  have hservice : m'.service = m.service := congrArg (·.2.2.2.2.2.1) hcontent
  exact ⟨call, request, rows, r, hservice ▸ hcommitted, hr, hcontent.trans hrow⟩

/-- A covered row is for one of the recipients. -/
private theorem exists_recipient {service : String} {request : SendRequest} {rows : List Message}
    {r : Message} (h : Covers lib cfg service request rows) (hr : r ∈ rows) :
    ∃ raw ∈ recipientsOf request, ∃ number, normalize lib cfg (.str raw) = .ok number ∧
      r.toNumber = some number ∧ r.service = service ∧ r.body = request.body := by
  unfold Covers at h
  generalize recipientsOf request = recipients at h ⊢
  -- on the recipients and their rows
  induction h with
  | nil => cases hr
  | @cons raw r' recipients rows hrow _ ih =>
    rcases List.mem_cons.mp hr with rfl | hr
    · obtain ⟨⟨number, hnumber, hto⟩, -, -, hservice, hbody⟩ := hrow
      exact ⟨raw, List.mem_cons_self, number, hnumber, hto, hservice, hbody⟩
    · obtain ⟨raw, hraw, hrest⟩ := ih hr
      exact ⟨raw, List.mem_cons_of_mem _ hraw, hrest⟩

/-- The rows that a call commits are the ones it answers with. -/
private theorem asked_of_commit (hrun : Run lib cfg (Sys.init env) tr s)
    (hstep : Step lib cfg s (.sendMessage call .commit) t) {m : Message}
    (hm : m ∈ (s.sendMessages call).rows) :
    Asked lib cfg env (tr ++ [.sendMessage call .commit]) m := by
  have hkeeps : KeepsOn call (.sendMessage call .commit) := fun _ _ heq => by cases heq
  rcases awaiting_reachable hrun call with hidle | ⟨service, request, hrequest, hawaits⟩
  · rw [hidle] at hm
    cases hm
  · have hown := step_of_sys hstep
    generalize s.sendMessages call = pc, hpc' : t.sendMessages call = pc' at hm hawaits hown
    cases hawaits with
    | @committing rows hcovers =>
      have hdone : t.sendMessages call = .done service request (.accepted rows) := by
        cases SendMessage.trans_of_step hown with
        | commit _ => exact hpc'
      obtain ⟨raw, -, number, -, -, hservice, -⟩ := exists_recipient hcovers hm
      exact ⟨call, request, rows, m, ⟨tr, [], t, rfl, hservice ▸ hrequest,
        hrun.snoc hstep, hservice ▸ hdone, hservice ▸ hcovers⟩, hm, rfl⟩
    | _ => cases hm

/-- **Every outbound row goes back to a call that has committed it.** -/
theorem asked_reachable (hrun : Run lib cfg (Sys.init env) tr t) {m : Message}
    (hm : m ∈ t.db.messages) (hdir : m.direction = .outbound) : Asked lib cfg env tr m := by
  induction hrun generalizing m with
  | nil => cases hm
  | @snoc tr s a t hrun hstep ih =>
    have hi := inv_reachable hrun
    rcases rows_evolved hi (SmsRelay.trans_of_step hstep).2 hm with
      ⟨r, hr, hevolved, -⟩ | ⟨c, hcommit, hrow⟩
    · have hcontent := hevolved.frame
      have hdir' := (Message.direction_eq_of_content hcontent).symm.trans hdir
      exact ((ih hr hdir').extend [a]).of_content hcontent
    · cases c with
      | inl call =>
        obtain rfl : a = .sendMessage call .commit := by
          cases a with
          | sendMessage c b =>
            cases b with
            | commit => simpa [Action.commits] using hcommit
            | _ => cases hcommit
          | inbound c b => cases b <;> cases hcommit
          | _ => cases hcommit
        exact asked_of_commit hrun hstep hrow
      | inr call =>
        rw [(hi.call_row _ m hrow).1.2.1] at hdir
        cases hdir

/-! ## The carriers -/

/-- The send loop hands the message `id` to a carrier. -/
def Action.handsOver (id : String) (a : Action) : Prop :=
  a = .send (.providerSend id) ∨ a = .send (.publish id)

/-- What the send loop has in hand then. -/
private theorem handsOver_hand {id : String} {a : Action} (hi : Inv cfg s)
    (hands : a.handsOver id) (hstep : Step lib cfg s a t) :
    ∃ m ∈ s.db.messages, m.id = id ∧ m.status = .sending ∧
      (a = .send (.providerSend id) ∧ s.send = .limiting m ∨
        a = .send (.publish id) ∧ s.send = .toPublish m) := by
  obtain ⟨-, htrans⟩ := SmsRelay.trans_of_step hstep
  have hsend := hi.send
  rcases hands with rfl | rfl
  · cases htrans with
    | send h =>
      generalize s.send = pc at h hsend
      cases h with
      | @providerSend m => exact ⟨m, hsend.1, rfl, hsend.2.1, .inl ⟨rfl, rfl⟩⟩
  · obtain ⟨m, hpc, hid, hm, hstatus, -⟩ := publish_hand hi hstep
    exact ⟨m, hm, hid, hstatus, .inr ⟨rfl, hpc⟩⟩

/-- **What goes out was asked for.**  Whenever `provider.send` or `publish` is called in a run,
    for the first time or again after failures and restarts, a call of `send_message` that the
    message's service has made has committed this message.  The text is the one of its
    request, and the number is what one of the recipients of the request normalizes to; so
    this is what the provider is told. -/
theorem outgoing_asked {id : String} {a : Action} (hrun : Run lib cfg (Sys.init env) tr s)
    (hands : a.handsOver id) (hstep : Step lib cfg s a t) :
    ∃ m call request rows raw number, m.id = id ∧
      (a = .send (.providerSend id) ∧ s.send = .limiting m ∨
        a = .send (.publish id) ∧ s.send = .toPublish m) ∧
      HasCommitted lib cfg env tr call m.service request rows ∧ (∃ r ∈ rows, r.id = id) ∧
      raw ∈ recipientsOf request ∧ normalize lib cfg (.str raw) = .ok number ∧
      m.toNumber = some number ∧ m.body = request.body ∧
      ∀ isWord stamp, sendRequest isWord stamp cfg.provider m =
        providerRequest isWord stamp cfg.provider number request.body := by
  have hi := inv_reachable hrun
  obtain ⟨m, hm, rfl, hstatus, hpc⟩ := handsOver_hand hi hands hstep
  have hdir := ((hi.row m hm).1.pending (.inr hstatus)).1
  obtain ⟨call, request, rows, r, hcommitted, hr, hcontent⟩ := asked_reachable hrun hm hdir
  obtain ⟨-, -, -, -, -, -, -, hcovers⟩ := id hcommitted
  obtain ⟨raw, hraw, number, hnumber, hto, -, hbody⟩ := exists_recipient hcovers hr
  -- the row still says what it was created with
  have hrid := Message.id_eq_of_content hcontent
  simp only [Message.content, Prod.mk.injEq] at hcontent
  obtain ⟨-, -, hmto, -, hmbody, -⟩ := hcontent
  have hmto := hmto.trans hto
  have hmbody := hmbody.trans hbody
  refine ⟨m, call, request, rows, raw, number, rfl, hpc, hcommitted, ⟨r, hr, hrid.symm⟩, hraw,
    hnumber, hmto, hmbody, fun isWord stamp => ?_⟩
  rw [sendRequest, hmto, hmbody]
  rfl

end

namespace Sample

/-- The process dies while the gateway is asked, and a later one takes the message again. -/
def takenAgain : List Action :=
  queue "m1" 0 ++ post "m1" 1 ++ [.crash] ++
    [.send (.requeueSelect (seconds 302) (seconds 302)), .send (.commit (seconds 302)),
      .send (.claimSelect (seconds 302) (some "m1")), .send (.commit (seconds 302))]

end Sample

/-- The message is handed over a second time, after the restart. -/
theorem outgoing_asked_again : ∃ s t m call request rows raw number,
    Run Sample.lib Sample.cfg (Sys.init Sample.env) Sample.takenAgain s ∧
    Step Sample.lib Sample.cfg s (.send (.providerSend "m1")) t ∧ s.send = .limiting m ∧
    HasCommitted Sample.lib Sample.cfg Sample.env Sample.takenAgain call m.service request rows ∧
    raw ∈ recipientsOf request ∧ normalize Sample.lib Sample.cfg (.str raw) = .ok number ∧
    m.toNumber = some number ∧ m.body = request.body := by
  obtain ⟨s, t, hs, ht, -⟩ : ∃ s t,
      Run Sample.lib Sample.cfg (Sys.init Sample.env) Sample.takenAgain s ∧
      Run Sample.lib Sample.cfg s [.send (.providerSend "m1")] t ∧
      Sample.statuses s = [("m1", .sending)] ∧ Sample.statuses t = [("m1", .sending)] :=
    run_of_exec_map₂ (by decide +kernel) (by decide +kernel)
  obtain ⟨t', hstep, -⟩ := ht.cons_inv
  obtain ⟨m, call, request, rows, raw, number, -, hpc, hcommitted, -, hraw, hnumber, hto, hbody,
    -⟩ := outgoing_asked hs (.inl rfl) hstep
  rcases hpc with ⟨-, hpc⟩ | ⟨habsurd, -⟩
  · exact ⟨s, t', m, call, request, rows, raw, number, hs, hstep, hpc, hcommitted, hraw, hnumber,
      hto, hbody⟩
  · cases habsurd

end SmsRelay
