import Gateway.Server.Settlement

/-! # The account of the leases in a run of the handler -/

namespace Gateway.Server

open Lib Dispatch Forwarder
open List hiding after

variable {log : List Action}

section

variable {w : World} {req : HttpRequest} {matched : MatchedCapability} {caller : Caller}
  {st : Handler}

def Unleased (log : List Action) : Prop := ∀ a ∈ log, a.isIdle ∧ a.isDispatch = false

theorem unleased_of_opening (h : ∀ a ∈ log, a.isOpening) : Unleased log := by
  intro a ha
  have ho := h a ha
  cases a with
  | mediaOperation | uploadedBlob => exact ⟨rfl, rfl⟩
  | _ => cases ho

theorem Unleased.leases_eq_nil (h : Unleased log) : leases log = [] :=
  leases_append [] fun a ha => (h a ha).2

theorem Unleased.sound (h : Unleased log) (w : World) (capability : Capability) :
    Sound w capability log := by
  have hn := h.leases_eq_nil
  refine ⟨fun earlier a later heq => ?_, ⟨?_, fun a ha hs => ?_⟩, ?_, ?_⟩
  · have ha := h a (by rw [heq]; exact mem_append_right _ mem_cons_self)
    cases a <;> first | trivial | cases ha.1 | cases ha.2
  · rw [hn]; exact forall_mem_nil _
  · rw [(Action.isIdle_spec (h a ha).1).2.1] at hs; cases hs
  · rw [hn]; exact forall_mem_nil _
  · rw [hn]; exact forall_mem_nil _

theorem Unleased.idle (h : Unleased log) (c : Context) : Idle c 0 log := by
  refine ⟨h.sound _ _, ?_, ?_⟩
  · rw [h.leases_eq_nil]; exact forall_mem_nil _
  · rw [h.leases_eq_nil]; rfl

def Enters (w : World) (req : HttpRequest) (matched : MatchedCapability) :
    Except Handler (Context × Handler) → Prop
  | .ok (c, st) => c.world = w ∧ c.req = req ∧ c.matched = matched ∧ Head c st
  | .error st => Unleased st.log

theorem Entered.head {resp : HttpResponse} {c : Context} (h : Entered w req resp matched c st)
    (hid : st.dispatchReq.requestId = c.requestId)
    (he : st.dispatchReq.excludedAccounts = ∅) : Head c st := by
  have hu : Unleased st.log := unleased_of_opening h.opening
  have hs : st.dispatchRetrySequence = 0 := by rw [h.state]
  have hc : st.failover = {} := by rw [h.state]
  refine ⟨?_, ?_, ?_, ?_, by rw [h.state], by rw [h.state], by rw [h.state], by rw [h.state]⟩
  · rw [hs]; exact hu.idle c
  · rw [hs]; exact hid
  · rw [hu.leases_eq_nil, hc]; rfl
  · rw [he, hc]

theorem prepare_enters (resp : HttpResponse) : Enters w req matched
    (prepare w req resp matched) := by
  have hp := prepare_prepared w req resp matched
  cases hpr : prepare w req resp matched with
  | error st => rw [hpr] at hp; exact unleased_of_opening hp.opening
  | ok entered =>
    obtain ⟨c, st⟩ := entered
    rw [hpr] at hp
    obtain ⟨hid, he, -⟩ := prepare_ok hpr
    exact ⟨hp.sameWorld, hp.sameRequest, hp.sameCapability,
      hp.head hid he⟩

end

structure Accounted (w : World) (req : HttpRequest) (matched : MatchedCapability)
    (st : Handler) : Prop where
  sound : Sound w matched.spec.capability st.log
  ids : ∃ requestId n, (leases st.log).map (·.opening.request.requestId) = attemptIds requestId n
  settled : st.exit = .returned → ∀ l ∈ leases st.log,
    convertible w req matched l.opening.result.upstream → isSettled l

theorem handle_accounted (w : World) (req : HttpRequest) (resp : HttpResponse)
    (matched : MatchedCapability) (fuel : Nat) :
    Accounted w req matched (handle w req resp matched fuel) := by
  have he : Enters w req matched (prepare w req resp matched) := prepare_enters resp
  unfold handle
  split
  · next st heq =>
    rw [heq] at he
    have hn : leases st.log = [] := he.leases_eq_nil
    refine ⟨he.sound _ _, ⟨[], 0, ?_⟩, fun _ => ?_⟩
    · rw [hn]; rfl
    · rw [hn]; exact forall_mem_nil _
  · next c st heq =>
    rw [heq] at he
    obtain ⟨rfl, rfl, rfl, hh⟩ := he
    obtain ⟨⟨hs, hi⟩, hse⟩ := serve_final fuel hh
    exact ⟨hs, ⟨_, hi⟩, hse⟩

theorem handle_settles (w : World) (req : HttpRequest) (resp : HttpResponse)
    (matched : MatchedCapability) (fuel : Nat)
    (hreturned : (handle w req resp matched fuel).exit = .returned) :
    ∀ l ∈ leases (handle w req resp matched fuel).log,
      convertible w req matched l.opening.result.upstream → isSettled l :=
  (handle_accounted w req resp matched fuel).settled hreturned

def refusingProvider (rj : RapidJson) (target : UpstreamTarget) : World where
  rj
  xxh64 _ seed := seed
  hashKey key := key
  stamp _ := []
  now _ _ := 0
  randomWords := (0, 0)
  cachedVersion _ := none
  garnet _ := none
  outboxThrows _ := false
  dispatch _ _ := { outcome := .ok, leaseToken := "lease-1", upstream := target }
  mediaOperation _ _ := {}
  uploadBlob _ _ _ := {}
  reportEvidence _ _ _ _ := { accepted := true }
  evaluateContent _ _ _ _ _ := {}
  abort _ _ _ _ _ := { accepted := true }
  reportError _ _ := { accepted := true }
  reportUsage _ _ := { accepted := true }
  -- ECONNREFUSED
  transport _ _ :=
    { call := .error 111
      surroundings := { clock := fun _ => 0, write := fun _ data => data.length } }

def chatCompletions : MatchedCapability where
  spec :=
    { capability := .chatCompletions
      name := "chat_completions"
      endpoint := 1
      inboundFormat := .openAIChatCompletions
      canStream := true
      canFailover := true
      realtime := false }
  operation := "chat_completions"

def chatRequest (content : Bytes) : HttpRequest where
  method := "POST"
  path := "/v1/chat/completions"
  body := "\x7b\"model\":\"m\",\"messages\":[\x7b\"role\":\"user\",\"content\":" ++ content
    ++ "\x7d]\x7d"
  xApiKey := "key"
  contentType := "application/json"
  requestId := "request-1"

def chatJson (content : Json) : Json :=
  .object [("model", .str "m"), ("messages", .array [.object [
    ("role", .str "user"), ("content", content)]])]

def textWorld : World :=
  refusingProvider (.ofTable [((chatRequest "\"hi\"").body, chatJson (.str "hi"))] [])
    { platform := "openai", baseUrl := "provider" }

theorem text_lease_settled :
    (handle textWorld (chatRequest "\"hi\"") {} chatCompletions 1).exit = .returned ∧
    ∃ l ∈ leases (handle textWorld (chatRequest "\"hi\"") {} chatCompletions 1).log,
      convertible textWorld (chatRequest "\"hi\"") chatCompletions l.opening.result.upstream ∧
      isSettled l := by
  have hreturned : (handle textWorld (chatRequest "\"hi\"") {} chatCompletions 1).exit =
      .returned := by decide +kernel
  obtain ⟨l, hl, hconvertible⟩ :
      ∃ l ∈ leases (handle textWorld (chatRequest "\"hi\"") {} chatCompletions 1).log,
        convertible textWorld (chatRequest "\"hi\"") chatCompletions
          l.opening.result.upstream := by decide +kernel
  exact ⟨hreturned, l, hl, hconvertible,
    handle_settles textWorld (chatRequest "\"hi\"") {} chatCompletions 1 hreturned l hl
      hconvertible⟩

def imageWorld : World :=
  refusingProvider (.ofTable [((chatRequest "[\x7b\"type\":\"image_url\"\x7d]").body,
      chatJson (.array [.object [("type", .str "image_url")]]))] [])
    { platform := "anthropic", baseUrl := "provider" }

theorem image_lease_forgotten :
    (handle imageWorld (chatRequest "[\x7b\"type\":\"image_url\"\x7d]") {} chatCompletions 1).exit =
      .returned ∧
    ∃ l ∈ leases (handle imageWorld (chatRequest "[\x7b\"type\":\"image_url\"\x7d]") {}
      chatCompletions 1).log, isSettled l = false := by
  decide +kernel

def RefusalsReported (w : World) (log : List Action) : Prop :=
  ∀ earlier lease r later, log = earlier ++ .forwarded lease r :: later →
    isExplicitProviderRejection r → Refused w earlier lease

theorem Sound.refusalsReported {w : World} {capability : Capability} (h : Sound w capability log) :
    RefusalsReported w log :=
  fun earlier lease r later heq => h.ordered earlier (.forwarded lease r) later heq

variable {before after : List Action}

section

variable {capability : Capability} {actions : List Action}

theorem isForwarding_after_abort (h : EachAfter (Permits capability) actions) {a b : Action}
    (heq : actions = before ++ a :: after) (ha : a.isAbort) (hb : b ∈ after) :
    b.isForwarding = false := by
  obtain ⟨first, last, rfl⟩ := append_of_mem hb
  have hp : Permits capability (before ++ a :: first) b := by
    refine h (before ++ a :: first) b last ?_
    rw [heq, append_assoc, cons_append]
  cases b with
  | forwarding lease target body =>
    have hn : (summary (before ++ a :: first)).aborts = 0 := by rw [hp.2]
    have hc := countP_eq_zero.1 hn a (mem_append_right _ mem_cons_self)
    exact absurd ha hc
  | _ => rfl

theorem exists_forwarded {r : ForwardResult} (h : r ∈ (summary actions).results) :
    ∃ lease, Action.forwarded lease r ∈ actions := by
  obtain ⟨a, ha, hr⟩ := mem_filterMap.1 h
  cases a with
  | forwarded lease r' => cases hr; exact ⟨lease, ha⟩
  | _ => cases hr

theorem noCharge_cases (h : EachAfter (Permits capability) actions) {lease reason : Bytes}
    {status : Int} {ack : RpcAck}
    (heq : actions = before ++ .aborted lease reason .noCharge status ack :: after) :
    (∀ a ∈ actions, a.isForwarding = false) ∨
    (∃ lease' r, .forwarded lease' r ∈ before ∧ isExplicitProviderRejection r) ∨
    capability.isNonBillableControl := by
  have he : ChargeExcluded capability before := h before _ after heq
  rcases he with hn | ⟨r, hr, hre⟩ | hc
  · refine .inl fun a ha => ?_
    rw [heq] at ha
    rcases mem_append.1 ha with hbefore | hres
    · exact Bool.eq_false_iff.2 (countP_eq_zero.1 hn a hbefore)
    · rcases mem_cons.1 hres with rfl | haf
      · rfl
      · exact isForwarding_after_abort h heq rfl haf
  · obtain ⟨lease', hm⟩ := exists_forwarded hr; exact .inr (.inl ⟨lease', r, hm, hre⟩)
  · exact .inr (.inr hc)

theorem Exclusive.isUsage_eq_false (h : Exclusive actions) {a b : Action} (ha : a ∈ actions)
    (hr : a.isRelease) (hb : b ∈ actions) : b.isUsage = false := by
  refine Bool.eq_false_iff.2 fun hu => ?_
  have hbi : (summary actions).billed := any_eq_true.2 ⟨b, hb, hu⟩
  rw [h (any_eq_true.2 ⟨a, ha, hr⟩)] at hbi
  cases hbi

end

theorem handle_noCharge (w : World) (req : HttpRequest) (resp : HttpResponse)
    (matched : MatchedCapability) (fuel : Nat) :
    let log := (handle w req resp matched fuel).log
    Attributed log ∧ RefusalsReported w log ∧ ∀ l ∈ leases log,
      (∀ before lease reason status ack after,
        l.body = before ++ .aborted lease reason .noCharge status ack :: after →
          (∀ a ∈ l.body, a.isForwarding = false) ∨
          (∃ r, .forwarded l.opening.token r ∈ before ∧ isExplicitProviderRejection r) ∨
          matched.spec.capability.isNonBillableControl) ∧
      ∀ a ∈ l.body, a.isRelease → ∀ b ∈ l.body, b.isUsage = false := by
  have hsound := (handle_accounted w req resp matched fuel).sound
  refine ⟨hsound.attributed, hsound.refusalsReported, fun l hl => ⟨?_, ?_⟩⟩
  · intro before lease reason status ack after heq
    rcases noCharge_cases (hsound.permitted l hl) heq with hnone | ⟨lease', r, hr, hrefused⟩ |
      hcontrol
    · exact .inl hnone
    · have hmem : .forwarded lease' r ∈ l.body := by rw [heq]; exact mem_append_left _ hr
      obtain rfl := hsound.attributed.own l hl _ hmem lease' rfl
      exact .inr (.inl ⟨r, hr, hrefused⟩)
    · exact .inr (.inr hcontrol)
  · intro a ha hrelease b hb; exact (hsound.exclusive l hl).isUsage_eq_false ha hrelease hb

theorem attemptId_injective (requestId : Bytes) : Function.Injective (attemptId requestId) := by
  have hl : ∀ n, attemptId requestId (n + 1) ≠ requestId := by
    intro n heq
    have hle := congrArg List.length heq
    have hm : (ascii ":retry:").length = 7 := by decide
    simp only [attemptId, length_append, hm] at hle; omega
  intro m n heq
  cases m with
  | zero =>
    cases n with
    | zero => rfl
    | succ n => exact absurd heq.symm (hl n)
  | succ m =>
    cases n with
    | zero => exact absurd heq (hl m)
    | succ n => exact decimal_injective (append_cancel_left heq)

theorem attemptIds_nodup (requestId : Bytes) (n : Nat) : (attemptIds requestId n).Nodup :=
  (nodup_reverse.2 nodup_range).map (attemptId_injective requestId)

theorem exists_authorization {actions : List Action} (h : isAuthorized actions) :
    ∃ lease detail ack,
      Action.reportedEvidence lease .forwarded detail ack ∈ actions ∧ ack.acknowledged := by
  obtain ⟨a, ha, hau⟩ := any_eq_true.1 h
  cases a with
  | reportedEvidence lease stage detail ack =>
    cases stage with
    | forwarded => exact ⟨lease, detail, ack, ha, hau⟩
    | outputStarted => cases hau
  | _ => cases hau

theorem handle_attempts (w : World) (req : HttpRequest) (resp : HttpResponse)
    (matched : MatchedCapability) (fuel : Nat) :
    let log := (handle w req resp matched fuel).log
    Attributed log ∧ RefusalsReported w log ∧
      (∀ l ∈ leases log, ∀ before lease target body after,
        l.body = before ++ .forwarding lease target body :: after →
          ∃ detail ack, .reportedEvidence l.opening.token .forwarded detail ack ∈ before ∧
            ack.acknowledged) ∧
      (∀ earlier request result later, log = earlier ++ .dispatched request result :: later →
        (∀ l ∈ leases earlier,
          (∃ r, l.body.filterMap Action.forwardResult? = [r] ∧ isExplicitProviderRejection r) ∧
          output l.body = [] ∧ l.body.countP Action.isAbort = 1) ∧
        request.excludedAccounts = (controllerAfter (leases earlier)).failedAccounts) ∧
      ((leases log).map (·.opening.request.requestId)).Nodup := by
  obtain ⟨hsound, ⟨requestId, n, hids⟩, -⟩ := handle_accounted w req resp matched fuel
  refine ⟨hsound.attributed, hsound.refusalsReported, ?_, ?_, ?_⟩
  · intro l hl before lease target body after heq
    have hpermits : isAuthorized before ∧ summary before = {} :=
      hsound.permitted l hl before _ after heq
    obtain ⟨lease', detail, ack, hmem, hack⟩ := exists_authorization hpermits.1
    have hbody : .reportedEvidence lease' .forwarded detail ack ∈ l.body := by
      rw [heq]; exact mem_append_left _ hmem
    obtain rfl := hsound.attributed.own l hl _ hbody lease' rfl
    exact ⟨detail, ack, hmem, hack⟩
  · intro earlier request result later heq
    have horder : (∀ l ∈ leases earlier, Closed l.body) ∧
        request.excludedAccounts = (controllerAfter (leases earlier)).failedAccounts :=
      hsound.ordered earlier _ later heq
    exact ⟨fun l hl => ⟨(horder.1 l hl).rejection, (horder.1 l hl).silent, (horder.1 l hl).aborts⟩,
      horder.2⟩
  · rw [hids]; exact attemptIds_nodup requestId n

end Gateway.Server
