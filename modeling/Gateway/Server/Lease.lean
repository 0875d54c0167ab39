import Gateway.Lib.Trace
import Gateway.Server.Handler

/-! # Leases in a run of the handler -/

namespace Gateway.Server

open Lib Dispatch Forwarder List

structure Grant where
  request : DispatchRequest
  result : DispatchResult

def Grant.token (g : Grant) : Bytes := g.result.leaseToken

abbrev Lease := Segment Grant Action

namespace Action

def grant? : Action → Option Grant
  | .dispatched request result => if result.granted then some ⟨request, result⟩ else none
  | _ => none

def isDispatch : Action → Bool
  | .dispatched _ _ => true
  | _ => false

def lease? : Action → Option Bytes
  | .storedEvidence lease _ _ => some lease
  | .reportedEvidence lease _ _ _ => some lease
  | .acknowledgedEvidence lease _ => some lease
  | .forwarding lease _ _ => some lease
  | .forwarded lease _ => some lease
  | .evaluated lease _ _ => some lease
  | .aborted lease _ _ _ _ => some lease
  | .recordedUsage event => some event.leaseToken
  | .reportedUsage event _ => some event.leaseToken
  | _ => none

def isAuthorization : Action → Bool
  | .reportedEvidence _ .forwarded _ ack => ack.acknowledged
  | _ => false

def isForwarding : Action → Bool
  | .forwarding _ _ _ => true
  | _ => false

def forwardResult? : Action → Option ForwardResult
  | .forwarded _ r => some r
  | _ => none

def isAbort : Action → Bool
  | .aborted _ _ _ _ _ => true
  | _ => false

def isRelease : Action → Bool
  | .aborted _ _ disposition _ ack => disposition == .noCharge && ack.acknowledged
  | _ => false

def isUsage : Action → Bool
  | .recordedUsage _ => true
  | .reportedUsage _ _ => true
  | _ => false

def output : Action → Bytes
  | .piped a => clientBytes [a]
  | _ => []

def isQuiet : Action → Bool
  | .dispatched _ _ => false
  | .forwarding _ _ _ => false
  | .forwarded _ _ => false
  | .aborted _ _ _ _ _ => false
  | .recordedUsage _ => false
  | .reportedUsage _ _ => false
  | _ => true

end Action

def leases (log : List Action) : List Lease := segments Action.grant? log

structure Summary where
  forwardings : Nat := 0
  results : List ForwardResult := []
  aborts : Nat := 0
  released : Bool := false
  billed : Bool := false

def summary (actions : List Action) : Summary where
  forwardings := actions.countP Action.isForwarding
  results := actions.filterMap Action.forwardResult?
  aborts := actions.countP Action.isAbort
  released := actions.any Action.isRelease
  billed := actions.any Action.isUsage

def isAuthorized (actions : List Action) : Bool := actions.any Action.isAuthorization

def output (actions : List Action) : Bytes := actions.flatMap Action.output

structure Closed (actions : List Action) : Prop where
  rejection : ∃ r, (summary actions).results = [r] ∧ isExplicitProviderRejection r
  aborts : (summary actions).aborts = 1
  unbilled : (summary actions).billed = false
  silent : output actions = []

def ChargeExcluded (capability : Capability) (before : List Action) : Prop :=
  (summary before).forwardings = 0 ∨
    (∃ r ∈ (summary before).results, isExplicitProviderRejection r) ∨
    capability.isNonBillableControl

def Permits (capability : Capability) (before : List Action) : Action → Prop
  | .forwarding _ _ _ => isAuthorized before ∧ summary before = {}
  | .aborted _ _ .noCharge _ _ => ChargeExcluded capability before
  | _ => True

def noteFailure (l : Lease) (controller : FailoverController) : FailoverController :=
  match (summary l.body).results with
  | [r] => (controller.handleError l.opening.result.upstream.accountId r.statusCode).2
  | _ => controller

def controllerAfter (ls : List Lease) : FailoverController := ls.foldr noteFailure {}

def Refused (w : World) (before : List Action) (lease : Bytes) : Prop :=
  ∃ earlier target body during call response,
    before = earlier ++ .forwarding lease target body :: during ∧ (∀ a ∈ during, a.isQuiet) ∧
      call.url = upstreamUrl target ∧ call.body = body ∧
      (w.transport earlier call).call = .ok response ∧ 400 ≤ response.statusCode

def InOrder (w : World) (before : List Action) : Action → Prop
  | .dispatched request _ =>
    (∀ l ∈ leases before, Closed l.body) ∧
      request.excludedAccounts = (controllerAfter (leases before)).failedAccounts
  | .forwarded lease r => isExplicitProviderRejection r → Refused w before lease
  | _ => True

structure Attributed (log : List Action) : Prop where
  own : ∀ l ∈ leases log, ∀ a ∈ l.body, ∀ lease, a.lease? = some lease → lease = l.opening.token
  covered : ∀ a ∈ log, a.lease?.isSome → ∃ l ∈ leases log, a ∈ l.body

def Exclusive (actions : List Action) : Prop :=
  (summary actions).released → (summary actions).billed = false

def attemptId (requestId : Bytes) : Nat → Bytes
  | 0 => requestId
  | n + 1 => requestId ++ ":retry:" ++ decimal (n + 1)

def attemptIds (requestId : Bytes) (n : Nat) : List Bytes :=
  (range n).reverse.map (attemptId requestId)

structure Sound (w : World) (capability : Capability) (log : List Action) : Prop where
  ordered : EachAfter (InOrder w) log
  attributed : Attributed log
  permitted : ∀ l ∈ leases log, EachAfter (Permits capability) l.body
  exclusive : ∀ l ∈ leases log, Exclusive l.body

variable {a : Action}

theorem Action.isDispatch_of_isQuiet (h : a.isQuiet) : a.isDispatch = false := by
  cases a <;> first | rfl | cases h

theorem Action.grant?_of_not_isDispatch (h : a.isDispatch = false) : a.grant? = none := by
  cases a <;> first | rfl | cases h

def Summary.note (s : Summary) : Action → Summary
  | .forwarding _ _ _ => { s with forwardings := s.forwardings + 1 }
  | .forwarded _ r => { s with results := s.results ++ [r] }
  | .aborted _ _ disposition _ ack =>
    { s with
      aborts := s.aborts + 1
      released := s.released || (disposition == .noCharge && ack.acknowledged) }
  | .recordedUsage _ => { s with billed := true }
  | .reportedUsage _ _ => { s with billed := true }
  | _ => s

theorem Summary.note_of_isQuiet (s : Summary) (h : a.isQuiet) : s.note a = s := by
  cases a <;> first | rfl | cases h

theorem permits_of_isQuiet (capability : Capability) (before : List Action) (h : a.isQuiet) :
    Permits capability before a := by
  cases a <;> trivial

theorem inOrder_of_isQuiet (w : World) (before : List Action) (h : a.isQuiet) :
    InOrder w before a := by
  cases a <;> trivial

@[simp] theorem summary_snoc (actions : List Action) (a : Action) :
    summary (actions ++ [a]) = (summary actions).note a := by
  cases a <;> simp [summary, Summary.note, Action.isForwarding, Action.forwardResult?,
    Action.isAbort, Action.isRelease, Action.isUsage]

variable {more : List Action}

theorem summary_append_of_quiet (actions : List Action) (h : ∀ a ∈ more, a.isQuiet) :
    summary (actions ++ more) = summary actions := by
  induction more generalizing actions with
  | nil => rw [append_nil]
  | cons a more ih =>
    have ha : summary (actions ++ [a]) = summary actions := by
      rw [summary_snoc, Summary.note_of_isQuiet _ (h a mem_cons_self)]
    rw [append_cons, ih _ fun b hb => h b (mem_cons_of_mem a hb), ha]

@[simp] theorem output_append (actions more : List Action) :
    output (actions ++ more) = output actions ++ output more := by
  simp only [output, flatMap_append]

@[simp] theorem isAuthorized_append (actions more : List Action) :
    isAuthorized (actions ++ more) = (isAuthorized actions || isAuthorized more) := by
  simp only [isAuthorized, any_append]

structure Holding (c : Context) (n : Nat) (log : List Action) (grant : DispatchResult)
    (actions : List Action) : Prop where
  sound : Sound c.world c.matched.spec.capability log
  newest : ∃ request older, leases log = ⟨⟨request, grant⟩, actions⟩ :: older ∧
    ∀ l ∈ older, Closed l.body
  ids : (leases log).map (·.opening.request.requestId) = attemptIds c.requestId (n + 1)

section

variable {c : Context} {n : Nat} {log : List Action} {grant : DispatchResult}
  {actions : List Action}

theorem leases_snoc (ha : a.isDispatch = false) {l : Lease} {older : List Lease}
    (h : leases log = l :: older) : leases (log ++ [a]) = l.add a :: older :=
  segments_cons (Action.grant?_of_not_isDispatch ha) h

section

variable (h : Holding c n log grant actions)

include h

theorem Holding.emit (ha : a.isDispatch = false)
    (ho : ∀ lease, a.lease? = some lease → lease = grant.leaseToken) (hor : InOrder c.world log a)
    (hp : Permits c.matched.spec.capability actions a) (he : Exclusive (actions ++ [a])) :
    Holding c n (log ++ [a]) grant (actions ++ [a]) := by
  obtain ⟨request, older, hle, hol⟩ := h.newest
  have hn : leases (log ++ [a]) = ⟨⟨request, grant⟩, actions ++ [a]⟩ :: older := leases_snoc ha hle
  have hi := h.ids
  have hm : ∀ l ∈ older, l ∈ leases log := by
    intro l hl
    rw [hle]; exact mem_cons_of_mem _ hl
  have hh : ⟨⟨request, grant⟩, actions⟩ ∈ leases log := by rw [hle]; exact mem_cons_self
  refine ⟨⟨?_, ⟨?_, ?_⟩, ?_, ?_⟩, ⟨request, older, hn, hol⟩, ?_⟩
  · exact eachAfter_snoc.2 ⟨h.sound.ordered, hor⟩
  · rw [hn, forall_mem_cons]
    refine ⟨fun b hb => ?_, fun l hl => h.sound.attributed.own l (hm l hl)⟩
    rcases mem_append.1 hb with hold | hla
    · exact h.sound.attributed.own _ hh b hold
    · rw [mem_singleton.1 hla]; exact ho
  · intro b hb hs
    rw [hn]
    rcases mem_append.1 hb with hold | hla
    · obtain ⟨l, hl, hlease⟩ := h.sound.attributed.covered b hold hs
      rw [hle] at hl
      rcases mem_cons.1 hl with rfl | hl
      · exact ⟨_, mem_cons_self, mem_append_left _ hlease⟩
      · exact ⟨l, mem_cons_of_mem _ hl, hlease⟩
    · exact ⟨_, mem_cons_self, mem_append_right _ hla⟩
  · rw [hn, forall_mem_cons]
    exact ⟨eachAfter_snoc.2 ⟨h.sound.permitted _ hh, hp⟩,
      fun l hl => h.sound.permitted l (hm l hl)⟩
  · rw [hn, forall_mem_cons]; exact ⟨he, fun l hl => h.sound.exclusive l (hm l hl)⟩
  · rw [hle] at hi; rw [hn]; exact hi

theorem Holding.exclusive : Exclusive actions := by
  obtain ⟨request, older, hl, -⟩ := h.newest
  refine h.sound.exclusive ⟨⟨request, grant⟩, actions⟩ ?_
  rw [hl]
  exact mem_cons_self

theorem Holding.emitQuiet (ha : a.isQuiet)
    (ho : ∀ lease, a.lease? = some lease → lease = grant.leaseToken) :
    Holding c n (log ++ [a]) grant (actions ++ [a]) := by
  refine h.emit (Action.isDispatch_of_isQuiet ha) ho (inOrder_of_isQuiet _ _ ha)
    (permits_of_isQuiet _ _ ha) ?_
  unfold Exclusive
  rw [summary_snoc, Summary.note_of_isQuiet _ ha]
  exact h.exclusive

end

def Quietly (lease : Bytes) (more : List Action) : Prop :=
  ∀ a ∈ more, a.isQuiet ∧ ∀ token, a.lease? = some token → token = lease

theorem leases_append (log : List Action) (h : ∀ a ∈ more, a.isDispatch = false) :
    leases (log ++ more) = addAll more (leases log) :=
  segments_append fun a ha => Action.grant?_of_not_isDispatch (h a ha)

theorem tail_leases_append (h : ∀ a ∈ more, a.isDispatch = false) :
    (leases (log ++ more)).tail = (leases log).tail :=
  tail_segments_append fun a ha => Action.grant?_of_not_isDispatch (h a ha)

theorem tail_leases_snoc (ha : a.isDispatch = false) :
    (leases (log ++ [a])).tail = (leases log).tail :=
  tail_leases_append fun _ hb => mem_singleton.1 hb ▸ ha

theorem Holding.controller_eq (h : Holding c n log grant actions) {r : ForwardResult}
    (hr : (summary actions).results = [r]) :
    controllerAfter (leases log) = ((controllerAfter (leases log).tail).handleError
      grant.upstream.accountId r.statusCode).2 := by
  obtain ⟨request, older, hl, -⟩ := h.newest
  simp only [hl, tail_cons, controllerAfter, foldr_cons, noteFailure, hr]

theorem Holding.append (h : Holding c n log grant actions) (hm : Quietly grant.leaseToken more) :
    Holding c n (log ++ more) grant (actions ++ more) := by
  induction more generalizing log actions with
  | nil => simpa only [append_nil] using h
  | cons a more ih =>
    obtain ⟨hq, ho⟩ := hm a mem_cons_self
    rw [append_cons, append_cons actions]
    exact ih (h.emitQuiet hq ho) fun b hb => hm b (mem_cons_of_mem a hb)

end

structure Idle (c : Context) (n : Nat) (log : List Action) : Prop where
  sound : Sound c.world c.matched.spec.capability log
  closed : ∀ l ∈ leases log, Closed l.body
  ids : (leases log).map (·.opening.request.requestId) = attemptIds c.requestId n

section

variable {c : Context} {n : Nat} {log : List Action}

theorem Holding.close {grant : DispatchResult} {actions : List Action}
    (h : Holding c n log grant actions) (hc : Closed actions) : Idle c (n + 1) log := by
  obtain ⟨request, older, hl, ho⟩ := h.newest
  refine ⟨h.sound, ?_, h.ids⟩
  rw [hl, forall_mem_cons]
  exact ⟨hc, ho⟩

def Action.isIdle : Action → Bool
  | .dispatched _ result => !result.granted
  | .mediaOperation _ _ => true
  | .uploadedBlob _ _ _ => true
  | .slept _ => true
  | _ => false

theorem Action.isIdle_spec (h : a.isIdle) :
    a.grant? = none ∧ a.lease? = none ∧ a.output = [] ∧ (∀ s : Summary, s.note a = s) ∧
      ∀ capability before, Permits capability before a := by
  cases a with
  | dispatched request result =>
    have hn : result.granted = false := by simpa [Action.isIdle] using h
    simp [grant?, hn, lease?, Action.output, Summary.note, Permits]
  | mediaOperation | uploadedBlob | slept =>
    simp [grant?, lease?, Action.output, Summary.note, Permits]
  | _ => cases h

theorem Closed.idle {actions : List Action} (h : Closed actions) (ha : a.isIdle) :
    Closed (actions ++ [a]) := by
  obtain ⟨-, -, ho, hn, -⟩ := Action.isIdle_spec ha
  have hs : summary (actions ++ [a]) = summary actions := by rw [summary_snoc, hn]
  refine ⟨hs ▸ h.rejection, hs ▸ h.aborts, hs ▸ h.unbilled, ?_⟩
  rw [output_append, h.silent]
  simpa [output] using ho

theorem leases_snoc_cases (hg : a.grant? = none) : (leases log = [] ∧ leases (log ++ [a]) = []) ∨
    ∃ l older, leases log = l :: older ∧ leases (log ++ [a]) = l.add a :: older := by
  cases hl : leases log with
  | nil => exact .inl ⟨rfl, segments_nil hg hl⟩
  | cons l older => exact .inr ⟨l, older, rfl, segments_cons hg hl⟩

theorem leases_snoc_idle (ha : a.isIdle) {P : Lease → Prop}
    (h : ∀ l ∈ leases log, P l ∧ P (l.add a)) : ∀ l ∈ leases (log ++ [a]), P l := by
  rcases leases_snoc_cases (Action.isIdle_spec ha).1 with ⟨-, hn⟩ | ⟨l, older, hold, hn⟩
  · rw [hn]; exact forall_mem_nil _
  · rw [hold, forall_mem_cons] at h
    rw [hn, forall_mem_cons]
    exact ⟨h.1.2, fun l' hl' => (h.2 l' hl').1⟩

theorem ids_snoc_idle (ha : a.isIdle) : (leases (log ++ [a])).map (·.opening.request.requestId) =
      (leases log).map (·.opening.request.requestId) := by
  rcases leases_snoc_cases (Action.isIdle_spec ha).1 with ⟨hold, hn⟩ | ⟨l, older, hold, hn⟩
  · rw [hn, hold]
  · rw [hn, hold]; rfl

theorem controllerAfter_snoc_idle (ha : a.isIdle) :
    controllerAfter (leases (log ++ [a])) = controllerAfter (leases log) := by
  obtain ⟨hg, -, -, hno, -⟩ := Action.isIdle_spec ha
  rcases leases_snoc_cases hg with ⟨hold, hn⟩ | ⟨l, older, hold, hn⟩
  · rw [hn, hold]
  · have hs : summary (l.add a).body = summary l.body := (summary_snoc _ _).trans (hno _)
    simp only [hn, hold, controllerAfter, foldr_cons, noteFailure, hs]; rfl

theorem mem_leases_snoc {b : Action} (hg : a.grant? = none) (h : ∃ l ∈ leases log, b ∈ l.body) :
    ∃ l ∈ leases (log ++ [a]), b ∈ l.body := by
  obtain ⟨l, hl, hb⟩ := h
  rcases leases_snoc_cases hg with ⟨hold, -⟩ | ⟨l', older, hold, hn⟩
  · rw [hold] at hl; cases hl
  · rw [hold] at hl
    rw [hn]
    rcases mem_cons.1 hl with rfl | hl
    · exact ⟨_, mem_cons_self, mem_append_left _ hb⟩
    · exact ⟨l, mem_cons_of_mem _ hl, hb⟩

theorem Idle.emit (h : Idle c n log) (ha : a.isIdle) (ho : InOrder c.world log a) :
    Idle c n (log ++ [a]) := by
  obtain ⟨hg, hle, -, hn, hp⟩ := Action.isIdle_spec ha
  refine ⟨⟨eachAfter_snoc.2 ⟨h.sound.ordered, ho⟩, ⟨?_, ?_⟩, ?_, ?_⟩, ?_, ?_⟩
  · refine leases_snoc_idle ha fun l hl => ⟨h.sound.attributed.own l hl, fun b hb => ?_⟩
    rcases mem_append.1 hb with hold | hla
    · exact h.sound.attributed.own l hl b hold
    · rw [mem_singleton.1 hla, hle]; intro lease hs; cases hs
  · intro b hb hs
    rcases mem_append.1 hb with hold | hla
    · exact mem_leases_snoc hg (h.sound.attributed.covered b hold hs)
    · rw [mem_singleton.1 hla, hle] at hs; cases hs
  · exact leases_snoc_idle ha fun l hl => ⟨h.sound.permitted l hl,
      eachAfter_snoc.2 ⟨h.sound.permitted l hl, hp _ _⟩⟩
  · refine leases_snoc_idle ha fun l hl => ⟨h.sound.exclusive l hl, ?_⟩
    unfold Exclusive
    rw [Segment.add, summary_snoc, hn]; exact h.sound.exclusive l hl
  · exact leases_snoc_idle ha fun l hl => ⟨h.closed l hl, (h.closed l hl).idle ha⟩
  · rw [ids_snoc_idle ha, h.ids]

theorem attemptIds_succ (requestId : Bytes) (n : Nat) :
    attemptIds requestId (n + 1) = attemptId requestId n :: attemptIds requestId n := by
  simp only [attemptIds, range_succ, reverse_append, reverse_singleton, singleton_append, map_cons]

theorem Idle.grant (h : Idle c n log) {request : DispatchRequest} {result : DispatchResult}
    (hg : result.granted) (hid : request.requestId = attemptId c.requestId n)
    (ho : InOrder c.world log (.dispatched request result)) :
    Holding c n (log ++ [.dispatched request result]) result [] := by
  have hn : leases (log ++ [.dispatched request result]) = ⟨⟨request, result⟩, []⟩ :: leases log :=
    segments_open (if_pos hg)
  refine ⟨⟨eachAfter_snoc.2 ⟨h.sound.ordered, ho⟩, ⟨?_, ?_⟩, ?_, ?_⟩,
    ⟨request, leases log, hn, h.closed⟩, ?_⟩
  · rw [hn, forall_mem_cons]; exact ⟨fun b hb => (by cases hb), h.sound.attributed.own⟩
  · intro b hb hs
    rcases mem_append.1 hb with hold | hla
    · obtain ⟨l, hl, hlease⟩ := h.sound.attributed.covered b hold hs
      rw [hn]
      exact ⟨l, mem_cons_of_mem _ hl, hlease⟩
    · rw [mem_singleton.1 hla] at hs; cases hs
  · rw [hn, forall_mem_cons]; exact ⟨eachAfter_nil, h.sound.permitted⟩
  · rw [hn, forall_mem_cons]; exact ⟨fun hr => (by cases hr), h.sound.exclusive⟩
  · rw [hn, map_cons, attemptIds_succ, h.ids]; exact congrArg (· :: _) hid

end

end Gateway.Server
