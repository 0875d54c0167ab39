import Gateway.Server.Screening

/-! # What is accounted for a media request -/

namespace Gateway.Server

open Lib Dispatch Forwarder Json Context Handler Protocol
open List hiding lookup
open Usage (UsageEvent)
open Protocol.Converter (parseObject arrayOf parseMediaRequest parseMediaResponse)

def Action.mediaUpdate? : Action → Option MediaOperationRequest
  | .mediaOperation request _ =>
    if request.action = "attach" ∨ request.action = "fail" then some request else none
  | _ => none

def Action.usage? : Action → Option UsageEvent
  | .recordedUsage event => some event
  | .reportedUsage event _ => some event
  | _ => none

def mediaUpdates (log : List Action) : List MediaOperationRequest :=
  log.filterMap Action.mediaUpdate?

def usages (log : List Action) : List UsageEvent := log.filterMap Action.usage?

theorem mediaUpdates_snoc (log : List Action) (a : Action) :
    mediaUpdates (log ++ [a]) = mediaUpdates log ++ a.mediaUpdate?.toList := by
  simp [mediaUpdates, filterMap_append, filterMap_cons]
  cases a.mediaUpdate? <;> rfl

theorem usages_snoc (log : List Action) (a : Action) :
    usages (log ++ [a]) = usages log ++ a.usage?.toList := by
  simp [usages, filterMap_append, filterMap_cons]
  cases a.usage? <;> rfl

variable {log : List Action}

theorem unaccounted (h : ∀ a ∈ log, a.isAside ∨ a.forwardResult?.isSome) :
    mediaUpdates log = [] ∧ usages log = [] := by
  refine ⟨filterMap_eq_nil_iff.2 fun a ha => ?_, filterMap_eq_nil_iff.2 fun a ha => ?_⟩
  · cases a with
    | mediaOperation request result =>
      have has := (h _ ha).resolve_right (by simp [Action.forwardResult?])
      simp only [Action.isAside, decide_eq_true_eq] at has
      simp [Action.mediaUpdate?, has.1, has.2]
    | _ => rfl
  · cases a with
    | recordedUsage event => exact absurd (h _ ha) (by simp [Action.isAside, Action.forwardResult?])
    | reportedUsage event ack =>
      exact absurd (h _ ha) (by simp [Action.isAside, Action.forwardResult?])
    | _ => rfl

def Capability.isMedia : Capability → Bool
  | .imagesSync | .imagesAsync | .imagesBatch | .videos => true
  | _ => false

def errorDocument (type message : Bytes) : Json :=
  .object [("error", .object [("type", .string type), ("message", .string message)])]

def standIn (r : ForwardResult) : Json :=
  if r.malformedUsage then errorDocument "provider_error" "Provider returned malformed usage"
  else errorDocument "content_policy_unavailable"
    "Media content policy classifier not yet implemented for this capability"

def standInStatus (r : ForwardResult) : Bytes := if r.malformedUsage then "failed" else "running"

structure Overridden (c : Context) (r : ForwardResult) (st : Handler) : Prop where
  body : st.resp.body = written c.world.rj (standIn r)
  terminal : st.terminalAbort = r.malformedUsage
  status : (st.terminalAbort || decide (st.forwardResult.statusCode ≥ 400)) = r.malformedUsage
  updates : mediaUpdates st.log = []
  usages : usages st.log = []
  undeferred : st.deferMediaUsage = false

variable {st' : Handler} {initial : Bytes}

section

variable {c : Context} {st : Handler} {r : ForwardResult}

theorem checkBody_of_not_applies (validation : Converter.ValidationResult)
    (reason : Bytes) (st : Handler) : c.checkBody false validation reason st = st := by
  unfold checkBody
  rw [Bool.and_false]
  rfl

theorem takeBody_media (hmedia : c.matched.spec.capability.isMedia) (hst : c.isStream = false)
    (hbo : st.forwardResult.body ≠ []) (h : c.takeBody st = .ok st') :
    c.convertErrorBody { st with resp.body := st.forwardResult.body, forwardResult.body := [] } =
      .ok st' := by
  have hp : c.matched.spec.capability.isChat = false ∧
      c.matched.spec.capability ≠ .embeddings ∧ c.matched.spec.capability ≠ .models ∧
      c.matched.spec.capability ≠ .geminiModels ∧ c.matched.spec.capability ≠ .countTokens ∧
      c.matched.spec.capability ≠ .responses := by
    cases hcapability : c.matched.spec.capability <;>
      simp_all [Capability.isMedia, Capability.isChat]
  obtain ⟨hc, he, hm, hg, hco, hr⟩ := hp
  unfold takeBody at h
  rw [if_pos (by simp [hst, hbo])] at h
  obtain ⟨st₁, hf, h⟩ := bind_eq_ok h
  obtain ⟨st₂, hs, h⟩ := bind_eq_ok h
  have hk : c.convertSuccessBody st₁ = .ok st₁ := by
    unfold convertSuccessBody
    rw [if_neg (by simp [hc])]
  rw [hk] at hs
  cases hs
  simp only [checkEmbeddings, checkCatalogue, checkResponses, he, hm, hg, hco, hr, decide_false,
    Bool.or_false, Bool.and_false, checkBody_of_not_applies] at h
  rw [hf]
  exact h

theorem decideResponse_media (hm : c.matched.spec.capability.isMedia)
    (st : Handler) : c.decideResponse st = c.overrideResponse 400 "content_policy_unavailable"
      "Media content policy classifier not yet implemented for this capability" st := by
  unfold decideResponse
  cases hc : c.matched.spec.capability with
  | imagesSync | imagesAsync | imagesBatch | videos => rfl
  | _ => simp [hc, Capability.isMedia] at hm

theorem media_overridden (hmedia : c.matched.spec.capability.isMedia) (hst : c.isStream = false)
    (h : Answered initial st) (hl : lastForward st.log = some r)
    (hs : isSuccess r.statusCode) (hbo : r.body ≠ []) (heq : c.takeBody st = .ok st') :
    Overridden c r (c.showMalformed (c.applyContentPolicy st')) ∧
      (c.showMalformed (c.applyContentPolicy st')).dispatchResult = st.dispatchResult := by
  obtain ⟨hr, ht⟩ := h.result r hl hs
  obtain ⟨hu, hus⟩ := unaccounted h.unsettled
  have hsa : st.forwardResult.body = r.body := by
    rw [hr, ForwardResult.kept]
    split <;> rfl
  have hta := takeBody_media hmedia hst (hsa ▸ hbo) heq
  have hc : c.matched.spec.capability.isChat = false := by
    cases hcapability : c.matched.spec.capability <;>
      simp_all [Capability.isMedia, Capability.isChat]
  by_cases hm : r.malformedUsage
  · obtain ⟨body, contentType, rfl⟩ := convertErrorBody_ok hta
    rw [ForwardResult.kept, if_pos hm] at hr
    have hfl : st.forwardResult.malformedUsage := by rw [hr]; exact hm
    unfold applyContentPolicy
    rw [if_neg (by simp [hfl])]
    unfold showMalformed
    rw [if_pos hfl]
    refine ⟨⟨?_, ht, ?_, hu, hus, h.undeferred⟩, rfl⟩
    · simp only [standIn, hm, if_true]; rfl
    · simp [ht, hm]
  · rw [ForwardResult.kept, if_neg hm] at hr
    have hf := Bool.eq_false_iff.2 hm
    rw [convertErrorBody_of_success (by simpa [hr] using hs)] at hta
    cases hta
    unfold applyContentPolicy
    rw [if_pos (by simp [hst, ht, hr, hf, hs, hbo]),
      if_neg (by simp [hc]), decideResponse_media hmedia]
    unfold showMalformed
    rw [if_neg (by simp [overrideResponse, addHeader, hr, hf])]
    refine ⟨⟨?_, ht, ?_, hu, hus, h.undeferred⟩, rfl⟩
    · simp only [standIn, hf, Bool.false_eq_true, if_false]; rfl
    · have hlo : ¬ r.statusCode ≥ 400 := by
        simp only [isSuccess, Bool.and_eq_true, decide_eq_true_eq] at hs; omega
      simp [overrideResponse, addHeader, ht, hf, hr, hlo]

theorem lookup_errorDocument {type message key : Bytes} (h : key ≠ "error") :
    (errorDocument type message).lookup key = none := by
  have hk : (key == ascii "error") = false := beq_eq_false_iff_ne.2 h
  simp [errorDocument, lookup, members, List.lookup_cons, hk]

theorem standIn_eq (r : ForwardResult) : ∃ type message, standIn r = errorDocument type
    message := by
  unfold standIn
  split <;> exact ⟨_, _, rfl⟩

section

variable {rj : RapidJson} {body type message : Bytes}
  (hread : parseObject rj body = some (errorDocument type message))

include hread

theorem providerTaskId_errorDocument : providerTaskId rj body = [] := by
  have hn : ∀ key ∈ [ascii "task_id", "request_id", "id"],
      stringField (errorDocument type message) key = none := by
    intro key hk
    rw [stringField, lookup_errorDocument (by rintro rfl; revert hk; decide)]; rfl
  unfold providerTaskId
  simp only [hread, findSome?_eq_none_iff.2 hn]
  rfl

theorem providerMediaStatus_errorDocument : providerMediaStatus rj body [] = "running" := by
  unfold providerMediaStatus stringField
  simp only [hread]
  rw [lookup_errorDocument (by decide), lookup_errorDocument (by decide),
    lookup_errorDocument (by decide)]
  rfl

theorem providerOutputUrl_errorDocument : providerOutputUrl rj body = [] := by
  have hn : ∀ key ∈ [ascii "output_url", "url"],
      stringField (errorDocument type message) key = none := by
    intro key hk
    rw [stringField, lookup_errorDocument (by rintro rfl; revert hk; decide)]; rfl
  unfold providerOutputUrl arrayOf
  simp only [hread, findSome?_eq_none_iff.2 hn]
  rw [lookup_errorDocument (by decide)]
  rfl

theorem outputImageCount_errorDocument (operation : Bytes) :
    (parseMediaResponse rj body operation).outputImageCount = 0 := by
  have hi : Converter.outputImages (errorDocument type message) = 0 := by
    unfold Converter.outputImages Converter.positiveInteger arrayOf
    rw [lookup_errorDocument (by decide)]
    simp only [Option.bind_none, findSome?_cons, findSome?_nil]
    rw [lookup_errorDocument (by decide), lookup_errorDocument (by decide)]; rfl
  unfold parseMediaResponse
  simp only [hread]
  split <;> split <;> simp [hi]

end

def ReadsBack (rj : RapidJson) (r : ForwardResult) : Prop :=
  parseObject rj (written rj (standIn r)) = some (standIn r)

def persists (matched : MatchedCapability) (grant : DispatchResult) : Bool :=
  persistentCreate matched.operation && !grant.upstream.mediaOperationId.isEmpty

structure ToldNothing (r : ForwardResult) (request : MediaOperationRequest) : Prop where
  task : request.upstreamTaskId = []
  status : request.status = standInStatus r
  output : request.outputUrl = []

theorem mediaUpdate_toldNothing (h : Overridden c r st) (hread : ReadsBack c.world.rj r) :
    ToldNothing r (c.mediaUpdate st) := by
  obtain ⟨type, message, heq⟩ := standIn_eq r
  unfold ReadsBack at hread
  rw [heq, ← heq, ← h.body] at hread
  rw [heq] at hread
  have ht := providerTaskId_errorDocument hread
  refine ⟨ht, ?_, providerOutputUrl_errorDocument hread⟩
  change c.mediaStatus st = standInStatus r
  unfold mediaStatus standInStatus
  rw [h.status, ht, providerMediaStatus_errorDocument hread]

theorem mediaUpdate_action (st : Handler) (result : MediaOperationResult) :
    (Action.mediaOperation (c.mediaUpdate st) result).mediaUpdate? = some (c.mediaUpdate st) := by
  have ha : (c.mediaUpdate st).action = "attach" ∨ (c.mediaUpdate st).action = "fail" := by
    change (if c.mediaStatus st = "failed" then (ascii "fail") else "attach") = _ ∨
      (if c.mediaStatus st = "failed" then (ascii "fail") else "attach") = _
    split
    · exact .inr rfl
    · exact .inl rfl
  exact if_pos ha

theorem mediaStored_log (running : Bool) (operation : MediaOperationResult) (st : Handler) :
    (c.mediaStored running operation st).log = st.log := by
  cases running <;> rfl

theorem persistMedia_stored (h : Overridden c r st) (hread : ReadsBack c.world.rj r)
    (hp : persists c.matched st.dispatchResult) :
    (∃ request, mediaUpdates (c.persistMedia st).log = [request] ∧ ToldNothing r request) ∧
      usages (c.persistMedia st).log = [] ∧
      ((c.persistMedia st).terminalAbort ∨ (c.persistMedia st).deferMediaUsage) := by
  set st₁ : Handler := { st with mediaResponseOverridden := true }
  have h₁ : Overridden c r st₁ := { h with }
  have ht := mediaUpdate_toldNothing h₁ hread
  set result := c.world.mediaOperation st₁.log (c.mediaUpdate st₁)
  have hl : mediaUpdates (st₁.log ++ [.mediaOperation (c.mediaUpdate st₁) result]) =
      [c.mediaUpdate st₁] := by
    rw [mediaUpdates_snoc, h₁.updates, mediaUpdate_action]; rfl
  have hu : usages (st₁.log ++ [.mediaOperation (c.mediaUpdate st₁) result]) = [] := by
    rw [usages_snoc, h₁.usages]; rfl
  unfold persistMedia callMedia
  unfold persists at hp
  rw [if_pos hp]
  dsimp only
  split
  · rw [mediaStored_log]
    refine ⟨⟨_, hl, ht⟩, hu, ?_⟩
    rw [ht.status]
    unfold standInStatus
    by_cases hm : r.malformedUsage
    · left
      rw [if_pos hm]; exact h.terminal.trans hm
    · right
      rw [if_neg hm]; rfl
  · refine ⟨⟨c.mediaUpdate st₁, ?_, ht⟩, ?_, .inl rfl⟩
    · exact (mediaUpdates_snoc _ _).trans (congrArg (· ++ []) hl)
    · exact (usages_snoc _ _).trans (congrArg (· ++ []) hu)

theorem persistMedia_unstored (hp : persists c.matched st.dispatchResult = false) :
    c.persistMedia st = st := by
  unfold persistMedia
  unfold persists at hp
  rw [hp]
  rfl

theorem releaseControl_media (hm : c.matched.spec.capability.isMedia)
    (st : Handler) : c.releaseControl st = st := by
  have hbi : c.matched.spec.capability.isNonBillableControl = false := by
    cases hc : c.matched.spec.capability <;>
      simp_all [Capability.isMedia, Capability.isNonBillableControl]
  unfold releaseControl
  rw [hbi]
  rfl

theorem recordUsage_of_closed (hs : c.isStream = false)
    (h : st.terminalAbort ∨ st.deferMediaUsage) : (c.recordUsage st).log = st.log := by
  unfold recordUsage readClock
  dsimp only
  rw [if_neg]
  rcases h with h | h <;> simp [h, lateUsageCandidate, hs]

theorem recordUsage_of_open (h : Overridden c r st) (hread : ReadsBack c.world.rj r)
    (hf : r.malformedUsage = false) :
    mediaUpdates (c.recordUsage st).log = [] ∧ ∃ event, usages (c.recordUsage st).log = [event] ∧
      event.outputImageCount = c.mediaRequestUsage.outputImageCount := by
  obtain ⟨type, message, heq⟩ := standIn_eq r
  unfold ReadsBack at hread
  rw [← h.body, heq] at hread
  set event := c.usageEvent (readClock c.world st).1 (readClock c.world st).2 with hev
  have hc : event.outputImageCount = c.mediaRequestUsage.outputImageCount := by
    change countOr (parseMediaResponse c.world.rj st.resp.body
      c.matched.operation).outputImageCount _ = _
    rw [outputImageCount_errorDocument hread]; rfl
  have hg : ((!(readClock c.world st).2.terminalAbort ||
      c.lateUsageCandidate (readClock c.world st).2.forwardResult) &&
        !(readClock c.world st).2.deferMediaUsage) := by
    simp [readClock, h.terminal, hf, h.undeferred]
  have he : ∀ a : Action, a.mediaUpdate? = none → a.usage? = some event →
      mediaUpdates (st.log ++ [a]) = [] ∧ ∃ event, usages (st.log ++ [a]) = [event] ∧
        event.outputImageCount = c.mediaRequestUsage.outputImageCount := by
    intro a hu hus
    rw [mediaUpdates_snoc, usages_snoc, h.updates, h.usages, hu, hus]
    exact ⟨rfl, event, rfl, hc⟩
  unfold recordUsage
  dsimp only
  rw [if_pos hg]
  split
  · exact he (.reportedUsage event _) rfl rfl
  · exact he (.recordedUsage event) rfl rfl

end

variable {r : ForwardResult} {rj : RapidJson} {asked : Int}

structure AccountsFor (rj : RapidJson) (body : Bytes) (stored : Bool) (log : List Action) :
    Prop where
  operation : stored = true → ∃ request, mediaUpdates log = [request] ∧
    request.upstreamTaskId = providerTaskId rj body ∧
    request.status = providerMediaStatus rj body (providerTaskId rj body) ∧
    request.outputUrl = providerOutputUrl rj body
  images : ∀ event ∈ usages log, ∀ document data, parseObject rj body = some document →
    arrayOf document "data" = some data → data ≠ [] → event.outputImageCount = data.length

structure SaysNoMore (rj : RapidJson) (r : ForwardResult) (stored : Bool) (asked : Int) : Prop where
  operation : stored = true → providerTaskId rj r.body = [] ∧
    providerMediaStatus rj r.body [] = standInStatus r ∧ providerOutputUrl rj r.body = []
  images : stored = false → r.malformedUsage = false → ∀ document data,
    parseObject rj r.body = some document → arrayOf document "data" = some data → data ≠ [] →
    asked = data.length

theorem accountsFor_stored_iff
    (ht : ∃ request, mediaUpdates log = [request] ∧ ToldNothing r request) (hus : usages log = []) :
    AccountsFor rj r.body true log ↔ SaysNoMore rj r true asked := by
  obtain ⟨request, hu, ht⟩ := ht
  constructor
  · intro h
    refine ⟨fun _ => ?_, fun h => by cases h⟩
    obtain ⟨request', hu', hta, hs, ho⟩ := h.operation rfl
    obtain rfl : request = request' := by simpa using hu.symm.trans hu'
    rw [ht.task] at hta
    rw [← hta, ht.status] at hs
    rw [ht.output] at ho
    exact ⟨hta.symm, hs.symm, ho.symm⟩
  · intro h
    obtain ⟨hta, hs, ho⟩ := h.operation rfl
    refine ⟨fun _ => ⟨request, hu, ?_⟩, by simp [hus]⟩
    rw [ht.task, ht.status, ht.output, hta, hs, ho]
    exact ⟨rfl, rfl, rfl⟩

theorem accountsFor_unstored_iff
    (hu : if r.malformedUsage then usages log = [] else ∃ event, usages log = [event] ∧
      event.outputImageCount = asked) :
    AccountsFor rj r.body false log ↔ SaysNoMore rj r false asked := by
  by_cases hm : r.malformedUsage
  · rw [if_pos hm] at hu
    exact ⟨fun _ => ⟨by simp, by simp [hm]⟩, fun _ => ⟨by simp, by simp [hu]⟩⟩
  · rw [if_neg hm] at hu
    obtain ⟨event, hu, ha⟩ := hu
    have hf := Bool.eq_false_iff.2 hm
    constructor
    · intro h
      refine ⟨by simp, fun _ _ document data hd hda hne => ?_⟩
      rw [← ha]
      exact h.images event (by simp [hu]) document data hd hda hne
    · intro h
      refine ⟨by simp, fun event' he document data hd hda hne => ?_⟩
      obtain rfl : event' = event := by simpa [hu] using he
      rw [ha]; exact h.images rfl hf document data hd hda hne

theorem settle_accountsFor_iff {c : Context} {st : Handler}
    (hm : c.matched.spec.capability.isMedia) (hs : c.isStream = false)
    (h : Answered initial st) (hl : lastForward st.log = some r)
    (hsu : isSuccess r.statusCode) (hbo : r.body ≠ [])
    (hread : ReadsBack c.world.rj r) (hr : (c.settle st).exit = .returned) :
    AccountsFor c.world.rj r.body (persists c.matched st.dispatchResult) (c.settle st).log ↔
      SaysNoMore c.world.rj r (persists c.matched st.dispatchResult)
        c.mediaRequestUsage.outputImageCount := by
  unfold settle at hr ⊢
  cases heq : c.takeBody st with
  | error st₁ => rw [heq] at hr; obtain ⟨s, -, rfl⟩ := takeBody_error heq; cases hr
  | ok st₁ =>
    obtain ⟨ho, hg⟩ := media_overridden hm hs h hl hsu hbo heq
    dsimp only
    set st₂ := c.showMalformed (c.applyContentPolicy st₁)
    rw [← hg, releaseControl_media hm]
    change AccountsFor _ _ _ (finalStatus (c.recordUsage (c.persistMedia st₂))).log ↔ _
    rw [finalStatus_log]
    cases hp : persists c.matched st₂.dispatchResult with
    | true =>
      obtain ⟨ht, hu, hc⟩ := persistMedia_stored ho hread hp
      rw [recordUsage_of_closed hs hc]; exact accountsFor_stored_iff ht hu
    | false =>
      rw [persistMedia_unstored hp]
      apply accountsFor_unstored_iff
      split
      · next hmalformed =>
        rw [recordUsage_of_closed hs (.inl (ho.terminal.trans hmalformed))]
        exact ho.usages
      · next hf =>
        exact (recordUsage_of_open ho hread (Bool.eq_false_iff.2 hf)).2

theorem handle_accounts_iff (w : World) (req : HttpRequest) (resp : HttpResponse)
    (matched : MatchedCapability) (fuel : Nat)
    (hmedia : matched.spec.capability.isMedia = true) (hstream : matched.spec.canStream = false)
    {r : ForwardResult} (hlast : lastForward (handle w req resp matched fuel).log = some r)
    (hsuccess : isSuccess r.statusCode = true) (document : Json)
    (hbody : parseObject w.rj r.body = some document)
    (hempty : w.rj.parse [] = none) (hread : ReadsBack w.rj r)
    (hreturned : (handle w req resp matched fuel).exit = .returned) {grant : DispatchResult}
    (hgrant : (handle w req resp matched fuel).dispatchResult = grant) :
    AccountsFor w.rj r.body (persists matched grant) (handle w req resp matched fuel).log ↔
      SaysNoMore w.rj r (persists matched grant)
        (parseMediaRequest w.rj req.body req.contentType matched.operation).outputImageCount := by
  have hne : r.body ≠ [] := by
    intro hnil
    rw [hnil, parseObject, hempty] at hbody; cases hbody
  obtain ⟨c, st, hserves, hunstreamed, heq, hanswered, hlast'⟩ :=
    handle_answered (isStreamed_of_canStream hstream) hlast hsuccess
  subst hgrant
  rw [heq] at hreturned ⊢
  rw [← hserves.sameCapability] at hmedia ⊢
  rw [← hserves.sameWorld] at hread ⊢
  rw [settle_dispatchResult,
    settle_accountsFor_iff hmedia hunstreamed hanswered hlast' hsuccess hne hread hreturned,
    hserves.mediaRequestUsage, hserves.sameWorld, hserves.sameCapability]

def asyncImages : MatchedCapability where
  spec :=
    { capability := .imagesAsync
      name := "images_async"
      endpoint := 4
      inboundFormat := .openAIChatCompletions
      canStream := false
      canFailover := false
      realtime := false }
  operation := "images_generations_async"

def imageRequest : HttpRequest where
  method := "POST"
  path := "/v1/images/generations/async"
  body := "\x7b\"model\":\"m\",\"prompt\":\"p\"\x7d"
  xApiKey := "key"
  contentType := "application/json"
  requestId := "request-1"

def unclassifiedText : Bytes := "\x7b\"error\":\x7b\"type\":\"content_policy_unavailable\"," ++
  "\"message\":\"Media content policy classifier not yet implemented for this capability\"\x7d\x7d"

def taskWorld (body : Bytes) (document : Json) : World :=
  { refusingProvider (.ofTable [
        (imageRequest.body, .object [("model", .str "m"), ("prompt", .str "p")]),
        (body, document),
        (unclassifiedText, errorDocument "content_policy_unavailable"
          "Media content policy classifier not yet implemented for this capability")]
        unclassifiedText)
      { platform := "openai", baseUrl := "provider", mediaOperationId := "operation-1" } with
    mediaOperation := fun _ _ => { accepted := true, operationId := "operation-1" }
    transport := fun _ _ => answeringProvider 200 "application/json" body }

def createImage (body : Bytes) (document : Json) : Handler :=
  handle (taskWorld body document) imageRequest {} asyncImages 1

def queuedText : Bytes := "\x7b\"status\":\"queued\"\x7d"

def queuedJson : Json := .object [("status", .str "queued")]

theorem queued_accounted :
    (mediaUpdates (createImage queuedText queuedJson).log).map (·.status) = [ascii "running"] ∧
      AccountsFor (taskWorld queuedText queuedJson).rj queuedText true
        (createImage queuedText queuedJson).log := by
  obtain ⟨hstatus, hreturned, hpersists, hlast⟩ :
      (mediaUpdates (createImage queuedText queuedJson).log).map (·.status) = [ascii "running"] ∧
      (createImage queuedText queuedJson).exit = .returned ∧
      persists asyncImages (createImage queuedText queuedJson).dispatchResult ∧
      (lastForward (createImage queuedText queuedJson).log).any (fun r =>
        isSuccess r.statusCode && r.body == queuedText && !r.malformedUsage) := by
    decide +kernel
  obtain ⟨r, hr, hanswer⟩ := (Option.any_eq_true _ _).1 hlast
  simp only [Bool.and_eq_true, beq_iff_eq, Bool.not_eq_true'] at hanswer
  obtain ⟨⟨hsuccess, hbody⟩, hformed⟩ := hanswer
  have hstand : standIn r = errorDocument "content_policy_unavailable"
      "Media content policy classifier not yet implemented for this capability" := by
    simp [standIn, hformed]
  have h := handle_accounts_iff (taskWorld queuedText queuedJson) imageRequest {} asyncImages 1 rfl
    rfl hr hsuccess queuedJson (by rw [hbody]; rfl) rfl
    (by unfold ReadsBack; rw [hstand]; rfl) hreturned rfl
  change AccountsFor _ _ (persists asyncImages (createImage queuedText queuedJson).dispatchResult)
    _ ↔ SaysNoMore _ _ (persists asyncImages (createImage queuedText queuedJson).dispatchResult)
      _ at h
  rw [hbody, hpersists] at h
  refine ⟨hstatus, ?_⟩
  refine h.2 ⟨fun _ => ?_, by simp⟩
  rw [hbody, standInStatus, hformed]
  exact ⟨rfl, rfl, rfl⟩

def taskText : Bytes := "\x7b\"id\":\"task-1\"\x7d"

def taskJson : Json := .object [("id", .str "task-1")]

theorem task_forgotten : (createImage taskText taskJson).exit = .returned ∧
      (lastForward (createImage taskText taskJson).log).map (fun r => (r.statusCode, r.body)) =
        some (200, taskText) ∧
      persists asyncImages (createImage taskText taskJson).dispatchResult = true ∧
      providerTaskId (taskWorld taskText taskJson).rj taskText = "task-1" ∧
      (mediaUpdates (createImage taskText taskJson).log).map (·.upstreamTaskId) = [[]] := by
  decide +kernel

end Gateway.Server
