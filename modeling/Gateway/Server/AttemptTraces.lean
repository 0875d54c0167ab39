import Gateway.Server.GatewayErrorRun
import Gateway.Server.Routes

/-! # Traces of failed attempts -/

namespace Gateway.Server

open Lib Dispatch Forwarder
open Except (map ok)

structure Untraced (rj : RapidJson) (req : HttpRequest) (resp : HttpResponse)
    (matched : MatchedCapability) (result : DispatchResult) (target : UpstreamTarget)
    (response : ProviderResponse) : Prop where
  headers : plainHeaders (response.start target).headers = plainHeaders resp.headers
  refused : result.granted = false → startedType response.contentType = resp.contentType
  granted : result.granted = true →
    let error := leaseError rj req matched result.upstream
    let after := presented rj matched.spec.inboundFormat (upstreamFormat result.upstream)
      response.statusCode (startedType response.contentType) error.2
    let fresh := presented rj matched.spec.inboundFormat .openAIChatCompletions error.1
      resp.contentType error.2
    if persists matched result then after.map Prod.fst = fresh.map Prod.fst else after = fresh

section

variable {rj : RapidJson} {req : HttpRequest} {resp : HttpResponse} {matched : MatchedCapability}
  {result : DispatchResult} {answers : List MediaOperationResult} {target : UpstreamTarget}
  {response : ProviderResponse}

theorem operationShown_inj {capability : Capability} {contentType contentType' : Bytes}
    {headers headers' : List (Bytes × Bytes)} {operation : MediaOperationResult} :
    operationShown rj capability contentType headers operation =
        operationShown rj capability contentType' headers' operation ↔
      contentType = contentType' ∧ headers = headers' := by
  unfold operationShown
  split <;> simp

theorem errorShown_eq_iff {shown shown' : Shown} (ha : errorShown rj req matched result answers
      (carriedFrom resp (some (target, .ok response))) = .ok shown)
    (hf : errorShown rj req matched result answers (carriedFrom resp none) = .ok shown') :
    shown = shown' ↔ Untraced rj req resp matched result target response := by
  unfold errorShown at ha hf
  cases hg : result.granted with
  | false =>
    rw [if_neg (by simp [hg])] at ha hf
    cases ha
    cases hf
    constructor
    · intro heq
      simp only [Shown.mk.injEq, true_and, and_true] at heq
      exact ⟨heq.2, fun _ => heq.1, fun h => by rw [hg] at h; cases h⟩
    · intro h; simp only [Shown.mk.injEq, true_and, and_true]; exact ⟨h.refused hg, h.headers⟩
  | true =>
    rw [if_pos hg] at ha hf
    obtain ⟨⟨contentType, body⟩, hp, ha⟩ := bind_eq_ok ha
    obtain ⟨⟨contentType', body'⟩, hp', hf⟩ := bind_eq_ok hf
    cases ha
    cases hf
    have hi : Untraced rj req resp matched result target response ↔
        plainHeaders (response.start target).headers = plainHeaders resp.headers ∧
          if persists matched result then contentType = contentType'
          else contentType = contentType' ∧ body = body' := by
      have hc : (if persists matched result then
            (ok (contentType, body) : Access (Bytes × Bytes)).map Prod.fst =
              (ok (contentType', body') : Access (Bytes × Bytes)).map Prod.fst
          else (ok (contentType, body) : Access (Bytes × Bytes)) =
            .ok (contentType', body')) ↔
          if persists matched result then contentType = contentType'
          else contentType = contentType' ∧ body = body' := by
        split <;> simp [map]
      rw [← hc, ← hp, ← hp']
      constructor
      · exact fun h => ⟨h.headers, h.granted hg⟩
      · exact fun h => ⟨h.1, fun hr => (by rw [hg] at hr; cases hr),
          fun _ => h.2⟩
    rw [hi]
    cases persists matched result with
    | true => rw [if_pos rfl, if_pos rfl, if_pos rfl, operationShown_inj]; exact and_comm
    | false =>
      simp only [Bool.false_eq_true, if_false, Shown.mk.injEq, true_and]
      constructor
      · exact fun ⟨ht, hh, hbo⟩ => ⟨hh, ht, hbo⟩
      · exact fun ⟨hh, ht, hbo⟩ => ⟨ht, hh, hbo⟩

end

theorem gateway_error_traceless_iff (w₁ w₂ : World) (hrj : w₁.rj = w₂.rj) (req : HttpRequest)
    (resp : HttpResponse) (matched : MatchedCapability) (fuel₁ fuel₂ : Nat)
    (h₁ : isGatewayError (handle w₁ req resp matched fuel₁))
    (h₂ : isGatewayError (handle w₂ req resp matched fuel₂))
    (hfirst : lastCall (handle w₂ req resp matched fuel₂).log = none)
    (hsame : finalAnswer (handle w₁ req resp matched fuel₁).log =
      finalAnswer (handle w₂ req resp matched fuel₂).log) :
    (handle w₁ req resp matched fuel₁).resp.shown = (handle w₂ req resp matched fuel₂).resp.shown ↔
      ∀ result answers target response,
        finalAnswer (handle w₁ req resp matched fuel₁).log = some (result, answers) →
        lastAnswer w₁ req (handle w₁ req resp matched fuel₁).log = some (target, .ok response) →
        Untraced w₁.rj req resp matched result target response := by
  obtain ⟨result, answers, hfinal, hshown⟩ := handle_errorShown w₁ req resp matched fuel₁ h₁
  obtain ⟨result', answers', hfinal', hshown'⟩ := handle_errorShown w₂ req resp matched fuel₂ h₂
  obtain ⟨rfl, rfl⟩ : result = result' ∧ answers = answers' := by
    rw [hfinal, hfinal'] at hsame
    simpa using hsame
  have hnone : lastAnswer w₂ req (handle w₂ req resp matched fuel₂).log = none :=
    congrArg (Option.map _) hfirst
  rw [hnone, ← hrj] at hshown'
  rw [hfinal]
  have huntraced : carriedFrom resp (lastAnswer w₁ req (handle w₁ req resp matched fuel₁).log) =
      carriedFrom resp none → (handle w₁ req resp matched fuel₁).resp.shown =
        (handle w₂ req resp matched fuel₂).resp.shown := by
    intro hcarried
    rw [hcarried, hshown'] at hshown; exact (ok.inj hshown).symm
  cases hanswer : lastAnswer w₁ req (handle w₁ req resp matched fuel₁).log with
  | none =>
    rw [hanswer] at huntraced
    refine ⟨fun _ _ _ _ _ _ h => (by cases h), fun _ => huntraced rfl⟩
  | some answer =>
    obtain ⟨target, error | response⟩ := answer
    · rw [hanswer] at huntraced
      refine ⟨fun _ _ _ _ _ _ h => (by cases h), fun _ => huntraced rfl⟩
    · rw [hanswer] at hshown
      rw [errorShown_eq_iff hshown hshown']
      constructor
      · rintro h _ _ _ _ ⟨⟩ ⟨⟩; exact h
      · intro h; exact h result answers target response rfl rfl

def storedResponse : MatchedCapability :=
  { spec := kResponsesSubpath, operation := "responses_get" }

def storedResponseRequest : HttpRequest where
  method := "GET"
  path := "/v1/responses/resp_1"
  xApiKey := "key"
  requestId := "request-1"

def rateLimited : DispatchResult :=
  { outcome := .rejected, rejectCode := 3, rejectMessage := "rate limit exceeded" }

def rateLimitedBody : Bytes := literalError "rate_limit_error" "rate limit exceeded"

def exhaustedWorld : World :=
  { refusingProvider (.ofTable [] rateLimitedBody) { platform := "openai", baseUrl :=
    "provider" } with
    dispatch := fun _ _ => rateLimited }

def overloadedOnce (headers : List (Bytes × Bytes)) : World :=
  { exhaustedWorld with
    dispatch := fun log _ =>
      if log.any Action.isForwarding then rateLimited
      else { outcome := .ok, leaseToken := "lease-1"
             upstream := { platform := "openai", baseUrl := "provider"
                           allowedResponseHeaders := ["retry-after"] } }
    transport := fun _ _ =>
      { call := .ok { statusCode := 503, headers }
        surroundings := { clock := fun _ => 0, write := fun _ data => data.length } } }

theorem plain_answer_traceless :
    (handle (overloadedOnce [("Content-Type", "application/json")]) storedResponseRequest {}
      storedResponse 2).resp.shown =
      (handle exhaustedWorld storedResponseRequest {} storedResponse 1).resp.shown := by
  refine (gateway_error_traceless_iff (overloadedOnce [("Content-Type", "application/json")])
    exhaustedWorld rfl
    storedResponseRequest {} storedResponse 2 1 (by decide) (by decide) (by decide)
    (by decide)).2 ?_
  intro result answers target response hfinal hanswer
  have hlimited : finalAnswer (handle (overloadedOnce [("Content-Type", "application/json")])
      storedResponseRequest {} storedResponse 2).log = some (rateLimited, []) := by decide
  obtain ⟨rfl, -⟩ := Prod.mk.inj (Option.some.inj (hlimited.symm.trans hfinal))
  cases hanswer
  exact ⟨by decide, fun _ => by decide, fun h => absurd h (by decide)⟩

theorem html_page_traced :
    let after := handle (overloadedOnce [("Content-Type", "text/html"), ("Retry-After", "60")])
      storedResponseRequest {}
      storedResponse 2
    let first := handle exhaustedWorld storedResponseRequest {} storedResponse 1
    isGatewayError after ∧ isGatewayError first ∧ lastCall first.log = none ∧
      finalAnswer after.log = finalAnswer first.log ∧
      first.resp.shown = ⟨429, "application/json", [], rateLimitedBody⟩ ∧
      after.resp.shown = ⟨429, "text/html", [("Retry-After", "60")], rateLimitedBody⟩ := by
  decide

end Gateway.Server
