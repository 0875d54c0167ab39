import Gateway.Server.AnswerRun

/-! # Which bodies reach the client -/

namespace Gateway.Server

open Lib Dispatch Forwarder Context List

inductive OwnDocument (rj : RapidJson) : Bytes → Prop
  | error (type message : Bytes) : OwnDocument rj (errorJson rj type message)
  | literal (type message : Bytes) : OwnDocument rj (literalError type message)
  | media (operation : MediaOperationResult) : OwnDocument rj (mediaViewJson rj operation)

theorem OwnDocument.ne_nil {rj : RapidJson} (hw : ∀ document, written rj document ≠ [])
    {body : Bytes} (h : OwnDocument rj body) : body ≠ [] := by
  cases h with
  | error type message => exact hw _
  | literal type message => exact cons_ne_nil _ _
  | media operation => exact hw _

def Cleared (log : List Action) (body : Bytes) : Prop :=
  ∃ lease policy, Action.evaluated lease body policy ∈ log ∧ policy.evaluated = true ∧
    policy.retryable = false ∧ policy.allowed = true

def Capability.isUnmoderated : Capability → Bool
  | .models | .geminiModels | .countTokens | .embeddings => true
  | _ => false

def Screened (rj : RapidJson) (capability : Capability) (provider : Bytes) (log : List Action)
    (body : Bytes) : Prop :=
  Cleared log body ∨ OwnDocument rj body ∨ (capability.isUnmoderated = true ∧ body = provider)

def Unfilled (initial provider body : Bytes) : Prop :=
  body = [] ∨ (provider = [] ∧ body = initial)

theorem Screened.mono {rj : RapidJson} {capability : Capability} {provider body : Bytes}
    {log log' : List Action} (h : Screened rj capability provider log body)
    (hl : ∀ a ∈ log, a ∈ log') : Screened rj capability provider log' body := by
  rcases h with ⟨lease, policy, hm, ha⟩ | hr
  · exact .inl ⟨lease, policy, hl _ hm, ha⟩
  · exact .inr hr

variable {st' : Handler} {r : ForwardResult}

section

variable {c : Context} {st : Handler} {initial provider : Bytes}

inductive Taken (c : Context) (initial provider : Bytes) (st : Handler) : Prop
  | malformed (h : st.forwardResult.malformedUsage = true)
  | withheld (hown : OwnDocument c.world.rj st.resp.body) (hterminal : st.terminalAbort = true)
      (hstatus : st.forwardResult.statusCode = 502)
  | waiting (hterminal : st.terminalAbort = false)
      (hformed : st.forwardResult.malformedUsage = false)
      (hstatus : isSuccess st.forwardResult.statusCode = true)
      (hbody : c.matched.spec.capability.isChat = true ∨ st.resp.body = provider ∨
        Unfilled initial provider st.resp.body)

theorem withhold_taken (reason type message : Bytes) (st : Handler) :
    Taken c initial provider (c.withhold reason type message st) :=
  .withheld (.error type message) rfl rfl

theorem checkBody_taken (h : Taken c initial provider st) (applies : Bool)
    (validation : Protocol.Converter.ValidationResult) (reason : Bytes) :
    Taken c initial provider (c.checkBody applies validation reason st) := by
  unfold checkBody
  split
  · split
    · exact h
    · next message => exact .withheld (.error "provider_protocol_error" message) rfl rfl
  · exact h

theorem convertSuccessBody_taken (h : Taken c initial provider st)
    (heq : c.convertSuccessBody st = .ok st') : Taken c initial provider st' := by
  unfold convertSuccessBody at heq
  split at heq
  · next hc =>
    simp only [Bool.and_eq_true, decide_eq_true_eq] at hc
    split at heq
    · cases heq
    · split at heq
      · cases heq
        cases h with
        | malformed hm => exact .malformed hm
        | withheld _ _ hs =>
          have hl := hc.1.1
          omega
        | waiting ht hf hs _ => exact .waiting ht hf hs (.inl hc.1.2)
      · cases heq; exact withhold_taken _ _ _ st
  · cases heq; exact h

theorem convertErrorBody_of_success (h : isSuccess st.forwardResult.statusCode) :
    c.convertErrorBody st = .ok st := by
  have hl : ¬ st.forwardResult.statusCode ≥ 400 := by
    simp only [isSuccess, Bool.and_eq_true, decide_eq_true_eq] at h; omega
  unfold convertErrorBody
  dsimp only
  rw [if_neg (by simp [hl])]

theorem convertErrorBody_result (h : c.convertErrorBody st = .ok st') :
    st'.forwardResult = st.forwardResult := by
  unfold convertErrorBody at h
  dsimp only at h
  split at h
  · split at h
    · cases h
    · cases h; rfl
  · cases h; rfl

theorem checks_taken (h : Taken c initial provider st) :
    Taken c initial provider (c.checkResponses (c.checkCatalogue (c.checkEmbeddings st))) :=
  checkBody_taken (checkBody_taken (checkBody_taken h _ _ _) _ _ _) _ _ _

theorem takeBody_taken (hst : c.isStream = false) (h : Answered initial st)
    (hl : lastForward st.log = some r) (hs : isSuccess r.statusCode)
    (heq : c.takeBody st = .ok st') : Taken c initial r.body st' := by
  obtain ⟨hr, ht⟩ := h.result r hl hs
  unfold takeBody at heq
  by_cases he : st.forwardResult.body.isEmpty
  · rw [if_neg (by simp [he])] at heq
    cases heq
    by_cases hm : r.malformedUsage
    · refine .malformed ?_
      rw [hr, ForwardResult.kept, if_pos hm]; exact hm
    · rw [ForwardResult.kept, if_neg hm] at hr
      rw [hr] at he
      refine .waiting (ht.trans (Bool.eq_false_iff.2 hm)) ?_ ?_ (.inr (.inr ?_))
      · rw [hr]; exact Bool.eq_false_iff.2 hm
      · rw [hr]; exact hs
      · exact .inr ⟨List.isEmpty_iff.1 he, h.body⟩
  · rw [if_pos (by simp [hst, he])] at heq
    obtain ⟨st₁, hf, heq⟩ := bind_eq_ok heq
    obtain ⟨st₂, hse, heq⟩ := bind_eq_ok heq
    cases heq
    refine checks_taken (convertSuccessBody_taken ?_ hse)
    by_cases hm : r.malformedUsage
    · refine .malformed ?_
      rw [convertErrorBody_result hf]
      simp only [hr, ForwardResult.kept, hm, if_true]
    · rw [ForwardResult.kept, if_neg hm] at hr
      rw [convertErrorBody_of_success (by simpa [hr] using hs)] at hf
      cases hf
      refine .waiting (ht.trans (Bool.eq_false_iff.2 hm)) ?_ ?_ (.inr (.inl ?_))
      · simpa [hr] using hm
      · simpa [hr] using hs
      · simp [hr]

def Presentable (c : Context) (initial provider : Bytes) (st : Handler) : Prop :=
  Screened c.world.rj c.matched.spec.capability provider st.log st.resp.body ∨
    Unfilled initial provider st.resp.body

theorem Presentable.own (h : OwnDocument c.world.rj st.resp.body) :
    Presentable c initial provider st := .inl (.inr (.inl h))

theorem evaluateResponse_presentable (st : Handler) :
    Presentable c initial provider (c.evaluateResponse st) := by
  unfold evaluateResponse
  dsimp only
  set policy := c.world.evaluateContent st.log 0 st.lease st.resp.body c.matched.spec.name
  split
  · next ha =>
    refine .inl (.inl ⟨st.lease, policy, mem_append_right _ (mem_singleton.2 rfl), ?_⟩)
    unfold contentPolicyDisposition at ha
    split_ifs at ha with hc hal
    simp only [Bool.or_eq_true, Bool.not_eq_true', not_or, Bool.not_eq_false,
      Bool.not_eq_true] at hc
    exact ⟨hc.1, hc.2, hal⟩
  · exact Presentable.own (.error _ _)
  · exact Presentable.own (.error _ _)

theorem decideResponse_presentable
    (hbo : st.resp.body = provider ∨ Unfilled initial provider st.resp.body) :
    Presentable c initial provider (c.decideResponse st) := by
  have hk : c.matched.spec.capability.isUnmoderated →
      Presentable c initial provider st := fun hc =>
    hbo.elim (fun hs => .inl (.inr (.inr ⟨hc, hs⟩))) .inr
  unfold decideResponse
  cases hc : c.matched.spec.capability with
  | models | countTokens | geminiModels | embeddings => exact hk (by rw [hc]; rfl)
  | _ => exact Presentable.own (.error _ _)

theorem applyContentPolicy_presentable (hs : c.isStream = false) (h : Taken c initial provider st) :
    (c.applyContentPolicy st).forwardResult.malformedUsage ∨
      Presentable c initial provider (c.applyContentPolicy st) := by
  unfold applyContentPolicy
  cases h with
  | malformed hm => rw [if_neg (by simp [hm])]; exact .inl hm
  | withheld ho ht _ => rw [if_neg (by simp [ht])]; exact .inr (Presentable.own ho)
  | waiting ht hf hst hbo =>
    by_cases he : st.resp.body.isEmpty
    · rw [if_neg (by simp [he])]; exact .inr (.inr (.inl (List.isEmpty_iff.1 he)))
    · rw [if_pos (by simp [hs, ht, hf, hst, he])]
      split
      · exact .inr (evaluateResponse_presentable st)
      · next hc =>
        exact .inr (decideResponse_presentable (hbo.resolve_left hc))

theorem showMalformed_presentable
    (h : st.forwardResult.malformedUsage ∨ Presentable c initial provider st) :
    Presentable c initial provider (c.showMalformed st) := by
  unfold showMalformed
  split
  · exact Presentable.own (.error _ _)
  · next hf => exact h.resolve_left hf

section

variable (h : Presentable c initial provider st)

include h

theorem persistMedia_presentable : Presentable c initial provider (c.persistMedia st) := by
  unfold persistMedia callMedia
  dsimp only
  split
  · split
    · refine Presentable.own ?_
      have hbo : ∀ running operation (s : Handler),
          (c.mediaStored running operation s).resp.body = mediaViewJson c.world.rj operation := by
        intro running operation s
        cases running <;> rfl
      rw [hbo]; exact .media _
    · exact Presentable.own (.literal _ _)
  · exact h

theorem Presentable.grow (hl : ∀ a ∈ st.log, a ∈ st'.log)
    (hbo : st'.resp.body = st.resp.body) : Presentable c initial provider st' := by
  unfold Presentable
  rw [hbo]
  exact h.imp_left fun hs => hs.mono hl

theorem releaseControl_presentable : Presentable c initial provider (c.releaseControl st) := by
  have hm : ∀ a b : Action, a ∈ st.log → a ∈ st.log ++ [b] := fun a b ha => mem_append_left _ ha
  unfold releaseControl
  dsimp only
  split
  · split <;> exact h.grow (fun a ha => hm a _ ha) rfl
  · exact h

theorem recordUsage_presentable : Presentable c initial provider (c.recordUsage st) := by
  have hm : ∀ a b : Action, a ∈ st.log → a ∈ st.log ++ [b] := fun a b ha => mem_append_left _ ha
  unfold recordUsage readClock
  dsimp only
  split
  · split <;> exact h.grow (fun a ha => hm a _ ha) rfl
  · exact h

theorem finalStatus_presentable : Presentable c initial provider (finalStatus st) := by
  unfold finalStatus
  split
  · exact h
  · exact h

end

theorem settle_presentable (hs : c.isStream = false) (h : Answered initial st)
    (hl : lastForward st.log = some r) (hsu : isSuccess r.statusCode)
    (hr : (c.settle st).exit = .returned) : Presentable c initial r.body (c.settle st) := by
  unfold settle at hr ⊢
  cases heq : c.takeBody st with
  | error st₁ => rw [heq] at hr; obtain ⟨s, -, rfl⟩ := takeBody_error heq; cases hr
  | ok st₁ =>
    have ht := takeBody_taken hs h hl hsu heq
    exact finalStatus_presentable (recordUsage_presentable (releaseControl_presentable
      (persistMedia_presentable (showMalformed_presentable
        (applyContentPolicy_presentable hs ht)))))

end

theorem handle_presents (w : World) (req : HttpRequest) (resp : HttpResponse)
    (matched : MatchedCapability) (fuel : Nat) (hstream : isStreamed w req resp matched = false)
    {r : ForwardResult} (hlast : lastForward (handle w req resp matched fuel).log = some r)
    (hsuccess : isSuccess r.statusCode = true)
    (hreturned : (handle w req resp matched fuel).exit = .returned) :
    Screened w.rj matched.spec.capability r.body (handle w req resp matched fuel).log
        (handle w req resp matched fuel).resp.body ∨
      Unfilled resp.body r.body (handle w req resp matched fuel).resp.body := by
  obtain ⟨c, st, hserves, hunstreamed, heq, hanswered, hlast'⟩ :=
    handle_answered hstream hlast hsuccess
  rw [heq] at hreturned ⊢
  rw [← hserves.sameWorld, ← hserves.sameCapability]
  exact settle_presentable hunstreamed hanswered hlast' hsuccess hreturned

def answeringProvider (statusCode : Int) (contentType body : Bytes) : Provider where
  call := .ok { statusCode, headers := [("Content-Type", contentType)] }
  reads := [.bytes body]
  surroundings := { clock := fun _ => 0, write := fun _ data => data.length }

def completionText : Bytes := "\x7b\"choices\":[]\x7d"

def moderatedWorld (statusCode : Int) (body : Bytes) : World :=
  { refusingProvider (.ofTable [
        ((chatRequest "\"hi\"").body, chatJson (.str "hi")),
        (completionText, .object [("choices", .array [])])] "\x7b\x7d")
      { platform := "openai", baseUrl := "provider" } with
    evaluateContent := fun _ _ _ _ _ => { evaluated := true, allowed := true }
    transport := fun _ _ => answeringProvider statusCode "application/json" body }

def answered (statusCode : Int) (body : Bytes) : Handler :=
  handle (moderatedWorld statusCode body) (chatRequest "\"hi\"") {} chatCompletions 1

theorem completion_presented : (answered 200 completionText).resp.body = completionText ∧
      ∃ r, lastForward (answered 200 completionText).log = some r ∧
        (Screened (moderatedWorld 200 completionText).rj .chatCompletions r.body
            (answered 200 completionText).log completionText ∨
          Unfilled [] r.body completionText) := by
  obtain ⟨hbody, hreturned, hlast⟩ : (answered 200 completionText).resp.body = completionText ∧
      (answered 200 completionText).exit = .returned ∧
      (lastForward (answered 200 completionText).log).any (isSuccess ·.statusCode) =
        true := by decide +kernel
  obtain ⟨r, hr, hsuccess⟩ := (Option.any_eq_true _ _).1 hlast
  refine ⟨hbody, r, hr, ?_⟩
  have h := handle_presents (moderatedWorld 200 completionText) (chatRequest "\"hi\"") {}
    chatCompletions 1 (by decide +kernel) hr hsuccess hreturned
  rw [show handle (moderatedWorld 200 completionText) (chatRequest "\"hi\"") {}
    chatCompletions 1 = answered 200 completionText from rfl, hbody] at h
  exact h

def Action.isEvaluation : Action → Bool
  | .evaluated _ _ _ => true
  | _ => false

theorem empty_answer_unscreened :
    isStreamed (moderatedWorld 204 []) (chatRequest "\"hi\"") {} chatCompletions = false ∧
      (answered 204 []).exit = .returned ∧
      (lastForward (answered 204 []).log).any (isSuccess ·.statusCode) = true ∧
      ∀ provider, ¬ Screened (moderatedWorld 204 []).rj .chatCompletions provider
        (answered 204 []).log (answered 204 []).resp.body := by
  obtain ⟨hbody, hunseen, hreturned, hlast⟩ : (answered 204 []).resp.body = [] ∧
      (answered 204 []).log.any Action.isEvaluation = false ∧
      (answered 204 []).exit = .returned ∧
      (lastForward (answered 204 []).log).any (isSuccess ·.statusCode) := by
    decide +kernel
  refine ⟨by decide +kernel, hreturned, hlast, fun provider h => ?_⟩
  rw [hbody] at h
  rcases h with ⟨lease, policy, hmem, -⟩ | hown | ⟨hcapability, -⟩
  · rw [any_eq_false] at hunseen; exact hunseen _ hmem rfl
  · have hwritten : cstr (ascii "\x7b\x7d") ≠ [] := by decide
    have hdocuments : ∀ document, written (moderatedWorld 204 []).rj document ≠ [] :=
      fun _ => hwritten
    exact hown.ne_nil hdocuments rfl
  · cases hcapability

end Gateway.Server
