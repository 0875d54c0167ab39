import Gateway.Protocol.NullMembers

/-! # Where a null member is no absent one -/

namespace Gateway.Protocol.Converter

open Lib Json List Option

def hollowCall (doc : Json) : Bool :=
  let parts := candidatePartsOf (firstAt doc "candidates")
  textAt (firstAt doc "candidates") "finishReason" == some (ascii "STOP")
    && (parts.any (nullAt · "functionCall") && !parts.any (presentAt · "functionCall"))

def hollowPart (part : Json) : Bool :=
  (nullAt part "text" || nullAt part "functionCall")
    && !(presentAt part "text" || presentAt part "functionCall")

def nullDecides (source target : Format) (doc : Json) : Bool :=
  match source with
  | .openAIChatCompletions =>
    nullAt (firstMessage doc) "refusal"
      && (decide ((entriesAt doc "choices").length ≤ 1) && !foreignContent (firstMessage doc))
  | .gemini =>
    !unsupportedOf doc .gemini
      && (((entriesAt doc "candidates").any fun candidate =>
          (candidatePartsOf candidate).any hollowPart)
        || (hollowCall doc && target != .openAIResponses))
  | _ => false

section

variable (under : Bytes) (doc : Json)

theorem isSome_lookup (key : Bytes) :
    (doc.lookup key).isSome = (nullAt doc key || presentAt doc key) := by
  unfold nullAt presentAt
  cases doc.lookup key with
  | none => rfl
  | some v => cases hv : v.isNull <;> simp [hv]

theorem nullAt_and_presentAt (key : Bytes) : (nullAt doc key && presentAt doc key) = false := by
  unfold nullAt presentAt
  cases doc.lookup key with
  | none => rfl
  | some v => cases hv : v.isNull <;> simp [hv]

theorem foreignPart_withoutNulls :
    foreignPart (withoutNulls under doc) = (foreignPart doc || hollowPart doc) := by
  unfold foreignPart hollowPart
  rw [presentAt_withoutNulls, presentAt_withoutNulls, isSome_lookup, isSome_lookup]
  cases nullAt doc "text" <;> cases nullAt doc "functionCall" <;>
    cases presentAt doc "text" <;> cases presentAt doc "functionCall" <;> rfl

theorem any_withoutNulls {p q : Json → Bool} (h : ∀ v, p (withoutNulls under v) = q v)
    (xs : List Json) : (xs.map (withoutNulls under)).any p = xs.any q := by
  rw [List.any_map]
  congr 1
  funext v
  exact h v

theorem any_or {α : Type} (p q : α → Bool) (xs : List α) :
    (xs.any fun x => p x || q x) = (xs.any p || xs.any q) := by
  induction xs with
  | nil => rfl
  | cons x xs ih =>
    simp only [any_cons, ih]
    cases p x <;> cases q x <;> simp

theorem otherTypeOf_withoutNulls (types : List Bytes) :
    otherTypeOf types (withoutNulls under doc) = otherTypeOf types doc := by
  rw [otherTypeOf, textAt_withoutNulls]
  rfl

theorem foreignItem_withoutNulls : foreignItem (withoutNulls under doc) = foreignItem doc := by
  unfold foreignItem
  rw [otherTypeOf_withoutNulls, textAt_withoutNulls, entriesAt_withoutNulls _ _ (by decide),
    any_withoutNulls _ fun block => otherTypeOf_withoutNulls _ block _]

theorem foreignContent_withoutNulls :
    foreignContent (withoutNulls under doc) = foreignContent doc := by
  unfold foreignContent
  rw [lookup_withoutNulls]
  cases doc.lookup "content" with
  | none => rfl
  | some v =>
    cases v <;>
      simp [isNull, isString, memberWithoutNulls_of_not_mem under doc
        (show ascii "content" ∉ argumentKeys by decide), withoutNulls]

theorem unsupportedOf_openAI_withoutNulls :
    unsupportedOf (withoutNulls under doc) .openAIChatCompletions =
      (decide ((entriesAt doc "choices").length > 1)
        || (presentAt (firstMessage doc) "refusal" || foreignContent (firstMessage doc))) := by
  have hm : firstMessage (withoutNulls under doc) =
      withoutNulls "message" (firstMessage doc) := by
    unfold firstMessage
    rw [firstAt_withoutNulls _ _ (by decide), valueAt_withoutNulls _ _ (by decide)]
  simp only [unsupportedOf, hm]
  rw [entriesAt_withoutNulls _ _ (by decide), length_map, presentAt_withoutNulls,
    foreignContent_withoutNulls]

theorem unsupportedOf_gemini_withoutNulls : unsupportedOf (withoutNulls under doc) .gemini =
      (unsupportedOf doc .gemini || (entriesAt doc "candidates").any fun candidate =>
        (candidatePartsOf candidate).any hollowPart) := by
  have hc : ∀ candidate,
      (candidatePartsOf (withoutNulls "candidates" candidate)).any foreignPart =
        ((candidatePartsOf candidate).any foreignPart
          || (candidatePartsOf candidate).any hollowPart) := by
    intro candidate
    rw [candidatePartsOf_withoutNulls, any_withoutNulls _ (foreignPart_withoutNulls _)]
    exact any_or _ _ _
  simp only [unsupportedOf]
  rw [entriesAt_withoutNulls _ _ (by decide), length_map, any_withoutNulls _ hc, Bool.or_assoc]
  congr 1
  exact any_or _ _ _

theorem unsupportedOf_withoutNulls {source : Format} (ho : source ≠ .openAIChatCompletions)
    (hg : source ≠ .gemini) :
    unsupportedOf (withoutNulls under doc) source = unsupportedOf doc source := by
  cases source with
  | openAIChatCompletions => exact absurd rfl ho
  | gemini => exact absurd rfl hg
  | anthropic =>
    simp only [unsupportedOf]
    rw [entriesAt_withoutNulls _ _ (by decide),
      any_withoutNulls _ fun block => otherTypeOf_withoutNulls _ block _]
  | openAIResponses =>
    simp only [unsupportedOf]
    rw [entriesAt_withoutNulls _ _ (by decide), any_withoutNulls _ (foreignItem_withoutNulls _)]

theorem any_isSome_lookup (parts : List Json) (key : Bytes) :
    (parts.any fun part => (part.lookup key).isSome) =
      (parts.any (nullAt · key) || parts.any (presentAt · key)) := by
  simp only [isSome_lookup]
  exact any_or _ _ _

theorem finishReasonOf_gemini_withoutNulls : finishReasonOf .gemini (withoutNulls under doc) =
      if hollowCall doc then .stop else finishReasonOf .gemini doc := by
  have hp : ∀ reason, geminiReason
      ((candidatePartsOf (firstAt doc "candidates")).map (withoutNulls "parts")) reason =
      if reason == "STOP" then
        if (candidatePartsOf (firstAt doc "candidates")).any (presentAt · "functionCall") then
          .toolCalls
        else .stop
      else geminiReason (candidatePartsOf (firstAt doc "candidates")) reason := by
    intro reason
    unfold geminiReason
    rw [any_withoutNulls _ fun part => presentAt_withoutNulls _ part _]
    cases reason == "STOP" <;> rfl
  simp only [finishReasonOf, ← candidatePartsOf.eq_def]
  rw [firstAt_withoutNulls _ _ (by decide), textAt_withoutNulls, candidatePartsOf_withoutNulls]
  unfold hollowCall
  cases textAt (firstAt doc "candidates") "finishReason" with
  | none => rfl
  | some reason =>
    simp only [map_some, getD_some, hp, some_beq_some]
    by_cases hs : (reason == ascii "STOP")
    · unfold geminiReason
      simp only [any_isSome_lookup, hs]
      cases (candidatePartsOf (firstAt doc "candidates")).any (presentAt · "functionCall") <;>
        cases (candidatePartsOf (firstAt doc "candidates")).any (nullAt · "functionCall") <;> rfl
    · simp [hs]

theorem finishReasonOf_withoutNulls {source : Format} (hg : source ≠ .gemini) :
    finishReasonOf source (withoutNulls under doc) = finishReasonOf source doc := by
  cases source with
  | openAIChatCompletions =>
    simp only [finishReasonOf]
    rw [firstAt_withoutNulls _ _ (by decide), textAt_withoutNulls]
  | anthropic => simp only [finishReasonOf, textAt_withoutNulls]
  | gemini => exact absurd rfl hg
  | openAIResponses =>
    have hr : responsesReason (entriesAt (withoutNulls under doc) "output") =
        responsesReason (entriesAt doc "output") := by
      funext status
      unfold responsesReason
      rw [entriesAt_withoutNulls _ _ (by decide), any_withoutNulls _ fun item => by
        rw [textAt_withoutNulls]]
    simp only [finishReasonOf, textAt_withoutNulls, hr]

theorem of_hollowCall (h : hollowCall doc) (rj : RapidJson) :
    callsOf rj .gemini doc = [] ∧ finishReasonOf .gemini doc = .toolCalls := by
  simp only [hollowCall, Bool.and_eq_true, beq_iff_eq, Bool.not_eq_true'] at h
  obtain ⟨hs, hn, hp⟩ := h
  constructor
  · simp only [callsOf, ← candidatePartsOf.eq_def]
    have hno :
        (candidatePartsOf (firstAt doc "candidates")).filterMap (geminiCallOf rj) = [] := by
      rw [filterMap_eq_nil_iff]
      intro part hpa
      have ha := List.any_eq_false.1 hp part hpa
      unfold geminiCallOf valueAt
      unfold presentAt at ha
      cases hv : part.lookup "functionCall" with
      | none => rfl
      | some v =>
        rw [hv] at ha
        cases v <;> first | rfl | exact absurd rfl ha
    rw [hno]; rfl
  · simp only [finishReasonOf, ← candidatePartsOf.eq_def, hs, map_some,
      getD_some, geminiReason, any_isSome_lookup, hn]
    rfl

end

section

variable (rj : RapidJson) {source target : Format} (model under : Bytes) (doc : Json)

theorem convertedDocument_withoutNulls
    (h : (partsOf rj source target model (withoutNulls under doc)).finish =
      (partsOf rj source target model doc).finish) :
    convertedDocument rj source target model (withoutNulls under doc) =
      convertedDocument rj source target model doc := by
  have hp : partsOf rj source target model (withoutNulls under doc) =
      partsOf rj source target model doc := by
    have hid : responseIdOf (withoutNulls under doc) target = responseIdOf doc target := by
      simp only [responseIdOf, stringAt_withoutNulls]
    have hm : responseModelOf (withoutNulls under doc) model = responseModelOf doc model := by
      simp only [responseModelOf, stringAt_withoutNulls]
    unfold partsOf
    rw [ResponseParts.mk.injEq]
    exact ⟨hid, hm, responseTextOf_withoutNulls under doc,
      callsOf_withoutNulls rj under doc source, h⟩
  rw [convertedDocument, hp, usageOf_withoutNulls]
  rfl

theorem convertedDocument_withoutNulls_of_ne_gemini (h : source ≠ .gemini) :
    convertedDocument rj source target model (withoutNulls under doc) =
      convertedDocument rj source target model doc := by
  refine convertedDocument_withoutNulls rj model under doc ?_
  simp only [partsOf, callsOf_withoutNulls, finishReasonOf_withoutNulls under doc h]

theorem convertedDocument_gemini_withoutNulls_iff (hne : target ≠ .gemini) :
    convertedDocument rj .gemini target model (withoutNulls under doc) =
        convertedDocument rj .gemini target model doc ↔
      (hollowCall doc && target != .openAIResponses) = false := by
  cases hh : hollowCall doc with
  | false =>
    refine iff_of_true (convertedDocument_withoutNulls rj model under doc ?_) rfl
    simp only [partsOf, callsOf_withoutNulls, finishReasonOf_gemini_withoutNulls, hh]
    rfl
  | true =>
    obtain ⟨hc, hre⟩ := of_hollowCall doc hh rj
    have hre' : finishReasonOf .gemini (withoutNulls under doc) = .stop := by
      rw [finishReasonOf_gemini_withoutNulls, hh]; rfl
    have hcall : answersWithCall .gemini doc = false := by
      have he := isEmpty_callsOf rj .gemini doc
      rw [hc] at he
      simpa using he
    have hc' : answersWithCall .gemini (withoutNulls under doc) = false := by
      have he := isEmpty_callsOf rj .gemini (withoutNulls under doc)
      rw [callsOf_withoutNulls, hc] at he
      simpa using he
    have hr := finishReasonOf_converted rj .gemini target model doc
    have hr' := finishReasonOf_converted rj .gemini target model (withoutNulls under doc)
    rw [hcall, hre] at hr
    rw [hc', hre'] at hr'
    cases target with
    | gemini => exact absurd rfl hne
    | openAIResponses =>
      refine iff_of_true (convertedDocument_withoutNulls rj model under doc ?_) rfl
      simp only [partsOf, callsOf_withoutNulls, hc, hre, hre']; rfl
    | openAIChatCompletions =>
      refine iff_of_false (fun hs => ?_) (by decide)
      rw [hs, hr] at hr'
      cases hr'
    | anthropic =>
      refine iff_of_false (fun hs => ?_) (by decide)
      rw [hs, hr] at hr'
      cases hr'

theorem convertedBody_eq_iff {rj : RapidJson} (hrj : Lawful rj) {doc doc' : Json}
    (ho : doc'.isObject = doc.isObject) :
    convertedBody rj source target model doc' = convertedBody rj source target model doc ↔
      (doc.isObject → unsupportedOf doc' source = unsupportedOf doc source ∧
        (unsupportedOf doc source = false → convertedDocument rj source target model doc' =
            convertedDocument rj source target model doc)) := by
  have hi : ∀ a b, rj.write a = rj.write b ↔ a = b := by
    intro a b
    refine ⟨fun h => ?_, fun h => by rw [h]⟩
    have hp := hrj.parse_write a
    rw [h, hrj.parse_write, some.injEq] at hp; exact hp.symm
  unfold convertedBody
  rw [ho]
  cases doc.isObject <;> cases unsupportedOf doc' source <;> cases unsupportedOf doc source <;>
    simp [hi]

theorem nullDecides_of_not_object {doc : Json} (h : doc.isObject = false) :
    nullDecides source target doc = false := by
  have he : ∀ key, entriesAt doc key = [] := entriesAt_of_not_object h
  have hf : ∀ key, firstAt doc key = .null := by
    intro key
    rw [firstAt, he]; rfl
  unfold nullDecides firstMessage hollowCall
  simp only [hf, he]
  cases source <;> simp [nullAt, textAt]

theorem convertedBody_withoutNulls_iff {rj : RapidJson} (hrj : Lawful rj) (hne : source ≠ target) :
    convertedBody rj source target model (withoutNulls under doc) =
        convertedBody rj source target model doc ↔ nullDecides source target doc = false := by
  rw [convertedBody_eq_iff model hrj (isObject_withoutNulls under doc)]
  cases ho : doc.isObject with
  | false => exact iff_of_true (fun h => by cases h) (nullDecides_of_not_object ho)
  | true =>
    simp only [forall_const]
    cases source with
    | openAIChatCompletions =>
      have hs : convertedDocument rj .openAIChatCompletions target model
            (withoutNulls under doc) =
          convertedDocument rj .openAIChatCompletions target model doc :=
        convertedDocument_withoutNulls_of_ne_gemini rj model under doc (by decide)
      have he := nullAt_and_presentAt (firstMessage doc) "refusal"
      rw [unsupportedOf_openAI_withoutNulls]
      simp only [hs, implies_true, and_true, unsupportedOf, nullDecides, isSome_lookup]
      by_cases hm : (entriesAt doc "choices").length > 1
      · have hle : ¬ (entriesAt doc "choices").length ≤ 1 := by omega
        simp [hm, hle]
      · have hle : (entriesAt doc "choices").length ≤ 1 := by omega
        revert he
        simp only [hm, hle]
        cases nullAt (firstMessage doc) "refusal" <;>
          cases presentAt (firstMessage doc) "refusal" <;>
          cases foreignContent (firstMessage doc) <;> simp
    | anthropic =>
      refine iff_of_true ⟨unsupportedOf_withoutNulls under doc (by decide) (by decide), fun _ => ?_⟩
        rfl
      exact convertedDocument_withoutNulls_of_ne_gemini rj model under doc (by decide)
    | openAIResponses =>
      refine iff_of_true ⟨unsupportedOf_withoutNulls under doc (by decide) (by decide), fun _ => ?_⟩
        rfl
      exact convertedDocument_withoutNulls_of_ne_gemini rj model under doc (by decide)
    | gemini =>
      rw [unsupportedOf_gemini_withoutNulls,
        convertedDocument_gemini_withoutNulls_iff rj model under doc (Ne.symm hne)]
      simp only [nullDecides]
      cases unsupportedOf doc .gemini <;> simp

end

end Gateway.Protocol.Converter
