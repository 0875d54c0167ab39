import Gateway.Protocol.ReadingItems

/-! # Which requests the parsers read safely -/

namespace Gateway.Protocol

open Lib Json

theorem addResultPart_safe_iff (acc : Bytes × Bool) (sub : Json) :
    Safe (addResultPart acc sub) ↔ resultPartOk sub := by
  unfold addResultPart resultPartOk stringAt
  cases h : sub.isObject with
  | false => simp
  | true =>
    simp only [getStr_of_object h, hasMember_of_object h, ok_bind, pure_eq_ok, ok_and_ok]
    cases htype : ((sub.lookup "type").bind string?).getD [] == ascii "text" with
    | false => simp
    | true =>
      cases ht : sub.lookup "text" with
      | none => simp
      | some v => rw [member_of_lookup h ht]; simp [safe_bind_iff_of_safe, safe_getString_iff]

theorem toolResultBlock_safe_iff {block : Json} (h : block.isObject) (unsupported : Bool) :
    Safe (toolResultBlock block unsupported) ↔ (entriesAt block "content").all resultPartOk := by
  have ht : Safe (toolResultText block unsupported) ↔
      (entriesAt block "content").all resultPartOk := by
    unfold toolResultText entriesAt
    rw [hasMember_of_object h]
    cases hc : block.lookup "content" with
    | none => simp
    | some v =>
      rw [member_of_lookup h hc]
      cases v with
      | array subs =>
        simpa [array?] using safe_foldlM_iff (fun sub _ acc => addResultPart_safe_iff acc sub)
          ([], unsupported)
      | _ => simp [array?]
  unfold toolResultBlock
  rw [getStr_of_object h, ok_bind, safe_bind_iff_of_safe fun _ => safe_pure _]
  exact ht

section

variable {σ : Type}

theorem contentPart_safe_iff (rj : RapidJson) (part : Json) (unsupported : Bool) (acc foreign : σ)
    (text : Bytes → σ) (use : ContentBlock → σ) (result : ContentBlock × Bool → σ) :
    Safe (do
      if !part.isObject then
        return acc
      let type ← part.getStr "type"
      if type == "text" then
        return text (← part.getStr "text")
      else if type == "tool_use" then
        return use (← toolUseBlock rj part)
      else if type == "tool_result" then
        return result (← toolResultBlock part unsupported)
      else
        return foreign : Access σ) ↔ contentPartOk part := by
  unfold contentPartOk stringAt
  cases h : part.isObject with
  | false => simp
  | true =>
    simp only [getStr_of_object h, ok_bind]
    generalize ((part.lookup "type").bind string?).getD [] = type
    by_cases hr : type = ascii "tool_result"
    · subst hr
      simp [show (ascii "tool_result" == ascii "text") = false from rfl,
        show (ascii "tool_result" == ascii "tool_use") = false from rfl,
        safe_bind_iff_of_safe, toolResultBlock_safe_iff h]
    · have hother : (type == ascii "tool_result") = false := by simpa using hr
      simp only [hother, Bool.not_true, Bool.false_eq_true, if_false, Bool.and_false,
        Bool.not_false, Bool.true_or, iff_true]
      refine Safe.ite (fun _ => safe_ok _) fun _ => Safe.ite (fun _ => ?_) fun _ => safe_ok _
      rw [toolUseBlock_eq rj h]; exact safe_ok _

theorem content_safe_iff {read : Json → σ → Access σ} {add : σ → Json → Access σ}
    (harray : ∀ parts acc, read (.array parts) acc = parts.foldlM add acc)
    (hother : ∀ content acc, content.array? = none → Safe (read content acc))
    (hadd : ∀ acc part, Safe (add acc part) ↔ contentPartOk part) (content : Json) (acc : σ) :
    Safe (read content acc) ↔ (content.array?.getD []).all contentPartOk := by
  cases content with
  | array parts =>
    rw [harray]
    simpa [array?] using safe_foldlM_iff (fun part _ acc => hadd acc part) acc
  | _ => simpa [array?] using hother _ acc rfl

end

namespace Anthropic

variable (rj : RapidJson)

theorem addContentBlock_safe_iff (acc : Message × Bool) (block : Json) :
    Safe (addContentBlock rj acc block) ↔ contentPartOk block := by
  obtain ⟨msg, unsupported⟩ := acc
  exact contentPart_safe_iff rj block unsupported _ _ (fun text => (msg.addText text, unsupported))
    (fun b => ({ msg with
      content := msg.content ++ [b]
      toolCalls := msg.toolCalls ++
        [{ id := b.toolCallId, name := b.toolName, arguments := b.toolArguments }] }, unsupported))
    fun r => ({ msg with content := msg.content ++ [r.1], toolCallId := r.1.toolCallId }, r.2)

theorem extractContent_safe_iff (content : Json) (acc : Message × Bool) :
    Safe (extractContent rj content acc) ↔ ((content.array?).getD []).all contentPartOk := by
  refine content_safe_iff (fun _ _ => rfl) (fun content acc h => ?_) (addContentBlock_safe_iff rj)
    content acc
  cases content <;> first | exact safe_ok _ | cases h

theorem addMessage_safe_iff (req : ChatRequest) (m : Json) :
    Safe (addMessage rj req m) ↔ messageOk m := by
  unfold addMessage messageOk entriesAt
  cases h : m.isObject with
  | false => simp
  | true =>
    simp only [getStr_of_object h, hasMember_of_object h, ok_bind]
    cases hc : m.lookup "content" with
    | none => simp
    | some content => simp [member_of_lookup h hc, safe_bind_iff_of_safe, extractContent_safe_iff]

theorem readRequest_safe_iff {doc : Json} (h : doc.isObject) :
    Safe (readRequest rj doc) ↔ requestOk .anthropic doc := by
  refine ⟨fun hs => ?_, fun hok => ⟨_, readRequest_eq rj h hok⟩⟩
  unfold readRequest at hs
  simp only [memberAs_of_object h, getStr_eq h, systemText_eq h, stringArray_eq h,
    metadataUserId_eq h, ok_bind] at hs
  obtain ⟨req, hl, -⟩ := safe_bind_iff.1 hs
  exact List.all_eq_true.2
    ((safe_foldlM_iff (fun m _ req => addMessage_safe_iff rj req m) _).1 ⟨req, hl⟩)

end Anthropic

namespace OpenAI

variable (rj : RapidJson)

theorem addContentPart_safe_iff (acc : Message × Bool) (part : Json) :
    Safe (addContentPart rj acc part) ↔ contentPartOk part := by
  obtain ⟨msg, unsupported⟩ := acc
  exact contentPart_safe_iff rj part unsupported _ _ (fun text => (msg.addText text, unsupported))
    (fun b => ({ msg with content := msg.content ++ [b] }, unsupported))
    fun r => ({ msg with content := msg.content ++ [r.1] }, r.2)

theorem extractContentBlocks_safe_iff (content : Json) (acc : Message × Bool) :
    Safe (extractContentBlocks rj content acc) ↔ ((content.array?).getD []).all contentPartOk := by
  refine content_safe_iff (fun _ _ => rfl) (fun content acc h => ?_) (addContentPart_safe_iff rj)
    content acc
  cases content <;> first | exact safe_ok _ | cases h

theorem addMessage_safe_iff (req : ChatRequest) (m : Json) :
    Safe (addMessage rj req m) ↔ openAIMessageOk m := by
  unfold addMessage openAIMessageOk messageOk entriesAt stringAt
  cases h : m.isObject with
  | false => simp
  | true =>
    simp only [getStr_of_object h, hasMember_of_object h, memberAs_of_object h, ok_bind]
    generalize ((m.lookup "role").bind string?).getD [] = role
    have hcalls : ∀ calls, Safe ((((m.lookup "tool_calls").bind array?).getD []).foldlM
        addToolCall calls) := fun calls =>
      ⟨_, foldlM_append (fun tc _ calls => addToolCall_eq calls tc) calls⟩
    cases hr : role == ascii "system" || role == ascii "developer" with
    | true =>
      simp only [Bool.not_true, Bool.false_eq_true, if_false, if_true, Bool.true_or, iff_true]
      cases hc : m.lookup "content" with
      | none => exact safe_ok _
      | some content => rw [member_of_lookup h hc]; rw [ok_bind, systemText_eq]; exact safe_ok _
    | false =>
      simp only [Bool.not_true, Bool.false_eq_true, if_false, Bool.false_or]
      cases hc : m.lookup "content" with
      | none => simpa using (hcalls []).bind fun _ => safe_ok _
      | some content =>
        rw [member_of_lookup h hc]
        simp only [Option.isSome_some, if_true, ok_bind, Option.bind_some]
        refine (safe_bind_iff_of_safe fun _ => ?_).trans (extractContentBlocks_safe_iff rj content
          _)
        exact (hcalls []).bind fun _ => safe_pure _

theorem readRequest_safe_iff {doc : Json} (h : doc.isObject) :
    Safe (readRequest rj doc) ↔ requestOk .openAIChatCompletions doc := by
  refine ⟨fun hs => ?_, fun hok => ⟨_, readRequest_eq rj h hok⟩⟩
  unfold readRequest at hs
  simp only [memberAs_of_object h, getStr_eq h, tokenLimit_eq h, stopSequences_eq h,
    ok_bind] at hs
  obtain ⟨req, hl, -⟩ := safe_bind_iff.1 hs
  exact List.all_eq_true.2
    ((safe_foldlM_iff (fun m _ req => addMessage_safe_iff rj req m) _).1 ⟨req, hl⟩)

end OpenAI

end Gateway.Protocol
