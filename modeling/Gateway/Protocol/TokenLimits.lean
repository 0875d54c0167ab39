import Gateway.Protocol.TargetGrammar

/-! # Token limits of converted requests -/

namespace Gateway.Protocol

open Lib Json JsonText Converter Option

def limitKeys : Format → List Bytes
  | .anthropic => ["max_tokens"]
  | .openAIChatCompletions => ["max_tokens", "max_completion_tokens"]
  | .openAIResponses => ["max_output_tokens", "max_tokens"]
  | .gemini => ["maxOutputTokens"]

def limitHolder (format : Format) (doc : Json) : Json :=
  match format with
  | .gemini => valueAt doc "generationConfig"
  | _ => doc

def limitMembers (format : Format) (doc : Json) : List Json :=
  (limitKeys format).filterMap (limitHolder format doc).lookup

def givenLimits (format : Format) (doc : Json) : List Int :=
  (limitMembers format doc).filterMap int?

structure LimitKept (source target : Format) (doc written : Json) : Prop where
  absent : target ≠ .anthropic → limitMembers source doc = [] → limitMembers target written = []
  carried : ∀ n ∈ givenLimits source doc, 0 < n → limitMembers target written = [.int n]

theorem head_givenLimits_cons (ho : Json) (key : Bytes) (keys : List Bytes) (d : Int) :
    (((key :: keys).filterMap ho.lookup).filterMap int?).head?.getD d =
      ((ho.lookup key).bind int?).getD
        (((keys.filterMap ho.lookup).filterMap int?).head?.getD d) := by
  cases hv : ho.lookup key with
  | none => simp [hv]
  | some v => cases hn : v.int? <;> simp [hv, hn]

theorem tokenLimitOf_eq (source : Format) (doc : Json) :
    tokenLimitOf source doc = (givenLimits source doc).head?.getD 4096 := by
  unfold givenLimits limitMembers
  cases source <;> simp only [limitKeys, head_givenLimits_cons] <;> rfl

def writtenLimits (target : Format) (maxTokens : Int) : List Json :=
  if 0 < maxTokens then [.int maxTokens] else if target = .anthropic then [.int 4096] else []

theorem limitMembers_requestValue (rj : RapidJson) (target : Format) (req : ChatRequest) :
    limitMembers target (requestValue rj target req) = writtenLimits target req.maxTokens := by
  unfold limitMembers writtenLimits
  cases target with
  | anthropic =>
    have hl : (requestValue rj .anthropic req).lookup "max_tokens" =
        some (.int (if req.maxTokens > 0 then req.maxTokens else 4096)) := by
      simp +decide [requestValue, Anthropic.requestValue]
    by_cases hp : 0 < req.maxTokens <;> simp [limitKeys, limitHolder, hl, hp]
  | openAIChatCompletions =>
    have hl : (requestValue rj .openAIChatCompletions req).lookup "max_tokens" =
        if 0 < req.maxTokens then some (.int req.maxTokens) else none := by
      simp +decide [requestValue, OpenAI.requestValue]
    have ho : (requestValue rj .openAIChatCompletions req).lookup
        "max_completion_tokens" = none := by
      simp +decide [requestValue, OpenAI.requestValue]
    by_cases hp : 0 < req.maxTokens <;> simp [limitKeys, limitHolder, hl, ho, hp]
  | openAIResponses =>
    have hl : (requestValue rj .openAIResponses req).lookup "max_output_tokens" =
        if 0 < req.maxTokens then some (.int req.maxTokens) else none := by
      simp +decide [requestValue, OpenAIResponses.requestValue]
    have ho : (requestValue rj .openAIResponses req).lookup "max_tokens" = none := by
      simp +decide [requestValue, OpenAIResponses.requestValue]
    by_cases hp : 0 < req.maxTokens <;> simp [limitKeys, limitHolder, hl, ho, hp]
  | gemini =>
    have hl : (valueAt (requestValue rj .gemini req) "generationConfig").lookup
        "maxOutputTokens" = if 0 < req.maxTokens then some (.int req.maxTokens) else none := by
      rw [requestValue, Gemini.lookup_generationConfig]
      simp +decide [Gemini.configValue]
    by_cases hp : 0 < req.maxTokens <;> simp [limitKeys, limitHolder, hl, hp]

theorem writtenLimits_eq_iff {target : Format} {k n : Int} (hn : 0 < n) :
    writtenLimits target k = [.int n] ↔ k = n ∨ target = .anthropic ∧ n = 4096 ∧ k ≤ 0 := by
  unfold writtenLimits
  by_cases hk : 0 < k
  · rw [if_pos hk]; simp [Int.not_le.2 hk]
  · rw [if_neg hk]
    have hne : k ≠ n := by omega
    by_cases ht : target = .anthropic
    · simp [ht, hne, eq_comm, Int.not_lt.1 hk]
    · simp [ht, hne]

theorem limitMembers_converted {rj : RapidJson} (hrj : Lawful rj) {source target : Format}
    {body m out : Bytes} (hm : source ≠ target ∨ m ≠ [])
    (h : convertRequest rj body source target m = .ok { success := true, body := out }) :
    limitMembers target (documentOf rj out) = writtenLimits target
      ((givenLimits source (documentOf rj body)).head?.getD 4096) := by
  obtain ⟨model, rfl⟩ := convertRequest_cases hm h
  generalize documentOf rj body = doc
  have hw : ∀ req, documentOf rj (serializeRequest rj target req) =
      requestValue rj target req := by
    intro req
    have ho : object? (requestValue rj target req) =
        some (requestValue rj target req) :=
      if_pos (isObject_requestValue rj target req)
    rw [documentOf, serializeRequest_eq, hrj.parse_write, bind_some, ho]; rfl
  rw [hw, limitMembers_requestValue, ← tokenLimitOf_eq, ← maxTokens_requestOf rj]

theorem limit_kept_iff {rj : RapidJson} (hrj : Lawful rj) {source target : Format}
    {body m out : Bytes} (hm : source ≠ target ∨ m ≠ [])
    (h : convertRequest rj body source target m = .ok { success := true, body := out }) :
    LimitKept source target (documentOf rj body) (documentOf rj out) ↔
      (target = .anthropic ∨ limitMembers source (documentOf rj body) ≠ []) ∧
      ∀ n ∈ givenLimits source (documentOf rj body), 0 < n →
        (givenLimits source (documentOf rj body)).head? = some n ∨
          target = .anthropic ∧ n = 4096 ∧
            ∀ k ∈ (givenLimits source (documentOf rj body)).head?, k ≤ 0 := by
  have hwritten := limitMembers_converted hrj hm h
  generalize documentOf rj out = written at hwritten ⊢
  generalize documentOf rj body = doc at hwritten ⊢
  have hhead : ∀ n ∈ givenLimits source doc, ∃ k, (givenLimits source doc).head? = some k := by
    intro n hn
    cases hgiven : givenLimits source doc with
    | nil => rw [hgiven] at hn; cases hn
    | cons k ks => exact ⟨k, rfl⟩
  constructor
  · rintro ⟨habsent, hcarried⟩
    constructor
    · by_contra hnone
      rw [not_or, not_not] at hnone
      have hempty := habsent hnone.1 hnone.2
      rw [hwritten, givenLimits, hnone.2] at hempty; cases hempty
    · intro n hn hpos
      obtain ⟨k, hk⟩ := hhead n hn
      have hsame := hcarried n hn hpos
      rw [hwritten, hk, getD_some, writtenLimits_eq_iff hpos] at hsame
      rw [hk]
      rcases hsame with rfl | ⟨htarget, hfour, hle⟩
      · exact .inl rfl
      · refine .inr ⟨htarget, hfour, ?_⟩
        rintro k' ⟨⟩; exact hle
  · rintro ⟨hgives, hfirst⟩
    constructor
    · intro htarget hnone
      rcases hgives with h | h
      · exact absurd h htarget
      · exact absurd hnone h
    · intro n hn hpos
      obtain ⟨k, hk⟩ := hhead n hn
      rw [hwritten, hk, getD_some, writtenLimits_eq_iff hpos]
      have hcase := hfirst n hn hpos
      rw [hk] at hcase
      rcases hcase with hsame | ⟨htarget, hfour, hle⟩
      · exact .inl (some.inj hsame)
      · exact .inr ⟨htarget, hfour, hle k rfl⟩

def limitedQuestion (limits : List (Bytes × Json)) : Json :=
  .object (("model", .str "gpt-4o") :: ("messages", .array [.object [
    ("role", .str "user"), ("content", .str "Who wrote Candide?")]]) :: limits)

theorem documentOf_write {doc : Json} (h : doc.isObject) :
    documentOf compact (compact.write doc) = doc := by
  rw [documentOf, lawful_compact.parse_write, bind_some, object?, if_pos h]
  rfl

theorem limitedQuestion_converted (limits : List (Bytes × Json)) : ∃ out, convertRequest compact
        (compact.write (limitedQuestion limits)) .openAIChatCompletions .gemini
        "gemini-pro" = .ok { success := true, body := out } := by
  have hr : Format.gemini = .openAIChatCompletions ∨ Format.gemini = .openAIResponses →
      NoSystemRoles (requestOf compact .openAIChatCompletions
        (limitedQuestion limits)).messages := by
    rintro (h | h) <;> cases h
  obtain ⟨out, ho, -⟩ := convertRequest_reread lawful_compact .gemini
    (lawful_compact.parse_write (limitedQuestion limits)) rfl rfl rfl hr (.inl (by decide))
  exact ⟨out, ho⟩

theorem alias_limit_kept : ∃ out, convertRequest compact (compact.write
        (limitedQuestion [("max_completion_tokens", .int 256)])) .openAIChatCompletions .gemini
        "gemini-pro" = .ok { success := true, body := out } ∧
      LimitKept .openAIChatCompletions .gemini (documentOf compact
        (compact.write (limitedQuestion [("max_completion_tokens", .int 256)])))
        (documentOf compact out) := by
  obtain ⟨out, hout⟩ := limitedQuestion_converted [("max_completion_tokens", .int 256)]
  refine ⟨out, hout, (limit_kept_iff lawful_compact (.inl (by decide)) hout).2 ?_⟩
  rw [documentOf_write rfl]
  refine ⟨.inr (by decide), ?_⟩
  decide

theorem limit_invented : ∃ out, convertRequest compact (compact.write (limitedQuestion []))
        .openAIChatCompletions .gemini "gemini-pro" = .ok { success := true, body := out } ∧
      limitMembers .openAIChatCompletions (limitedQuestion []) = [] ∧
      limitMembers .gemini (documentOf compact out) = [.int 4096] := by
  obtain ⟨out, hout⟩ := limitedQuestion_converted []
  refine ⟨out, hout, by decide, ?_⟩
  rw [limitMembers_converted lawful_compact (.inl (by decide)) hout, documentOf_write rfl]
  rfl

end Gateway.Protocol
