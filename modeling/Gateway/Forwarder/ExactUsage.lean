import Mathlib.Order.MinMax
import Gateway.Forwarder.NullAnswers
import Gateway.Forwarder.StreamUsage

/-! # Counts that are passed on as they stand -/

namespace Gateway.Forwarder

open Lib Protocol.Converter Json List Option
open Protocol (Format toInt32 maxInt32)

def OneOf (values : List Int) (counter : Int) : Prop :=
  counter ∈ values ∨ values = [] ∧ counter = 0

def reportedCached (usage : Json) : List Int :=
  reportedDetail usage "prompt_tokens_details" "cached_tokens"
    ++ reportedDetail usage "input_tokens_details" "cached_tokens"

def reportedReasoning (usage : Json) : List Int :=
  reportedDetail usage "output_tokens_details" "reasoning_tokens"

structure ExactUsage (usage : Json) (r : UsageReading) : Prop where
  bounded : ∀ counter ∈ [r.inputTokens, r.outputTokens, r.cacheCreateTokens, r.cacheReadTokens,
    r.reasoningTokens], 0 ≤ counter ∧ counter ≤ maxInt32
  input : OneOf (reported usage inputKeys) r.inputTokens
  output : OneOf (reported usage outputKeys) r.outputTokens
  cacheCreate : OneOf (reported usage cacheCreateKeys) r.cacheCreateTokens
  cacheRead : OneOf (reported usage cacheReadKeys ++ reportedCached usage) r.cacheReadTokens
  cacheReadMax : r.cacheReadTokens =
    raisedTo (firstNonZero (reported usage cacheReadKeys)) (reportedCached usage)
  reasoning : OneOf (reported usage reasoningKeys ++ reportedReasoning usage) r.reasoningTokens
  reasoningMax : r.reasoningTokens =
    raisedTo (firstNonZero (reported usage reasoningKeys)) (reportedReasoning usage)

theorem firstNonZero_oneOf (values : List Int) : OneOf values (firstNonZero values) := by
  unfold firstNonZero
  cases hf : values.find? (· ≠ 0) with
  | some n => exact .inl (mem_of_find?_eq_some hf)
  | none =>
    cases values with
    | nil => exact .inr ⟨rfl, rfl⟩
    | cons v values =>
      have hv : v = 0 := by simpa using find?_eq_none.1 hf v mem_cons_self
      exact .inl (by simp [hv])

theorem raisedTo_mem (counter : Int) (values : List Int) :
    raisedTo counter values = counter ∨ raisedTo counter values ∈ values := by
  induction values generalizing counter with
  | nil => exact .inl rfl
  | cons v values ih =>
    rcases ih (max counter v) with h | h
    · rcases max_choice counter v with hm | hm
      · exact .inl (h.trans hm)
      · exact .inr (mem_cons.2 (.inl (h.trans hm)))
    · exact .inr (mem_cons_of_mem v h)

theorem raisedTo_oneOf {xs ys : List Int} (h : ∀ n ∈ ys, 0 ≤ n) :
    OneOf (xs ++ ys) (raisedTo (firstNonZero xs) ys) := by
  rcases raisedTo_mem (firstNonZero xs) ys with he | hy
  · rw [he]
    rcases firstNonZero_oneOf xs with hm | ⟨rfl, hz⟩
    · exact .inl (mem_append_left _ hm)
    · cases ys with
      | nil => exact .inr ⟨rfl, hz⟩
      | cons y ys =>
        have hle := raisedTo_eq_self_iff.1 he y mem_cons_self
        have hy : y = firstNonZero [] := le_antisymm hle (hz ▸ h y mem_cons_self)
        exact .inl (by simp [← hy])
  · exact .inl (mem_append_right _ hy)

theorem OneOf.bounded {values : List Int} {counter : Int} (h : OneOf values counter)
    (hv : ∀ n ∈ values, 0 ≤ n ∧ n ≤ maxInt32) : 0 ≤ counter ∧ counter ≤ maxInt32 := by
  rcases h with h | ⟨-, rfl⟩
  · exact hv counter h
  · decide

variable {keys : List Bytes} {n : Int}

section
variable {usage : Json} (hv : invalidCounts usage = false)

theorem bounded_of_mem_reported {object : Json}
    (h : ∀ key ∈ keys, ∀ value, object.lookup key = some value → validUsageCount value)
    (hn : n ∈ reported object keys) : 0 ≤ n ∧ n ≤ maxInt32 := by
  obtain ⟨key, hk, hr⟩ := mem_filterMap.1 hn
  obtain ⟨value, hl, hr⟩ := bind_eq_some_iff.1 hr
  obtain ⟨m, rfl, hb⟩ := validUsageCount_iff.1 (h key hk value hl)
  cases hr
  exact hb

include hv

theorem bounded_of_mem_reportedDetail {name field : Bytes} (hn : name ∈ detailsNames)
    (hf : field ∈ detailsFields) (hm : n ∈ reportedDetail usage name field) :
    0 ≤ n ∧ n ≤ maxInt32 := by
  unfold reportedDetail at hm
  cases hd : (usage.lookup name).bind object? with
  | none => simp [hd] at hm
  | some details =>
    obtain ⟨value, hl, ho⟩ := bind_eq_some_iff.1 hd
    obtain ⟨-, rfl⟩ := object?_eq_some.1 ho
    rw [hd] at hm
    refine bounded_of_mem_reported (fun key hk v hlv => ?_) hm
    rw [mem_singleton.1 hk] at hlv; exact validUsageCount_of_details hv hn hf hl hlv

theorem exactUsage_of_valid (rj : RapidJson) : ExactUsage usage (bodyReading rj usage) := by
  have hc := fun keys (hk : keys ⊆ countFields) => counts_eq_reported_of_valid hv hk
  have hb : ∀ keys ⊆ countFields, ∀ n ∈ reported usage keys, 0 ≤ n ∧ n ≤ maxInt32 :=
    fun keys hk n => bounded_of_mem_reported fun key hm _ => validUsageCount_of_lookup hv (hk hm)
  have hd := fun name (hn : name ∈ detailsNames) field (hf : field ∈ detailsFields) =>
    detailCounts_eq_reportedDetail hv hn hf
  have hcb : ∀ n ∈ reportedCached usage, 0 ≤ n ∧ n ≤ maxInt32 := fun n hm =>
    (mem_append.1 hm).elim (bounded_of_mem_reportedDetail hv (by decide) (by decide))
      (bounded_of_mem_reportedDetail hv (by decide) (by decide))
  have hrb : ∀ n ∈ reportedReasoning usage, 0 ≤ n ∧ n ≤ maxInt32 := fun n =>
    bounded_of_mem_reportedDetail hv (by decide) (by decide)
  have hfi := fun keys (hk : keys ⊆ countFields) =>
    ((firstNonZero_oneOf (reported usage keys)).bounded (hb keys hk)).1
  have hre : (bodyReading rj usage).cacheReadTokens =
      raisedTo (firstNonZero (reported usage cacheReadKeys)) (reportedCached usage) := by
    simp only [bodyReading, reportedCached, raisedTo_append]
    rw [hc _ (by decide), raisedTo_detailValues (hfi _ (by decide)),
      raisedTo_detailValues ((hfi _ (by decide)).trans (le_raisedTo _ _)),
      hd _ (by decide) _ (by decide), hd _ (by decide) _ (by decide)]
  have hrea : (bodyReading rj usage).reasoningTokens =
      raisedTo (firstNonZero (reported usage reasoningKeys)) (reportedReasoning usage) := by
    simp only [bodyReading, reportedReasoning]
    rw [hc _ (by decide), raisedTo_detailValues (hfi _ (by decide)),
      hd _ (by decide) _ (by decide)]
  have hdi : ∀ keys ⊆ countFields,
      OneOf (reported usage keys) (firstNonZero (counts usage keys)) := fun keys hk =>
    hc keys hk ▸ firstNonZero_oneOf _
  have hon : OneOf _ (bodyReading rj usage).cacheReadTokens :=
    hre ▸ raisedTo_oneOf fun n hm => (hcb n hm).1
  have htw : OneOf _ (bodyReading rj usage).reasoningTokens :=
    hrea ▸ raisedTo_oneOf fun n hm => (hrb n hm).1
  refine ⟨?_, hdi _ (by decide), hdi _ (by decide), hdi _ (by decide), hon, hre,
    htw, hrea⟩
  simp only [forall_mem_cons, not_mem_nil, false_implies, implies_true, and_true]
  exact ⟨(hdi inputKeys (by decide)).bounded (hb _ (by decide)),
    (hdi outputKeys (by decide)).bounded (hb _ (by decide)),
    (hdi cacheCreateKeys (by decide)).bounded (hb _ (by decide)),
    hon.bounded (forall_mem_append.2 ⟨hb _ (by decide), hcb⟩),
    htw.bounded (forall_mem_append.2 ⟨hb _ (by decide), hrb⟩)⟩

end

theorem parse_usage_exact {rj : RapidJson} {body : Bytes} {document usage : Json}
    {r r' : BodyReading} (hparse : rj.parse body = some document)
    (husage : bodyUsageAt document = some usage) (hread : parseUsage rj body r = .ok r')
    (hvalid : r'.malformedUsage = false) : ExactUsage usage r'.toUsageReading := by
  rw [parseUsage_eq hparse, husage] at hread
  cases hread
  exact exactUsage_of_valid hvalid rj

def aliasedUsage : Json := .object
  [("prompt_tokens", .int 0), ("promptTokenCount", .int 2147483647),
    ("cachedContentTokenCount", .int 7),
    ("prompt_tokens_details", .object [("cached_tokens", .int 5)])]

def aliasedDocument : Json := .object [("usage", aliasedUsage)]

theorem parse_usage_exact_aliased : ∃ r',
    parseUsage JsonText.compact (JsonText.compact.write aliasedDocument) {} = .ok r' ∧
      r'.inputTokens = 2147483647 ∧ r'.cacheReadTokens = 7 ∧
      ExactUsage aliasedUsage r'.toUsageReading := by
  have hparse := Protocol.lawful_compact.parse_write aliasedDocument
  have husage : bodyUsageAt aliasedDocument = some aliasedUsage := rfl
  have hread := parseUsage_eq hparse {}
  exact ⟨_, hread, by decide, by decide, parse_usage_exact hparse husage hread (by decide)⟩

inductive HasCount (usage : Json) (keys : List Bytes) : Int → Prop where
  | absent (hall : ∀ key ∈ keys, usage.lookup key = none) : HasCount usage keys 0
  | under (key : Bytes) (n : Int) (hkey : key ∈ keys) (hvalue : usage.lookup key = some (.int n))
      (hrange : -2 ^ 63 ≤ n ∧ n < 2 ^ 63)
      (hother : ∀ other ∈ keys, other ≠ key → usage.lookup other = none) : HasCount usage keys n

def clampToInt (n : Int) : Int := min maxInt32 (max 0 n)

def usageNames : Format → Bytes × Bytes × Bytes × Option Bytes
  | .openAIChatCompletions =>
    ("usage", "prompt_tokens", "completion_tokens", some (ascii "total_tokens"))
  | .openAIResponses => ("usage", "input_tokens", "output_tokens", some (ascii "total_tokens"))
  | .anthropic => ("usage", "input_tokens", "output_tokens", none)
  | .gemini => ("usageMetadata", "promptTokenCount", "candidatesTokenCount",
      some (ascii "totalTokenCount"))

def AddsUp (document : Json) (target : Format) (input output : Int) : Prop :=
  let (name, inputName, outputName, totalName) := usageNames target
  ∃ usage, addConvertedUsage document target = .ok [(name, usage)] ∧
    usage.lookup inputName = some (.int (clampToInt input)) ∧
    usage.lookup outputName = some (.int (clampToInt output)) ∧
    ∀ total ∈ totalName, usage.lookup total = some (.int (clampToInt input + clampToInt output))

theorem clampedCount_int (h : -2 ^ 63 ≤ n ∧ n < 2 ^ 63) :
    clampedCount (.int n) = some (clampToInt n) := by
  have hm : maxInt32 = 2147483647 := rfl
  simp only [clampedCount, clampToInt, isInt, isInt64, getInteger, h,
    and_self, decide_true, ↓reduceIte, decide_eq_true_eq]
  split_ifs <;> grind

theorem countAt_of_hasCount {usage : Json} (h : HasCount usage keys n) :
    countAt usage keys = clampToInt n := by
  unfold countAt
  cases h with
  | absent hal =>
    have hn : (keys.findSome? fun key => (usage.lookup key).bind clampedCount) = none :=
      findSome?_eq_none_iff.2 fun key hk => by rw [hal key hk]; rfl
    rw [hn]; rfl
  | under key n hke hvalue hra hot =>
    have hs : (keys.findSome? fun key => (usage.lookup key).bind clampedCount) =
        some (clampToInt n) := by
      induction keys with
      | nil => cases hke
      | cons k keys ih =>
        by_cases hk : k = key
        · simp [hk, hvalue, clampedCount_int hra]
        · rw [findSome?_cons, hot k mem_cons_self hk]
          exact ih ((mem_cons.1 hke).resolve_left (Ne.symm hk))
            fun other ho => hot other (mem_cons_of_mem k ho)
    rw [hs]; rfl

theorem toInt32_add_clamped (a b : Int) : toInt32 (clampToInt a + clampToInt b) =
    clampToInt a + clampToInt b ↔ clampToInt a + clampToInt b ≤ maxInt32 := by
  have hm : maxInt32 = 2147483647 := rfl
  have hb : ∀ n, 0 ≤ clampToInt n ∧ clampToInt n ≤ maxInt32 := fun n => by
    simp only [clampToInt]; omega
  have ha := hb a
  have hb := hb b
  simp only [toInt32, Int.bmod]
  omega

theorem lookup_usageMember (target : Format) (input output cacheCreate cacheRead : Int) :
    let (name, inputName, outputName, totalName) := usageNames target
    let written := usageMember target (input, output, cacheCreate, cacheRead)
    written.1 = name ∧ written.2.lookup inputName = some (.int input) ∧
      written.2.lookup outputName = some (.int output) ∧
      ∀ total ∈ totalName, written.2.lookup total = some (.int (toInt32 (input + output))) := by
  cases target <;> refine ⟨rfl, rfl, rfl, ?_⟩ <;> rintro total ⟨⟩ <;> rfl

theorem converted_usage_adds_up_iff {document usage : Json}
    (husage : usageObject document = some usage) {input output : Int}
    (hinput : HasCount usage inputKeys input) (houtput : HasCount usage outputKeys output)
    (target : Format) : AddsUp document target input output ↔
      target = .anthropic ∨ clampToInt input + clampToInt output ≤ maxInt32 := by
  have hobject : document.isObject := by
    by_contra h
    simp [usageObject, Gateway.Protocol.lookup_of_not_object (by simpa using h)] at husage
  have hin : inputCount usage = clampToInt input := countAt_of_hasCount hinput
  have hout : outputCount usage = clampToInt output := countAt_of_hasCount houtput
  have hwritten :
      addConvertedUsage document target = .ok [usageMember target (countsOf usage)] := by
    rw [addConvertedUsage_eq hobject, usageOf, husage]; rfl
  obtain ⟨hname, hlin, hlout, htotal⟩ := lookup_usageMember target (inputCount usage)
    (outputCount usage) (countsOf usage).2.2.1 (countsOf usage).2.2.2
  rw [← toInt32_add_clamped, ← hin, ← hout]
  unfold AddsUp
  rw [hwritten, ← hin, ← hout]
  constructor
  · rintro ⟨written, hw, -, -, hsum⟩
    cases target with
    | anthropic => exact .inl rfl
    | _ => cases hw; exact .inr (int.inj (some.inj ((htotal _ rfl).symm.trans (hsum _ rfl))))
  · intro hwhen
    refine ⟨_, congrArg (fun m => Except.ok [m]) (Prod.ext hname rfl), hlin, hlout,
      fun total hm => ?_⟩
    rcases hwhen with rfl | hwhen
    · cases hm
    · exact (htotal total hm).trans (congrArg (fun n => some (int n)) hwhen)

def overflowingDocument : Json := .object
  [("usage", .object [("prompt_tokens", .int 2147483647), ("completion_tokens", .int 1)])]

theorem converted_total_wraps :
    addConvertedUsage overflowingDocument .openAIResponses = .ok [("usage", .object
        [("input_tokens", .int 2147483647), ("output_tokens", .int 1),
          ("total_tokens", .int (-2147483648))])] ∧
      ¬ AddsUp overflowingDocument .openAIResponses 2147483647 1 := by
  have hwritten : addConvertedUsage overflowingDocument .openAIResponses = .ok [("usage", .object
      [("input_tokens", .int 2147483647), ("output_tokens", .int 1),
        ("total_tokens", .int (-2147483648))])] := rfl
  refine ⟨hwritten, ?_⟩
  rintro ⟨usage, hu, -, -, htotal⟩
  rw [hwritten] at hu
  cases hu
  have := htotal "total_tokens" rfl
  cases this

theorem converted_usage_adds_up_small :
    AddsUp (.object [("usage", .object [("prompt_tokens", .int (-3)), ("output_tokens", .int 4)])])
      .gemini (-3) 4 :=
  (converted_usage_adds_up_iff rfl
    (.under "prompt_tokens" (-3) (by decide) rfl (by decide) (by decide))
    (.under "output_tokens" 4 (by decide) rfl (by decide) (by decide)) .gemini).2
    (.inr (by decide))

end Gateway.Forwarder
