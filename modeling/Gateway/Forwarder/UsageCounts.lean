import Mathlib.Data.Int.Order.Basic
import Mathlib.Data.List.DropRight
import Gateway.Protocol.Converter

/-! # Token counts of a provider answer -/

namespace Gateway.Forwarder

open Lib Json
open List hiding after
open Protocol (toInt32 maxInt32)

variable (document : Json) (object : Json) (value : Json) (usage : Json)

structure UsageReading where
  inputTokens : Int := 0
  outputTokens : Int := 0
  cacheCreateTokens : Int := 0
  cacheReadTokens : Int := 0
  reasoningTokens : Int := 0
  malformedUsage : Bool := false
  providerUsageJson : Bytes := []
  deriving DecidableEq

def validUsageCount : Bool :=
  if value.isInt then value.getInteger ≥ 0
  else if value.isInt64 then value.getInteger ≥ 0 ∧ value.getInteger ≤ maxInt32
  else if value.isUint then value.getInteger ≤ maxInt32
  else if value.isUint64 then value.getInteger ≤ maxInt32
  else false

def countFields : List Bytes := [
  "input_tokens", "prompt_tokens", "output_tokens", "completion_tokens",
  "cache_creation_input_tokens", "cache_read_input_tokens",
  "promptTokenCount", "candidatesTokenCount", "cachedContentTokenCount",
  "reasoning_tokens", "thoughtsTokenCount"]

def detailsNames : List Bytes :=
  ["prompt_tokens_details", "input_tokens_details", "output_tokens_details"]

def detailsFields : List Bytes := ["cached_tokens", "reasoning_tokens"]

def hasInvalidCount (field : Bytes) : Access Bool := do
  if ← object.hasMember field then
    return !validUsageCount (← object.member field)
  return false

def hasInvalidDetails (detailsName : Bytes) : Access Bool := do
  if ← usage.hasMember detailsName then
    let details ← usage.member detailsName
    if !details.isObject then
      return true
    return ← detailsFields.anyM (hasInvalidCount details)
  return false

def usageHasInvalidCounts : Access Bool := do
  if ← countFields.anyM (hasInvalidCount usage) then
    return true
  detailsNames.anyM (hasInvalidDetails usage)

def usagePayload (event : Bytes) : Option Bytes :=
  match find "data:" event with
  | none => none
  | some data =>
    let rest := (event.drop (data + 5)).dropWhile fun b => b = 32 ∨ b = 9
    let payload := (rest.takeWhile (· ≠ 10)).rdropWhile (· = 13)
    if payload.isEmpty || payload == "[DONE]" then none else some payload

def nestedUsage (key : Bytes) : Access (Option Json) := do
  match ← document.memberAs key object? with
  | some inner => inner.memberAs "usage" object?
  | none => return none

def topLevelUsage : Access (Option Json) := do
  match ← document.memberAs "usage" object? with
  | some usage => return some usage
  | none => document.memberAs "usageMetadata" object?

def streamUsage : Access (Option Json) := do
  if let some usage ← topLevelUsage document then
    return some usage
  if let some usage ← nestedUsage document "message" then
    return some usage
  nestedUsage document "response"

def integer : Int :=
  if value.isInt then value.getInteger
  else if value.isInt64 then toInt32 value.getInteger
  else 0

def raise (counter : Int) (key : Bytes) : Access Int := do
  if ← object.hasMember key then
    return max counter (integer (← object.member key))
  return counter

def inputKeys : List Bytes := ["input_tokens", "prompt_tokens", "promptTokenCount"]

def outputKeys : List Bytes := ["output_tokens", "completion_tokens", "candidatesTokenCount"]

def cacheCreateKeys : List Bytes := ["cache_creation_input_tokens"]

def cacheReadKeys : List Bytes := ["cache_read_input_tokens", "cachedContentTokenCount"]

def reasoningKeys : List Bytes := ["reasoning_tokens", "thoughtsTokenCount"]

def maxUsageJson : Nat := 1024 * 1024

variable (rj : RapidJson) (counter : Int) (values : List Int)

variable (usage : Json) (object : Json)

def addStreamUsage (r : UsageReading) : Access UsageReading := do
  let malformedUsage ← usageHasInvalidCounts usage
  let inputTokens ← inputKeys.foldlM (raise usage) r.inputTokens
  let outputTokens ← outputKeys.foldlM (raise usage) r.outputTokens
  let cacheCreateTokens ← cacheCreateKeys.foldlM (raise usage) r.cacheCreateTokens
  let cacheReadTokens ← cacheReadKeys.foldlM (raise usage) r.cacheReadTokens
  let mut reasoningTokens ← reasoningKeys.foldlM (raise usage) r.reasoningTokens
  if let some details ← usage.memberAs "output_tokens_details" object? then
    reasoningTokens ← raise details reasoningTokens "reasoning_tokens"
  return {
    inputTokens, outputTokens, cacheCreateTokens, cacheReadTokens, reasoningTokens
    malformedUsage
    providerUsageJson := (rj.write usage).take maxUsageJson }

def extractUsageFromEvent (event : Bytes) (r : UsageReading) :
    Access UsageReading := do
  let some payload := usagePayload event | return r
  let some document := (rj.parse payload).bind object? | return r
  let some usage ← streamUsage document | return r
  addStreamUsage rj usage r

def asInt (key : Bytes) : Access Int := do
  if !object.isObject then
    return 0
  if ← object.hasMember key then
    let value ← object.member key
    if value.isInt then return value.getInteger
    else if value.isInt64 then return toInt32 value.getInteger
    else if value.isUint then return toInt32 value.getInteger
    else return 0
  return 0

def takeIfZero (counter : Int) (key : Bytes) : Access Int := do
  if counter = 0 then
    return ← asInt object key
  return counter

def raiseToDetail (counter : Int) (detailsName field : Bytes) : Access Int := do
  match ← usage.memberAs detailsName object? with
  | some details => return max counter (← asInt details field)
  | none => return counter

def bodyUsage (document : Json) : Access (Option Json) := do
  match ← topLevelUsage document with
  | some usage => return some usage
  | none => nestedUsage document "response"

structure BodyReading extends UsageReading where
  serviceTier : Bytes := []
  deriving DecidableEq

def readBodyUsage : Access UsageReading := do
  let malformedUsage ← usageHasInvalidCounts usage
  let inputTokens ← inputKeys.foldlM (takeIfZero usage) 0
  let outputTokens ← outputKeys.foldlM (takeIfZero usage) 0
  let cacheCreateTokens ← cacheCreateKeys.foldlM (takeIfZero usage) 0
  let cacheReadTokens ← cacheReadKeys.foldlM (takeIfZero usage) 0
  let reasoningTokens ← reasoningKeys.foldlM (takeIfZero usage) 0
  let cacheReadTokens ←
    raiseToDetail usage cacheReadTokens "prompt_tokens_details" "cached_tokens"
  let cacheReadTokens ←
    raiseToDetail usage cacheReadTokens "input_tokens_details" "cached_tokens"
  let reasoningTokens ←
    raiseToDetail usage reasoningTokens "output_tokens_details" "reasoning_tokens"
  return {
    inputTokens, outputTokens, cacheCreateTokens, cacheReadTokens, reasoningTokens
    malformedUsage
    providerUsageJson := (rj.write usage).take maxUsageJson }

def parseUsage (body : Bytes) (r : BodyReading) : Access BodyReading := do
  let some document := (rj.parse body).bind object? | return r
  let some usage ← bodyUsage document | return r
  let reading ← readBodyUsage rj usage
  let tier ← document.memberAs "service_tier" string?
  return { reading with serviceTier := tier.getD r.serviceTier }

def counts (keys : List Bytes) : List Int :=
  keys.filterMap fun key => (object.lookup key).map integer

def detailCounts (detailsName field : Bytes) : List Int :=
  match (usage.lookup detailsName).bind object? with
  | some details => counts details [field]
  | none => []

def invalidAt (field : Bytes) : Bool :=
  (object.lookup field).any fun value => !validUsageCount value

def invalidDetailsAt (detailsName : Bytes) : Bool :=
  (usage.lookup detailsName).any fun details =>
    !details.isObject || detailsFields.any (invalidAt details)

def invalidCounts : Bool :=
  countFields.any (invalidAt usage) || detailsNames.any (invalidDetailsAt usage)

def raisedTo : Int := values.foldl max counter

theorem raisedTo_append (xs ys : List Int) :
    raisedTo counter (xs ++ ys) = raisedTo (raisedTo counter xs) ys :=
  foldl_append

def streamReading (r : UsageReading) : UsageReading where
  inputTokens := raisedTo r.inputTokens (counts usage inputKeys)
  outputTokens := raisedTo r.outputTokens (counts usage outputKeys)
  cacheCreateTokens := raisedTo r.cacheCreateTokens (counts usage cacheCreateKeys)
  cacheReadTokens := raisedTo r.cacheReadTokens (counts usage cacheReadKeys)
  reasoningTokens := raisedTo r.reasoningTokens
    (counts usage reasoningKeys ++ detailCounts usage "output_tokens_details" "reasoning_tokens")
  malformedUsage := invalidCounts usage
  providerUsageJson := (rj.write usage).take maxUsageJson

def firstNonZero : Int := (values.find? (· ≠ 0)).getD 0

theorem firstNonZero_zero_cons : firstNonZero (0 :: values) = firstNonZero values := by
  simp [firstNonZero]

def detailValues (detailsName field : Bytes) : List Int :=
  match (usage.lookup detailsName).bind object? with
  | some details => [((details.lookup field).map integer).getD 0]
  | none => []

def bodyReading : UsageReading where
  inputTokens := firstNonZero (counts usage inputKeys)
  outputTokens := firstNonZero (counts usage outputKeys)
  cacheCreateTokens := firstNonZero (counts usage cacheCreateKeys)
  cacheReadTokens := raisedTo (firstNonZero (counts usage cacheReadKeys))
    (detailValues usage "prompt_tokens_details" "cached_tokens"
      ++ detailValues usage "input_tokens_details" "cached_tokens")
  reasoningTokens := raisedTo (firstNonZero (counts usage reasoningKeys))
    (detailValues usage "output_tokens_details" "reasoning_tokens")
  malformedUsage := invalidCounts usage
  providerUsageJson := (rj.write usage).take maxUsageJson

section

variable {object usage : Json} (ho : object.isObject = true) (hu : usage.isObject = true)

include ho in
theorem hasInvalidCount_of_object (field : Bytes) :
    hasInvalidCount object field = .ok (invalidAt object field) := by
  unfold hasInvalidCount invalidAt
  rw [hasMember_of_object ho, ok_bind]
  cases hv : object.lookup field with
  | none => rfl
  | some v => rw [member_of_lookup ho hv]; rfl

include hu in
theorem hasInvalidDetails_of_object (detailsName : Bytes) :
    hasInvalidDetails usage detailsName = .ok (invalidDetailsAt usage detailsName) := by
  unfold hasInvalidDetails invalidDetailsAt
  rw [hasMember_of_object hu, ok_bind]
  cases hd : usage.lookup detailsName with
  | none => rfl
  | some details =>
    rw [member_of_lookup hu hd]
    cases ho : details.isObject with
    | false => simp [ho]
    | true =>
      have ha := anyM_of_ok fun field (_ : field ∈ detailsFields) =>
        hasInvalidCount_of_object ho field
      simp [ho, ha]

include hu in
theorem usageHasInvalidCounts_of_object :
    usageHasInvalidCounts usage = .ok (invalidCounts usage) := by
  unfold usageHasInvalidCounts invalidCounts
  rw [anyM_of_ok fun field _ => hasInvalidCount_of_object hu field, ok_bind]
  cases countFields.any (invalidAt usage) with
  | true => rfl
  | false => exact anyM_of_ok fun name _ => hasInvalidDetails_of_object hu name

include ho in
theorem raise_of_object (counter : Int) (key : Bytes) :
    raise object counter key = .ok (raisedTo counter (counts object [key])) := by
  unfold raise counts raisedTo
  rw [hasMember_of_object ho, ok_bind]
  cases hv : object.lookup key with
  | none => simp [hv]
  | some v => rw [member_of_lookup ho hv]; simp [hv]

include ho in
theorem foldlM_raise (keys : List Bytes) (counter : Int) :
    keys.foldlM (raise object) counter = .ok (raisedTo counter (counts object keys)) := by
  induction keys generalizing counter with
  | nil => rfl
  | cons key keys ih =>
    rw [foldlM_cons, raise_of_object ho, ok_bind, ih]
    rw [← raisedTo_append, counts, counts, ← filterMap_append]; rfl

include hu in
theorem addStreamUsage_of_object (rj : RapidJson) (r : UsageReading) :
    addStreamUsage rj usage r = .ok (streamReading rj usage r) := by
  unfold addStreamUsage streamReading
  simp only [usageHasInvalidCounts_of_object hu, foldlM_raise hu, memberAs_of_object hu,
    ok_bind]
  unfold detailCounts
  cases hd : (usage.lookup "output_tokens_details").bind object? with
  | none => simp
  | some details =>
    have ho := isObject_of_bind_object? hd
    simp only [raise_of_object ho, raisedTo_append]; rfl

include ho in
theorem asInt_of_object (key : Bytes) :
    asInt object key = .ok (((object.lookup key).map integer).getD 0) := by
  unfold asInt
  rw [hasMember_of_object ho]
  cases hv : object.lookup key with
  | none => simp [ho]
  | some v =>
    rw [member_of_lookup ho hv]
    have hu : v.isInt64 = false → v.isUint = false := by
      cases v <;> simp [isInt64, isUint]
      omega
    unfold integer
    simp only [ho, Option.isSome_some, ok_bind, Option.map_some, Option.getD_some]
    by_cases h1 : v.isInt
    · simp [h1]
    · by_cases h2 : v.isInt64
      · simp [h1, h2]
      · simp [h1, h2, hu (by simpa using h2)]

include ho in
theorem foldlM_takeIfZero (keys : List Bytes) (counter : Int) :
    keys.foldlM (takeIfZero object) counter =
      .ok (firstNonZero (counter :: counts object keys)) := by
  induction keys generalizing counter with
  | nil => by_cases hc : counter = 0 <;> simp [firstNonZero, counts, hc]
  | cons key keys ih =>
    rw [foldlM_cons]
    by_cases hc : counter = 0
    · have hs : takeIfZero object counter key =
          .ok (((object.lookup key).map integer).getD 0) := by
        unfold takeIfZero
        rw [if_pos hc]; exact asInt_of_object ho key
      rw [hs, ok_bind, ih]
      cases hv : object.lookup key <;> simp [firstNonZero, counts, hc, hv]
    · have hs : takeIfZero object counter key = .ok counter := by
        unfold takeIfZero
        rw [if_neg hc]; rfl
      rw [hs, ok_bind, ih]
      simp [firstNonZero, hc]

include hu

theorem raiseToDetail_of_object (counter : Int) (detailsName field : Bytes) :
    raiseToDetail usage counter detailsName field =
      .ok (raisedTo counter (detailValues usage detailsName field)) := by
  unfold raiseToDetail detailValues
  rw [memberAs_of_object hu, ok_bind]
  cases hd : (usage.lookup detailsName).bind object? with
  | none => rfl
  | some details =>
    have ho := isObject_of_bind_object? hd
    simp only [asInt_of_object ho, ok_bind]; rfl

theorem readBodyUsage_of_object (rj : RapidJson) :
    readBodyUsage rj usage = .ok (bodyReading rj usage) := by
  unfold readBodyUsage bodyReading
  simp only [usageHasInvalidCounts_of_object hu, foldlM_takeIfZero hu,
    raiseToDetail_of_object hu, ok_bind, pure_eq_ok, firstNonZero_zero_cons, raisedTo_append]

end

theorem validUsageCount_iff {value : Json} :
    validUsageCount value ↔ ∃ n : Int, value = .int n ∧ 0 ≤ n ∧ n ≤ maxInt32 := by
  cases value with
  | int n =>
    have hm : maxInt32 = 2147483647 := rfl
    have hg : (int n).getInteger = n := rfl
    simp only [validUsageCount, hg, isInt, isInt64, isUint, isUint64,
      decide_eq_true_eq, int.injEq, exists_eq_left']
    split_ifs <;> simp only [decide_eq_true_eq, false_iff] <;> omega
  | _ => simp [validUsageCount, isInt, isInt64, isUint, isUint64]

theorem integer_of_valid {n : Int} (h0 : 0 ≤ n) (h1 : n ≤ maxInt32) : integer (.int n) = n := by
  have : (int n).isInt := by
    simp only [isInt, maxInt32] at h1 ⊢
    simp only [decide_eq_true_eq]; omega
  unfold integer
  rw [if_pos this]
  rfl

section

variable {usage : Json} (hv : invalidCounts usage = false)

include hv

theorem validUsageCount_of_lookup {field : Bytes} (hf : field ∈ countFields) {value : Json}
    (hl : usage.lookup field = some value) : validUsageCount value := by
  have ha := (Bool.or_eq_false_iff.1 hv).1
  have := any_eq_false.1 ha field hf
  simpa [invalidAt, hl] using this

theorem validUsageCount_of_details {name field : Bytes} (hn : name ∈ detailsNames)
    (hf : field ∈ detailsFields) {details value : Json} (hd : usage.lookup name = some details)
    (hl : details.lookup field = some value) : validUsageCount value := by
  have ha := (Bool.or_eq_false_iff.1 hv).2
  have := any_eq_false.1 ha name hn
  simp only [invalidDetailsAt, hd, Option.any_some, Bool.or_eq_true, not_or] at this
  have := any_eq_false.1 (Bool.eq_false_iff.2 this.2) field hf
  simpa [invalidAt, hl] using this

theorem nonneg_of_mem_counts {keys : List Bytes} (hk : keys ⊆ countFields) {n : Int}
    (hn : n ∈ counts usage keys) : 0 ≤ n := by
  obtain ⟨key, hke, hval⟩ := mem_filterMap.1 hn
  obtain ⟨value, hl, rfl⟩ := Option.map_eq_some_iff.1 hval
  obtain ⟨m, rfl, h0, h1⟩ := validUsageCount_iff.1 (validUsageCount_of_lookup hv (hk hke) hl)
  rwa [integer_of_valid h0 h1]

end

variable (document : Json) (object : Json) (usage : Json)

def AtMostOneOf (keys : List Bytes) : Prop :=
  (keys.filter fun key => (object.lookup key).isSome).length ≤ 1

def OneAliasEach : Prop :=
  AtMostOneOf usage inputKeys ∧ AtMostOneOf usage outputKeys ∧ AtMostOneOf usage cacheCreateKeys ∧
    AtMostOneOf usage cacheReadKeys ∧ AtMostOneOf usage reasoningKeys

instance (usage : Json) : Decidable (OneAliasEach usage) := by
  unfold OneAliasEach AtMostOneOf
  infer_instance

def cachedDetails : List Int :=
  detailCounts usage "prompt_tokens_details" "cached_tokens"
    ++ detailCounts usage "input_tokens_details" "cached_tokens"

theorem length_counts (keys : List Bytes) :
    (counts object keys).length = (keys.filter fun key => (object.lookup key).isSome).length := by
  induction keys with
  | nil => rfl
  | cons key keys ih =>
    unfold counts at ih ⊢
    cases hl : object.lookup key <;> simp [hl, ih]

theorem raisedTo_eq_firstNonZero {values : List Int} (hl : values.length ≤ 1)
    (hp : ∀ n ∈ values, 0 ≤ n) : raisedTo 0 values = firstNonZero values := by
  match values, hl with
  | [], _ => rfl
  | [n], _ =>
    have hn : 0 ≤ n := hp n mem_cons_self
    by_cases h0 : n = 0
    · simp [raisedTo, firstNonZero, h0]
    · simp [raisedTo, firstNonZero, h0, max_eq_right hn]

theorem raisedTo_detailValues {counter : Int} (hc : 0 ≤ counter) (usage : Json)
    (name field : Bytes) : raisedTo counter (detailValues usage name field) =
      raisedTo counter (detailCounts usage name field) := by
  unfold detailValues detailCounts counts raisedTo
  cases (usage.lookup name).bind object? with
  | none => rfl
  | some details => cases hl : details.lookup field <;> simp [hl, max_eq_left hc]

theorem le_raisedTo : counter ≤ raisedTo counter values := by
  induction values generalizing counter with
  | nil => exact le_refl _
  | cons n values ih => exact (le_max_left _ _).trans (ih _)

theorem raisedTo_eq_self_iff {counter : Int} {values : List Int} :
    raisedTo counter values = counter ↔ ∀ n ∈ values, n ≤ counter := by
  induction values generalizing counter with
  | nil => simp [raisedTo]
  | cons n values ih =>
    rw [forall_mem_cons]
    constructor
    · intro h
      have hm : max counter n = counter :=
        le_antisymm ((le_raisedTo (max counter n) values).trans_eq h) (le_max_left _ _)
      refine ⟨(le_max_right counter n).trans_eq hm, ih.1 ?_⟩
      rwa [raisedTo, foldl_cons, hm] at h
    · rintro ⟨hn, hr⟩; rw [raisedTo, foldl_cons, max_eq_left hn]; exact ih.2 hr

def nestedUsageAt (key : Bytes) : Option Json :=
  ((document.lookup key).bind object?).bind fun inner => (inner.lookup "usage").bind object?

def topLevelUsageAt : Option Json :=
  ((document.lookup "usage").bind object?).or
    ((document.lookup "usageMetadata").bind object?)

def streamUsageAt : Option Json :=
  (topLevelUsageAt document).or
    ((nestedUsageAt document "message").or (nestedUsageAt document "response"))

def bodyUsageAt : Option Json :=
  (topLevelUsageAt document).or (nestedUsageAt document "response")

section

variable {document : Json} (hd : document.isObject = true)

include hd

theorem nestedUsage_of_object (key : Bytes) :
    nestedUsage document key = .ok (nestedUsageAt document key) := by
  unfold nestedUsage nestedUsageAt
  rw [memberAs_of_object hd, ok_bind]
  cases hi : (document.lookup key).bind object? with
  | none => rfl
  | some inner => exact memberAs_of_object (isObject_of_bind_object? hi) _ _

theorem topLevelUsage_of_object : topLevelUsage document = .ok (topLevelUsageAt document) := by
  unfold topLevelUsage topLevelUsageAt
  rw [memberAs_of_object hd, memberAs_of_object hd, ok_bind]
  cases (document.lookup "usage").bind object? <;> rfl

theorem streamUsage_of_object : streamUsage document = .ok (streamUsageAt document) := by
  unfold streamUsage streamUsageAt
  rw [topLevelUsage_of_object hd, nestedUsage_of_object hd, nestedUsage_of_object hd]
  cases topLevelUsageAt document <;> cases nestedUsageAt document "message" <;> rfl

theorem bodyUsage_of_object : bodyUsage document = .ok (bodyUsageAt document) := by
  unfold bodyUsage bodyUsageAt
  rw [topLevelUsage_of_object hd, nestedUsage_of_object hd]
  cases topLevelUsageAt document <;> rfl

end

variable {document usage : Json}

theorem isObject_of_nestedUsageAt {key : Bytes}
    (h : nestedUsageAt document key = some usage) : usage.isObject := by
  obtain ⟨inner, -, hi⟩ := Option.bind_eq_some_iff.1 h
  exact isObject_of_bind_object? hi

theorem isObject_of_topLevelUsageAt
    (h : topLevelUsageAt document = some usage) : usage.isObject := by
  rcases Option.or_eq_some_iff.1 h with h | ⟨-, h⟩ <;> exact isObject_of_bind_object? h

theorem isObject_of_streamUsageAt (h : streamUsageAt document = some usage) : usage.isObject := by
  rcases Option.or_eq_some_iff.1 h with h | ⟨-, h⟩
  · exact isObject_of_topLevelUsageAt h
  · rcases Option.or_eq_some_iff.1 h with h | ⟨-, h⟩ <;> exact isObject_of_nestedUsageAt h

def eventDocument (event : Bytes) : Option Json :=
  (usagePayload event).bind fun payload => (rj.parse payload).bind object?

def carriedUsage (event : Bytes) : Option Json :=
  (eventDocument rj event).bind streamUsageAt

theorem extractUsageFromEvent_eq (event : Bytes) (r : UsageReading) :
    extractUsageFromEvent rj event r =
      .ok (((carriedUsage rj event).map fun usage => streamReading rj usage r).getD r) := by
  unfold extractUsageFromEvent carriedUsage eventDocument
  cases usagePayload event with
  | none => rfl
  | some payload =>
    simp only [Option.bind_some]
    cases hp : (rj.parse payload).bind object? with
    | none => rfl
    | some document =>
      have hd := isObject_of_bind_object? hp
      simp only [Option.bind_some, streamUsage_of_object hd, ok_bind]
      cases hs : streamUsageAt document with
      | none => rfl
      | some usage => exact addStreamUsage_of_object (isObject_of_streamUsageAt hs) rj r

theorem parseUsage_of_topLevel {rj : RapidJson} {body : Bytes}
    (hp : (rj.parse body).bind object? = some document)
    (hu : topLevelUsageAt document = some usage) (r : BodyReading) :
    BodyReading.toUsageReading <$> parseUsage rj body r = .ok (bodyReading rj usage) := by
  have hd := isObject_of_bind_object? hp
  have hb : bodyUsageAt document = some usage := by simp [bodyUsageAt, hu]
  unfold parseUsage
  simp only [hp, bodyUsage_of_object hd, hb, ok_bind,
    readBodyUsage_of_object (isObject_of_topLevelUsageAt hu), memberAs_of_object hd]
  rfl

theorem foldlM_extract_of_only {rj : RapidJson} {before after : List Bytes} {event : Bytes}
    {usage : Json} (ho : ∀ e ∈ before ++ after, carriedUsage rj e = none)
    (hev : carriedUsage rj event = some usage) :
    (before ++ event :: after).foldlM (fun r e => extractUsageFromEvent rj e r) {} =
      .ok (streamReading rj usage {}) := by
  have hs : ∀ events : List Bytes, (∀ e ∈ events, carriedUsage rj e = none) → ∀ r,
      events.foldlM (fun r e => extractUsageFromEvent rj e r) r = .ok r := by
    intro events hn
    induction events with
    | nil => exact fun r => rfl
    | cons e events ih =>
      intro r
      rw [foldlM_cons, extractUsageFromEvent_eq, hn e mem_cons_self]
      exact ih (fun e he => hn e (mem_cons_of_mem _ he)) r
  rw [List.foldlM_append, hs before fun e he => ho e (mem_append_left _ he), ok_bind,
    foldlM_cons, extractUsageFromEvent_eq, hev]
  exact hs after (fun e he => ho e (mem_append_right _ he)) _

theorem streamReading_eq_bodyReading_iff {usage : Json} (hv : invalidCounts usage = false)
    (ha : OneAliasEach usage) : streamReading rj usage {} = bodyReading rj usage ↔
      ∀ n ∈ cachedDetails usage, n ≤ raisedTo 0 (counts usage cacheReadKeys) := by
  obtain ⟨hin, ho, hc, hr, hre⟩ := ha
  have hm : ∀ keys, AtMostOneOf usage keys → keys ⊆ countFields →
      raisedTo 0 (counts usage keys) = firstNonZero (counts usage keys) := by
    intro keys hon hs
    refine raisedTo_eq_firstNonZero ?_ fun n hn => nonneg_of_mem_counts hv hs hn
    rw [length_counts]; exact hon
  have hcache := hm cacheReadKeys hr (by decide)
  have hrea := hm reasoningKeys hre (by decide)
  have hreas : raisedTo 0 (counts usage reasoningKeys
        ++ detailCounts usage "output_tokens_details" "reasoning_tokens") =
      raisedTo (firstNonZero (counts usage reasoningKeys))
        (detailValues usage "output_tokens_details" "reasoning_tokens") := by
    rw [← hrea, raisedTo_detailValues (le_raisedTo 0 _), raisedTo_append]
  have hcac : raisedTo (firstNonZero (counts usage cacheReadKeys))
        (detailValues usage "prompt_tokens_details" "cached_tokens"
          ++ detailValues usage "input_tokens_details" "cached_tokens") =
      raisedTo (raisedTo 0 (counts usage cacheReadKeys)) (cachedDetails usage) := by
    have h0 := le_raisedTo 0 (counts usage cacheReadKeys)
    have h1 := h0.trans
      (le_raisedTo _ (detailCounts usage "prompt_tokens_details" "cached_tokens"))
    rw [← hcache, raisedTo_append, cachedDetails, raisedTo_append, raisedTo_detailValues h0,
      raisedTo_detailValues h1]
  rw [← @raisedTo_eq_self_iff _ (cachedDetails usage), ← hcac]
  unfold streamReading bodyReading
  rw [hm inputKeys hin (by decide), hm outputKeys ho (by decide),
    hm cacheCreateKeys hc (by decide), hreas]
  simp only [UsageReading.mk.injEq, true_and, and_true]
  exact eq_comm

theorem stream_usage_eq_body_usage_iff (rj : RapidJson) {usage : Json}
    (hvalid : usageHasInvalidCounts usage = .ok false) (halias : OneAliasEach usage)
    {before after : List Bytes} {event : Bytes} {eventDoc : Json}
    (hother : ∀ e ∈ before ++ after, carriedUsage rj e = none)
    (hevent : eventDocument rj event = some eventDoc)
    (heventUsage : topLevelUsageAt eventDoc = some usage)
    {body : Bytes} {bodyDoc : Json} (hbody : (rj.parse body).bind object? = some bodyDoc)
    (hbodyUsage : topLevelUsageAt bodyDoc = some usage) :
    (before ++ event :: after).foldlM (fun r e => extractUsageFromEvent rj e r) {} =
        BodyReading.toUsageReading <$> parseUsage rj body {} ↔
      ∀ n ∈ cachedDetails usage, n ≤ raisedTo 0 (counts usage cacheReadKeys) := by
  have hobj := isObject_of_topLevelUsageAt heventUsage
  have hcarried : carriedUsage rj event = some usage := by
    simp [carriedUsage, hevent, streamUsageAt, heventUsage]
  have hinvalid : invalidCounts usage = false := by
    rw [usageHasInvalidCounts_of_object hobj] at hvalid; exact Except.ok.inj hvalid
  rw [foldlM_extract_of_only hother hcarried, parseUsage_of_topLevel hbody hbodyUsage,
    Except.ok.injEq]
  exact streamReading_eq_bodyReading_iff rj hinvalid halias

def directUsage : Json := .object [
  ("input_tokens", .int 100), ("output_tokens", .int 20), ("cache_read_input_tokens", .int 80)]

def directUsageText : Bytes :=
  "\x7b\"input_tokens\":100,\"output_tokens\":20,\"cache_read_input_tokens\":80\x7d"

def detailedUsage : Json := .object [
  ("prompt_tokens", .int 100), ("completion_tokens", .int 20),
  ("prompt_tokens_details", .object [("cached_tokens", .int 80)])]

def detailedUsageText : Bytes :=
  "\x7b\"prompt_tokens\":100,\"completion_tokens\":20,"
    ++ "\"prompt_tokens_details\":\x7b\"cached_tokens\":80\x7d\x7d"

def usageDocument (usage : Json) : Json := .object [("usage", usage)]

def usageDocumentText (text : Bytes) : Bytes := "\x7b\"usage\":" ++ text ++ "\x7d"

def usageJson (usage : Json) (text : Bytes) : RapidJson :=
  .ofTable [(usageDocumentText text, usageDocument usage)] text

theorem direct_usage_agrees :
    usageHasInvalidCounts directUsage = .ok false ∧ OneAliasEach directUsage ∧
      ([] ++ ("data: " ++ usageDocumentText directUsageText ++ "\n\n")
          :: [ascii "data: [DONE]\n\n"]).foldlM
          (fun r e => extractUsageFromEvent (usageJson directUsage directUsageText) e r) {} =
        BodyReading.toUsageReading <$> parseUsage (usageJson directUsage directUsageText)
          (usageDocumentText directUsageText) {} :=
  ⟨rfl, by decide,
    (stream_usage_eq_body_usage_iff (usageJson directUsage directUsageText) rfl (by decide)
      (by decide) rfl rfl rfl rfl).2 (by decide)⟩

theorem detailed_usage_differs :
    usageHasInvalidCounts detailedUsage = .ok false ∧ OneAliasEach detailedUsage ∧
      UsageReading.cacheReadTokens <$>
          [("data: " ++ usageDocumentText detailedUsageText ++ "\n\n" : Bytes),
            ascii "data: [DONE]\n\n"].foldlM
          (fun r e => extractUsageFromEvent (usageJson detailedUsage detailedUsageText) e r) {} =
        .ok 0 ∧
      (fun r => r.cacheReadTokens) <$> parseUsage (usageJson detailedUsage detailedUsageText)
          (usageDocumentText detailedUsageText) {} = .ok 80 :=
  ⟨rfl, by decide, rfl, rfl⟩

end Gateway.Forwarder
