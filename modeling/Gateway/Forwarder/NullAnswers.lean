import Gateway.Forwarder.UsageCounts
import Gateway.Protocol.NullShapes

/-! # Null members of an answer -/

namespace Gateway.Forwarder

open Lib Protocol.Converter Json JsonText Protocol Option
open Protocol (Format valueAt)

section

variable (under : Bytes) (usage : Json)

theorem integer_memberWithoutNulls (key : Bytes) (v : Json) :
    integer (memberWithoutNulls under usage key v) = integer v := by
  unfold memberWithoutNulls
  split
  · rfl
  · cases v <;> rfl

theorem firstNonZero_counts_withoutNulls (keys : List Bytes) :
    firstNonZero (counts (withoutNulls under usage) keys) = firstNonZero (counts usage keys) := by
  have hc : ∀ (n : Int) (xs ys : List Int), firstNonZero xs = firstNonZero ys →
      firstNonZero (n :: xs) = firstNonZero (n :: ys) := by
    intro n xs ys h
    unfold firstNonZero at h ⊢
    by_cases hn : n = 0
    · simpa [hn] using h
    · simp [hn]
  induction keys with
  | nil => rfl
  | cons key keys ih =>
    simp only [counts, List.filterMap_cons, lookup_withoutNulls] at ih ⊢
    cases usage.lookup key with
    | none => exact ih
    | some v =>
      cases v with
      | null =>
        show _ = firstNonZero (0 :: _)
        rw [firstNonZero_zero_cons]; exact ih
      | _ =>
        simp only [bind_some, isNull, Bool.false_eq_true, if_false, map_some,
          integer_memberWithoutNulls]
        exact hc _ _ _ ih

theorem detailValues_withoutNulls {detailsName : Bytes} (hn : detailsName ∉ argumentKeys)
    (field : Bytes) : detailValues (withoutNulls under usage) detailsName field =
      detailValues usage detailsName field := by
  unfold detailValues
  rw [object?_withoutNulls under usage hn]
  cases (usage.lookup detailsName).bind object? with
  | none => rfl
  | some details =>
    simp only [map_some, lookup_withoutNulls]
    cases details.lookup field with
    | none => rfl
    | some v =>
      cases v with
      | null => rfl
      | _ => simp [isNull, integer_memberWithoutNulls]

end

def nullCount (usage : Json) : Bool :=
  countFields.any (nullAt usage)
    || detailsNames.any fun name =>
      nullAt usage name || detailsFields.any (nullAt (valueAt usage name))

def otherInvalidAt (object : Json) (field : Bytes) : Bool :=
  (object.lookup field).any fun value => !value.isNull && !validUsageCount value

def otherInvalidDetailsAt (usage : Json) (detailsName : Bytes) : Bool :=
  (usage.lookup detailsName).any fun details =>
    !details.isNull && (!details.isObject || detailsFields.any (otherInvalidAt details))

def otherInvalid (usage : Json) : Bool :=
  countFields.any (otherInvalidAt usage) || detailsNames.any (otherInvalidDetailsAt usage)

section

variable (under : Bytes) (usage : Json)

theorem invalidAt_eq (field : Bytes) :
    invalidAt usage field = (otherInvalidAt usage field || nullAt usage field) := by
  unfold invalidAt otherInvalidAt nullAt
  cases usage.lookup field with
  | none => rfl
  | some v => cases v <;> simp [isNull, validUsageCount, isInt, isInt64, isUint, isUint64]

theorem invalidDetailsAt_eq (name : Bytes) :
    invalidDetailsAt usage name = (otherInvalidDetailsAt usage name
      || (nullAt usage name || detailsFields.any (nullAt (valueAt usage name)))) := by
  have hf : ∀ details, detailsFields.any (invalidAt details) =
      (detailsFields.any (otherInvalidAt details) || detailsFields.any (nullAt details)) := by
    intro details
    rw [funext (invalidAt_eq details)]; exact any_or _ _ _
  have hn : nullAt usage name = (usage.lookup name).any isNull := rfl
  unfold invalidDetailsAt otherInvalidDetailsAt valueAt
  rw [hn]
  cases usage.lookup name with
  | none => rfl
  | some details => cases details <;> simp [hf, isNull, isObject]

theorem invalidCounts_eq : invalidCounts usage = (otherInvalid usage || nullCount usage) := by
  unfold invalidCounts otherInvalid nullCount
  rw [funext (invalidAt_eq usage), funext (invalidDetailsAt_eq usage), any_or, any_or]
  cases countFields.any (otherInvalidAt usage) <;> cases countFields.any (nullAt usage) <;> simp

theorem invalidAt_withoutNulls (field : Bytes) :
    invalidAt (withoutNulls under usage) field = otherInvalidAt usage field := by
  have hvalid : ∀ v, validUsageCount (memberWithoutNulls under usage field v) =
      validUsageCount v := by
    intro v
    unfold memberWithoutNulls
    split
    · rfl
    · cases v <;> rfl
  unfold invalidAt otherInvalidAt
  rw [lookup_withoutNulls]
  cases usage.lookup field with
  | none => rfl
  | some v => cases hv : v.isNull <;> simp [hv, hvalid]

theorem invalidDetailsAt_withoutNulls {name : Bytes} (hn : name ∉ argumentKeys) :
    invalidDetailsAt (withoutNulls under usage) name = otherInvalidDetailsAt usage name := by
  unfold invalidDetailsAt otherInvalidDetailsAt
  rw [lookup_withoutNulls]
  cases usage.lookup name with
  | none => rfl
  | some details =>
    cases hv : details.isNull <;>
      simp [hv, memberWithoutNulls_of_not_mem under usage hn, isObject_withoutNulls,
        funext (invalidAt_withoutNulls name details)]

theorem invalidCounts_withoutNulls :
    invalidCounts (withoutNulls under usage) = otherInvalid usage := by
  have hd : detailsNames.any (invalidDetailsAt (withoutNulls under usage)) =
      detailsNames.any (otherInvalidDetailsAt usage) := by
    have hn : ∀ name ∈ detailsNames, name ∉ argumentKeys := by decide
    rw [Bool.eq_iff_iff, List.any_eq_true, List.any_eq_true]
    refine exists_congr fun name => and_congr_right fun hna => ?_
    rw [invalidDetailsAt_withoutNulls under usage (hn name hna)]
  unfold invalidCounts otherInvalid
  rw [funext (invalidAt_withoutNulls under usage), hd]

end

def readCounters (r : BodyReading) : BodyReading := { r with providerUsageJson := [] }

variable {document : Json}

theorem isObject_of_bodyUsageAt {usage : Json} (h : bodyUsageAt document = some usage) :
    usage.isObject := by
  rcases or_eq_some_iff.1 h with h | ⟨-, h⟩
  · exact isObject_of_topLevelUsageAt h
  · exact isObject_of_nestedUsageAt h

theorem parseUsage_eq {rj : RapidJson} {body : Bytes} (hp : rj.parse body = some document)
    (r : BodyReading) : parseUsage rj body r = .ok (((bodyUsageAt document).map fun usage =>
      { bodyReading rj usage with
        serviceTier := ((document.lookup "service_tier").bind string?).getD
          r.serviceTier }).getD r) := by
  unfold parseUsage
  cases ho : document.isObject with
  | false =>
    have hn := Gateway.Protocol.lookup_of_not_object ho
    simp [hp, object?, ho, bodyUsageAt, topLevelUsageAt, nestedUsageAt, hn]
  | true =>
    have hd : (rj.parse body).bind object? = some document := by rw [hp]; exact if_pos ho
    simp only [hd, bodyUsage_of_object ho, ok_bind]
    cases hu : bodyUsageAt document with
    | none => rfl
    | some usage =>
      simp only [readBodyUsage_of_object (isObject_of_bodyUsageAt hu),
        memberAs_of_object ho, ok_bind]
      rfl

theorem bodyUsageAt_withoutNulls (under : Bytes) (document : Json) :
    ∃ key, bodyUsageAt (withoutNulls under document) =
      (bodyUsageAt document).map (withoutNulls key) := by
  have hu : ∀ (under : Bytes) (j : Json),
      ((withoutNulls under j).lookup "usage").bind object? =
        ((j.lookup "usage").bind object?).map (withoutNulls "usage") :=
    fun under j => object?_withoutNulls under j (by decide)
  have hn : nestedUsageAt (withoutNulls under document) "response" =
      (nestedUsageAt document "response").map (withoutNulls "usage") := by
    unfold nestedUsageAt
    rw [object?_withoutNulls under document (by decide)]
    cases (document.lookup "response").bind object? with
    | none => rfl
    | some inner => exact hu _ inner
  unfold bodyUsageAt topLevelUsageAt
  rw [hu, object?_withoutNulls under document (by decide), hn]
  cases (document.lookup "usage").bind object? with
  | some usage => exact ⟨"usage", rfl⟩
  | none =>
    cases (document.lookup "usageMetadata").bind object? with
    | some usage => exact ⟨"usageMetadata", rfl⟩
    | none => exact ⟨"usage", rfl⟩

theorem bodyReading_withoutNulls (rj : RapidJson) (under : Bytes) (usage : Json) :
    bodyReading rj (withoutNulls under usage) = { bodyReading rj usage with
      malformedUsage := otherInvalid usage
      providerUsageJson := (bodyReading rj (withoutNulls under usage)).providerUsageJson } := by
  unfold bodyReading
  simp (disch := decide) only [firstNonZero_counts_withoutNulls, detailValues_withoutNulls,
    invalidCounts_withoutNulls]

def nullMiscounts (document : Json) : Bool :=
  (bodyUsageAt document).any fun usage => nullCount usage && !otherInvalid usage

theorem parseUsage_withoutNulls_iff {rj : RapidJson} {body body' : Bytes}
    (hp : rj.parse body = some document) (hp' : rj.parse body' = some (withoutNulls [] document)) :
    (∀ r, readCounters <$> parseUsage rj body' r = readCounters <$> parseUsage rj body r) ↔
      nullMiscounts document = false := by
  have hf : ∀ usage, (otherInvalid usage = invalidCounts usage) ↔
      (nullCount usage && !otherInvalid usage) = false := by
    intro usage
    rw [invalidCounts_eq]
    cases otherInvalid usage <;> cases nullCount usage <;> simp
  obtain ⟨key, hs⟩ := bodyUsageAt_withoutNulls [] document
  have ht : ((withoutNulls [] document).lookup "service_tier").bind string? =
      (document.lookup "service_tier").bind string? := string?_withoutNulls _ _ _
  simp only [parseUsage_eq hp, parseUsage_eq hp', hs, ht, nullMiscounts]
  cases bodyUsageAt document with
  | none => simp
  | some usage =>
    simp only [map_some, getD_some, any_some, ← hf]
    rw [bodyReading_withoutNulls]
    constructor
    · intro h
      have hr := congrArg (fun r : BodyReading => r.malformedUsage) (Except.ok.inj (h {}))
      exact hr
    · intro h r; rw [h]; rfl

def ConvertsTo (rj : RapidJson) (source target : Format) (model body out : Bytes) : Prop :=
  convertResponseChecked rj body source target model = .ok { success := true, body := out }

structure ReadAlike (rj : RapidJson) (source target : Format) (model body body' : Bytes) :
    Prop where
  success : (∃ out, ConvertsTo rj source target model body out) ↔
    ∃ out, ConvertsTo rj source target model body' out
  converted : source ≠ target →
    ∀ out, ConvertsTo rj source target model body out ↔ ConvertsTo rj source target model body' out
  usage : ∀ r, readCounters <$> parseUsage rj body' r = readCounters <$> parseUsage rj body r

theorem nulls_ignored_iff {rj : RapidJson} (hrj : Lawful rj) (source target : Format)
    (model : Bytes) {body body' : Bytes} {doc : Json} (hparse : rj.parse body = some doc)
    (hparse' : rj.parse body' = some (withoutNulls [] doc)) :
    ReadAlike rj source target model body body' ↔
      (source ≠ target → nullDecides source target doc = false) ∧ nullMiscounts doc = false := by
  have husage := parseUsage_withoutNulls_iff hparse hparse'
  have hconverted : source ≠ target →
      ((∀ out, ConvertsTo rj source target model body out ↔
          ConvertsTo rj source target model body' out) ↔
        nullDecides source target doc = false) := by
    intro hne
    rw [← convertedBody_withoutNulls_iff model [] doc hrj hne]
    unfold ConvertsTo
    simp only [convertResponseChecked_iff hne hparse, convertResponseChecked_iff hne hparse']
    constructor
    · intro h; exact (ext h).symm
    · intro h out; rw [h]
  constructor
  · intro h; exact ⟨fun hne => (hconverted hne).1 (h.converted hne), husage.1 h.usage⟩
  · rintro ⟨hdecides, hcounts⟩
    refine ⟨?_, fun hne => (hconverted hne).2 (hdecides hne), husage.2 hcounts⟩
    by_cases hne : source = target
    · subst hne; exact iff_of_true ⟨body, if_pos rfl⟩ ⟨body', if_pos rfl⟩
    · exact exists_congr ((hconverted hne).2 (hdecides hne))

def spelledOut : Json := .object [
  ("id", .str "msg_1"), ("type", .str "message"), ("role", .str "assistant"),
  ("content", .array [.object [
    ("type", .str "text"), ("text", .str "Hello."), ("citations", .null)]]),
  ("stop_reason", .str "end_turn"), ("stop_sequence", .null),
  ("usage", .object [("input_tokens", .int 9), ("output_tokens", .int 3),
    ("service_tier", .null)])]

theorem spelledOut_read_alike : ReadAlike compact .anthropic .openAIChatCompletions []
      (compact.write spelledOut) (compact.write (withoutNulls [] spelledOut)) :=
  (nulls_ignored_iff lawful_compact _ _ [] (lawful_compact.parse_write _)
    (lawful_compact.parse_write _)).2 ⟨fun _ => rfl, by decide⟩

def unrefused : Json := .object [
  ("id", .str "chatcmpl-1"), ("model", .str "gpt-4o"),
  ("choices", .array [.object [("index", .int 0), ("finish_reason", .str "stop"),
    ("message", .object [
      ("role", .str "assistant"), ("content", .str "Hello."), ("refusal", .null)])]]),
  ("usage", .object [("prompt_tokens", .int 9), ("completion_tokens", .int 3),
    ("prompt_tokens_details", .null)])]

theorem null_refusal_refused :
    let body := compact.write unrefused
    let body' := compact.write (withoutNulls [] unrefused)
    convertResponseChecked compact body .openAIChatCompletions .anthropic [] =
        .ok { error := "Upstream response contains unsupported tool or multimodal content" } ∧
      (∃ out, ConvertsTo compact .openAIChatCompletions .anthropic [] body' out) ∧
      (·.malformedUsage) <$> parseUsage compact body {} = .ok true ∧
      (·.malformedUsage) <$> parseUsage compact body' {} = .ok false := by
  intro body body'
  have hparse : compact.parse body = some unrefused := lawful_compact.parse_write _
  have hparse' : compact.parse body' = some (withoutNulls [] unrefused) :=
    lawful_compact.parse_write _
  refine ⟨?_, ?_, ?_, ?_⟩
  · exact convertResponseChecked_of_unsupported [] (by decide) hparse rfl rfl
  · exact ⟨_, convertResponseChecked_of_supported [] (by decide) hparse' rfl rfl⟩
  · rw [parseUsage_eq hparse]; rfl
  · rw [parseUsage_eq hparse']; rfl

end Gateway.Forwarder
