import Gateway.Protocol.FinishReasons

/-! # Null members of a response -/

namespace Gateway.Protocol.Converter

open Lib Json List Option

def nullAt (j : Json) (key : Bytes) : Bool := (j.lookup key).any isNull

def presentAt (j : Json) (key : Bytes) : Bool := (j.lookup key).any fun v => !v.isNull

def argumentKeys : List Bytes := ["input", "args"]

def isArguments (under : Bytes) (object : Json) (key : Bytes) : Bool :=
  (key == "input" && textAt object "type" == some (ascii "tool_use"))
    || (key == "args" && under == "functionCall")

mutual

def withoutNulls (under : Bytes) : Json → Json
  | .array xs => .array (entriesWithoutNulls under xs)
  | .object ms => .object (membersWithoutNulls under (.object ms) ms)
  | v => v

def entriesWithoutNulls (under : Bytes) : List Json → List Json
  | [] => []
  | x :: xs => withoutNulls under x :: entriesWithoutNulls under xs

def membersWithoutNulls (under : Bytes) (object : Json) :
    List (Bytes × Json) → List (Bytes × Json)
  | [] => []
  | (key, v) :: ms =>
    if v.isNull || nullAt object key then membersWithoutNulls under object ms
    else (key, if isArguments under object key then v else withoutNulls key v)
      :: membersWithoutNulls under object ms

end

variable {key : Bytes} (under : Bytes)

def memberWithoutNulls (under : Bytes) (object : Json) (key : Bytes) (v : Json) : Json :=
  if isArguments under object key then v else withoutNulls key v

theorem entriesWithoutNulls_eq_map (xs : List Json) :
    entriesWithoutNulls under xs = xs.map (withoutNulls under) := by
  induction xs with
  | nil => rfl
  | cons x xs ih => rw [entriesWithoutNulls, ih, map_cons]

theorem lookup_membersWithoutNulls (object : Json)
    (hkey : nullAt object key = false) (ms : List (Bytes × Json)) :
    (membersWithoutNulls under object ms).lookup key =
      ((ms.filter fun m => !m.2.isNull).lookup key).map (memberWithoutNulls under object key) := by
  induction ms with
  | nil => rfl
  | cons m ms ih =>
    obtain ⟨k, v⟩ := m
    rw [membersWithoutNulls, filter_cons]
    cases hv : v.isNull with
    | true => simpa using ih
    | false =>
      by_cases hk : key = k
      · subst hk; simp [hkey, memberWithoutNulls]
      · have hne : (key == k) = false := beq_eq_false_iff_ne.2 hk
        cases hn : nullAt object k with
        | true => simpa [lookup_cons, hne] using ih
        | false => simpa [lookup_cons, hne] using ih

theorem lookup_membersWithoutNulls_of_nullAt (object : Json)
    (hkey : nullAt object key) (ms : List (Bytes × Json)) :
    (membersWithoutNulls under object ms).lookup key = none := by
  induction ms with
  | nil => rfl
  | cons m ms ih =>
    obtain ⟨k, v⟩ := m
    rw [membersWithoutNulls]
    by_cases hk : key = k
    · subst hk; simpa [hkey] using ih
    · have hne : (key == k) = false := beq_eq_false_iff_ne.2 hk
      split
      · exact ih
      · simpa [lookup_cons, hne] using ih

variable {ms : List (Bytes × Json)}

theorem lookup_filter_of_not_null {v : Json} (h : ms.lookup key = some v)
    (hv : v.isNull = false) : (ms.filter fun m => !m.2.isNull).lookup key = some v := by
  induction ms with
  | nil => cases h
  | cons m ms ih =>
    obtain ⟨k, w⟩ := m
    rw [lookup_cons] at h
    rw [filter_cons]
    cases hk : key == k with
    | true => simp only [hk, some.injEq] at h; subst h; simp [lookup_cons, hv, hk]
    | false =>
      simp only [hk] at h
      cases hw : w.isNull with
      | true => simpa using ih h
      | false => simpa [lookup_cons, hk] using ih h

theorem lookup_filter_of_none (h : ms.lookup key = none) :
    (ms.filter fun m => !m.2.isNull).lookup key = none := by
  rw [lookup_eq_none_iff] at h ⊢
  intro m hm
  exact h m (mem_of_mem_filter hm)

section

variable (under : Bytes) (j : Json) (key : Bytes)

theorem lookup_withoutNulls : (withoutNulls under j).lookup key = (j.lookup key).bind fun v =>
      if v.isNull then none else some (memberWithoutNulls under j key v) := by
  cases j with
  | object ms =>
    show (membersWithoutNulls under (.object ms) ms).lookup key = (ms.lookup key).bind _
    have hnu : nullAt (.object ms) key = (ms.lookup key).any isNull := rfl
    cases hv : ms.lookup key with
    | none =>
      have hkey : nullAt (.object ms) key = false := by rw [hnu, hv]; rfl
      rw [lookup_membersWithoutNulls under _ hkey, lookup_filter_of_none hv]; rfl
    | some v =>
      have hnul : nullAt (.object ms) key = v.isNull := by rw [hnu, hv]; rfl
      cases hn : v.isNull with
      | true => rw [lookup_membersWithoutNulls_of_nullAt under _ (hnul.trans hn)]; simp [hn]
      | false =>
        rw [lookup_membersWithoutNulls under _ (hnul.trans hn), lookup_filter_of_not_null hv hn]
        simp [hn]
  | _ => rfl

theorem isObject_withoutNulls : (withoutNulls under j).isObject = j.isObject := by
  cases j <;> rfl

theorem bind_withoutNulls {α : Type} {view : Json → Option α} (hn : view .null = none)
    (hvi : ∀ under v, view (withoutNulls under v) = view v) :
    ((withoutNulls under j).lookup key).bind view = (j.lookup key).bind view := by
  rw [lookup_withoutNulls]
  cases j.lookup key with
  | none => rfl
  | some v =>
    cases hv : v.isNull with
    | true =>
      obtain rfl : v = .null := by cases v <;> first | rfl | cases hv
      simp [hn, isNull]
    | false =>
      simp only [bind_some, hv, memberWithoutNulls]
      cases isArguments under j key with
      | true => rfl
      | false => exact hvi key v

theorem stringAt_withoutNulls : stringAt (withoutNulls under j) key = stringAt j key := by
  have hv : ∀ under v, (withoutNulls under v).string? = v.string? := by
    intro under v
    cases v <;> rfl
  unfold stringAt
  rw [bind_withoutNulls under j key rfl hv]

theorem string?_withoutNulls :
    ((withoutNulls under j).lookup key).bind string? = (j.lookup key).bind string? :=
  bind_withoutNulls under j key rfl fun _ v => by cases v <;> rfl

theorem textAt_withoutNulls : textAt (withoutNulls under j) key = textAt j key :=
  bind_withoutNulls under j key rfl fun _ v => by cases v <;> rfl

theorem presentAt_withoutNulls : ((withoutNulls under j).lookup key).isSome = presentAt j key := by
  rw [lookup_withoutNulls, presentAt]
  cases j.lookup key with
  | none => rfl
  | some v => cases hv : v.isNull <;> simp [hv]

variable {key}

theorem memberWithoutNulls_of_not_mem (hkey : key ∉ argumentKeys) (v : Json) :
    memberWithoutNulls under j key v = withoutNulls key v := by
  have hn : isArguments under j key = false := by
    simp only [argumentKeys, mem_cons, not_mem_nil, or_false, not_or] at hkey
    simp [isArguments, beq_eq_false_iff_ne.2 hkey.1, beq_eq_false_iff_ne.2 hkey.2]
  rw [memberWithoutNulls, hn]
  rfl

variable (hkey : key ∉ argumentKeys)

include hkey

theorem valueAt_withoutNulls :
    valueAt (withoutNulls under j) key = withoutNulls key (valueAt j key) := by
  unfold valueAt
  rw [lookup_withoutNulls]
  cases j.lookup key with
  | none => rfl
  | some v =>
    cases v with
    | null => rfl
    | _ => simp [isNull, memberWithoutNulls_of_not_mem under j hkey]

theorem entriesAt_withoutNulls :
    entriesAt (withoutNulls under j) key = (entriesAt j key).map (withoutNulls key) := by
  unfold entriesAt
  rw [lookup_withoutNulls]
  cases j.lookup key with
  | none => rfl
  | some v =>
    cases v with
    | array xs =>
      simp [isNull, memberWithoutNulls_of_not_mem under j hkey, withoutNulls, array?,
        entriesWithoutNulls_eq_map]
    | _ => simp [isNull, memberWithoutNulls_of_not_mem under j hkey, withoutNulls, array?]

theorem firstAt_withoutNulls :
    firstAt (withoutNulls under j) key = withoutNulls key (firstAt j key) := by
  unfold firstAt
  rw [entriesAt_withoutNulls under j hkey, head?_map]
  cases (entriesAt j key).head? <;> rfl

theorem object?_withoutNulls : ((withoutNulls under j).lookup key).bind object? =
      ((j.lookup key).bind object?).map (withoutNulls key) := by
  rw [lookup_withoutNulls]
  cases j.lookup key with
  | none => rfl
  | some v =>
    cases v with
    | null => rfl
    | _ =>
      simp [isNull, memberWithoutNulls_of_not_mem under j hkey, object?, withoutNulls, isObject]

end

section

variable (rj : RapidJson) (under : Bytes) (doc : Json)

theorem partsText_withoutNulls (parts : List Json) :
    partsText (parts.map (withoutNulls under)) = partsText parts := by
  unfold partsText textOf
  rw [flatMap_map]
  simp only [string?_withoutNulls]

theorem candidatePartsOf_withoutNulls : candidatePartsOf (withoutNulls under doc) =
      (candidatePartsOf doc).map (withoutNulls "parts") := by
  unfold candidatePartsOf
  rw [valueAt_withoutNulls _ _ (by decide), entriesAt_withoutNulls _ _ (by decide)]

theorem responseTextOf_withoutNulls :
    responseTextOf (withoutNulls under doc) = responseTextOf doc := by
  have hc : choiceTextOf (withoutNulls under doc) = choiceTextOf doc := by
    unfold choiceTextOf
    rw [firstAt_withoutNulls under doc (by decide), valueAt_withoutNulls _ _ (by decide)]
    simp only [string?_withoutNulls]
  have hco : contentTextOf (withoutNulls under doc) = contentTextOf doc := by
    unfold contentTextOf
    rw [entriesAt_withoutNulls under doc (by decide), partsText_withoutNulls]
  have ho : outputTextOf (withoutNulls under doc) = outputTextOf doc := by
    unfold outputTextOf
    rw [entriesAt_withoutNulls under doc (by decide), flatMap_map]
    congr 1
    funext item
    rw [entriesAt_withoutNulls _ item (by decide), partsText_withoutNulls]
  have hcandidate : candidateTextOf (withoutNulls under doc) = candidateTextOf doc := by
    simp only [candidateTextOf, ← candidatePartsOf.eq_def]
    rw [firstAt_withoutNulls under doc (by decide), candidatePartsOf_withoutNulls,
      partsText_withoutNulls]
  unfold responseTextOf
  rw [hc, hco, ho, hcandidate, string?_withoutNulls]

theorem objectTextAt_withoutNulls {key : Bytes} (h : isArguments under doc key) :
    objectTextAt rj (withoutNulls under doc) key = objectTextAt rj doc key := by
  unfold objectTextAt
  rw [lookup_withoutNulls]
  cases doc.lookup key with
  | none => rfl
  | some v =>
    cases v with
    | null => rfl
    | _ => simp [isNull, memberWithoutNulls, h]

theorem callOf_withoutNulls : OpenAI.callOf (withoutNulls under doc) = OpenAI.callOf doc := by
  unfold OpenAI.callOf
  rw [isObject_withoutNulls, valueAt_withoutNulls _ _ (by decide)]
  simp only [stringAt_withoutNulls]

theorem toolUseOf_withoutNulls : toolUseOf rj (withoutNulls under doc) = toolUseOf rj doc := by
  unfold toolUseOf
  rw [textAt_withoutNulls]
  cases ht : textAt doc "type" == some (ascii "tool_use") with
  | false => rfl
  | true =>
    have hi : isArguments under doc "input" = true := by simp [isArguments, ht]
    rw [objectTextAt_withoutNulls rj under doc hi]
    simp only [stringAt_withoutNulls]

theorem functionCallOf_withoutNulls :
    functionCallOf (withoutNulls under doc) = functionCallOf doc := by
  unfold functionCallOf
  rw [textAt_withoutNulls]
  simp only [stringAt_withoutNulls]

theorem geminiCallOf_withoutNulls :
    geminiCallOf rj (withoutNulls under doc) = geminiCallOf rj doc := by
  unfold geminiCallOf
  rw [valueAt_withoutNulls _ _ (by decide), isObject_withoutNulls,
    objectTextAt_withoutNulls rj _ _ (by simp [isArguments]), stringAt_withoutNulls]

theorem filterMap_withoutNulls {α : Type} {read : Json → Option α}
    (h : ∀ v, read (withoutNulls under v) = read v) (xs : List Json) :
    (xs.map (withoutNulls under)).filterMap read = xs.filterMap read := by
  rw [filterMap_map]
  congr 1
  funext v
  exact h v

theorem callsOf_withoutNulls (source : Format) :
    callsOf rj source (withoutNulls under doc) = callsOf rj source doc := by
  cases source with
  | openAIChatCompletions =>
    unfold callsOf
    rw [firstAt_withoutNulls under doc (by decide), valueAt_withoutNulls _ _ (by decide),
      entriesAt_withoutNulls _ _ (by decide), flatMap_map]
    simp only [callOf_withoutNulls]
  | anthropic =>
    simp only [callsOf]
    rw [entriesAt_withoutNulls under doc (by decide),
      filterMap_withoutNulls _ (toolUseOf_withoutNulls rj _)]
  | gemini =>
    simp only [callsOf, ← candidatePartsOf.eq_def]
    rw [firstAt_withoutNulls under doc (by decide), candidatePartsOf_withoutNulls,
      filterMap_withoutNulls _ (geminiCallOf_withoutNulls rj _)]
  | openAIResponses =>
    simp only [callsOf]
    rw [entriesAt_withoutNulls under doc (by decide),
      filterMap_withoutNulls _ (functionCallOf_withoutNulls _)]

theorem countAt_withoutNulls (keys : List Bytes) :
    countAt (withoutNulls under doc) keys = countAt doc keys := by
  have hv : ∀ under v, clampedCount (withoutNulls under v) = clampedCount v := by
    intro under v
    cases v <;> rfl
  unfold countAt
  congr 2
  funext key
  exact bind_withoutNulls under doc key rfl hv

theorem withDetails_withoutNulls {key : Bytes} (hkey : key ∉ argumentKeys) (cached : Int) :
    withDetails (withoutNulls under doc) key cached = withDetails doc key cached := by
  unfold withDetails
  rw [object?_withoutNulls under doc hkey]
  cases (doc.lookup key).bind object? with
  | none => rfl
  | some details => simp only [map_some, countAt_withoutNulls]

theorem countsOf_withoutNulls : countsOf (withoutNulls under doc) = countsOf doc := by
  unfold countsOf inputCount outputCount
  rw [withDetails_withoutNulls _ _ (by decide), withDetails_withoutNulls _ _ (by decide)]
  simp only [countAt_withoutNulls]

theorem usageOf_withoutNulls (target : Format) :
    usageOf (withoutNulls under doc) target = usageOf doc target := by
  unfold usageOf usageObject
  rw [object?_withoutNulls under doc (by decide), object?_withoutNulls under doc (by decide)]
  cases (doc.lookup "usage").bind object? with
  | some usage => simp [countsOf_withoutNulls]
  | none =>
    cases (doc.lookup "usageMetadata").bind object? with
    | some usage => simp [countsOf_withoutNulls]
    | none => rfl

end

end Gateway.Protocol.Converter
