import Gateway.Forwarder.StreamText
import Gateway.Lib.Reassembly

/-! # Streamed tool calls -/

namespace Gateway.Forwarder

open Lib Json JsonText Protocol Fragment List
open Protocol (Format StreamDelta StreamLawful stringAt valueAt entriesAt intAt textOf
  objectTextAt)

variable (rj : RapidJson) (format : Format)

abbrev ToolFragment := Fragment Int Bytes UInt8

def named (name : Bytes) : Option Bytes := if name.isEmpty then none else some name

def toolFragment (d : StreamDelta) : Option ToolFragment :=
  match d.type with
  | .toolCallDelta => some {
      key := d.index
      opens := if format = .gemini then some d.toolName else named d.toolName
      body := d.toolArgumentsDelta }
  | .contentStart =>
    if d.toolName.isEmpty then none
    else some { key := d.index, opens := some d.toolName, body := d.toolArgumentsDelta }
  | _ => none

def toolCalls (ds : List StreamDelta) : List (Bytes × Bytes) :=
  items (ds.filterMap (toolFragment format))

def Gemini.firstCall (rj : RapidJson) : List Json → Option ToolFragment
  | [] => none
  | p :: ps =>
    match textOf p with
    | some text => if text.isEmpty then firstCall rj ps else none
    | none =>
      if (valueAt p "functionCall").isObject then some {
        key := 0, opens := some (stringAt (valueAt p "functionCall") "name")
        body := objectTextAt rj (valueAt p "functionCall") "args" }
      else firstCall rj ps

def documentFragment (source : Format) (eventType : Bytes) (doc : Json) :
    Option ToolFragment :=
  match source with
  | .anthropic =>
    if eventType == "content_block_start" then
      let block := valueAt doc "content_block"
      if stringAt block "type" == "tool_use" && !(stringAt block "name").isEmpty then
        some { key := intAt doc "index", opens := some (stringAt block "name"), body := [] }
      else none
    else if eventType == "content_block_delta" then
      let d := valueAt doc "delta"
      if stringAt d "type" == "input_json_delta" then
        some { key := intAt doc "index", opens := none, body := stringAt d "partial_json" }
      else none
    else none
  | .openAIChatCompletions =>
    match entriesAt doc "choices" with
    | choice :: _ =>
      let d := valueAt choice "delta"
      if OpenAI.opensMessage d || ((d.lookup "content").bind string?).isSome then none
      else
        match entriesAt d "tool_calls" with
        | tc :: _ => some {
            key := intAt tc "index", opens := named (stringAt (valueAt tc "function") "name")
            body := stringAt (valueAt tc "function") "arguments" }
        | [] => none
    | [] => none
  | .openAIResponses =>
    if stringAt doc "type" == "response.function_call_arguments.delta" then
      some { key := 0, opens := named (stringAt doc "name"), body := stringAt doc "delta" }
    else none
  | .gemini =>
    match entriesAt doc "candidates" with
    | cand :: _ => Gemini.firstCall rj (Gemini.candidateParts cand)
    | [] => none

def sourceFragment (source : Format) (event : Bytes) : Option ToolFragment :=
  (readableDocument rj source (dataPayload event)).bind
    (documentFragment rj source (eventType event))

def sourceFragments (source : Format) (bytes : Bytes) : List ToolFragment :=
  (dataEvents bytes).filterMap (sourceFragment rj source)

section

variable (rj : RapidJson)

variable (eventType : Bytes)

variable (doc : Json)

theorem Anthropic.toolFragment_deltaOf : toolFragment .anthropic (Anthropic.deltaOf eventType doc) =
      documentFragment rj .anthropic eventType doc := by
  unfold documentFragment Anthropic.deltaOf
  by_cases hs : eventType = "content_block_start"
  · subst hs
    change toolFragment .anthropic (Anthropic.contentBlockStartOf doc) = _
    unfold Anthropic.contentBlockStartOf
    simp only [beq_self_eq_true, if_true]
    cases stringAt (valueAt doc "content_block") "type" == "tool_use" with
    | false => rfl
    | true =>
      simp only [if_true, Bool.true_and, toolFragment]
      cases stringAt (valueAt doc "content_block") "name" <;> rfl
  by_cases hd : eventType = "content_block_delta"
  · subst hd
    change toolFragment .anthropic (Anthropic.contentBlockDeltaOf doc) =
      if stringAt (valueAt doc "delta") "type" == "input_json_delta" then _ else _
    unfold Anthropic.contentBlockDeltaOf
    by_cases ht : stringAt (valueAt doc "delta") "type" = "text_delta"
    · simp only [ht]; rfl
    · simp only [beq_false_of_ne ht, Bool.false_eq_true, if_false]
      split <;> rfl
  · simp only [beq_false_of_ne hs, beq_false_of_ne hd, Bool.false_eq_true, if_false]
    repeat' (split; · rfl)
    rfl

theorem OpenAI.toolFragment_deltaOf : toolFragment .openAIChatCompletions (OpenAI.deltaOf doc) =
      documentFragment rj .openAIChatCompletions eventType doc := by
  unfold documentFragment OpenAI.deltaOf
  cases entriesAt doc "choices" with
  | nil => rfl
  | cons choice choices =>
    simp only [OpenAI.choiceDeltaOf]
    generalize valueAt choice "delta" = d
    cases hd : d.isObject with
    | false =>
      have hn : (d.lookup "content").bind string? = none := by
        rw [lookup_of_not_object hd]; rfl
      rw [entriesAt_of_not_object hd, hn]
      simp [toolFragment]
    | true =>
      simp only [Bool.not_true, Bool.false_eq_true, if_false]
      cases OpenAI.opensMessage d with
      | true => rfl
      | false =>
        cases (d.lookup "content").bind string? with
        | some text => rfl
        | none =>
          simp only [Bool.false_eq_true, if_false, Option.isSome_none, Bool.or_self]
          cases entriesAt d "tool_calls" with
          | cons tc tcs => rfl
          | nil =>
            simp only
            split <;> rfl

theorem OpenAIResponses.toolFragment_deltaOf :
    toolFragment .openAIResponses (OpenAIResponses.deltaOf doc) =
      documentFragment rj .openAIResponses eventType doc := by
  unfold documentFragment OpenAIResponses.deltaOf
  by_cases hc : stringAt doc "type" = "response.function_call_arguments.delta"
  · simp only [hc]; rfl
  · simp only [beq_false_of_ne hc, Bool.false_eq_true, if_false]
    repeat' (split; · rfl)
    rfl

theorem Gemini.toolFragment_findSome {delta : StreamDelta}
    (ht : delta.type ≠ .toolCallDelta ∧ delta.type ≠ .contentStart) (hi : delta.index = 0)
    (parts : List Json) : toolFragment .gemini
        ((parts.findSome? (Gemini.partDeltaOf rj delta)).getD delta) = firstCall rj parts := by
  induction parts with
  | nil =>
    simp only [findSome?_nil, Option.getD_none, firstCall, toolFragment]
    cases h : delta.type <;> simp_all
  | cons p ps ih =>
    rw [findSome?_cons, firstCall, Gemini.partDeltaOf]
    cases textOf p with
    | some text => cases text <;> first | exact ih | rfl
    | none =>
      cases (valueAt p "functionCall").isObject with
      | true => simp [toolFragment, hi]
      | false => exact ih

theorem Gemini.toolFragment_deltaOf :
    toolFragment .gemini (Gemini.deltaOf rj doc) = documentFragment rj .gemini eventType doc := by
  unfold documentFragment Gemini.deltaOf
  cases entriesAt doc "candidates" with
  | nil => rfl
  | cons cand cands =>
    refine Gemini.toolFragment_findSome rj ?_ ?_ _
    · unfold Gemini.finishOf
      split <;> simp
    · unfold Gemini.finishOf
      split <;> rfl

end

variable (rj : RapidJson) (name : Bytes) (doc : Json)

theorem toolFragment_deltaRead {rj : RapidJson} (hrj : StreamLawful rj) (source : Format)
    (event : Bytes) :
    toolFragment source (deltaRead rj source event) = sourceFragment rj source event := by
  rw [deltaRead_eq, streamDelta, sourceFragment]
  cases hd : isDonePayload source (dataPayload event) with
  | true =>
    have hp := eq_of_beq (Bool.and_eq_true_iff.1 hd).1
    have hn : readableDocument rj source (dataPayload event) = none := by
      rw [readableDocument, hp, hrj.parse_done]; rfl
    rw [hn]; rfl
  | false =>
    simp only [Bool.false_eq_true, if_false]
    cases readableDocument rj source (dataPayload event) with
    | none => rfl
    | some doc =>
      cases source with
      | anthropic => exact Anthropic.toolFragment_deltaOf rj _ doc
      | openAIChatCompletions => exact OpenAI.toolFragment_deltaOf rj (eventType event) doc
      | openAIResponses => exact OpenAIResponses.toolFragment_deltaOf rj (eventType event) doc
      | gemini => exact Gemini.toolFragment_deltaOf rj (eventType event) doc

def carriedCall (target : Format) (f : ToolFragment) : ToolFragment :=
  let name := f.opens.getD []
  match target with
  | .anthropic => { f with opens := none }
  | .openAIChatCompletions =>
    { f with opens := named name, body := if name.isEmpty then f.body else [] }
  | .openAIResponses => { key := 0, opens := named name, body := f.body }
  | .gemini => { key := 0, opens := some name, body := rj.write (.object []) }

def carried (source target : Format) (f : ToolFragment) : Option ToolFragment :=
  if source = .anthropic ∧ f.opens.isSome then none else some (carriedCall rj target f)

structure ToolShape (source : Format) (d : StreamDelta) : Prop where
  start : source ≠ .anthropic → d.type = .contentStart → d.toolName = []
  call : source = .anthropic → d.type = .toolCallDelta → d.toolName = []

variable {source : Format} {d : StreamDelta}

theorem toolShape_of_no_tool (h : d.type ≠ .contentStart ∧ d.type ≠ .toolCallDelta) :
    ToolShape source d :=
  ⟨fun _ hd => absurd hd h.1, fun _ hd => absurd hd h.2⟩

theorem Anthropic.toolShape_deltaOf (eventType : Bytes) (doc : Json) :
    ToolShape .anthropic (Anthropic.deltaOf eventType doc) := by
  refine ⟨fun hne => absurd rfl hne, fun _ => ?_⟩
  unfold Anthropic.deltaOf Anthropic.messageStartOf
    Anthropic.contentBlockStartOf Anthropic.contentBlockDeltaOf
    Anthropic.messageDeltaOf
  simp only
  repeat' split
  all_goals simp

theorem OpenAI.toolShape_deltaOf : ToolShape .openAIChatCompletions (OpenAI.deltaOf doc) := by
  refine ⟨fun _ => ?_, fun h => by cases h⟩
  unfold OpenAI.deltaOf OpenAI.choiceDeltaOf OpenAI.toolCallDeltaOf
  simp only
  repeat' split
  all_goals simp

theorem OpenAIResponses.toolShape_deltaOf :
    ToolShape .openAIResponses (OpenAIResponses.deltaOf doc) := by
  refine ⟨fun _ => ?_, fun h => by cases h⟩
  unfold OpenAIResponses.deltaOf
  simp only
  repeat' split
  all_goals simp

theorem Gemini.type_deltaOf (doc : Json) : (Gemini.deltaOf rj doc).type ≠ .contentStart := by
  unfold Gemini.deltaOf
  split
  · rename_i cand _ _
    have hf : (Gemini.finishOf cand).type ≠ .contentStart := by
      unfold Gemini.finishOf
      split <;> simp
    unfold Gemini.candidateDeltaOf
    cases hfo : (Gemini.candidateParts cand).findSome?
        (Gemini.partDeltaOf rj (Gemini.finishOf cand)) with
    | none => exact hf
    | some delta =>
      obtain ⟨p, -, hp⟩ := exists_of_findSome?_eq_some hfo
      unfold Gemini.partDeltaOf at hp
      repeat' split at hp
      all_goals cases hp
      all_goals simp
  · simp

theorem toolShape_deltaRead (source : Format) (event : Bytes) :
    ToolShape source (deltaRead rj source event) := by
  rw [deltaRead_eq, streamDelta]
  split
  · exact toolShape_of_no_tool (by simp)
  cases readableDocument rj source (dataPayload event) with
  | none => exact toolShape_of_no_tool (by simp)
  | some doc =>
    cases source with
    | anthropic => exact Anthropic.toolShape_deltaOf _ doc
    | openAIChatCompletions => exact OpenAI.toolShape_deltaOf doc
    | openAIResponses => exact OpenAIResponses.toolShape_deltaOf doc
    | gemini => exact ⟨fun _ h => absurd h (Gemini.type_deltaOf rj doc), fun h => by cases h⟩

theorem getD_named : (named name).getD [] = name := by
  cases name <;> rfl

variable {target : Format}

theorem toolFragment_rereadDelta (hne : source ≠ target) (h : ToolShape source d) :
    toolFragment target (rereadDelta rj target d) =
      (toolFragment source d).bind (carried rj source target) := by
  cases ht : d.type with
  | toolCallDelta =>
    have ho : source = .anthropic →
        (if source = .gemini then some d.toolName else named d.toolName) = none := by
      rintro rfl
      rw [h.call rfl ht]; rfl
    have hna : ((if source = .gemini then some d.toolName else named d.toolName).getD []) =
        d.toolName := by
      split
      · rfl
      · exact getD_named _
    have hk : ¬ (source = .anthropic ∧
        (if source = .gemini then some d.toolName else named d.toolName).isSome) := by
      rintro ⟨hs, hso⟩
      rw [ho hs] at hso; cases hso
    simp only [toolFragment, ht, Option.bind_some, carried, carriedCall, hna, if_neg hk]
    cases target <;> simp only [rereadDelta, Anthropic.rereadDelta, OpenAI.rereadDelta,
      OpenAIResponses.rereadDelta, Gemini.rereadDelta, ht] <;> rfl
  | contentStart =>
    by_cases hsou : source = .anthropic
    · subst hsou
      have hn : (toolFragment .anthropic d).bind (carried rj .anthropic target) = none := by
        simp only [toolFragment, ht]
        split
        · rfl
        · simp [carried]
      rw [hn]
      cases target with
      | anthropic => exact absurd rfl hne
      | openAIChatCompletions =>
        simp only [rereadDelta, OpenAI.rereadDelta, ht]
        cases d.finishReason <;> rfl
      | openAIResponses => simp only [rereadDelta, OpenAIResponses.rereadDelta, ht]; rfl
      | gemini => simp only [rereadDelta, Gemini.rereadDelta, ht]; rfl
    · have hna := h.start hsou ht
      have hn : toolFragment source d = none := by simp [toolFragment, ht, hna]
      rw [hn]
      cases target <;> simp only [rereadDelta, Anthropic.rereadDelta,
        OpenAI.rereadDelta, OpenAIResponses.rereadDelta,
        Gemini.rereadDelta, ht, hna] <;> first | rfl | (cases d.finishReason <;> rfl)
  | _ =>
    have hn : toolFragment source d = none := by simp [toolFragment, ht]
    rw [hn]
    cases target <;> simp only [rereadDelta, Anthropic.rereadDelta,
      OpenAI.rereadDelta, OpenAIResponses.rereadDelta,
      Gemini.rereadDelta, ht] <;> first | rfl | (cases d.finishReason <;> rfl)

theorem StreamPipe.fragments_run {p : StreamPipe} {env : Surroundings} {chunks : List Bytes}
    (h : Converts p env chunks.flatten) (hne : ∀ chunk ∈ chunks, chunk ≠ []) :
    (deltas p.rj p.target (clientBytes (p.run env (chunks.map .bytes)).log)).filterMap
        (toolFragment p.target) = (sourceFragments p.rj p.source chunks.flatten).filterMap
        (carried p.rj p.source p.target) := by
  rw [deltas_run h hne, deltas, filterMap_map, filterMap_map, sourceFragments, filterMap_filterMap]
  refine filterMap_congr fun event _ => ?_
  rw [← toolFragment_deltaRead h.lawful]
  exact toolFragment_rereadDelta p.rj h.formats (toolShape_deltaRead p.rj p.source event)

def keepsCalls (source target : Format) (fs : List ToolFragment) : Prop :=
  match source, target with
  | _, .anthropic => ∀ f ∈ fs, f.opens = none
  | .anthropic, .gemini => fs = []
  | .anthropic, _ => ∀ f ∈ fs, f.opens = none
  | .openAIChatCompletions, .gemini | .openAIResponses, .gemini =>
    ∀ f ∈ fs, f.opens.isSome = true ∧ f.body = rj.write (.object [])
  | .openAIChatCompletions, .openAIResponses => sequential none fs = true
  | .gemini, .openAIResponses => ∀ f ∈ fs, f.opens ≠ some []
  | .openAIResponses, .openAIChatCompletions => ∀ f ∈ fs, f.opens.isSome = true → f.body = []
  | .gemini, .openAIChatCompletions => ∀ f ∈ fs, f.opens ≠ some [] ∧ f.body = []
  | .openAIChatCompletions, .openAIChatCompletions | .openAIResponses, .openAIResponses
  | .gemini, .gemini => True

structure FragmentShape (source : Format) (f : ToolFragment) : Prop where
  whole : source = .gemini → f.opens.isSome = true
  name : source ≠ .gemini → f.opens ≠ some []

theorem named_ne : named name ≠ some [] := by
  cases name <;> simp [named]

variable {f : ToolFragment}

theorem fragmentShape_of_toolFragment (hs : source = .gemini → d.type ≠ .contentStart)
    (h : toolFragment source d = some f) : FragmentShape source f := by
  unfold toolFragment at h
  split at h
  · cases h
    by_cases hg : source = .gemini
    · exact ⟨fun _ => by simp [hg], fun hne => absurd hg hne⟩
    · exact ⟨fun he => absurd he hg, fun _ => by simpa [hg] using named_ne d.toolName⟩
  · rename_i ht
    split at h
    · cases h
    · rename_i hf
      cases h
      refine ⟨fun hg => absurd ht (hs hg), fun _ hn => hf ?_⟩
      rw [Option.some.inj hn]; rfl
  · cases h

theorem fragmentShape_of_mem {rj : RapidJson} (hrj : StreamLawful rj) {bytes : Bytes}
    (h : f ∈ sourceFragments rj source bytes) : FragmentShape source f := by
  obtain ⟨event, -, he⟩ := mem_filterMap.1 h
  rw [← toolFragment_deltaRead hrj] at he
  refine fragmentShape_of_toolFragment ?_ he
  rintro rfl
  rw [deltaRead_eq, streamDelta]
  split
  · simp
  cases readableDocument rj .gemini (dataPayload event) with
  | none => simp
  | some doc => exact Gemini.type_deltaOf rj doc

section

variable (rj : RapidJson) {fs : List ToolFragment}

theorem mem_carried {g : ToolFragment} (h : g ∈ fs.filterMap (carried rj source target)) :
    ∃ f ∈ fs, ¬ (source = .anthropic ∧ f.opens.isSome) ∧ g = carriedCall rj target f := by
  obtain ⟨f, hf, hg⟩ := mem_filterMap.1 h
  unfold carried at hg
  split at hg
  · cases hg
  · rename_i hk
    cases hg
    exact ⟨f, hf, hk, rfl⟩

theorem filterMap_carried (hs : source ≠ .anthropic) (target : Format) :
    fs.filterMap (carried rj source target) = fs.map (carriedCall rj target) := by
  rw [← filterMap_eq_map]
  refine filterMap_congr fun f _ => ?_
  simp [carried, hs]

theorem named_getD {o : Option Bytes} (h : o ≠ some []) : named (o.getD []) = o := by
  rcases o with _ | _ | ⟨c, s⟩
  · rfl
  · exact absurd rfl h
  · rfl

theorem items_carried_to_anthropic (source : Format) :
    items (fs.filterMap (carried rj source .anthropic)) = [] := by
  rw [items_eq_nil_iff]
  intro g hg
  obtain ⟨f, -, -, rfl⟩ := mem_carried rj hg
  rfl

theorem items_carried_from_anthropic
    (ht : target = .openAIChatCompletions ∨ target = .openAIResponses) :
    items (fs.filterMap (carried rj .anthropic target)) = [] := by
  rw [items_eq_nil_iff]
  intro g hg
  obtain ⟨f, -, hk, rfl⟩ := mem_carried rj hg
  have ho : f.opens = none := by simpa using hk
  rcases ht with rfl | rfl <;> simp [carriedCall, ho, named]

theorem items_anthropic_gemini_iff (hnam : ∀ f ∈ fs, f.opens ≠ some []) :
    items (fs.filterMap (carried rj .anthropic .gemini)) = items fs ↔ fs = [] := by
  constructor
  · intro h
    have hna := congrArg (map Prod.fst) h
    rw [map_fst_items, map_fst_items] at hna
    have he : ∀ name ∈ fs.filterMap opens, name = [] := by
      rw [← hna]
      intro name hm
      obtain ⟨g, hg, ho⟩ := mem_filterMap.1 hm
      obtain ⟨f, -, hk, rfl⟩ := mem_carried rj hg
      have hn : f.opens = none := by simpa using hk
      simpa [carriedCall, hn, eq_comm] using ho
    have hn : ∀ f ∈ fs, f.opens = none := by
      intro f hf
      cases ho : f.opens with
      | none => rfl
      | some name =>
        have hni := he name (mem_filterMap.2 ⟨f, hf, ho⟩)
        exact absurd (ho.trans (congrArg some hni)) (hnam f hf)
    rw [items_eq_nil_iff.2 hn, items_eq_nil_iff] at h
    rw [eq_nil_iff_forall_not_mem]
    intro f hf
    have hg : carriedCall rj .gemini f ∈ fs.filterMap (carried rj .anthropic .gemini) :=
      mem_filterMap.2 ⟨f, hf, by simp [carried, hn f hf]⟩
    cases h _ hg
  · rintro rfl; rfl

theorem items_gemini_iff : items (fs.map (carriedCall rj .gemini)) = items fs ↔
      ∀ f ∈ fs, f.opens.isSome ∧ f.body = rj.write (.object []) := by
  have hc : items (fs.map (carriedCall rj .gemini)) =
      fs.map fun f => (f.opens.getD [], rj.write (.object [])) := by
    have ho : ∀ g ∈ fs.map (carriedCall rj .gemini), g.opens = some (g.opens.getD []) := by
      intro g hg
      obtain ⟨f, -, rfl⟩ := mem_map.1 hg
      rfl
    rw [items_of_opens ho, map_map]; rfl
  have hp : (∀ f ∈ fs, f.opens.isSome) →
      items fs = fs.map fun f => (f.opens.getD [], f.body) := by
    intro ha
    refine items_of_opens fun f hf => ?_
    obtain ⟨name, hn⟩ := Option.isSome_iff_exists.1 (ha f hf)
    rw [hn]; rfl
  rw [hc]
  constructor
  · intro h f hf
    have ha : ∀ f ∈ fs, f.opens.isSome := by
      refine opens_of_length_le ?_
      rw [← h, length_map]
    rw [hp ha] at h
    exact ⟨ha f hf, (congrArg Prod.snd (map_inj_left.1 h f hf)).symm⟩
  · intro h
    rw [hp fun f hf => (h f hf).1]
    refine map_congr_left fun f hf => ?_
    rw [(h f hf).2]

theorem items_from_gemini_iff
    (ho : ∀ f ∈ fs, (carriedCall rj target f).opens = named (f.opens.getD []))
    (hw : ∀ f ∈ fs, f.opens.isSome) : items (fs.map (carriedCall rj target)) = items fs ↔
      ∀ f ∈ fs, f.opens ≠ some [] ∧ (carriedCall rj target f).body = f.body := by
  have hs : ∀ f ∈ fs, f.opens = some (f.opens.getD []) := by
    intro f hf
    obtain ⟨name, hna⟩ := Option.isSome_iff_exists.1 (hw f hf)
    rw [hna]; rfl
  have hc : (∀ f ∈ fs, f.opens ≠ some []) → items (fs.map (carriedCall rj target)) =
      fs.map fun f => (f.opens.getD [], (carriedCall rj target f).body) := by
    intro hn
    have ha : ∀ g ∈ fs.map (carriedCall rj target), g.opens = some (g.opens.getD []) := by
      intro g hg
      obtain ⟨f, hf, rfl⟩ := mem_map.1 hg
      rw [ho f hf, named_getD (hn f hf)]; exact hs f hf
    rw [items_of_opens ha, map_map]
    refine map_congr_left fun f hf => ?_
    simp only [Function.comp, ho f hf, getD_named]
  rw [items_of_opens hs]
  constructor
  · intro h
    have hle : (fs.map (carriedCall rj target)).length ≤
        (items (fs.map (carriedCall rj target))).length := by
      rw [h, length_map, length_map]
    have ha := opens_of_length_le hle
    have hn : ∀ f ∈ fs, f.opens ≠ some [] := by
      intro f hf hni
      have hl := ha _ (mem_map_of_mem hf)
      rw [ho f hf, hni] at hl; cases hl
    rw [hc hn] at h
    intro f hf
    exact ⟨hn f hf, congrArg Prod.snd (map_inj_left.1 h f hf)⟩
  · intro h
    rw [hc fun f hf => (h f hf).1]
    refine map_congr_left fun f hf => ?_
    rw [(h f hf).2]

theorem items_carried_iff (hne : source ≠ target) (hsh : ∀ f ∈ fs, FragmentShape source f) :
    items (fs.filterMap (carried rj source target)) = items fs ↔
      keepsCalls rj source target fs := by
  have hn : ∀ {gs : List ToolFragment}, items gs = [] →
      (items gs = items fs ↔ ∀ f ∈ fs, f.opens = none) := by
    intro gs hgs
    rw [hgs, eq_comm, items_eq_nil_iff]
  have hna : source ≠ .gemini → ∀ f ∈ fs, f.opens ≠ some [] := fun hs f hf => (hsh f hf).name hs
  have hw : source = .gemini → ∀ f ∈ fs, f.opens.isSome := fun hs f hf => (hsh f hf).whole hs
  cases source with
  | anthropic =>
    cases target with
    | anthropic => exact absurd rfl hne
    | openAIChatCompletions => exact hn (items_carried_from_anthropic rj (Or.inl rfl))
    | openAIResponses => exact hn (items_carried_from_anthropic rj (Or.inr rfl))
    | gemini => exact items_anthropic_gemini_iff rj (hna (by decide))
  | openAIChatCompletions =>
    cases target with
    | anthropic => exact hn (items_carried_to_anthropic rj _)
    | openAIChatCompletions => exact absurd rfl hne
    | openAIResponses =>
      have hm : fs.map (carriedCall rj .openAIResponses) = fs.map (rekey 0) := by
        refine map_congr_left fun f hf => ?_
        simp only [carriedCall, rekey, named_getD (hna (by decide) f hf)]
      rw [filterMap_carried rj (by decide), hm]; exact items_rekey_iff 0
    | gemini => rw [filterMap_carried rj (by decide)]; exact items_gemini_iff rj
  | openAIResponses =>
    cases target with
    | anthropic => exact hn (items_carried_to_anthropic rj _)
    | openAIChatCompletions =>
      have hm : fs.map (carriedCall rj .openAIChatCompletions) = fs.map strip := by
        refine map_congr_left fun f hf => ?_
        have hnam := hna (by decide) f hf
        obtain ⟨key, opens, body⟩ := f
        rcases opens with _ | _ | ⟨c, s⟩
        · rfl
        · exact absurd rfl hnam
        · rfl
      rw [filterMap_carried rj (by decide), hm]; exact items_strip_iff
    | openAIResponses => exact absurd rfl hne
    | gemini => rw [filterMap_carried rj (by decide)]; exact items_gemini_iff rj
  | gemini =>
    cases target with
    | anthropic => exact hn (items_carried_to_anthropic rj _)
    | openAIChatCompletions =>
      rw [filterMap_carried rj (by decide), items_from_gemini_iff rj (fun _ _ => rfl) (hw rfl)]
      refine forall₂_congr fun f hf => and_congr_right fun hnam => ?_
      obtain ⟨name, ho⟩ := Option.isSome_iff_exists.1 (hw rfl f hf)
      cases name with
      | nil => exact absurd ho hnam
      | cons c s => simp [carriedCall, ho, eq_comm]
    | openAIResponses =>
      rw [filterMap_carried rj (by decide), items_from_gemini_iff rj (fun _ _ => rfl) (hw rfl)]
      exact forall₂_congr fun f hf => and_iff_left rfl
    | gemini => exact absurd rfl hne

end

theorem StreamPipe.tool_calls_kept_iff {p : StreamPipe} {env : Surroundings} {chunks : List Bytes}
    (h : Converts p env chunks.flatten) (hne : ∀ chunk ∈ chunks, chunk ≠ []) :
    toolCalls p.target (deltas p.rj p.target (clientBytes (p.run env (chunks.map .bytes)).log)) =
        items (sourceFragments p.rj p.source chunks.flatten) ↔
      keepsCalls p.rj p.source p.target (sourceFragments p.rj p.source chunks.flatten) := by
  rw [toolCalls, fragments_run h hne]
  exact items_carried_iff p.rj h.formats fun f hf => fragmentShape_of_mem h.lawful hf

theorem sourceFragments_documentStream {es : List (Bytes × Json)}
    (h : ∀ e ∈ es, Sendable e.1 ∧ e.2.isObject ∧ chunkOk source e.2) :
    sourceFragments compact source (documentStream es) =
      es.filterMap fun e => documentFragment compact source e.1 e.2 := by
  rw [sourceFragments, dataEvents_documentStream fun e he => (h e he).1, filterMap_map]
  refine filterMap_congr fun e he => ?_
  obtain ⟨hn, ho, hok⟩ := h e he
  obtain ⟨ht, hd⟩ := documentAt_event hn ho
  change ((documentAt compact _).filter _).bind (documentFragment _ _ (eventType _)) = _
  rw [hd, ht, Option.filter_some, if_pos hok]
  rfl

def weatherCall : Json := .object [("candidates", .array [.object [("content", .object [
  ("parts", .array [.object [("functionCall", .object [
    ("name", .str "get_weather"), ("args", .object [("city", .str "Oslo")])])]])])]])]

theorem StreamPipe.weatherCall_kept : toolCalls .openAIResponses (deltas compact .openAIResponses
      (clientBytes ((pipeBetween .gemini .openAIResponses).run StreamPipe.patientClient
        ([documentStream [([], weatherCall)]].map .bytes)).log)) =
      [(ascii "get_weather", compact.write (.object [("city", .str "Oslo")]))] := by
  have hconverts : Converts (pipeBetween .gemini .openAIResponses) StreamPipe.patientClient
      [documentStream [([], weatherCall)]].flatten := converts_pipeBetween (by decide) _
  have hfragments : sourceFragments compact .gemini (documentStream [([], weatherCall)]) =
      [{ key := 0, opens := some "get_weather"
         body := compact.write (.object [("city", .str "Oslo")]) }] := by
    rw [sourceFragments_documentStream]
    · rfl
    · rw [forall_mem_singleton]; exact ⟨sendable_nil, rfl, rfl⟩
  have hkept := (tool_calls_kept_iff hconverts
    (by simp [documentStream, streamOf, eventOf])).2
  rw [flatten_singleton] at hkept
  refine (hkept ?_).trans ?_
  · change ∀ f ∈ sourceFragments compact .gemini (documentStream [([], weatherCall)]),
      f.opens ≠ some []
    rw [hfragments, forall_mem_singleton]; decide
  · change items (sourceFragments compact .gemini _) = _; rw [hfragments]; rfl

def weatherBlock : List (Bytes × Json) := [
  ("content_block_start", .object [
    ("type", .str "content_block_start"), ("index", .int 0),
    ("content_block", .object [
      ("type", .str "tool_use"), ("id", .str "toolu_1"), ("name", .str "get_weather"),
      ("input", .object [])])]),
  ("content_block_delta", .object [
    ("type", .str "content_block_delta"), ("index", .int 0),
    ("delta", .object [("type", .str "input_json_delta"), ("partial_json", .str "[]")])])]

theorem StreamPipe.weatherBlock_call_lost :
    toolCalls .openAIChatCompletions (deltas compact .openAIChatCompletions
        (clientBytes ((pipeBetween .anthropic .openAIChatCompletions).run StreamPipe.patientClient
          ([documentStream weatherBlock].map .bytes)).log)) = [] ∧
      items (sourceFragments compact .anthropic (documentStream weatherBlock)) =
        [(ascii "get_weather", ascii "[]")] := by
  have hconverts : Converts (pipeBetween .anthropic .openAIChatCompletions)
      StreamPipe.patientClient [documentStream weatherBlock].flatten :=
    converts_pipeBetween (by decide) _
  have hfragments : sourceFragments compact .anthropic (documentStream weatherBlock) =
      [{ key := 0, opens := some "get_weather", body := [] },
       { key := 0, opens := none, body := "[]" }] := by
    rw [sourceFragments_documentStream]
    · rfl
    · rw [weatherBlock, forall_mem_cons, forall_mem_singleton]
      exact ⟨⟨⟨by decide, by decide, by decide⟩, rfl, rfl⟩,
        ⟨⟨by decide, by decide, by decide⟩, rfl, rfl⟩⟩
  constructor
  · have hrun := fragments_run hconverts
      (by simp [documentStream, weatherBlock, streamOf, eventOf])
    rw [flatten_singleton] at hrun
    refine (congrArg items hrun).trans ?_
    exact items_carried_from_anthropic _ (Or.inl rfl)
  · rw [hfragments]; rfl

end Gateway.Forwarder
