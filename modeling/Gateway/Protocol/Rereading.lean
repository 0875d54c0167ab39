import Gateway.Protocol.Canonical

/-! # What comes back of a request that was written -/

namespace Gateway.Protocol

open Lib Json
open List hiding lookup

section

variable (key : Bytes)

@[simp] theorem isObject_object (ms : List (Bytes × Json)) : (object ms).isObject := rfl

@[simp] theorem isObject_null : null.isObject = false := rfl

@[simp] theorem lookup_object_nil : (object []).lookup key = none := rfl

variable (k : Bytes)

@[simp] theorem lookup_object_cons (v : Json) (ms : List (Bytes × Json)) :
    (object ((k, v) :: ms)).lookup key = if key = k then some v else (object ms).lookup key := by
  rw [lookup, members, lookup_cons]
  split <;> simp_all [lookup, members]

@[simp] theorem isObject_objectOf (gs : List (List (Bytes × Json))) : (objectOf gs).isObject := rfl

@[simp] theorem lookup_objectOf_nil : (objectOf []).lookup key = none := rfl

@[simp] theorem lookup_objectOf_cons (g : List (Bytes × Json)) (gs : List (List (Bytes × Json))) :
    (objectOf (g :: gs)).lookup key = (g.lookup key).or ((objectOf gs).lookup key) := by
  simp [objectOf, lookup, members, lookup_append]

@[simp] theorem lookup_memberOf (v : Json) :
    (memberOf k v).lookup key = if key = k then some v else none := by
  rw [memberOf, lookup_cons]
  split <;> simp_all

@[simp] theorem lookup_memberIf (p : Bool) (k : Bytes) (v : Json) :
    (memberIf p k v).lookup key = if key = k ∧ p = true then some v else none := by
  cases p with
  | false => simp [memberIf]
  | true => simp [memberIf, ← memberOf.eq_def]

@[simp] theorem lookup_memberOpt (v : Option Json) :
    (memberOpt k v).lookup key = if key = k then v else none := by
  cases v with
  | none => simp [memberOpt]
  | some v => exact lookup_memberOf key k v

end

variable {s : Bytes}

theorem string?_str (h : NulFree s) : (str s).string? = some s := by
  simp [str, string?, h.cstr_eq]

variable {ss : List Bytes}

theorem strings_of_stringsValue (h : ∀ s ∈ ss, NulFree s) :
    (ss.map str).filterMap string? = ss := by
  rw [filterMap_map]
  induction ss with
  | nil => rfl
  | cons s ss ih =>
    rw [filterMap_cons_some (show (string? ∘ str) s = some s from
      string?_str (h s mem_cons_self)), ih fun x hx => h x (mem_cons_of_mem s hx)]

variable {n : Int}

section

variable {j : Json} {key : Bytes}

theorem stringAt_of_lookup (h : j.lookup key = some (.str s)) (hs : NulFree s) :
    stringAt j key = s := by
  simp [stringAt, h, string?_str hs]

theorem stringAt_of_lookupIf
    (h : j.lookup key = if (!s.isEmpty) = true then some (.str s) else none) (hs : NulFree s) :
    stringAt j key = s := by
  cases s with
  | nil => simp [stringAt, h]
  | cons c s => exact stringAt_of_lookup (by simpa using h) hs

theorem stringsAt_of_lookupIf
    (h : j.lookup key = if (!ss.isEmpty) = true then some (stringsValue ss) else none)
    (hs : ∀ s ∈ ss, NulFree s) : stringsAt j key = ss := by
  cases ss with
  | nil => simp [stringsAt, entriesAt, h]
  | cons s ss =>
    have he : entriesAt j key = (s :: ss).map str := by simp [entriesAt, h, stringsValue, array?]
    rw [stringsAt, he, strings_of_stringsValue hs]

theorem entriesAt_of_lookup {xs : List Json} (h : j.lookup key = some (.array xs)) :
    entriesAt j key = xs := by
  simp [entriesAt, h, array?]

theorem entriesAt_of_lookupIf {α : Type} {f : α → Json} {xs : List α}
    (h : j.lookup key = if (!xs.isEmpty) = true then some (.array (xs.map f)) else none) :
    entriesAt j key = xs.map f := by
  cases xs with
  | nil => simp [entriesAt, h]
  | cons x xs => exact entriesAt_of_lookup (by simpa using h)

theorem flagAt_of_lookupIf {p : Bool}
    (h : j.lookup key = if p = true then some (.bool true) else none) : flagAt j key = p := by
  cases p <;> simp [flagAt, h, bool?]

theorem double?_of_lookup {o : Option Rat} (h : j.lookup key = o.map .double) :
    (j.lookup key).bind double? = o := by
  cases o <;> simp [h, double?]

theorem int?_of_lookup (h : j.lookup key = some (.int n)) (hn : -2 ^ 31 ≤ n ∧ n < 2 ^ 31) :
    (j.lookup key).bind int? = some n := by
  simpa [h, int?, isInt, getInteger] using hn

end

theorem flatMap_map_of_singleton {α β : Type} {f : α → Json} {g : Json → List β} {k : α → β}
    {xs : List α} (h : ∀ x ∈ xs, g (f x) = [k x]) : (xs.map f).flatMap g = xs.map k := by
  rw [flatMap_map, map_eq_flatMap]
  exact flatMap_congr h

theorem ChatRequest.addAll_messages (req : ChatRequest) (msgs : List Message) :
    req.addAll (msgs.map fun msg => { messages := [msg] }) =
      { req with messages := req.messages ++ msgs } := by
  simp [addAll, filterMap_map, flatMap_map, joinLines, Function.comp_def]

def ContentBlock.text? (b : ContentBlock) : Option Bytes :=
  if b.type = .text then some b.text else none

theorem Message.textContent_eq (msg : Message) :
    msg.textContent = joinLines [] (msg.content.filterMap ContentBlock.text?) := by
  have hf : ∀ (bs : List ContentBlock) (out : Bytes),
      bs.foldl (fun out b => if b.type = .text then appendLine out b.text else out) out =
        joinLines out (bs.filterMap ContentBlock.text?) := by
    intro bs
    induction bs with
    | nil => exact fun _ => rfl
    | cons b bs ih =>
      intro out
      rw [foldl_cons, ih]
      by_cases hb : b.type = .text <;> simp [ContentBlock.text?, hb, joinLines]
  exact hf _ _

variable {msg : Message}

theorem nulFree_textContent {rj : RapidJson} (h : msg.Canonical rj) : NulFree msg.textContent := by
  rw [msg.textContent_eq]
  refine nulFree_joinLines nulFree_nil fun t ht => ?_
  obtain ⟨b, hb, hbt⟩ := mem_filterMap.1 ht
  cases h.content b hb with
  | text t' ht' => cases hbt; exact ht'
  | _ => cases hbt

def writtenLimit (n : Int) : Int := if 0 < n then n else 4096

theorem writtenLimit_of_pos (h : 0 < n) : writtenLimit n = n := if_pos h

theorem writtenLimit_bounds (h : -2 ^ 31 ≤ n ∧ n < 2 ^ 31) :
    -2 ^ 31 ≤ writtenLimit n ∧ writtenLimit n < 2 ^ 31 := by
  unfold writtenLimit
  split
  · exact h
  · decide

theorem writtenLimit_of_lookupIf {j : Json} {key : Bytes} {d : Int}
    (h : j.lookup key = if n > 0 then some (.int n) else none) (hn : -2 ^ 31 ≤ n ∧ n < 2 ^ 31)
    (hd : d = 4096) : ((j.lookup key).bind int?).getD d = writtenLimit n := by
  unfold writtenLimit
  split
  · rw [int?_of_lookup (by rw [h, if_pos ‹_›]) hn]; rfl
  · rw [h, if_neg ‹_›, hd]; rfl

variable {b : ContentBlock} {t : ToolDef} {req : ChatRequest}

namespace Anthropic

def rereadBlock (rj : RapidJson) (b : ContentBlock) : ContentBlock :=
  match b.type with
  | .toolUse => { b with toolArguments := rj.write (objectOfText rj b.toolArguments) }
  | .toolResult => { b with toolName := [] }
  | _ => b

def reread (rj : RapidJson) (msg : Message) : Message :=
  .ofBlocks msg.role
    (if needsBlocks msg then msg.content.map (rereadBlock rj)
     else [{ type := .text, text := msg.textContent }])

def rereadTool (rj : RapidJson) (t : ToolDef) : ToolDef :=
  { t with parametersJson := rj.write (objectOfText rj t.parametersJson) }

variable {rj : RapidJson}

theorem blockOf_blockValue (h : b.Canonical rj) :
    blockOf rj (blockValue rj b) = some (rereadBlock rj b) := by
  cases h with
  | text t ht => simp +decide [blockValue, blockOf, stringAt, string?_str, ht, rereadBlock]
  | toolUse id name arguments hid hn ha =>
    simp +decide [blockValue, blockOf, stringAt, objectTextAt, string?_str, hid, hn,
      rereadBlock, object?, isObject_objectOfText]
  | toolResult id name t hid hn ht =>
    simp +decide [blockValue, blockOf, stringAt, resultText, string?_str, hid, rereadBlock]
    simp [str, ht.cstr_eq]

theorem contentForeign_blocks {bs : List ContentBlock} (h : ∀ b ∈ bs, b.Canonical rj) :
    contentForeign (.array (bs.map (blockValue rj))) = false := by
  simp only [contentForeign, array?, Option.getD_some, any_map, any_eq_false]
  intro b hb
  cases h b hb with
  | text t ht => simp +decide [blockValue, partForeign, stringAt, string?_str]
  | toolUse id name arguments hid hn ha =>
    simp +decide [blockValue, partForeign, stringAt, string?_str]
  | toolResult id name t hid hn ht =>
    simp +decide [blockValue, partForeign, stringAt, entriesAt, str, array?]

theorem entryOf_messageValue (h : msg.Canonical rj) :
    entryOf rj (messageValue rj msg) = { messages := [reread rj msg] } := by
  have hr : stringAt (messageValue rj msg) "role" = msg.role := by
    simp [messageValue, stringAt, string?_str, h.role]
  have hc : valueAt (messageValue rj msg) "content" =
      if needsBlocks msg then .array (msg.content.map (blockValue rj)) else .str
        msg.textContent := by
    simp +decide [messageValue, valueAt]
  have ho : (messageValue rj msg).isObject := rfl
  simp only [entryOf, ho, if_true, hr, hc, reread]
  cases needsBlocks msg with
  | false => simp [blocksOf, contentForeign, str, array?, (nulFree_textContent h).cstr_eq]
  | true =>
    have hblocks : (msg.content.map (blockValue rj)).filterMap (blockOf rj) =
        msg.content.map (rereadBlock rj) := by
      rw [filterMap_map, ← filterMap_eq_map]
      exact filterMap_congr fun b hb => blockOf_blockValue (h.content b hb)
    simp [blocksOf, contentForeign_blocks h.content, hblocks]

theorem toolOf_toolValue (h : t.Canonical rj) : toolOf rj (toolValue rj t) = [rereadTool rj t] := by
  have hn : stringAt (toolValue rj t) "name" = t.name :=
    stringAt_of_lookup (by simp [toolValue]) h.name
  have hd : stringAt (toolValue rj t) "description" = t.description :=
    stringAt_of_lookupIf (by simp +decide [toolValue]) h.description
  have hs : (toolValue rj t).lookup "input_schema" =
      some (objectOfText rj t.parametersJson) := by
    simp +decide [toolValue]
  have ho : (toolValue rj t).isObject := rfl
  simp [toolOf, ho, toolDefOf, hn, hd, objectTextAt, hs, object?, isObject_objectOfText, rereadTool]

theorem userIdOf_of_lookup {doc : Json} {user : Bytes} (h : doc.lookup "metadata" =
      if (!user.isEmpty) = true then some (.object [("user_id", .str user)]) else none)
    (hu : NulFree user) : userIdOf doc = user := by
  refine stringAt_of_lookupIf ?_ hu
  cases user <;> simp [valueAt, h]

theorem requestOf_requestValue (h : req.Canonical rj) :
    requestOf rj (requestValue rj req) = { req with
      maxTokens := writtenLimit req.maxTokens
      messages := req.messages.map (reread rj)
      tools := req.tools.map (rereadTool rj)
      unsupportedContent := false } := by
  generalize hd : requestValue rj req = doc
  have hm : stringAt doc "model" = req.model :=
    stringAt_of_lookup (by simp [← hd, requestValue]) h.model
  have hmax : (doc.lookup "max_tokens").bind int? = some (writtenLimit req.maxTokens) :=
    int?_of_lookup (by simp +decide [← hd, requestValue, writtenLimit])
      (writtenLimit_bounds h.maxTokens)
  have hsystem : systemOf doc = req.system := by
    have hl : doc.lookup "system" =
        if (!req.system.isEmpty) = true then some (.str req.system) else none := by
      simp +decide [← hd, requestValue]
    rw [systemOf, hl]
    cases hs : req.system with
    | nil => rfl
    | cons c s =>
      have hc : cstr (c :: s) = c :: s := (hs ▸ h.system : NulFree (c :: s)).cstr_eq
      simp [str, hc]
  have hst : flagAt doc "stream" = req.stream :=
    flagAt_of_lookupIf (by simp +decide [← hd, requestValue])
  have htemperature : (doc.lookup "temperature").bind double? = req.temperature :=
    double?_of_lookup (by simp +decide [← hd, requestValue])
  have hto : (doc.lookup "top_p").bind double? = req.topP :=
    double?_of_lookup (by simp +decide [← hd, requestValue])
  have hsto : stringsAt doc "stop_sequences" = req.stop :=
    stringsAt_of_lookupIf (by simp +decide [← hd, requestValue]) h.stop
  have hu : userIdOf doc = req.metadataUserId :=
    userIdOf_of_lookup (by simp +decide [← hd, requestValue]) h.metadataUserId
  have hmessages : entriesAt doc "messages" = req.messages.map (messageValue rj) :=
    entriesAt_of_lookup (by simp +decide [← hd, requestValue])
  have htoo : entriesAt doc "tools" = req.tools.map (toolValue rj) :=
    entriesAt_of_lookupIf (by simp +decide [← hd, requestValue])
  have he : (req.messages.map (messageValue rj)).map (entryOf rj) =
      (req.messages.map (reread rj)).map fun msg => { messages := [msg] } := by
    rw [map_map, map_map]
    exact map_congr_left fun msg hms => entryOf_messageValue (h.messages msg hms)
  simp only [requestOf, hm, hmax, hsystem, hst, htemperature, hto, hsto, hu, hmessages,
    htoo, he, ChatRequest.addAll_messages, nil_append, Option.getD_some,
    flatMap_map_of_singleton fun t ht => toolOf_toolValue (h.tools t ht)]

end Anthropic

namespace OpenAI

def rereadBlock (b : ContentBlock) : Option ContentBlock :=
  match b.type with
  | .toolUse => none
  | .toolResult => some { b with toolName := [] }
  | _ => some b

def writesText (msg : Message) : Bool := !hasToolBlocks msg && msg.toolCalls.isEmpty

def reread (msg : Message) : Message :=
  { msg with
    content :=
      if writesText msg then [{ type := .text, text := msg.textContent }]
      else msg.content.filterMap rereadBlock }

def rereadForeign (msg : Message) : Bool :=
  !writesText msg && msg.content.any fun b => b.type = .toolUse

variable {rj : RapidJson}

theorem blockOf_blockValue (h : b.Canonical rj) : blockOf rj (blockValue b) = rereadBlock b := by
  cases h with
  | text t ht => simp +decide [blockValue, blockOf, stringAt, string?_str, ht, rereadBlock]
  | toolUse id name arguments hid hn ha => simp +decide [blockValue, blockOf, stringAt, rereadBlock]
  | toolResult id name t hid hn ht =>
    simp +decide [blockValue, blockOf, stringAt, resultText, string?_str, hid, rereadBlock]
    simp [str, ht.cstr_eq]

theorem partForeign_blockValue (h : b.Canonical rj) :
    partForeign (blockValue b) = decide (b.type = .toolUse) := by
  cases h with
  | text t ht => simp +decide [blockValue, partForeign, stringAt, string?_str]
  | toolUse id name arguments hid hn ha => simp +decide [blockValue, partForeign, stringAt]
  | toolResult id name t hid hn ht =>
    simp +decide [blockValue, partForeign, stringAt, entriesAt, str, array?]

theorem callOf_toolCallValue {tc : ToolCall} (h : tc.Canonical) :
    callOf (toolCallValue tc) = [tc] := by
  simp +decide [callOf, toolCallValue, stringAt, valueAt, string?_str, h.id, h.name, h.arguments]

theorem entryOf_messageValue (h : msg.Canonical rj) (hs : msg.role ≠ ascii "system")
    (hd : msg.role ≠ ascii "developer") : entryOf rj (messageValue msg) =
      { messages := [reread msg], unsupported := rereadForeign msg } := by
  have ho : (messageValue msg).isObject := rfl
  have hr : stringAt (messageValue msg) "role" = msg.role :=
    stringAt_of_lookup (by simp [messageValue]) h.role
  have hid : stringAt (messageValue msg) "tool_call_id" = msg.toolCallId :=
    stringAt_of_lookupIf (by simp +decide [messageValue]) h.toolCallId
  have hc : entriesAt (messageValue msg) "tool_calls" = msg.toolCalls.map toolCallValue :=
    entriesAt_of_lookupIf (by simp +decide [messageValue])
  have hco : valueAt (messageValue msg) "content" =
      if writesText msg = true then .str msg.textContent
      else .array (msg.content.map blockValue) := by
    simp +decide [messageValue, valueAt, writesText]
  simp only [entryOf, ho, hr, hid, hc, hco, reread, rereadForeign,
    flatMap_map_of_singleton fun tc htc => callOf_toolCallValue (h.toolCalls tc htc)]
  cases writesText msg with
  | true => simp [hs, hd, blocksOf, contentForeign, str, array?, (nulFree_textContent h).cstr_eq]
  | false =>
    have hblocks : (msg.content.map blockValue).filterMap (blockOf rj) =
        msg.content.filterMap rereadBlock := by
      rw [filterMap_map]
      exact filterMap_congr fun b hb => blockOf_blockValue (h.content b hb)
    have hf : (msg.content.map blockValue).any partForeign =
        msg.content.any fun b => b.type = .toolUse := by
      rw [any_map, Bool.eq_iff_iff, any_eq_true, any_eq_true]
      exact exists_congr fun b => and_congr_right fun hb => by
        rw [← partForeign_blockValue (h.content b hb), Function.comp]
    simp [hs, hd, blocksOf, contentForeign, array?, hblocks, hf]

theorem objectText_of_schemaMember (hrj : Lawful rj) (h : t.Canonical rj) :
    ((((schemaMember rj t).lookup (ascii "parameters")).bind object?).map rj.write).getD [] =
      t.parametersJson := by
  obtain hn | ⟨o, ho, hw⟩ := h.parametersJson
  · simp [schemaMember, hn]
  · have hne : (rj.write o).isEmpty = false := by simpa using hrj.write_ne_nil o
    simp [schemaMember, hw, hne, parse_cstr_write hrj, object?, ho]

theorem toolOf_toolValue (hrj : Lawful rj) (h : t.Canonical rj) :
    toolOf rj (toolValue rj t) = [t] := by
  generalize hfn : objectOf [memberOf "name" (.str t.name),
    memberIf (!t.description.isEmpty) "description" (.str t.description), schemaMember rj t] = fn
  have ht : stringAt (toolValue rj t) "type" = ascii "function" :=
    stringAt_of_lookup (by simp [toolValue]) (by decide)
  have hf : valueAt (toolValue rj t) "function" = fn := by
    simp +decide [valueAt, toolValue, hfn]
  have hs : objectTextAt rj fn "parameters" = t.parametersJson := by
    have hl : fn.lookup "parameters" = (schemaMember rj t).lookup (ascii "parameters") := by
      simp +decide [← hfn]
    rw [objectTextAt, hl, objectText_of_schemaMember hrj h]
  have hn : stringAt fn "name" = t.name := stringAt_of_lookup (by simp [← hfn]) h.name
  have hd : stringAt fn "description" = t.description := by
    have hno : (schemaMember rj t).lookup (ascii "description") = none := by
      unfold schemaMember
      split <;> simp +decide
    exact stringAt_of_lookupIf (by simp +decide [← hfn, hno]) h.description
  simp [toolOf, ht, hf, toolDefOf, hn, hd, hs]

theorem entryOf_system {system : Bytes} (h : NulFree system) :
    entryOf rj (.object [("role", .str "system"), ("content", .str system)]) =
      { system := some system } := by
  have hr : stringAt (.object [("role", .str "system"), ("content", .str system)]) "role" =
      ascii "system" :=
    stringAt_of_lookup (by simp) (by decide)
  have hl : systemLine (.str system) = system := by simp [systemLine, str, h.cstr_eq]
  simp +decide [entryOf, hr, hl]

theorem requestOf_requestValue (hrj : Lawful rj) (h : req.Canonical rj)
    (hr : ∀ msg ∈ req.messages, msg.role ≠ ascii "system" ∧ msg.role ≠ ascii "developer") :
    requestOf rj (requestValue rj req) = { req with
      maxTokens := writtenLimit req.maxTokens
      messages := req.messages.map reread
      unsupportedContent := req.messages.any rereadForeign } := by
  generalize hd : requestValue rj req = doc
  have hmodel : stringAt doc "model" = req.model :=
    stringAt_of_lookup (by simp [← hd, requestValue]) h.model
  have hmax : tokenLimitOf doc = writtenLimit req.maxTokens := by
    refine writtenLimit_of_lookupIf (by simp +decide [← hd, requestValue]) h.maxTokens ?_
    simp +decide [← hd, requestValue]
  have hst : flagAt doc "stream" = req.stream :=
    flagAt_of_lookupIf (by simp +decide [← hd, requestValue])
  have htemperature : (doc.lookup "temperature").bind double? = req.temperature :=
    double?_of_lookup (by simp +decide [← hd, requestValue])
  have hto : (doc.lookup "top_p").bind double? = req.topP :=
    double?_of_lookup (by simp +decide [← hd, requestValue])
  have hsto : stopOf doc = req.stop := by
    have hl : doc.lookup "stop" =
        if (!req.stop.isEmpty) = true then some (stringsValue req.stop) else none := by
      simp +decide [← hd, requestValue]
    rw [← stringsAt_of_lookupIf hl h.stop, stopOf, stringsAt, entriesAt, hl]
    cases req.stop <;> rfl
  have hu : stringAt doc "user" = req.metadataUserId :=
    stringAt_of_lookupIf (by simp +decide [← hd, requestValue]) h.metadataUserId
  have htoo : entriesAt doc "tools" = req.tools.map (toolValue rj) :=
    entriesAt_of_lookupIf (by simp +decide [← hd, requestValue])
  have hmessages : entriesAt doc "messages" =
      (if req.system.isEmpty then []
       else [.object [("role", .str "system"), ("content", .str req.system)]])
        ++ req.messages.map messageValue :=
    entriesAt_of_lookup (by simp +decide [← hd, requestValue])
  have he : (entriesAt doc "messages").map (entryOf rj) =
      (if req.system.isEmpty then [] else [{ system := some req.system }])
        ++ req.messages.map fun msg =>
          { messages := [reread msg], unsupported := rereadForeign msg } := by
    rw [hmessages, map_append, map_map]
    congr 1
    · cases req.system.isEmpty <;> simp [entryOf_system h.system]
    · exact map_congr_left fun msg hm =>
        entryOf_messageValue (h.messages msg hm) (hr msg hm).1 (hr msg hm).2
  have hde : (req.tools.map (toolValue rj)).flatMap (toolOf rj) = req.tools := by
    rw [flatMap_map_of_singleton fun t ht => toolOf_toolValue hrj (h.tools t ht), map_id']
  simp only [requestOf, hmodel, hmax, hst, htemperature, hto, hsto, hu, htoo, he, hde,
    ChatRequest.addAll]
  cases hs : req.system <;>
    simp [filterMap_map, flatMap_map, joinLines, appendLine, Function.comp_def, ← map_eq_flatMap]

end OpenAI

end Gateway.Protocol
