import Gateway.JsonText
import Gateway.Forwarder.StreamPipe

/-! # The events of a refusal -/

namespace Gateway.Forwarder

open Lib JsonText List
open Protocol (Format)

variable {c : UInt8}

namespace StreamPipe

theorem readString_quoteByte (c : UInt8) (rest : Bytes) :
    readString (quoteByte c ++ rest) = (readString rest).map fun (s, rest) => (c :: s, rest) := by
  unfold quoteByte
  split_ifs with h34 h92 h8 h12 h10 h13 h9 h32
  · subst h34; rfl
  · subst h92; rfl
  · subst h8; rfl
  · subst h12; rfl
  · subst h10; rfl
  · subst h13; rfl
  · subst h9; rfl
  · have hdigits : ∀ n < 32, UInt8.ofNat n >>> 4 = UInt8.ofNat n / 16 ∧
        UInt8.ofNat n &&& 15 = UInt8.ofNat n % 16 := by decide
    obtain ⟨hhigh, hlow⟩ := hdigits c.toNat (UInt8.lt_iff_toNat_lt.1 h32)
    rw [UInt8.ofNat_toNat] at hhigh hlow
    rw [hhigh, hlow]; exact readString_control h32 rest
  · exact readString_plain h34 h92 h32 rest

theorem readString_quoted (s rest : Bytes) :
    readString (s.flatMap quoteByte ++ 34 :: rest) = some (s, rest) :=
  readString_escaped readString_quoteByte s rest

set_option maxRecDepth 4000 in
theorem le_of_mem_jsonQuote {s : Bytes} (h : c ∈ jsonQuote s) : 32 ≤ c := by
  have hq : ∀ x ∈ ascii "\"", 32 ≤ x := forall_mem_of_all (by decide)
  have hb : ∀ b, ∀ x ∈ quoteByte b, 32 ≤ x := fun b => forall_mem_of_all
    (forall_byte (p := fun b => (quoteByte b).all (fun x => decide (32 ≤ x))) (by decide) b)
  simp only [jsonQuote, mem_append, mem_flatMap] at h
  rcases h with (h | ⟨b, -, h⟩) | h
  · exact hq c h
  · exact hb b c h
  · exact hq c h

section
variable {n : Nat} {k text more rest : Bytes} {v : Json} {ms : List (Bytes × Json)}

theorem jsonQuote_append (s rest : Bytes) :
    jsonQuote s ++ rest = 34 :: (s.flatMap quoteByte ++ 34 :: rest) := by
  simp [jsonQuote, ascii]

theorem parseValue_string (n : Nat) (s rest : Bytes) :
    parseValue (n + 1) (jsonQuote s ++ rest) = some (.string s, rest) := by
  rw [jsonQuote_append, parseValue, readString_quoted]
  rfl

theorem parseKey_quoted (k rest : Bytes) :
    parseKey (jsonQuote k ++ 58 :: rest) = some (k, rest) := by
  rw [jsonQuote_append, parseKey, readString_quoted]
  rfl

theorem parseValue_object (hvalue : parseValue n text = some (v, more))
    (hmembers : parseMembers n more = some (ms, rest)) :
    parseValue (n + 1) (123 :: (jsonQuote k ++ 58 :: text)) = some (.object ((k, v) :: ms),
      rest) := by
  rw [parseValue, parseKey_quoted]
  · simp [hvalue, hmembers]
  · intro rest' heq; rw [jsonQuote_append] at heq; cases heq

theorem parseMembers_cons (hvalue : parseValue n text = some (v, more))
    (hmembers : parseMembers n more = some (ms, rest)) :
    parseMembers (n + 1) (44 :: (jsonQuote k ++ 58 :: text)) = some ((k, v) :: ms, rest) := by
  rw [parseMembers, parseKey_quoted]
  simp [hvalue, hmembers]

theorem parseMembers_end (n : Nat) (rest : Bytes) :
    parseMembers (n + 1) (125 :: rest) = some ([], rest) := by
  rw [parseMembers]

end

section
variable (code message : Bytes)

def errorText (codeName rest : Bytes) : Bytes :=
  123 :: (jsonQuote codeName ++ 58 :: (jsonQuote code ++ 44 ::
    (jsonQuote "message" ++ 58 :: (jsonQuote message ++ 125 :: rest))))

def errorObject (codeName : Bytes) : Json :=
  .object [(codeName, .string code), ("message", .string message)]

theorem parseValue_errorText (n : Nat) (codeName rest : Bytes) :
    parseValue (n + 3) (errorText code message codeName rest) =
      some (errorObject code message codeName, rest) :=
  parseValue_object (parseValue_string _ _ _)
    (parseMembers_cons (parseValue_string _ _ _) (parseMembers_end _ _))

def policyPayload : Format → Bytes
  | .anthropic => 123 :: (jsonQuote "type" ++ 58 :: (jsonQuote "error" ++ 44 ::
      (jsonQuote "error" ++ 58 :: errorText code message "type" [125])))
  | .openAIResponses => 123 :: (jsonQuote "type" ++ 58 :: (jsonQuote "response.failed" ++ 44 ::
      (jsonQuote "response" ++ 58 :: (123 :: (jsonQuote "status" ++ 58 :: (jsonQuote "failed" ++
        44 :: (jsonQuote "error" ++ 58 :: errorText code message "code" [125, 125])))))))
  | _ => 123 :: (jsonQuote "error" ++ 58 :: errorText code message "type" [125])

def policyDocument : Format → Json
  | .anthropic => .object
      [("type", .string "error"), ("error", errorObject code message "type")]
  | .openAIResponses => .object
      [("type", .string "response.failed"), ("response", .object
        [("status", .string "failed"), ("error", errorObject code message "code")])]
  | _ => .object [("error", errorObject code message "type")]

theorem parseValue_policyPayload (n : Nat) (target : Format) :
    parseValue (n + 7) (policyPayload code message target) =
      some (policyDocument code message target, []) := by
  have herror := parseValue_errorText code message
  cases target with
  | anthropic =>
    exact parseValue_object (parseValue_string _ _ _)
      (parseMembers_cons (herror (n + 2) "type" [125]) (parseMembers_end _ _))
  | openAIResponses =>
    have hresponse := parseValue_object (k := "status") (parseValue_string (n + 3) "failed" _)
      (parseMembers_cons (k := "error") (herror n "code" [125, 125]) (parseMembers_end _ _))
    exact parseValue_object (parseValue_string _ _ _)
      (parseMembers_cons hresponse (parseMembers_end _ _))
  | _ => exact parseValue_object (herror (n + 3) "type" [125]) (parseMembers_end _ _)

theorem parse_policyPayload (target : Format) : parse (policyPayload code message target) =
      some (policyDocument code message target) := by
  have hl : 7 ≤ (policyPayload code message target).length := by
    cases target <;> simp +arith [policyPayload, errorText, jsonQuote, ascii]
  obtain ⟨n, hn⟩ := Nat.exists_eq_add_of_le' hl
  rw [parse, hn, parseValue_policyPayload]

theorem le_of_mem_policyPayload {target : Format} (h : c ∈ policyPayload code message target) :
    32 ≤ c := by
  have hq : ∀ s, (∀ c ∈ jsonQuote s, 32 ≤ c) ↔ True :=
    fun s => iff_true_intro fun c => le_of_mem_jsonQuote
  have hal : ∀ c ∈ policyPayload code message target, 32 ≤ c := by
    cases target <;>
      simp only [policyPayload, errorText, forall_mem_cons, forall_mem_append, hq,
        not_mem_nil, false_implies, implies_true, and_true, true_and] <;> decide
  exact hal c h

end

def policyHead : Format → List Bytes
  | .anthropic => [ascii "event: error"]
  | .openAIResponses => [ascii "event: response.failed"]
  | _ => []

variable (p : StreamPipe) (r : StreamResult)

theorem policyErrorEvent_eq : p.policyErrorEvent r = (policyHead p.target).flatMap (· ++ [10]) ++
      (ascii "data: " ++ policyPayload r.policyErrorCode r.policyMessage p.target ++ [10, 10]) := by
  unfold policyErrorEvent
  cases p.target <;> simp only [append_assoc, policyPayload, errorText, policyHead,
    flatMap_cons, flatMap_nil, nil_append, cons_append] <;> rfl

structure SingleEvent (event payload : Bytes) : Prop where
  lines : ∃ front, lines event = front ++ [ascii "data: " ++ payload, [], []] ∧
    ∀ line ∈ front, line ≠ [] ∧ startsWith line "data" = false
  noReturn : 13 ∉ event

theorem lines_flatMap {front : List Bytes} (h : ∀ line ∈ front, 10 ∉ line) (rest : Bytes) :
    Lib.lines (front.flatMap (· ++ [10]) ++ rest) = front ++ Lib.lines rest := by
  induction front with
  | nil => rfl
  | cons line front ih =>
    rw [flatMap_cons, append_assoc, append_assoc, singleton_append,
      lines_append (h line mem_cons_self), ih fun l hl => h l (mem_cons_of_mem line hl)]
    rfl

theorem singleEvent_policyErrorEvent : SingleEvent (p.policyErrorEvent r)
    (policyPayload r.policyErrorCode r.policyMessage p.target) := by
  generalize hpa : policyPayload r.policyErrorCode r.policyMessage p.target = payload
  have hle : ∀ c ∈ payload, 32 ≤ c := fun c hc => le_of_mem_policyPayload _ _ (hpa.symm ▸ hc)
  have hda : ∀ x ∈ ascii "data: ", 32 ≤ x := forall_mem_of_all (by decide)
  have hno : ∀ c, c < 32 → c ∉ ascii "data: " ++ payload := fun c hc hm =>
    (mem_append.1 hm).elim (fun hd => absurd (hda c hd) (UInt8.not_le.2 hc))
      fun hp => absurd (hle c hp) (UInt8.not_le.2 hc)
  have hdat : Lib.lines (ascii "data: " ++ payload ++ [10, 10]) =
      [ascii "data: " ++ payload, [], []] := lines_append (hno 10 (by decide)) [10]
  rw [policyErrorEvent_eq, hpa]
  refine ⟨⟨policyHead p.target, ?_, ?_⟩, ?_⟩
  · rw [lines_flatMap (by cases p.target <;> decide), hdat]
  · cases p.target <;> decide
  · have hh : 13 ∉ (policyHead p.target).flatMap (· ++ [10]) := by cases p.target <;> decide
    simp only [mem_append, not_or]
    exact ⟨hh, ⟨fun hm => hno 13 (by decide) (mem_append_left _ hm),
      fun hm => hno 13 (by decide) (mem_append_right _ hm)⟩, by decide⟩

theorem policy_error_event_single : (∃ payload, SingleEvent (p.policyErrorEvent r) payload ∧
      parse payload = some (policyDocument r.policyErrorCode r.policyMessage p.target)) ∧
    (∀ value, parse (jsonQuote value) = some (.string value)) ∧
    ∀ value, ∀ c ∈ jsonQuote value, 32 ≤ c := by
  refine ⟨⟨_, singleEvent_policyErrorEvent p r, parse_policyPayload _ _ _⟩, fun value => ?_,
    fun value c => le_of_mem_jsonQuote⟩
  have hv := parseValue_string ((jsonQuote value).length - 1) value []
  have hl : (jsonQuote value).length - 1 + 1 = (jsonQuote value).length := by
    simp [jsonQuote, ascii]
  rw [hl, append_nil] at hv
  rw [parse, hv]

end StreamPipe

end Gateway.Forwarder
