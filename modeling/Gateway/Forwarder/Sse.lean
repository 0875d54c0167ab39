import Mathlib.Data.List.DropRight
import Gateway.Lib.Framing
import Gateway.Protocol.Converter

/-! # Server-sent events -/

namespace Gateway.Forwarder

open Lib Json List Option
open Protocol (Format)

def delimiter (b : Bytes) : Option (Nat × Nat) :=
  match find "\n\n" b, find "\r\n\r\n" b with
  | none, none => none
  | some lf, none => some (lf, 2)
  | none, some crlf => some (crlf, 4)
  | some lf, some crlf => if crlf < lf then some (crlf, 4) else some (lf, 2)

def cutEvent (b : Bytes) : Option (Bytes × Bytes) :=
  (delimiter b).map fun (delim, size) => (b.take (delim + size), b.drop (delim + size))

variable {b : Bytes}

theorem delimiter_bounds {delim size : Nat} (h : delimiter b = some (delim, size)) :
    0 < size ∧ delim + size ≤ b.length ∧ size ≤ 4 := by
  unfold delimiter at h
  have hlf : ∀ {i}, find "\n\n" b = some i → i + 2 ≤ b.length := find_add_length_le
  have hc : ∀ {i}, find "\r\n\r\n" b = some i → i + 4 ≤ b.length := find_add_length_le
  cases h1 : find "\n\n" b with
  | none =>
    cases h2 : find "\r\n\r\n" b with
    | none => rw [h1, h2] at h; cases h
    | some crlf => rw [h1, h2] at h; cases h; exact ⟨by omega, hc h2, by omega⟩
  | some lf =>
    cases h2 : find "\r\n\r\n" b with
    | none => rw [h1, h2] at h; cases h; exact ⟨by omega, hlf h1, by omega⟩
    | some crlf =>
      rw [h1, h2] at h
      simp only at h
      split at h <;> cases h
      · exact ⟨by omega, hc h2, by omega⟩
      · exact ⟨by omega, hlf h1, by omega⟩

theorem getElem?_of_prefix_drop {pat : Bytes} {i k : Nat} (h : pat <+: b.drop i)
    (hk : k < pat.length) : b[i + k]? = pat[k]? := by
  obtain ⟨t, ht⟩ := h
  rw [← getElem?_drop, ← ht, getElem?_append_left hk]

theorem crlf_not_completed_before_lf {x : Bytes} {lf crlf : Nat} (hlf : find "\n\n" b = some lf)
    (hn : find "\r\n\r\n" b = none) (hc : find "\r\n\r\n" (b ++ x) = some crlf) : ¬ crlf < lf := by
  intro hlt
  have hl : lf + 2 ≤ b.length := find_add_length_le hlf
  have hp : b.length < crlf + 4 := find_append_of_none hn hc
  obtain ⟨-, ha, -⟩ := find_eq_some_iff.1 (find_append_of_some hlf x)
  obtain ⟨-, hat, -⟩ := find_eq_some_iff.1 hc
  obtain rfl : lf = crlf + 1 := by omega
  have h1 : (b ++ x)[crlf + 1 + 1]? = some 10 := getElem?_of_prefix_drop ha (by decide)
  have h2 : (b ++ x)[crlf + 2]? = some 13 := getElem?_of_prefix_drop hat (by decide)
  rw [h1] at h2
  cases h2

theorem delimiter_append {d : Nat × Nat} (h : delimiter b = some d) (x : Bytes) :
    delimiter (b ++ x) = some d := by
  unfold delimiter at h ⊢
  cases hlf : find "\n\n" b with
  | none =>
    cases hc : find "\r\n\r\n" b with
    | none => simp only [hlf, hc] at h; cases h
    | some crlf =>
      simp only [hlf, hc] at h
      rw [find_append_of_some hc]
      have hl : crlf + 4 ≤ b.length := find_add_length_le hc
      cases hlf' : find "\n\n" (b ++ x) with
      | none => exact h
      | some lf =>
        have hp : b.length < lf + 2 := find_append_of_none hlf hlf'
        have hlt : crlf < lf := by omega
        simp only [hlt, if_true]; exact h
  | some lf =>
    rw [find_append_of_some hlf]
    cases hc : find "\r\n\r\n" b with
    | some crlf => rw [find_append_of_some hc]; simpa only [hlf, hc] using h
    | none =>
      simp only [hlf, hc] at h
      cases hc' : find "\r\n\r\n" (b ++ x) with
      | none => exact h
      | some crlf => simp only [if_neg (crlf_not_completed_before_lf hlf hc hc')]; exact h

theorem cutEvent_eq_none_iff :
    cutEvent b = none ↔ find "\n\n" b = none ∧ find "\r\n\r\n" b = none := by
  unfold cutEvent delimiter
  cases find "\n\n" b <;> cases find "\r\n\r\n" b <;> simp
  split <;> simp

theorem length_lt_of_cutEvent_append {x f r : Bytes} (hn : cutEvent b = none)
    (h : cutEvent (b ++ x) = some (f, r)) : b.length < f.length := by
  obtain ⟨⟨delim, size⟩, hde, hd⟩ := map_eq_some_iff.1 h
  obtain ⟨-, hle, -⟩ := delimiter_bounds hde
  obtain ⟨hlf, hc⟩ := cutEvent_eq_none_iff.1 hn
  have hp : b.length < delim + size := by
    have hlf' : ∀ {i}, find "\n\n" (b ++ x) = some i → b.length < i + 2 := find_append_of_none hlf
    have hc' : ∀ {i}, find "\r\n\r\n" (b ++ x) = some i → b.length < i + 4 :=
      find_append_of_none hc
    unfold delimiter at hde
    cases h1 : find "\n\n" (b ++ x) with
    | none =>
      cases h2 : find "\r\n\r\n" (b ++ x) with
      | none => simp only [h1, h2] at hde; cases hde
      | some crlf => simp only [h1, h2] at hde; cases hde; exact hc' h2
    | some lf =>
      cases h2 : find "\r\n\r\n" (b ++ x) with
      | none => simp only [h1, h2] at hde; cases hde; exact hlf' h1
      | some crlf =>
        simp only [h1, h2] at hde
        split at hde <;> cases hde
        · exact hc' h2
        · exact hlf' h1
  cases hd
  rw [length_take]
  omega

theorem delimiter_drop {delim size : Nat} (h : delimiter b = some (delim, size)) {k : Nat}
    (hk : k ≤ delim) : delimiter (b.drop k) = some (delim - k, size) := by
  unfold delimiter at h ⊢
  cases hlf : find "\n\n" b with
  | none =>
    rw [find_drop_of_none hlf]
    cases hcrlf : find "\r\n\r\n" b with
    | none => rw [hlf, hcrlf] at h; cases h
    | some crlf => rw [hlf, hcrlf] at h; cases h; rw [find_drop hcrlf hk]
  | some lf =>
    cases hcrlf : find "\r\n\r\n" b with
    | none => rw [hlf, hcrlf] at h; cases h; rw [find_drop hlf hk, find_drop_of_none hcrlf]
    | some crlf =>
      simp only [hlf, hcrlf] at h
      split at h <;> cases h
      · rw [find_drop hlf (by omega), find_drop hcrlf hk]; exact if_pos (by omega)
      · rw [find_drop hlf hk, find_drop hcrlf (by omega)]; exact if_neg (by omega)

theorem cutEvent_drop_of_none (k : Nat) (h : cutEvent b = none) : cutEvent (b.drop k) = none := by
  obtain ⟨hlf, hcrlf⟩ := cutEvent_eq_none_iff.1 h
  exact cutEvent_eq_none_iff.2 ⟨find_drop_of_none hlf, find_drop_of_none hcrlf⟩

theorem cutEvent_drop {x f r : Bytes} {k : Nat} (hn : cutEvent b = none) (hk : k + 3 ≤ b.length)
    (h : cutEvent (b ++ x) = some (f, r)) : cutEvent ((b ++ x).drop k) = some (f.drop k, r) := by
  have hlong := length_lt_of_cutEvent_append hn h
  obtain ⟨⟨delim, size⟩, hdelim, hcut⟩ := map_eq_some_iff.1 h
  obtain ⟨-, hle, hsize⟩ := delimiter_bounds hdelim
  cases hcut
  rw [length_take] at hlong
  unfold cutEvent
  rw [delimiter_drop hdelim (by omega), map_some, drop_take]
  simp only [drop_drop]
  rw [show delim + size - k = delim - k + size by omega,
    show k + (delim - k + size) = delim + size by omega]

def nextEvent : Cutter UInt8 where
  cut := cutEvent
  cut_append := by
    intro b f r h
    obtain ⟨d, -, hd⟩ := map_eq_some_iff.1 h
    cases hd; exact take_append_drop _ _
  cut_ne_nil := by
    intro b f r h hnil
    obtain ⟨⟨delim, size⟩, hdelim, hd⟩ := map_eq_some_iff.1 h
    obtain ⟨hpos, hle, -⟩ := delimiter_bounds hdelim
    cases hd
    have hlen := congrArg List.length hnil
    simp only [length_take, length_nil] at hlen; omega
  cut_extend := by
    intro b f r x h
    obtain ⟨⟨delim, size⟩, hdelim, hd⟩ := map_eq_some_iff.1 h
    obtain ⟨-, hle, -⟩ := delimiter_bounds hdelim
    cases hd
    simp only [cutEvent, delimiter_append hdelim x, map_some]
    rw [take_append_of_le_length hle, drop_append_of_le_length hle]

def fieldValue (name line : Bytes) : Option Bytes :=
  if startsWith line name then some ((line.drop name.length).dropWhile (· = 32)) else none

def trimCr (b : Bytes) : Bytes := b.rdropWhile (· = 13)

def eventType (event : Bytes) : Bytes :=
  (lines event).foldl (fun found line => ((fieldValue "event:" line).map trimCr).getD found) []

def dataPayload (event : Bytes) : Bytes :=
  (lines event).foldl (fun found line => (fieldValue "data:" line).getD found) []

def hasFinishReason (key : Bytes) (choice : Json) : Access Bool := do
  return ((← Protocol.Converter.field choice key string?).map (!·.isEmpty)).getD false

def anyFinished (document : Json) (key reason : Bytes) : Access Bool := do
  ((← document.memberAs key array?).getD []).anyM (hasFinishReason reason)

def isTerminalDocument (source : Format) (document : Json) : Access Bool := do
  match source with
  | .openAIResponses => return (← document.memberAs "type" string?) == some "response.completed"
  | .openAIChatCompletions => anyFinished document "choices" "finish_reason"
  | .gemini => anyFinished document "candidates" "finishReason"
  | .anthropic => return false

def isTerminalEvent (rj : RapidJson) (source : Format) (event : Bytes) : Access Bool :=
  if source = .anthropic then return eventType event == "message_stop"
  else
    let payload := trimCr (dataPayload event)
    if payload == "[DONE]" then return true
    else
      match (rj.parse payload).bind object? with
      | some document => isTerminalDocument source document
      | none => return false

end Gateway.Forwarder
