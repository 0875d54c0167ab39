import Gateway.Lib.Delimiters
import Gateway.Protocol.Validation

/-! # Fields of multipart forms -/

namespace Gateway.Protocol.Converter

open Lib
open List hiding after contains

structure Boundary where
  text : Bytes
  short : text.length ≤ 200
  no_quote : 34 ∉ text
  no_cr : 13 ∉ text
  no_lf : 10 ∉ text
  no_semicolon : 59 ∉ text
  head_ne_space : text.head? ≠ some 32
  last_ne_space : text.getLast? ≠ some 32

def Boundary.delimiter (boundary : Boundary) : Bytes := "--" ++ boundary.text

structure IsParameter (value : Bytes) : Prop where
  no_quote : 34 ∉ value
  no_cr : 13 ∉ value
  no_lf : 10 ∉ value

instance (value : Bytes) : Decidable (IsParameter value) :=
  decidable_of_iff (34 ∉ value ∧ 13 ∉ value ∧ 10 ∉ value)
    ⟨fun ⟨hquote, hcr, hlf⟩ => ⟨hquote, hcr, hlf⟩, fun h => ⟨h.no_quote, h.no_cr, h.no_lf⟩⟩

structure Part (boundary : Boundary) where
  leading : List Bytes := []
  name : Bytes
  filename : Option Bytes := none
  trailing : List Bytes := []
  body : Bytes
  leading_lines : ∀ line ∈ leading, IsLine line
  name_parameter : IsParameter name
  filename_parameter : ∀ f ∈ filename, IsParameter f
  trailing_lines : ∀ line ∈ trailing, IsLine line
  body_free : contains body ("\r\n" ++ boundary.delimiter) = false

namespace Part

variable {boundary : Boundary} (p : Part boundary)

def filenameText : Bytes :=
  match p.filename with
  | none => []
  | some filename => "; filename=\"" ++ filename ++ "\""

def disposition : Bytes :=
  "Content-Disposition: form-data; name=\"" ++ p.name ++ "\"" ++ p.filenameText

def headers : Bytes := block (p.leading ++ p.disposition :: p.trailing)

def text : Bytes :=
  boundary.delimiter ++ "\r\n" ++ p.headers ++ "\r\n\r\n" ++ p.body ++ "\r\n"

def mentions (field : Bytes) : Bool := contains (lower p.headers) ("name=\"" ++ field ++ "\"")

def value : Bytes := if p.body.length > 1024 then [] else p.body

end Part

def encode {boundary : Boundary} (parts : List (Part boundary)) : Bytes :=
  parts.flatMap Part.text ++ (boundary.delimiter ++ "--\r\n")

inductive NamesBoundary (boundary : Bytes) : Bytes → Prop
  | intro {before key value after : Bytes} (pad pad' : Nat)
      (hbefore : contains (lower before) "boundary=" = false) (hkey : lower key = "boundary=")
      (hvalue : value = boundary ∨ value = "\"" ++ boundary ++ "\"")
      (hafter : after = [] ∨ after.head? = some 59) :
      NamesBoundary boundary
        (before ++ key ++ (replicate pad 32 ++ value ++ replicate pad' 32 ++ after))

variable {b contentType : Bytes}

section

theorem dropWhile_spaces (h : b.head? ≠ some 32) (pad : Nat) :
    (replicate pad 32 ++ b).dropWhile (· = 32) = b := by
  induction pad with
  | zero =>
    cases b with
    | nil => rfl
    | cons c b => exact dropWhile_cons_of_neg (by simpa using h)
  | succ pad ih => rw [replicate_succ, cons_append, dropWhile_cons_of_pos (by simp), ih]

theorem rdropWhile_spaces (h : b.getLast? ≠ some 32) (pad : Nat) :
    (b ++ replicate pad 32).rdropWhile (· = 32) = b := by
  unfold rdropWhile
  rw [reverse_append, reverse_replicate,
    dropWhile_spaces (by rwa [head?_reverse]), reverse_reverse]

theorem takeWhile_semicolon {after : Bytes} (hb : 59 ∉ b) (ha : after = [] ∨ after.head? =
    some 59) : (b ++ after).takeWhile (· ≠ 59) = b := by
  rw [takeWhile_append_of_pos]
  · rcases ha with rfl | ha
    · simp
    · cases after with
      | nil => cases ha
      | cons c after =>
        obtain rfl : c = 59 := by simpa using ha
        simp
  · intro c hc; simpa using ne_of_mem_of_not_mem hc hb

theorem parameterValue {value after : Bytes} (hs : 59 ∉ value) (hh : value.head? ≠ some 32)
    (hl : value.getLast? ≠ some 32) (ha : after = [] ∨ after.head? = some 59) (pad pad' : Nat) :
    (((replicate pad 32 ++ value ++ replicate pad' 32 ++ after).dropWhile
      (· = 32)).takeWhile (· ≠ 59)).rdropWhile (· = 32) = value := by
  cases value with
  | nil =>
    have ha' : after.head? ≠ some 32 := by
      rcases ha with rfl | ha
      · simp
      · rw [ha]; decide
    rw [append_nil, ← replicate_add, dropWhile_spaces ha']
    have ht := takeWhile_semicolon (b := []) not_mem_nil ha
    rw [nil_append] at ht
    rw [ht]; rfl
  | cons c value =>
    rw [append_assoc, append_assoc, dropWhile_spaces (by simpa using hh),
      ← append_assoc, takeWhile_semicolon (by simp_all [mem_replicate]) ha, rdropWhile_spaces hl]

theorem quoted_eq (b : Bytes) : ascii "\"" ++ b ++ ascii "\"" = 34 :: b ++ [34] := rfl

theorem unquoted_quoted (b : Bytes) : unquoted ("\"" ++ b ++ "\"") = b := by
  rw [quoted_eq]
  unfold unquoted
  rw [if_pos ⟨by simp, rfl, getLast?_concat⟩]
  simp

theorem unquoted_of_not_mem (h : 34 ∉ b) : unquoted b = b := by
  unfold unquoted
  rw [if_neg]
  rintro ⟨-, hh, -⟩
  exact h (mem_of_mem_head? hh)

theorem multipartBoundary_of_names {boundary : Boundary}
    (h : NamesBoundary boundary.text contentType) : multipartBoundary contentType =
      if boundary.text.isEmpty then none else some boundary.text := by
  obtain @⟨before, key, value, after, pad, pad', hbefore, hk, hv, ha⟩ := h
  have hvalue : 59 ∉ value ∧ value.head? ≠ some 32 ∧ value.getLast? ≠ some 32 ∧
      unquoted value = boundary.text := by
    rcases hv with rfl | rfl
    · exact ⟨boundary.no_semicolon, boundary.head_ne_space, boundary.last_ne_space,
        unquoted_of_not_mem boundary.no_quote⟩
    · refine ⟨?_, ?_, ?_, unquoted_quoted _⟩
      · rw [quoted_eq]; simp [boundary.no_semicolon]
      · rw [quoted_eq]; simp
      · rw [quoted_eq, getLast?_concat]; decide
  obtain ⟨hs, hh, hl, hu⟩ := hvalue
  have hle : key.length = 9 := by
    have hlo : (lower key).length = key.length := length_map _
    rw [← hlo, hk]; rfl
  have hf : find "boundary=" (lower (before ++ key ++ (replicate pad 32 ++ value ++
      replicate pad' 32 ++ after))) = some before.length := by
    rw [lower_append, lower_append, hk, find_append_delimiter (by decide) hbefore]
    simp [lower]
  unfold multipartBoundary
  rw [hf]
  simp only [Option.bind_eq_bind, Option.bind_some]
  rw [drop_left' (by simp [hle]), parameterValue hs hh hl ha, hu]
  have hsh : ¬ boundary.text.length > 200 := Nat.not_lt.2 boundary.short
  simp [hsh, boundary.no_cr, boundary.no_lf]

end

section

variable {boundary : Boundary} (p : Part boundary) (field : Bytes)

theorem Part.isLine_disposition : IsLine p.disposition := by
  have hf : 13 ∉ p.filenameText ∧ 10 ∉ p.filenameText := by
    unfold Part.filenameText
    cases hf : p.filename with
    | none => simp
    | some filename =>
      have hp := p.filename_parameter filename hf
      simp [ascii, hp.no_cr, hp.no_lf]
  have hn := p.name_parameter
  unfold Part.disposition
  refine ⟨by simp [ascii], ?_, ?_⟩
  · simp [ascii, hn.no_cr, hf.1]
  · simp [ascii, hn.no_lf, hf.2]

theorem Part.isLine_of_mem {line : Bytes} (h : line ∈ p.leading ++ p.disposition :: p.trailing) :
    IsLine line := by
  rcases mem_append.1 h with h | h
  · exact p.leading_lines line h
  · rcases mem_cons.1 h with rfl | h
    · exact p.isLine_disposition
    · exact p.trailing_lines line h

theorem Part.find_headers_end (rest : Bytes) :
    find "\r\n\r\n" (p.headers ++ "\r\n\r\n" ++ rest) = some p.headers.length := by
  have hl : ∀ line ∈ p.leading ++ p.disposition :: p.trailing, IsLine line :=
    fun line h => p.isLine_of_mem h
  unfold Part.headers
  have hne : p.leading ++ p.disposition :: p.trailing ≠ [] := by simp
  obtain ⟨l, ls, heq⟩ := exists_cons_of_ne_nil hne
  rw [heq] at hl ⊢
  exact find_blank_line hl rest

theorem Part.disposition_isInfix : lower p.disposition <:+: lower p.headers := by
  obtain ⟨before, after, heq⟩ := infix_block (mem_append_right p.leading
    (mem_cons_self (a := p.disposition) (l := p.trailing)))
  refine ⟨lower before, lower after, ?_⟩
  rw [← lower_append, ← lower_append, heq]
  rfl

theorem Part.contains_formData :
    contains (lower p.headers) "content-disposition: form-data" = true := by
  refine contains_iff_isInfix.2 (IsInfix.trans ?_ p.disposition_isInfix)
  have hl : lower "Content-Disposition: form-data; name=\"" =
      ascii "content-disposition: form-data" ++ "; name=\"" := by decide
  unfold Part.disposition
  rw [lower_append, lower_append, lower_append, hl, append_assoc, append_assoc, append_assoc]
  exact (prefix_append _ _).isInfix

theorem Part.mentions_name (h : lower p.name = p.name) : p.mentions p.name := by
  refine contains_iff_isInfix.2 (IsInfix.trans ?_ p.disposition_isInfix)
  have hl : lower "Content-Disposition: form-data; name=\"" =
      ascii "content-disposition: form-data; " ++ "name=\"" := by decide
  have hq : lower "\"" = ascii "\"" := by decide
  unfold Part.disposition
  rw [lower_append, lower_append, lower_append, hl, hq, h]
  refine ⟨"content-disposition: form-data; ", lower p.filenameText, ?_⟩
  simp only [append_assoc]

end

section

variable {boundary : Boundary} (field : Bytes)

theorem Part.find_body_end (p : Part boundary) (rest : Bytes) :
    find ("\r\n" ++ boundary.delimiter) (p.body ++ ("\r\n" ++ boundary.delimiter) ++ rest) =
      some p.body.length := by
  have hcr : (13 : UInt8) ∉ 10 :: boundary.delimiter := by
    simp [Boundary.delimiter, ascii, boundary.no_cr]
  exact find_append_delimiter (borderless_cons hcr) p.body_free rest

theorem multipartValue_part (p : Part boundary) (before after : Bytes) (rounds : Nat) :
    multipartValue (before ++ p.text ++ (boundary.delimiter ++ after)) boundary.delimiter field
        (rounds + 1) before.length = if p.mentions field then p.value
      else multipartValue (before ++ p.text ++ (boundary.delimiter ++ after)) boundary.delimiter
        field rounds (before ++ p.text).length := by
  generalize hbo : before ++ p.text ++ (boundary.delimiter ++ after) = body
  let start := before ++ boundary.delimiter
  let he := start ++ "\r\n"
  let bodyStart := he ++ p.headers ++ "\r\n\r\n"
  have hs : before.length + boundary.delimiter.length = start.length := by simp [start]
  have hh : start.length + 2 = he.length := by simp [he, ascii]
  have hbod : (he ++ p.headers).length + 4 = bodyStart.length := by
    simp [bodyStart, ascii, Nat.add_assoc]
  have hn : (bodyStart ++ p.body).length + 2 = (before ++ p.text).length := by
    simp [bodyStart, he, start, Part.text, ascii]
    omega
  have hd : findFrom boundary.delimiter before.length body = some before.length := by
    rw [← hbo, append_assoc, findFrom_append, Part.text]
    simp only [append_assoc]
    rw [find_self]; rfl
  have hm : (body.drop start.length).take 2 = "\r\n" := by
    have heq : body = start ++ (ascii "\r\n" ++ (p.headers ++ "\r\n\r\n" ++ p.body ++ "\r\n" ++
        (boundary.delimiter ++ after))) := by
      simp only [← hbo, start, Part.text, append_assoc]
    rw [heq, drop_left]; rfl
  have hhe : findFrom "\r\n\r\n" he.length body =
      some (he ++ p.headers).length := by
    have heq : body = he ++ (p.headers ++ "\r\n\r\n" ++ (p.body ++ "\r\n" ++
        (boundary.delimiter ++ after))) := by
      simp only [← hbo, he, start, Part.text, append_assoc]
    rw [heq, findFrom_append, p.find_headers_end]
    exact congrArg some length_append.symm
  have hne : findFrom ("\r\n" ++ boundary.delimiter) bodyStart.length body =
      some (bodyStart ++ p.body).length := by
    have heq : body = bodyStart ++ (p.body ++ ("\r\n" ++ boundary.delimiter) ++ after) := by
      simp only [← hbo, bodyStart, he, start, Part.text, append_assoc]
    rw [heq, findFrom_append, p.find_body_end]; exact congrArg some length_append.symm
  have hhea : (body.take (he ++ p.headers).length).drop he.length =
      p.headers := by
    have heq : body = he ++ p.headers ++ ("\r\n\r\n" ++ p.body ++ "\r\n" ++
        (boundary.delimiter ++ after)) := by
      simp only [← hbo, he, start, Part.text, append_assoc]
    rw [heq, drop_take_append]
  have hbody : (body.take (bodyStart ++ p.body).length).drop bodyStart.length = p.body := by
    have heq : body = bodyStart ++ p.body ++ ("\r\n" ++ (boundary.delimiter ++ after)) := by
      simp only [← hbo, bodyStart, he, start, Part.text, append_assoc]
    rw [heq, drop_take_append]
  rw [multipartValue, hd]
  dsimp only
  rw [hs, hm, if_neg (by decide), if_neg (by decide), hh, hhe]
  dsimp only
  rw [hbod, hne]
  dsimp only
  rw [hhea, hbody, p.contains_formData, Bool.true_and, hn]
  rfl

section

variable (parts : List (Part boundary))

theorem exists_encode_eq : ∃ after, encode parts = boundary.delimiter ++ after := by
  unfold encode
  cases parts with
  | nil => exact ⟨"--\r\n", rfl⟩
  | cons p parts => rw [flatMap_cons, Part.text]; simp only [append_assoc]; exact ⟨_, rfl⟩

theorem multipartValue_encode (before : Bytes) {rounds : Nat} (h : parts.length < rounds) :
    multipartValue (before ++ encode parts) boundary.delimiter field rounds before.length =
      ((parts.find? (·.mentions field)).map Part.value).getD [] := by
  induction parts generalizing before rounds with
  | nil =>
    obtain ⟨rounds, rfl⟩ := Nat.exists_eq_add_of_lt h
    have hf : findFrom boundary.delimiter before.length
        (before ++ encode ([] : List (Part boundary))) = some before.length := by
      rw [findFrom_append, encode, flatMap_nil, nil_append, find_self]; rfl
    have hm : ((before ++ encode ([] : List (Part boundary))).drop
        (before.length + boundary.delimiter.length)).take 2 = "--" := by
      rw [encode, flatMap_nil, nil_append, ← append_assoc, drop_left' length_append]
      rfl
    rw [multipartValue, hf]
    dsimp only
    rw [hm, if_pos rfl]; rfl
  | cons p parts ih =>
    obtain ⟨rounds, rfl⟩ : ∃ k, rounds = k + 1 := Nat.exists_eq_succ_of_ne_zero (by omega)
    obtain ⟨after, ha⟩ := exists_encode_eq parts
    have hbo : before ++ encode (p :: parts) = before ++ p.text ++ encode parts := by
      simp only [encode, flatMap_cons, append_assoc]
    have hl : parts.length < rounds := by simpa using h
    have hr := ih (before ++ p.text) hl
    rw [hbo, find?_cons]
    rw [ha] at hr ⊢
    rw [multipartValue_part]
    cases p.mentions field with
    | true => rfl
    | false => exact hr

theorem length_le_encode : parts.length ≤ (encode parts).length := by
  induction parts with
  | nil => exact Nat.zero_le _
  | cons p parts ih =>
    have ht : 1 ≤ p.text.length := by
      simp [Part.text, ascii]
      omega
    simp only [encode, flatMap_cons, length_append, length_cons] at ih ⊢
    omega

end

theorem extractMultipartField_encode (h : NamesBoundary boundary.text contentType)
    (parts : List (Part boundary)) : extractMultipartField (encode parts) contentType field =
      if boundary.text.isEmpty then []
      else ((parts.find? (·.mentions field)).map Part.value).getD [] := by
  unfold extractMultipartField
  rw [multipartBoundary_of_names h]
  cases boundary.text.isEmpty with
  | true => rfl
  | false => exact multipartValue_encode field parts [] (Nat.lt_succ_of_le (length_le_encode parts))

end

def ReadsField {boundary : Boundary} (parts : List (Part boundary)) (field value : Bytes) : Prop :=
  match parts.find? (·.name = field) with
  | none => value = []
  | some p => p.body.length ≤ 1024 → value = p.body

def Captures {boundary : Boundary} (parts : List (Part boundary)) (field : Bytes)
    (p : Part boundary) : Prop :=
  parts.find? (·.mentions field) = some p ∧ p.name ≠ field

section

variable {boundary : Boundary} {field : Bytes} {parts : List (Part boundary)} {p : Part boundary}

theorem mentions_of_name (hf : lower field = field) (h : p.name = field) : p.mentions field := by
  subst h
  exact p.mentions_name hf

theorem readsField_nil (h : ∀ p ∈ parts, p.name ≠ field) : ReadsField parts field [] := by
  have hn : parts.find? (·.name = field) = none := find?_eq_none.2 fun p hp => by simpa using h p hp
  unfold ReadsField
  rw [hn]

theorem readsField_of_name (hf : lower field = field)
    (hfi : parts.find? (·.mentions field) = some p) (hn : p.name = field) :
    ReadsField parts field p.value := by
  obtain ⟨-, before, after, hp, hbefore⟩ := find?_eq_some_iff_append.1 hfi
  have hna : parts.find? (·.name = field) = some p := by
    refine find?_eq_some_iff_append.2 ⟨by simpa using hn, before, after, hp, ?_⟩
    intro q hq
    have hm := hbefore q hq
    rw [Bool.not_eq_true'] at hm ⊢
    refine decide_eq_false fun hqn => ?_
    rw [mentions_of_name hf hqn] at hm; cases hm
  unfold ReadsField
  rw [hna]
  intro hs
  exact if_neg (Nat.not_lt.2 hs)

end

theorem multipart_field_read_iff {boundary : Boundary} {contentType field : Bytes}
    (hboundary : NamesBoundary boundary.text contentType) (hfield : lower field = field)
    (parts : List (Part boundary)) :
    ReadsField parts field (extractMultipartField (encode parts) contentType field) ↔
      (boundary.text = [] → ReadsField parts field []) ∧
      (boundary.text ≠ [] → ∀ p, Captures parts field p → ReadsField parts field p.value) := by
  rw [extractMultipartField_encode field hboundary]
  by_cases hempty : boundary.text = []
  · simp [hempty]
  · rw [if_neg (by simpa using hempty)]
    simp only [hempty, false_implies, true_and, ne_eq, not_false_eq_true, true_implies]
    cases hfirst : parts.find? (·.mentions field) with
    | none =>
      refine iff_of_true ?_ ?_
      · exact readsField_nil fun p hp hname =>
          find?_eq_none.1 hfirst p hp (mentions_of_name hfield hname)
      · rintro p ⟨hp, -⟩; rw [hfirst] at hp; cases hp
    | some p =>
      by_cases hname : p.name = field
      · refine iff_of_true (readsField_of_name hfield hfirst hname) ?_
        rintro q ⟨hq, hne⟩
        rw [hfirst] at hq
        cases hq; exact absurd hname hne
      · constructor
        · rintro hread q ⟨hq, -⟩; rw [hfirst] at hq; cases hq; exact hread
        · intro hcaptures; exact hcaptures p ⟨hfirst, hname⟩

def testBoundary : Boundary where
  text := "test-boundary"
  short := by decide
  no_quote := by decide
  no_cr := by decide
  no_lf := by decide
  no_semicolon := by decide
  head_ne_space := by decide
  last_ne_space := by decide

theorem namesBoundary_test :
    NamesBoundary testBoundary.text "multipart/form-data; boundary=\"test-boundary\"" :=
  @NamesBoundary.intro testBoundary.text "multipart/form-data; " "boundary="
    ("\"" ++ testBoundary.text ++ "\"") [] 0 0 (by decide) rfl (.inr rfl) (.inl rfl)

def modelPart : Part testBoundary where
  name := "model"
  body := "gpt-image-1"
  leading_lines := by simp
  name_parameter := by decide
  filename_parameter := by simp
  trailing_lines := by simp
  body_free := by decide

def imagePart (filename : Bytes) (h : IsParameter filename) : Part testBoundary where
  name := "image"
  filename := some filename
  trailing := ["Content-Type: image/png"]
  body := "gpt-image-1-mini"
  leading_lines := by simp
  name_parameter := by decide
  filename_parameter := by
    intro f hf
    cases hf; exact h
  trailing_lines := by decide
  body_free := by decide

set_option maxRecDepth 2000 in
theorem model_read_beside_file : ReadsField [imagePart "input.png" (by decide), modelPart] "model"
      (extractMultipartField (encode [imagePart "input.png" (by decide), modelPart])
        "multipart/form-data; boundary=\"test-boundary\"" "model") := by
  refine (multipart_field_read_iff namesBoundary_test (by decide) _).2 ⟨?_, ?_⟩
  · intro hempty; cases hempty
  · rintro - p ⟨hfirst, hname⟩
    have himage : (imagePart "input.png" (by decide)).mentions "model" = false := by decide
    have hmodel : modelPart.mentions "model" = true := by decide
    simp only [find?_cons, himage, hmodel] at hfirst
    cases hfirst; exact absurd rfl hname

theorem file_called_model_captures : ¬ ReadsField [imagePart "model" (by decide), modelPart] "model"
      (extractMultipartField (encode [imagePart "model" (by decide), modelPart])
        "multipart/form-data; boundary=\"test-boundary\"" "model") := by
  rw [extractMultipartField_encode _ namesBoundary_test]
  intro h
  have hvalue := h (by decide)
  revert hvalue
  decide

end Gateway.Protocol.Converter
