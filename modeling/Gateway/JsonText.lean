import Gateway.Json
import Gateway.Lib.Escapes

/-! # Compact JSON texts -/

namespace Gateway.JsonText

open Lib List Option

def escape (c : UInt8) : Bytes :=
  if c = 34 then [92, 34]
  else if c = 92 then [92, 92]
  else if c < 32 then [92, 117, 48, 48, hexDigit (c / 16), hexDigit (c % 16)]
  else [c]

def writeString (s : Bytes) : Bytes := 34 :: (s.flatMap escape ++ [34])

variable {c : UInt8}

theorem readString_escape (c : UInt8) (rest : Bytes) :
    readString (escape c ++ rest) = (readString rest).map fun (s, rest) => (c :: s, rest) := by
  unfold escape
  split_ifs with h34 h92 h32
  · subst h34; rfl
  · subst h92; rfl
  · exact readString_control h32 rest
  · exact readString_plain h34 h92 h32 rest

theorem readString_write (s rest : Bytes) :
    readString (s.flatMap escape ++ 34 :: rest) = some (s, rest) :=
  readString_escaped readString_escape s rest

def writeInt (n : Int) : Bytes := (if n < 0 then [45] else []) ++ decimal n.natAbs

def parseDigits (input : Bytes) : Option (Nat × Bytes) :=
  if (input.takeWhile isDigit).isEmpty then none
  else some (digitsValue (input.takeWhile isDigit), input.dropWhile isDigit)

def parseInt (input : Bytes) : Option (Int × Bytes) :=
  match input with
  | 45 :: input => (parseDigits input).map fun (n, rest) => (-n, rest)
  | _ => (parseDigits input).map fun (n, rest) => (n, rest)

def parseNumber (input : Bytes) : Option (Json × Bytes) :=
  match parseInt input with
  | some (n, 47 :: input) => (parseDigits input).map fun (d, rest) => (.double (mkRat n d), rest)
  | some (n, rest) => some (.int n, rest)
  | none => none

def Delimited (rest : Bytes) : Prop := ∀ c ∈ rest.head?, c = 44 ∨ c = 93 ∨ c = 125

variable {rest : Bytes}

theorem parseDigits_decimal (n : Nat) (h : ∀ c ∈ rest.head?, isDigit c = false) :
    parseDigits (decimal n ++ rest) = some (n, rest) := by
  have hd : ∀ c ∈ decimal n, isDigit c := fun c => isDigit_of_mem_decimal
  have hr : rest.takeWhile isDigit = [] ∧ rest.dropWhile isDigit = rest := by
    cases rest with
    | nil => exact ⟨rfl, rfl⟩
    | cons c rest => simp [h c rfl]
  unfold parseDigits
  rw [takeWhile_append_of_pos hd, dropWhile_append_of_pos hd, hr.1, hr.2]
  simp [decimal_ne_nil, digitsValue_decimal]

theorem parseInt_writeInt (n : Int) (h : ∀ c ∈ rest.head?, isDigit c = false) :
    parseInt (writeInt n ++ rest) = some (n, rest) := by
  unfold writeInt
  split
  · simp only [cons_append, nil_append, parseInt, parseDigits_decimal n.natAbs h]
    simp only [map_some, some.injEq, Prod.mk.injEq, and_true]; omega
  · have hh : ∀ r : Bytes, decimal n.natAbs ++ rest ≠ 45 :: r := by
      intro r hr
      obtain ⟨c, ds, hds⟩ := exists_cons_of_ne_nil (decimal_ne_nil n.natAbs)
      rw [hds, cons_append, cons.injEq] at hr
      have := isDigit_of_mem_decimal (n := n.natAbs) (c := c) (by simp [hds])
      rw [hr.1] at this; cases this
    unfold parseInt
    split
    · rename_i r hr
      exact absurd (by simpa using hr) (hh r)
    · simp only [nil_append, parseDigits_decimal n.natAbs h, map_some,
        some.injEq, Prod.mk.injEq, and_true]
      omega

mutual

def write : Json → Bytes
  | .null => "null"
  | .bool true => "true"
  | .bool false => "false"
  | .int n => writeInt n
  | .double q => writeInt q.num ++ 47 :: decimal q.den
  | .string s => writeString s
  | .array [] => [91, 93]
  | .array (x :: xs) => 91 :: (write x ++ writeElements xs)
  | .object [] => [123, 125]
  | .object ((k, v) :: ms) => 123 :: (writeString k ++ 58 :: (write v ++ writeMembers ms))

def writeElements : List Json → Bytes
  | [] => [93]
  | x :: xs => 44 :: (write x ++ writeElements xs)

def writeMembers : List (Bytes × Json) → Bytes
  | [] => [125]
  | (k, v) :: ms => 44 :: (writeString k ++ 58 :: (write v ++ writeMembers ms))

end

def parseLiteral (input : Bytes) : Option (Json × Bytes) :=
  if startsWith input "null" then some (.null, input.drop 4)
  else if startsWith input "true" then some (.bool true, input.drop 4)
  else if startsWith input "false" then some (.bool false, input.drop 5)
  else none

def parseKey (input : Bytes) : Option (Bytes × Bytes) :=
  match input with
  | 34 :: input =>
    match readString input with
    | some (k, 58 :: rest) => some (k, rest)
    | _ => none
  | _ => none

mutual

def parseValue : Nat → Bytes → Option (Json × Bytes)
  | 0, _ => none
  | fuel + 1, input =>
    match input with
    | 34 :: rest => (readString rest).map fun (s, rest) => (.string s, rest)
    | 91 :: 93 :: rest => some (.array [], rest)
    | 91 :: rest => do
      let (x, rest) ← parseValue fuel rest
      let (xs, rest) ← parseElements fuel rest
      return (.array (x :: xs), rest)
    | 123 :: 125 :: rest => some (.object [], rest)
    | 123 :: rest => do
      let (k, rest) ← parseKey rest
      let (v, rest) ← parseValue fuel rest
      let (ms, rest) ← parseMembers fuel rest
      return (.object ((k, v) :: ms), rest)
    | _ => (parseLiteral input).or (parseNumber input)

def parseElements : Nat → Bytes → Option (List Json × Bytes)
  | 0, _ => none
  | fuel + 1, input =>
    match input with
    | 93 :: rest => some ([], rest)
    | 44 :: rest => do
      let (x, rest) ← parseValue fuel rest
      let (xs, rest) ← parseElements fuel rest
      return (x :: xs, rest)
    | _ => none

def parseMembers : Nat → Bytes → Option (List (Bytes × Json) × Bytes)
  | 0, _ => none
  | fuel + 1, input =>
    match input with
    | 125 :: rest => some ([], rest)
    | 44 :: rest => do
      let (k, rest) ← parseKey rest
      let (v, rest) ← parseValue fuel rest
      let (ms, rest) ← parseMembers fuel rest
      return ((k, v) :: ms, rest)
    | _ => none

end

def parse (text : Bytes) : Option Json :=
  match parseValue text.length text with
  | some (doc, []) => some doc
  | _ => none

def startsNumber (c : UInt8) : Bool := c == 45 || isDigit c

theorem writeInt_head (n : Int) : ∃ c t, writeInt n = c :: t ∧ startsNumber c := by
  unfold writeInt
  split
  · exact ⟨45, _, rfl, rfl⟩
  · obtain ⟨c, t, ht⟩ := exists_cons_of_ne_nil (decimal_ne_nil n.natAbs)
    refine ⟨c, t, ht, ?_⟩
    simp [startsNumber, isDigit_of_mem_decimal (n := n.natAbs) (c := c) (by simp [ht])]

theorem startsNumber_bounds (h : startsNumber c) : c.toNat ≤ 57 ∧ 45 ≤ c.toNat := by
  simp only [startsNumber, isDigit, Bool.or_eq_true, beq_iff_eq, Bool.and_eq_true,
    decide_eq_true_eq, UInt8.le_iff_toNat_le] at h
  rcases h with rfl | ⟨hl, hh⟩
  · decide
  · exact ⟨hh, le_trans (by decide) hl⟩

theorem parseValue_number (h : startsNumber c) (t : Bytes) (fuel : Nat) :
    parseValue (fuel + 1) (c :: t) = parseNumber (c :: t) := by
  obtain ⟨hhi, hlo⟩ := startsNumber_bounds h
  have hne : ∀ d : UInt8, 57 < d.toNat ∨ d.toNat < 45 → c ≠ d := by rintro d hd rfl; omega
  have hl : parseLiteral (c :: t) = none := by
    have hn := hne 110 (by decide)
    have ht := hne 116 (by decide)
    have hf := hne 102 (by decide)
    simp +decide [parseLiteral, startsWith, ascii, Ne.symm hn, Ne.symm ht, Ne.symm hf]
  have hh : ∀ (d : UInt8) (rest : Bytes), 57 < d.toNat ∨ d.toNat < 45 → c :: t = d :: rest →
      False := fun d rest hd heq => hne d hd (cons.inj heq).1
  rw [parseValue, hl, none_or]
  · exact fun rest => hh 34 rest (by decide)
  · exact fun rest => hh 91 (93 :: rest) (by decide)
  · exact fun rest => hh 91 rest (by decide)
  · exact fun rest => hh 123 (125 :: rest) (by decide)
  · exact fun rest => hh 123 rest (by decide)

theorem Delimited.not_digit (h : Delimited rest) : ∀ c ∈ rest.head?, isDigit c = false := by
  intro c hc
  rcases h c hc with rfl | rfl | rfl <;> rfl

theorem parseNumber_writeInt (n : Int) (h : Delimited rest) :
    parseNumber (writeInt n ++ rest) = some (.int n, rest) := by
  rw [parseNumber, parseInt_writeInt n h.not_digit]
  cases rest with
  | nil => rfl
  | cons c rest =>
    have hc : c ≠ 47 := by
      rintro rfl
      rcases h 47 rfl with hc | hc | hc <;> cases hc
    split
    · rename_i heq
      simp only [some.injEq, Prod.mk.injEq, cons.injEq] at heq; exact absurd heq.2.1 hc
    · rename_i heq
      cases heq; rfl
    · rename_i heq
      cases heq

theorem parseNumber_fraction (q : Rat) (h : Delimited rest) :
    parseNumber (writeInt q.num ++ 47 :: (decimal q.den ++ rest)) = some (.double q, rest) := by
  have hs : ∀ c ∈ (47 :: (decimal q.den ++ rest) : Bytes).head?, isDigit c = false := by
    rintro c ⟨⟩; rfl
  rw [parseNumber, parseInt_writeInt q.num hs]
  simp [parseDigits_decimal q.den h.not_digit, Rat.mkRat_self]

theorem parseKey_write (k rest : Bytes) : parseKey (writeString k ++ 58 :: rest) =
    some (k, rest) := by
  simp [parseKey, writeString, readString_write]

theorem write_head (doc : Json) : ∃ c t, write doc = c :: t ∧ c ≠ 93 := by
  have hn : ∀ (n : Int) (s : Bytes), ∃ c t, writeInt n ++ s = c :: t ∧ c ≠ 93 := by
    intro n s
    obtain ⟨c, t, ht, hc⟩ := writeInt_head n
    refine ⟨c, t ++ s, by rw [ht, cons_append], ?_⟩
    rintro rfl; cases hc
  cases doc with
  | null => exact ⟨110, _, rfl, by decide⟩
  | bool b => cases b <;> exact ⟨_, _, rfl, by decide⟩
  | int n => simpa [write] using hn n []
  | double q => simpa [write] using hn q.num _
  | string s => exact ⟨34, _, rfl, by decide⟩
  | array xs => cases xs <;> exact ⟨91, _, by rw [write], by decide⟩
  | object ms => rcases ms with _ | ⟨⟨k, v⟩, ms⟩ <;> exact ⟨123, _, by rw [write], by decide⟩

theorem delimited_writeElements (xs : List Json) (rest : Bytes) :
    Delimited (writeElements xs ++ rest) := by
  cases xs <;> simp [writeElements, Delimited]

theorem delimited_writeMembers (ms : List (Bytes × Json)) (rest : Bytes) :
    Delimited (writeMembers ms ++ rest) := by
  rcases ms with _ | ⟨⟨k, v⟩, ms⟩ <;> simp [writeMembers, Delimited]

mutual

theorem parseValue_write : ∀ (doc : Json) (fuel : Nat) (rest : Bytes),
    (write doc).length ≤ fuel → Delimited rest →
      parseValue fuel (write doc ++ rest) = some (doc, rest)
  | doc, 0, rest, hf, _ => by
    obtain ⟨c, t, ht, -⟩ := write_head doc
    simp [ht] at hf
  | .null, fuel + 1, rest, _, _ => rfl
  | .bool true, fuel + 1, rest, _, _ => rfl
  | .bool false, fuel + 1, rest, _, _ => rfl
  | .int n, fuel + 1, rest, _, hr => by
    obtain ⟨c, t, ht, hc⟩ := writeInt_head n
    rw [write, ht, cons_append, parseValue_number hc, ← cons_append, ← ht]
    exact parseNumber_writeInt n hr
  | .double q, fuel + 1, rest, _, hr => by
    obtain ⟨c, t, ht, hc⟩ := writeInt_head q.num
    rw [write, append_assoc, cons_append, ht, cons_append, parseValue_number hc,
      ← cons_append, ← ht]
    exact parseNumber_fraction q hr
  | .string s, fuel + 1, rest, _, _ => by simp [write, writeString, parseValue, readString_write]
  | .array [], fuel + 1, rest, _, _ => by simp [write, parseValue]
  | .array (x :: xs), fuel + 1, rest, hf, _ => by
    rw [write, length_cons, length_append] at hf
    have hx := parseValue_write x fuel (writeElements xs ++ rest) (by omega)
      (delimited_writeElements xs rest)
    have hxs := parseElements_write xs fuel rest (by omega)
    rw [write, cons_append, append_assoc, parseValue, hx]
    · simp [hxs]
    · intro rest' heq
      obtain ⟨c, t, ht, hc⟩ := write_head x
      rw [ht, cons_append] at heq; exact hc (cons.inj heq).1
  | .object [], fuel + 1, rest, _, _ => by simp [write, parseValue]
  | .object ((k, v) :: ms), fuel + 1, rest, hf, _ => by
    rw [write, length_cons, length_append, length_cons, length_append] at hf
    have hv := parseValue_write v fuel (writeMembers ms ++ rest) (by omega)
      (delimited_writeMembers ms rest)
    have hms := parseMembers_write ms fuel rest (by omega)
    rw [write, cons_append, append_assoc, cons_append, append_assoc, parseValue, parseKey_write]
    · simp [hv, hms]
    · intro rest' heq; cases heq

theorem parseElements_write : ∀ (xs : List Json) (fuel : Nat) (rest : Bytes),
    (writeElements xs).length ≤ fuel →
      parseElements fuel (writeElements xs ++ rest) = some (xs, rest)
  | [], 0, rest, hf => by simp [writeElements] at hf
  | [], fuel + 1, rest, _ => by simp [writeElements, parseElements]
  | x :: xs, 0, rest, hf => by simp [writeElements] at hf
  | x :: xs, fuel + 1, rest, hf => by
    rw [writeElements, length_cons, length_append] at hf
    have hx := parseValue_write x fuel (writeElements xs ++ rest) (by omega)
      (delimited_writeElements xs rest)
    have hxs := parseElements_write xs fuel rest (by omega)
    rw [writeElements, cons_append, append_assoc, parseElements, hx]
    simp [hxs]

theorem parseMembers_write : ∀ (ms : List (Bytes × Json)) (fuel : Nat) (rest : Bytes),
    (writeMembers ms).length ≤ fuel → parseMembers fuel (writeMembers ms ++ rest) = some (ms, rest)
  | [], 0, rest, hf => by simp [writeMembers] at hf
  | [], fuel + 1, rest, _ => by simp [writeMembers, parseMembers]
  | (k, v) :: ms, 0, rest, hf => by simp [writeMembers] at hf
  | (k, v) :: ms, fuel + 1, rest, hf => by
    rw [writeMembers, length_cons, length_append, length_cons, length_append] at hf
    have hv := parseValue_write v fuel (writeMembers ms ++ rest) (by omega)
      (delimited_writeMembers ms rest)
    have hms := parseMembers_write ms fuel rest (by omega)
    rw [writeMembers, cons_append, append_assoc, cons_append, append_assoc,
      parseMembers, parseKey_write]
    simp [hv, hms]

end

theorem parse_write (doc : Json) : parse (write doc) = some doc := by
  have h := parseValue_write doc (write doc).length [] le_rfl (by simp [Delimited])
  rw [append_nil] at h
  rw [parse, h]

example : write (.object [("model", .str "m"), ("n", .array [.int (-12), .null, .bool true])]) =
    ascii "\x7b\"model\":\"m\",\"n\":[-12,null,true]\x7d" := by
  decide

def Printable (b : Bytes) : Prop := ∀ c ∈ b, 32 ≤ c

instance (b : Bytes) : Decidable (Printable b) := decidableBAll (fun c => 32 ≤ c) b

variable {b : Bytes}

theorem Printable.cons (hc : 32 ≤ c) (h : Printable b) : Printable (c :: b) := by
  intro d hd
  rcases mem_cons.1 hd with rfl | hd
  · exact hc
  · exact h d hd

theorem Printable.append {a : Bytes} (ha : Printable a) (hb : Printable b) :
    Printable (a ++ b) := by
  intro c hc
  rcases mem_append.1 hc with hc | hc
  · exact ha c hc
  · exact hb c hc

theorem Printable.not_mem (h : Printable b) (hc : c < 32) : c ∉ b :=
  fun hm => absurd hc (UInt8.not_lt.2 (h c hm))

theorem printable_escape (c : UInt8) : Printable (escape c) := by
  unfold escape
  split
  · decide
  split
  · decide
  split
  · rename_i h
    have ha : ∀ n < 32, Printable [92, 117, 48, 48, hexDigit (UInt8.ofNat n / 16),
        hexDigit (UInt8.ofNat n % 16)] := by decide
    have hc := ha c.toNat (UInt8.lt_iff_toNat_lt.1 h)
    rwa [UInt8.ofNat_toNat] at hc
  · rename_i h
    intro d hd
    rw [mem_singleton] at hd
    subst hd; exact UInt8.not_lt.1 h

theorem printable_writeString (s : Bytes) : Printable (writeString s) := by
  refine Printable.cons (by decide) (Printable.append (fun c hc => ?_) (by decide))
  obtain ⟨d, -, hd⟩ := mem_flatMap.1 hc
  exact printable_escape d c hd

theorem printable_decimal (n : Nat) : Printable (decimal n) := by
  intro c hc
  have hd := isDigit_of_mem_decimal hc
  simp only [isDigit, Bool.and_eq_true, decide_eq_true_eq] at hd
  exact UInt8.le_trans (by decide) hd.1

theorem printable_writeInt (n : Int) : Printable (writeInt n) := by
  unfold writeInt
  refine Printable.append ?_ (printable_decimal _)
  split <;> decide

mutual

theorem printable_write : ∀ doc : Json, Printable (write doc)
  | .null => by decide
  | .bool true => by decide
  | .bool false => by decide
  | .int n => by rw [write]; exact printable_writeInt n
  | .double q => by
    rw [write]
    exact (printable_writeInt _).append ((printable_decimal _).cons (by decide))
  | .string s => by rw [write]; exact printable_writeString s
  | .array [] => by rw [write]; decide
  | .array (x :: xs) => by
    rw [write]
    exact ((printable_write x).append (printable_writeElements xs)).cons (by decide)
  | .object [] => by rw [write]; decide
  | .object ((k, v) :: ms) => by
    rw [write]
    exact ((printable_writeString k).append
      (((printable_write v).append (printable_writeMembers ms)).cons (by decide))).cons (by decide)

theorem printable_writeElements : ∀ xs : List Json, Printable (writeElements xs)
  | [] => by rw [writeElements]; decide
  | x :: xs => by
    rw [writeElements]
    exact ((printable_write x).append (printable_writeElements xs)).cons (by decide)

theorem printable_writeMembers : ∀ ms : List (Bytes × Json), Printable (writeMembers ms)
  | [] => by rw [writeMembers]; decide
  | (k, v) :: ms => by
    rw [writeMembers]
    exact ((printable_writeString k).append
      (((printable_write v).append (printable_writeMembers ms)).cons (by decide))).cons (by decide)

end

theorem nulFree_write (doc : Json) : NulFree (write doc) :=
  (printable_write doc).not_mem (by decide)

def compact : RapidJson where
  parse := parse
  write := write

end Gateway.JsonText
