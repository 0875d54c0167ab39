import Gateway.Lib.Bytes

/-! # Texts with escapes -/

namespace Gateway.Lib

theorem forall_byte {p : UInt8 → Prop} (h : ∀ n < 256, p (UInt8.ofNat n)) (c : UInt8) : p c := by
  have hc := h c.toNat (UInt8.toNat_lt c)
  rwa [UInt8.ofNat_toNat] at hc

theorem forall_mem_of_all {p : UInt8 → Prop} [DecidablePred p] {bytes : Bytes}
    (h : bytes.all (fun x => decide (p x))) : ∀ x ∈ bytes, p x :=
  fun x hx => of_decide_eq_true (List.all_eq_true.1 h x hx)

def hexDigitValue (c : UInt8) : Option UInt8 :=
  if isDigit c then some (c - 48)
  else if 65 ≤ c ∧ c ≤ 70 then some (c - 55)
  else if 97 ≤ c ∧ c ≤ 102 then some (c - 87)
  else none

def percentDecode : Bytes → Bytes
  | [] => []
  | 37 :: a :: b :: rest =>
    match hexDigitValue a, hexDigitValue b with
    | some x, some y => (x * 16 + y) :: percentDecode rest
    | _, _ => 37 :: percentDecode (a :: b :: rest)
  | c :: rest => c :: percentDecode rest

def escapeValue (e : UInt8) : Option UInt8 :=
  [((34 : UInt8), (34 : UInt8)), (92, 92), (47, 47), (98, 8), (102, 12), (110, 10), (114, 13),
    (116, 9)].lookup e

def utf8Unit (n : Nat) : Bytes :=
  if n < 0x80 then [n.toUInt8]
  else if n < 0x800 then [(0xC0 + n / 64).toUInt8, (0x80 + n % 64).toUInt8]
  else [(0xE0 + n / 4096).toUInt8, (0x80 + n / 64 % 64).toUInt8, (0x80 + n % 64).toUInt8]

def hexUnit (a b c d : UInt8) : Option Nat :=
  [a, b, c, d].foldlM (fun n x => (hexDigitValue x).map (16 * n + ·.toNat)) 0

def readString : Bytes → Option (Bytes × Bytes)
  | [] => none
  | 92 :: 117 :: a :: b :: c :: d :: rest => do
    let unit ← hexUnit a b c d
    (readString rest).map fun (s, rest) => (utf8Unit unit ++ s, rest)
  | 92 :: e :: rest => do
    let c ← escapeValue e
    (readString rest).map fun (s, rest) => (c :: s, rest)
  | c :: rest =>
    if c = 34 then some ([], rest)
    else if c < 32 ∨ c = 92 then none
    else (readString rest).map fun (s, rest) => (c :: s, rest)

section

variable {c : UInt8}

theorem readString_control (h : c < 32) (rest : Bytes) :
    readString (92 :: 117 :: 48 :: 48 :: hexDigit (c / 16) :: hexDigit (c % 16) :: rest) =
      (readString rest).map fun (s, rest) => (c :: s, rest) := by
  have hdigits : ∀ n < 32, hexUnit 48 48 (hexDigit (UInt8.ofNat n / 16))
      (hexDigit (UInt8.ofNat n % 16)) = some (UInt8.ofNat n).toNat := by decide
  have hunit := hdigits c.toNat (UInt8.lt_iff_toNat_lt.1 h)
  have hone : utf8Unit c.toNat = [c] := by
    have hlow : c.toNat < 128 := lt_trans (UInt8.lt_iff_toNat_lt.1 h) (by decide)
    rw [utf8Unit, if_pos hlow]; simp
  rw [UInt8.ofNat_toNat] at hunit
  rw [readString, hunit]
  simp [hone]

theorem readString_plain (h34 : c ≠ 34) (h92 : c ≠ 92) (h32 : ¬ c < 32) (rest : Bytes) :
    readString (c :: rest) = (readString rest).map fun (s, rest) => (c :: s, rest) := by
  rw [readString]
  · simp [h34, h92, h32]
  · exact fun _ _ _ _ _ heq => absurd heq h92
  · exact fun _ _ heq => absurd heq h92

theorem readString_escaped {escape : UInt8 → Bytes} (h : ∀ c rest, readString (escape c ++ rest) =
      (readString rest).map fun (s, rest) => (c :: s, rest)) (s rest : Bytes) :
    readString (s.flatMap escape ++ 34 :: rest) = some (s, rest) := by
  induction s with
  | nil => rw [List.flatMap_nil, List.nil_append, readString] <;> simp
  | cons c s ih => rw [List.flatMap_cons, List.append_assoc, h, ih]; rfl

end

end Gateway.Lib
