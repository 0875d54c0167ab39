import Gateway.Lib.Framing
import Gateway.Lib.Bytes

/-! # Frames with a length in front -/

namespace Gateway.Lib

open Cutter List

def littleEndian32 (n : Nat) : Bytes :=
  [UInt8.ofNat n, UInt8.ofNat (n / 2 ^ 8), UInt8.ofNat (n / 2 ^ 16), UInt8.ofNat (n / 2 ^ 24)]

def value32 : Bytes → Nat
  | [a, b, c, d] => a.toNat + 2 ^ 8 * b.toNat + 2 ^ 16 * c.toNat + 2 ^ 24 * d.toNat
  | _ => 0

@[simp] theorem length_littleEndian32 (n : Nat) : (littleEndian32 n).length = 4 := rfl

theorem value32_littleEndian32 (n : Nat) : value32 (littleEndian32 n) = n % 2 ^ 32 := by
  simp only [littleEndian32, value32, UInt8.toNat_ofNat']
  omega

def bigEndian : Nat → Nat → Bytes
  | 0, _ => []
  | k + 1, n => UInt8.ofNat (n / 256 ^ k) :: bigEndian k n

def bigValue (b : Bytes) : Nat := b.foldl (fun n c => n * 256 + c.toNat) 0

@[simp] theorem length_bigEndian (k n : Nat) : (bigEndian k n).length = k := by
  induction k with
  | zero => rfl
  | succ k ih => rw [bigEndian, length_cons, ih]

theorem bigValue_bigEndian (k n : Nat) : bigValue (bigEndian k n) = n % 256 ^ k := by
  have h : ∀ m, (bigEndian k n).foldl (fun n c => n * 256 + c.toNat) m =
      m * 256 ^ k + n % 256 ^ k := by
    induction k with
    | zero => simp [bigEndian, Nat.mod_one]
    | succ k ih =>
      intro m
      rw [bigEndian, foldl_cons, ih, UInt8.toNat_ofNat', Nat.mod_pow_succ (b := 256),
        Nat.pow_succ 256, Nat.add_mul, Nat.mul_assoc, Nat.mul_comm 256, Nat.add_assoc,
        Nat.mul_comm (n / 256 ^ k % 2 ^ 8), Nat.add_comm (n % 256 ^ k)]
  simpa [bigValue] using h 0

def withLength (payload : Bytes) : Bytes := littleEndian32 payload.length ++ payload

theorem length_withLength (payload : Bytes) : (withLength payload).length = 4 + payload.length := by
  simp [withLength]

def cutLength (b : Bytes) : Option (Bytes × Bytes) :=
  let n := 4 + value32 (b.take 4)
  if n ≤ b.length then some (b.take n, b.drop n) else none

variable {b : Bytes}

theorem cutLength_eq_some {f r : Bytes} (h : cutLength b = some (f, r)) :
    4 + value32 (b.take 4) ≤ b.length ∧ f = b.take (4 + value32 (b.take 4)) ∧
      r = b.drop (4 + value32 (b.take 4)) := by
  unfold cutLength at h
  dsimp only at h
  split at h
  · next hle =>
    cases h
    exact ⟨hle, rfl, rfl⟩
  · cases h

theorem cutLength_extend {f r : Bytes} (x : Bytes) (h : cutLength b = some (f, r)) :
    cutLength (b ++ x) = some (f, r ++ x) := by
  obtain ⟨hle, rfl, rfl⟩ := cutLength_eq_some h
  have hh : (b ++ x).take 4 = b.take 4 := take_append_of_le_length (by omega)
  unfold cutLength
  dsimp only
  rw [hh, if_pos (by rw [length_append]; omega), take_append_of_le_length hle,
    drop_append_of_le_length hle]

def lengthPrefixed : Cutter UInt8 where
  cut := cutLength
  cut_append h := by
    obtain ⟨-, rfl, rfl⟩ := cutLength_eq_some h
    exact take_append_drop _ _
  cut_ne_nil h := by
    obtain ⟨hle, rfl, -⟩ := cutLength_eq_some h
    intro hnil
    have hlength := congrArg List.length hnil
    simp only [length_take, length_nil] at hlength; omega
  cut_extend := cutLength_extend

def payloads (b : Bytes) : List Bytes := (lengthPrefixed.frames b).1.map (·.drop 4)

def Whole (b : Bytes) : Prop := (lengthPrefixed.frames b).2 = []

theorem whole_nil : Whole [] := rfl

variable {payload : Bytes}

theorem cutLength_header {n : Nat} (h : payload.length = n % 2 ^ 32) (rest : Bytes) :
    cutLength (littleEndian32 n ++ payload ++ rest) = some (littleEndian32 n ++ payload, rest) := by
  have hh : (littleEndian32 n ++ payload ++ rest).take 4 = littleEndian32 n := by
    rw [append_assoc]; exact take_left' (length_littleEndian32 n)
  have hs : 4 + n % 2 ^ 32 = (littleEndian32 n ++ payload).length := by
    rw [length_append, length_littleEndian32, h]
  unfold cutLength
  dsimp only
  rw [hh, value32_littleEndian32, hs, if_pos (by simp), take_left, drop_left]

theorem frames_snoc (h : Whole b) (hf : payload.length < 2 ^ 32) :
    Whole (b ++ withLength payload) ∧ payloads (b ++ withLength payload) =
      payloads b ++ [payload] := by
  have hc : lengthPrefixed.cut (withLength payload) = some (withLength payload, []) := by
    have := cutLength_header (Nat.mod_eq_of_lt hf).symm []
    rwa [append_nil] at this
  have hfr : lengthPrefixed.frames (withLength payload) = ([withLength payload], []) := by
    rw [frames_of_some hc]; rfl
  unfold Whole payloads at *
  rw [frames_append, h, nil_append, hfr]
  exact ⟨rfl, by simp [withLength, littleEndian32]⟩

end Gateway.Lib
