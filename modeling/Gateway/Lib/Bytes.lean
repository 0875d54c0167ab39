import Mathlib.Algebra.Ring.Int.Defs
import Mathlib.Algebra.Ring.Nat
import Mathlib.Data.List.Infix
import Mathlib.Data.List.Basic
import Mathlib.Data.List.TakeWhile

/-! # Byte strings -/

namespace Gateway.Lib

open List

abbrev Bytes := List UInt8

instance : LawfulBEq Bytes := inferInstance

def ascii (s : String) : Bytes := s.toList.map fun c => c.toNat.toUInt8

instance : Coe String Bytes := ⟨ascii⟩

def cstr (b : Bytes) : Bytes := b.takeWhile (· ≠ 0)

def decimal (n : Nat) : Bytes := (Nat.repr n).toList.map fun c => c.toNat.toUInt8

theorem toUInt8_toNat_of_mem_toDigits {n : Nat} {c : Char} (h : c ∈ Nat.toDigits 10 n) :
    c.toNat.toUInt8.toNat = c.toNat ∧ 48 ≤ c.toNat ∧ c.toNat ≤ 57 := by
  have hd := Nat.isDigit_of_mem_toDigits (by decide) (by decide) h
  simp only [Char.isDigit, Bool.and_eq_true, decide_eq_true_eq, UInt32.le_iff_toNat_le] at hd
  have hl : 48 ≤ c.toNat := hd.1
  have hh : c.toNat ≤ 57 := hd.2
  exact ⟨Nat.mod_eq_of_lt (by omega), hl, hh⟩

theorem map_decimal (n : Nat) :
    (decimal n).map (fun b => Char.ofNat b.toNat) = Nat.toDigits 10 n := by
  have hba : ∀ c ∈ Nat.toDigits 10 n, Char.ofNat c.toNat.toUInt8.toNat = c := by
    intro c hc
    rw [(toUInt8_toNat_of_mem_toDigits hc).1, Char.ofNat_toNat]
  rw [decimal, Nat.toList_repr, map_map]
  exact (map_congr_left hba).trans (map_id _)

theorem decimal_injective : Function.Injective decimal := by
  intro m n h
  have hd : Nat.toDigits 10 m = Nat.toDigits 10 n := by rw [← map_decimal, ← map_decimal, h]
  rw [← Nat.ofDigitChars_ten_toDigits (n := m), hd, Nat.ofDigitChars_ten_toDigits]

def find (pat : Bytes) : Bytes → Option Nat
  | [] => if pat.isEmpty then some 0 else none
  | c :: b => if pat.isPrefixOf (c :: b) then some 0 else (find pat b).map (· + 1)

def contains (b pat : Bytes) : Bool := (find pat b).isSome

def startsWith (b pat : Bytes) : Bool := pat.isPrefixOf b

def endsWith (b pat : Bytes) : Bool := pat.isSuffixOf b

def findFrom (pat : Bytes) (start : Nat) (b : Bytes) : Option Nat :=
  if start ≤ b.length then (find pat (b.drop start)).map (start + ·) else none

def lower (b : Bytes) : Bytes := b.map fun c => if 65 ≤ c ∧ c ≤ 90 then c + 32 else c

def isSpace (c : UInt8) : Bool := c = 32 || (9 ≤ c && c ≤ 13)

def isDigit (c : UInt8) : Bool := 48 ≤ c && c ≤ 57

def isAlnum (c : UInt8) : Bool := isDigit c || (65 ≤ c && c ≤ 90) || (97 ≤ c && c ≤ 122)

def hexDigit (n : UInt8) : UInt8 := if n < 10 then 48 + n else 87 + n

def hex64 (n : UInt64) : Bytes :=
  (range 16).map fun i => hexDigit ((n >>> (60 - 4 * i).toUInt64) &&& 15).toUInt8

def digitsValue (b : Bytes) : Nat := b.foldl (fun n c => 10 * n + (c.toNat - 48)) 0

def lines : Bytes → List Bytes
  | [] => [[]]
  | c :: b =>
    if c = 10 then [] :: lines b
    else
      match lines b with
      | [] => [[c]]
      | line :: rest => (c :: line) :: rest

variable {c : UInt8}

theorem isDigit_of_mem_decimal {n : Nat} (h : c ∈ decimal n) : isDigit c := by
  rw [decimal, Nat.toList_repr, mem_map] at h
  obtain ⟨d, hd, rfl⟩ := h
  obtain ⟨hby, hl, hh⟩ := toUInt8_toNat_of_mem_toDigits hd
  simp only [isDigit, Bool.and_eq_true, decide_eq_true_eq, UInt8.le_iff_toNat_le, hby]
  exact ⟨hl, hh⟩

theorem decimal_ne_nil (n : Nat) : decimal n ≠ [] := by
  rw [decimal, Nat.toList_repr]
  simp [Nat.toDigits_ne_nil]

variable {a b : Bytes}

theorem append_separator_inj {x y : Bytes} (hx : c ∉ x) (hy : c ∉ y) (h : a ++ c :: x = b ++ c ::
    y) : a = b ∧ x = y := by
  rcases append_eq_append_iff.1 h with ⟨t, rfl, ht⟩ | ⟨t, rfl, ht⟩
  · cases t with
    | nil => simpa using ht
    | cons d t =>
      injection ht with _ ht
      exact absurd (ht ▸ by simp) hx
  · cases t with
    | nil => simpa [eq_comm] using ht
    | cons d t =>
      injection ht with _ ht
      exact absurd (ht ▸ by simp) hy

theorem digitsValue_decimal (n : Nat) : digitsValue (decimal n) = n := by
  rw [digitsValue, decimal, Nat.toList_repr, foldl_map]
  refine Eq.trans ?_ (Nat.ofDigitChars_ten_toDigits (n := n))
  rw [Nat.ofDigitChars_eq_foldl]
  refine foldl_ext _ _ _ fun m c hc => ?_
  rw [(toUInt8_toNat_of_mem_toDigits hc).1]
  rfl

def NulFree (b : Bytes) : Prop := 0 ∉ b

instance (b : Bytes) : Decidable (NulFree b) := inferInstanceAs (Decidable (0 ∉ b))

theorem NulFree.cstr_eq (h : NulFree b) : cstr b = b := by
  refine takeWhile_eq_self_iff.2 fun c hc => ?_
  simpa using ne_of_mem_of_not_mem hc h

theorem nulFree_cstr (b : Bytes) : NulFree (cstr b) := fun h => by
  simpa using mem_takeWhile_imp h

theorem cstr_eq_self_iff : cstr b = b ↔ NulFree b :=
  ⟨fun h => h ▸ nulFree_cstr b, NulFree.cstr_eq⟩

@[simp] theorem nulFree_nil : NulFree [] := not_mem_nil

theorem NulFree.append (ha : NulFree a) (hb : NulFree b) : NulFree (a ++ b) :=
  fun h => (mem_append.1 h).elim ha hb

theorem nulFree_decimal (n : Nat) : NulFree (decimal n) := fun h => by
  cases isDigit_of_mem_decimal h

variable {pat : Bytes} {i : Nat}

theorem find_eq_some_iff : find pat b = some i ↔
      i ≤ b.length ∧ pat <+: b.drop i ∧ ∀ j < i, ¬ pat <+: b.drop j := by
  induction b generalizing i with
  | nil =>
    unfold find
    cases pat with
    | nil => cases i <;> simp
    | cons p ps => simp
  | cons c b ih =>
    unfold find
    by_cases h : pat.isPrefixOf (c :: b)
    · rw [if_pos h]
      have hp : pat <+: c :: b := isPrefixOf_iff_prefix.1 h
      constructor
      · intro hi; cases hi; exact ⟨Nat.zero_le _, hp, fun j hj => absurd hj (Nat.not_lt_zero j)⟩
      · rintro ⟨-, -, hm⟩
        cases i with
        | zero => rfl
        | succ i => exact absurd hp (hm 0 (Nat.succ_pos i))
    · rw [if_neg h]
      have hp : ¬ pat <+: c :: b := fun hp => h ( isPrefixOf_iff_prefix.2 hp)
      cases i with
      | zero =>
        constructor
        · intro hi
          cases hf : find pat b <;> rw [hf] at hi <;> simp at hi
        · rintro ⟨-, h0, -⟩; exact absurd h0 hp
      | succ i =>
        rw [Option.map_eq_some_iff]
        constructor
        · rintro ⟨k, hk, hki⟩
          obtain rfl : k = i := by omega
          obtain ⟨hle, hat, hm⟩ := ih.1 hk
          refine ⟨by simpa using hle, by simpa using hat, ?_⟩
          intro j hj
          cases j with
          | zero => exact hp
          | succ j => simpa using hm j (by omega)
        · rintro ⟨hle, hat, hm⟩
          refine ⟨i, ih.2 ⟨by simpa using hle, by simpa using hat, ?_⟩, rfl⟩
          intro j hj
          simpa using hm (j + 1) (by omega)

theorem find_eq_none_iff : find pat b = none ↔ ∀ i ≤ b.length, ¬ pat <+: b.drop i := by
  constructor
  · intro h i
    induction i using Nat.strongRecOn with
    | _ i ih =>
      intro hi hat
      have : find pat b = some i := find_eq_some_iff.2 ⟨hi, hat, fun j hj => ih j hj (by omega)⟩
      rw [h] at this; cases this
  · intro h
    cases hf : find pat b with
    | none => rfl
    | some i => obtain ⟨hi, hat, -⟩ := find_eq_some_iff.1 hf; exact absurd hat (h i hi)

theorem find_drop (h : find pat b = some i) {k : Nat} (hk : k ≤ i) :
    find pat (b.drop k) = some (i - k) := by
  obtain ⟨hle, hat, hfirst⟩ := find_eq_some_iff.1 h
  refine find_eq_some_iff.2 ⟨by rw [length_drop]; omega, ?_, fun j hj hfound => ?_⟩
  · rwa [drop_drop, Nat.add_sub_cancel' hk]
  · rw [drop_drop] at hfound; exact hfirst (k + j) (by omega) hfound

theorem find_drop_of_none (h : find pat b = none) {k : Nat} : find pat (b.drop k) = none := by
  refine find_eq_none_iff.2 fun j _ hfound => ?_
  rw [drop_drop] at hfound
  rcases Nat.le_total (k + j) b.length with hle | hge
  · exact find_eq_none_iff.1 h _ hle hfound
  · rw [drop_of_length_le hge] at hfound
    exact find_eq_none_iff.1 h b.length (Nat.le_refl _) (by rwa [drop_length])

theorem find_add_length_le (h : find pat b = some i) : i + pat.length ≤ b.length := by
  obtain ⟨hi, hat, -⟩ := find_eq_some_iff.1 h
  have := hat.length_le
  rw [length_drop] at this
  omega

theorem find_append_of_some (h : find pat b = some i) (x : Bytes) : find pat (b ++ x) = some i := by
  obtain ⟨hi, hat, hm⟩ := find_eq_some_iff.1 h
  have hl := find_add_length_le h
  have hd : ∀ j ≤ b.length, (b ++ x).drop j = b.drop j ++ x :=
    fun j hj => drop_append_of_le_length hj
  refine find_eq_some_iff.2 ⟨by rw [length_append]; omega, ?_, ?_⟩
  · rw [hd i hi]; exact hat.trans (prefix_append _ _)
  · intro j hj hat'
    rw [hd j (by omega)] at hat'
    have hf : pat.length ≤ (b.drop j).length := by rw [length_drop]; omega
    exact hm j hj (prefix_of_prefix_length_le hat' (prefix_append _ _) hf)

theorem find_append_of_none {x : Bytes} (h : find pat b = none) (hi : find pat (b ++ x) = some i) :
    b.length < i + pat.length := by
  obtain ⟨-, hat, -⟩ := find_eq_some_iff.1 hi
  by_contra hle
  have hib : i ≤ b.length := by omega
  rw [drop_append_of_le_length hib] at hat
  have hf : pat.length ≤ (b.drop i).length := by rw [length_drop]; omega
  exact find_eq_none_iff.1 h i hib
    (prefix_of_prefix_length_le hat (prefix_append _ _) hf)

theorem find_append_of_not_mem (h : c ∉ a) (b : Bytes) :
    find (c :: pat) (a ++ b) = (find (c :: pat) b).map (· + a.length) := by
  induction a with
  | nil => simp
  | cons d a ih =>
    have hne : c ≠ d := fun heq => h (heq ▸ mem_cons_self)
    have hr : c ∉ a := fun hm => h (mem_cons_of_mem d hm)
    have hat : ¬ (c :: pat).isPrefixOf (d :: (a ++ b)) := by simp [isPrefixOf, hne]
    rw [cons_append, find, if_neg hat, ih hr, Option.map_map]; rfl

theorem find_eq_none_of_not_mem (h : c ∉ b) : find (c :: pat) b = none := by
  have hf : find (c :: pat) (b ++ []) = _ := find_append_of_not_mem h []
  rw [append_nil] at hf
  rw [hf]
  rfl

theorem lines_append (h : 10 ∉ a) (b : Bytes) : lines (a ++ 10 :: b) = a :: lines b := by
  induction a with
  | nil => rfl
  | cons c a ih =>
    have hne : c ≠ 10 := fun heq => h (heq ▸ mem_cons_self)
    rw [cons_append, lines, if_neg hne, ih fun hm => h (mem_cons_of_mem c hm)]

section

variable {α β : Type}

theorem length_flatMap_le {f g : α → List β} {xs : List α}
    (hl : ∀ x ∈ xs, (f x).length ≤ (g x).length) :
    (xs.flatMap f).length ≤ (xs.flatMap g).length := by
  induction xs with
  | nil => exact le_rfl
  | cons x xs ih =>
    rw [forall_mem_cons] at hl
    rw [flatMap_cons, flatMap_cons, length_append, length_append]
    exact Nat.add_le_add hl.1 (ih hl.2)

theorem flatMap_eq_flatMap_iff {f g : α → List β} {xs : List α}
    (hl : ∀ x ∈ xs, (f x).length ≤ (g x).length) :
    xs.flatMap f = xs.flatMap g ↔ ∀ x ∈ xs, f x = g x := by
  refine ⟨fun h => ?_, flatMap_congr⟩
  induction xs with
  | nil => simp
  | cons x xs ih =>
    rw [forall_mem_cons] at hl ⊢
    rw [flatMap_cons, flatMap_cons] at h
    have hr := length_flatMap_le hl.2
    have ht := congrArg List.length h
    rw [length_append, length_append] at ht
    obtain ⟨hx, hxs⟩ := append_inj h (by have := hl.1; omega)
    exact ⟨hx, ih hl.2 hxs⟩

end

end Gateway.Lib
