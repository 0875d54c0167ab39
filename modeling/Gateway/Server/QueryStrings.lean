import Gateway.Server.Capability

/-! # Query strings -/

namespace Gateway.Server

open Lib List

def scanQuery (query : Bytes) : Nat → Nat → Bool
  | 0, _ => true
  | rounds + 1, i =>
    if i < query.length then
      let c := query.getD i 0
      if c < 0x21 || c > 0x7e || c == 35 then false
      else if c != 37 then scanQuery query rounds (i + 1)
      else if i + 2 ≥ query.length || !isHexDigit (query.getD (i + 1) 0)
          || !isHexDigit (query.getD (i + 2) 0) then false
      else scanQuery query rounds (i + 3)
    else true

def scanQueryString (query : Bytes) : Bool :=
  if query.isEmpty then true
  else if query.length > 4096 || query.getD 0 0 != 63 then false
  else scanQuery query query.length 1

theorem safeQueryBytes_cons {c : UInt8} (h : c ≠ 37) (rest : Bytes) :
    safeQueryBytes (c :: rest) = (0x21 ≤ c && c ≤ 0x7e && c ≠ 35 && safeQueryBytes rest) := by
  rw [safeQueryBytes]
  · simp [h]
  · intro a b rest heq; exact absurd heq h

theorem safeQueryBytes_percent {rest : Bytes} (h : rest.length < 2) :
    safeQueryBytes (37 :: rest) = false := by
  match rest with
  | [] | [_] => rfl

theorem scanQuery_eq (query : Bytes) (rounds i : Nat) (hr : query.length - i ≤ rounds) :
    scanQuery query rounds i = safeQueryBytes (query.drop i) := by
  induction rounds generalizing i with
  | zero => rw [drop_eq_nil_of_le (by omega)]; rfl
  | succ rounds ih =>
    unfold scanQuery
    split
    · next hi =>
      have hg : ∀ j, query.getD (i + j) 0 = (query.drop i).getD j 0 := fun j => by
        simp [getD_eq_getElem?_getD]
      have hd : ∀ j, query.drop (i + j) = (query.drop i).drop j := fun j => by rw [drop_drop]
      have hl : (query.drop i).length = query.length - i := length_drop
      have h0 := hg 0
      rw [Nat.add_zero] at h0
      dsimp only
      rw [ih (i + 1) (by omega), ih (i + 3) (by omega), hd 1, hd 3, hg 1, hg 2, h0]
      generalize query.drop i = tail at hl
      match tail with
      | [] => exact absurd hl (by simp; omega)
      | c :: rest =>
        rw [length_cons] at hl
        by_cases hc : c = 37
        · subst hc
          match rest with
          | [] | [_] =>
            rw [safeQueryBytes_percent (by simp)]
            simp at hl
            simp [show query.length ≤ i + 2 by omega]
          | a :: b :: rest =>
            simp at hl
            simp [safeQueryBytes, show ¬ query.length ≤ i + 2 by omega]
        · have hle : ∀ a b : UInt8, decide (a ≤ b) = !decide (b < a) := fun a b => by
            rw [← decide_not, decide_eq_decide, UInt8.not_lt]
          simp [safeQueryBytes_cons hc, hc, hle]
    · rw [drop_eq_nil_of_le (by omega)]; rfl

inductive QueryText : Bytes → Prop
  | nil : QueryText []
  | byte {c : UInt8} {rest : Bytes} (low : 0x21 ≤ c) (high : c ≤ 0x7e) (hash : c ≠ 35)
    (percent : c ≠ 37) (more : QueryText rest) : QueryText (c :: rest)
  | escape {a b : UInt8} {rest : Bytes} (first : isHexDigit a = true)
    (second : isHexDigit b = true) (more : QueryText rest) : QueryText (37 :: a :: b :: rest)

theorem safeQueryBytes_iff (query : Bytes) : safeQueryBytes query ↔ QueryText query := by
  constructor
  · intro h
    fun_induction safeQueryBytes query with
    | case1 => exact .nil
    | case2 a b rest ih => simp only [Bool.and_eq_true] at h; exact .escape h.1.1 h.1.2 (ih h.2)
    | case3 c rest hc ih =>
      simp only [Bool.and_eq_true, decide_eq_true_eq] at h
      exact .byte h.1.1.1.1 h.1.1.1.2 h.1.1.2 h.1.2 (ih h.2)
  · intro h
    induction h with
    | nil => rfl
    | byte low hig has percent _ ih => simp [safeQueryBytes_cons percent, low, hig, has, ih]
    | escape first second _ ih => simp [safeQueryBytes, first, second, ih]

theorem query_string_safe_iff (query : Bytes) : scanQueryString query = isSafeQueryString query ∧
      (isSafeQueryString query = true ↔ query = [] ∨
        query.length ≤ 4096 ∧ ∃ rest, query = 63 :: rest ∧ QueryText rest) := by
  cases query with
  | nil => exact ⟨rfl, by simp [isSafeQueryString]⟩
  | cons c rest =>
    constructor
    · rw [scanQueryString, isSafeQueryString, scanQuery_eq _ _ 1 (Nat.sub_le _ _)]
      have hlong : decide ((c :: rest).length > 4096) = !decide ((c :: rest).length ≤ 4096) := by
        simp only [← decide_not, Nat.not_le, gt_iff_lt]
      rw [hlong]
      cases decide ((c :: rest).length ≤ 4096) <;> by_cases hc : c = 63 <;> simp [hc]
    · simp [isSafeQueryString, safeQueryBytes_iff, and_assoc]

end Gateway.Server
