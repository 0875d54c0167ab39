import Gateway.Lib.Bytes
import Mathlib.Data.List.DropRight

/-! # Line endings -/

namespace Gateway.Lib

open List Option

def crlf (b : Bytes) : Bytes := b.flatMap fun c => if c = 10 then [13, 10] else [c]

@[simp] theorem crlf_nil : crlf [] = [] := rfl

theorem crlf_lf (b : Bytes) : crlf (10 :: b) = 13 :: 10 :: crlf b := rfl

theorem crlf_cons {c : UInt8} (h : c ≠ 10) (b : Bytes) : crlf (c :: b) = c :: crlf b := by
  rw [crlf, flatMap_cons, if_neg h]
  rfl

theorem crlf_append (a b : Bytes) : crlf (a ++ b) = crlf a ++ crlf b := flatMap_append

variable {b : Bytes}

theorem crlf_of_not_mem (h : 10 ∉ b) : crlf b = b := by
  induction b with
  | nil => rfl
  | cons c b ih =>
    have hne : c ≠ 10 := fun heq => h (heq ▸ mem_cons_self)
    rw [crlf_cons hne, ih fun hm => h (mem_cons_of_mem c hm)]

theorem crlf_eq_nil_iff : crlf b = [] ↔ b = [] := by
  cases b with
  | nil => simp
  | cons c b => by_cases hc : c = 10 <;> simp [hc, crlf_lf, crlf_cons]

theorem head_crlf (b rest : Bytes) : crlf b ≠ 10 :: rest := by
  cases b with
  | nil => simp
  | cons c b =>
    by_cases hc : c = 10
    · rw [hc, crlf_lf]
      intro h
      injection h with hh
      exact absurd hh (by decide)
    · rw [crlf_cons hc]
      intro h
      injection h with hh
      exact hc hh

variable {pat : Bytes}

theorem prefix_crlf_iff (hp : 13 ∉ pat) (hb : 13 ∉ b) : crlf pat <+: crlf b ↔ pat <+: b := by
  induction pat generalizing b with
  | nil => simp
  | cons d pat ih =>
    rw [mem_cons, not_or] at hp
    cases b with
    | nil => simp [crlf_eq_nil_iff]
    | cons c b =>
      rw [mem_cons, not_or] at hb
      by_cases hd : d = 10 <;> by_cases hc : c = 10
      · rw [hd, hc, crlf_lf, crlf_lf, cons_prefix_cons, cons_prefix_cons,
          cons_prefix_cons, ih hp.2 hb.2]
        simp
      · rw [hd, crlf_lf, crlf_cons hc, cons_prefix_cons, cons_prefix_cons]
        exact iff_of_false (fun h => hb.1 h.1) fun h => hc h.1.symm
      · rw [hc, crlf_cons hd, crlf_lf, cons_prefix_cons, cons_prefix_cons]
        exact iff_of_false (fun h => hp.1 h.1.symm) fun h => hd h.1
      · rw [crlf_cons hd, crlf_cons hc, cons_prefix_cons, cons_prefix_cons, ih hp.2 hb.2]

theorem isPrefixOf_crlf (hp : 13 ∉ pat) (hb : 13 ∉ b) :
    (crlf pat).isPrefixOf (crlf b) = pat.isPrefixOf b := by
  rw [Bool.eq_iff_iff, isPrefixOf_iff_prefix, isPrefixOf_iff_prefix]
  exact prefix_crlf_iff hp hb

theorem find_cons (pat : Bytes) (c : UInt8) (b : Bytes) : find pat (c :: b) =
    if pat.isPrefixOf (c :: b) then some 0 else (find pat b).map (· + 1) := rfl

theorem find_crlf (hne : pat ≠ []) (hpat : 13 ∉ pat) (hb : 13 ∉ b) :
    find (crlf pat) (crlf b) = (find pat b).map fun i => (crlf (b.take i)).length := by
  induction b with
  | nil =>
    have he : (crlf pat).isEmpty = false := by simpa [crlf_eq_nil_iff] using hne
    have he' : pat.isEmpty = false := by simpa using hne
    simp [find, he, he']
  | cons c b ih =>
    have hp := isPrefixOf_crlf hpat hb
    have hr : 13 ∉ b := fun hm => hb (mem_cons_of_mem c hm)
    by_cases hc : c = 10
    · subst hc
      rw [crlf_lf] at hp ⊢
      rw [find_cons _ 13, find_cons pat, hp]
      by_cases hat : pat.isPrefixOf (10 :: b)
      · simp [hat]
      · have hbetween : ¬ (crlf pat).isPrefixOf (10 :: crlf b) := by
          intro h
          cases hpa : crlf pat with
          | nil => exact hne (crlf_eq_nil_iff.1 hpa)
          | cons d rest =>
            rw [hpa, isPrefixOf_iff_prefix, cons_prefix_cons] at h
            rw [h.1] at hpa; exact head_crlf pat rest hpa
        rw [if_neg hat, if_neg hat, find_cons, if_neg hbetween, ih hr, Option.map_map,
          Option.map_map, Option.map_map]
        refine congrArg (Option.map · (find pat b)) (funext fun i => ?_)
        simp [take_succ_cons, crlf_lf]
    · rw [crlf_cons hc] at hp ⊢
      rw [find_cons, find_cons, hp, ih hr]
      by_cases hat : pat.isPrefixOf (c :: b)
      · simp [hat]
      · rw [if_neg hat, if_neg hat, Option.map_map, Option.map_map]
        refine congrArg (Option.map · (find pat b)) (funext fun i => ?_)
        simp [take_succ_cons, crlf_cons hc]

theorem contains_crlf (hne : pat ≠ []) (hlf : 10 ∉ pat) (hp : 13 ∉ pat) (hb : 13 ∉ b) :
    contains (crlf b) pat = contains b pat := by
  have hf := find_crlf hne hp hb
  rw [crlf_of_not_mem hlf] at hf
  rw [contains, contains, hf, isSome_map]

theorem find_lf_lf_crlf (b : Bytes) : find [10, 10] (crlf b) = none := by
  induction b with
  | nil => rfl
  | cons c b ih =>
    by_cases hc : c = 10
    · subst hc
      have hn : ¬ ([10, 10] : Bytes).isPrefixOf (10 :: crlf b) := by
        intro h
        rw [ isPrefixOf_iff_prefix, cons_prefix_cons] at h
        obtain ⟨rest, hr⟩ := h.2
        exact head_crlf b rest hr.symm
      rw [crlf_lf, find, if_neg (by simp [isPrefixOf]), find, if_neg hn, ih]; rfl
    · have hf : ¬ ([10, 10] : Bytes).isPrefixOf (c :: crlf b) := by simp [isPrefixOf, Ne.symm hc]
      rw [crlf_cons hc, find, if_neg hf, ih]; rfl

theorem take_crlf (n : Nat) (b : Bytes) :
    (crlf b).take (crlf (b.take n)).length = crlf (b.take n) := by
  conv_lhs => rw [← take_append_drop n b, crlf_append]
  simp

theorem drop_crlf (n : Nat) (b : Bytes) :
    (crlf b).drop (crlf (b.take n)).length = crlf (b.drop n) := by
  conv_lhs => rw [← take_append_drop n b, crlf_append]
  simp

theorem dropWhile_crlf {q : UInt8 → Bool} (hlf : q 10 = false) (hcr : q 13 = false) (b : Bytes) :
    (crlf b).dropWhile q = crlf (b.dropWhile q) := by
  induction b with
  | nil => rfl
  | cons c b ih =>
    by_cases hc : c = 10
    · subst hc
      rw [crlf_lf, dropWhile_cons_of_neg (by simp [hcr]),
        dropWhile_cons_of_neg (by simp [hlf]), crlf_lf]
    · rw [crlf_cons hc]
      by_cases hq : q c
      · rw [dropWhile_cons_of_pos hq, dropWhile_cons_of_pos hq, ih]
      · rw [dropWhile_cons_of_neg hq, dropWhile_cons_of_neg hq, crlf_cons hc]

theorem rdropWhile_takeWhile_crlf (b : Bytes) : ((crlf b).takeWhile (· ≠ 10)).rdropWhile (· = 13) =
      (b.takeWhile (· ≠ 10)).rdropWhile (· = 13) := by
  have hl : (crlf b).takeWhile (· ≠ 10) = b.takeWhile (· ≠ 10) ∨
      (crlf b).takeWhile (· ≠ 10) = b.takeWhile (· ≠ 10) ++ [13] := by
    induction b with
    | nil => exact Or.inl rfl
    | cons c b ih =>
      by_cases hc : c = 10
      · subst hc; exact Or.inr (by simp [crlf_lf])
      · rw [crlf_cons hc]
        have hk : ∀ t : Bytes, (c :: t).takeWhile (fun x => decide (x ≠ 10)) =
            c :: t.takeWhile (fun x => decide (x ≠ 10)) :=
          fun t => takeWhile_cons_of_pos (by simpa using hc)
        rw [hk, hk]
        rcases ih with ih | ih
        · exact Or.inl (by rw [ih])
        · exact Or.inr (by rw [ih, cons_append])
  rcases hl with hl | hl
  · rw [hl]
  · rw [hl, rdropWhile_concat_pos _ _ _ (by simp)]

theorem lines_ne_nil (b : Bytes) : lines b ≠ [] := by
  cases b with
  | nil => simp [lines]
  | cons c b =>
    rw [lines]
    split
    · simp
    · split <;> simp

theorem lines_cons {c : UInt8} (hc : c ≠ 10) {line : Bytes} {rest : List Bytes}
    (h : lines b = line :: rest) : lines (c :: b) = (c :: line) :: rest := by
  rw [lines, if_neg hc, h]

theorem lines_concat (b : Bytes) : lines (b ++ [10]) = lines b ++ [[]] := by
  induction b with
  | nil => rfl
  | cons c b ih =>
    obtain ⟨line, rest, hl⟩ := exists_cons_of_ne_nil (lines_ne_nil b)
    by_cases hc : c = 10
    · rw [cons_append, lines, if_pos hc, lines, if_pos hc, ih]; rfl
    · rw [hl] at ih; rw [cons_append, lines_cons hc ih, lines_cons hc hl]; rfl

theorem lines_crlf (b : Bytes) : lines (crlf (b ++ [10])) = (lines b).map (· ++ [13]) ++ [[]] := by
  rw [crlf_append]
  change lines (crlf b ++ [13, 10]) = _
  induction b with
  | nil => rfl
  | cons c b ih =>
    obtain ⟨line, rest, hl⟩ := exists_cons_of_ne_nil (lines_ne_nil b)
    by_cases hc : c = 10
    · subst hc
      have hlf : lines (10 :: (crlf b ++ [13, 10])) = [] :: lines (crlf b ++ [13, 10]) := rfl
      rw [crlf_lf, cons_append, cons_append, lines_cons (by decide) hlf, ih]; rfl
    · rw [hl, map_cons, cons_append] at ih
      rw [crlf_cons hc, cons_append, lines_cons hc ih, lines_cons hc hl]; rfl

end Gateway.Lib
