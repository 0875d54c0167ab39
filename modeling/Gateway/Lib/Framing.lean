import Mathlib.Data.List.Basic

/-! # Incremental framing -/

namespace Gateway.Lib

open List

universe u v

structure Cutter (α : Type u) where
  cut : List α → Option (List α × List α)
  cut_append : ∀ {b f r}, cut b = some (f, r) → f ++ r = b
  cut_ne_nil : ∀ {b f r}, cut b = some (f, r) → f ≠ []
  cut_extend : ∀ {b f r} (x : List α), cut b = some (f, r) → cut (b ++ x) = some (f, r ++ x)

namespace Cutter

variable {α : Type u} (c : Cutter α)

def framesUpTo : Nat → List α → List (List α) × List α
  | 0, b => ([], b)
  | n + 1, b =>
    match c.cut b with
    | none => ([], b)
    | some (f, r) => (f :: (framesUpTo n r).1, (framesUpTo n r).2)

def frames (b : List α) : List (List α) × List α := c.framesUpTo b.length b

variable {c}

theorem length_lt_of_cut {b f r : List α} (h : c.cut b = some (f, r)) : r.length < b.length := by
  have ha := c.cut_append h
  have hne := length_pos_iff.2 (c.cut_ne_nil h)
  rw [← ha, length_append]
  omega

theorem framesUpTo_of_none {b : List α} (h : c.cut b = none) (n : Nat) :
    c.framesUpTo n b = ([], b) := by
  cases n with
  | zero => rfl
  | succ n => simp only [framesUpTo, h]

theorem framesUpTo_eq_frames : ∀ {n : Nat} {b : List α}, b.length ≤ n →
    c.framesUpTo n b = c.frames b := by
  intro n
  induction n using Nat.strongRecOn with
  | _ n ih =>
    intro b hb
    unfold frames
    cases hc : c.cut b with
    | none => rw [framesUpTo_of_none hc, framesUpTo_of_none hc]
    | some fr =>
      obtain ⟨f, r⟩ := fr
      have hlt := length_lt_of_cut hc
      obtain ⟨n, rfl⟩ : ∃ m, n = m + 1 := ⟨n - 1, by omega⟩
      obtain ⟨m, hm⟩ : ∃ m, b.length = m + 1 := ⟨b.length - 1, by omega⟩
      rw [hm]
      simp only [framesUpTo, hc]
      rw [ih n (by omega) (by omega), ih m (by omega) (by omega)]

theorem frames_of_none {b : List α} (h : c.cut b = none) : c.frames b = ([], b) :=
  framesUpTo_of_none h _

theorem frames_of_some {b f r : List α} (h : c.cut b = some (f, r)) :
    c.frames b = (f :: (c.frames r).1, (c.frames r).2) := by
  have hlt := length_lt_of_cut h
  obtain ⟨m, hm⟩ : ∃ m, b.length = m + 1 := ⟨b.length - 1, by omega⟩
  unfold frames
  rw [hm]
  simp only [framesUpTo, h]
  rw [framesUpTo_eq_frames (n := m) (by omega)]
  rfl

theorem cut_induction {motive : List α → Prop} (none : ∀ b, c.cut b = none → motive b)
    (some : ∀ b f r, c.cut b = some (f, r) → motive r → motive b) (b : List α) : motive b := by
  induction hn : b.length using Nat.strongRecOn generalizing b with
  | _ n ih =>
    cases hc : c.cut b with
    | none => exact none b hc
    | some fr =>
      obtain ⟨f, r⟩ := fr
      have hlt := length_lt_of_cut hc
      exact some b f r hc (ih r.length (by omega) r rfl)

theorem cut_rest (b : List α) : c.cut (c.frames b).2 = none := by
  induction b using c.cut_induction with
  | none b h => rw [frames_of_none h]; exact h
  | some b f r h ih => rw [frames_of_some h]; exact ih

theorem frames_append (a b : List α) : c.frames (a ++ b) =
      ((c.frames a).1 ++ (c.frames ((c.frames a).2 ++ b)).1,
        (c.frames ((c.frames a).2 ++ b)).2) := by
  induction a using c.cut_induction with
  | none a h => simp [frames_of_none h]
  | some a f r h ih => rw [frames_of_some (c.cut_extend b h), frames_of_some h, ih]; rfl

theorem exists_cut_of_mem_frames {b f : List α} (h : f ∈ (c.frames b).1) :
    ∃ b' r, c.cut b' = some (f, r) := by
  induction b using c.cut_induction with
  | none b hb => rw [frames_of_none hb] at h; cases h
  | some b g r hb ih =>
    rw [frames_of_some hb] at h
    rcases mem_cons.1 h with rfl | h
    · exact ⟨b, r, hb⟩
    · exact ih h

theorem flatten_frames (b : List α) : (c.frames b).1.flatten ++ (c.frames b).2 = b := by
  induction b using c.cut_induction with
  | none b hb => simp [frames_of_none hb]
  | some b f r hb ih => rw [frames_of_some hb, flatten_cons, append_assoc, ih, c.cut_append hb]

theorem frames_flatten {fs : List (List α)} (h : ∀ f ∈ fs, c.cut f = some (f, [])) :
    c.frames fs.flatten = (fs, []) := by
  induction fs with
  | nil => rfl
  | cons f fs ih =>
    have hc : c.cut (f ++ fs.flatten) = some (f, fs.flatten) :=
      c.cut_extend fs.flatten (h f mem_cons_self)
    rw [flatten_cons, frames_of_some hc, ih fun g hg => h g (mem_cons_of_mem f hg)]

section

variable {ε : Type v} {σ : Type u} (consume : σ → List α → Except ε σ)

variable (c) in
def feed (s : σ × List α) (chunk : List α) : Except ε (σ × List α) :=
  (fun t => (t, (c.frames (s.2 ++ chunk)).2)) <$>
    (c.frames (s.2 ++ chunk)).1.foldlM consume s.1

theorem foldlM_feed (chunks : List (List α)) (s : σ) (rest : List α) (hr : c.cut rest = none) :
    chunks.foldlM (c.feed consume) (s, rest) =
      (fun t => (t, (c.frames (rest ++ chunks.flatten)).2)) <$>
        (c.frames (rest ++ chunks.flatten)).1.foldlM consume s := by
  induction chunks generalizing s rest with
  | nil => simp [frames_of_none hr]
  | cons chunk chunks ih =>
    rw [foldlM_cons, flatten_cons, ← append_assoc, frames_append, List.foldlM_append]
    unfold feed
    cases hru : (c.frames (rest ++ chunk)).1.foldlM consume s with
    | error e => rfl
    | ok t => exact ih t _ (cut_rest _)

end

end Cutter

end Gateway.Lib
