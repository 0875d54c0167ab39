import Mathlib.Data.List.Basic

/-! # Loops with an early return -/

namespace Gateway.Lib

open List

universe u v

variable {σ : Type u} {ι : Type v}

def stateOf : Except σ σ → σ
  | .ok s => s
  | .error s => s

@[simp] theorem stateOf_ok (s : σ) : stateOf (.ok s) = s := rfl

@[simp] theorem stateOf_error (s : σ) : stateOf (.error s) = s := rfl

def drive (step : σ → ι → Except σ σ) (last : ι) : List ι → σ → σ
  | [], s => stateOf (step s last)
  | i :: is, s =>
    match step s i with
    | .ok s => drive step last is s
    | .error s => s

variable {step : σ → ι → Except σ σ} {last : ι}

theorem drive_cons_of_ok {s s' : σ} {i : ι} (h : step s i = .ok s') (is : List ι) :
    drive step last (i :: is) s = drive step last is s' := by
  simp only [drive, h]

theorem drive_cons_of_error {s s' : σ} {i : ι} (h : step s i = .error s') (is : List ι) :
    drive step last (i :: is) s = s' := by
  simp only [drive, h]

section

variable {R : σ → σ → Prop} (htrans : ∀ a b c, R a b → R b c → R a c)

include htrans

theorem rel_bind {m : Except σ σ} {k : σ → Except σ σ} {s : σ} (hm : R s (stateOf m))
    (hk : ∀ t, m = .ok t → R t (stateOf (k t))) : R s (stateOf (m >>= k)) := by
  cases m with
  | error t => exact hm
  | ok t => exact htrans _ _ _ hm (hk t rfl)

theorem rel_foldlM (hr : ∀ a, R a a) {xs : List ι} (hs : ∀ x ∈ xs, ∀ s, R s (stateOf (step s x)))
    (s : σ) : R s (stateOf (xs.foldlM step s)) := by
  induction xs generalizing s with
  | nil => exact hr s
  | cons x xs ih =>
    rw [foldlM_cons]
    refine rel_bind htrans (hs x mem_cons_self s) fun t _ => ?_
    exact ih (fun y hy => hs y (mem_cons_of_mem x hy)) t

end

theorem ok_of_foldlM {R : List ι → σ → σ → Prop} (hn : ∀ s, R [] s s)
    (hc : ∀ {x xs s t u}, step s x = .ok t → R xs t u → R (x :: xs) s u) {xs : List ι} {s u : σ}
    (h : xs.foldlM step s = .ok u) : R xs s u := by
  induction xs generalizing s with
  | nil => cases h; exact hn _
  | cons x xs ih =>
    rw [foldlM_cons] at h
    cases hx : step s x with
    | error t => rw [hx] at h; cases h
    | ok t => rw [hx] at h; exact hc hx (ih h)

theorem error_of_foldlM {good : σ → Prop} (hs : ∀ {x s t}, step s x = .error t → good t)
    {xs : List ι} {s u : σ} (h : xs.foldlM step s = .error u) : good u := by
  induction xs generalizing s with
  | nil => cases h
  | cons x xs ih =>
    rw [foldlM_cons] at h
    cases hx : step s x with
    | error t => rw [hx] at h; cases h; exact hs hx
    | ok t => rw [hx] at h; exact ih h

def visited (step : σ → ι → Except σ σ) : List ι → σ → List ι
  | [], _ => []
  | x :: xs, s =>
    x :: match step s x with
      | .ok s => visited step xs s
      | .error _ => []

theorem visited_of_ok {xs : List ι} {s t : σ} (h : xs.foldlM step s = .ok t) :
    visited step xs s = xs := by
  induction xs generalizing s with
  | nil => rfl
  | cons x xs ih =>
    rw [foldlM_cons] at h
    cases hx : step s x with
    | error u => rw [hx] at h; cases h
    | ok u => rw [hx] at h; simp only [visited, hx, ih h]

theorem visited_isPrefix (xs : List ι) (s : σ) : visited step xs s <+: xs := by
  induction xs generalizing s with
  | nil => exact prefix_rfl
  | cons x xs ih =>
    rw [visited, prefix_cons_inj]
    cases step s x with
    | ok t => exact ih t
    | error t => exact nil_prefix

theorem observe_foldlM {β : Type u} {f : σ → β} {g : β → ι → β}
    (hs : ∀ s x, f (stateOf (step s x)) = g (f s) x) (xs : List ι) (s : σ) :
    f (stateOf (xs.foldlM step s)) = (visited step xs s).foldl g (f s) := by
  induction xs generalizing s with
  | nil => rfl
  | cons x xs ih =>
    rw [foldlM_cons]
    have hx := hs s x
    cases hr : step s x with
    | error t => rw [hr] at hx; simp only [visited, hr, foldl_cons, foldl_nil]; exact hx
    | ok t => rw [hr] at hx; simp only [visited, hr, foldl_cons, ← hx]; exact ih t

variable {κ : Type v}

def collect (step : σ → ι → Except σ σ) (seen : σ → ι → List κ) : List ι → σ → List κ
  | [], _ => []
  | i :: is, s =>
    seen s i ++ match step s i with
      | .ok s => collect step seen is s
      | .error _ => []

theorem observe_drive {β : Type u} {f : σ → β} {g : β → κ → β} {seen : σ → ι → List κ}
    (hs : ∀ s i, f (stateOf (step s i)) = (seen s i).foldl g (f s))
    (hl : ∀ s, f (stateOf (step s last)) = f s) (is : List ι) (s : σ) :
    f (drive step last is s) = (collect step seen is s).foldl g (f s) := by
  induction is generalizing s with
  | nil => exact hl s
  | cons i is ih =>
    have hi := hs s i
    cases hr : step s i with
    | error t =>
      rw [drive_cons_of_error hr]
      rw [hr] at hi
      simp only [collect, hr, append_nil]; exact hi
    | ok t =>
      rw [drive_cons_of_ok hr, ih t]
      rw [hr] at hi
      simp only [collect, hr, foldl_append, ← hi, stateOf_ok]

def Avoids (step : σ → ι → Except σ σ) (last : ι) (bad : σ → ι → Prop) : List ι → σ → Prop
  | [], s => ¬ bad s last
  | i :: is, s => ¬ bad s i ∧ ∀ s', step s i = .ok s' → Avoids step last bad is s'

theorem good_drive_iff (inv good : σ → Prop) {bad : σ → ι → Prop}
    (hok : ∀ {s s' i}, inv s → step s i = .ok s' → inv s' ∧ ¬ bad s i)
    (he : ∀ {s s' i}, inv s → step s i = .error s' → (good s' ↔ ¬ bad s i))
    (hl : ∀ s, ∃ s', step s last = .error s') (is : List ι) {s : σ} (hs : inv s) :
    good (drive step last is s) ↔ Avoids step last bad is s := by
  induction is generalizing s with
  | nil =>
    obtain ⟨s', hs'⟩ := hl s
    simp only [drive, Avoids, hs', stateOf_error]; exact he hs hs'
  | cons i is ih =>
    cases hst : step s i with
    | ok s' =>
      obtain ⟨hi, hg⟩ := hok hs hst
      rw [drive_cons_of_ok hst, ih hi]
      constructor
      · intro h
        refine ⟨hg, fun t ht => ?_⟩
        rw [hst] at ht
        cases ht; exact h
      · exact fun h => h.2 s' hst
    | error s' =>
      rw [drive_cons_of_error hst, he hs hst]
      constructor
      · intro h
        refine ⟨h, fun t ht => ?_⟩
        rw [hst] at ht; cases ht
      · exact fun h => h.1

end Gateway.Lib
