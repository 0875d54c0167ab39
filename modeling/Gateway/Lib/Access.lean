import Mathlib.Data.List.Basic

/-! # Computations that may fault -/

namespace Gateway.Lib

open List

universe u v

variable {ε : Type u} {α β : Type v} {σ : Type v}

variable {k : α → Except ε β} {m : Except ε α} {xs : List β} {f : σ → β → Except ε σ}

def Safe (m : Except ε α) : Prop := ∃ a, m = .ok a

@[simp] theorem safe_ok (a : α) : Safe (.ok a : Except ε α) := ⟨a, rfl⟩

@[simp] theorem safe_pure (a : α) : Safe (pure a : Except ε α) := ⟨a, rfl⟩

@[simp] theorem pure_eq_ok (a : α) : (pure a : Except ε α) = .ok a := rfl

@[simp] theorem not_safe_error (e : ε) : ¬ Safe (.error e : Except ε α) := by
  rintro ⟨a, ha⟩
  cases ha

instance (m : Except ε α) : Decidable (Safe m) :=
  match m with
  | .ok a => .isTrue ⟨a, rfl⟩
  | .error e => .isFalse (not_safe_error e)

theorem Safe.bind (hm : Safe m) (hk : ∀ a, Safe (k a)) : Safe (m >>= k) := by
  obtain ⟨a, rfl⟩ := hm
  exact hk a

theorem safe_bind_iff : Safe (m >>= k) ↔ ∃ a, m = .ok a ∧ Safe (k a) := by
  constructor
  · rintro ⟨b, hb⟩
    cases m with
    | error e => cases hb
    | ok a => exact ⟨a, rfl, b, hb⟩
  · rintro ⟨a, rfl, hk⟩; exact hk

@[simp] theorem ok_bind (a : α) (k : α → Except ε β) : (Except.ok a >>= k) = k a := rfl

@[simp] theorem error_bind (e : ε) (k : α → Except ε β) : (Except.error e >>= k) = .error e := rfl

theorem bind_eq_ok {b : β} (h : m >>= k = .ok b) : ∃ a, m = .ok a ∧ k a = .ok b := by
  cases m with
  | error e => cases h
  | ok a => exact ⟨a, rfl, h⟩

@[simp] theorem ok_and_ok (a b : Bool) :
    ((Except.ok a : Except ε Bool) <&&> .ok b) = .ok (a && b) := by
  cases a <;> rfl

@[simp] theorem ok_or_ok (a b : Bool) :
    ((Except.ok a : Except ε Bool) <||> .ok b) = .ok (a || b) := by
  cases a <;> rfl

theorem safe_bind_iff_of_safe (hk : ∀ a, Safe (k a)) : Safe (m >>= k) ↔ Safe m := by
  rw [safe_bind_iff]
  constructor
  · rintro ⟨a, ha, -⟩; exact ⟨a, ha⟩
  · rintro ⟨a, ha⟩; exact ⟨a, ha, hk a⟩

theorem Safe.ite {p : Prop} [Decidable p] {m n : Except ε α} (hm : p → Safe m) (hn : ¬ p → Safe n) :
    Safe (if p then m else n) := by
  split
  · exact hm ‹_›
  · exact hn ‹_›

theorem anyM_of_ok {f : β → Except ε Bool} {p : β → Bool}
    (h : ∀ x ∈ xs, f x = .ok (p x)) : xs.anyM f = .ok (xs.any p) := by
  induction xs with
  | nil => rfl
  | cons x xs ih =>
    rw [anyM, h x mem_cons_self, ok_bind, any_cons]
    cases p x with
    | true => rfl
    | false => exact ih fun y hy => h y (mem_cons_of_mem x hy)

theorem safe_foldlM_iff {good : β → Prop} (h : ∀ x ∈ xs, ∀ s, Safe (f s x) ↔ good x) (s : σ) :
    Safe (xs.foldlM f s) ↔ ∀ x ∈ xs, good x := by
  induction xs generalizing s with
  | nil => simp
  | cons x xs ih =>
    have hx : ∀ s, Safe (f s x) ↔ good x := h x mem_cons_self
    have hxs := ih fun y hy => h y (mem_cons_of_mem x hy)
    rw [foldlM_cons, safe_bind_iff, forall_mem_cons]
    constructor
    · rintro ⟨t, ht, hr⟩; exact ⟨(hx s).1 ⟨t, ht⟩, (hxs t).1 hr⟩
    · rintro ⟨hg, hgs⟩; obtain ⟨t, ht⟩ := (hx s).2 hg; exact ⟨t, ht, (hxs t).2 hgs⟩

theorem foldlM_of_ok {g : σ → β → σ}
    (h : ∀ x ∈ xs, ∀ s, f s x = .ok (g s x)) (s : σ) : xs.foldlM f s = .ok (xs.foldl g s) := by
  induction xs generalizing s with
  | nil => rfl
  | cons x xs ih =>
    rw [foldlM_cons, h x mem_cons_self, ok_bind, foldl_cons]
    exact ih (fun y hy => h y (mem_cons_of_mem x hy)) _

theorem foldlM_append {f : List α → β → Except ε (List α)} {g : β → List α}
    (h : ∀ x ∈ xs, ∀ s, f s x = .ok (s ++ g x)) (s : List α) :
    xs.foldlM f s = .ok (s ++ xs.flatMap g) := by
  induction xs generalizing s with
  | nil => simp
  | cons x xs ih =>
    rw [foldlM_cons, h x mem_cons_self, ok_bind,
      ih (fun y hy => h y (mem_cons_of_mem x hy)), flatMap_cons, append_assoc]

end Gateway.Lib
