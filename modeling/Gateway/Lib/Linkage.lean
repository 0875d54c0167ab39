import Mathlib.Data.List.Nodup

/-! # Calls and their answers -/

namespace Gateway.Lib

open List

variable {k : Nat}

section

variable {α ι : Type} {mk : α → Nat → ι}

def numberedFrom (mk : α → Nat → ι) (k : Nat) (xs : List α) : List ι :=
  (xs.zipIdx k).map fun p => mk p.1 p.2

@[simp] theorem numberedFrom_nil (k : Nat) : numberedFrom mk k [] = [] := rfl

@[simp] theorem numberedFrom_cons (k : Nat) (x : α) (xs : List α) :
    numberedFrom mk k (x :: xs) = mk x k :: numberedFrom mk (k + 1) xs := rfl

theorem map_numberedFrom {κ : Type} (g : ι → κ) (k : Nat) (xs : List α) :
    (numberedFrom mk k xs).map g = numberedFrom (fun a k => g (mk a k)) k xs := by
  simp [numberedFrom]

theorem mem_numberedFrom_iff {xs : List α} {l : ι} :
    l ∈ numberedFrom mk k xs ↔ ∃ (i : Nat) (a : α), xs[i]? = some a ∧ l = mk a (k + i) := by
  induction xs generalizing k with
  | nil => simp
  | cons x xs ih =>
    rw [numberedFrom_cons, mem_cons, ih]
    constructor
    · rintro (rfl | ⟨i, a, ha, rfl⟩)
      · exact ⟨0, x, rfl, rfl⟩
      · exact ⟨i + 1, a, ha, by rw [Nat.add_right_comm, Nat.add_assoc]⟩
    · rintro ⟨_ | i, a, ha, rfl⟩
      · cases ha; exact .inl rfl
      · exact .inr ⟨i, a, ha, by rw [Nat.add_right_comm, Nat.add_assoc]⟩

theorem nodup_numberedFrom (hmk : ∀ {a b j k}, mk a j = mk b k → a = b ∧ j = k) (k : Nat)
    (xs : List α) : (numberedFrom mk k xs).Nodup := by
  induction xs generalizing k with
  | nil => exact nodup_nil
  | cons x xs ih =>
    rw [numberedFrom_cons, nodup_cons, mem_numberedFrom_iff]
    refine ⟨?_, ih (k + 1)⟩
    rintro ⟨i, a, -, heq⟩
    have := (hmk heq).2
    omega

theorem nodup_flatMap_numberedFrom_iff (hmk : ∀ {a b j k}, mk a j = mk b k → a = b ∧ j = k)
    (k : Nat) (runs : List (List α)) : (runs.flatMap (numberedFrom mk k)).Nodup ↔
      runs.Pairwise fun xs ys => ∀ (i : Nat) (a : α), xs[i]? = some a → ys[i]? ≠ some a := by
  rw [nodup_flatMap, and_iff_right fun xs _ => nodup_numberedFrom hmk k xs]
  refine List.Pairwise.iff_of_mem fun _ _ => ?_
  simp only [Function.onFun, List.Disjoint, mem_numberedFrom_iff]
  constructor
  · exact fun h i a ha hb => h ⟨i, a, ha, rfl⟩ ⟨i, a, hb, rfl⟩
  · rintro h _ ⟨i, a, ha, rfl⟩ ⟨j, b, hb, heq⟩
    obtain ⟨rfl, hij⟩ := hmk heq
    obtain rfl : i = j := by omega
    exact h i a ha hb

end

inductive Event (α β : Type) where
  | call (a : α)
  | answer (b : β)
  deriving DecidableEq

namespace Event

variable {α β γ ι : Type}

variable {es : List (Event α β)} {calls : List α}

def call? : Event α β → Option α
  | .call a => some a
  | .answer _ => none

def mapAnswer (f : β → γ) : Event α β → Event α γ
  | .call a => .call a
  | .answer b => .answer (f b)

def EachAnswer (R : List α → β → Prop) : List α → List (Event α β) → Prop
  | _, [] => True
  | calls, .call a :: es => EachAnswer R (a :: calls) es
  | calls, .answer b :: es => R calls b ∧ EachAnswer R calls es

instance decidableEachAnswer (R : List α → β → Prop) [∀ calls b, Decidable (R calls b)] :
    (calls : List α) → (es : List (Event α β)) → Decidable (EachAnswer R calls es)
  | _, [] => isTrue trivial
  | calls, .call a :: es => decidableEachAnswer R (a :: calls) es
  | calls, .answer b :: es =>
    have := decidableEachAnswer R calls es
    inferInstanceAs (Decidable (R calls b ∧ EachAnswer R calls es))

def answersPending [DecidableEq α] : List α → List (Event α α) → Bool
  | _, [] => true
  | pending, .call a :: es => answersPending (a :: pending) es
  | pending, .answer a :: es => decide (a ∈ pending) && answersPending (pending.erase a) es

theorem eachAnswer_map {R : List α → γ → Prop} {f : β → γ} : EachAnswer R calls
    (es.map (mapAnswer f)) ↔ EachAnswer (fun calls b => R calls (f b)) calls es := by
  induction es generalizing calls with
  | nil => rfl
  | cons e es ih =>
    cases e with
    | call a => exact ih
    | answer b => exact and_congr_right fun _ => ih

theorem EachAnswer.exists_calls {R : List α → β → Prop}
    {b : β} (h : EachAnswer R calls es) (hb : .answer b ∈ es) :
    ∃ calls', (∀ a ∈ calls', a ∈ calls ∨ .call a ∈ es) ∧ R calls' b := by
  induction es generalizing calls with
  | nil => cases hb
  | cons e es ih =>
    cases e with
    | call a =>
      obtain ⟨calls', hc, hR⟩ := ih h ((mem_cons.1 hb).resolve_left nofun)
      refine ⟨calls', fun a' ha' => ?_, hR⟩
      rcases hc a' ha' with hm | hm
      · exact (mem_cons.1 hm).elim (fun heq => .inr (heq ▸ mem_cons_self)) .inl
      · exact .inr (mem_cons_of_mem _ hm)
    | answer b' =>
      rcases mem_cons.1 hb with heq | hb
      · cases heq; exact ⟨calls, fun a ha => .inl ha, h.1⟩
      · obtain ⟨calls', hc, hR⟩ := ih h.2 hb
        exact ⟨calls', fun a ha => (hc a ha).imp_right (mem_cons_of_mem _), hR⟩

theorem eachAnswer_of_no_answer {R : List α → β → Prop}
    (h : ∀ b, Event.answer b ∉ es) : EachAnswer R calls es := by
  induction es generalizing calls with
  | nil => trivial
  | cons e es ih =>
    cases e with
    | call a => exact ih fun b hb => h b (mem_cons_of_mem _ hb)
    | answer b => exact absurd mem_cons_self (h b)

def label (mk : α → Nat → ι) (f : β → γ) : Nat → List (Event α β) → List (Event ι γ)
  | _, [] => []
  | k, .call a :: es => .call (mk a k) :: label mk f (k + 1) es
  | k, .answer b :: es => .answer (f b) :: label mk f k es

section

variable {mk : α → Nat → ι} {f : β → γ}

theorem exists_of_call_mem_label {es : List (Event α β)} {i : ι} (h : .call i ∈ label mk f k es) :
    ∃ a j, i = mk a j := by
  induction es generalizing k with
  | nil => cases h
  | cons e es ih =>
    cases e with
    | call a =>
      rcases mem_cons.1 h with heq | h
      · cases heq; exact ⟨a, k, rfl⟩
      · exact ih h
    | answer b => exact ih ((mem_cons.1 h).resolve_left nofun)

theorem answer_mem_label_iff {es : List (Event α β)} {c : γ} :
    .answer c ∈ label mk f k es ↔ ∃ b, .answer b ∈ es ∧ f b = c := by
  induction es generalizing k with
  | nil => simp [label]
  | cons e es ih =>
    cases e with
    | call a => simp [label, ih]
    | answer b => simp [label, ih, eq_comm]

theorem calls_label (k : Nat) (es : List (Event α β)) :
    (label mk f k es).filterMap call? = numberedFrom mk k (es.filterMap call?) := by
  induction es generalizing k with
  | nil => rfl
  | cons e es ih =>
    cases e with
    | call a => exact congrArg (mk a k :: ·) (ih (k + 1))
    | answer b => exact ih k

end

end Event

end Gateway.Lib
