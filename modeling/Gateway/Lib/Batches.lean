import Mathlib.Data.List.Sort

/-! # Queues that are served in batches from their head -/

namespace Gateway.Lib

open List

universe u

variable {α : Type u}

section
variable (size : Nat) (stays : α → Bool)

def serveRound (queue : List α) : List α := (queue.take size).filter stays ++ queue.drop size

def serveRounds (k : Nat) (queue : List α) : List α := (serveRound size stays)^[k] queue

def covered (queue : List α) : Nat → Nat
  | 0 => 0
  | k + 1 => covered queue k + (size - (queue.take (covered queue k)).countP stays)

def ServedWithin (k : Nat) (queue : List α) (x : α) : Prop :=
  ∃ j < k, x ∈ (serveRounds size stays j queue).take size

variable {size stays}

variable (k : Nat)

variable (queue : List α)

theorem serveRounds_succ :
    serveRounds size stays (k + 1) queue = serveRound size stays (serveRounds size stays k queue) :=
  Function.iterate_succ_apply' ..

theorem serveRound_append {front back : List α} (hs : ∀ x ∈ front, stays x) :
    serveRound size stays (front ++ back) =
      front ++ ((back.take (size - front.length)).filter stays ++
        back.drop (size - front.length)) := by
  rw [serveRound, take_append, drop_append, filter_append]
  by_cases hf : size ≤ front.length
  · have hz : size - front.length = 0 := by omega
    have hk : (front.take size).filter stays = front.take size :=
      filter_eq_self.2 fun x hx => hs x (mem_of_mem_take hx)
    rw [hz, hk]
    simp [← append_assoc]
  · have ha : front.take size = front := take_of_length_le (by omega)
    have hn : front.drop size = [] := drop_eq_nil_of_le (by omega)
    rw [ha, hn, filter_eq_self.2 hs, nil_append, append_assoc]

theorem serveRounds_eq : serveRounds size stays k queue =
      (queue.take (covered size stays queue k)).filter stays ++
        queue.drop (covered size stays queue k) := by
  induction k with
  | zero => simp [serveRounds, covered]
  | succ k ih =>
    have hs : ∀ x ∈ (queue.take (covered size stays queue k)).filter stays, stays x :=
      fun x hx => (mem_filter.1 hx).2
    rw [serveRounds_succ, ih, serveRound_append hs, ← countP_eq_length_filter, covered,
      take_add, filter_append, drop_drop, append_assoc]

theorem take_rounds : (serveRounds size stays k queue).take size =
      ((queue.take (covered size stays queue k)).filter stays).take size ++
        (queue.drop (covered size stays queue k)).take
          (size - (queue.take (covered size stays queue k)).countP stays) := by
  rw [serveRounds_eq, take_append, countP_eq_length_filter]

theorem servedWithin_succ (x : α) : ServedWithin size stays (k + 1) queue x ↔
      ServedWithin size stays k queue x ∨ x ∈ (serveRounds size stays k queue).take size := by
  simp only [ServedWithin, Nat.lt_succ_iff_lt_or_eq, or_and_right, exists_or, exists_eq_left]

theorem servedWithin_iff (x : α) :
    ServedWithin size stays k queue x ↔ x ∈ queue.take (covered size stays queue k) := by
  induction k with
  | zero => simp [ServedWithin, covered]
  | succ k ih =>
    rw [servedWithin_succ, ih, take_rounds, covered, take_add, mem_append, mem_append]
    constructor
    · rintro (hold | ha | hn)
      · exact .inl hold
      · exact .inl (mem_of_mem_filter (mem_of_mem_take ha))
      · exact .inr hn
    · rintro (hold | hn)
      · exact .inl hold
      · exact .inr (.inr hn)

theorem all_served_iff {queue : List α} (hn : queue.Nodup) (k : Nat) :
    (∀ x ∈ queue, ServedWithin size stays k queue x) ↔
      queue.length ≤ covered size stays queue k := by
  simp only [servedWithin_iff]
  constructor
  · intro ha
    by_contra hlt
    have hlt : covered size stays queue k < queue.length := by omega
    have hm := ha _ (getElem_mem hlt)
    obtain ⟨i, hi, heq⟩ := mem_iff_getElem.1 hm
    rw [length_take] at hi
    rw [getElem_take] at heq
    have := (Nodup.getElem_inj_iff hn).1 heq
    omega
  · intro hle x hx; rwa [take_of_length_le hle]

theorem covered_of_none_stays {queue : List α} (h : ∀ x ∈ queue, stays x = false) (k : Nat) :
    covered size stays queue k = k * size := by
  induction k with
  | zero => simp [covered]
  | succ k ih =>
    have hz : (queue.take (covered size stays queue k)).countP stays = 0 :=
      countP_eq_zero.2 fun x hx => by simp [h x (mem_of_mem_take hx)]
    rw [covered, hz, ih, Nat.sub_zero, Nat.succ_mul]

theorem covered_of_all_stay {queue : List α} (h : ∀ x ∈ queue, stays x)
    (hs : size ≤ queue.length) (k : Nat) : covered size stays queue (k + 1) = size := by
  induction k with
  | zero => simp [covered]
  | succ k ih =>
    have ha : (queue.take size).countP stays = size := by
      rw [countP_eq_length.2 fun x hx => h x (mem_of_mem_take hx), length_take]; omega
    rw [covered, ih, ha, Nat.sub_self, Nat.add_zero]

end

section
variable {r : α → α → Prop} [DecidableRel r]

theorem orderedInsert_of_forall {a : α} {l : List α} (h : ∀ b ∈ l, r a b) :
    l.orderedInsert r a = a :: l := by
  cases l with
  | nil => rfl
  | cons b l => exact if_pos (h b mem_cons_self)

theorem filter_orderedInsert [IsTrans α r] (p : α → Bool) (a : α) {l : List α} (hl : l.Pairwise r) :
    (l.orderedInsert r a).filter p =
      if p a then (l.filter p).orderedInsert r a else l.filter p := by
  induction l with
  | nil => cases ha : p a <;> simp [ha]
  | cons b l ih =>
    obtain ⟨hb, hl⟩ := pairwise_cons.1 hl
    by_cases hab : r a b
    · have hf : ∀ c ∈ (b :: l).filter p, r a c := fun c hc => by
        rcases mem_cons.1 (mem_of_mem_filter hc) with rfl | hc
        · exact hab
        · exact IsTrans.trans _ _ _ hab (hb c hc)
      rw [orderedInsert_cons_of_le _ l hab, filter_cons, orderedInsert_of_forall hf]
    · rw [orderedInsert_of_not_le _ l hab, filter_cons, filter_cons, ih hl]
      cases hpb : p b <;> cases hpa : p a <;> simp [orderedInsert_of_not_le _ _ hab]

theorem filter_insertionSort [IsTrans α r] [Std.Total r] (p : α → Bool) (l : List α) :
    (l.insertionSort r).filter p = (l.filter p).insertionSort r := by
  induction l with
  | nil => rfl
  | cons a l ih =>
    rw [insertionSort_cons, filter_orderedInsert p a (pairwise_insertionSort r l), ih, filter_cons]
    cases p a <;> rfl

end

end Gateway.Lib
