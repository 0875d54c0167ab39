import Gateway.Auth.Invalidation
import Gateway.Lib.Trace

/-! # Runs of the speculative cache -/

namespace Gateway.Auth

open Lib
open List hiding after

inductive CacheOp where
  | insert (keyHash : Bytes) (snapshot : AuthSnapshot)
  | evict (keyHash : Bytes)
  | evictAll
  | lookup (keyHash : Bytes)
  deriving DecidableEq

namespace SpeculativeCache

variable (cache : SpeculativeCache)

def size : Nat := cache.entries.keys.length

def apply : CacheOp → SpeculativeCache
  | .insert keyHash snapshot => cache.insert keyHash snapshot
  | .evict keyHash => cache.evict keyHash
  | .evictAll => cache.evictAll
  | .lookup _ => cache

def after (capacity : Nat) (ops : List CacheOp) : SpeculativeCache :=
  ops.foldl apply (create capacity)

def Keeps (key : Bytes) : CacheOp → Prop
  | .insert keyHash _ => keyHash ≠ key ∧ cache.size < cache.maxEntries
  | .evict keyHash => keyHash ≠ key
  | .evictAll => False
  | .lookup _ => True

variable {key : Bytes} {snapshot : AuthSnapshot} {capacity : Nat}

theorem maxEntries_after (capacity : Nat) (ops : List CacheOp) :
    (after capacity ops).maxEntries = capacity := by
  have h : ∀ (cache : SpeculativeCache) (op : CacheOp),
      (cache.apply op).maxEntries = cache.maxEntries := by
    intro cache op
    cases op with
    | insert keyHash snapshot =>
      change (cache.insert keyHash snapshot).maxEntries = _
      unfold insert
      split <;> rfl
    | _ => rfl
  unfold after
  induction ops using reverseRecOn with
  | nil => rfl
  | append_singleton ops op ih => rw [foldl_concat, h, ih]

theorem lookup_apply (cache : SpeculativeCache) (op : CacheOp) :
    (cache.apply op).lookup key = some snapshot ↔
      op = .insert key snapshot ∨ cache.Keeps key op ∧ cache.lookup key = some snapshot := by
  cases op with
  | insert keyHash inserted =>
    by_cases hk : key = keyHash
    · subst hk; simp [apply, Keeps]
    · simp only [apply, lookup_insert_other hk, Keeps, CacheOp.insert.injEq, Ne.symm hk, false_and,
        false_or, ne_eq, not_false_eq_true, true_and, size, ← Nat.not_le]
      split <;> simp [*]
  | evict keyHash =>
    simp only [apply, lookup_evict_eq, Keeps, reduceCtorEq, false_or, ne_comm (a := keyHash)]
    split <;> simp [*]
  | evictAll => simp [apply, Keeps]
  | lookup keyHash => simp [apply, Keeps]

def Remembered (capacity : Nat) (ops : List CacheOp) (key : Bytes) (snapshot : AuthSnapshot) :
    Prop :=
  ∃ earlier later, ops = earlier ++ .insert key snapshot :: later ∧
    EachAfter (fun between op =>
      (after capacity (earlier ++ .insert key snapshot :: between)).Keeps key op) later

theorem lookup_after (ops : List CacheOp) :
    (after capacity ops).lookup key = some snapshot ↔ Remembered capacity ops key snapshot := by
  induction ops using reverseRecOn with
  | nil => simp [after, Remembered]
  | append_singleton ops op ih =>
    have hs : after capacity (ops ++ [op]) = (after capacity ops).apply op := foldl_concat ..
    rw [hs, lookup_apply, ih]
    constructor
    · rintro (rfl | ⟨hk, earlier, later, rfl, hl⟩)
      · exact ⟨ops, [], rfl, eachAfter_nil⟩
      · exact ⟨earlier, later ++ [op], by simp, eachAfter_snoc.2 ⟨hl, hk⟩⟩
    · rintro ⟨earlier, later, he, hl⟩
      rcases eq_nil_or_concat later with rfl | ⟨later, last, rfl⟩
      · exact .inl (by simpa using (append_inj' he rfl).2)
      · rw [concat_eq_append] at he hl
        rw [← cons_append, ← append_assoc] at he
        obtain ⟨rfl, h⟩ := append_inj' he rfl
        obtain rfl : op = last := by simpa using h
        exact .inr ⟨(eachAfter_snoc.1 hl).2, earlier, later, rfl, (eachAfter_snoc.1 hl).1⟩

structure Law (capacity : Nat) (ops : List CacheOp) (key : Bytes) (snapshot : AuthSnapshot) :
    Prop where
  bounded : (after capacity ops).size ≤ max 1 capacity
  found : ∀ key snapshot, (after capacity ops).lookup key = some snapshot ↔
    Remembered capacity ops key snapshot
  refreshed : (after capacity ops).lookup key ≠ none → ∀ other ≠ key,
    ((after capacity ops).insert key snapshot).lookup other = (after capacity ops).lookup other

theorem cache_law_iff (capacity : Nat) (ops : List CacheOp) (key : Bytes)
    (snapshot : AuthSnapshot) : Law capacity ops key snapshot ↔
      (after capacity ops).lookup key = none ∨ (after capacity ops).size < capacity ∨
        ∀ other ≠ key, (after capacity ops).lookup other = none := by
  have hm := maxEntries_after capacity ops
  have hb := (after capacity ops).size_le
  rw [hm] at hb
  constructor
  · intro h
    by_cases hn : (after capacity ops).lookup key = none
    · exact .inl hn
    by_cases hs : (after capacity ops).size < capacity
    · exact .inr (.inl hs)
    refine .inr (.inr fun other ho => ?_)
    have hr := h.refreshed hn other ho
    rw [lookup_insert_other ho, if_pos (hm.symm ▸ Nat.not_lt.1 hs)] at hr; exact hr.symm
  · intro h
    refine ⟨hb, fun _ _ => lookup_after ops, fun hn other ho => ?_⟩
    rw [lookup_insert_other ho]
    rcases h with h | h | h
    · exact absurd h hn
    · rw [if_neg (by rw [hm]; exact Nat.not_le.2 h)]
    · rw [h other ho, ite_self]

theorem refresh_loses_other :
    ¬ Law 2 [.insert "a" {}, .insert "b" { userId := 1 }] "a" { version := 2 } := by
  intro h
  have hb := h.refreshed (by decide) "b" (by decide)
  exact absurd hb (by decide)

end SpeculativeCache

end Gateway.Auth
