import Mathlib.Data.List.Nodup

/-! # Keyed tables -/

namespace Gateway.Lib

open List

universe u v

structure KeyedTable {ρ : Type u} {κ : Type v} (key : ρ → κ) where
  rows : List ρ
  nodup : (rows.map key).Nodup

namespace KeyedTable

variable {ρ : Type u} {κ : Type v} {key : ρ → κ}

def empty : KeyedTable key := ⟨[], nodup_nil⟩

variable [DecidableEq κ]

def insertNew (t : KeyedTable key) (r : ρ) : KeyedTable key :=
  if h : key r ∈ t.rows.map key then t
  else
    { rows := t.rows ++ [r]
      nodup := by
        rw [map_append, map_singleton]
        exact nodup_append_comm.1 (nodup_cons.2 ⟨h, t.nodup⟩) }

def delete (t : KeyedTable key) (k : κ) : KeyedTable key where
  rows := t.rows.filter (key · ≠ k)
  nodup := t.nodup.sublist (filter_sublist.map key)

def update (t : KeyedTable key) (k : κ) (f : ρ → ρ) (hf : ∀ r, key (f r) = key r) :
    KeyedTable key where
  rows := t.rows.map fun r => if key r = k then f r else r
  nodup := by
    have hkeys : (t.rows.map fun r => if key r = k then f r else r).map key = t.rows.map key := by
      rw [map_map]
      refine map_congr_left fun r _ => ?_
      simp only [Function.comp_apply]
      split
      · exact hf r
      · rfl
    rw [hkeys]; exact t.nodup

theorem mem_insertNew {t : KeyedTable key} {r r' : ρ} :
    r' ∈ (t.insertNew r).rows ↔ r' ∈ t.rows ∨ (key r ∉ t.rows.map key ∧ r' = r) := by
  unfold insertNew
  split
  · next h => simp [h]
  · next h =>
    rw [mem_append, mem_singleton]
    exact or_congr_right ⟨fun hr => ⟨h, hr⟩, fun hr => hr.2⟩

theorem mem_delete {t : KeyedTable key} {k : κ} {r : ρ} :
    r ∈ (t.delete k).rows ↔ r ∈ t.rows ∧ key r ≠ k := by
  simp [delete]

theorem mem_update {t : KeyedTable key} {k : κ} {f : ρ → ρ} {hf : ∀ r, key (f r) = key r}
    {r' : ρ} : r' ∈ (t.update k f hf).rows ↔ ∃ r ∈ t.rows, (if key r = k then f r else r) = r' := by
  simp [update]

theorem mem_keys_insertNew {t : KeyedTable key} {r : ρ} {k : κ} :
    k ∈ (t.insertNew r).rows.map key ↔ k ∈ t.rows.map key ∨ key r = k := by
  unfold insertNew
  split
  · next h => exact ⟨.inl, fun hk => hk.elim id fun heq => heq ▸ h⟩
  · rw [map_append, mem_append, map_singleton, mem_singleton]; exact or_congr_right eq_comm

theorem keys_update (t : KeyedTable key) (k : κ) (f : ρ → ρ) (hf : ∀ r, key (f r) = key r) :
    (t.update k f hf).rows.map key = t.rows.map key := by
  rw [update, map_map]
  refine map_congr_left fun r _ => ?_
  rw [Function.comp_apply]
  split
  · exact hf r
  · rfl

end KeyedTable

end Gateway.Lib
