import Mathlib.Data.List.Basic

/-! # Properties of traces -/

namespace Gateway.Lib

open List

universe u v

variable {α : Type u}

def EachAfter (ok : List α → α → Prop) (trace : List α) : Prop :=
  ∀ earlier a later, trace = earlier ++ a :: later → ok earlier a

variable {ok ok' : List α → α → Prop}

theorem eachAfter_nil : EachAfter ok [] := by
  intro earlier a later h
  cases earlier <;> cases h

theorem EachAfter.mono {trace : List α} (h : EachAfter ok trace)
    (hok : ∀ earlier a, ok earlier a → ok' earlier a) : EachAfter ok' trace := by
  intro earlier a later heq
  exact hok earlier a (h earlier a later heq)

theorem eachAfter_append {trace more : List α} : EachAfter ok (trace ++ more) ↔
    EachAfter ok trace ∧ EachAfter (fun earlier a => ok (trace ++ earlier) a) more := by
  constructor
  · intro h
    refine ⟨fun earlier a later heq => ?_, fun earlier a later heq => ?_⟩
    · refine h earlier a (later ++ more) ?_
      rw [heq, append_assoc, cons_append]
    · refine h (trace ++ earlier) a later ?_
      rw [heq, append_assoc]
  · rintro ⟨ht, hmore⟩ earlier a later heq
    rcases append_eq_append_iff.1 heq with ⟨mid, rfl, hm⟩ | ⟨mid, hm, hr⟩
    · exact hmore mid a later hm
    · cases mid with
      | nil =>
        rw [append_nil] at hm
        rw [nil_append] at hr
        have hf : ok (trace ++ []) a := hmore [] a later hr.symm
        rwa [append_nil, hm] at hf
      | cons b mid =>
        rw [cons_append, cons.injEq] at hr
        obtain ⟨rfl, -⟩ := hr
        exact ht earlier a mid hm

theorem eachAfter_snoc {trace : List α} {a : α} :
    EachAfter ok (trace ++ [a]) ↔ EachAfter ok trace ∧ ok trace a := by
  rw [eachAfter_append]
  refine and_congr_right fun _ => ⟨fun h => ?_, fun h => ?_⟩
  · have hl : ok (trace ++ []) a := h [] a [] rfl
    rwa [append_nil] at hl
  · intro earlier b later heq
    cases earlier with
    | nil => rw [nil_append, cons.injEq] at heq; obtain ⟨rfl, -⟩ := heq; rwa [append_nil]
    | cons c earlier =>
      rw [cons_append, cons.injEq] at heq
      cases earlier <;> cases heq.2

def GrowsBy (kind : α → Prop) (trace trace' : List α) : Prop :=
  ∃ more, trace' = trace ++ more ∧ ∀ a ∈ more, kind a

namespace GrowsBy

variable {kind : α → Prop} {trace trace₁ trace₂ more : List α} {a : α}

theorem refl (trace : List α) : GrowsBy kind trace trace :=
  ⟨[], (append_nil trace).symm, forall_mem_nil kind⟩

theorem append (h : GrowsBy kind trace trace₁) (hmore : ∀ a ∈ more, kind a) :
    GrowsBy kind trace (trace₁ ++ more) := by
  obtain ⟨before, rfl, hbefore⟩ := h
  refine ⟨before ++ more, append_assoc _ _ _, fun a ha => ?_⟩
  exact (mem_append.1 ha).elim (hbefore a) (hmore a)

theorem snoc (h : GrowsBy kind trace trace₁) (ha : kind a) : GrowsBy kind trace (trace₁ ++ [a]) :=
  h.append (forall_mem_singleton.2 ha)

theorem trans (h₁ : GrowsBy kind trace trace₁) (h₂ : GrowsBy kind trace₁ trace₂) :
    GrowsBy kind trace trace₂ := by
  obtain ⟨more, rfl, hmore⟩ := h₂
  exact h₁.append hmore

end GrowsBy

structure Segment (β : Type v) (α : Type u) where
  opening : β
  body : List α

variable {β : Type v}

def Segment.add (s : Segment β α) (a : α) : Segment β α := { s with body := s.body ++ [a] }

def addTo (opens : α → Option β) (segs : List (Segment β α)) (a : α) : List (Segment β α) :=
  match opens a, segs with
  | some b, segs => ⟨b, []⟩ :: segs
  | none, [] => []
  | none, s :: segs => s.add a :: segs

def segments (opens : α → Option β) (trace : List α) : List (Segment β α) :=
  trace.foldl (addTo opens) []

variable {opens : α → Option β} {trace : List α} {a : α}

theorem segments_snoc : segments opens (trace ++ [a]) = addTo opens (segments opens trace) a := by
  simp only [segments, foldl_append, foldl_cons, foldl_nil]

theorem segments_open {b : β} (h : opens a = some b) :
    segments opens (trace ++ [a]) = ⟨b, []⟩ :: segments opens trace := by
  simp only [segments_snoc, addTo, h]

theorem segments_nil (h : opens a = none) (hs : segments opens trace = []) :
    segments opens (trace ++ [a]) = [] := by
  simp only [segments_snoc, hs, addTo, h]

theorem segments_cons (h : opens a = none) {s : Segment β α} {segs : List (Segment β α)}
    (hs : segments opens trace = s :: segs) : segments opens (trace ++ [a]) = s.add a :: segs := by
  simp only [segments_snoc, hs, addTo, h]

def addAll (more : List α) : List (Segment β α) → List (Segment β α)
  | [] => []
  | s :: segs => { s with body := s.body ++ more } :: segs

@[simp] theorem addAll_nil (more : List α) : addAll more ([] : List (Segment β α)) = [] := rfl

@[simp] theorem addAll_cons (more : List α) (s : Segment β α) (segs : List (Segment β α)) :
    addAll more (s :: segs) = { s with body := s.body ++ more } :: segs := rfl

theorem segments_append {more : List α} (h : ∀ a ∈ more, opens a = none) :
    segments opens (trace ++ more) = addAll more (segments opens trace) := by
  induction more generalizing trace with
  | nil =>
    rw [append_nil]
    cases segments opens trace with
    | nil => rfl
    | cons s segs => rw [addAll_cons, append_nil]
  | cons a more ih =>
    have ha := h a mem_cons_self
    rw [append_cons, ih fun b hb => h b (mem_cons_of_mem a hb)]
    cases hs : segments opens trace with
    | nil => rw [segments_nil ha hs, addAll_nil, addAll_nil]
    | cons s segs => rw [segments_cons ha hs, addAll_cons, addAll_cons, append_cons]; rfl

theorem segments_append_ne_nil {more : List α} (h : segments opens trace ≠ []) :
    segments opens (trace ++ more) ≠ [] := by
  induction more generalizing trace with
  | nil => rw [append_nil]; exact h
  | cons a more ih =>
    rw [append_cons]
    apply ih
    obtain ⟨s, segs, hs⟩ := exists_cons_of_ne_nil h
    cases ha : opens a with
    | none => simp [segments_cons ha hs]
    | some b => simp [segments_open ha]

theorem tail_segments_append {more : List α} (h : ∀ a ∈ more, opens a = none) :
    (segments opens (trace ++ more)).tail = (segments opens trace).tail := by
  rw [segments_append h]
  cases segments opens trace <;> rfl

end Gateway.Lib
