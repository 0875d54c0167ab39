import Gateway.Lib.Bytes

/-! # Paths and path templates -/

namespace Gateway.Lib

open List Option

section
variable {α : Type*} {sep : α}

def joined (sep : α) (segments : List (List α)) : List α := segments.flatMap (sep :: ·)

@[simp] theorem joined_nil : joined sep [] = [] := rfl

@[simp] theorem joined_cons (s : List α) (segments : List (List α)) :
    joined sep (s :: segments) = sep :: (s ++ joined sep segments) := rfl

@[simp] theorem joined_append (a b : List (List α)) :
    joined sep (a ++ b) = joined sep a ++ joined sep b :=
  flatMap_append

theorem joined_eq_intercalate {segments : List (List α)} (h : segments ≠ []) :
    joined sep segments = sep :: [sep].intercalate segments := by
  induction segments with
  | nil => exact absurd rfl h
  | cons s rest ih =>
    cases rest with
    | nil => simp
    | cons s' rest => rw [joined_cons, ih (by simp), intercalate_cons_cons]; simp

theorem splitOn_joined [BEq α] [LawfulBEq α] {segments : List (List α)} (hne : segments ≠ [])
    (h : ∀ s ∈ segments, sep ∉ s) :
    ∃ rest, joined sep segments = sep :: rest ∧ rest.splitOn sep = segments :=
  ⟨_, joined_eq_intercalate hne, splitOn_intercalate sep h hne⟩

theorem joined_inj [BEq α] [LawfulBEq α] {a b : List (List α)} (ha : ∀ s ∈ a, sep ∉ s)
    (hb : ∀ s ∈ b, sep ∉ s) (h : joined sep a = joined sep b) : a = b := by
  cases a with
  | nil =>
    cases b with
    | nil => rfl
    | cons s b => simp at h
  | cons s a =>
    cases b with
    | nil => simp at h
    | cons s' b =>
      obtain ⟨x, hx, hs⟩ := splitOn_joined (cons_ne_nil s a) ha
      obtain ⟨y, hy, hs'⟩ := splitOn_joined (cons_ne_nil s' b) hb
      rw [hx, hy] at h
      rw [← hs, ← hs', (List.cons.inj h).2]

end

inductive Piece (α : Type*) where
  | word (text : List α)
  | hole (rest : List α)
  deriving DecidableEq

abbrev Template (α : Type*) := List (Piece α)

namespace Template
variable {α : Type*} {sep : α}

variable {values segs : List (List α)} {t : Template α}

def segments : Template α → List (List α) → Option (List (List α))
  | [], [] => some []
  | .word text :: t, values => (segments t values).map (text :: ·)
  | .hole rest :: t, value :: values => (segments t values).map ((value ++ rest) :: ·)
  | _, _ => none

def fill (sep : α) (t : Template α) (values : List (List α)) : Option (List α) :=
  (t.segments values).map (joined sep)

@[simp] theorem fill_nil : fill sep [] [] = some [] := rfl

@[simp] theorem fill_word (text : List α) (t : Template α) (values : List (List α)) :
    fill sep (.word text :: t) values = (fill sep t values).map (sep :: text ++ ·) := by
  rw [fill, segments, Option.map_map, fill, Option.map_map]
  rfl

@[simp] theorem fill_hole (rest value : List α) (t : Template α) (values : List (List α)) :
    fill sep (.hole rest :: t) (value :: values) =
      (fill sep t values).map (sep :: value ++ rest ++ ·) := by
  rw [fill, segments, Option.map_map, fill, Option.map_map]
  rfl

theorem segments_ne_nil (hne : t ≠ []) (h : t.segments values = some segs) : segs ≠ [] := by
  rintro rfl
  cases t with
  | nil => exact hne rfl
  | cons p t =>
    cases p with
    | word text => simp [segments] at h
    | hole rest => cases values <;> simp [segments] at h

theorem mem_segments (h : t.segments values = some segs) {s : List α} (hs : s ∈ segs) :
    .word s ∈ t ∨ ∃ value ∈ values, ∃ rest, .hole rest ∈ t ∧ s = value ++ rest := by
  induction t generalizing values segs with
  | nil =>
    cases values with
    | nil => cases h; cases hs
    | cons v values => cases h
  | cons p t ih =>
    cases p with
    | word text =>
      obtain ⟨segs, hse, rfl⟩ := map_eq_some_iff.1 h
      rcases mem_cons.1 hs with rfl | hs
      · exact .inl mem_cons_self
      · rcases ih hse hs with hw | ⟨v, hv, rest, hr, rfl⟩
        · exact .inl (mem_cons_of_mem _ hw)
        · exact .inr ⟨v, hv, rest, mem_cons_of_mem _ hr, rfl⟩
    | hole rest =>
      cases values with
      | nil => cases h
      | cons v values =>
        obtain ⟨segs, hse, rfl⟩ := map_eq_some_iff.1 h
        rcases mem_cons.1 hs with rfl | hs
        · exact .inr ⟨v, mem_cons_self, rest, mem_cons_self, rfl⟩
        · rcases ih hse hs with hw | ⟨v', hv, rest', hr, rfl⟩
          · exact .inl (mem_cons_of_mem _ hw)
          · exact .inr ⟨v', mem_cons_of_mem _ hv, rest', mem_cons_of_mem _ hr, rfl⟩

end Template

variable {words segments : List Bytes}

section
variable {sep : UInt8}

def after (words : List Bytes) : List Bytes → Option (List Bytes)
  | [] => none
  | s :: segments =>
    if words.isPrefixOf (s :: segments) && words.length < (s :: segments).length then
      some ((s :: segments).drop words.length)
    else after words segments

theorem append_sep_starts {a b x y : Bytes} (ha : sep ∉ a) (hb : sep ∉ b) :
    a ++ sep :: x <+: b ++ sep :: y ↔ a = b ∧ x <+: y := by
  induction a generalizing b with
  | nil =>
    cases b with
    | nil => simp [cons_prefix_cons]
    | cons c b =>
      have hne : sep ≠ c := fun h => hb (h ▸ mem_cons_self)
      simp [cons_prefix_cons, hne]
  | cons c a ih =>
    cases b with
    | nil =>
      have hne : c ≠ sep := fun h => ha (h ▸ mem_cons_self)
      simp [cons_prefix_cons, hne]
    | cons d b =>
      have ha' : sep ∉ a := fun h => ha (mem_cons_of_mem c h)
      have hb' : sep ∉ b := fun h => hb (mem_cons_of_mem d h)
      simp [cons_prefix_cons, ih ha' hb', and_assoc]

theorem not_starts_of_append_sep {a b x : Bytes} (hb : sep ∉ b) : ¬ a ++ sep :: x <+: b := fun h =>
  hb (h.subset (mem_append_right a mem_cons_self))

theorem marker_starts (hwo : ∀ w ∈ words, sep ∉ w) (hse : ∀ s ∈ segments, sep ∉ s) :
    joined sep words ++ [sep] <+: joined sep segments ↔
      words <+: segments ∧ words.length < segments.length := by
  induction words generalizing segments with
  | nil => cases segments <;> simp [cons_prefix_cons]
  | cons w words ih =>
    have hw : sep ∉ w := hwo w mem_cons_self
    have hw' : ∀ w ∈ words, sep ∉ w := fun w h => hwo w (mem_cons_of_mem _ h)
    cases segments with
    | nil => simp
    | cons s segments =>
      have hs : sep ∉ s := hse s mem_cons_self
      have hs' : ∀ s ∈ segments, sep ∉ s := fun s h => hse s (mem_cons_of_mem _ h)
      have ih := ih hw' hs'
      rw [joined_cons, joined_cons, cons_append, cons_prefix_cons, append_assoc, cons_prefix_cons]
      simp only [true_and, length_cons, Nat.add_lt_add_iff_right]
      obtain ⟨x, hx⟩ : ∃ x, joined sep words ++ [sep] = sep :: x := by cases words <;> simp
      cases segments with
      | nil => rw [hx, joined_nil, append_nil]; simpa using not_starts_of_append_sep hs
      | cons s' segments =>
        rw [hx, joined_cons] at ih ⊢
        rw [append_sep_starts hw hs, and_assoc, ← ih, cons_prefix_cons]; simp

theorem takeWhile_joined {s : Bytes} (hs : sep ∉ s) (segments : List Bytes) :
    (s ++ joined sep segments).takeWhile (· ≠ sep) = s := by
  have ha : ∀ c ∈ s, decide (c ≠ sep) := fun c hc => by simpa using ne_of_mem_of_not_mem hc hs
  rw [takeWhile_append_of_pos ha]
  cases segments <;> simp

theorem read_joined (hw : ∀ w ∈ words, sep ∉ w) (hse : ∀ s ∈ segments, sep ∉ s) :
    (find (joined sep words ++ [sep]) (joined sep segments)).map (fun position =>
        ((joined sep segments).drop (position + (joined sep words ++ [sep]).length)).takeWhile
          (· ≠ sep)) = (after words segments).bind head? := by
  obtain ⟨x, hx⟩ : ∃ x, joined sep words ++ [sep] = sep :: x := by cases words <;> simp
  induction segments with
  | nil => rw [hx]; rfl
  | cons s segments ih =>
    have hs : sep ∉ s := hse s mem_cons_self
    have ih := ih fun s h => hse s (mem_cons_of_mem _ h)
    have hat := marker_starts hw hse
    by_cases hst : joined sep words ++ [sep] <+: joined sep (s :: segments)
    · obtain ⟨⟨tail, hta⟩, hlt⟩ := hat.1 hst
      have hf : find (joined sep words ++ [sep]) (joined sep (s :: segments)) = some 0 :=
        find_eq_some_iff.2 ⟨Nat.zero_le _, hst, fun j hj => absurd hj (Nat.not_lt_zero j)⟩
      have ha : after words (s :: segments) = some tail := by
        have hp : words.isPrefixOf (s :: segments) := isPrefixOf_iff_prefix.2 ⟨tail, hta⟩
        rw [after, hp, decide_eq_true hlt, Bool.true_and, if_pos rfl, ← hta, drop_left]
      rw [hf, ha, ← hta]
      cases tail with
      | nil => rw [← hta] at hlt; simp at hlt
      | cons t post =>
        have ht : sep ∉ t := hse t (hta ▸ by simp)
        have hd : (joined sep (words ++ t :: post)).drop (joined sep words ++ [sep]).length =
            t ++ joined sep post := by
          rw [joined_append, joined_cons, append_cons (joined sep words) sep (t ++ _), drop_left]
        rw [map_some, Nat.zero_add, hd, takeWhile_joined ht]; rfl
    · have hf : find (joined sep words ++ [sep]) (joined sep (s :: segments)) =
          (find (joined sep words ++ [sep]) (joined sep segments)).map (· + s.length + 1) := by
        have hn : ¬ (sep :: x).isPrefixOf (sep :: (s ++ joined sep segments)) := fun h =>
          hst (hx ▸ isPrefixOf_iff_prefix.1 h)
        rw [hx, joined_cons, find, if_neg hn, find_append_of_not_mem hs, Option.map_map]
        rfl
      have ha : after words (s :: segments) = after words segments := by
        have hn : ¬ (words.isPrefixOf (s :: segments) &&
            decide (words.length < (s :: segments).length)) := fun h => by
          rw [Bool.and_eq_true, decide_eq_true_eq, isPrefixOf_iff_prefix] at h
          exact hst (hat.2 h)
        rw [after, if_neg hn]
      rw [hf, ha, ← ih, Option.map_map]
      congr 1
      funext position
      rw [Function.comp_apply, joined_cons,
        show position + s.length + 1 + (joined sep words ++ [sep]).length =
          (s.length + (position + (joined sep words ++ [sep]).length)) + 1 by omega,
        drop_succ_cons, ← drop_drop, drop_left]

end

end Gateway.Lib
