import Gateway.Lib.Bytes

/-! # Searching for delimiters -/

namespace Gateway.Lib

open List Option

variable {pat : Bytes}

theorem contains_iff_isInfix {b : Bytes} : contains b pat ↔ pat <:+: b := by
  unfold contains
  constructor
  · intro h
    obtain ⟨i, hi⟩ := isSome_iff_exists.1 h
    obtain ⟨-, hat, -⟩ := find_eq_some_iff.1 hi
    exact hat.isInfix.trans (drop_suffix i b).isInfix
  · rintro ⟨before, after, rfl⟩
    cases hf : find pat (before ++ pat ++ after) with
    | some i => rfl
    | none =>
      refine absurd ?_ (find_eq_none_iff.1 hf before.length (by simp))
      rw [append_assoc, drop_left]; exact prefix_append pat after

theorem lower_append (a b : Bytes) : lower (a ++ b) = lower a ++ lower b := map_append

theorem find_self (pat b : Bytes) : find pat (pat ++ b) = some 0 := by
  refine find_eq_some_iff.2 ⟨Nat.zero_le _, prefix_append pat b, ?_⟩
  intro j hj
  exact absurd hj (Nat.not_lt_zero j)

theorem findFrom_append (pat a b : Bytes) :
    findFrom pat a.length (a ++ b) = (find pat b).map (a.length + ·) := by
  unfold findFrom
  rw [if_pos (by simp), drop_left]

theorem drop_take_append (a b c : Bytes) :
    ((a ++ b ++ c).take (a ++ b).length).drop a.length = b := by
  rw [take_left, drop_left]

def Borderless (pat : Bytes) : Prop := ∀ t ∈ pat.inits, t ≠ [] → t <:+ pat → t = pat

instance (pat : Bytes) : Decidable (Borderless pat) := decidableBAll _ _

theorem borderless_cons {c : UInt8} (h : c ∉ pat) : Borderless (c :: pat) := by
  intro t hi hne hs
  obtain ⟨rest, hr⟩ := (mem_inits _ _).1 hi
  cases t with
  | nil => exact absurd rfl hne
  | cons d t =>
    obtain rfl : d = c := (List.cons.inj hr).1
    rcases suffix_cons_iff.1 hs with heq | hin
    · exact heq
    · exact absurd (hin.subset mem_cons_self) h

theorem find_append_delimiter {a : Bytes} (hp : Borderless pat) (ha : contains a pat = false)
    (b : Bytes) : find pat (a ++ pat ++ b) = some a.length := by
  refine find_eq_some_iff.2 ⟨by simp, ?_, ?_⟩
  · rw [append_assoc, drop_left]; exact prefix_append pat b
  · intro j hj hat
    rw [append_assoc, drop_append_of_le_length (Nat.le_of_lt hj)] at hat
    have hi : ¬ pat <+: a.drop j := by
      intro hi
      have hin : contains a pat :=
        contains_iff_isInfix.2 (hi.isInfix.trans (drop_suffix j a).isInfix)
      rw [ha] at hin; cases hin
    rcases prefix_or_prefix_of_prefix hat (prefix_append _ _) with h | ⟨t, hs⟩
    · exact hi h
    · have hsh : t.length < pat.length := by rw [← hs, length_append, length_drop]; omega
      have hini : t <+: pat := by
        have ho : a.drop j ++ t <+: a.drop j ++ (pat ++ b) := by rwa [hs]
        exact prefix_of_prefix_length_le ((prefix_append_right_inj _).1 ho)
          (prefix_append pat b) (Nat.le_of_lt hsh)
      by_cases he : t = []
      · subst he; rw [append_nil] at hs; exact hi (hs ▸ prefix_rfl)
      · have hw := hp t ((mem_inits _ _).2 hini) he ⟨_, hs⟩
        rw [hw] at hsh; exact absurd hsh (Nat.lt_irrefl _)

structure IsLine (line : Bytes) : Prop where
  ne_nil : line ≠ []
  no_cr : 13 ∉ line
  no_lf : 10 ∉ line

instance (line : Bytes) : Decidable (IsLine line) :=
  decidable_of_iff (line ≠ [] ∧ 13 ∉ line ∧ 10 ∉ line)
    ⟨fun ⟨hne, hcr, hlf⟩ => ⟨hne, hcr, hlf⟩, fun h => ⟨h.ne_nil, h.no_cr, h.no_lf⟩⟩

def block (ls : List Bytes) : Bytes := [13, 10].intercalate ls

theorem block_cons (l k : Bytes) (ls : List Bytes) :
    block (l :: k :: ls) = l ++ [13, 10] ++ block (k :: ls) :=
  intercalate_cons_cons

variable {ls : List Bytes}

theorem infix_block {line : Bytes} (h : line ∈ ls) : line <:+: block ls := by
  induction ls with
  | nil => cases h
  | cons l ls ih =>
    cases ls with
    | nil => obtain rfl := mem_singleton.1 h; rw [block, intercalate_singleton]
    | cons k ls =>
      rw [block_cons]
      rcases mem_cons.1 h with rfl | h
      · rw [append_assoc]; exact (prefix_append _ _).isInfix
      · exact (ih h).trans (suffix_append _ _).isInfix

theorem find_blank_line {l : Bytes} (h : ∀ k ∈ l :: ls, IsLine k) (b : Bytes) :
    find [13, 10, 13, 10] (block (l :: ls) ++ [13, 10, 13, 10] ++ b) =
      some (block (l :: ls)).length := by
  induction ls generalizing l with
  | nil =>
    have hblock : block [l] = l := intercalate_singleton
    have hl := h l mem_cons_self
    rw [hblock, append_assoc, find_append_of_not_mem hl.no_cr]
    simp [find]
  | cons k ls ih =>
    have hl := h l mem_cons_self
    have hk := h k (mem_cons_of_mem l mem_cons_self)
    have hr := ih fun j hj => h j (mem_cons_of_mem l hj)
    have hh : ∃ c rest, block (k :: ls) = c :: rest ∧ c ≠ 13 := by
      obtain ⟨c, k', rfl⟩ := exists_cons_of_ne_nil hk.ne_nil
      have hc : c ≠ 13 := fun heq => hk.no_cr (heq ▸ mem_cons_self)
      cases ls with
      | nil => exact ⟨c, k', intercalate_singleton, hc⟩
      | cons j ls => exact ⟨c, _, block_cons (c :: k') j ls, hc⟩
    obtain ⟨c, rest, hblock, hc⟩ := hh
    have hs : find [13, 10, 13, 10] ([13, 10] ++ (block (k :: ls) ++ [13, 10, 13, 10] ++ b)) =
        (find [13, 10, 13, 10] (block (k :: ls) ++ [13, 10, 13, 10] ++ b)).map (· + 2) := by
      rw [hblock]
      simp only [cons_append, nil_append]
      rw [find, if_neg (by simp [isPrefixOf, hc.symm]), find,
        if_neg (by simp [isPrefixOf]), Option.map_map]
      rfl
    rw [block_cons, append_assoc, append_assoc, append_assoc,
      find_append_of_not_mem hl.no_cr, ← append_assoc (block _), hs, hr]
    simp only [map_some, length_append, length_cons, length_nil]
    congr 1
    omega

end Gateway.Lib
