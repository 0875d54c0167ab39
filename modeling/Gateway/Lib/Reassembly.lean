import Mathlib.Algebra.Ring.Nat
import Mathlib.Data.List.Basic

/-! # Reassembly -/

namespace Gateway.Lib

open List

universe u v w

structure Fragment (κ : Type u) (ν : Type v) (β : Type w) where
  key : κ
  opens : Option ν
  body : List β

structure Item (κ : Type u) (ν : Type v) (β : Type w) where
  key : κ
  name : ν
  body : List β

namespace Fragment

variable {κ : Type u} {ν : Type v} {β : Type w}

variable {fs : List (Fragment κ ν β)} {is js : List (Item κ ν β)} {f : Fragment κ ν β}

def contents (is : List (Item κ ν β)) : List (ν × List β) := is.map fun i => (i.name, i.body)

def total (is : List (Item κ ν β)) : Nat := (is.map (·.body.length)).sum

@[simp] theorem total_nil : total ([] : List (Item κ ν β)) = 0 := rfl

@[simp] theorem total_cons (i : Item κ ν β) (is : List (Item κ ν β)) :
    total (i :: is) = i.body.length + total is := by
  simp [total]

theorem total_eq_of_contents (h : contents is = contents js) : total is = total js := by
  have hbo := congrArg (map fun c => c.2.length) h
  rw [contents, contents, map_map, map_map] at hbo
  exact congrArg sum hbo

variable [DecidableEq κ]

def extend (key : κ) (body : List β) : List (Item κ ν β) → List (Item κ ν β)
  | [] => []
  | i :: is =>
    if i.key = key then { i with body := i.body ++ body } :: is else i :: extend key body is

def add (is : List (Item κ ν β)) (f : Fragment κ ν β) : List (Item κ ν β) :=
  match f.opens with
  | some name => ⟨f.key, name, f.body⟩ :: is
  | none => extend f.key f.body is

def assemble (is : List (Item κ ν β)) (fs : List (Fragment κ ν β)) : List (Item κ ν β) :=
  fs.foldl add is

def items (fs : List (Fragment κ ν β)) : List (ν × List β) := (contents (assemble [] fs)).reverse

theorem add_of_opens {name : ν} (h : f.opens = some name)
    (is : List (Item κ ν β)) : add is f = ⟨f.key, name, f.body⟩ :: is := by
  rw [add, h]

theorem add_of_not_opens (h : f.opens = none) (is : List (Item κ ν β)) :
    add is f = extend f.key f.body is := by
  rw [add, h]

theorem map_name_extend (key : κ) (body : List β) (is : List (Item κ ν β)) :
    (extend key body is).map (·.name) = is.map (·.name) := by
  induction is with
  | nil => rfl
  | cons i is ih =>
    rw [extend]
    split
    · rfl
    · rw [map_cons, map_cons, ih]

theorem map_key_extend (key : κ) (body : List β) (is : List (Item κ ν β)) :
    (extend key body is).map (·.key) = is.map (·.key) := by
  induction is with
  | nil => rfl
  | cons i is ih =>
    rw [extend]
    split
    · rfl
    · rw [map_cons, map_cons, ih]

theorem map_name_assemble (fs : List (Fragment κ ν β)) (is : List (Item κ ν β)) :
    (assemble is fs).map (·.name) = (fs.filterMap opens).reverse ++ is.map (·.name) := by
  induction fs generalizing is with
  | nil => rfl
  | cons f fs ih =>
    rw [assemble, foldl_cons, ← assemble, ih]
    cases h : f.opens with
    | none => rw [add_of_not_opens h, map_name_extend, filterMap_cons_none h]
    | some name => rw [add_of_opens h, filterMap_cons_some h]; simp

theorem map_fst_items (fs : List (Fragment κ ν β)) :
    (items fs).map Prod.fst = fs.filterMap opens := by
  have hn := map_name_assemble fs []
  rw [map_nil, append_nil] at hn
  rw [items, contents, map_reverse, map_map]
  exact (congrArg reverse hn).trans (reverse_reverse _)

theorem items_eq_nil_iff : items fs = [] ↔ ∀ f ∈ fs, f.opens = none := by
  rw [← map_eq_nil_iff (f := Prod.fst), map_fst_items, filterMap_eq_nil_iff]

theorem opens_of_length_le (h : fs.length ≤ (items fs).length) : ∀ f ∈ fs, f.opens.isSome := by
  have hl : (items fs).length = (fs.filterMap opens).length := by rw [← map_fst_items, length_map]
  rw [hl] at h
  clear hl
  induction fs with
  | nil => simp
  | cons f fs ih =>
    rw [forall_mem_cons]
    have hr := length_filterMap_le (opens : Fragment κ ν β → Option ν) fs
    cases ho : f.opens with
    | none => rw [filterMap_cons_none ho, length_cons] at h; omega
    | some name =>
      rw [filterMap_cons_some ho, length_cons, length_cons] at h
      exact ⟨rfl, ih (by omega)⟩

theorem items_of_opens {name : Fragment κ ν β → ν}
    (h : ∀ f ∈ fs, f.opens = some (name f)) : items fs = fs.map fun f => (name f, f.body) := by
  have ha : ∀ is : List (Item κ ν β), contents (assemble is fs) =
      (fs.map fun f => (name f, f.body)).reverse ++ contents is := by
    induction fs with
    | nil => exact fun is => rfl
    | cons f fs ih =>
      intro is
      rw [forall_mem_cons] at h
      rw [assemble, foldl_cons, ← assemble, ih h.2, add_of_opens h.1]
      simp [contents]
  rw [items, ha]
  simp [contents]

theorem total_extend (key : κ) (body : List β) (is : List (Item κ ν β)) :
    total (extend key body is) = total is + if key ∈ is.map (·.key) then body.length else 0 := by
  induction is with
  | nil => simp [extend]
  | cons i is ih =>
    rw [extend]
    by_cases hk : i.key = key
    · rw [if_pos hk, if_pos (by simp [hk])]; simp only [total_cons, length_append]; omega
    · have hm : key ∈ (i :: is).map (·.key) ↔ key ∈ is.map (·.key) := by simp [Ne.symm hk]
      rw [if_neg hk]
      simp only [total_cons, ih, hm]; omega

theorem total_le_extend (key : κ) (body : List β) (is : List (Item κ ν β)) :
    total is ≤ total (extend key body is) := by
  rw [total_extend]
  omega

def strip (f : Fragment κ ν β) : Fragment κ ν β :=
  if f.opens.isSome then { f with body := [] } else f

def dropped (fs : List (Fragment κ ν β)) : Nat :=
  (fs.map fun f => if f.opens.isSome then f.body.length else 0).sum

omit [DecidableEq κ] in
theorem length_le_dropped (hf : f ∈ fs) (ho : f.opens.isSome) : f.body.length ≤ dropped fs := by
  induction fs with
  | nil => cases hf
  | cons g fs ih =>
    rw [dropped, map_cons, sum_cons, ← dropped]
    rcases mem_cons.1 hf with rfl | hf
    · rw [if_pos ho]; omega
    · have hr := ih hf
      omega

theorem total_assemble_strip (fs : List (Fragment κ ν β))
    (hk : is.map (·.key) = js.map (·.key)) : total (assemble is fs) + total js =
      total (assemble js (fs.map strip)) + total is + dropped fs := by
  induction fs generalizing is js with
  | nil => simp only [assemble, map_nil, foldl_nil, dropped, sum_nil]; omega
  | cons f fs ih =>
    rw [assemble, map_cons, assemble, foldl_cons, foldl_cons, ← assemble, ← assemble]
    cases ho : f.opens with
    | none =>
      have hs : strip f = f := by simp [strip, ho]
      rw [hs, add_of_not_opens ho, add_of_not_opens ho]
      have hk' : (extend f.key f.body is).map (·.key) = (extend f.key f.body js).map (·.key) := by
        rw [map_key_extend, map_key_extend, hk]
      have hr := ih hk'
      have hbo : total (extend f.key f.body is) + total js =
          total (extend f.key f.body js) + total is := by
        rw [total_extend, total_extend, hk]; omega
      have hd : dropped (f :: fs) = dropped fs := by simp [dropped, ho]
      omega
    | some name =>
      have hs : strip f = { f with body := [] } := by simp [strip, ho]
      have ho' : (strip f).opens = some name := by simp [hs, ho]
      rw [add_of_opens ho, add_of_opens ho']
      have hk' : ((⟨f.key, name, f.body⟩ : Item κ ν β) :: is).map (·.key) =
          ((⟨(strip f).key, name, (strip f).body⟩ : Item κ ν β) :: js).map (·.key) := by
        simp [hs, hk]
      have hr := ih hk'
      have hd : dropped (f :: fs) = f.body.length + dropped fs := by simp [dropped, ho]
      simp only [total_cons, hs, length_nil] at hr ⊢
      omega

theorem items_strip_iff :
    items (fs.map strip) = items fs ↔ ∀ f ∈ fs, f.opens.isSome → f.body = [] := by
  constructor
  · intro h f hf ho
    have hc : contents (assemble [] (fs.map strip)) = contents (assemble [] fs) :=
      reverse_injective h
    have ht := total_eq_of_contents hc
    have hk : ([] : List (Item κ ν β)).map (·.key) = ([] : List (Item κ ν β)).map (·.key) := rfl
    have hbo := total_assemble_strip fs hk
    have hle := length_le_dropped hf ho
    exact length_eq_zero_iff.1 (by omega)
  · intro h
    have hm : fs.map strip = fs := by
      refine (map_congr_left fun f hf => ?_).trans (map_id fs)
      unfold strip
      split
      · rename_i ho
        rw [← h f hf ho]; rfl
      · rfl
    rw [hm]

def rekey (k : κ) (f : Fragment κ ν β) : Fragment κ ν β := { f with key := k }

def sequential : Option κ → List (Fragment κ ν β) → Bool
  | _, [] => true
  | last, f :: fs =>
    match f.opens with
    | some _ => sequential (some f.key) fs
    | none => (last.isNone || f.body.isEmpty || decide (last = some f.key)) && sequential last fs

theorem contents_extend_nil (key : κ) (is : List (Item κ ν β)) :
    contents (extend key [] is) = contents is := by
  induction is with
  | nil => rfl
  | cons i is ih =>
    rw [extend]
    split
    · simp [contents]
    · exact congrArg (cons (i.name, i.body)) ih

theorem extend_append (key : κ) (body : List β) (is js : List (Item κ ν β)) :
    extend key body (is ++ js) =
      if key ∈ is.map (·.key) then extend key body is ++ js else is ++ extend key body js := by
  induction is with
  | nil => simp
  | cons i is ih =>
    rw [cons_append, extend, extend]
    by_cases hk : i.key = key
    · rw [if_pos hk, if_pos hk, if_pos (by simp [hk])]; rfl
    · have hm : key ∈ (i :: is).map (·.key) ↔ key ∈ is.map (·.key) := by simp [Ne.symm hk]
      rw [if_neg hk, if_neg hk, ih]
      simp only [hm]
      split <;> rfl

def Diverged (is js : List (Item κ ν β)) : Prop :=
  total is < total js ∨
    ∃ front rest front' rest' : List (Item κ ν β), is = front ++ rest ∧ js = front' ++ rest' ∧
      front.length = front'.length ∧ front' ≠ [] ∧ total rest' < total rest

omit [DecidableEq κ] in
theorem Diverged.contents_ne (h : Diverged is js) : contents is ≠ contents js := by
  intro heq
  rcases h with h | ⟨front, rest, front', rest', rfl, rfl, hl, -, h⟩
  · exact absurd (total_eq_of_contents heq) (by omega)
  · rw [contents, contents, map_append, map_append] at heq
    have hr := (append_inj heq (by simpa using hl)).2
    exact absurd (total_eq_of_contents (show contents rest = contents rest' from hr)) (by omega)

theorem Diverged.add {is js : List (Item κ ν β)} (h : Diverged is js) {k : κ}
    (hk : ∀ j ∈ js, j.key = k) (f : Fragment κ ν β) : Diverged (add is f) (add js (rekey k f)) := by
  cases ho : f.opens with
  | some name =>
    have ho' : (rekey k f).opens = some name := ho
    rw [add_of_opens ho, add_of_opens ho']
    rcases h with h | ⟨front, rest, front', rest', rfl, rfl, hl, hne, h⟩
    · left
      simpa [rekey] using h
    · right
      exact ⟨⟨f.key, name, f.body⟩ :: front, rest, ⟨k, name, f.body⟩ :: front', rest', rfl, rfl,
        by simpa using hl, by simp, h⟩
  | none =>
    have ho' : (rekey k f).opens = none := ho
    rw [add_of_not_opens ho, add_of_not_opens ho']
    rcases h with h | ⟨front, rest, front', rest', rfl, rfl, hl, hne, h⟩
    · left
      cases js with
      | nil => simp at h
      | cons j js =>
        have hm : k ∈ (j :: js).map (·.key) := by simp [hk j mem_cons_self]
        have hjs : total (extend k f.body (j :: js)) = total (j :: js) + f.body.length := by
          rw [total_extend, if_pos hm]
        have his := total_extend f.key f.body is
        simp only [rekey]
        split at his <;> omega
    · right
      obtain ⟨j, js, rfl⟩ := exists_cons_of_ne_nil hne
      have hf : extend k f.body ((j :: js) ++ rest') =
          ({ j with body := j.body ++ f.body } :: js) ++ rest' := by
        rw [cons_append, extend, if_pos (hk j mem_cons_self)]; rfl
      have hle : (extend f.key f.body front).length = front.length := by
        have := congrArg List.length (map_key_extend f.key f.body front)
        simpa using this
      have hmore := total_le_extend f.key f.body rest
      simp only [rekey, hf]
      rw [extend_append]
      split
      · exact ⟨_, _, _, _, rfl, rfl, by simpa [hle] using hl, by simp, h⟩
      · exact ⟨_, _, _, _, rfl, rfl, by simpa using hl, by simp, by omega⟩

theorem keys_add {js : List (Item κ ν β)} {k : κ} (hk : ∀ j ∈ js, j.key = k)
    (f : Fragment κ ν β) : ∀ j ∈ add js (rekey k f), j.key = k := by
  have ha : ∀ l : List (Item κ ν β), (∀ j ∈ l, j.key = k) ↔ ∀ x ∈ l.map (·.key), x = k := by simp
  cases ho : f.opens with
  | some name =>
    have ho' : (rekey k f).opens = some name := ho
    rw [add_of_opens ho', forall_mem_cons]
    exact ⟨rfl, hk⟩
  | none =>
    have ho' : (rekey k f).opens = none := ho
    rw [add_of_not_opens ho', ha, map_key_extend, ← ha]; exact hk

theorem Diverged.assemble {is js : List (Item κ ν β)} (h : Diverged is js) {k : κ}
    (hk : ∀ j ∈ js, j.key = k) (fs : List (Fragment κ ν β)) :
    Diverged (assemble is fs) (assemble js (fs.map (rekey k))) := by
  induction fs generalizing is js with
  | nil => exact h
  | cons f fs ih => exact ih (h.add hk f) (keys_add hk f)

theorem diverged_of_older {i j : Item κ ν β}
    (hs : contents (i :: is) = contents (j :: js)) (ho : f.opens = none)
    (hbo : f.body ≠ []) (hol : i.key ≠ f.key) {k : κ} (hk : j.key = k) :
    Diverged (add (i :: is) f) (add (j :: js) (rekey k f)) := by
  have ho' : (rekey k f).opens = none := ho
  have hm := length_pos_iff.2 hbo
  have hr : total is = total js := total_eq_of_contents (cons.inj hs).2
  have ha := total_eq_of_contents hs
  rw [add_of_not_opens ho, add_of_not_opens ho', extend, if_neg hol, extend,
    if_pos (show j.key = (rekey k f).key from hk)]
  by_cases hf : f.key ∈ is.map (·.key)
  · right
    refine ⟨[i], _, [_], js, rfl, rfl, rfl, by simp, ?_⟩
    rw [total_extend, if_pos hf]; omega
  · left
    simp only [total_cons, total_extend, if_neg hf, length_append, rekey] at ha ⊢
    omega

theorem contents_rekey_iff {k : κ} (fs : List (Fragment κ ν β))
    (hs : contents is = contents js) (hk : ∀ j ∈ js, j.key = k) :
    contents (assemble is fs) = contents (assemble js (fs.map (rekey k))) ↔
      sequential (is.head?.map (·.key)) fs := by
  induction fs generalizing is js with
  | nil => exact iff_of_true hs rfl
  | cons f fs ih =>
    have hst : assemble is (f :: fs) = assemble (add is f) fs := rfl
    have hs' : assemble js ((f :: fs).map (rekey k)) =
        assemble (add js (rekey k f)) (fs.map (rekey k)) := rfl
    rw [hst, hs', sequential]
    cases ho : f.opens with
    | some name =>
      have ho' : (rekey k f).opens = some name := ho
      have hn : contents (add is f) = contents (add js (rekey k f)) := by
        rw [add_of_opens ho, add_of_opens ho']; exact congrArg (cons (name, f.body)) hs
      rw [ih hn (keys_add hk f), add_of_opens ho]; rfl
    | none =>
      have ho' : (rekey k f).opens = none := ho
      have hh : (add is f).head?.map (·.key) = is.head?.map (·.key) := by
        rw [add_of_not_opens ho, ← head?_map, map_key_extend, head?_map]
      have hgo : contents (add is f) = contents (add js (rekey k f)) →
          (contents (assemble (add is f) fs) =
            contents (assemble (add js (rekey k f)) (fs.map (rekey k))) ↔
              sequential (is.head?.map (·.key)) fs) := by
        intro hn
        rw [ih hn (keys_add hk f), hh]
      by_cases hbo : f.body = []
      · have hn : contents (add is f) = contents (add js (rekey k f)) := by
          rw [add_of_not_opens ho, add_of_not_opens ho']
          simp only [rekey, hbo, contents_extend_nil, hs]
        simpa [hbo] using hgo hn
      · cases is with
        | nil =>
          have hno : js = [] := by
            cases js with
            | nil => rfl
            | cons j js => cases hs
          subst hno
          have hn : contents (add [] f) = contents (add [] (rekey k f)) := by
            rw [add_of_not_opens ho, add_of_not_opens ho']; rfl
          simpa using hgo hn
        | cons i is =>
          cases js with
          | nil => cases hs
          | cons j js =>
            have hke := hk j mem_cons_self
            by_cases hc : i.key = f.key
            · have hn : contents (add (i :: is) f) = contents (add (j :: js) (rekey k f)) := by
                rw [add_of_not_opens ho, add_of_not_opens ho', extend, if_pos hc,
                  extend, if_pos (show j.key = (rekey k f).key from hke)]
                obtain ⟨hi, hr⟩ := cons.inj hs
                obtain ⟨hna, hit⟩ := Prod.mk.inj hi
                simp only [contents, map_cons, rekey, hna, hit] at hr ⊢
                rw [hr]
              simpa [hc] using hgo hn
            · refine iff_of_false ?_ (by simp [hbo, hc])
              have hd := diverged_of_older hs ho hbo hc hke
              exact (hd.assemble (keys_add hk f) fs).contents_ne

theorem items_rekey_iff (k : κ) : items (fs.map (rekey k)) = items fs ↔ sequential none fs := by
  have hi := contents_rekey_iff (k := k) fs (rfl : contents ([] : List (Item κ ν β)) = contents [])
    (by simp)
  rw [items, items, reverse_inj, eq_comm]
  exact hi

end Fragment

end Gateway.Lib
