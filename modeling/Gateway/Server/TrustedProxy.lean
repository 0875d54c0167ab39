import Mathlib.Data.List.DropRight
import Gateway.Protocol.Converter

/-! # Trusted proxies -/

namespace Gateway.Server

open Lib Option
open List hiding after
open Protocol (toInt32)

def octets (address : BitVec 32) : List Nat :=
  let n := address.toNat
  [n / 2 ^ 24, n / 2 ^ 16 % 2 ^ 8, n / 2 ^ 8 % 2 ^ 8, n % 2 ^ 8]

def dottedQuad (address : BitVec 32) : Bytes := [46].intercalate ((octets address).map decimal)

structure Libc where
  inetPton : Bytes → Option (BitVec 32)
  inetPton_eq_some : ∀ text address, inetPton text = some address ↔ text = dottedQuad address
  atoi : Bytes → Int
  atoi_of_digits : ∀ text, text ≠ [] → text.all isDigit → digitsValue text < 2 ^ 31 →
    atoi text = digitsValue text

def mask (bits : Nat) : BitVec 32 := if bits = 0 then 0 else BitVec.allOnes 32 <<< (32 - bits)

def trimmed (entry : Bytes) : Bytes := (entry.dropWhile (· = 32)).rdropWhile (· = 32)

namespace Libc

variable (libc : Libc)

def maskBits (entry : Bytes) : Int :=
  match find "/" entry with
  | none => 32
  | some slash => libc.atoi (cstr (entry.drop (slash + 1)))

def network (entry : Bytes) : Option (BitVec 32 × Nat) :=
  let address := entry.take ((find "/" entry).getD entry.length)
  let bits := libc.maskBits entry
  if 0 ≤ bits ∧ bits ≤ 32 then (libc.inetPton (cstr address)).map (·, bits.toNat) else none

def entryContains (peer : BitVec 32) (entry : Bytes) : Bool :=
  match libc.network entry with
  | none => false
  | some (network, bits) => (peer &&& mask bits) == (network &&& mask bits)

def cidrLoop (peer : BitVec 32) : Nat → Bytes → Bool
  | 0, _ => false
  | rounds + 1, rest =>
    if rest.isEmpty then false
    else
      let entry := rest.takeWhile (· ≠ 44)
      libc.entryContains peer (trimmed entry) || cidrLoop peer rounds (rest.drop (entry.length + 1))

def ipv4InCidrs (ip cidrs : Bytes) : Bool :=
  match libc.inetPton (cstr ip) with
  | none => false
  | some peer => libc.cidrLoop peer cidrs.length cidrs

end Libc

def Within (peer network : BitVec 32) (bits : Nat) : Prop :=
  peer.toNat / 2 ^ (32 - bits) = network.toNat / 2 ^ (32 - bits)

inductive IsNetwork : Bytes → BitVec 32 → Nat → Prop
  | address (address : BitVec 32) : IsNetwork (dottedQuad address) address 32
  | network (address : BitVec 32) {digits : Bytes} (hne : digits ≠ [])
      (hdigits : digits.all isDigit) (hle : digitsValue digits ≤ 32) :
      IsNetwork (dottedQuad address ++ "/" ++ digits) address (digitsValue digits)

def entries (cidrs : Bytes) : List Bytes := (cidrs.splitOn 44).map trimmed

def Listed (cidrs : Bytes) (peer : BitVec 32) : Prop :=
  ∃ entry ∈ entries cidrs, ∃ network bits, IsNetwork entry network bits ∧ Within peer network bits

inductive Accepted (libc : Libc) : Bytes → BitVec 32 → Nat → Prop
  | address {entry : Bytes} {address : BitVec 32} (hslash : 47 ∉ entry)
      (haddress : cstr entry = dottedQuad address) : Accepted libc entry address 32
  | network {text after : Bytes} {address : BitVec 32} {bits : Nat} (hslash : 47 ∉ text)
      (haddress : cstr text = dottedQuad address) (hbits : libc.atoi (cstr after) = bits)
      (hle : bits ≤ 32) : Accepted libc (text ++ "/" ++ after) address bits

def Misread (libc : Libc) (cidrs : Bytes) (peer : BitVec 32) : Prop :=
  ∃ entry ∈ entries cidrs, (¬ ∃ network bits, IsNetwork entry network bits) ∧
    ∃ network bits, Accepted libc entry network bits ∧ Within peer network bits

theorem and_mask {bits : Nat} (h : bits ≤ 32) (x : BitVec 32) :
    (x &&& mask bits).toNat = x.toNat / 2 ^ (32 - bits) * 2 ^ (32 - bits) := by
  unfold mask
  split
  · next hz =>
    subst hz
    rw [Nat.sub_zero, Nat.div_eq_of_lt x.isLt]; simp
  · have hs : x &&& BitVec.allOnes 32 <<< (32 - bits) = x >>> (32 - bits) <<< (32 - bits) := by
      ext i hi
      simp only [BitVec.getElem_and, BitVec.getElem_shiftLeft, BitVec.getElem_allOnes,
        BitVec.getElem_ushiftRight]
      by_cases hl : i < 32 - bits
      · simp [hl]
      · rw [Nat.add_sub_cancel' (Nat.le_of_not_lt hl)]; simp [hl, BitVec.getLsbD_eq_getElem hi]
    have hf : x.toNat / 2 ^ (32 - bits) * 2 ^ (32 - bits) < 2 ^ 32 :=
      Nat.lt_of_le_of_lt (Nat.div_mul_le_self _ _) x.isLt
    rw [hs, BitVec.toNat_shiftLeft, BitVec.toNat_ushiftRight, Nat.shiftRight_eq_div_pow,
      Nat.shiftLeft_eq, Nat.mod_eq_of_lt hf]

theorem and_mask_eq_iff {bits : Nat} (h : bits ≤ 32) (x y : BitVec 32) :
    x &&& mask bits = y &&& mask bits ↔ Within x y bits := by
  rw [← BitVec.toNat_inj, and_mask h, and_mask h]
  exact Nat.mul_left_inj (Nat.two_pow_pos _).ne'

variable {address : BitVec 32}

theorem mem_dottedQuad {c : UInt8} (h : c ∈ dottedQuad address) : isDigit c ∨ c = 46 := by
  have hj : ∀ ls : List Bytes, (∀ l ∈ ls, ∀ c ∈ l, isDigit c) →
      ∀ c ∈ [46].intercalate ls, isDigit c ∨ c = 46 := by
    intro ls
    induction ls with
    | nil => intro _ c hc; cases hc
    | cons l ls ih =>
      intro hls c hc
      cases ls with
      | nil => rw [intercalate_singleton] at hc; exact .inl (hls l mem_cons_self c hc)
      | cons l' ls =>
        rw [intercalate_cons_cons, mem_append, mem_append] at hc
        rcases hc with (hc | hc) | hc
        · exact .inl (hls l mem_cons_self c hc)
        · exact .inr (mem_singleton.1 hc)
        · exact ih (fun l hl => hls l (mem_cons_of_mem _ hl)) c hc
  refine hj _ ?_ c h
  intro l hl c hc
  obtain ⟨n, -, rfl⟩ := List.mem_map.1 hl
  exact isDigit_of_mem_decimal hc

theorem not_mem_dottedQuad {c : UInt8} (hd : isDigit c = false) (hdo : c ≠ 46) :
    c ∉ dottedQuad address := by
  intro h
  rcases mem_dottedQuad h with h | h
  · rw [hd] at h; cases h
  · exact hdo h

theorem nulFree_dottedQuad (address : BitVec 32) : NulFree (dottedQuad address) :=
  not_mem_dottedQuad rfl (by decide)

theorem nulFree_of_digits {digits : Bytes} (h : digits.all isDigit) : NulFree digits := by
  intro hz
  have := List.all_eq_true.1 h 0 hz
  cases this

variable {rest : Bytes}

section

variable (libc : Libc) {entry : Bytes} {peer network : BitVec 32} {bits : Nat}

theorem inetPton_cstr_eq_some {text : Bytes} :
    libc.inetPton (cstr text) = some network ↔ cstr text = dottedQuad network :=
  libc.inetPton_eq_some _ _

theorem network_of_not_mem (hs : 47 ∉ entry) :
    libc.network entry = (libc.inetPton (cstr entry)).map (·, 32) := by
  have hf : find "/" entry = none := find_eq_none_of_not_mem hs
  unfold Libc.network Libc.maskBits
  rw [hf]
  simp

theorem network_append {text : Bytes} (hs : 47 ∉ text) (after : Bytes) :
    libc.network (text ++ "/" ++ after) =
      if 0 ≤ libc.atoi (cstr after) ∧ libc.atoi (cstr after) ≤ 32
      then (libc.inetPton (cstr text)).map (·, (libc.atoi (cstr after)).toNat) else none := by
  have hf : find "/" (text ++ "/" ++ after) = some text.length := by
    rw [append_assoc]
    refine (find_append_of_not_mem hs _).trans ?_
    change (find [47] (47 :: after)).map (· + text.length) = _
    simp [find]
  have ht : (text ++ "/" ++ after).take text.length = text := by
    rw [append_assoc, take_left]
  have hd : (text ++ "/" ++ after).drop (text.length + 1) = after := by
    rw [drop_left' (by simp; rfl)]
  unfold Libc.network Libc.maskBits
  simp only [hf, getD_some, ht, hd]

theorem network_eq_some_iff :
    libc.network entry = some (network, bits) ↔ Accepted libc entry network bits := by
  constructor
  · intro h
    by_cases hm : 47 ∈ entry
    · obtain ⟨text, after, rfl, hs⟩ := eq_append_cons_of_mem hm
      have he : text ++ 47 :: after = text ++ "/" ++ after := by simp; rfl
      rw [he] at h ⊢
      rw [network_append libc hs] at h
      split at h
      · next hle =>
        obtain ⟨address, ha, heq⟩ := map_eq_some_iff.1 h
        cases heq
        exact .network hs ((inetPton_cstr_eq_some libc).1 ha) (by omega) (by omega)
      · cases h
    · rw [network_of_not_mem libc hm] at h
      obtain ⟨address, ha, heq⟩ := map_eq_some_iff.1 h
      cases heq; exact .address hm ((inetPton_cstr_eq_some libc).1 ha)
  · intro h
    cases h with
    | address hs ha => rw [network_of_not_mem libc hs, (inetPton_cstr_eq_some libc).2 ha]; rfl
    | network hs ha hbi hle =>
      rw [network_append libc hs, (inetPton_cstr_eq_some libc).2 ha, hbi, if_pos (by omega)]
      rfl

theorem IsNetwork.accepted (h : IsNetwork entry network bits) :
    Accepted libc entry network bits := by
  have hs : (47 : UInt8) ∉ dottedQuad network := not_mem_dottedQuad rfl (by decide)
  have ha := (nulFree_dottedQuad network).cstr_eq
  cases h with
  | address => exact .address hs ha
  | @network _ digits hne hd hle =>
    refine .network hs ha ?_ hle
    rw [(nulFree_of_digits hd).cstr_eq]
    exact libc.atoi_of_digits digits hne hd (by omega)

theorem IsNetwork.unique (h : IsNetwork entry network bits) {network' : BitVec 32} {bits' : Nat}
    (h' : Accepted libc entry network' bits') : network' = network ∧ bits' = bits := by
  have heq := (network_eq_some_iff libc).2 (h.accepted libc)
  rw [(network_eq_some_iff libc).2 h'] at heq
  cases heq
  exact ⟨rfl, rfl⟩

theorem Accepted.le (h : Accepted libc entry network bits) : bits ≤ 32 := by
  cases h with
  | address => exact Nat.le_refl 32
  | network _ _ _ hle => exact hle

theorem entryContains_iff : libc.entryContains peer entry ↔
    ∃ network bits, Accepted libc entry network bits ∧ Within peer network bits := by
  unfold Libc.entryContains
  cases hn : libc.network entry with
  | none =>
    constructor
    · intro h; cases h
    · rintro ⟨network, bits, ha, -⟩; rw [(network_eq_some_iff libc).2 ha] at hn; cases hn
  | some found =>
    obtain ⟨network, bits⟩ := found
    have ha := (network_eq_some_iff libc).1 hn
    dsimp only
    rw [beq_iff_eq, and_mask_eq_iff ha.le]
    constructor
    · intro h; exact ⟨network, bits, ha, h⟩
    · rintro ⟨network', bits', ha', h⟩
      rw [(network_eq_some_iff libc).2 ha'] at hn
      cases hn; exact h

theorem network_nil : libc.network [] = none := by
  have hn : libc.inetPton [] = none := by
    rw [eq_none_iff_forall_ne_some]
    intro address h
    have he := (libc.inetPton_eq_some _ _).1 h
    have hl := congrArg List.length he
    simp [dottedQuad, octets, intercalate_cons_cons] at hl
  rw [network_of_not_mem libc not_mem_nil]
  simp [cstr, hn]

theorem entries_cons_of_mem {after : Bytes} {entry : Bytes} (hco : 44 ∉ entry)
    (hr : rest = entry ++ 44 :: after) : entries rest = trimmed entry :: entries after := by
  unfold entries splitOn
  rw [hr, splitOnP_append_cons_of_forall_mem _ 44 (by simp)]
  · rfl
  · intro c hc; simpa using ne_of_mem_of_not_mem hc hco

theorem entries_of_not_mem (hco : 44 ∉ rest) : entries rest = [trimmed rest] := by
  unfold entries splitOn
  rw [splitOnP_eq_singleton]
  · rfl
  · intro c hc; simpa using ne_of_mem_of_not_mem hc hco

theorem cidrLoop_eq_any {rounds : Nat} (h : rest.length ≤ rounds) :
    libc.cidrLoop peer rounds rest = (entries rest).any (libc.entryContains peer) := by
  have he : (entries []).any (libc.entryContains peer) = false := by
    have hn : libc.entryContains peer [] = false := by
      unfold Libc.entryContains
      rw [network_nil]
    simpa [entries, trimmed] using hn
  induction rounds generalizing rest with
  | zero => obtain rfl := eq_nil_of_length_eq_zero (Nat.le_zero.1 h); rw [he]; rfl
  | succ rounds ih =>
    unfold Libc.cidrLoop
    by_cases hr : rest = []
    · subst hr; rw [he]; rfl
    · rw [if_neg (by simpa using hr)]
      dsimp only
      set entry := rest.takeWhile (· ≠ 44) with hen
      have hco : 44 ∉ entry := by
        intro hm
        simpa using mem_takeWhile_imp hm
      have hs : rest = entry ++ rest.dropWhile (· ≠ 44) := by rw [hen, takeWhile_append_dropWhile]
      cases ha : rest.dropWhile (· ≠ 44) with
      | nil =>
        rw [ha, append_nil] at hs
        have hd : rest.drop (entry.length + 1) = [] := by rw [← hs]; simp
        rw [hd, ih (Nat.zero_le _), he, Bool.or_false]
        rw [← hs] at hco ⊢
        rw [entries_of_not_mem hco]; simp
      | cons c after =>
        have hc : c = 44 := by
          have hh := head?_dropWhile_not (fun x : UInt8 => decide (x ≠ 44)) rest
          rw [ha] at hh
          simpa using hh
        subst hc
        rw [ha] at hs
        have hd : rest.drop (entry.length + 1) = after := by rw [hs, drop_append]; simp
        have hl : after.length ≤ rounds := by
          have := congrArg List.length hs
          simp only [length_append, length_cons] at this; omega
        rw [hd, ih hl, entries_cons_of_mem hco hs, any_cons]

theorem ipv4InCidrs_dottedQuad (cidrs : Bytes) :
    libc.ipv4InCidrs (dottedQuad peer) cidrs ↔ ∃ entry ∈ entries cidrs,
      ∃ network bits, Accepted libc entry network bits ∧ Within peer network bits := by
  have hp : libc.inetPton (cstr (dottedQuad peer)) = some peer :=
    (inetPton_cstr_eq_some libc).2 (nulFree_dottedQuad peer).cstr_eq
  unfold Libc.ipv4InCidrs
  rw [hp]
  dsimp only
  rw [cidrLoop_eq_any libc (Nat.le_refl _), List.any_eq_true]
  simp only [entryContains_iff]

end

/-- The peers of the list are found. -/
theorem ipv4InCidrs_exact_iff (libc : Libc) (peer : BitVec 32) (cidrs : Bytes) :
    (libc.ipv4InCidrs (dottedQuad peer) cidrs = true ↔ Listed cidrs peer) ↔
      (Misread libc cidrs peer → Listed cidrs peer) := by
  rw [ipv4InCidrs_dottedQuad]
  constructor
  · rintro hexact ⟨entry, hentry, -, hfound⟩; exact hexact.1 ⟨entry, hentry, hfound⟩
  · intro hmisread
    constructor
    · rintro ⟨entry, hentry, network, bits, haccepted, hwithin⟩
      by_cases hform : ∃ network bits, IsNetwork entry network bits
      · obtain ⟨network', bits', hnetwork⟩ := hform
        obtain ⟨rfl, rfl⟩ := hnetwork.unique libc haccepted
        exact ⟨entry, hentry, network, bits, hnetwork, hwithin⟩
      · exact hmisread ⟨entry, hentry, hform, network, bits, haccepted, hwithin⟩
    · rintro ⟨entry, hentry, network, bits, hnetwork, hwithin⟩
      exact ⟨entry, hentry, network, bits, hnetwork.accepted libc, hwithin⟩

def parseQuad (text : Bytes) : Option (BitVec 32) :=
  let value := (text.splitOn 46).foldl (fun value part => value * 2 ^ 8 + digitsValue part) 0
  let address := BitVec.ofNat 32 value
  if text = dottedQuad address then some address else none

theorem parseQuad_dottedQuad (address : BitVec 32) :
    parseQuad (dottedQuad address) = some address := by
  have hs : (dottedQuad address).splitOn 46 = (octets address).map decimal := by
    have hne : (octets address).map decimal ≠ [] := by simp [octets]
    refine splitOn_intercalate 46 ?_ hne
    intro text ht hm
    obtain ⟨n, -, rfl⟩ := List.mem_map.1 ht
    cases isDigit_of_mem_decimal hm
  have hv : ((octets address).map decimal).foldl
      (fun value part => value * 2 ^ 8 + digitsValue part) 0 = address.toNat := by
    simp only [octets, map_cons, map_nil, foldl_cons, foldl_nil, digitsValue_decimal]
    omega
  unfold parseQuad
  dsimp only
  rw [hs, hv, BitVec.ofNat_toNat, BitVec.setWidth_eq, if_pos rfl]

variable (text : Bytes)

theorem parseQuad_eq_some (address : BitVec 32) :
    parseQuad text = some address ↔ text = dottedQuad address := by
  constructor
  · intro h
    unfold parseQuad at h
    dsimp only at h
    split at h
    · next ht =>
      rw [some.injEq] at h
      rwa [h] at ht
    · cases h
  · rintro rfl; exact parseQuad_dottedQuad address

def strtolInt (text : Bytes) : Int :=
  let number := text.dropWhile isSpace
  let value (digits : Bytes) : Int := digitsValue (digits.takeWhile isDigit)
  match number with
  | 45 :: digits => toInt32 (max (-value digits) (-2 ^ 63))
  | 43 :: digits => toInt32 (min (value digits) (2 ^ 63 - 1))
  | digits => toInt32 (min (value digits) (2 ^ 63 - 1))

theorem strtolInt_of_digits (hne : text ≠ []) (hd : text.all isDigit)
    (hv : digitsValue text < 2 ^ 31) : strtolInt text = digitsValue text := by
  obtain ⟨c, rest, rfl⟩ := exists_cons_of_ne_nil hne
  have hc : isDigit c := List.all_eq_true.1 hd c mem_cons_self
  have hs : (c :: rest).dropWhile isSpace = c :: rest := by
    refine dropWhile_cons_of_neg ?_
    intro hs
    simp only [isDigit, isSpace, Bool.and_eq_true, Bool.or_eq_true, decide_eq_true_eq] at hc hs
    have hl := UInt8.le_iff_toNat_le.1 hc.1
    rcases hs with rfl | hs
    · exact absurd hl (by decide)
    · have hh := UInt8.le_iff_toNat_le.1 hs.2
      exact absurd (Nat.le_trans hl hh) (by decide)
  have ha : (c :: rest).takeWhile isDigit = c :: rest :=
    takeWhile_eq_self_iff.2 (List.all_eq_true.1 hd)
  unfold strtolInt
  dsimp only
  rw [hs]
  split
  · next heq => cases heq; cases hc
  · next heq => cases heq; cases hc
  · have hm : min (digitsValue (c :: rest) : Int) (2 ^ 63 - 1) = digitsValue (c :: rest) := by omega
    rw [ha, hm]
    unfold toInt32
    rw [Int.bmod_eq_of_le (by omega) (by omega)]

def glibc : Libc where
  inetPton := parseQuad
  inetPton_eq_some := parseQuad_eq_some
  atoi := strtolInt
  atoi_of_digits := strtolInt_of_digits

theorem not_isNetwork_slash (network : BitVec 32) (bits : Nat) :
    ¬ IsNetwork (text ++ "/") network bits := by
  intro h
  generalize he : text ++ ascii "/" = entry at h
  cases h with
  | address =>
    have hm : (47 : UInt8) ∈ text ++ ascii "/" := mem_append_right _ (by decide)
    rw [he] at hm; exact not_mem_dottedQuad rfl (by decide) hm
  | @network _ digits hne hd hle =>
    have hl := congrArg getLast? he
    rw [getLast?_append_of_ne_nil _ (by decide), getLast?_append_of_ne_nil _ hne] at hl
    have hdi := List.all_eq_true.1 hd 47 (mem_of_getLast? hl.symm)
    cases hdi

theorem forgotten_mask_trusts_all :
    glibc.ipv4InCidrs (dottedQuad 0xcb007107#32) "10.0.0.0/" = true ∧
      ¬ Listed "10.0.0.0/" 0xcb007107#32 := by
  refine ⟨by decide, ?_⟩
  rintro ⟨entry, hentry, network, bits, hnetwork, -⟩
  have hentries : entries "10.0.0.0/" = [ascii "10.0.0.0" ++ ascii "/"] := by decide
  rw [hentries, mem_singleton] at hentry
  subst hentry
  exact not_isNetwork_slash _ _ _ hnetwork

end Gateway.Server
