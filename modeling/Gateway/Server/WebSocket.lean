import Gateway.Lib.LengthPrefix

/-! # WebSocket frames -/

namespace Gateway.Server

open Lib List
open UInt8 (ofNat)

structure WsFrame where
  fin : Bool := true
  opcode : UInt8 := 0
  payload : Bytes := []
  deriving DecidableEq

inductive WsParse where
  | incomplete
  | threw
  | overran
  | parsed (frame : WsFrame) (consumed : Nat)
  deriving DecidableEq

structure StringLimit where
  maxSize : Nat
  lt : maxSize < 2 ^ 63

variable (limit : StringLimit)

def lengthField (data : Bytes) : Option (Nat × Nat) :=
  let short := (data.getD 1 0 &&& 0x7f).toNat
  if short = 126 then
    if data.length < 4 then none else some (bigValue ((data.drop 2).take 2), 4)
  else if short = 127 then
    if data.length < 10 then none else some (bigValue ((data.drop 2).take 8), 10)
  else some (short, 2)

def isMasked (data : Bytes) : Bool := data.getD 1 0 &&& 0x80 != 0

def unmask (maskKey payload : Bytes) : Bytes :=
  payload.mapIdx fun i c => c ^^^ maskKey.getD (i % 4) 0

def takePayload (data maskKey : Bytes) (offset payloadLen : Nat) : WsParse :=
  if payloadLen > limit.maxSize then .threw
  else if data.length < offset + payloadLen then .overran
  else
    let payload := (data.drop offset).take payloadLen
    .parsed
      { fin := data.getD 0 0 &&& 0x80 != 0
        opcode := data.getD 0 0 &&& 0x0f
        payload := if isMasked data then unmask maskKey payload else payload }
      ((offset + payloadLen) % 2 ^ 64)

def parseWsFrame (data : Bytes) : WsParse :=
  if data.length < 2 then .incomplete
  else
    match lengthField data with
    | none => .incomplete
    | some (payloadLen, offset) =>
      if isMasked data && data.length < offset + 4 then .incomplete
      else
        let maskKey := if isMasked data then (data.drop offset).take 4 else [0, 0, 0, 0]
        let offset := if isMasked data then offset + 4 else offset
        if data.length < (offset + payloadLen) % 2 ^ 64 then .incomplete
        else takePayload limit data maskKey offset payloadLen

def lengthBytes (mask : Bool) (size : Nat) : Bytes :=
  let maskBit : UInt8 := if mask then 0x80 else 0
  if size < 126 then [maskBit ||| ofNat size]
  else if size < 65536 then (maskBit ||| 126) :: bigEndian 2 size
  else (maskBit ||| 127) :: bigEndian 8 size

def encodeWsFrame (opcode : UInt8) (payload : Bytes) (mask : Bool) : Bytes :=
  (0x80 ||| opcode) :: (lengthBytes mask payload.length ++ payload)

def headerLength (data : Bytes) : Nat :=
  ((lengthField data).getD (0, 2)).2 + if isMasked data then 4 else 0

variable {data : Bytes} {frame : WsFrame} {consumed payloadLen offset : Nat}

theorem lengthField_bounds (h : lengthField data = some (payloadLen, offset))
    (hl : 2 ≤ data.length) : offset ≤ data.length ∧ 2 ≤ offset ∧ offset ≤ 10 := by
  unfold lengthField at h
  dsimp only at h
  split at h
  · split at h
    · cases h
    · cases h; omega
  · split at h
    · split at h
      · cases h
      · cases h; omega
    · cases h; omega

theorem parseWsFrame_cases (data : Bytes) : parseWsFrame limit data = .incomplete ∨
      ∃ payloadLen offset, 2 ≤ data.length ∧ lengthField data = some (payloadLen, offset) ∧
        headerLength data ≤ data.length ∧ 2 ≤ offset ∧ headerLength data ≤ 14 ∧
        headerLength data = offset + (if isMasked data then 4 else 0) ∧
        (headerLength data + payloadLen) % 2 ^ 64 ≤ data.length ∧
        parseWsFrame limit data = takePayload limit data
          (if isMasked data then (data.drop offset).take 4 else [0, 0, 0, 0])
          (headerLength data) payloadLen := by
  by_cases hl : data.length < 2
  · exact .inl (if_pos hl)
  cases hf : lengthField data with
  | none => exact .inl (by simp [parseWsFrame, hf])
  | some field =>
    obtain ⟨payloadLen, offset⟩ := field
    have hb := lengthField_bounds hf (Nat.not_lt.1 hl)
    have hh : headerLength data = offset + if isMasked data then 4 else 0 := by
      simp [headerLength, hf]
    have ho : (if isMasked data = true then offset + 4 else offset) = headerLength data := by
      rw [hh]
      split <;> rfl
    by_cases hm : (isMasked data && decide (data.length < offset + 4))
    · exact .inl (by simp only [parseWsFrame, hl, hf, hm, if_true, if_false])
    by_cases hs : data.length < (headerLength data + payloadLen) % 2 ^ 64
    · exact .inl (by simp only [parseWsFrame, hl, hf, hm, ho, hs, if_true, ite_self])
    · refine .inr ⟨payloadLen, offset, Nat.not_lt.1 hl, rfl, ?_, hb.2.1, ?_, hh, Nat.not_lt.1 hs,
        ?_⟩
      · rw [hh]
        cases hk : isMasked data with
        | false => exact hb.1
        | true => simpa [hk] using hm
      · rw [hh]
        split <;> omega
      · simp only [parseWsFrame, hl, hf, hm, ho, hs, Bool.false_eq_true, if_false]

theorem takePayload_parsed {maskKey : Bytes} (hh : headerLength data ≤ 14)
    (h : takePayload limit data maskKey (headerLength data) payloadLen = .parsed frame consumed) :
    headerLength data + payloadLen ≤ data.length ∧ consumed = headerLength data + payloadLen ∧
      frame = {
          fin := data.getD 0 0 &&& 0x80 != 0
          opcode := data.getD 0 0 &&& 0x0f
          payload :=
            if isMasked data then unmask maskKey ((data.drop (headerLength data)).take payloadLen)
            else (data.drop (headerLength data)).take payloadLen } := by
  unfold takePayload at h
  split at h
  · cases h
  · next hsize =>
    have hlimit := limit.lt
    split at h
    · cases h
    · next hl =>
      have hw : (headerLength data + payloadLen) % 2 ^ 64 = headerLength data + payloadLen :=
        Nat.mod_eq_of_lt (by omega)
      cases h
      exact ⟨Nat.not_lt.1 hl, hw, rfl⟩

theorem parseWsFrame_ne_overran (data : Bytes) : parseWsFrame limit data ≠ .overran := by
  rcases parseWsFrame_cases limit data with h | ⟨payloadLen, offset, -, -, -, -, hh, -, hs, h⟩
  · simp [h]
  · rw [h]
    unfold takePayload
    split
    · simp
    · next hsize =>
      have hlimit := limit.lt
      rw [if_neg (by omega)]; simp

def maskByte (data : Bytes) (i : Nat) : UInt8 :=
  if isMasked data then data.getD (headerLength data - 4 + i % 4) 0 else 0

theorem ws_frame_inside (data : Bytes) : parseWsFrame limit data ≠ .overran ∧
    ∀ frame consumed, parseWsFrame limit data = .parsed frame consumed →
      headerLength data ≤ consumed ∧ consumed ≤ data.length ∧
      frame.payload.length = consumed - headerLength data ∧ ∀ i < frame.payload.length,
        frame.payload.getD i 0 = data.getD (headerLength data + i) 0 ^^^ maskByte data i := by
  refine ⟨parseWsFrame_ne_overran limit data, fun frame consumed hp => ?_⟩
  rcases parseWsFrame_cases limit data with h | ⟨payloadLen, offset, -, -, hd, ho, hh, he, hs, h⟩
  · rw [h] at hp; cases hp
  rw [h] at hp
  obtain ⟨hl, rfl, rfl⟩ := takePayload_parsed limit hh hp
  have hlen : ((data.drop (headerLength data)).take payloadLen).length = payloadLen := by
    rw [length_take, length_drop]; omega
  have hget : ∀ i < payloadLen, ((data.drop (headerLength data)).take payloadLen).getD i 0 =
      data.getD (headerLength data + i) 0 := by
    intro i hi
    simp [getD_eq_getElem?_getD, hi]
  refine ⟨Nat.le_add_right _ _, hl, ?_, ?_⟩
  · cases isMasked data <;> simp [unmask, hlen]
  · cases hm : isMasked data with
    | false =>
      intro i hi
      simp only [Bool.false_eq_true, if_false, hlen] at hi ⊢
      rw [hget i hi]
      simp [maskByte, hm]
    | true =>
      intro i hi
      simp only [if_true, unmask, length_mapIdx, hlen] at hi ⊢
      have hk : offset = headerLength data - 4 := by rw [he, hm]; simp
      have hkey : ((data.drop offset).take 4).getD (i % 4) 0 = maskByte data i := by
        have hi4 : i % 4 < 4 := Nat.mod_lt _ (by decide)
        simp [maskByte, hm, ← hk, getD_eq_getElem?_getD, hi4]
      have hi' := hget i hi
      rw [getD_eq_getElem?_getD] at hi' ⊢
      rw [getElem?_mapIdx, ← hi']
      obtain ⟨c, hc⟩ : ∃ c, ((data.drop (headerLength data)).take payloadLen)[i]? = some c :=
        ⟨_, getElem?_eq_getElem (hlen.symm ▸ hi)⟩
      simpa [hc] using hkey

def halfLimit : StringLimit := ⟨2 ^ 62 - 1, by decide⟩

def maskedHello : Bytes := [0x81, 0x82, 1, 2, 3, 4, 0x49, 0x6b, 0xff]

theorem ws_frame_inside_hello :
    parseWsFrame halfLimit maskedHello = .parsed { opcode := 1, payload := "Hi" } 8 ∧
      8 ≤ maskedHello.length :=
  have h : parseWsFrame halfLimit maskedHello = .parsed { opcode := 1, payload := "Hi" } 8 := by
    decide
  ⟨h, ((ws_frame_inside halfLimit maskedHello).2 _ _ h).2.1⟩

variable {mask : Bool} {size : Nat}

theorem shortLength_lengthByte : ∀ n < 126, ∀ mask : Bool,
    (((if mask then 0x80 else 0 : UInt8) ||| ofNat n) &&& 0x7f).toNat = n ∧
      (((if mask then 0x80 else 0 : UInt8) ||| ofNat n) &&& 0x80 != 0) = mask := by
  decide

theorem isMasked_cons (first second : UInt8) (tail : Bytes) :
    isMasked (first :: second :: tail) = (second &&& 0x80 != 0) := rfl

theorem lengthField_lengthBytes (mask : Bool) (hsi : size < 2 ^ 63) (first : UInt8) (tail : Bytes) :
    lengthField (first :: (lengthBytes mask size ++ tail)) =
        some (size, (lengthBytes mask size).length + 1) ∧
      isMasked (first :: (lengthBytes mask size ++ tail)) = mask := by
  have hv : ∀ k, size < 256 ^ k → bigValue (bigEndian k size) = size := fun k hk => by
    rw [bigValue_bigEndian, Nat.mod_eq_of_lt hk]
  unfold lengthBytes
  dsimp only
  split
  · next hs =>
    obtain ⟨hn, hm⟩ := shortLength_lengthByte size hs mask
    refine ⟨?_, hm⟩
    simp only [lengthField, getD_cons_succ, singleton_append, getD_cons_zero, hn]
    rw [if_neg (by omega), if_neg (by omega)]; rfl
  · split
    · next hs =>
      rw [cons_append, isMasked_cons]
      cases mask <;> exact ⟨by simp [lengthField, hv 2 hs], by decide⟩
    · rw [cons_append, isMasked_cons]
      cases mask <;> exact ⟨by simp [lengthField, hv 8 (by omega)], by decide⟩

theorem lengthField_append {field : Nat × Nat} (hl : 2 ≤ data.length) (rest : Bytes)
    (h : lengthField data = some field) :
    lengthField (data ++ rest) = some field ∧ isMasked (data ++ rest) = isMasked data := by
  have hg : (data ++ rest).getD 1 0 = data.getD 1 0 := by
    rw [getD_eq_getElem?_getD, getElem?_append_left hl, getD_eq_getElem?_getD]
  have ht : ∀ n, n + 2 ≤ data.length →
      ((data ++ rest).drop 2).take n = (data.drop 2).take n := by
    intro n hn
    rw [drop_append_of_le_length hl, take_append_of_le_length (by rw [length_drop]; omega)]
  refine ⟨?_, by rw [isMasked, hg, isMasked]⟩
  unfold lengthField at h ⊢
  dsimp only at h ⊢
  rw [hg, length_append]
  split
  · next hs =>
    rw [if_pos hs] at h
    split at h
    · cases h
    · rwa [if_neg (by omega), ht 2 (by omega)]
  · next hs =>
    rw [if_neg hs] at h
    split
    · next hs =>
      rw [if_pos hs] at h
      split at h
      · cases h
      · rwa [if_neg (by omega), ht 8 (by omega)]
    · next hs => rwa [if_neg hs] at h

section

variable {opcode : UInt8} {payload : Bytes}

theorem first_byte (hop : opcode < 16) :
    (0x80 ||| opcode) &&& 0x0f = opcode ∧ ((0x80 ||| opcode) &&& 0x80 != 0) := by
  have h : ∀ n < 16, (0x80 ||| ofNat n) &&& 0x0f = ofNat n ∧
      ((0x80 ||| ofNat n) &&& 0x80 != 0) := by decide
  simpa using h opcode.toNat (UInt8.lt_iff_toNat_lt.1 hop)

theorem encodeWsFrame_header (opcode : UInt8) (mask : Bool) (hsi : payload.length < 2 ^ 63)
    (rest : Bytes) : ∃ n, lengthField (encodeWsFrame opcode payload mask ++ rest) =
        some (payload.length, n) ∧
      isMasked (encodeWsFrame opcode payload mask ++ rest) = mask ∧ n ≤ 10 ∧
      (encodeWsFrame opcode payload mask ++ rest).drop n = payload ++ rest ∧
      (encodeWsFrame opcode payload mask).length = n + payload.length := by
  have he : encodeWsFrame opcode payload mask ++ rest =
      (0x80 ||| opcode) :: (lengthBytes mask payload.length ++ (payload ++ rest)) := by
    simp [encodeWsFrame]
  have hn : (lengthBytes mask payload.length).length ≤ 9 := by
    unfold lengthBytes
    dsimp only
    split
    · simp
    · split <;> simp
  obtain ⟨hf, hm⟩ := lengthField_lengthBytes mask hsi (0x80 ||| opcode) (payload ++ rest)
  refine ⟨_, he ▸ hf, he ▸ hm, by omega, ?_, ?_⟩
  · rw [he, drop_succ_cons, drop_left]
  · simp only [encodeWsFrame, length_cons, length_append]; omega

theorem parseWsFrame_encode (hop : opcode < 16) (hsize : payload.length ≤ limit.maxSize)
    (rest : Bytes) :
    parseWsFrame limit (encodeWsFrame opcode payload false ++ rest) =
      .parsed { fin := true, opcode, payload } (encodeWsFrame opcode payload false).length := by
  have hsi := hsize.trans_lt limit.lt
  obtain ⟨n, hf, hm, hn, hd, hl⟩ := encodeWsFrame_header opcode false hsi rest
  have hl2 : 2 ≤ (encodeWsFrame opcode payload false ++ rest).length := by
    unfold encodeWsFrame lengthBytes
    dsimp only
    split
    · simp
    · split <;> simp
  have hw : (n + payload.length) % 2 ^ 64 = n + payload.length := Nat.mod_eq_of_lt (by omega)
  have hle : n + payload.length ≤ (encodeWsFrame opcode payload false ++ rest).length := by
    rw [length_append]; omega
  obtain ⟨ho, hfi⟩ := first_byte hop
  have h0 : (encodeWsFrame opcode payload false ++ rest).getD 0 0 = 0x80 ||| opcode := rfl
  simp only [parseWsFrame, takePayload, hf, hm, hw, hd, h0, ho, hfi, Nat.not_lt.2 hl2,
    Nat.not_lt.2 hle, Nat.not_lt.2 hsize, Bool.false_and, Bool.false_eq_true, if_false,
      take_left, hl]

theorem parseWsFrame_front {front : Bytes} (hsi : payload.length < 2 ^ 63)
    (hf : front <+: encodeWsFrame opcode payload false)
    (hne : front ≠ encodeWsFrame opcode payload false) :
    parseWsFrame limit front = .incomplete := by
  obtain ⟨rest, he⟩ := hf
  rcases parseWsFrame_cases limit front with h | ⟨payloadLen, offset, hl, hf, -, -, -, hh, hs, -⟩
  · exact h
  obtain ⟨n, hfe, hmasked, hn, -, hle⟩ := encodeWsFrame_header opcode false hsi []
  obtain ⟨hfa, hsame⟩ := lengthField_append hl rest hf
  rw [append_nil, ← he] at hfe hmasked
  rw [hfa, Option.some.injEq, Prod.mk.injEq] at hfe
  rw [hmasked] at hsame
  rw [hh, ← hsame, hfe.1, hfe.2] at hs
  have hr : rest ≠ [] := by rintro rfl; exact hne (by rw [← he, append_nil])
  have hrl := length_pos_iff.2 hr
  rw [← he, length_append] at hle
  simp only [Bool.false_eq_true, if_false] at hs
  omega

def ReadBack (opcode : UInt8) (payload : Bytes) (mask : Bool) (rest : Bytes) : Prop :=
  parseWsFrame limit (encodeWsFrame opcode payload mask ++ rest) =
      .parsed { fin := true, opcode, payload } (encodeWsFrame opcode payload mask).length ∧
    ∀ front, front <+: encodeWsFrame opcode payload mask →
      front ≠ encodeWsFrame opcode payload mask → parseWsFrame limit front = .incomplete

/-- **A frame is read back** exactly where it is not to be masked. -/
theorem ws_frame_read_back_iff (hop : opcode < 16) (hsize : payload.length ≤ limit.maxSize)
    (rest : Bytes) : ReadBack limit opcode payload mask rest ↔ mask = false := by
  have hsi := hsize.trans_lt limit.lt
  constructor
  · rintro ⟨h, -⟩
    obtain ⟨n, hf, hm, -, -, hl⟩ := encodeWsFrame_header opcode mask hsi rest
    rcases parseWsFrame_cases limit (encodeWsFrame opcode payload mask ++ rest) with
      hi | ⟨payloadLen, offset, -, hf', -, -, hh, he, -, hp⟩
    · rw [hi] at h; cases h
    · rw [hf, Option.some.injEq, Prod.mk.injEq] at hf'
      rw [hp] at h
      obtain ⟨-, hc, -⟩ := takePayload_parsed limit hh h
      rw [he, hm, ← hf'.1, ← hf'.2] at hc
      cases mask with
      | false => rfl
      | true => simp only [if_true] at hc; omega
  · rintro rfl
    exact ⟨parseWsFrame_encode limit hop hsize rest, fun front => parseWsFrame_front limit hsi⟩

theorem ws_frame_read_back_hello : ReadBack halfLimit 1 "Hello" false "!" :=
  (ws_frame_read_back_iff halfLimit (by decide) (by decide) _).2 rfl

theorem masked_frame_lost : encodeWsFrame 1 "Hi" true = [0x81, 0x82, 72, 105] ∧
    parseWsFrame halfLimit (encodeWsFrame 1 "Hi" true) = .incomplete ∧
      ¬ ReadBack halfLimit 1 "Hi" true [] := by
  have h : parseWsFrame halfLimit (encodeWsFrame 1 "Hi" true) = .incomplete := by decide
  refine ⟨by decide, h, fun hr => ?_⟩
  rw [ReadBack, append_nil, h] at hr
  cases hr.1

end

end Gateway.Server
