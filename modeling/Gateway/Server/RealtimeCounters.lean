import Gateway.Server.Realtime

/-! # The counters of a realtime session -/

namespace Gateway.Server.Realtime

open Protocol (toInt32)

namespace Pc

def liveBytes (done : Bool) : Pc → Int
  | added f _ _ => f.size
  | tested f => if done then 0 else f.size
  | sending f => f.size
  | _ => 0

def pendingBytes : Pc → Int
  | added f _ _ | exceeded f | capped f | tested f | sending f => f.size
  | _ => 0

def allowance (cap : Int) : Pc → Int
  | added _ total _ => max cap total
  | _ => cap

def live (done : Bool) : Pc → Int
  | tested _ => if done then 0 else 1
  | sending _ => 1
  | _ => 0

def pending : Pc → Int
  | counted _ | added _ _ _ | exceeded _ | capped _ | tested _ | sending _ => 1
  | _ => 0

def excess (done : Bool) : Pc → Int
  | counted _ | added _ _ _ | exceeded _ | capped _ | leaving | ended => 1
  | tested _ => if done then 1 else 0
  | _ => 0

def uncounted : Pc → Int
  | counted _ => 1
  | _ => 0

theorem size_nonneg (f : Frame) : 0 ≤ f.size := Int.natCast_nonneg _

theorem size_le (f : Frame) : f.size ≤ maxFrame := Int.ofNat_le.2 f.fits

variable (done : Bool) (pc : Pc)

theorem liveBytes_le : 0 ≤ pc.liveBytes done ∧ pc.liveBytes done ≤ pc.pendingBytes := by
  cases pc <;> simp only [liveBytes, pendingBytes] <;> try split
  all_goals first
    | exact ⟨le_rfl, le_rfl⟩
    | exact ⟨size_nonneg _, le_rfl⟩
    | exact ⟨le_rfl, size_nonneg _⟩

theorem live_le : 0 ≤ pc.live done ∧ pc.live done ≤ pc.pending := by
  cases pc <;> simp only [live, pending] <;> try split
  all_goals decide

theorem excess_le : 0 ≤ pc.excess done ∧ pc.excess done ≤ 1 := by
  cases pc <;> simp only [excess] <;> try split
  all_goals decide

theorem uncounted_nonneg : 0 ≤ pc.uncounted := by
  cases pc <;> simp [uncounted]

theorem le_allowance (cap : Int) : cap ≤ pc.allowance cap := by
  cases pc <;> simp [allowance]

theorem liveBytes_done : pc.liveBytes true ≤ pc.liveBytes done := by
  cases pc <;> simp only [liveBytes, le_refl, if_true]
  split
  · exact le_rfl
  · exact size_nonneg _

theorem live_done : pc.live true ≤ pc.live done := by
  cases pc <;> simp only [live, le_refl, if_true]
  split <;> decide

theorem excess_done : pc.excess done ≤ pc.excess true := by
  cases pc <;> simp only [excess, le_refl, if_true]
  split <;> decide

end Pc

def totalSize (frames : List Frame) : Int := (frames.map Frame.size).sum

theorem totalSize_snoc (frames : List Frame) (f : Frame) :
    totalSize (frames ++ [f]) = totalSize frames + f.size := by
  simp [totalSize]

structure Counters where
  done : Bool
  frames : Int
  sessionBytes : Int
  bytesSent : Int
  framesSent : Int
  mine : Pc
  theirs : Pc

def Counters.flip (v : Counters) : Counters := { v with mine := v.theirs, theirs := v.mine }

structure Accounted (bytes frames : Int) (v : Counters) : Prop where
  sent : v.bytesSent ≤ bytes
  mine : v.bytesSent + v.mine.liveBytes v.done ≤ v.mine.allowance bytes
  theirs : v.bytesSent + v.theirs.liveBytes v.done ≤ v.theirs.allowance bytes
  both : v.bytesSent + v.mine.liveBytes v.done + v.theirs.liveBytes v.done ≤
    max (v.mine.allowance bytes) (v.theirs.allowance bytes)
  counted : v.bytesSent + v.mine.pendingBytes + v.theirs.pendingBytes ≤ v.sessionBytes
  framesSent : v.framesSent + v.mine.live v.done + v.theirs.live v.done ≤ frames
  framesCounted : v.framesSent + v.mine.pending + v.theirs.pending ≤ v.frames
  framesBound : v.frames ≤ frames + v.mine.excess v.done + v.theirs.excess v.done
  bytesBound : v.sessionBytes + maxFrame * (v.mine.uncounted + v.theirs.uncounted) ≤
    maxFrame * v.frames
  positive : 1 ≤ v.framesSent ∧ 0 ≤ v.bytesSent

variable {f : Frame} {elapsedMs : Int}

namespace Accounted

variable {bytes frames : Int} {v : Counters}

section

variable (h : Accounted bytes frames v)

include h

theorem flip : Accounted bytes frames v.flip := { h with
  mine := h.theirs
  theirs := h.mine
  both := by
    have := h.both
    simp only [Counters.flip, max_comm]; omega
  counted := by
    have := h.counted
    simp only [Counters.flip]; omega
  framesSent := by
    have := h.framesSent
    simp only [Counters.flip]; omega
  framesCounted := by
    have := h.framesCounted
    simp only [Counters.flip]; omega
  framesBound := by
    have := h.framesBound
    simp only [Counters.flip]; omega
  bytesBound := by
    have := h.bytesBound
    simp only [Counters.flip]
    rwa [Int.add_comm v.theirs.uncounted] }

theorem release (pc : Pc) (hf : pc.pending = 0) (he : v.mine.excess v.done ≤ pc.excess v.done) :
    Accounted bytes frames { v with mine := pc } := by
  obtain ⟨hl, ha, hp, hpa, hu⟩ : pc.liveBytes v.done = 0 ∧
      pc.allowance bytes = bytes ∧ pc.pendingBytes = 0 ∧ pc.live v.done = 0 ∧
      pc.uncounted = 0 := by
    cases pc <;> first | exact ⟨rfl, rfl, rfl, rfl, rfl⟩ | cases hf
  have hby := v.mine.liveBytes_le v.done
  have hc := v.mine.live_le v.done
  have hu' := v.mine.uncounted_nonneg
  have hm := le_max_right bytes (v.theirs.allowance bytes)
  constructor <;> dsimp only
  · exact h.sent
  · rw [hl, ha, Int.add_zero]; exact h.sent
  · exact h.theirs
  · rw [hl, ha, Int.add_zero]; exact h.theirs.trans hm
  · have := h.counted
    omega
  · have := h.framesSent
    omega
  · have := h.framesCounted
    omega
  · have := h.framesBound
    omega
  · have := h.bytesBound
    rw [hu]
    unfold maxFrame at *; omega
  · exact h.positive

theorem relabel {pc : Pc} (hl : pc.liveBytes v.done = v.mine.liveBytes v.done)
    (ha : pc.allowance bytes = v.mine.allowance bytes) (hp : pc.pendingBytes = v.mine.pendingBytes)
    (hpa : pc.live v.done = v.mine.live v.done) (hh : pc.pending = v.mine.pending)
    (he : pc.excess v.done = v.mine.excess v.done) (hu : pc.uncounted = v.mine.uncounted) :
    Accounted bytes frames { v with mine := pc } := by
  constructor <;> dsimp only
  · exact h.sent
  · rw [hl, ha]; exact h.mine
  · exact h.theirs
  · rw [hl, ha]; exact h.both
  · rw [hp]; exact h.counted
  · rw [hpa]; exact h.framesSent
  · rw [hh]; exact h.framesCounted
  · rw [he]; exact h.framesBound
  · rw [hu]; exact h.bytesBound
  · exact h.positive

theorem finish : Accounted bytes frames { v with done := true } := by
  have hm := v.mine.liveBytes_done v.done
  have ht := v.theirs.liveBytes_done v.done
  constructor <;> dsimp only
  · exact h.sent
  · exact (Int.add_le_add_left hm _).trans h.mine
  · exact (Int.add_le_add_left ht _).trans h.theirs
  · refine le_trans ?_ h.both
    omega
  · exact h.counted
  · have := h.framesSent
    have := v.mine.live_done v.done
    have := v.theirs.live_done v.done
    omega
  · exact h.framesCounted
  · have := h.framesBound
    have := v.mine.excess_done v.done
    have := v.theirs.excess_done v.done
    omega
  · exact h.bytesBound
  · exact h.positive

end

theorem count (h : Accounted bytes frames { v with mine := .received f }) :
    Accounted bytes frames { v with mine := .counted f, frames := v.frames + 1 } := { h with
  framesCounted := by
    have : v.framesSent + 0 + v.theirs.pending ≤ v.frames := h.framesCounted
    change v.framesSent + 1 + v.theirs.pending ≤ v.frames + 1; omega
  framesBound := by
    have : v.frames ≤ frames + 0 + v.theirs.excess v.done := h.framesBound
    change v.frames + 1 ≤ frames + 1 + v.theirs.excess v.done; omega
  bytesBound := by
    have : v.sessionBytes + maxFrame * (0 + v.theirs.uncounted) ≤ maxFrame * v.frames :=
      h.bytesBound
    change v.sessionBytes + maxFrame * (1 + v.theirs.uncounted) ≤ maxFrame * (v.frames + 1)
    unfold maxFrame at *
    omega }

theorem add (h : Accounted bytes frames { v with mine := .counted f }) (elapsedMs : Int) :
    Accounted bytes frames { v with
      mine := .added f (v.sessionBytes + f.size) elapsedMs
      sessionBytes := v.sessionBytes + f.size } := by
  have hc : v.bytesSent + 0 + v.theirs.pendingBytes ≤ v.sessionBytes := h.counted
  have hl := v.theirs.liveBytes_le v.done
  exact { h with
    mine := by change v.bytesSent + f.size ≤ max bytes (v.sessionBytes + f.size); omega
    both := by
      change v.bytesSent + f.size + v.theirs.liveBytes v.done ≤
        max (max bytes (v.sessionBytes + f.size)) (v.theirs.allowance bytes)
      omega
    counted := by
      change v.bytesSent + f.size + v.theirs.pendingBytes ≤ v.sessionBytes + f.size
      omega
    bytesBound := by
      have : v.sessionBytes + maxFrame * (1 + v.theirs.uncounted) ≤ maxFrame * v.frames :=
        h.bytesBound
      have := Pc.size_le f
      change v.sessionBytes + f.size + maxFrame * (0 + v.theirs.uncounted) ≤ maxFrame * v.frames
      unfold maxFrame at *
      omega }

theorem pass {total : Int} (h : Accounted bytes frames { v with mine := .added f total elapsedMs })
    (hby : total ≤ bytes) (hf : v.frames ≤ frames) :
    Accounted bytes frames { v with mine := .tested f } := by
  have hl : 0 ≤ (Pc.tested f).liveBytes v.done ∧ (Pc.tested f).liveBytes v.done ≤ f.size :=
    (Pc.tested f).liveBytes_le v.done
  have hp : (Pc.tested f).live v.done ≤ 1 := ((Pc.tested f).live_le v.done).2
  have ht := v.theirs.live_le v.done
  have hfr := v.theirs.le_allowance bytes
  have hm : v.bytesSent + f.size ≤ max bytes total := h.mine
  have hbo : v.bytesSent + f.size + v.theirs.liveBytes v.done ≤
      max (max bytes total) (v.theirs.allowance bytes) := h.both
  have hc : v.framesSent + 1 + v.theirs.pending ≤ v.frames := h.framesCounted
  exact { h with
    mine := by change v.bytesSent + (Pc.tested f).liveBytes v.done ≤ bytes; omega
    both := by
      change v.bytesSent + (Pc.tested f).liveBytes v.done + v.theirs.liveBytes v.done ≤
        max bytes (v.theirs.allowance bytes)
      omega
    framesSent := by
      change v.framesSent + (Pc.tested f).live v.done + v.theirs.live v.done ≤ frames
      omega
    framesBound := by
      have := ((Pc.tested f).excess_le v.done).1
      have := (v.theirs.excess_le v.done).1
      change v.frames ≤ frames + (Pc.tested f).excess v.done + v.theirs.excess v.done
      omega }

theorem exceed {total : Int}
    (h : Accounted bytes frames { v with mine := .added f total elapsedMs }) :
    Accounted bytes frames { v with mine := .exceeded f } := { h with
  mine := by
    have : v.bytesSent ≤ bytes := h.sent
    change v.bytesSent + 0 ≤ bytes; omega
  both := by
    have : v.bytesSent + v.theirs.liveBytes v.done ≤ v.theirs.allowance bytes := h.theirs
    change v.bytesSent + 0 + v.theirs.liveBytes v.done ≤ max bytes (v.theirs.allowance bytes)
    omega }

theorem forward (h : Accounted bytes frames { v with mine := .sending f }) {pc : Pc}
    (hpc : pc = .head ∨ pc = .sent) : Accounted bytes frames { v with
      mine := pc
      bytesSent := v.bytesSent + f.size
      framesSent := v.framesSent + 1 } := by
  have hm : v.bytesSent + f.size ≤ bytes := h.mine
  have hbo : v.bytesSent + f.size + v.theirs.liveBytes v.done ≤
      max bytes (v.theirs.allowance bytes) := h.both
  have hf := v.theirs.le_allowance bytes
  have hc : v.bytesSent + f.size + v.theirs.pendingBytes ≤ v.sessionBytes := h.counted
  have hs : v.framesSent + 1 + v.theirs.live v.done ≤ frames := h.framesSent
  have hfr : v.framesSent + 1 + v.theirs.pending ≤ v.frames := h.framesCounted
  have hp := h.positive
  have hsi := Pc.size_nonneg f
  rcases hpc with rfl | rfl
  all_goals exact { h with
    sent := hm
    mine := by change v.bytesSent + f.size + 0 ≤ bytes; omega
    theirs := by
      change v.bytesSent + f.size + v.theirs.liveBytes v.done ≤ v.theirs.allowance bytes
      omega
    both := by
      change v.bytesSent + f.size + 0 + v.theirs.liveBytes v.done ≤
        max bytes (v.theirs.allowance bytes)
      omega
    counted := by change v.bytesSent + f.size + 0 + v.theirs.pendingBytes ≤ v.sessionBytes; omega
    framesSent := by change v.framesSent + 1 + 0 + v.theirs.live v.done ≤ frames; omega
    framesCounted := by change v.framesSent + 1 + 0 + v.theirs.pending ≤ v.frames; omega
    positive := ⟨by dsimp only at hp ⊢; omega, by dsimp only at hp ⊢; omega⟩ }

end Accounted

end Gateway.Server.Realtime
