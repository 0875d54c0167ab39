import Gateway.Server.LeaseAccount
import Gateway.Server.RealtimeCounters

/-! # The caps of a realtime session -/

namespace Gateway.Server.Realtime

open Pc
open List hiding head
open Protocol (toInt32)

def Side.other : Side → Side
  | .upstream => .client
  | .client => .upstream

def counters (first : Frame) (s : Session) (side : Side) : Counters where
  done := s.done
  frames := s.frames
  sessionBytes := s.sessionBytes
  bytesSent := first.size + totalSize s.forwarded
  framesSent := 1 + s.forwarded.length
  mine := s.pc side
  theirs := s.pc side.other

theorem counters_goto (first : Frame) (s : Session) (side : Side) (pc : Pc) :
    counters first (s.goto side pc) side = { counters first s side with mine := pc } := by
  cases side <;> rfl

theorem counters_other (first : Frame) (s : Session) (side : Side) :
    counters first s side.other = (counters first s side).flip := by
  cases side <;> rfl

variable {f : Frame}

section

variable {caps : Caps} {first : Frame} {s : Session}

def InCaps (caps : Caps) (first : Frame) (s : Session) : Prop :=
  ∀ side, Accounted (max first.size caps.sessionBytes) (max 1 caps.sessionFrames)
    (counters first s side)

theorem inCaps_of_side (side : Side) (h : Accounted (max first.size caps.sessionBytes)
    (max 1 caps.sessionFrames) (counters first s side)) : InCaps caps first s := by
  intro other
  by_cases ho : other = side
  · rw [ho]; exact h
  · obtain rfl : other = side.other := by cases other <;> cases side <;> first | rfl | cases ho rfl
    rw [counters_other]; exact h.flip

variable {c : Context} {side : Side}

theorem InCaps.goto {s' : Session} {pc : Pc}
    (h : Accounted (max first.size caps.sessionBytes) (max 1 caps.sessionFrames)
      { counters first s side with mine := pc })
    (hs : counters first s' side = counters first s side) :
    InCaps caps first (s'.goto side pc) := by
  apply inCaps_of_side side
  rw [counters_goto, hs]
  exact h

theorem receive_inCaps (h : InCaps caps first s) (hpc : s.pc side = .receiving)
    (received : Received) : InCaps caps first (receive side received s) := by
  have hm : ∀ pc : Pc, pc.pending = 0 → ∀ s' : Session,
      counters first s' side = counters first s side → InCaps caps first (s'.goto side pc) := by
    intro pc hf s' hs
    refine InCaps.goto ((h side).release pc hf ?_) hs
    change (s.pc side).excess s.done ≤ pc.excess s.done
    rw [hpc]; exact (pc.excess_le s.done).1
  cases side with
  | upstream =>
    cases received with
    | failed => exact hm _ rfl s rfl
    | frame f =>
      change InCaps caps first (s.goto .upstream (if _ then _ else _))
      split <;> exact hm _ rfl s rfl
  | client =>
    cases received with
    | failed => exact hm _ rfl _ rfl
    | frame f =>
      change InCaps caps first (if _ then _ else s.goto .client (if _ then _ else _))
      split
      · exact hm _ rfl _ rfl
      · split <;> exact hm _ rfl s rfl

theorem counters_forwarded (first f : Frame) (s : Session) (side : Side) :
    counters first { s with forwarded := s.forwarded ++ [f] } side =
      { counters first s side with
        bytesSent := (counters first s side).bytesSent + f.size
        framesSent := (counters first s side).framesSent + 1 } := by
  unfold counters
  rw [totalSize_snoc, length_append, Int.add_assoc, Int.add_assoc]
  cases side <;> rfl

theorem send_inCaps (h : InCaps caps first s) (hpc : s.pc side = .sending f) (sends : Bool) :
    InCaps caps first (send c side f sends s) := by
  have hs : Accounted (max first.size caps.sessionBytes) (max 1 caps.sessionFrames)
      { counters first s side with mine := .sending f } := hpc ▸ h side
  have hf : ∀ (pc : Pc) (s' : Session), pc = .head ∨ pc = .sent →
      counters first s' side =
        counters first { s with forwarded := s.forwarded ++ [f] } side →
      InCaps caps first (s'.goto side pc) := by
    intro pc s' he hsa
    apply inCaps_of_side side
    rw [counters_goto, hsa, counters_forwarded]; exact hs.forward he
  have hn : ∀ sends : Bool, (if sends then sent else .head) = .head ∨
      (if sends then sent else .head) = .sent := by decide
  unfold send
  split
  · cases side with
    | upstream =>
      dsimp only
      split
      · exact hf _ _ (hn sends) rfl
      · exact hf _ _ (hn sends) rfl
    | client => exact hf _ _ (.inl rfl) rfl
  · refine InCaps.goto ((h side).release .head rfl ?_) rfl
    change (s.pc side).excess s.done ≤ 0
    rw [hpc]; exact le_rfl

theorem toInt32_of_lt {n : Int} (hl : 0 ≤ n) (hh : n < 2 ^ 31) : toInt32 n = n :=
  Int.bmod_eq_of_le (by omega) (by omega)

theorem toInt64_of_lt {n : Int} (hl : 0 ≤ n) (hh : n < 2 ^ 63) : toInt64 n = n :=
  Int.bmod_eq_of_le (by omega) (by omega)

theorem Accounted.frames_fit {bytes frames : Int} {v : Counters}
    (h : Accounted bytes frames { v with mine := .received f }) (hc : frames + 2 < 2 ^ 31) :
    toInt32 (v.frames + 1) = v.frames + 1 := by
  have hco : v.framesSent + 0 + v.theirs.pending ≤ v.frames := h.framesCounted
  have hbo : v.frames ≤ frames + 0 + v.theirs.excess v.done := h.framesBound
  have hp : 1 ≤ v.framesSent := h.positive.1
  have hpe := v.theirs.live_le v.done
  have he := v.theirs.excess_le v.done
  exact toInt32_of_lt (by omega) (by omega)

theorem Accounted.bytes_fit {bytes frames : Int} {v : Counters}
    (h : Accounted bytes frames { v with mine := .counted f }) (hc : frames + 2 < 2 ^ 31) :
    toInt64 (v.sessionBytes + f.size) = v.sessionBytes + f.size := by
  have hco : v.bytesSent + 0 + v.theirs.pendingBytes ≤ v.sessionBytes := h.counted
  have hbo : v.frames ≤ frames + 1 + v.theirs.excess v.done := h.framesBound
  have hby : v.sessionBytes + maxFrame * (1 + v.theirs.uncounted) ≤ maxFrame * v.frames :=
    h.bytesBound
  have hp : 0 ≤ v.bytesSent := h.positive.2
  have hpe := v.theirs.liveBytes_le v.done
  have he := v.theirs.excess_le v.done
  have hu := v.theirs.uncounted_nonneg
  have hl := size_nonneg f
  have hh := size_le f
  unfold maxFrame at hby hh
  exact toInt64_of_lt (by omega) (by omega)

theorem step_inCaps (hc : max 1 c.caps.sessionFrames + 2 < 2 ^ 31) (h : InCaps c.caps first s)
    (e : Event) : InCaps c.caps first (step c s e) := by
  have hm := h e.side
  set v := counters first s e.side with hv
  have hat : ∀ pc : Pc, s.pc e.side = pc → v = { v with mine := pc } := by rintro _ rfl; rfl
  unfold step
  cases hpc : s.pc e.side with
  | head =>
    refine InCaps.goto (hm.release _ ?_ ?_) rfl
    · split <;> rfl
    · rw [hat _ hpc]; exact (excess_le _ _).1
  | receiving => exact receive_inCaps h hpc e.received
  | received f =>
    rw [hat _ hpc] at hm
    have hfr : toInt32 (s.frames + 1) = s.frames + 1 := hm.frames_fit hc
    dsimp only
    rw [hfr]
    apply inCaps_of_side e.side
    rw [counters_goto]; exact hm.count
  | counted f =>
    rw [hat _ hpc] at hm
    have hby : toInt64 (s.sessionBytes + f.size) = s.sessionBytes + f.size := hm.bytes_fit hc
    dsimp only
    rw [hby]
    apply inCaps_of_side e.side
    rw [counters_goto]; exact hm.add e.elapsedMs
  | added f total elapsedMs =>
    rw [hat _ hpc] at hm
    apply InCaps.goto (s := s) _ rfl
    by_cases he : c.caps.areExceeded total s.frames elapsedMs
    · rw [if_pos he]; exact hm.exceed
    · rw [if_neg he]
      simp only [Caps.areExceeded, Bool.or_eq_true, decide_eq_true_eq, not_or, not_lt] at he
      exact hm.pass (le_max_of_le_right he.1.1) (le_max_of_le_right he.1.2)
  | exceeded f =>
    rw [hat _ hpc] at hm
    exact InCaps.goto (s := s) (hm.relabel rfl rfl rfl rfl rfl rfl rfl) rfl
  | capped f =>
    rw [hat _ hpc] at hm
    exact InCaps.goto (s := { s with done := true })
      (hm.finish.relabel rfl rfl rfl rfl rfl rfl rfl) rfl
  | tested f =>
    rw [hat _ hpc] at hm
    apply InCaps.goto (s := s) _ rfl
    cases hd : s.done with
    | true =>
      refine hm.release .leaving rfl ?_
      exact (excess_le _ _).2
    | false =>
      have hfa : v.done = false := hd
      refine hm.relabel ?_ rfl rfl ?_ rfl ?_ rfl <;> dsimp only <;> rw [hfa] <;> rfl
  | sending f => exact send_inCaps h hpc e.sends
  | sent =>
    have hf := hm.release .head rfl (by rw [hat _ hpc]; exact le_rfl)
    dsimp only
    unfold outputEvidence
    split
    · exact InCaps.goto hf rfl
    · exact InCaps.goto hf rfl
  | leaving =>
    rw [hat _ hpc] at hm
    exact InCaps.goto (s := { s with done := true })
      (hm.finish.relabel rfl rfl rfl rfl rfl rfl rfl) rfl
  | ended => exact h

theorem startSession_inCaps (caps : Caps) (first : Frame) (b : Bridge) :
    InCaps caps first (startSession first b) := by
  apply inCaps_of_side .client
  have hl := size_nonneg first
  have hh := size_le first
  have hby : first.size ≤ max first.size caps.sessionBytes := le_max_left _ _
  have hf : 1 ≤ max 1 caps.sessionFrames := le_max_left _ _
  constructor <;> simp only [counters, startSession, Session.pc, Side.other, totalSize, map_nil,
    sum_nil, length_nil, Int.add_zero, liveBytes, allowance, pendingBytes,
    live, pending, excess, uncounted] <;> omega

theorem run_inCaps (hc : max 1 c.caps.sessionFrames + 2 < 2 ^ 31) (h : InCaps c.caps first s)
    (events : List Event) : InCaps c.caps first (run c events s) := by
  induction events generalizing s with
  | nil => exact h
  | cons e events ih => exact ih (step_inCaps hc h e)

end

theorem run_within_caps (c : Context) (first : Frame) (b : Bridge) (events : List Event)
    (hcap : c.caps.sessionFrames ≤ 2 ^ 31 - 3) :
    first.size + totalSize (run c events (startSession first b)).forwarded ≤
        max first.size c.caps.sessionBytes ∧
      1 + ((run c events (startSession first b)).forwarded.length : Int) ≤
        max 1 c.caps.sessionFrames := by
  have h := run_inCaps (c := c) (by omega) (startSession_inCaps c.caps first b) events .client
  have hframes := h.framesSent
  have hmine := (live_le (run c events (startSession first b)).done
    (counters first (run c events (startSession first b)) .client).mine).1
  have htheirs := (live_le (run c events (startSession first b)).done
    (counters first (run c events (startSession first b)) .client).theirs).1
  refine ⟨h.sent, ?_⟩
  change 1 + ((run c events (startSession first b)).forwarded.length : Int) + _ + _ ≤ _ at hframes
  exact (Int.le_add_of_nonneg_right hmine).trans
    ((Int.le_add_of_nonneg_right htheirs).trans hframes)

def oneByte : Frame := ⟨.binary, [0], by decide⟩

def relayOne : List Event :=
  [{ side := .client }, { side := .client, received := .frame oneByte }, { side := .client },
    { side := .client }, { side := .client }, { side := .client }, { side := .client }]

def twoFrames : Context where
  world := refusingProvider (.ofTable [] []) {}
  caps := { sessionFrames := 2 }
  lease := "lease-1"

theorem relay_within_caps :
    (run twoFrames (relayOne ++ relayOne) (startSession oneByte {})).forwarded.length = 1 ∧
      oneByte.size + totalSize
          (run twoFrames (relayOne ++ relayOne) (startSession oneByte {})).forwarded ≤
        max oneByte.size twoFrames.caps.sessionBytes ∧
      1 + ((run twoFrames (relayOne ++ relayOne) (startSession oneByte {})).forwarded.length :
        Int) ≤ max 1 twoFrames.caps.sessionFrames :=
  ⟨by decide, run_within_caps twoFrames oneByte {} (relayOne ++ relayOne) (by decide)⟩

theorem toInt32_le (n : Int) : toInt32 n ≤ 2 ^ 31 - 1 := by
  have : n.bmod (2 ^ 32) < (2 ^ 32 + 1) / 2 := Int.bmod_lt (by decide)
  unfold toInt32
  omega

def wideCaps : Caps where
  sessionBytes := 2 ^ 62
  sessionFrames := 2 ^ 31 - 1

structure Relayed (n : Nat) (s : Session) : Prop where
  client : s.client = .head
  done : s.done = false
  sessionBytes : s.sessionBytes = n + 1
  forwarded : s.forwarded.length = n

theorem relayOne_relayed {c : Context} (hc : c.caps = wideCaps) {n : Nat} (hn : n < 2 ^ 32)
    {s : Session} (h : Relayed n s) : Relayed (n + 1) (run c relayOne s) := by
  have hby : toInt64 (s.sessionBytes + oneByte.size) = n + 1 + 1 := by
    have hs : oneByte.size = 1 := rfl
    rw [h.sessionBytes, hs]; exact toInt64_of_lt (by omega) (by omega)
  have hp : c.caps.areExceeded (n + 1 + 1) (toInt32 (s.frames + 1)) 0 = false := by
    have := toInt32_le (s.frames + 1)
    simp only [hc, Caps.areExceeded, wideCaps, Bool.or_eq_false_iff, decide_eq_false_iff_not]
    omega
  have ha : run c (relayOne.take 4) s = { s with
      frames := toInt32 (s.frames + 1)
      sessionBytes := n + 1 + 1
      client := .added oneByte (n + 1 + 1) 0 } := by
    rw [← hby]
    obtain ⟨log, clockCalls, done, gone, frames, bytes, tokens, recorded, exceeded, upstream,
      client,
      forwarded⟩ := s
    obtain rfl : client = .head := h.client
    obtain rfl : done = false := h.done
    rfl
  have hsp : run c relayOne s = run c (relayOne.drop 4) (run c (relayOne.take 4) s) := by
    rw [run, run, run, ← foldl_append, take_append_drop]
  rw [hsp, ha]
  simp only [run, relayOne, drop, foldl_cons, foldl_nil, step, Session.pc,
    Session.goto, hp, Bool.false_eq_true, if_false, h.done, send, oneByte]
  exact ⟨rfl, rfl, by push_cast; rfl, by simp [h.forwarded, Session.emit]⟩

theorem relay_relayed {c : Context} (hc : c.caps = wideCaps) {s : Session} (h : Relayed 0 s) :
    ∀ {n : Nat}, n ≤ 2 ^ 32 → Relayed n (run c (replicate n relayOne).flatten s)
  | 0, _ => h
  | n + 1, hn => by
    have ih := relay_relayed hc h (Nat.le_of_succ_le hn)
    rw [replicate_succ', flatten_append, flatten_singleton, run, foldl_append]
    exact relayOne_relayed hc hn ih

theorem wideCaps_overrun : ∃ events, ∀ c : Context, c.caps = wideCaps → ∀ b : Bridge,
    max 1 wideCaps.sessionFrames <
      1 + ((run c events (startSession oneByte b)).forwarded.length : Int) := by
  refine ⟨(replicate (2 ^ 31) relayOne).flatten, fun c hcaps b => ?_⟩
  have hstart : Relayed 0 (startSession oneByte b) := ⟨rfl, rfl, rfl, rfl⟩
  rw [(relay_relayed hcaps hstart (by decide)).forwarded]
  decide

end Gateway.Server.Realtime
