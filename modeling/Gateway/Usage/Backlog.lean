import Mathlib.Algebra.BigOperators.Group.List.Basic
import Gateway.Usage.ReporterPass

/-! # The gauge of the backlog -/

namespace Gateway.Usage

open Lib Dispatch UsageRow
open List hiding beq_eq_decide

def UsageOutbox.pending (t : UsageOutbox) : Nat := (t.rows.filter isPending).length

def UsageOutbox.hasRow (t : UsageOutbox) (lease : Bytes) : Bool :=
  (t.rows.map key).contains lease

def UsageOutbox.hasPending (t : UsageOutbox) (lease : Bytes) : Bool :=
  (t.rows.filter isPending).any (·.key = lease)

structure Core where
  usage : UsageOutbox
  batch : List UsageEvent := []

structure Process where
  cores : List Core := []
  buffered : Int := 0

inductive BacklogAction where
  | startUp (usage : UsageOutbox)
  | handleRecord (core : Nat) (now : Int) (event : UsageEvent)
  | bridgeRecord (core : Nat) (now : Int) (event : UsageEvent)
  | peek (core : Nat)
  | settle (core : Nat) (now : Int) (ack : RpcAck)

namespace Core

def record (now : Int) (event : UsageEvent) (c : Core) : Core :=
  { c with usage := c.usage.record now event }

def peek (c : Core) : Core :=
  match c.batch with
  | [] => { c with batch := c.usage.peek 100 }
  | _ :: _ => c

def settle (now : Int) (ack : RpcAck) (c : Core) : Core :=
  match c.batch with
  | [] => c
  | report :: rest => { usage := System.settled now report.leaseToken ack c.usage, batch := rest }

def settled (ack : RpcAck) (c : Core) : Int :=
  match c.batch with
  | [] => 0
  | _ :: _ => if Pass.resolves ack then 1 else 0

end Core

namespace Process

def onCore (i : Nat) (f : Core → Core) (change : Core → Int) (s : Process) : Process :=
  match s.cores[i]? with
  | some c => { cores := s.cores.set i (f c), buffered := s.buffered + change c }
  | none => s

def step (s : Process) : BacklogAction → Process
  | .startUp usage => { cores := s.cores ++ [{ usage }], buffered := s.buffered + usage.pending }
  | .handleRecord i now event => s.onCore i (Core.record now event) fun _ => 1
  | .bridgeRecord i now event => s.onCore i (Core.record now event) fun _ => 0
  | .peek i => s.onCore i Core.peek fun _ => 0
  | .settle i now ack => s.onCore i (Core.settle now ack) fun c => - c.settled ack

def run (actions : List BacklogAction) : Process := actions.foldl step {}

def pending (s : Process) : Int := (s.cores.map fun c => (c.usage.pending : Int)).sum

def quiet (s : Process) : Bool := s.cores.all fun c => c.batch.isEmpty

end Process

def BacklogAction.drift (s : Process) : BacklogAction → Int
  | .startUp _ => 0
  | .handleRecord i _ event =>
    match s.cores[i]? with
    | some c => if c.usage.hasRow event.leaseToken then 1 else 0
    | none => 0
  | .bridgeRecord i _ event =>
    match s.cores[i]? with
    | some c => if c.usage.hasRow event.leaseToken then 0 else -1
    | none => 0
  | .peek _ => 0
  | .settle i _ ack =>
    match s.cores[i]? with
    | some { usage, batch := report :: _ } =>
      if Pass.resolves ack && !usage.hasPending report.leaseToken then -1 else 0
    | _ => 0

def Process.driftOf (s : Process) : List BacklogAction → Int
  | [] => 0
  | a :: actions => a.drift s + driftOf (s.step a) actions

namespace UsageOutbox
variable (t : UsageOutbox)

theorem pending_eq_length : t.pending = t.pendingRows.length :=
  (length_insertionSort _ _).symm

theorem hasPending_iff {lease : Bytes} : t.hasPending lease ↔ lease ∈ t.pendingRows.map key := by
  simp [hasPending, pendingRows, and_assoc]

theorem pending_record (now : Int) (event : UsageEvent) : ((t.record now event).pending : Int) =
      t.pending + if t.hasRow event.leaseToken then 0 else 1 := by
  unfold record KeyedTable.insertNew hasRow
  split
  · next hr =>
    have hr : (t.rows.map key).contains event.leaseToken := contains_iff_mem.2 hr
    rw [if_pos hr, Int.add_zero]
  · next hr =>
    have hr : ¬ (t.rows.map key).contains event.leaseToken := mt contains_iff_mem.1 hr
    rw [if_neg hr, pending, pending, filter_append, length_append]; rfl

theorem length_pendingRows_key (lease : Bytes) :
    (t.pendingRows.filter fun row => row.key = lease).length =
      if t.hasPending lease then 1 else 0 := by
  have hc := t.nodup_pendingRows.count (a := lease)
  rw [List.count, countP_map, countP_eq_length_filter] at hc
  rw [if_congr t.hasPending_iff rfl rfl, ← hc]
  exact congrArg List.length (filter_congr fun row _ => (beq_eq_decide ..).symm)

theorem pending_settled (now : Int) (lease : Bytes) (ack : RpcAck) :
    ((System.settled now lease ack t).pending : Int) =
      t.pending - if Pass.resolves ack && t.hasPending lease then 1 else 0 := by
  rw [pending_eq_length, pending_eq_length, pendingRows_settled]
  cases hr : Pass.resolves ack with
  | false => simp
  | true =>
    have hs := length_eq_length_filter_add (l := t.pendingRows) fun row => row.key = lease
    rw [length_pendingRows_key] at hs
    simp only [Bool.true_and]
    split <;> simp_all

end UsageOutbox

namespace Process
variable {s : Process}

theorem pending_onCore {i : Nat} {c : Core} (hc : s.cores[i]? = some c) (f : Core → Core)
    (change : Core → Int) :
    (s.onCore i f change).pending = s.pending - c.usage.pending + (f c).usage.pending ∧
      (s.onCore i f change).buffered = s.buffered + change c := by
  obtain ⟨hi, hg⟩ := List.getElem?_eq_some_iff.1 hc
  unfold onCore
  rw [hc]
  refine ⟨?_, rfl⟩
  rw [pending, map_set, sum_set', dif_pos (by simpa using hi), getElem_map, hg, pending]
  omega

theorem onCore_none {i : Nat} (hc : s.cores[i]? = none) (f : Core → Core) (change : Core → Int) :
    s.onCore i f change = s := by
  unfold onCore
  rw [hc]

theorem drift_step (s : Process) (a : BacklogAction) :
    (s.step a).buffered - (s.step a).pending = s.buffered - s.pending + a.drift s := by
  cases a with
  | startUp usage =>
    simp only [step, pending, BacklogAction.drift, map_append, sum_append, map_cons,
      map_nil, sum_cons, sum_nil]
    omega
  | handleRecord i now event =>
    cases hc : s.cores[i]? with
    | none => simp [step, onCore_none hc, BacklogAction.drift, hc]
    | some c =>
      obtain ⟨hp, hbu⟩ := pending_onCore hc (Core.record now event) fun _ => 1
      have ht := c.usage.pending_record now event
      simp only [step, BacklogAction.drift, hc]
      rw [hp, hbu, Core.record, ht]
      split <;> omega
  | bridgeRecord i now event =>
    cases hc : s.cores[i]? with
    | none => simp [step, onCore_none hc, BacklogAction.drift, hc]
    | some c =>
      obtain ⟨hp, hbu⟩ := pending_onCore hc (Core.record now event) fun _ => 0
      have ht := c.usage.pending_record now event
      simp only [step, BacklogAction.drift, hc]
      rw [hp, hbu, Core.record, ht]
      split <;> omega
  | peek i =>
    cases hc : s.cores[i]? with
    | none => simp [step, onCore_none hc, BacklogAction.drift]
    | some c =>
      obtain ⟨hp, hbu⟩ := pending_onCore hc Core.peek fun _ => 0
      have ht : (Core.peek c).usage = c.usage := by
        unfold Core.peek
        split <;> rfl
      simp only [step, BacklogAction.drift]
      rw [hp, hbu, ht]; omega
  | settle i now ack =>
    cases hc : s.cores[i]? with
    | none => simp [step, onCore_none hc, BacklogAction.drift, hc]
    | some c =>
      obtain ⟨hp, hbu⟩ := pending_onCore hc (Core.settle now ack) fun c => - c.settled ack
      simp only [step]
      rw [hp, hbu]
      obtain ⟨usage, _ | ⟨report, rest⟩⟩ := c
      · simp [BacklogAction.drift, hc, Core.settle, Core.settled]
      · have ht := usage.pending_settled now report.leaseToken ack
        simp only [BacklogAction.drift, hc, Core.settle, Core.settled]
        rw [ht]
        cases Pass.resolves ack <;> cases usage.hasPending report.leaseToken <;> simp <;> omega

theorem drift_run (s : Process) (actions : List BacklogAction) :
    (actions.foldl step s).buffered - (actions.foldl step s).pending =
      s.buffered - s.pending + driftOf s actions := by
  induction actions generalizing s with
  | nil => simp [driftOf]
  | cons a actions ih => rw [foldl_cons, ih, drift_step, driftOf, Int.add_assoc]

theorem buffered_eq (actions : List BacklogAction) :
    (run actions).buffered = (run actions).pending + driftOf {} actions := by
  have h := drift_run {} actions
  have hs : (0 : Int) - pending {} = 0 := rfl
  rw [hs, Int.zero_add] at h
  rw [run]
  omega

def GaugeExact (actions : List BacklogAction) : Prop :=
  ∀ earlier, earlier <+: actions → 0 ≤ (run earlier).buffered ∧
    ((run earlier).quiet = true → (run earlier).buffered = (run earlier).pending)

def Balanced (actions : List BacklogAction) : Prop :=
  ∀ earlier, earlier <+: actions → - driftOf {} earlier ≤ (run earlier).pending ∧
    ((run earlier).quiet = true → driftOf {} earlier = 0)

theorem gauge_exact_iff (actions : List BacklogAction) : GaugeExact actions ↔ Balanced actions := by
  refine forall₂_congr fun earlier _ => ?_
  have hbuffered := buffered_eq earlier
  constructor
  · rintro ⟨hnonneg, hquiet⟩; exact ⟨by omega, fun h => by have := hquiet h; omega⟩
  · rintro ⟨hnonneg, hquiet⟩; exact ⟨by omega, fun h => by have := hquiet h; omega⟩

theorem realtime_wraps :
    ¬ GaugeExact [.startUp .empty, .bridgeRecord 0 0 { leaseToken := "lease" }, .peek 0,
      .settle 0 1 { accepted := true }] := by
  intro h
  have hwrap := (h _ (prefix_refl _)).1
  revert hwrap
  decide

end Process

end Gateway.Usage
