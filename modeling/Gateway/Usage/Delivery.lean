import Gateway.Dispatch.Client
import Gateway.Usage.Collector

/-! # Delivery of usage reports -/

namespace Gateway.Usage

open Lib Dispatch UsageRow KeyedTable UsageOutbox List

structure Request where
  id : Nat
  report : UsageEvent

structure Reply where
  id : Nat
  report : UsageEvent
  frame : Bytes

inductive Reporter where
  | sleeping
  | flushing (batch : List UsageEvent)
  | connecting (report : UsageEvent) (rest : List UsageEvent) (attempt : Nat)
  | waiting (report : UsageEvent) (rest : List UsageEvent) (attempt id : Nat)
  | answered (report : UsageEvent) (rest : List UsageEvent) (ack : RpcAck)

structure System where
  usage : UsageOutbox := .empty
  reporter : Reporter := .sleeping
  requests : List Request := []
  replies : List Reply := []
  nextId : Nat := 0
  applied : List UsageEvent := []
  answers : List (Bytes × RpcAck) := []
  recorded : List UsageEvent := []

namespace System

variable (s : System)

def record (now : Int) (event : UsageEvent) (s : System) : System :=
  { s with usage := s.usage.record now event, recorded := s.recorded ++ [event] }

def post (report : UsageEvent) (s : System) : System :=
  { s with requests := s.requests ++ [{ id := s.nextId, report }], nextId := s.nextId + 1 }

def peek (s : System) : System :=
  match s.reporter with
  | .sleeping => { s with reporter := .flushing (s.usage.peek 100) }
  | _ => s

def next : System :=
  match s.reporter with
  | .flushing [] => { s with reporter := .sleeping }
  | .flushing (report :: rest) => { s with reporter := .connecting report rest 0 }
  | _ => s

def unreachable : System :=
  match s.reporter with
  | .connecting report rest _ => { s with reporter := .answered report rest .invalid }
  | _ => s

def send : System :=
  match s.reporter with
  | .connecting report rest attempt =>
    { s.post report with reporter := .waiting report rest attempt s.nextId }
  | _ => s

def retry (report : UsageEvent) (rest : List UsageEvent) (attempt : Nat) : Reporter :=
  if attempt + 1 < 2 then .connecting report rest (attempt + 1) else .answered report rest .invalid

def attemptFails : System :=
  match s.reporter with
  | .connecting report rest attempt => { s with reporter := retry report rest attempt }
  | .waiting report rest attempt _ => { s with reporter := retry report rest attempt }
  | _ => s

def readable (frame : Bytes) : Bool := frame ≠ [] && frame.length ≤ 1024 * 1024

def afterFrame (wire : Bytes → Option RpcAck) (report : UsageEvent) (rest : List UsageEvent)
    (attempt : Nat) (frame : Bytes) : Reporter :=
  if readable frame then
    match parseAck wire usageAnswer frame with
    | some ack => .answered report rest ack
    | none => .sleeping
  else retry report rest attempt

def receive (wire : Bytes → Option RpcAck) (s : System) : System :=
  match s.reporter with
  | .waiting report rest attempt id =>
    match s.replies.find? (·.id = id) with
    | some reply => { s with reporter := afterFrame wire report rest attempt reply.frame }
    | none => s
  | _ => s

def settled (now : Int) (leaseToken : Bytes) (ack : RpcAck) (usage : UsageOutbox) : UsageOutbox :=
  if ack.acknowledged then usage.acknowledge leaseToken
  else if !ack.retryable then usage.deadLetter now leaseToken ack.errorCode
  else usage

def settle (now : Int) (s : System) : System :=
  match s.reporter with
  | .answered report rest ack =>
    { s with usage := settled now report.leaseToken ack s.usage, reporter := .flushing rest }
  | _ => s

def appliedAfter (apply : Bool) (report : UsageEvent) (applied : List UsageEvent) :
    List UsageEvent :=
  if apply ∧ report.leaseToken ∉ applied.map UsageEvent.leaseToken then applied ++ [report]
  else applied

def platform (wire : Bytes → Option RpcAck) (id : Nat) (apply : Bool) (frame : Bytes) (s : System) :
    System :=
  match s.requests.find? (·.id = id) with
  | none => s
  | some request =>
    let lease := request.report.leaseToken
    let applied := appliedAfter apply request.report s.applied
    let answer := parseAck wire usageAnswer frame
    if answer.any RpcAck.acknowledged ∧ lease ∉ applied.map UsageEvent.leaseToken then s
    else
      { s with
        requests := s.requests.filter (·.id ≠ id)
        replies := s.replies ++ [{ id, report := request.report, frame }]
        applied
        answers := s.answers ++ answer.toList.map (lease, ·) }

inductive Action where
  | record (now : Int) (event : UsageEvent)
  | reportDirectly (event : UsageEvent)
  | peek
  | next
  | unreachable
  | send
  | attemptFails
  | receive
  | settle (now : Int)
  | restart
  | platform (id : Nat) (apply : Bool) (frame : Bytes)
  | loseRequest (id : Nat)
  | loseReply (id : Nat)

def step (wire : Bytes → Option RpcAck) (s : System) : Action → System
  | .record now event => s.record now event
  | .reportDirectly event => s.post event
  | .peek => s.peek
  | .next => s.next
  | .unreachable => s.unreachable
  | .send => s.send
  | .attemptFails => s.attemptFails
  | .receive => s.receive wire
  | .settle now => s.settle now
  | .restart => { s with reporter := .sleeping }
  | .platform id apply frame => s.platform wire id apply frame
  | .loseRequest id => { s with requests := s.requests.filter (·.id ≠ id) }
  | .loseReply id => { s with replies := s.replies.filter (·.id ≠ id) }

def run (wire : Bytes → Option RpcAck) (actions : List Action) : System :=
  actions.foldl (step wire) {}

end System

variable {reporter : Reporter}

namespace System

variable (s : System)

variable (e : UsageEvent)

def FirstFor : Prop :=
  s.recorded.find? (·.leaseToken = e.leaseToken) = some e

def Pending : Prop :=
  ∃ row ∈ s.usage.rows, row.event = e ∧ row.isPending

def Acknowledged (lease : Bytes) : Prop :=
  ∃ ack, (lease, ack) ∈ s.answers ∧ ack.acknowledged

def DeadLettered : Prop :=
  ∃ ack, (e.leaseToken, ack) ∈ s.answers ∧ ack.refused ∧
    ∃ row ∈ s.usage.rows, row.event = e ∧ row.deadLetteredAt.isSome ∧
      row.deadLetterError = ack.errorCode

def Kept : Prop :=
  s.Pending e ∨ s.Acknowledged e.leaseToken ∨ s.DeadLettered e

def ExchangeSound : Reporter → Prop
  | .waiting report _ _ id =>
    id < s.nextId ∧ (∀ q ∈ s.requests, q.id = id → q.report = report) ∧
      ∀ r ∈ s.replies, r.id = id → r.report = report
  | .answered report _ ack => ack = .invalid ∨ (report.leaseToken, ack) ∈ s.answers
  | _ => True

structure Sound (wire : Bytes → Option RpcAck) (s : System) : Prop where
  kept : ∀ e, s.FirstFor e → s.Kept e
  row_recorded : ∀ row ∈ s.usage.rows, row.key ∈ s.recorded.map UsageEvent.leaseToken
  applied_nodup : (s.applied.map UsageEvent.leaseToken).Nodup
  applied_of_acknowledged : ∀ lease, s.Acknowledged lease →
    lease ∈ s.applied.map UsageEvent.leaseToken
  request_id_lt : ∀ q ∈ s.requests, q.id < s.nextId
  reply_id_lt : ∀ r ∈ s.replies, r.id < s.nextId
  reply_answered : ∀ r ∈ s.replies, ∀ ack, parseAck wire usageAnswer r.frame = some ack →
    (r.report.leaseToken, ack) ∈ s.answers
  exchange : s.ExchangeSound s.reporter

theorem sound_start (wire : Bytes → Option RpcAck) : Sound wire {} where
  kept := by intro e h; cases h
  row_recorded := by intro row h; cases h
  applied_nodup := nodup_nil
  applied_of_acknowledged := by rintro lease ⟨ack, h, -⟩; cases h
  request_id_lt := by intro q h; cases h
  reply_id_lt := by intro r h; cases h
  reply_answered := by intro r h; cases h
  exchange := trivial

section

variable {wire : Bytes → Option RpcAck} {s : System}

theorem ExchangeSound.mono {s' : System} (h : s.ExchangeSound reporter) (hid : s.nextId ≤ s'.nextId)
    (hq : ∀ q ∈ s'.requests, q ∈ s.requests ∨ s.nextId ≤ q.id)
    (hr : ∀ r ∈ s'.replies, r ∈ s.replies ∨ ∃ q ∈ s.requests, q.id = r.id ∧ q.report = r.report)
    (ha : s.answers ⊆ s'.answers) : s'.ExchangeSound reporter := by
  cases reporter with
  | sleeping | flushing | connecting => trivial
  | waiting report rest attempt id =>
    obtain ⟨hlt, hre, hrep⟩ := h
    refine ⟨by omega, fun q hm heq => ?_, fun r hm heq => ?_⟩
    · rcases hq q hm with hold | hn
      · exact hre q hold heq
      · omega
    · rcases hr r hm with hold | ⟨q, hm', hid', hr'⟩
      · exact hrep r hold heq
      · rw [← hr']; exact hre q hm' (hid'.trans heq)
  | answered report rest ack => exact h.imp_right fun hm => ha hm

theorem Sound.withReporter (h : Sound wire s) (hr : s.ExchangeSound reporter) :
    Sound wire { s with reporter := reporter } := { h with
  exchange := by cases reporter <;> exact hr }

theorem Sound.withTransit (h : Sound wire s) {requests : List Request} {replies : List Reply}
    (hq : requests ⊆ s.requests) (hr : replies ⊆ s.replies) :
    Sound wire { s with requests := requests, replies := replies } := { h with
  request_id_lt q hm := h.request_id_lt q (hq hm)
  reply_id_lt r hm := h.reply_id_lt r (hr hm)
  reply_answered r hm := h.reply_answered r (hr hm)
  exchange := h.exchange.mono (Nat.le_refl _) (fun _ hm => .inl (hq hm))
    (fun _ hm => .inl (hr hm)) (List.Subset.refl _) }

theorem Sound.post (h : Sound wire s) (report : UsageEvent) : Sound wire (s.post report) := { h with
  request_id_lt q hm := by
    rcases mem_append.1 hm with hold | hn
    · exact Nat.lt_succ_of_lt (h.request_id_lt q hold)
    · rw [mem_singleton.1 hn]; exact Nat.lt_succ_self s.nextId
  reply_id_lt r hm := Nat.lt_succ_of_lt (h.reply_id_lt r hm)
  exchange := by
    refine h.exchange.mono (Nat.le_succ _) (fun q hm => ?_) (fun _ => .inl) (List.Subset.refl _)
    rcases mem_append.1 hm with hold | hn
    · exact .inl hold
    · exact .inr (Nat.le_of_eq (by rw [mem_singleton.1 hn])) }

theorem exchangeSound_retry (s : System) (report : UsageEvent) (rest : List UsageEvent)
    (attempt : Nat) : s.ExchangeSound (retry report rest attempt) := by
  unfold retry
  split
  · trivial
  · exact .inl rfl

section

variable (h : Sound wire s)

include h

theorem Sound.peek : Sound wire s.peek := by
  unfold System.peek
  split
  · exact h.withReporter trivial
  · exact h

theorem Sound.next : Sound wire s.next := by
  unfold System.next
  split
  · exact h.withReporter trivial
  · exact h.withReporter trivial
  · exact h

theorem Sound.unreachable : Sound wire s.unreachable := by
  unfold System.unreachable
  split
  · exact h.withReporter (.inl rfl)
  · exact h

theorem Sound.send : Sound wire s.send := by
  unfold System.send
  split
  · next report rest attempt _ =>
    refine (h.post report).withReporter ⟨Nat.lt_succ_self s.nextId, fun q hm hid => ?_,
      fun r hm hid => ?_⟩
    · rcases mem_append.1 hm with hold | hn
      · exact absurd hid (Nat.ne_of_lt (h.request_id_lt q hold))
      · rw [mem_singleton.1 hn]
    · exact absurd hid (Nat.ne_of_lt (h.reply_id_lt r hm))
  · exact h

theorem Sound.attemptFails : Sound wire s.attemptFails := by
  unfold System.attemptFails
  split
  · exact h.withReporter (exchangeSound_retry s _ _ _)
  · exact h.withReporter (exchangeSound_retry s _ _ _)
  · exact h

theorem Sound.receive : Sound wire (s.receive wire) := by
  unfold System.receive
  split
  · next report rest attempt id hw =>
    cases hf : s.replies.find? (·.id = id) with
    | none => exact h
    | some reply =>
      have hex := h.exchange
      rw [hw] at hex
      have hm : reply ∈ s.replies := mem_of_find?_eq_some hf
      have hid : reply.id = id := by simpa using find?_some hf
      have hr : reply.report = report := hex.2.2 reply hm hid
      refine h.withReporter ?_
      unfold afterFrame
      split
      · split
        · next ack ha =>
          right
          rw [← hr]; exact h.reply_answered reply hm ack ha
        · trivial
      · exact exchangeSound_retry s _ _ _
  · exact h

end

theorem Kept.mono {s' : System} {e : UsageEvent} (h : s.Kept e)
    (hr : ∀ row ∈ s.usage.rows, row.event = e → row ∈ s'.usage.rows)
    (ha : s.answers ⊆ s'.answers) : s'.Kept e := by
  rcases h with ⟨row, hm, heq, hp⟩ | ⟨ack, hm, hack⟩ | ⟨ack, hm, hre, row, hro, heq, hd⟩
  · exact .inl ⟨row, hr row hm heq, heq, hp⟩
  · exact .inr (.inl ⟨ack, ha hm, hack⟩)
  · exact .inr (.inr ⟨ack, ha hm, hre, row, hr row hro heq, heq, hd⟩)

theorem Sound.record (h : Sound wire s) (now : Int) (event : UsageEvent) :
    Sound wire (s.record now event) := { h with
  kept e hf := by
    unfold FirstFor System.record at hf
    rw [find?_append] at hf
    cases hold : s.recorded.find? (·.leaseToken = e.leaseToken) with
    | some e' =>
      rw [hold] at hf
      obtain rfl : e' = e := Option.some.inj hf
      exact (h.kept e' hold).mono (fun row hm _ => mem_insertNew.2 (.inl hm))
        (List.Subset.refl _)
    | none =>
      rw [hold, Option.none_or] at hf
      obtain rfl : event = e := mem_singleton.1 (mem_of_find?_eq_some hf) |>.symm
      refine .inl ⟨_, mem_insertNew.2 (.inr ⟨?_, rfl⟩), rfl, rfl⟩
      intro hk
      obtain ⟨row, hr, hk⟩ := mem_map.1 hk
      obtain ⟨e', he', hl⟩ := mem_map.1 (h.row_recorded row hr)
      have hne := find?_eq_none.1 hold e' he'
      rw [hl, hk] at hne; exact hne (decide_eq_true rfl)
  row_recorded row hm := by
    rw [System.record, map_append]
    rcases mem_insertNew.1 hm with hold | ⟨-, rfl⟩
    · exact mem_append_left _ (h.row_recorded row hold)
    · exact mem_append_right _ (mem_singleton_self _)
  exchange := h.exchange.mono (Nat.le_refl _) (fun _ => .inl) (fun _ => .inl) (List.Subset.refl _) }

section

variable {now : Int} {lease : Bytes} {ack : RpcAck} {usage : UsageOutbox}

theorem settled_of_acknowledged (h : ack.acknowledged) :
    settled now lease ack usage = usage.acknowledge lease := if_pos h

theorem settled_of_refused (h : ack.refused) :
    settled now lease ack usage = usage.deadLetter now lease ack.errorCode := by
  rw [RpcAck.refused, Bool.and_eq_true, Bool.not_eq_true'] at h
  rw [settled, h.1, if_neg Bool.false_ne_true, if_pos h.2]

theorem settled_otherwise (h : ¬ ack.acknowledged) (h' : ¬ ack.refused) :
    settled now lease ack usage = usage := by
  simp only [RpcAck.refused, h, Bool.not_false, Bool.true_and] at h'
  rw [settled, if_neg h, if_neg h']

theorem mem_settled_of_key_ne {row : UsageRow} (hm : row ∈ usage.rows) (hk : row.key ≠ lease) :
    row ∈ (settled now lease ack usage).rows := by
  by_cases hy : ack.acknowledged
  · rw [settled_of_acknowledged hy]; exact mem_delete.2 ⟨hm, hk⟩
  by_cases hno : ack.refused
  · rw [settled_of_refused hno]; exact mem_deadLetter.2 ⟨row, hm, if_neg hk⟩
  · rwa [settled_otherwise hy hno]

end

theorem Kept.settled {e : UsageEvent} (h : s.Kept e) {now : Int} {lease : Bytes} {ack : RpcAck}
    (ha : (lease, ack) ∈ s.answers) :
    Kept { s with usage := settled now lease ack s.usage, reporter := reporter } e := by
  by_cases hl : e.leaseToken = lease
  swap
  · refine h.mono (fun row hm heq => mem_settled_of_key_ne hm ?_) (List.Subset.refl _)
    rwa [key, heq]
  subst hl
  by_cases hy : ack.acknowledged
  · exact .inr (.inl ⟨ack, ha, hy⟩)
  by_cases hno : ack.refused
  · rcases h with ⟨row, hm, rfl, hp⟩ | hdo | ⟨ack', ha', hr, row, hm, rfl, hd⟩
    · refine .inr (.inr ⟨ack, ha, hno, deadLettered now ack.errorCode row, ?_, ?_⟩)
      · rw [settled_of_refused hno]; exact mem_deadLetter.2 ⟨row, hm, if_pos rfl⟩
      · simp [deadLettered, hp]
    · exact .inr (.inl hdo)
    · refine .inr (.inr ⟨ack', ha', hr, row, ?_, rfl, hd⟩)
      have hp : row.isPending = false := by simpa [isPending] using hd.1
      rw [settled_of_refused hno]
      exact mem_deadLetter.2 ⟨row, hm, by simp [deadLettered, hp]⟩
  · rw [settled_otherwise hy hno]; exact h.mono (fun _ hm _ => hm) (List.Subset.refl _)

theorem Sound.recorded_settled (h : Sound wire s) {now : Int} {lease : Bytes} {ack : RpcAck}
    {row : UsageRow} (hm : row ∈ (System.settled now lease ack s.usage).rows) :
    row.key ∈ s.recorded.map UsageEvent.leaseToken := by
  by_cases hy : ack.acknowledged
  · rw [settled_of_acknowledged hy] at hm; exact h.row_recorded row (mem_delete.1 hm).1
  by_cases hno : ack.refused
  · rw [settled_of_refused hno] at hm
    obtain ⟨row', hm', rfl⟩ := mem_deadLetter.1 hm
    have hk := h.row_recorded row' hm'
    split
    · rwa [key_deadLettered]
    · exact hk
  · rw [settled_otherwise hy hno] at hm; exact h.row_recorded row hm

theorem Sound.settle (h : Sound wire s) (now : Int) : Sound wire (s.settle now) := by
  unfold System.settle
  split
  · next report rest ack ha =>
    have hex := h.exchange
    rw [ha] at hex
    refine { h with kept := fun e hf => ?_, row_recorded := fun row => h.recorded_settled,
                    exchange := trivial }
    rcases hex with rfl | hack
    · exact (h.kept e hf).mono (fun row hm _ => hm) (List.Subset.refl _)
    · exact (h.kept e hf).settled hack
  · exact h

theorem leases_appliedAfter (apply : Bool) (report : UsageEvent) {applied : List UsageEvent}
    (h : (applied.map UsageEvent.leaseToken).Nodup) :
    ((appliedAfter apply report applied).map UsageEvent.leaseToken).Nodup ∧
      applied ⊆ appliedAfter apply report applied := by
  unfold appliedAfter
  split
  · next hn =>
    refine ⟨?_, subset_append_left _ _⟩
    rw [map_append, map_singleton]
    exact nodup_append_comm.1 (nodup_cons.2 ⟨hn.2, h⟩)
  · exact ⟨h, List.Subset.refl _⟩

theorem Sound.platform (h : Sound wire s) (id : Nat) (apply : Bool) (frame : Bytes) :
    Sound wire (s.platform wire id apply frame) := by
  unfold System.platform
  cases hf : s.requests.find? (·.id = id) with
  | none => exact h
  | some request =>
    have hm : request ∈ s.requests := mem_of_find?_eq_some hf
    have hid : request.id = id := by simpa using find?_some hf
    obtain ⟨hno, ha⟩ := leases_appliedAfter apply request.report h.applied_nodup
    dsimp only
    split
    · exact h
    · next ht =>
      exact
        { kept := fun e hfi => (h.kept e hfi).mono (fun row hro _ => hro) (subset_append_left _ _)
          row_recorded := h.row_recorded
          applied_nodup := hno
          applied_of_acknowledged := by
            rintro lease ⟨ack, hack, hy⟩
            rcases mem_append.1 hack with hold | hn
            · exact map_subset _ ha (h.applied_of_acknowledged lease ⟨ack, hold, hy⟩)
            · simp only [mem_map, Option.mem_toList, Prod.mk.injEq] at hn
              obtain ⟨ack', hp, rfl, rfl⟩ := hn
              by_contra hnot
              exact ht ⟨by simp [Option.mem_def.1 hp, hy], hnot⟩
          request_id_lt := fun q hq => h.request_id_lt q (mem_of_mem_filter hq)
          reply_id_lt := fun r hr => by
            rcases mem_append.1 hr with hold | hn
            · exact h.reply_id_lt r hold
            · rw [mem_singleton.1 hn, ← hid]; exact h.request_id_lt request hm
          reply_answered := fun r hr ack hp => by
            rcases mem_append.1 hr with hold | hn
            · exact mem_append_left _ (h.reply_answered r hold ack hp)
            · rw [mem_singleton.1 hn] at hp ⊢
              refine mem_append_right _ ?_
              simpa using hp
          exchange := by
            refine h.exchange.mono (Nat.le_refl _)
              (fun q hq => .inl (mem_of_mem_filter hq)) (fun r hr => ?_)
              (subset_append_left _ _)
            rcases mem_append.1 hr with hold | hn
            · exact .inl hold
            · rw [mem_singleton.1 hn]; exact .inr ⟨request, hm, hid, rfl⟩ }

theorem Sound.step (h : Sound wire s) (a : Action) : Sound wire (s.step wire a) := by
  cases a with
  | record now event => exact h.record now event
  | reportDirectly event => exact h.post event
  | peek => exact h.peek
  | next => exact h.next
  | unreachable => exact h.unreachable
  | send => exact h.send
  | attemptFails => exact h.attemptFails
  | receive => exact h.receive
  | settle now => exact h.settle now
  | restart => exact h.withReporter trivial
  | platform id apply frame => exact h.platform id apply frame
  | loseRequest id => exact h.withTransit filter_sublist.subset (List.Subset.refl _)
  | loseReply id => exact h.withTransit (List.Subset.refl _) filter_sublist.subset

theorem sound_run (wire : Bytes → Option RpcAck) (actions : List Action) :
    Sound wire (run wire actions) :=
  foldlRecOn actions (System.step wire) (sound_start wire) fun _ hs a _ => hs.step a

end

theorem Sound.applied_once {wire : Bytes → Option RpcAck} {s : System} (h : Sound wire s)
    {lease : Bytes} (ha : s.Acknowledged lease) :
    (s.applied.map UsageEvent.leaseToken).count lease = 1 :=
  count_eq_one_of_mem h.applied_nodup (h.applied_of_acknowledged lease ha)

theorem usage_delivery (wire : Bytes → Option RpcAck) (actions : List Action) :
    (∀ e, (run wire actions).FirstFor e → (run wire actions).Pending e ∨
      ((run wire actions).Acknowledged e.leaseToken ∧
        ((run wire actions).applied.map UsageEvent.leaseToken).count e.leaseToken = 1) ∨
      (run wire actions).DeadLettered e) ∧ (((run wire actions).usage.rows.filter isPending).map
      fun row => row.event.leaseToken).Nodup := by
  have hsound := sound_run wire actions
  refine ⟨fun e hfirst => ?_, ?_⟩
  · rcases hsound.kept e hfirst with hpending | hack | hdead
    · exact .inl hpending
    · exact .inr (.inl ⟨hack, hsound.applied_once hack⟩)
    · exact .inr (.inr hdead)
  · exact (run wire actions).usage.nodup.sublist (filter_sublist.map key)

end System

end Gateway.Usage
