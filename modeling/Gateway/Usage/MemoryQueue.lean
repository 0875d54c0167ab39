import Gateway.Usage.Backlog

/-! # The collector in memory and the collector with a database -/

namespace Gateway.Usage

open Lib KeyedTable List
open Protocol (toInt32)

inductive CollectorOp where
  | record (event : UsageEvent)
  | peek (limit : UInt64)
  | acknowledge (leaseToken : Bytes)
  | deadLetter (leaseToken errorCode : Bytes)
  | drain
  | pending
  | deadLettered

inductive CollectorAnswer where
  | done
  | events (es : List UsageEvent)
  | count (n : Nat)

namespace UsageCollector

def pending : UsageCollector → Nat
  | .durable usage _ => usage.pending
  | .memory events => events.length

def deadLettered : UsageCollector → Nat
  | .durable usage _ => (usage.rows.filter fun row => !row.isPending).length
  | .memory _ => 0

def drain : UsageCollector → List UsageEvent × UsageCollector
  | .durable usage evidence =>
    let events := usage.peek (0 - 1)
    (events, .durable (events.foldl (fun t event => t.acknowledge event.leaseToken) usage) evidence)
  | .memory events => (events, .memory [])

def exec (now : Int) (c : UsageCollector) : CollectorOp → CollectorAnswer × UsageCollector
  | .record event => (.done, c.record now event)
  | .peek limit => (.events (c.peek limit), c)
  | .acknowledge leaseToken => (.done, c.acknowledge leaseToken)
  | .deadLetter leaseToken errorCode => (.done, c.deadLetter now leaseToken errorCode)
  | .drain => (.events c.drain.1, c.drain.2)
  | .pending => (.count c.pending, c)
  | .deadLettered => (.count c.deadLettered, c)

def held : UsageCollector → List UsageEvent × Nat
  | .durable usage evidence =>
    (usage.pendingRows.map UsageRow.readBack, (durable usage evidence).deadLettered)
  | .memory events => (events, 0)

def Agree : Int → UsageCollector → UsageCollector → List (Nat × CollectorOp) → Prop
  | _, _, _, [] => True
  | now, c, c', (delay, op) :: ops =>
    ((c.exec (now + delay) op).1 = (c'.exec (now + delay) op).1 ∧
      (c.exec (now + delay) op).2.held = (c'.exec (now + delay) op).2.held) ∧
    Agree (now + delay) (c.exec (now + delay) op).2 (c'.exec (now + delay) op).2 ops

end UsageCollector

def Readable (event : UsageEvent) : Prop := UsageRow.readBack { event, createdAt := 0 } = event

def Fits (queue : List UsageEvent) : CollectorOp → Prop
  | .record event => Readable event ∧ event.leaseToken ∉ queue.map (·.leaseToken)
  | .peek limit => min limit.toNat queue.length =
      if toInt32 limit.toNat < 0 then queue.length else min (toInt32 limit.toNat).toNat queue.length
  | .acknowledge leaseToken =>
    queue.head?.map (·.leaseToken) = some leaseToken ∨ leaseToken ∉ queue.map (·.leaseToken)
  | .deadLetter leaseToken _ => leaseToken ∉ queue.map (·.leaseToken)
  | _ => True

def queueAfter (queue : List UsageEvent) : CollectorOp → List UsageEvent
  | .record event => queue ++ [event]
  | .acknowledge leaseToken | .deadLetter leaseToken _ => UsageCollector.popFront leaseToken queue
  | .drain => []
  | _ => queue

def Fitting : List UsageEvent → List (Nat × CollectorOp) → Prop
  | _, [] => True
  | queue, (_, op) :: ops => Fits queue op ∧ Fitting (queueAfter queue op) ops

theorem exec_memory (now : Int) (queue : List UsageEvent) (op : CollectorOp) :
    ((UsageCollector.memory queue).exec now op).2 = .memory (queueAfter queue op) := by
  cases op <;> rfl

structure Mirrors (now : Int) (queue : List UsageEvent) (usage : UsageOutbox) : Prop where
  events : usage.rows.map (·.event) = queue
  pending : ∀ row ∈ usage.rows, row.isPending = true
  readable : ∀ row ∈ usage.rows, row.readBack = row.event
  past : ∀ row ∈ usage.rows, row.createdAt ≤ now
  sorted : usage.rows.Pairwise fun a b => a.createdAt ≤ b.createdAt

section
variable {now now' : Int} {queue : List UsageEvent} {usage : UsageOutbox}

variable (h : Mirrors now queue usage)

include h

theorem Mirrors.later (hle : now ≤ now') : Mirrors now' queue usage :=
  { h with past := fun row hm => (h.past row hm).trans hle }

theorem Mirrors.pendingRows : usage.pendingRows = usage.rows := by
  rw [UsageOutbox.pendingRows, filter_eq_self.2 h.pending, h.sorted.insertionSort_eq]

theorem Mirrors.readBack : usage.rows.map UsageRow.readBack = queue := by
  rw [← h.events]
  exact map_congr_left h.readable

theorem Mirrors.held (evidence : EvidenceOutbox) :
    (UsageCollector.durable usage evidence).held = (queue, 0) := by
  have hd : (usage.rows.filter fun row => !row.isPending) = [] :=
    filter_eq_nil_iff.2 fun row hm => by simp [h.pending row hm]
  rw [UsageCollector.held, h.pendingRows, h.readBack, UsageCollector.deadLettered, hd]
  rfl

theorem Mirrors.keys : usage.rows.map UsageRow.key = queue.map (·.leaseToken) := by
  rw [← h.events, map_map]
  rfl

theorem Mirrors.peek (limit : UInt64) : usage.peek limit = limited limit queue := by
  have hp : usage.peek limit = (limited limit usage.pendingRows).map UsageRow.readBack := rfl
  rw [hp, h.pendingRows, ← h.readBack]
  unfold limited
  split
  · rfl
  · exact map_take

theorem Mirrors.filter {usage' : UsageOutbox} (p : UsageEvent → Bool)
    (hr : usage'.rows = usage.rows.filter fun row => p row.event) :
    Mirrors now (queue.filter p) usage' where
  events := by rw [hr, ← h.events, filter_map]; rfl
  pending row hm := h.pending row (mem_of_mem_filter (hr ▸ hm))
  readable row hm := h.readable row (mem_of_mem_filter (hr ▸ hm))
  past row hm := h.past row (mem_of_mem_filter (hr ▸ hm))
  sorted := hr ▸ h.sorted.filter _

end

variable {token : Bytes}

section
variable {now : Int} {queue : List UsageEvent} {usage : UsageOutbox}
  (evidence : EvidenceOutbox)

def StepsAlike (now : Int) (queue : List UsageEvent) (usage : UsageOutbox)
    (evidence : EvidenceOutbox) (op : CollectorOp) : Prop :=
  ((UsageCollector.memory queue).exec now op).1 =
      ((UsageCollector.durable usage evidence).exec now op).1 ∧
    ((UsageCollector.memory queue).exec now op).2.held =
      ((UsageCollector.durable usage evidence).exec now op).2.held

theorem filter_of_not_mem (h : token ∉ queue.map (·.leaseToken)) :
    queue.filter (·.leaseToken ≠ token) = queue :=
  filter_eq_self.2 fun e hm => by
    have hne : e.leaseToken ≠ token := fun heq => h (heq ▸ mem_map_of_mem hm)
    simp [hne]

theorem popFront_of_not_mem (h : token ∉ queue.map (·.leaseToken)) :
    UsageCollector.popFront token queue = queue := by
  cases queue with
  | nil => rfl
  | cons event queue => exact if_neg fun he => h (mem_map.2 ⟨event, mem_cons_self, he⟩)

theorem popFront_eq_filter_iff (hn : (queue.map (·.leaseToken)).Nodup) :
    UsageCollector.popFront token queue = queue.filter (·.leaseToken ≠ token) ↔
      Fits queue (.acknowledge token) := by
  constructor
  · intro h
    by_contra hno
    obtain ⟨hf, hm⟩ := not_or.1 hno
    have hp : UsageCollector.popFront token queue = queue := by
      cases queue with
      | nil => rfl
      | cons event queue => exact if_neg fun he => hf (congrArg some he)
    rw [hp] at h
    obtain ⟨e, he, heq⟩ := mem_map.1 (not_not.1 hm)
    have := of_mem_filter (h ▸ he)
    simp [heq] at this
  · rintro (hf | hm)
    · cases queue with
      | nil => cases hf
      | cons event queue =>
        have he : event.leaseToken = token := Option.some.inj hf
        rw [map_cons, nodup_cons, he] at hn
        rw [UsageCollector.popFront, if_pos he, filter_cons_of_neg (by simp [he]),
          filter_of_not_mem hn.1]
    · rw [popFront_of_not_mem hm, filter_of_not_mem hm]

theorem rows_foldl_acknowledge (events : List UsageEvent) (t : UsageOutbox) :
    (events.foldl (fun t event => t.acknowledge event.leaseToken) t).rows =
      t.rows.filter fun row => row.key ∉ events.map (·.leaseToken) := by
  induction events generalizing t with
  | nil => simp
  | cons event events ih =>
    rw [foldl_cons, ih]
    simp only [UsageOutbox.acknowledge, delete, filter_filter]
    refine filter_congr fun row _ => ?_
    simp [Bool.and_comm, not_or]

theorem Mirrors.record (h : Mirrors now queue usage) {event : UsageEvent} :
    (StepsAlike now queue usage evidence (.record event) ↔ Fits queue (.record event)) ∧
      (Fits queue (.record event) → Mirrors now (queue ++ [event]) (usage.record now event)) := by
  by_cases hm : event.leaseToken ∈ queue.map (·.leaseToken)
  · have hu : usage.record now event = usage := dif_pos (h.keys ▸ hm)
    refine ⟨iff_of_false (fun hs => ?_) fun hf => hf.2 hm, fun hf => absurd hm hf.2⟩
    have he : (queue ++ [event], 0) = (queue, 0) := hs.2.trans
      ((congrArg (fun t => (UsageCollector.durable t evidence).held) hu).trans (h.held _))
    simp at he
  · have hu : (usage.record now event).rows = usage.rows ++ [{ event, createdAt := now }] := by
      rw [UsageOutbox.record, insertNew, dif_neg (h.keys ▸ hm)]
    have hs : (usage.record now event).rows.Pairwise fun a b => a.createdAt ≤ b.createdAt := by
      rw [hu, pairwise_append]
      exact ⟨h.sorted, pairwise_singleton _ _,
        fun a ha b hb => mem_singleton.1 hb ▸ h.past a ha⟩
    have hp : ∀ row ∈ (usage.record now event).rows, row.isPending := by
      rw [hu]
      exact forall_mem_append.2 ⟨h.pending, by simp [UsageRow.isPending]⟩
    have hpr :
        (usage.record now event).pendingRows = usage.rows ++ [{ event, createdAt := now }] := by
      rw [UsageOutbox.pendingRows, filter_eq_self.2 hp, hs.insertionSort_eq, hu]
    have hd : ((usage.record now event).rows.filter fun row => !row.isPending) = [] :=
      filter_eq_nil_iff.2 fun row hr => by simp [hp row hr]
    refine ⟨?_, fun hf => ⟨?_, hp, ?_, ?_, hs⟩⟩
    · have hh : (UsageCollector.durable (usage.record now event) evidence).held =
          (queue ++ [UsageRow.readBack { event, createdAt := now }], 0) := by
        rw [UsageCollector.held, hpr, UsageCollector.deadLettered, hd, map_append, h.readBack]
        rfl
      refine ⟨fun hs => ⟨?_, hm⟩, fun hf => ⟨rfl, ?_⟩⟩
      · have he : (queue ++ [event], 0) = _ := hs.2.trans hh
        have hr : event = UsageRow.readBack { event, createdAt := now } := by simpa using he
        exact hr.symm
      · exact (congrArg (fun e => (queue ++ [e], 0)) hf.1.symm).trans hh.symm
    · rw [hu, map_append, h.events]; rfl
    · rw [hu]; exact forall_mem_append.2 ⟨h.readable, forall_mem_singleton.2 hf.1⟩
    · rw [hu]; exact forall_mem_append.2 ⟨h.past, by simp⟩

theorem Mirrors.acknowledge (h : Mirrors now queue usage) (token : Bytes) :
    Mirrors now (queue.filter (·.leaseToken ≠ token)) (usage.acknowledge token) :=
  h.filter _ rfl

theorem Mirrors.deadLetter (h : Mirrors now queue usage) {errorCode : Bytes} :
    (StepsAlike now queue usage evidence (.deadLetter token errorCode) ↔
        Fits queue (.deadLetter token errorCode)) ∧ (Fits queue (.deadLetter token errorCode) →
        (usage.deadLetter now token errorCode).rows = usage.rows) := by
  by_cases hm : token ∈ queue.map (·.leaseToken)
  · refine ⟨iff_of_false (fun hs => ?_) fun hf => hf hm, fun hf => absurd hm hf⟩
    obtain ⟨row, hr, hk⟩ := mem_map.1 (h.keys.symm ▸ hm)
    have hmem : UsageOutbox.deadLettered now errorCode row ∈
        (usage.deadLetter now token errorCode).rows.filter fun row => !row.isPending := by
      refine mem_filter.2 ⟨UsageOutbox.mem_deadLetter.2 ⟨row, hr, if_pos hk⟩, ?_⟩
      rw [UsageOutbox.deadLettered, if_pos (h.pending row hr)]; rfl
    have hz : 0 = ((usage.deadLetter now token errorCode).rows.filter
      fun row => !row.isPending).length := congrArg Prod.snd hs.2
    exact absurd hz (Nat.ne_of_lt (length_pos_of_mem hmem))
  · have hu : (usage.deadLetter now token errorCode).rows = usage.rows := by
      refine (map_congr_left fun row hr => if_neg fun hk => ?_).trans (map_id _)
      exact hm (h.keys ▸ mem_map.2 ⟨row, hr, hk⟩)
    have hmi : Mirrors now queue (usage.deadLetter now token errorCode) :=
      ⟨hu ▸ h.events, hu ▸ h.pending, hu ▸ h.readable, hu ▸ h.past, hu ▸ h.sorted⟩
    refine ⟨iff_of_true ⟨rfl, ?_⟩ hm, fun _ => hu⟩
    exact (congrArg (·, 0) (popFront_of_not_mem hm)).trans (hmi.held _).symm

theorem limited_eq_take_iff {α : Type} (limit : UInt64) (rows : List α) :
    rows.take limit.toNat = limited limit rows ↔ min limit.toNat rows.length =
      if toInt32 limit.toNat < 0 then rows.length
      else min (toInt32 limit.toNat).toNat rows.length := by
  unfold limited
  split
  · rw [take_eq_self_iff, min_eq_right_iff]
  · exact take_eq_take_iff

variable (h : Mirrors now queue usage)

include h

theorem Mirrors.drain : usage.peek (0 - 1) = queue ∧
      (queue.foldl (fun t event => t.acknowledge event.leaseToken) usage).rows = [] := by
  constructor
  · rw [h.peek, limited, if_pos (by decide)]
  · rw [rows_foldl_acknowledge, filter_eq_nil_iff]
    intro row hr
    have hk : row.key ∈ queue.map (·.leaseToken) := h.keys ▸ mem_map_of_mem hr
    simpa using hk

def tableAfter (now : Int) (queue : List UsageEvent) (usage : UsageOutbox) :
    CollectorOp → UsageOutbox
  | .record event => usage.record now event
  | .acknowledge token => usage.acknowledge token
  | .deadLetter token errorCode => usage.deadLetter now token errorCode
  | .drain => queue.foldl (fun t event => t.acknowledge event.leaseToken) usage
  | _ => usage

theorem exec_durable (op : CollectorOp) : ((UsageCollector.durable usage evidence).exec now op).2 =
      .durable (tableAfter now queue usage op) evidence := by
  cases op with
  | drain => simp only [UsageCollector.exec, UsageCollector.drain, h.drain.1, tableAfter]
  | _ => rfl

theorem Mirrors.step (op : CollectorOp) : (StepsAlike now queue usage evidence op ↔ Fits queue op) ∧
      (Fits queue op → Mirrors now (queueAfter queue op) (tableAfter now queue usage op)) := by
  cases op with
  | record event => exact h.record evidence
  | acknowledge token =>
    have hn : (queue.map (·.leaseToken)).Nodup := h.keys ▸ usage.nodup
    have ha := h.acknowledge token
    rw [← popFront_eq_filter_iff hn]
    refine ⟨⟨fun hs => ?_, fun hf => ⟨rfl, ?_⟩⟩, fun hf => ?_⟩
    · exact congrArg Prod.fst (hs.2.trans (ha.held _))
    · exact (congrArg (·, 0) hf).trans (ha.held _).symm
    · rw [queueAfter, hf]; exact ha
  | deadLetter token errorCode =>
    refine ⟨(h.deadLetter evidence).1, fun hf => ?_⟩
    have hu := (h.deadLetter evidence).2 hf
    rw [queueAfter, popFront_of_not_mem hf]
    exact ⟨hu ▸ h.events, hu ▸ h.pending, hu ▸ h.readable, hu ▸ h.past, hu ▸ h.sorted⟩
  | peek limit =>
    refine ⟨?_, fun _ => h⟩
    rw [Fits, ← limited_eq_take_iff, ← h.peek]
    exact ⟨fun hs => CollectorAnswer.events.inj hs.1,
      fun hf => ⟨congrArg CollectorAnswer.events hf, (h.held _).symm⟩⟩
  | drain =>
    obtain ⟨hp, hr⟩ := h.drain
    have hm : Mirrors now [] (tableAfter now queue usage .drain) := by
      constructor <;> simp [tableAfter, hr]
    have hs := congrArg UsageCollector.held (exec_durable evidence h .drain)
    have he := (hs.trans (hm.held _)).symm
    exact ⟨iff_of_true ⟨congrArg CollectorAnswer.events hp.symm, he⟩ trivial, fun _ => hm⟩
  | pending =>
    have hl : queue.length = usage.pending := by
      rw [UsageOutbox.pending, filter_eq_self.2 h.pending, ← h.events, length_map]
    have he := (h.held evidence).symm
    exact ⟨iff_of_true ⟨congrArg CollectorAnswer.count hl, he⟩ trivial, fun _ => h⟩
  | deadLettered =>
    have hd : (UsageCollector.durable usage evidence).deadLettered = 0 :=
      congrArg Prod.snd (h.held evidence)
    have he := (h.held evidence).symm
    exact ⟨iff_of_true ⟨congrArg CollectorAnswer.count hd.symm, he⟩ trivial, fun _ => h⟩

end

theorem Mirrors.agree_iff {now : Int} {queue : List UsageEvent} {usage : UsageOutbox}
    {evidence : EvidenceOutbox} (h : Mirrors now queue usage) (ops : List (Nat × CollectorOp)) :
    UsageCollector.Agree now (.memory queue) (.durable usage evidence) ops ↔ Fitting queue ops := by
  induction ops generalizing now queue usage with
  | nil => rfl
  | cons timed ops ih =>
    obtain ⟨delay, op⟩ := timed
    have h' : Mirrors (now + delay) queue usage := h.later (by omega)
    obtain ⟨hif, hne⟩ := h'.step evidence op
    have hag : UsageCollector.Agree now (.memory queue) (.durable usage evidence)
        ((delay, op) :: ops) ↔ StepsAlike (now + delay) queue usage evidence op ∧
          UsageCollector.Agree (now + delay) (.memory (queueAfter queue op))
            (.durable (tableAfter (now + delay) queue usage op) evidence) ops := by
      rw [← exec_memory (now + delay), ← exec_durable evidence h' op]; rfl
    rw [hag, Fitting]
    exact ⟨fun ⟨hs, ha⟩ => ⟨hif.1 hs, (ih (hne (hif.1 hs))).1 ha⟩,
      fun ⟨hf, hr⟩ => ⟨hif.2 hf, (ih (hne hf)).2 hr⟩⟩

def freshDatabase : UsageCollector := .durable .empty .empty

theorem collectors_agree_iff (now : Int) (ops : List (Nat × CollectorOp)) :
    UsageCollector.Agree now (.memory []) freshDatabase ops ↔ Fitting [] ops := by
  have hempty : Mirrors now [] .empty := by constructor <;> simp [empty]
  exact hempty.agree_iff ops

def leaseEvent (leaseToken : Bytes) : UsageEvent := { leaseToken }

theorem acknowledged_behind_front :
    (UsageCollector.acknowledge "b" (((UsageCollector.memory []).record 0 (leaseEvent "a")).record 0
        (leaseEvent "b"))).pending = 2 ∧
      (UsageCollector.acknowledge "b" ((freshDatabase.record 0 (leaseEvent "a")).record 0
        (leaseEvent "b"))).pending = 1 ∧ ¬ UsageCollector.Agree 0 (.memory []) freshDatabase
        [(0, .record (leaseEvent "a")), (0, .record (leaseEvent "b")), (0, .acknowledge "b")] := by
  refine ⟨by decide, by decide, fun h => ?_⟩
  have := congrArg (fun held => held.1.length) h.2.2.1.2
  exact absurd this (by decide)

end Gateway.Usage
