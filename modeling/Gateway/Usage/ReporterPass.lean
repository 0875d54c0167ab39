import Gateway.Lib.Batches
import Gateway.Usage.Delivery

/-! # Passes of the reporter -/

namespace Gateway.Usage

open Lib Dispatch UsageRow List
open Protocol (toInt32)

def UsageOutbox.pendingRows (t : UsageOutbox) : List UsageRow :=
  (t.rows.filter isPending).insertionSort fun a b => a.createdAt ≤ b.createdAt

def EvidenceOutbox.pendingRows (t : EvidenceOutbox) : List EvidenceRow :=
  (t.rows.filter EvidenceRow.isPending).insertionSort fun a b => a.createdAt ≤ b.createdAt

namespace UsageCollector

def peekEvidence (limit : UInt64) : UsageCollector → List Evidence
  | .durable _ evidence => evidence.peekEvidence limit
  | .memory _ => []

def deadLetterEvidence (now : Int) (leaseToken stage errorCode : Bytes) :
    UsageCollector → UsageCollector
  | .durable usage evidence =>
    .durable usage (evidence.deadLetterEvidence now leaseToken stage errorCode)
  | .memory events => .memory events

def pendingUsage : UsageCollector → List UsageEvent
  | .durable usage _ => usage.pendingRows.map readBack
  | .memory events => events

def pendingEvidence : UsageCollector → List EvidenceRow
  | .durable _ evidence => evidence.pendingRows
  | .memory _ => []

theorem limited_hundred {α : Type} (rows : List α) : limited 100 rows = rows.take 100 := by
  have hi : toInt32 (100 : UInt64).toNat = 100 := by decide
  rw [limited, hi, if_neg (by decide)]
  rfl

theorem peek_hundred (c : UsageCollector) : c.peek 100 = c.pendingUsage.take 100 := by
  cases c with
  | durable usage evidence => exact (congrArg (map _) (limited_hundred _)).trans map_take
  | memory events => rfl

theorem peekEvidence_hundred (c : UsageCollector) :
    c.peekEvidence 100 = (c.pendingEvidence.take 100).map EvidenceRow.readBack := by
  cases c with
  | durable usage evidence => exact congrArg (map _) (limited_hundred _)
  | memory events => rfl

end UsageCollector

inductive Rpc where
  | reportUsage (report : UsageEvent)
  | recordLeaseEvidence (leaseToken : Bytes) (stage : LeaseEvidenceStage) (detail : Bytes)

abbrev Platform := List Rpc → Rpc → RpcAck

def evidenceStage (stage : Bytes) : LeaseEvidenceStage :=
  if stage = "output_started" then .outputStarted else .forwarded

def Evidence.call (ev : Evidence) : Rpc :=
  .recordLeaseEvidence ev.leaseToken (evidenceStage ev.stage) ev.detail

structure Pass where
  collector : UsageCollector
  sent : List Rpc := []

namespace Pass

variable (answer : Platform)

def reportUsage (answer : Platform) (now : Int) (p : Pass) (report : UsageEvent) : Pass :=
  let ack := answer p.sent (.reportUsage report)
  let sent := p.sent ++ [.reportUsage report]
  if ack.acknowledged then { collector := p.collector.acknowledge report.leaseToken, sent }
  else if !ack.retryable then
    { collector := p.collector.deadLetter now report.leaseToken ack.errorCode, sent }
  else { p with sent }

def reportEvidence (now : Int) (p : Pass) (ev : Evidence) : Pass :=
  let ack := answer p.sent ev.call
  let sent := p.sent ++ [ev.call]
  if ack.acknowledged then
    { collector := p.collector.acknowledgeEvidence now ev.leaseToken ev.stage, sent }
  else if !ack.retryable then
    { collector := p.collector.deadLetterEvidence now ev.leaseToken ev.stage ack.errorCode, sent }
  else { p with sent }

def reportAll (now : Int) (events : List UsageEvent) (p : Pass) : Pass :=
  events.foldl (reportUsage answer now) p

def reportAllEvidence (now : Int) (events : List Evidence) (p : Pass) : Pass :=
  events.foldl (reportEvidence answer now) p

def pass (now : Int) (p : Pass) : Pass :=
  let events := p.collector.peek 100
  if events.isEmpty then p
  else
    let p := p.reportAll answer now events
    p.reportAllEvidence answer now (p.collector.peekEvidence 100)

section
variable {answer : Platform} {now : Int}

variable (p : Pass) (report : UsageEvent) (events : List UsageEvent)

theorem reportUsage_sent :
    (p.reportUsage answer now report).sent = p.sent ++ [.reportUsage report] := by
  unfold reportUsage
  dsimp only
  split
  · rfl
  · split <;> rfl

theorem reportEvidence_sent (ev : Evidence) :
    (p.reportEvidence answer now ev).sent = p.sent ++ [ev.call] := by
  unfold reportEvidence
  dsimp only
  split
  · rfl
  · split <;> rfl

theorem reportAll_sent :
    (p.reportAll answer now events).sent = p.sent ++ events.map .reportUsage := by
  induction events generalizing p with
  | nil => simp [reportAll]
  | cons report events ih => rw [reportAll, foldl_cons, ← reportAll, ih, reportUsage_sent]; simp

theorem reportAllEvidence_sent (events : List Evidence) :
    (p.reportAllEvidence answer now events).sent = p.sent ++ events.map Evidence.call := by
  induction events generalizing p with
  | nil => simp [reportAllEvidence]
  | cons ev events ih =>
    rw [reportAllEvidence, foldl_cons, ← reportAllEvidence, ih, reportEvidence_sent]
    simp

theorem reportUsage_pendingEvidence :
    (p.reportUsage answer now report).collector.pendingEvidence = p.collector.pendingEvidence := by
  unfold reportUsage
  dsimp only
  split
  · cases p.collector <;> rfl
  · split
    · cases p.collector <;> rfl
    · rfl

theorem reportAll_pendingEvidence :
    (p.reportAll answer now events).collector.pendingEvidence = p.collector.pendingEvidence := by
  induction events generalizing p with
  | nil => rfl
  | cons report events ih =>
    rw [reportAll, foldl_cons, ← reportAll, ih, reportUsage_pendingEvidence]

theorem pass_of_no_usage {p : Pass} (h : p.collector.pendingUsage = []) :
    p.pass answer now = p := by
  have hp : p.collector.peek 100 = [] := by rw [UsageCollector.peek_hundred, h, take_nil]
  simp only [pass, hp, isEmpty_nil, ↓reduceIte]

theorem pass_sent {p : Pass} (h : p.collector.pendingUsage ≠ []) :
    (p.pass answer now).sent = p.sent ++ (p.collector.pendingUsage.take 100).map .reportUsage ++
      (p.collector.pendingEvidence.take 100).map fun row => row.readBack.call := by
  have hp : ¬ (p.collector.pendingUsage.take 100).isEmpty := by
    rw [List.isEmpty_iff, take_eq_nil_iff]
    simpa using h
  simp only [pass, UsageCollector.peek_hundred, UsageCollector.peekEvidence_hundred]
  rw [if_neg hp, reportAllEvidence_sent, reportAll_sent, reportAll_pendingEvidence, map_map]
  rfl

theorem reported_pass : .reportUsage report ∈ (p.pass answer now).sent ↔
      .reportUsage report ∈ p.sent ∨ report ∈ p.collector.pendingUsage.take 100 := by
  by_cases hn : p.collector.pendingUsage = []
  · simp [pass_of_no_usage hn, hn]
  · rw [pass_sent hn, mem_append, mem_append, mem_map, mem_map]
    constructor
    · rintro ((hold | ⟨report', hne, heq⟩) | ⟨row, -, heq⟩)
      · exact .inl hold
      · cases heq; exact .inr hne
      · cases heq
    · rintro (hold | hne)
      · exact .inl (.inl hold)
      · exact .inl (.inr ⟨report, hne, rfl⟩)

theorem evidence_served_iff (answer : Platform) (now : Int) (collector : UsageCollector) :
    (∀ row ∈ collector.pendingEvidence.take 100,
        row.readBack.call ∈ (pass answer now { collector }).sent) ↔
      collector.pendingUsage ≠ [] ∨ collector.pendingEvidence = [] := by
  by_cases husage : collector.pendingUsage = []
  · rw [pass_of_no_usage husage]
    constructor
    · intro hserved
      right
      cases hrows : collector.pendingEvidence with
      | nil => rfl
      | cons row rows => exact absurd (hserved row (by simp [hrows])) not_mem_nil
    · rintro (husage' | hnone)
      · exact absurd husage husage'
      · simp [hnone]
  · refine ⟨fun _ => .inl husage, fun _ row hrow => ?_⟩
    rw [pass_sent husage]
    exact mem_append_right _ (mem_map.2 ⟨row, hrow, rfl⟩)

def lonelyEvidence : UsageCollector :=
  .durable .empty (EvidenceOutbox.recordEvidence 0 ⟨"lease", "forwarded", "gateway", ""⟩ .empty)

theorem lonelyEvidence_not_served (answer : Platform) (now : Int) :
    lonelyEvidence.pendingEvidence.length = 1 ∧
      (pass answer now { collector := lonelyEvidence }).sent = [] := by
  have hn : lonelyEvidence.pendingUsage = [] := rfl
  exact ⟨rfl, by rw [pass_of_no_usage hn]⟩

theorem evidence_starved : ¬ ∀ row ∈ lonelyEvidence.pendingEvidence.take 100, row.readBack.call ∈
        (pass (fun _ _ => { accepted := true }) 0 { collector := lonelyEvidence }).sent := by
  obtain ⟨hone, hsent⟩ := lonelyEvidence_not_served (fun _ _ => { accepted := true }) 0
  intro hserved
  obtain ⟨row, hrow⟩ := length_eq_one_iff.1 hone
  rw [hsent, hrow] at hserved
  exact absurd (hserved row (by simp)) not_mem_nil

end

def resolves (ack : RpcAck) : Bool := ack.acknowledged || !ack.retryable

def byLease (usage : Bytes → RpcAck) (evidence : Platform) : Platform
  | _, .reportUsage report => usage report.leaseToken
  | earlier, call => evidence earlier call

end Pass

namespace UsageOutbox

variable {t : UsageOutbox}

theorem pendingRows_filter {p : UsageRow → Bool} {t' : UsageOutbox}
    (h : t'.rows.filter isPending = (t.rows.filter isPending).filter p) :
    t'.pendingRows = t.pendingRows.filter p := by
  rw [pendingRows, pendingRows, filter_insertionSort, h]

theorem nodup_pendingRows (t : UsageOutbox) : (t.pendingRows.map key).Nodup := by
  have hp := ((t.rows.filter isPending).perm_insertionSort
    fun a b => a.createdAt ≤ b.createdAt).map key
  exact hp.nodup_iff.2 (t.nodup.sublist (filter_sublist.map _))

theorem isPending_deadLettered (now : Int) (errorCode : Bytes) (row : UsageRow) :
    (deadLettered now errorCode row).isPending = false := by
  unfold deadLettered
  split
  · rfl
  · next h => simpa using h

theorem pendingRows_acknowledge (lease : Bytes) :
    (t.acknowledge lease).pendingRows = t.pendingRows.filter fun row => row.key ≠ lease := by
  apply pendingRows_filter
  rw [acknowledge, KeyedTable.delete, filter_comm]

theorem filter_deadLettered (now : Int) (lease errorCode : Bytes) (rows : List UsageRow) :
    (rows.map fun row => if row.key = lease then deadLettered now errorCode row else row).filter
        isPending = (rows.filter isPending).filter fun row => row.key ≠ lease := by
  induction rows with
  | nil => rfl
  | cons row rows ih =>
    rw [map_cons, filter_cons, ih, filter_cons]
    by_cases hk : row.key = lease
    · rw [if_pos hk, isPending_deadLettered]
      cases hp : row.isPending <;> simp [hk]
    · rw [if_neg hk]
      cases hp : row.isPending <;> simp [hk]

theorem pendingRows_deadLetter (now : Int) (lease errorCode : Bytes) :
    (t.deadLetter now lease errorCode).pendingRows =
      t.pendingRows.filter fun row => row.key ≠ lease :=
  pendingRows_filter (filter_deadLettered now lease errorCode t.rows)

theorem pendingRows_settled (now : Int) (lease : Bytes) (ack : RpcAck) :
    (System.settled now lease ack t).pendingRows =
      t.pendingRows.filter fun row => !(Pass.resolves ack && row.key = lease) := by
  unfold System.settled Pass.resolves
  cases hy : ack.acknowledged with
  | true => simpa using pendingRows_acknowledge lease
  | false =>
    cases hr : ack.retryable with
    | true => simp
    | false => simpa using pendingRows_deadLetter now lease ack.errorCode

end UsageOutbox

variable {row row' : UsageRow}

namespace Pass

section
variable (usage : Bytes → RpcAck) (evidence : Platform)

variable {rows : List UsageRow} (now : Int)

theorem reportUsage_durable (t : UsageOutbox) (rows : EvidenceOutbox)
    (sent : List Rpc) (report : UsageEvent) :
    reportUsage (byLease usage evidence) now ⟨.durable t rows, sent⟩ report =
      ⟨.durable (System.settled now report.leaseToken (usage report.leaseToken) t) rows,
        sent ++ [.reportUsage report]⟩ := by
  unfold reportUsage System.settled
  dsimp only [byLease]
  split
  · rfl
  · split <;> rfl

def leaves (events : List UsageEvent) (row : UsageRow) : Bool :=
  events.all fun report => !(resolves (usage report.leaseToken) && row.key = report.leaseToken)

theorem reportAll_durable (events : List UsageEvent) (t : UsageOutbox)
    (rows : EvidenceOutbox) (sent : List Rpc) :
    ∃ t', (reportAll (byLease usage evidence) now events ⟨.durable t rows, sent⟩).collector =
        .durable t' rows ∧ t'.pendingRows = t.pendingRows.filter (leaves usage events) := by
  induction events generalizing t sent with
  | nil => exact ⟨t, rfl, (filter_eq_self.2 fun _ _ => rfl).symm⟩
  | cons report events ih =>
    rw [reportAll, foldl_cons, reportUsage_durable, ← reportAll]
    obtain ⟨t', hc, hp⟩ :=
      ih (System.settled now report.leaseToken (usage report.leaseToken) t)
        (sent ++ [.reportUsage report])
    refine ⟨t', hc, ?_⟩
    rw [hp, UsageOutbox.pendingRows_settled, filter_filter]
    exact filter_congr fun row _ => Bool.and_comm ..

theorem reportAllEvidence_durable (answer : Platform) (now : Int) (events : List Evidence)
    (t : UsageOutbox) (rows : EvidenceOutbox) (sent : List Rpc) :
    ∃ rows', (reportAllEvidence answer now events ⟨.durable t rows, sent⟩).collector =
      .durable t rows' := by
  induction events generalizing rows sent with
  | nil => exact ⟨rows, rfl⟩
  | cons ev events ih =>
    rw [reportAllEvidence, foldl_cons, ← reportAllEvidence]
    unfold reportEvidence
    dsimp only
    split
    · exact ih _ _
    · split <;> exact ih _ _

def stuck (row : UsageRow) : Bool := !(decide (NulFree row.key) && resolves (usage (cstr row.key)))

def ReadApart (rows : List UsageRow) : Prop := (rows.map fun row => cstr row.key).Nodup

variable {usage}

theorem ReadApart.eq (h : ReadApart rows) (hr : row ∈ rows)
    (hr' : row' ∈ rows) (heq : cstr row.key = cstr row'.key) : row = row' :=
  inj_on_of_nodup_map h hr hr' heq

theorem ReadApart.found (h : ReadApart rows) (hr : row ∈ rows)
    (hr' : row' ∈ rows) (heq : row.key = cstr row'.key) : row = row' ∧ NulFree row.key := by
  have hf : NulFree row.key := heq ▸ nulFree_cstr row'.key
  exact ⟨h.eq hr hr' (hf.cstr_eq.trans heq), hf⟩

theorem leaves_iff : leaves usage (rows.map readBack) row ↔
      ∀ row' ∈ rows, resolves (usage (cstr row'.key)) → row.key ≠ cstr row'.key := by
  rw [leaves, all_map, all_eq_true]
  refine forall₂_congr fun row' _ => ?_
  rw [Function.comp_apply, Bool.not_eq_true', Bool.and_eq_false_imp, decide_eq_false_iff_not]
  rfl

theorem filter_leaves (h : ReadApart rows) (size : Nat) :
    rows.filter (leaves usage ((rows.take size).map readBack)) =
      serveRound size (stuck usage) rows := by
  have hs := filter_append (p := leaves usage ((rows.take size).map readBack))
    (rows.take size) (rows.drop size)
  rw [take_append_drop] at hs
  rw [hs, serveRound]
  congr 1
  · refine filter_congr fun row hr => ?_
    have hm := mem_of_mem_take hr
    rw [Bool.eq_iff_iff, leaves_iff, stuck, Bool.not_eq_true',
      Bool.and_eq_false_imp, decide_eq_true_iff]
    constructor
    · intro ha hf
      by_contra hre
      exact ha row hr (by simpa using hre) hf.cstr_eq.symm
    · intro hst row' hr' hre heq
      obtain ⟨rfl, hf⟩ := h.found hm (mem_of_mem_take hr') heq
      rw [hst hf] at hre; cases hre
  · refine filter_eq_self.2 fun row hr => ?_
    rw [leaves_iff]
    intro row' hr' _ heq
    obtain ⟨rfl, -⟩ := h.found (mem_of_mem_drop hr) (mem_of_mem_take hr') heq
    have hn : rows.Nodup := Nodup.of_map _ h
    exact disjoint_take_drop hn (Nat.le_refl size) hr' hr

theorem pendingRows_pass (evidence : Platform) (now : Int) (t : UsageOutbox)
    (rows : EvidenceOutbox) (sent : List Rpc) (h : ReadApart t.pendingRows) :
    ∃ t' rows', (pass (byLease usage evidence) now ⟨.durable t rows, sent⟩).collector =
        .durable t' rows' ∧ t'.pendingRows = serveRound 100 (stuck usage) t.pendingRows := by
  by_cases hn : t.pendingRows = []
  · have hp : pass (byLease usage evidence) now ⟨.durable t rows, sent⟩ =
        ⟨.durable t rows, sent⟩ :=
      pass_of_no_usage (by simp [UsageCollector.pendingUsage, hn])
    exact ⟨t, rows, by rw [hp], by rw [hn]; rfl⟩
  · have hpe : ((UsageCollector.durable t rows).pendingUsage.take 100) =
        (t.pendingRows.take 100).map readBack := map_take.symm
    have hs : ¬ ((t.pendingRows.take 100).map readBack).isEmpty := by
      rw [List.isEmpty_iff, map_eq_nil_iff, take_eq_nil_iff]
      simpa using hn
    obtain ⟨t', hc, hpen⟩ := reportAll_durable usage evidence now
      ((t.pendingRows.take 100).map readBack) t rows sent
    simp only [pass, UsageCollector.peek_hundred, hpe]
    rw [if_neg hs]
    generalize reportAll (byLease usage evidence) now
      ((t.pendingRows.take 100).map readBack) ⟨.durable t rows, sent⟩ = p at hc
    obtain ⟨collector, calls⟩ := p
    obtain rfl : collector = .durable t' rows := hc
    obtain ⟨rows', hr'⟩ := reportAllEvidence_durable (byLease usage evidence) now
      ((UsageCollector.durable t' rows).peekEvidence 100) t' rows calls
    exact ⟨t', rows', hr', hpen.trans (filter_leaves h 100)⟩

def passes (answer : Platform) (clock : Nat → Int) (p : Pass) : Nat → Pass
  | 0 => p
  | k + 1 => (passes answer clock p k).pass answer (clock k)

section
variable (usage) (evidence : Platform) (clock : Nat → Int) (t : UsageOutbox)
  (rows : EvidenceOutbox)

theorem ReadApart.round {queue : List UsageRow} (h : ReadApart queue) (size : Nat)
    (stays : UsageRow → Bool) : ReadApart (serveRound size stays queue) := by
  have hs : (serveRound size stays queue).Sublist queue := by
    rw [serveRound]
    conv_rhs => rw [← take_append_drop size queue]
    exact filter_sublist.append (Sublist.refl _)
  exact h.sublist (hs.map _)

theorem pendingRows_passes (h : ReadApart t.pendingRows) (k : Nat) :
    ∃ t' rows', (passes (byLease usage evidence) clock ⟨.durable t rows, []⟩ k).collector =
        .durable t' rows' ∧ t'.pendingRows = serveRounds 100 (stuck usage) k t.pendingRows ∧
      ReadApart t'.pendingRows := by
  induction k with
  | zero => exact ⟨t, rows, rfl, rfl, h⟩
  | succ k ih =>
    obtain ⟨t', rows', hc, hp, ha⟩ := ih
    rw [passes]
    generalize passes (byLease usage evidence) clock ⟨.durable t rows, []⟩ k = p at hc
    obtain ⟨collector, sent⟩ := p
    obtain rfl : collector = .durable t' rows' := hc
    obtain ⟨t'', rows'', hc', hp'⟩ := pendingRows_pass evidence (clock k) t' rows' sent ha
    refine ⟨t'', rows'', hc', ?_, hp' ▸ ha.round 100 (stuck usage)⟩
    rw [hp', hp, serveRounds_succ]

theorem reported_passes (h : ReadApart t.pendingRows) (k : Nat) (report : UsageEvent) :
    .reportUsage report ∈ (passes (byLease usage evidence) clock ⟨.durable t rows, []⟩ k).sent ↔
      ∃ row, row.readBack = report ∧ ServedWithin 100 (stuck usage) k t.pendingRows row := by
  induction k with
  | zero => simp [passes, ServedWithin]
  | succ k ih =>
    obtain ⟨t', rows', hc, hp, -⟩ := pendingRows_passes usage evidence clock t rows h k
    have hba : (UsageCollector.durable t' rows').pendingUsage.take 100 =
        ((serveRounds 100 (stuck usage) k t.pendingRows).take 100).map readBack := by
      rw [UsageCollector.pendingUsage, hp, map_take]
    rw [passes, reported_pass, hc, hba, ih, mem_map]
    simp only [servedWithin_succ, and_or_left, exists_or]
    exact or_congr_right (exists_congr fun row => and_comm)

theorem all_reported_iff (h : ReadApart t.pendingRows) (k : Nat) :
    (∀ row ∈ t.pendingRows, .reportUsage row.readBack ∈
        (passes (byLease usage evidence) clock ⟨.durable t rows, []⟩ k).sent) ↔
      t.pendingRows.length ≤ covered 100 (stuck usage) t.pendingRows k := by
  have hn : t.pendingRows.Nodup := Nodup.of_map _ h
  rw [← all_served_iff hn]
  refine forall₂_congr fun row hr => ?_
  rw [reported_passes usage evidence clock t rows h]
  constructor
  · rintro ⟨row', heq, hs⟩
    have hm : row' ∈ t.pendingRows := mem_of_mem_take ((servedWithin_iff _ _ _).1 hs)
    have hl : cstr row'.key = cstr row.key := congrArg UsageEvent.leaseToken heq
    rwa [← h.eq hm hr hl]
  · exact fun hs => ⟨row, rfl, hs⟩

theorem usage_reported_iff (h : ReadApart t.pendingRows) :
    (∀ row ∈ t.pendingRows, .reportUsage row.readBack ∈
        (passes (byLease usage evidence) clock ⟨.durable t rows, []⟩
          ((t.pendingRows.length + 99) / 100)).sent) ↔ t.pendingRows.length ≤
        covered 100 (stuck usage) t.pendingRows ((t.pendingRows.length + 99) / 100) :=
  all_reported_iff usage evidence clock t rows h _

end

def crowd (n : Nat) : UsageOutbox where
  rows := (range n).map fun i => { event := { leaseToken := decimal i }, createdAt := 0 }
  nodup := by rw [map_map]; exact nodup_range.map decimal_injective

theorem pendingRows_crowd (n : Nat) : (crowd n).pendingRows = (crowd n).rows := by
  have hp : (crowd n).rows.filter isPending = (crowd n).rows := by
    refine filter_eq_self.2 fun row hr => ?_
    obtain ⟨i, -, rfl⟩ := mem_map.1 hr
    rfl
  have hs : (crowd n).rows.Pairwise fun a b => a.createdAt ≤ b.createdAt := by
    rw [crowd, pairwise_map]; exact pairwise_of_forall fun _ _ => Int.le_refl 0
  rw [UsageOutbox.pendingRows, hp, hs.insertionSort_eq]

theorem length_crowd (n : Nat) : (crowd n).pendingRows.length = n := by
  rw [pendingRows_crowd, crowd, length_map, length_range]

theorem nulFree_crowd {n : Nat} (h : row ∈ (crowd n).pendingRows) : NulFree row.key := by
  rw [pendingRows_crowd] at h
  obtain ⟨i, -, rfl⟩ := mem_map.1 h
  exact nulFree_decimal i

theorem readApart_crowd (n : Nat) : ReadApart (crowd n).pendingRows := by
  have hk : (crowd n).pendingRows.map (fun row => cstr row.key) =
      (crowd n).pendingRows.map key :=
    map_congr_left fun row hr => (nulFree_crowd hr).cstr_eq
  rw [ReadApart, hk]
  exact (crowd n).nodup_pendingRows

theorem accepted_crowd_reported : (crowd 150).pendingRows.length = 150 ∧
      ∀ row ∈ (crowd 150).pendingRows, .reportUsage row.readBack ∈
        (passes (byLease (fun _ => { accepted := true }) fun _ _ => { accepted := true })
          (fun _ => 0) ⟨.durable (crowd 150) .empty, []⟩ 2).sent := by
  have hnone : ∀ row ∈ (crowd 150).pendingRows,
      stuck (fun _ => { accepted := true }) row = false := fun row hrow => by
    simp [stuck, nulFree_crowd hrow, resolves, RpcAck.acknowledged]
  have hreported := usage_reported_iff (fun _ => { accepted := true })
    (fun _ _ => { accepted := true }) (fun _ => 0) (crowd 150) .empty (readApart_crowd 150)
  rw [length_crowd, covered_of_none_stays hnone] at hreported
  exact ⟨length_crowd 150, hreported.2 (by decide)⟩

theorem crowd_starves_the_last : (crowd 101).pendingRows.length = 101 ∧
      ¬ ∀ row ∈ (crowd 101).pendingRows, .reportUsage row.readBack ∈
        (passes (byLease (fun _ => { retryable := true }) fun _ _ => { accepted := true })
          (fun _ => 0) ⟨.durable (crowd 101) .empty, []⟩ 2).sent := by
  refine ⟨length_crowd 101, fun hall => ?_⟩
  have hstay : ∀ row ∈ (crowd 101).pendingRows,
      stuck (fun _ => { retryable := true }) row = true := fun row _ => by
    simp [stuck, resolves, RpcAck.acknowledged]
  have hcovered : covered 100 (stuck fun _ => { retryable := true }) (crowd 101).pendingRows 2 =
      100 := covered_of_all_stay hstay (by rw [length_crowd]; omega) 1
  rw [all_reported_iff _ _ _ _ _ (readApart_crowd 101), length_crowd, hcovered] at hall
  omega

end

end Pass

end Gateway.Usage
