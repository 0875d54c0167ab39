import Gateway.Usage.ReporterPass

/-! # The history of the evidence outbox -/

namespace Gateway.Usage

open Lib Dispatch KeyedTable List
open Protocol (toInt32)

def Evidence.key (e : Evidence) : Bytes × Bytes := (e.leaseToken, e.stage)

inductive EvidenceOp where
  | record (now : Int) (evidence : Evidence)
  | peek (limit : UInt64)
  | acknowledge (now : Int) (leaseToken stage : Bytes)
  | deadLetter (now : Int) (leaseToken stage errorCode : Bytes)
  | restart

def EvidenceOp.Records (key : Bytes × Bytes) : EvidenceOp → Prop
  | .record _ e => e.key = key
  | _ => False

def EvidenceOp.Resolves (key : Bytes × Bytes) : EvidenceOp → Prop
  | .acknowledge _ leaseToken stage => (leaseToken, stage) = key
  | .deadLetter _ leaseToken stage _ => (leaseToken, stage) = key
  | _ => False

def UsageCollector.evidenceStep : UsageCollector → EvidenceOp → UsageCollector
  | c, .record now evidence => c.recordEvidence now evidence
  | c, .peek _ => c
  | c, .acknowledge now leaseToken stage => c.acknowledgeEvidence now leaseToken stage
  | c, .deadLetter now leaseToken stage errorCode =>
    c.deadLetterEvidence now leaseToken stage errorCode
  | c, .restart => c

def UsageCollector.evidenceRun (c : UsageCollector) (ops : List EvidenceOp) : UsageCollector :=
  ops.foldl evidenceStep c

def Unresolved (ops : List EvidenceOp) (e : Evidence) : Prop :=
  ∃ earlier now later, ops = earlier ++ .record now e :: later ∧
    (∀ op ∈ earlier, ¬ op.Records e.key) ∧ ∀ op ∈ later, ¬ op.Resolves e.key

variable {ops : List EvidenceOp} {op : EvidenceOp}

theorem unresolved_snoc {e : Evidence} : Unresolved (ops ++ [op]) e ↔
      (Unresolved ops e ∧ ¬ op.Resolves e.key) ∨
        ((∃ now, op = .record now e) ∧ ∀ op ∈ ops, ¬ op.Records e.key) := by
  constructor
  · rintro ⟨earlier, now, later, heq, hf, ho⟩
    rcases eq_nil_or_concat' later with rfl | ⟨later, last, rfl⟩
    · obtain ⟨rfl, hop⟩ := append_inj' heq rfl; exact .inr ⟨⟨now, head_eq_of_cons_eq hop⟩, hf⟩
    · rw [← cons_append, ← append_assoc] at heq
      obtain ⟨rfl, hop⟩ := append_inj' heq rfl
      obtain rfl := head_eq_of_cons_eq hop
      exact .inl ⟨⟨earlier, now, later, rfl, hf, fun op h => ho op (by simp [h])⟩,
        ho op (by simp)⟩
  · rintro (⟨⟨earlier, now, later, rfl, hf, ho⟩, hop⟩ | ⟨⟨now, rfl⟩, hf⟩)
    · refine ⟨earlier, now, later ++ [op], by simp, hf, fun op' h => ?_⟩
      rcases mem_append.1 h with h | h
      · exact ho op' h
      · rwa [mem_singleton.1 h]
    · exact ⟨ops, now, [], rfl, hf, by simp⟩

namespace EvidenceOutbox

def Holds (t : EvidenceOutbox) (e : Evidence) : Prop :=
  ∃ row ∈ t.rows, row.evidence = e ∧ row.isPending = true

variable {t : EvidenceOutbox} {e : Evidence}

variable (now : Int) (errorCode : Option Bytes)

theorem holds_recordEvidence (e' : Evidence) : (t.recordEvidence now e').Holds e ↔
      t.Holds e ∨ e'.key ∉ t.rows.map EvidenceRow.key ∧ e' = e := by
  constructor
  · rintro ⟨row, hr, rfl, hp⟩
    rcases mem_insertNew.1 hr with hold | ⟨hn, rfl⟩
    · exact .inl ⟨row, hold, rfl, hp⟩
    · exact .inr ⟨hn, rfl⟩
  · rintro (⟨row, hr, heq, hp⟩ | ⟨hn, rfl⟩)
    · exact ⟨row, mem_insertNew.2 (.inl hr), heq, hp⟩
    · exact ⟨_, mem_insertNew.2 (.inr ⟨hn, rfl⟩), rfl, rfl⟩

theorem resolved_spec (row : EvidenceRow) : (resolved now errorCode row).evidence = row.evidence ∧
      (resolved now errorCode row).isPending = false := by
  unfold resolved
  split
  · exact ⟨rfl, rfl⟩
  · next h => exact ⟨rfl, by simpa using h⟩

theorem holds_update (key : Bytes × Bytes) :
    Holds (t.update key (resolved now errorCode) (key_resolved now errorCode)) e ↔
      t.Holds e ∧ key ≠ e.key := by
  constructor
  · rintro ⟨row', hr', rfl, hp⟩
    obtain ⟨row, hr, rfl⟩ := mem_update.1 hr'
    by_cases hk : row.key = key
    · rw [if_pos hk, (resolved_spec now errorCode row).2] at hp; cases hp
    · rw [if_neg hk] at hp ⊢; exact ⟨⟨row, hr, rfl, hp⟩, fun h => hk h.symm⟩
  · rintro ⟨⟨row, hr, rfl, hp⟩, hk⟩
    exact ⟨row, mem_update.2 ⟨row, hr, if_neg fun h => hk h.symm⟩, rfl, hp⟩

def step (t : EvidenceOutbox) : EvidenceOp → EvidenceOutbox
  | .record now evidence => t.recordEvidence now evidence
  | .acknowledge now leaseToken stage => t.acknowledgeEvidence now leaseToken stage
  | .deadLetter now leaseToken stage errorCode =>
    t.deadLetterEvidence now leaseToken stage errorCode
  | .peek _ | .restart => t

theorem mem_keys_step {key : Bytes × Bytes} : key ∈ (t.step op).rows.map EvidenceRow.key ↔
      key ∈ t.rows.map EvidenceRow.key ∨ op.Records key := by
  cases op with
  | record now e => exact mem_keys_insertNew
  | acknowledge now leaseToken stage =>
    simp [step, acknowledgeEvidence, keys_update, EvidenceOp.Records]
  | deadLetter now leaseToken stage errorCode =>
    simp [step, deadLetterEvidence, keys_update, EvidenceOp.Records]
  | peek limit => simp [step, EvidenceOp.Records]
  | restart => simp [step, EvidenceOp.Records]

theorem holds_step : (t.step op).Holds e ↔ (t.Holds e ∧ ¬ op.Resolves e.key) ∨
      ((∃ now, op = .record now e) ∧ e.key ∉ t.rows.map EvidenceRow.key) := by
  cases op with
  | record now e' =>
    refine (holds_recordEvidence now e').trans ⟨?_, ?_⟩
    · rintro (hold | ⟨hf, rfl⟩)
      · exact .inl ⟨hold, id⟩
      · exact .inr ⟨⟨now, rfl⟩, hf⟩
    · rintro (⟨hold, -⟩ | ⟨⟨now', heq⟩, hf⟩)
      · exact .inl hold
      · cases heq; exact .inr ⟨hf, rfl⟩
  | acknowledge now leaseToken stage =>
    refine (holds_update now none (leaseToken, stage)).trans ?_
    simp [EvidenceOp.Resolves]
  | deadLetter now leaseToken stage errorCode =>
    refine (holds_update now (some errorCode) (leaseToken, stage)).trans ?_
    simp [EvidenceOp.Resolves]
  | peek limit => simp [step, EvidenceOp.Resolves]
  | restart => simp [step, EvidenceOp.Resolves]

end EvidenceOutbox

def evidenceAfter (ops : List EvidenceOp) : EvidenceOutbox := ops.foldl EvidenceOutbox.step .empty

theorem evidenceAfter_snoc (ops : List EvidenceOp) (op : EvidenceOp) :
    evidenceAfter (ops ++ [op]) = (evidenceAfter ops).step op := by
  rw [evidenceAfter, foldl_append]
  rfl

theorem evidenceRun_durable (usage : UsageOutbox) (t : EvidenceOutbox) (ops : List EvidenceOp) :
    (UsageCollector.durable usage t).evidenceRun ops =
      .durable usage (ops.foldl EvidenceOutbox.step t) := by
  induction ops generalizing t with
  | nil => rfl
  | cons op ops ih =>
    have hs : (UsageCollector.durable usage t).evidenceStep op = .durable usage (t.step op) := by
      cases op <;> rfl
    rw [UsageCollector.evidenceRun, foldl_cons, hs, ← UsageCollector.evidenceRun, ih, foldl_cons]

theorem mem_keys_evidenceAfter (ops : List EvidenceOp) (key : Bytes × Bytes) :
    key ∈ (evidenceAfter ops).rows.map EvidenceRow.key ↔ ∃ op ∈ ops, op.Records key := by
  induction ops using reverseRecOn with
  | nil => simp [evidenceAfter, empty]
  | append_singleton ops op ih =>
    rw [evidenceAfter_snoc, EvidenceOutbox.mem_keys_step, ih]
    simp [or_and_right, exists_or]

theorem holds_evidenceAfter (ops : List EvidenceOp) (e : Evidence) :
    (evidenceAfter ops).Holds e ↔ Unresolved ops e := by
  induction ops using reverseRecOn with
  | nil => simp [evidenceAfter, empty, EvidenceOutbox.Holds, Unresolved]
  | append_singleton ops op ih =>
    rw [evidenceAfter_snoc, EvidenceOutbox.holds_step, unresolved_snoc, ih, mem_keys_evidenceAfter]
    simp only [not_exists, not_and]

def unlimited : UInt64 := 0 - 1

structure Evidence.NulFree (e : Evidence) : Prop where
  leaseToken : Lib.NulFree e.leaseToken
  stage : Lib.NulFree e.stage
  source : Lib.NulFree e.source
  detail : Lib.NulFree e.detail

variable {row : EvidenceRow}

theorem EvidenceRow.readBack_of_nulFree (h : row.evidence.NulFree) :
    row.readBack = row.evidence := by
  rw [EvidenceRow.readBack, h.leaseToken.cstr_eq, h.stage.cstr_eq, h.source.cstr_eq,
    h.detail.cstr_eq]

theorem EvidenceOutbox.mem_peekEvidence_unlimited {t : EvidenceOutbox}
    (h : ∀ row ∈ t.rows, row.evidence.NulFree) (e : Evidence) :
    e ∈ t.peekEvidence unlimited ↔ t.Holds e := by
  have hi : toInt32 unlimited.toNat < 0 := by decide
  rw [peekEvidence, limited, if_pos hi, mem_map]
  refine exists_congr fun row => ?_
  rw [mem_insertionSort, mem_filter, and_assoc, and_comm (b := row.readBack = e)]
  refine and_congr_right fun hr => ?_
  rw [EvidenceRow.readBack_of_nulFree (h row hr)]

theorem EvidenceOutbox.evidence_of_mem_step {t : EvidenceOutbox} {row' : EvidenceRow}
    (h : row' ∈ (t.step op).rows) :
    (∃ row ∈ t.rows, row.evidence = row'.evidence) ∨ ∃ now, op = .record now row'.evidence := by
  have hu : ∀ {key now errorCode},
      row' ∈ (t.update key (resolved now errorCode) (key_resolved now errorCode)).rows →
        ∃ row ∈ t.rows, row.evidence = row'.evidence := by
    intro key now errorCode hm
    obtain ⟨row, hr, rfl⟩ := mem_update.1 hm
    refine ⟨row, hr, ?_⟩
    split
    · exact (resolved_spec now errorCode row).1.symm
    · rfl
  cases op with
  | record now e =>
    rcases mem_insertNew.1 h with hold | ⟨-, rfl⟩
    · exact .inl ⟨row', hold, rfl⟩
    · exact .inr ⟨now, rfl⟩
  | acknowledge now leaseToken stage => exact .inl (hu h)
  | deadLetter now leaseToken stage errorCode => exact .inl (hu h)
  | peek limit => exact .inl ⟨row', h, rfl⟩
  | restart => exact .inl ⟨row', h, rfl⟩

theorem recorded_of_mem (h : row ∈ (evidenceAfter ops).rows) :
    ∃ now, .record now row.evidence ∈ ops := by
  induction ops using reverseRecOn generalizing row with
  | nil => cases h
  | append_singleton ops op ih =>
    rw [evidenceAfter_snoc] at h
    rcases EvidenceOutbox.evidence_of_mem_step h with ⟨row', hr', heq⟩ | ⟨now, rfl⟩
    · obtain ⟨now, hr⟩ := ih hr'; exact ⟨now, mem_append_left _ (heq ▸ hr)⟩
    · exact ⟨now, by simp⟩

theorem evidence_absorbing (usage : UsageOutbox) (ops : List EvidenceOp)
    (hnul : ∀ now e, .record now e ∈ ops → Evidence.NulFree e) (e : Evidence) :
    e ∈ ((UsageCollector.durable usage .empty).evidenceRun ops).peekEvidence unlimited ↔
      Unresolved ops e := by
  have hrows : ∀ row ∈ (evidenceAfter ops).rows, row.evidence.NulFree := fun row hrow => by
    obtain ⟨now, hrecord⟩ := recorded_of_mem hrow
    exact hnul now _ hrecord
  rw [evidenceRun_durable, ← holds_evidenceAfter]
  exact EvidenceOutbox.mem_peekEvidence_unlimited hrows e

theorem first_detail_shown : ⟨"lease", "forwarded", "gateway", "first"⟩ ∈
      ((UsageCollector.durable .empty .empty).evidenceRun
        [.record 0 ⟨"lease", "forwarded", "gateway", "first"⟩,
          .record 1 ⟨"lease", "forwarded", "gateway", "second"⟩]).peekEvidence unlimited := by
  refine (evidence_absorbing .empty _ (fun now e h => ?_) _).2
    ⟨[], 0, [.record 1 ⟨"lease", "forwarded", "gateway", "second"⟩], rfl, by simp,
      by simp [EvidenceOp.Resolves]⟩
  simp only [mem_cons, EvidenceOp.record.injEq, not_mem_nil, or_false] at h
  rcases h with ⟨-, rfl⟩ | ⟨-, rfl⟩ <;> exact ⟨by decide, by decide, by decide, by decide⟩

end Gateway.Usage
