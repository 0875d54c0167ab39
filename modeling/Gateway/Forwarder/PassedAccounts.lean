import Mathlib.Data.List.Forall2
import Gateway.Forwarder.Passthrough
import Gateway.Forwarder.StreamUsage

/-! # The account of a passed-through stream -/

namespace Gateway.Forwarder.StreamPipe

open Lib Cutter List

def account (r : StreamResult) : UsageReading × Bool :=
  ({ r.toUsageReading with providerUsageJson := [] }, r.terminalEventSeen)

def accountOf (p : StreamPipe) (events : List Bytes) : UsageReading × Bool :=
  account (events.foldl p.noted {}).result

variable {chunks : List Bytes}

section

variable {p : StreamPipe} {env : Surroundings} (hpolicy : p.config.policy = none)

include hpolicy in
theorem foldlM_passEvent_unpoliced (env : Surroundings) (events : List Bytes) (st : PipeState) :
    ∃ s, events.foldlM (p.passEvent env) st = .ok s ∧ SameAcc st s ∧
      view s = events.foldl p.noted (view st) := by
  induction events generalizing st with
  | nil => exact ⟨st, rfl, SameAcc.refl st, rfl⟩
  | cons event events ih =>
    obtain ⟨s, hs, hsa, hvi⟩ :=
      ih { st with result := p.noteTerminal event (p.readUsage event st.result) }
    refine ⟨s, ?_, hsa, ?_⟩
    · have hev : p.passEvent env st event =
          .ok { st with result := p.noteTerminal event (p.readUsage event st.result) } := by
        simp [passEvent, hpolicy]
      rw [foldlM_cons, hev]; exact hs
    · rw [hvi, view_noted, foldl_cons]

variable (hpatient : Patient p env) (hmode : p.mode = .passthrough)

include hpolicy hpatient hmode

theorem step_unpoliced {st : PipeState} (hs : st.streamStart = env.clock 0) {chunk : Bytes}
    (hne : chunk ≠ []) : ∃ s, p.step env st (.bytes chunk) = .ok s ∧ s.streamStart = env.clock 0 ∧
      s.acc = (p.taken st.acc (.bytes chunk)).2 ∧
      view s = (p.taken st.acc (.bytes chunk)).1.foldl p.noted (sending (view st) chunk) := by
  obtain ⟨s, hon, hsa, hvi⟩ := passOn_patient hpatient chunk (received env st.tick)
  have hacc : s.acc = st.acc := hsa.1.trans (by simp)
  obtain ⟨t, hfo, hsa', hvi'⟩ :=
    foldlM_passEvent_unpoliced hpolicy env (nextEvent.frames (st.acc ++ chunk)).1 s
  have hst : p.step env st (.bytes chunk) =
      .ok { t with acc := p.keptTail (nextEvent.frames (st.acc ++ chunk)).2 } := by
    unfold step
    rw [if_pos hmode, round_chunk hpatient _ _ hs hne, passChunk, hon, ok_bind, passEvents, hacc]
    simp only [hfo, ok_bind, keepRest, hpolicy]; rfl
  refine ⟨_, hst, ?_, acc_of_step p env hst, ?_⟩
  · exact hsa'.2.trans (hsa.2.trans (by simpa using hs))
  · have hta : (p.taken st.acc (.bytes chunk)).1 = (nextEvent.frames (st.acc ++ chunk)).1 := rfl
    have hse : view s = sending (view st) chunk := by rw [hvi, hpolicy]; simp
    rw [hta, ← hse, ← hvi']; rfl

theorem view_drive_unpoliced (chunks : List Bytes) (hne : ∀ chunk ∈ chunks, chunk ≠ [])
    {st : PipeState} (hs : st.streamStart = env.clock 0) :
    view (drive (p.step env) (.bytes []) (chunks.map .bytes) st) =
      atEnd (sending ((p.cutEvents st.acc (chunks.map .bytes)).foldl p.noted (view st))
        chunks.flatten) := by
  induction chunks generalizing st with
  | nil =>
    simp only [map_nil, drive, step_eof, stateOf_error, flatten_nil,
      totalTimeout_patient hpatient hs, Bool.false_eq_true, if_false]
    rw [view_endOfStream, view_tick, sending_nil]; rfl
  | cons chunk chunks ih =>
    have hc := hne chunk mem_cons_self
    obtain ⟨s, hst, hsta, hacc, hvi⟩ := step_unpoliced hpolicy hpatient hmode hs hc
    rw [map_cons, drive_cons_of_ok hst,
      ih (fun c hc => hne c (mem_cons_of_mem chunk hc)) hsta, hacc, hvi,
      cutEvents_cons p st.acc (fun h => hc (ReadOutcome.bytes.inj h)), foldl_append,
      foldl_noted_sending, foldl_noted_sending, sending_sending, flatten_cons]

theorem account_run_unpoliced (hne : ∀ chunk ∈ chunks, chunk ≠ []) :
    account (p.run env (chunks.map .bytes)).result =
      p.accountOf (p.cutEvents [] (chunks.map .bytes)) := by
  have hvi := view_drive_unpoliced hpolicy hpatient hmode chunks hne
    (show (start env).streamStart = env.clock 0 from rfl)
  have hre := congrArg (fun d => account d.result) hvi
  have hen : ∀ d : Delivered, account (atEnd d).result = account d.result := by
    intro d
    unfold atEnd
    split <;> rfl
  exact hre.trans (hen _)

end

theorem readBytes_chunks (hne : ∀ chunk ∈ chunks, chunk ≠ []) :
    readBytes (chunks.map .bytes) = chunks.flatten := by
  induction chunks with
  | nil => rfl
  | cons chunk chunks ih =>
    obtain ⟨b, bs, rfl⟩ := exists_cons_of_ne_nil (hne chunk mem_cons_self)
    rw [map_cons, readBytes, ih fun c hc => hne c (mem_cons_of_mem _ hc), flatten_cons]

theorem frames_drop {acc : Bytes} {k : Nat} (hacc : nextEvent.cut acc = none)
    (hk : k = 0 ∨ k + 3 ≤ acc.length) (bytes : Bytes) :
    Forall₂ (· <:+ ·) (nextEvent.frames (acc.drop k ++ bytes)).1
        (nextEvent.frames (acc ++ bytes)).1 ∧
      ∃ j, (j = 0 ∨ j + 3 ≤ (nextEvent.frames (acc ++ bytes)).2.length) ∧
        (nextEvent.frames (acc.drop k ++ bytes)).2 = (nextEvent.frames (acc ++ bytes)).2.drop
          j := by
  have hdrop : acc.drop k ++ bytes = (acc ++ bytes).drop k :=
    (drop_append_of_le_length (by omega)).symm
  cases hcut : nextEvent.cut (acc ++ bytes) with
  | none =>
    have hnone : nextEvent.cut (acc.drop k ++ bytes) = none := by
      rw [hdrop]; exact cutEvent_drop_of_none k hcut
    rw [frames_of_none hcut, frames_of_none hnone]
    refine ⟨.nil, k, hk.imp id fun hle => ?_, hdrop⟩
    rw [length_append]; omega
  | some cut =>
    obtain ⟨event, rest⟩ := cut
    have hsome : nextEvent.cut (acc.drop k ++ bytes) = some (event.drop k, rest) := by
      rcases hk with rfl | hle
      · exact hcut
      · rw [hdrop]; exact cutEvent_drop hacc hle hcut
    rw [frames_of_some hcut, frames_of_some hsome]
    refine ⟨.cons (drop_suffix k event) ?_, 0, .inl rfl, rfl⟩
    exact forall₂_same.2 fun event _ => suffix_rfl

theorem cutEvents_suffixes {p : StreamPipe} (hmode : p.mode = .passthrough)
    (hbuffer : 3 ≤ p.config.readBufSize) (reads : List ReadOutcome) {acc : Bytes} {k : Nat}
    (hacc : nextEvent.cut acc = none) (hk : k = 0 ∨ k + 3 ≤ acc.length) :
    Forall₂ (· <:+ ·) (p.cutEvents (acc.drop k) reads)
      (nextEvent.frames (acc ++ readBytes reads)).1 := by
  induction reads generalizing acc k with
  | nil => rw [readBytes, append_nil, frames_of_none hacc]; exact .nil
  | cons outcome outcomes ih =>
    cases outcome with
    | error errno => exact ih hacc hk
    | bytes chunk =>
      cases chunk with
      | nil => rw [readBytes, append_nil, frames_of_none hacc]; exact .nil
      | cons b bs =>
        obtain ⟨hevents, j, hj, hrest⟩ := frames_drop hacc hk (b :: bs)
        obtain ⟨i, hi, hkept⟩ : ∃ i,
            (i = 0 ∨ i + 3 ≤ (nextEvent.frames (acc ++ b :: bs)).2.length) ∧
            p.keptTail ((nextEvent.frames (acc ++ b :: bs)).2.drop j) =
              (nextEvent.frames (acc ++ b :: bs)).2.drop i := by
          unfold keptTail
          split
          · next hlong =>
            rw [length_drop] at hlong ⊢
            refine ⟨j + ((nextEvent.frames (acc ++ b :: bs)).2.length - j - p.config.readBufSize),
              .inr (by omega), drop_drop⟩
          · exact ⟨j, hj, rfl⟩
        have htail : (p.taken (acc.drop k) (.bytes (b :: bs))).2 =
            (nextEvent.frames (acc ++ b :: bs)).2.drop i := by
          rw [← hkept, ← hrest]; exact if_pos hmode
        rw [cutEvents_cons p _ (by simp), htail, readBytes, ← append_assoc,
          frames_append (acc ++ b :: bs)]
        exact rel_append hevents (ih (cut_rest _) hi)

theorem passed_accounts_agree {p : StreamPipe} (hmode : p.mode = .passthrough)
    (hpolicy : p.config.policy = none) {env env' : Surroundings} (hpatient : Patient p env)
    (hpatient' : Patient p env') {chunks chunks' : List Bytes}
    (hne : ∀ chunk ∈ chunks, chunk ≠ []) (hne' : ∀ chunk ∈ chunks', chunk ≠ [])
    (hsame : chunks.flatten = chunks'.flatten) :
    (p.Uncut (chunks.map .bytes) → p.Uncut (chunks'.map .bytes) →
      account (p.run env (chunks.map .bytes)).result =
          p.accountOf (nextEvent.frames chunks.flatten).1 ∧
        account (p.run env (chunks.map .bytes)).result =
          account (p.run env' (chunks'.map .bytes)).result) ∧
    (3 ≤ p.config.readBufSize → ∃ tails,
      Forall₂ (· <:+ ·) tails (nextEvent.frames chunks.flatten).1 ∧
        account (p.run env (chunks.map .bytes)).result = p.accountOf tails) := by
  have hwhole : ∀ {chunks : List Bytes}, (∀ chunk ∈ chunks, chunk ≠ []) →
      p.Uncut (chunks.map .bytes) →
      p.cutEvents [] (chunks.map .bytes) = (nextEvent.frames chunks.flatten).1 := by
    intro chunks hne huncut
    have hevents := cutEvents_eq_frames p (chunks.map .bytes) (show nextEvent.cut [] =
      none from rfl)
      huncut
    rw [hevents, nil_append, readBytes_chunks hne]
  rw [account_run_unpoliced hpolicy hpatient hmode hne,
    account_run_unpoliced hpolicy hpatient' hmode hne']
  refine ⟨fun huncut huncut' => ?_, fun hbuffer => ?_⟩
  · rw [hwhole hne huncut, hwhole hne' huncut', hsame]; exact ⟨rfl, rfl⟩
  · refine ⟨p.cutEvents [] (chunks.map .bytes), ?_, rfl⟩
    have htails := cutEvents_suffixes hmode hbuffer (chunks.map .bytes)
      (show nextEvent.cut [] = none from rfl) (.inl rfl)
    rwa [drop_zero, nil_append, readBytes_chunks hne] at htails

def smallPipe : StreamPipe where
  config := { readBufSize := 3 }
  mode := .passthrough
  rj := RapidJson.ofTable [] []

def evenReads : List Bytes := ["dat", "a: ", "[DO", "NE]", "\n\n"]

def unevenReads : List Bytes := ["da", "ta:", " [D", "ONE", "]\n", "\n"]

theorem end_missed_by_reads : evenReads.flatten = unevenReads.flatten ∧
    (∀ chunk ∈ evenReads ++ unevenReads, chunk.length ≤ smallPipe.config.readBufSize) ∧
    (smallPipe.run patientClient (evenReads.map .bytes)).result.terminalEventSeen = true ∧
    (smallPipe.run patientClient (unevenReads.map .bytes)).result.terminalEventSeen = false ∧
    account (smallPipe.run patientClient (evenReads.map .bytes)).result ≠
      account (smallPipe.run patientClient (unevenReads.map .bytes)).result := by
  have hseen :
      (smallPipe.run patientClient (evenReads.map .bytes)).result.terminalEventSeen := by
    decide +kernel
  have hmissed :
      (smallPipe.run patientClient (unevenReads.map .bytes)).result.terminalEventSeen = false := by
    decide +kernel
  refine ⟨rfl, by decide, hseen, hmissed, fun heq => ?_⟩
  have hflag : (smallPipe.run patientClient (evenReads.map .bytes)).result.terminalEventSeen =
      (smallPipe.run patientClient (unevenReads.map .bytes)).result.terminalEventSeen :=
    congrArg Prod.snd heq
  rw [hseen, hmissed] at hflag
  cases hflag

theorem usage_stream_read_alike :
    let pipe := promptPipe.withPolicy none
    let bytes := promptEvent "7" ++ promptEvent "4294967306" ++ "data: [DONE]\n\n"
    let pieces := [bytes.take 20, (bytes.drop 20).take 40, bytes.drop 60]
    account (pipe.run patientClient ([bytes].map .bytes)).result =
        account (pipe.run patientClient (pieces.map .bytes)).result ∧
      (pipe.run patientClient (pieces.map .bytes)).result.inputTokens = 10 := by
  intro pipe bytes pieces
  have hpatient : Patient pipe patientClient := patientClient_patient pipe
  refine ⟨((passed_accounts_agree rfl rfl hpatient hpatient ?_ ?_ ?_).1 ?_ ?_).2, ?_⟩
  all_goals decide +kernel

end Gateway.Forwarder.StreamPipe
