import Gateway.Forwarder.Chunking

/-! # The outcome of a stream -/

namespace Gateway.Forwarder.StreamPipe

open Lib

structure Outcome where
  converted : List Bytes := []
  result : StreamResult := {}
  deriving DecidableEq

def dataLine (event : Bytes) : Bool := (lines event).any fun line => startsWith line "data:"

def told (r : StreamResult) : StreamResult where
  toUsageReading := r.toUsageReading
  terminalEventSeen := r.terminalEventSeen
  policyBlocked := r.policyBlocked
  policyFailedClosed := r.policyFailedClosed
  policyErrorCode := r.policyErrorCode
  policyMessage := r.policyMessage

def convertedAction : PipeAction → Option Bytes
  | .wrote (.event provider _) delivered => if dataLine provider then some delivered else none
  | _ => none

def outcome (st : PipeState) : Outcome where
  converted := st.log.filterMap convertedAction
  result := told st.result

section

variable (p : StreamPipe) (env : Surroundings)

def conversion (event : Bytes) : List Bytes :=
  if dataLine event && !(p.transformEvent event).isEmpty then [p.transformEvent event] else []

def tellNext (o : Outcome × Nat) (event : Bytes) : Except Outcome (Outcome × Nat) :=
  let noted := p.noteEvent event o.1.result
  match p.verdict o.2 event (p.transformEvent event) with
  | (none, n) => .ok ({ converted := o.1.converted ++ p.conversion event, result := noted }, n)
  | (some decision, _) => .error { o.1 with result := told (refused decision noted) }

def tellAll (bytes : Bytes) : Outcome :=
  match (nextEvent.frames bytes).1.foldlM p.tellNext ({}, 0) with
  | .ok o => o.1
  | .error o => o

theorem told_noteEvent (event : Bytes) (r : StreamResult) :
    told (p.noteEvent event r) = p.noteEvent event (told r) := by
  have ht : ∀ r, told (p.noteTerminal event r) = p.noteTerminal event (told r) := by
    intro r
    unfold noteTerminal
    split <;> rfl
  unfold noteEvent
  split
  · rw [ht]; rfl
  · exact ht r

theorem told_refused (decision : StreamPolicyDecision) (r : StreamResult) :
    told (refused decision r) = told (refused decision (told r)) := by
  unfold refused
  rfl

theorem told_totalDurationMs (r : StreamResult) (ms : Int) :
    told { r with totalDurationMs := ms } = told r := rfl

variable (st : PipeState)

@[simp] theorem outcome_finish : outcome (finish env st) = outcome st := by
  unfold outcome
  rw [finish_result, finish_log, told_totalDurationMs]

@[simp] theorem outcome_received : outcome (received env st.tick) = outcome st := by
  obtain ⟨ms, h⟩ := received_result env st.tick
  unfold outcome
  rw [h, received_log]
  rfl

theorem received_policyCalls : (received env st).policyCalls = st.policyCalls := by
  unfold received
  simp only
  split <;> rfl

theorem outcome_endOfStream : outcome (endOfStream env st) = outcome st := by
  unfold endOfStream
  rw [outcome_finish]
  split <;> rfl

theorem outcome_written (k : Nat) (origin : Origin) (data : Bytes) : outcome { st with
      writeCalls := k, log := st.log ++ [.wrote origin data]
      result.bytesForwarded := st.result.bytesForwarded + data.length } =
    { converted := st.log.filterMap convertedAction ++
        (convertedAction (.wrote origin data)).toList
      result := told st.result } := by
  have hl : [PipeAction.wrote origin data].filterMap convertedAction =
      (convertedAction (.wrote origin data)).toList := by
    cases h : convertedAction (.wrote origin data) <;> simp [h]
  unfold outcome
  rw [List.filterMap_append, hl]
  rfl

def look (st : PipeState) : Outcome × Nat := (outcome st, st.policyCalls)

variable {p env} in
theorem lookFlow_transformOne (hp : Patient p env) (st : PipeState) (event : Bytes) :
    lookFlow look outcome (p.transformOne env st event) = p.tellNext (look st) event := by
  obtain ⟨st', hr, hl, hc, ha⟩ := applyPolicy_verdict p event
    (p.transformEvent event) { st with result := p.noteEvent event st.result }
  have hr : st'.result = p.noteEvent event st.result := hr
  have hl : st'.log.filterMap convertedAction = st.log.filterMap convertedAction := by
    rcases hl with h | ⟨content, d, h⟩
    · rw [h]
    · rw [h, List.filterMap_append]; exact List.append_nil _
  have hn : p.noteEvent event (told st.result) = told (p.noteEvent event st.result) :=
    (told_noteEvent p event st.result).symm
  unfold transformOne tellNext look
  simp only
  change _ = match p.verdict st.policyCalls event (p.transformEvent event) with
    | (none, n) => _
    | (some decision, _) => _
  cases hv : p.verdict st.policyCalls event (p.transformEvent event) with
  | mk refusal n =>
    rw [hv] at ha hc
    cases refusal with
    | some decision =>
      obtain ⟨k, hw⟩ := writeAll_taken hp.takes .policyError
        (p.policyErrorEvent (refused decision (p.noteEvent event st.result)))
        { st' with result := refused decision (p.noteEvent event st.result) }
      have hd : p.deliver env event (p.transformEvent event)
          { st with result := p.noteEvent event st.result } = .error (finish env
            (p.emitPolicyError env
              { st' with result := refused decision (p.noteEvent event st.result) })) := by
        unfold deliver
        rw [ha]; rfl
      rw [hd, emitPolicyError, hw, lookFlow, outcome_finish, outcome_written]
      simp only [hl, outcome, hn]
      rw [told_refused]
      simp [convertedAction]
    | none =>
      unfold deliver
      rw [ha]
      simp only [Bool.not_true, Bool.false_eq_true, if_false]
      by_cases he : (p.transformEvent event).isEmpty
      · simp only [he, if_true]
        refine congrArg Except.ok (Prod.ext ?_ hc)
        have hco : p.conversion event = [] := by simp [conversion, he]
        change ({ converted := st'.log.filterMap convertedAction, result := told st'.result } :
          Outcome) = { converted := st.log.filterMap convertedAction ++ p.conversion event
                       result := p.noteEvent event (told st.result) }
        rw [hco, hl, hr, hn, List.append_nil]
      · obtain ⟨k, hw⟩ := writeAll_taken hp.takes
          (.event event (p.transformEvent event)) (p.transformEvent event) st'
        rw [if_neg he, hw]
        simp only [if_true]
        refine congrArg Except.ok (Prod.ext ((outcome_written st' k _ _).trans ?_) hc)
        have hco : (convertedAction (.wrote (.event event (p.transformEvent event))
            (p.transformEvent event))).toList = p.conversion event := by
          cases hli : dataLine event <;> simp [conversion, convertedAction, hli, he]
        change _ = ({ converted := st.log.filterMap convertedAction ++ p.conversion event
                      result := p.noteEvent event (told st.result) } : Outcome)
        rw [hco, hl, hr, hn]

variable {p env} in
theorem simulates_look (hp : Patient p env) : Simulates p env look outcome p.tellNext Prod.fst where
  event := lookFlow_transformOne hp
  received st := by
    unfold look
    rw [outcome_received]
    exact congrArg (Prod.mk (outcome st)) (received_policyCalls env st.tick)
  acc st rest := rfl
  ended st := outcome_endOfStream env st.tick

variable {p env} in
theorem outcome_run (hm : p.mode ≠ .passthrough) (hp : Patient p env)
    (chunks : List Bytes) (hne : ∀ chunk ∈ chunks, chunk ≠ []) :
    outcome (p.run env (chunks.map .bytes)) = p.tellAll chunks.flatten := by
  rw [(simulates_look hp).run hm hp chunks hne, tellAll, show look (start env) = ({}, 0) from rfl]
  cases (nextEvent.frames chunks.flatten).1.foldlM p.tellNext ({}, 0) <;> rfl

end

end Gateway.Forwarder.StreamPipe
