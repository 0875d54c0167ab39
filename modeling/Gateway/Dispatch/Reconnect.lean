import Gateway.Dispatch.Answers

/-! # A connection that was closed while it was idle -/

namespace Gateway.Dispatch

open Lib

namespace Client

variable {k : Kernel} {p : Peer} {s : Client} {connection : Connection} {call : Call}

structure Answering (k : Kernel) (p : Peer) : Prop extends Willing k where
  connects : ∀ n, k.connects n = true
  answers : ∀ number payload, p.answer number [payload] ≠ []
  small : ∀ number payload, (p.answer number [payload]).length ≤ maxAnswerBytes

theorem attempt_answered (h : Answering k p) {number : Nat} (hfd : s.fd = some { number })
    (hf : call.words.length + 1 < 2 ^ 32) :
    (attempt k p call s).1 = p.answer number [call.payload] := by
  obtain ⟨x, ⟨hfd₁, -⟩, ha⟩ := sendFrame_spec (k := k) call hfd
  have hs : (sendFrame k call s).1 := sendFrame_willing h.toWilling call hfd
  obtain rfl := (ha hs).trans (frameOf_eq hf)
  obtain ⟨-, -, ho⟩ := (idle_new (p := p) number).sent call.payload hf
    { number, sent := [] ++ withLength call.payload } rfl rfl
  have hu : p.unread { number, sent := [] ++ withLength call.payload } =
      withLength (p.answer number [call.payload]) ++ [] := by
    rw [List.append_nil]; exact ho
  unfold attempt
  dsimp only
  rw [if_pos hs]
  exact recvFrame_willing h.toWilling hfd₁ hu (h.answers _ _) (h.small _ _)

theorem ensureConnected_of_closed (h : Answering k p) (hfd : s.fd = some connection)
    (hc : k.peeks s.calls = .closed) :
    if k.now (s.calls + 1) + s.reconnectDelayMs ≤ k.now (s.calls + 2) then
      (ensureConnected k s).1 ∧ (ensureConnected k s).2.fd = some { number := s.opened }
    else (ensureConnected k s).1 = false := by
  have hco : ensureConnected k s = reconnect k (disconnect k s.called) := by
    unfold ensureConnected isAlive
    rw [hfd, hc]; rfl
  have hw : disconnect k s.called =
      { s with
        fd := none
        calls := s.calls + 2
        reconnectAfter := k.now (s.calls + 1) + s.reconnectDelayMs
        reconnectDelayMs := min (s.reconnectDelayMs * 2) 3000 } := by
    unfold disconnect called backOff
    rw [hfd]; rfl
  rw [hco, hw]
  unfold reconnect
  dsimp only
  by_cases ho : k.now (s.calls + 1) + s.reconnectDelayMs ≤ k.now (s.calls + 2)
  · rw [if_pos ho, if_neg (by omega), if_pos (h.connects _)]; exact ⟨rfl, rfl⟩
  · rw [if_neg ho, if_pos (by omega)]

theorem idle_close_answered_iff (h : Answering k p) (hfd : s.fd = some connection)
    (hclosed : k.peeks s.calls = .closed) (hfits : call.words.length + 1 < 2 ^ 32) :
    (exchange k p call s).1 = p.answer s.opened [call.payload] ↔
      k.now (s.calls + 1) + s.reconnectDelayMs ≤ k.now (s.calls + 2) := by
  have hconnected := ensureConnected_of_closed h hfd hclosed
  have hanswers := h.answers s.opened call.payload
  unfold exchange exchangeLoop
  dsimp only
  by_cases hover : k.now (s.calls + 1) + s.reconnectDelayMs ≤ k.now (s.calls + 2)
  · rw [if_pos hover] at hconnected
    obtain ⟨hup, hnew⟩ := hconnected
    have hanswer : (attempt k p call (ensureConnected k s).2).1 = p.answer s.opened
      [call.payload] :=
      attempt_answered h hnew hfits
    rw [hup, Bool.not_true, if_neg Bool.false_ne_true, if_pos (by simp [hanswer, hanswers])]
    exact iff_of_true hanswer hover
  · rw [if_neg hover] at hconnected
    rw [hconnected, Bool.not_false, if_pos rfl]
    exact iff_of_false (Ne.symm hanswers) hover

def restartedKernel (passed : Int) : Kernel where
  now n := if n < 2 then 0 else passed
  connects _ := true
  peeks _ := .closed
  sends _ := some 0
  reads _ := some 0

def restartedPeer : Peer where
  answer _ _ := [0x86, 1]
  answer_fits _ _ := by decide

def idleClient : Client := { fd := some { number := 0 }, opened := 1 }

theorem restarted_answering (passed : Int) : Answering (restartedKernel passed) restartedPeer where
  connects _ := rfl
  sends _ := nofun
  reads _ := nofun
  answers _ _ := nofun
  small _ _ := Nat.le_of_ble_eq_true rfl

def evidenceCall : Call := { method := .recordLeaseEvidence, words := [1, 2, 3, 4, 5, 6, 7, 8] }

theorem answered_after_delay :
    (exchange (restartedKernel 50) restartedPeer evidenceCall idleClient).1 = [0x86, 1] := by
  exact (idle_close_answered_iff (restarted_answering 50) rfl rfl (by decide)).2 (by decide)

theorem evidence_lost_after_restart : Answering (restartedKernel 1) restartedPeer ∧
      (restartedKernel 1).peeks idleClient.calls = .closed ∧
      (exchange (restartedKernel 1) restartedPeer evidenceCall idleClient).1 = [] ∧
      restartedPeer.answer idleClient.opened [evidenceCall.payload] = [0x86, 1] := by
  exact ⟨restarted_answering 1, rfl, by decide, rfl⟩

end Client

end Gateway.Dispatch
