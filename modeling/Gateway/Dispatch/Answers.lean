import Gateway.Dispatch.Exchange

/-! # Answers match their requests -/

namespace Gateway.Dispatch

open Lib Option
open List hiding after

variable {payload rest : Bytes}

namespace Client

variable (k : Kernel) (p : Peer)

section

variable {k} {s : Client} {connection : Connection}

def Moved (s : Client) (connection : Connection) (s' : Client) : Prop :=
  s'.fd = some connection ∧ s'.opened = s.opened

theorem writeLoop_spec : ∀ (rounds : Nat) (data : Bytes) {s : Client} {connection : Connection},
    s.fd = some connection →
    ∃ x, Moved s { connection with sent := connection.sent ++ x } (writeLoop k rounds data s).2 ∧
      ((writeLoop k rounds data s).1 → x = data)
  | rounds, [], s, connection, h => ⟨[], by simpa [writeLoop, Moved] using h, fun _ => rfl⟩
  | 0, b :: data, s, connection, h =>
    ⟨[], by simpa [writeLoop, Moved] using h, fun hw => by cases hw⟩
  | rounds + 1, b :: data, s, connection, h => by
    unfold writeLoop send
    rw [h]
    cases hs : k.sends s.calls with
    | none =>
      refine ⟨[], ?_, fun hw => by cases hw⟩
      simpa [Moved, called] using h
    | some n =>
      dsimp only
      set moved : Connection :=
        { connection with sent := connection.sent ++ (b :: data).take (n + 1) } with hm
      obtain ⟨x, ⟨hfd, ho⟩, ha⟩ := writeLoop_spec rounds ((b :: data).drop (n + 1))
        (s := { s.called with fd := some moved }) rfl
      refine ⟨(b :: data).take (n + 1) ++ x, ⟨?_, ho⟩, fun hw => ?_⟩
      · rw [hfd, hm]; simp
      · rw [ha hw, take_append_drop]

theorem writeAll_spec (data : Bytes) (h : s.fd = some connection) :
    ∃ x, Moved s { connection with sent := connection.sent ++ x } (writeAll k data s).2 ∧
      ((writeAll k data s).1 → x = data) := writeLoop_spec _ _ h

def frameOf (call : Call) : Bytes :=
  littleEndian32 ((call.words.length + 1) % 2 ^ 32) ++ call.payload

theorem frameOf_eq {call : Call} (h : call.words.length + 1 < 2 ^ 32) :
    frameOf call = withLength call.payload := by
  rw [frameOf, Nat.mod_eq_of_lt h]
  rfl

theorem sendFrame_spec (call : Call) (h : s.fd = some connection) :
    ∃ x, Moved s { connection with sent := connection.sent ++ x } (sendFrame k call s).2 ∧
      ((sendFrame k call s).1 → x = frameOf call) := by
  unfold sendFrame
  rw [if_neg (by simp [h])]
  dsimp only
  obtain ⟨header, ⟨hfd, ho⟩, hh⟩ :=
    writeAll_spec (k := k) (littleEndian32 ((call.words.length + 1) % 2 ^ 32)) h
  split
  · exact ⟨header, ⟨hfd, ho⟩, fun hs => by cases hs⟩
  · next hw =>
    obtain ⟨method, ⟨hfd₂, ho₂⟩, hm⟩ := writeAll_spec (k := k) [call.method.byte] hfd
    split
    · next hw₂ =>
      obtain ⟨words, ⟨hfd₃, ho₃⟩, hwo⟩ := writeAll_spec (k := k) call.words hfd₂
      refine ⟨header ++ method ++ words, ⟨?_, ?_⟩, fun hs => ?_⟩
      · rw [hfd₃]; simp
      · rw [ho₃, ho₂, ho]
      · rw [hh (by simpa using hw), hm hw₂, hwo hs]; simp [frameOf, Call.payload]
    · refine ⟨header ++ method, ⟨?_, ?_⟩, fun hs => by cases hs⟩
      · rw [hfd₂]; simp
      · rw [ho₂, ho]

end

section

variable {k p} {s : Client} {connection : Connection}

theorem unread_take (connection : Connection) (n : Nat) :
    p.unread { connection with taken := connection.taken + n } = (p.unread connection).drop n :=
  drop_drop.symm

theorem readLoop_spec : ∀ (rounds missing : Nat) (got : Bytes) {s : Client}
    {connection : Connection}, s.fd = some connection →
    ∃ n, Moved s { connection with taken := connection.taken + n }
        (readLoop k p rounds missing got s).2 ∧
      ∀ data, (readLoop k p rounds missing got s).1 = some data →
        n = missing ∧ missing ≤ (p.unread connection).length ∧
          data = got ++ (p.unread connection).take missing
  | rounds, 0, got, s, connection, h =>
    ⟨0, by simpa [readLoop, Moved] using h, fun data hd => by simp_all [readLoop]⟩
  | 0, missing + 1, got, s, connection, h =>
    ⟨0, by simpa [readLoop, Moved] using h, fun data hd => by cases hd⟩
  | rounds + 1, missing + 1, got, s, connection, h => by
    have hf : Moved s { connection with taken := connection.taken + 0 } s.called := ⟨h, rfl⟩
    unfold readLoop read
    rw [h]
    cases hr : k.reads s.calls with
    | none => exact ⟨0, hf, fun data hd => by cases hd⟩
    | some n =>
      dsimp only
      set chunk := (p.unread connection).take (min (n + 1) (missing + 1)) with hc
      by_cases he : chunk.isEmpty
      · rw [if_pos he]; exact ⟨0, hf, fun data hd => by cases hd⟩
      · rw [if_neg he]
        dsimp only
        have hl : chunk.length ≤ missing + 1 := by rw [hc, length_take]; omega
        have hfr : chunk = (p.unread connection).take chunk.length := by
          rw [hc, length_take, take_eq_take_iff]; omega
        obtain ⟨m, ⟨hfd, ho⟩, ha⟩ := readLoop_spec rounds (missing + 1 - chunk.length)
          (got ++ chunk) (s := { s.called with
            fd := some { connection with taken := connection.taken + chunk.length } }) rfl
        refine ⟨chunk.length + m, ⟨?_, ho⟩, fun data hd => ?_⟩
        · rw [hfd]; simp [Nat.add_assoc]
        · obtain ⟨rfl, hle, rfl⟩ := ha data hd
          rw [unread_take] at hle ⊢
          rw [length_drop] at hle
          have hp : chunk.length ≤ (p.unread connection).length := by rw [hc, length_take]; omega
          have hs := take_add (l := p.unread connection) (i := chunk.length)
            (j := missing + 1 - chunk.length)
          rw [Nat.add_sub_cancel' hl, ← hfr] at hs
          exact ⟨by omega, by omega, by rw [hs, append_assoc]⟩

theorem readExactly_spec (size : Nat) (h : s.fd = some connection) :
    ∃ n, Moved s { connection with taken := connection.taken + n } (readExactly k p size s).2 ∧
      ∀ data, (readExactly k p size s).1 = some data →
        n = size ∧ size ≤ (p.unread connection).length ∧
          data = (p.unread connection).take size :=
  readLoop_spec size size [] h

theorem recvFrame_eq {header : Bytes} {s₁ : Client} (h : s.fd = some connection)
    (hf : payload.length < 2 ^ 32) (hu : p.unread connection = withLength payload ++ rest)
    (hh : readExactly k p 4 s = (some header, s₁)) : recvFrame k p s =
      if payload.length = 0 ∨ payload.length > maxAnswerBytes then ([], s₁)
      else ((readExactly k p payload.length s₁).1.getD [],
        (readExactly k p payload.length s₁).2) := by
  obtain ⟨n, -, hd⟩ := readExactly_spec (k := k) (p := p) 4 h
  rw [hh] at hd
  have hv : value32 header = payload.length := by
    rw [(hd header rfl).2.2, hu, withLength, append_assoc,
      take_left' (length_littleEndian32 _), value32_littleEndian32, Nat.mod_eq_of_lt hf]
  unfold recvFrame
  rw [if_neg (by simp [h]), hh]
  dsimp only
  rw [hv]

theorem recvFrame_spec (h : s.fd = some connection) (hfi : payload.length < 2 ^ 32)
    (hu : p.unread connection = withLength payload ++ rest) :
    ∃ n, Moved s { connection with taken := connection.taken + n } (recvFrame k p s).2 ∧
      ((recvFrame k p s).1 ≠ [] →
        (recvFrame k p s).1 = payload ∧ n = (withLength payload).length) := by
  obtain ⟨n, ⟨hfd, ho⟩, hh⟩ := readExactly_spec (k := k) (p := p) 4 h
  cases hf : readExactly k p 4 s with
  | mk result s₁ =>
    rw [hf] at hfd ho hh
    cases result with
    | none =>
      unfold recvFrame
      rw [if_neg (by simp [h]), hf]
      exact ⟨n, ⟨hfd, ho⟩, fun hne => absurd rfl hne⟩
    | some header =>
      obtain ⟨rfl, -, -⟩ := hh header rfl
      rw [recvFrame_eq h hfi hu hf]
      split
      · exact ⟨4, ⟨hfd, ho⟩, fun hne => absurd rfl hne⟩
      · obtain ⟨m, ⟨hfd₂, ho₂⟩, hd⟩ := readExactly_spec (k := k) (p := p) payload.length hfd
        refine ⟨4 + m, ⟨?_, ho₂.trans ho⟩, fun hne => ?_⟩
        · rw [hfd₂]; simp [Nat.add_assoc]
        · dsimp only at hne ⊢
          cases hr : (readExactly k p payload.length s₁).1 with
          | none => rw [hr] at hne; exact absurd rfl hne
          | some data =>
            obtain ⟨rfl, -, rfl⟩ := hd data hr
            rw [unread_take, hu, withLength, append_assoc,
              drop_left' (length_littleEndian32 _), take_left]
            exact ⟨rfl, (length_withLength payload).symm⟩

end

section

variable {k p} {s : Client} {connection : Connection} {call : Call}

variable (number : Nat)

theorem answers_snoc (frames : List Bytes) (payload : Bytes) :
    p.answers number (frames ++ [payload]) =
      p.answers number frames ++ [p.answer number (frames ++ [payload])] := by
  unfold Peer.answers
  rw [length_append, length_singleton, range_succ, map_append]
  congr 1
  · refine map_congr_left fun i hi => ?_
    rw [take_append_of_le_length (mem_range.1 hi)]
  · simp [take_of_length_le]

theorem answers_cons (payload : Bytes) (frames : List Bytes) :
    p.answers number (payload :: frames) = p.answer number [payload] ::
      (range frames.length).map fun i => p.answer number (payload :: frames.take (i + 1)) := by
  simp [Peer.answers, range_succ_eq_map, Function.comp_def]

def Idle (p : Peer) (connection : Connection) : Prop :=
  Whole connection.sent ∧ connection.taken = (p.output connection).length

theorem idle_new : Idle p { number } := ⟨whole_nil, rfl⟩

theorem Idle.sent (h : Idle p connection) (payload : Bytes) (hf : payload.length < 2 ^ 32)
    (connection' : Connection) (hn : connection'.number = connection.number)
    (hs : connection'.sent = connection.sent ++ withLength payload) :
    Whole connection'.sent ∧ payloads connection'.sent = payloads connection.sent ++ [payload] ∧
      p.output connection' = p.output connection ++ withLength
        (p.answer connection.number (payloads connection.sent ++ [payload])) := by
  obtain ⟨hw, hp⟩ := frames_snoc h.1 hf
  rw [← hs] at hw hp
  refine ⟨hw, hp, ?_⟩
  unfold Peer.output
  rw [hp, hn, answers_snoc, map_append, flatten_append]
  simp

theorem attempt_spec (h : s.fd = some connection) (hi : Idle p connection)
    (hf : call.words.length + 1 < 2 ^ 32) :
    ∃ connection', Moved s connection' (attempt k p call s).2 ∧ ((attempt k p call s).1 ≠ [] →
      Idle p connection' ∧ connection'.number = connection.number ∧
      payloads connection'.sent = payloads connection.sent ++ [call.payload] ∧
      (attempt k p call s).1 =
        p.answer connection.number (payloads connection.sent ++ [call.payload])) := by
  unfold attempt
  obtain ⟨x, hm, ha⟩ := sendFrame_spec (k := k) call h
  dsimp only
  split
  · next hs =>
    obtain rfl := (ha hs).trans (frameOf_eq hf)
    obtain ⟨hfd, hop⟩ := hm
    set full : Connection :=
      { connection with sent := connection.sent ++ withLength call.payload } with hfu
    obtain ⟨hw, hp, ho⟩ := hi.sent call.payload hf full rfl rfl
    have hu : p.unread full = withLength
        (p.answer connection.number (payloads connection.sent ++ [call.payload])) ++ [] := by
      rw [Peer.unread, ho, show full.taken = _ from hi.2, drop_left, append_nil]
    obtain ⟨n, ⟨hfd', ho'⟩, hr⟩ := recvFrame_spec (k := k) hfd (p.answer_fits _ _) hu
    refine ⟨_, ⟨hfd', ho'.trans hop⟩, fun hne => ?_⟩
    obtain ⟨hre, rfl⟩ := hr hne
    refine ⟨⟨hw, ?_⟩, rfl, hp, hre⟩
    change full.taken + _ = (p.output full).length
    rw [ho, length_append, show full.taken = _ from hi.2]
  · exact ⟨_, hm, fun hne => absurd rfl hne⟩

theorem fd_disconnect (s : Client) : (disconnect k s).fd = none := by
  unfold disconnect
  split
  · assumption
  · rfl

theorem opened_disconnect (s : Client) : (disconnect k s).opened = s.opened := by
  unfold disconnect
  split <;> rfl

def Ready (p : Peer) (s : Client) : Prop := ∀ connection, s.fd = some connection → Idle p connection

theorem ready_of_closed (h : s.fd = none) : Ready p s := fun connection hfd => by
  rw [h] at hfd
  cases hfd

def Continues (s : Client) (connection : Connection) : Prop :=
  s.fd = some connection ∨ ∃ number ≥ s.opened, connection = { number }

theorem reconnect_spec (h : s.fd = none) : s.opened ≤ (reconnect k s).2.opened ∧
      if (reconnect k s).1 then
        ∃ connection, (reconnect k s).2.fd = some connection ∧ Continues s connection
      else (reconnect k s).2.fd = none := by
  unfold reconnect
  dsimp only
  split
  · exact ⟨le_rfl, h⟩
  · split
    · exact ⟨Nat.le_succ _, _, rfl, .inr ⟨s.opened, le_rfl, rfl⟩⟩
    · exact ⟨le_rfl, h⟩

theorem ensureConnected_spec (s : Client) : s.opened ≤ (ensureConnected k s).2.opened ∧
      if (ensureConnected k s).1 then
        ∃ connection, (ensureConnected k s).2.fd = some connection ∧ Continues s connection
      else (ensureConnected k s).2.fd = none := by
  unfold ensureConnected
  cases hfd : s.fd with
  | none => exact reconnect_spec hfd
  | some connection =>
    dsimp only
    split
    · exact ⟨le_rfl, connection, hfd, .inl hfd⟩
    · obtain ⟨ho, h⟩ := reconnect_spec (k := k) (fd_disconnect (k := k) s.called)
      rw [opened_disconnect] at ho
      refine ⟨ho, ?_⟩
      split
      · next hc =>
        rw [if_pos hc] at h
        obtain ⟨connection', hfd', hold | ⟨number, hn, hne⟩⟩ := h
        · rw [fd_disconnect] at hold; cases hold
        · rw [opened_disconnect] at hn; exact ⟨connection', hfd', .inr ⟨number, hn, hne⟩⟩
      · next hc =>
        rwa [if_neg hc] at h

structure Answers (p : Peer) (call : Call) (before : Client) (response : Bytes) (after : Client)
    (connection : Connection) (earlier : List Bytes) : Prop where
  current : after.fd = some connection
  frames : payloads connection.sent = earlier ++ [call.payload]
  response : response = p.answer connection.number (earlier ++ [call.payload])
  earlier : (∃ old, before.fd = some old ∧ old.number = connection.number ∧
    payloads old.sent = earlier) ∨ (before.opened ≤ connection.number ∧ earlier = [])

structure Served (p : Peer) (call : Call) (before : Client) (response : Bytes) (after : Client) :
    Prop where
  ready : Ready p after
  opened : before.opened ≤ after.opened
  answer : response ≠ [] → ∃ connection earlier,
    Answers p call before response after connection earlier

theorem Served.silent {after : Client} (hr : Ready p after) (ho : s.opened ≤ after.opened) :
    Served p call s [] after := ⟨hr, ho, fun hne => absurd rfl hne⟩

theorem Served.retried {s' after : Client} {response : Bytes} (hc : s'.fd = none)
    (ho : s.opened ≤ s'.opened) (h : Served p call s' response after) :
    Served p call s response after := by
  refine ⟨h.ready, ho.trans h.opened, fun hne => ?_⟩
  obtain ⟨connection, earlier, ha⟩ := h.answer hne
  refine ⟨connection, earlier, ha.current, ha.frames, ha.response, .inr ?_⟩
  rcases ha.earlier with ⟨old, hold, -⟩ | ⟨hle, hn⟩
  · rw [hc] at hold; cases hold
  · exact ⟨ho.trans hle, hn⟩

theorem exchangeLoop_served (hf : call.words.length + 1 < 2 ^ 32) :
    ∀ (attempts : Nat) {s : Client}, Ready p s →
      Served p call s (exchangeLoop k p call attempts s).1 (exchangeLoop k p call attempts s).2
  | 0, s, hr => .silent hr le_rfl
  | attempts + 1, s, hr => by
    obtain ⟨ho, hc⟩ := ensureConnected_spec (k := k) s
    unfold exchangeLoop
    dsimp only
    set s₁ := (ensureConnected k s).2
    cases hup : (ensureConnected k s).1 with
    | false => rw [hup] at hc; exact .silent (ready_of_closed hc) ho
    | true =>
      rw [hup] at hc
      obtain ⟨connection, hfd, hco⟩ := hc
      have hi : Idle p connection := by
        rcases hco with hold | ⟨number, -, rfl⟩
        · exact hr connection hold
        · exact idle_new number
      obtain ⟨connection', ⟨hfd', ho'⟩, ha⟩ := attempt_spec (k := k) hfd hi hf
      rw [Bool.not_true, if_neg Bool.false_ne_true]
      split
      · next hre =>
        obtain ⟨hi', hn, hfr, heq⟩ := ha (by simpa using hre)
        refine ⟨fun other hot => ?_, ho.trans ho'.ge, fun _ =>
          ⟨connection', payloads connection.sent, hfd', hfr, hn ▸ heq, ?_⟩⟩
        · obtain rfl : connection' = other := some.inj (hfd'.symm.trans hot); exact hi'
        · rcases hco with hold | ⟨number, hle, rfl⟩
          · exact .inl ⟨connection, hold, hn.symm, rfl⟩
          · exact .inr ⟨hn ▸ hle, rfl⟩
      · refine Served.retried (fd_disconnect _) ?_
          (exchangeLoop_served hf attempts (ready_of_closed (fd_disconnect _)))
        rw [opened_disconnect, ho']; exact ho

theorem connect_ready : Ready p (connect k) := by
  intro connection hfd
  obtain ⟨-, h⟩ := ensureConnected_spec (k := k) {}
  unfold connect at hfd
  split at h
  · obtain ⟨connection', hfd', hold | ⟨number, -, rfl⟩⟩ := h
    · cases hold
    · obtain rfl : _ = connection := some.inj (hfd'.symm.trans hfd); exact idle_new number
  · rw [h] at hfd; cases hfd

end

end Client

structure Record where
  call : Call
  before : Client
  response : Bytes
  after : Client
  deriving DecidableEq

def history (k : Kernel) (p : Peer) : List Call → Client → List Record
  | [], _ => []
  | call :: calls, s =>
    let (response, after) := Client.exchange k p call s
    { call, before := s, response, after } :: history k p calls after

theorem history_served {k : Kernel} {p : Peer} : ∀ {calls : List Call} {s : Client},
    (∀ call ∈ calls, call.words.length + 1 < 2 ^ 32) → Client.Ready p s →
      ∀ r ∈ history k p calls s, Client.Served p r.call r.before r.response r.after
  | [], _, _, _ => by simp [history]
  | call :: calls, s, hf, hre => by
    have hs := Client.exchangeLoop_served (k := k) (hf call (by simp)) 2 hre
    intro r hr
    rcases mem_cons.1 hr with rfl | hr
    · exact hs
    · exact history_served (fun call hc => hf call (mem_cons_of_mem _ hc))
        hs.ready r hr

theorem history_answers (k : Kernel) (p : Peer) (calls : List Call)
    (hfits : ∀ call ∈ calls, call.words.length + 1 < 2 ^ 32) :
    ∀ r ∈ history k p calls (Client.connect k), r.response ≠ [] → ∃ connection earlier,
        Client.Answers p r.call r.before r.response r.after connection earlier :=
  fun r hr => (history_served hfits Client.connect_ready r hr).answer

def echo : Peer where
  answer _ frames := (frames.getLast?.getD []).take 16
  answer_fits _ _ := (length_take_le _ _).trans_lt (by decide)

def slowKernel (failing : Option Nat) : Kernel where
  now n := 1000 * n
  connects _ := true
  peeks _ := .wouldBlock
  sends _ := some 7
  reads n := if failing = some n then none else some 7

theorem late_answer_unread :
    (history (slowKernel (some 6)) echo [⟨.dispatch, [7, 8]⟩, ⟨.abort, [9]⟩]
        (Client.connect (slowKernel (some 6)))).map
      (fun r => (r.response, r.after.fd.map (·.number))) = [([1, 7, 8], some 1), ([3, 9], some 1)] ∧
      ∀ r ∈ history (slowKernel (some 6)) echo [⟨.dispatch, [7, 8]⟩, ⟨.abort, [9]⟩]
        (Client.connect (slowKernel (some 6))), r.response ≠ [] → ∃ connection earlier,
          Client.Answers echo r.call r.before r.response r.after connection earlier :=
  ⟨by decide +kernel, history_answers _ _ _ (by decide)⟩

namespace Client

structure Willing (k : Kernel) : Prop where
  sends : ∀ n, k.sends n ≠ none
  reads : ∀ n, k.reads n ≠ none

section

variable {k : Kernel} {p : Peer} {s : Client} {connection : Connection} (hk : Willing k)

include hk

theorem writeLoop_willing : ∀ {rounds : Nat} {data : Bytes} {s : Client} {connection : Connection},
    data.length ≤ rounds → s.fd = some connection → (writeLoop k rounds data s).1
  | _, [], _, _, _, _ => by simp [writeLoop]
  | rounds + 1, b :: data, s, connection, hr, h => by
    obtain ⟨n, hn⟩ := ne_none_iff_exists'.1 (hk.sends s.calls)
    unfold writeLoop send
    rw [h, hn]
    refine writeLoop_willing ?_ rfl
    simp only [length_cons, length_drop] at hr ⊢
    omega

theorem readLoop_willing : ∀ {rounds missing : Nat} {got : Bytes} {s : Client}
    {connection : Connection}, missing ≤ rounds → s.fd = some connection →
    missing ≤ (p.unread connection).length → (readLoop k p rounds missing got s).1 ≠ none
  | _, 0, _, _, _, _, _, _ => by simp [readLoop]
  | rounds + 1, missing + 1, got, s, connection, hr, h, hu => by
    obtain ⟨n, hn⟩ := ne_none_iff_exists'.1 (hk.reads s.calls)
    unfold readLoop read
    rw [h, hn]
    dsimp only
    set chunk := (p.unread connection).take (min (n + 1) (missing + 1)) with hc
    have hl : 0 < chunk.length := by rw [hc, length_take]; omega
    rw [if_neg (by simpa using length_pos_iff.1 hl)]
    refine readLoop_willing (by omega) rfl ?_
    rw [unread_take, length_drop]; omega

theorem writeAll_willing (data : Bytes) (h : s.fd = some connection) :
    (writeAll k data s).1 := writeLoop_willing hk le_rfl h

theorem readExactly_willing (size : Nat) (h : s.fd = some connection)
    (hu : size ≤ (p.unread connection).length) : (readExactly k p size s).1 ≠ none :=
  readLoop_willing hk le_rfl h hu

theorem sendFrame_willing (call : Call) (h : s.fd = some connection) : (sendFrame k call s).1 := by
  unfold sendFrame
  rw [if_neg (by simp [h])]
  obtain ⟨header, ⟨hfd, -⟩, -⟩ :=
    writeAll_spec (k := k) (littleEndian32 ((call.words.length + 1) % 2 ^ 32)) h
  obtain ⟨method, ⟨hfd₂, -⟩, -⟩ := writeAll_spec (k := k) [call.method.byte] hfd
  dsimp only
  rw [writeAll_willing hk _ h, Bool.not_true, if_neg Bool.false_ne_true,
    if_pos (writeAll_willing hk _ hfd)]
  exact writeAll_willing hk _ hfd₂

theorem recvFrame_willing (h : s.fd = some connection)
    (hu : p.unread connection = withLength payload ++ rest) (hne : payload ≠ [])
    (hfi : payload.length ≤ maxAnswerBytes) : (recvFrame k p s).1 = payload := by
  have hsm : payload.length < 2 ^ 32 := hfi.trans_lt (by decide)
  have hl : 4 + payload.length ≤ (p.unread connection).length := by
    rw [hu, length_append, length_withLength]; omega
  have hp := length_pos_iff.2 hne
  obtain ⟨n, ⟨hfd, -⟩, hh⟩ := readExactly_spec (k := k) (p := p) 4 h
  obtain ⟨header, hf⟩ := ne_none_iff_exists'.1
    (readExactly_willing (p := p) hk 4 h (Nat.le_of_add_right_le hl))
  obtain ⟨rfl, -, -⟩ := hh header hf
  obtain ⟨m, -, hd⟩ := readExactly_spec (k := k) (p := p) payload.length hfd
  obtain ⟨data, hs⟩ := ne_none_iff_exists'.1
    (readExactly_willing (p := p) hk payload.length hfd (by
      rw [unread_take, length_drop]
      omega))
  rw [recvFrame_eq h hsm hu (Prod.ext hf rfl), if_neg (by omega)]
  dsimp only
  rw [hs, (hd data hs).2.2, unread_take, hu, withLength, append_assoc,
    drop_left' (length_littleEndian32 _), getD_some, take_left]

theorem attempt_oversized {call : Call} {number : Nat} (h : s.fd = some { number })
    (hl : call.words.length = 2 ^ 32) (hne : p.answer number [[call.method.byte]] ≠ [])
    (hf : (p.answer number [[call.method.byte]]).length ≤ maxAnswerBytes) :
    (attempt k p call s).1 = p.answer number [[call.method.byte]] ∧
      ∃ connection later, (attempt k p call s).2.fd = some connection ∧
        connection.number = number ∧ payloads connection.sent = [call.method.byte] :: later := by
  obtain ⟨x, ⟨hfd, -⟩, ha⟩ := sendFrame_spec (k := k) call h
  have hs := sendFrame_willing hk call h
  obtain rfl := ha hs
  set full : Connection := { number, sent := [] ++ frameOf call }
  have hfr : full.sent = littleEndian32 1 ++ [call.method.byte] ++ call.words := by
    change frameOf call = _
    rw [frameOf, hl]; rfl
  have hp : payloads full.sent =
      [call.method.byte] :: (lengthPrefixed.frames call.words).1.map (·.drop 4) := by
    have hc : lengthPrefixed.cut full.sent =
        some (littleEndian32 1 ++ [call.method.byte], call.words) := by
      rw [hfr]
      exact cutLength_header (show [call.method.byte].length = 1 % 2 ^ 32 from rfl) _
    rw [payloads, Cutter.frames_of_some hc]; rfl
  obtain ⟨rest, hu⟩ : ∃ rest,
      p.unread full = withLength (p.answer number [[call.method.byte]]) ++ rest := by
    change ∃ rest, p.output full = _
    unfold Peer.output
    rw [hp, answers_cons, map_cons, flatten_cons]
    exact ⟨_, rfl⟩
  obtain ⟨n, ⟨hfd', -⟩, -⟩ := recvFrame_spec (k := k) hfd (p.answer_fits _ _) hu
  unfold attempt
  dsimp only
  rw [if_pos hs]
  exact ⟨recvFrame_willing hk hfd hu hne hf, _, _, hfd', rfl, hp⟩

end

end Client

theorem exists_words (n : Nat) : ∃ words : Bytes, words.length = n :=
  ⟨replicate n 0, length_replicate⟩

theorem oversized_misread : ∃ call : Call, call.words.length = 2 ^ 32 ∧
      ∃ r ∈ history (slowKernel none) echo [call] (Client.connect (slowKernel none)),
        r.response = [8] ∧ ¬ ∃ connection earlier,
          Client.Answers echo r.call r.before r.response r.after connection earlier := by
  obtain ⟨words, hwords⟩ := exists_words (2 ^ 32)
  obtain ⟨call, hlength, hmethod⟩ : ∃ call : Call,
      call.words.length = 2 ^ 32 ∧ call.method.byte = 8 := ⟨⟨.uploadBlob, words⟩, hwords, rfl⟩
  refine ⟨call, hlength, ?_⟩
  have hk : Client.Willing (slowKernel none) := ⟨by simp [slowKernel], by simp [slowKernel]⟩
  set before := Client.connect (slowKernel none)
  have hfd : before.called.fd = some { number := 0 } := rfl
  obtain ⟨hresponse, connection, later, hfd', hnumber, hpayloads⟩ :=
    Client.attempt_oversized (p := echo) hk hfd hlength (by simp [echo]) (by simp [echo]; decide)
  have hexchange : Client.exchange (slowKernel none) echo call before =
      Client.attempt (slowKernel none) echo call before.called := by
    unfold Client.exchange Client.exchangeLoop
    rw [show Client.ensureConnected (slowKernel none) before = (true, before.called) from rfl]
    have hne : (!(Client.attempt (slowKernel none) echo call before.called).1.isEmpty) := by
      rw [hresponse]; rfl
    dsimp only
    rw [Bool.not_true, if_neg Bool.false_ne_true, if_pos hne]
  refine ⟨_, mem_singleton_self _, ?_, ?_⟩
  · change (Client.exchange (slowKernel none) echo call before).1 = _
    rw [hexchange, hresponse, hmethod]; rfl
  · rintro ⟨connection', earlier, hcurrent, hframes, -, hearlier⟩
    change (Client.exchange (slowKernel none) echo call before).2.fd = _ at hcurrent
    rw [hexchange, hfd'] at hcurrent
    obtain rfl := some.inj hcurrent
    have hnil : earlier = [] := by
      rcases hearlier with ⟨old, hold, -, rfl⟩ | ⟨-, hnil⟩
      · obtain rfl : { number := 0 } = old := some.inj hold; rfl
      · exact hnil
    rw [hpayloads, hnil, Call.payload] at hframes
    have hwords : call.words = [] := by simpa using (List.cons.inj hframes).1
    rw [hwords, length_nil] at hlength; omega

end Gateway.Dispatch
