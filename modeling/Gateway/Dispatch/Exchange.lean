import Gateway.Lib.LengthPrefix

/-! # One connection, one call at a time -/

namespace Gateway.Dispatch

open Lib

inductive Method
  | dispatch
  | reportUsage
  | abort
  | reportUpstreamError
  | mediaOperation
  | recordLeaseEvidence
  | evaluateContent
  | uploadBlob
  deriving DecidableEq

def Method.byte : Method → UInt8
  | .dispatch => 1
  | .reportUsage => 2
  | .abort => 3
  | .reportUpstreamError => 4
  | .mediaOperation => 5
  | .recordLeaseEvidence => 6
  | .evaluateContent => 7
  | .uploadBlob => 8

structure Call where
  method : Method
  words : Bytes
  deriving DecidableEq

def Call.payload (call : Call) : Bytes := call.method.byte :: call.words

inductive Peek
  | data
  | wouldBlock
  | closed
  deriving DecidableEq

structure Kernel where
  now : Nat → Int
  connects : Nat → Bool
  peeks : Nat → Peek
  sends : Nat → Option Nat
  reads : Nat → Option Nat

structure Peer where
  answer : Nat → List Bytes → Bytes
  answer_fits : ∀ connection frames, (answer connection frames).length < 2 ^ 32

structure Connection where
  number : Nat
  sent : Bytes := []
  taken : Nat := 0
  deriving DecidableEq

namespace Peer

variable (p : Peer)

def answers (number : Nat) (frames : List Bytes) : List Bytes :=
  (List.range frames.length).map fun i => p.answer number (frames.take (i + 1))

def output (connection : Connection) : Bytes :=
  ((p.answers connection.number (payloads connection.sent)).map withLength).flatten

def unread (connection : Connection) : Bytes := (p.output connection).drop connection.taken

end Peer

structure Client where
  fd : Option Connection := none
  reconnectDelayMs : Nat := 50
  reconnectAfter : Int := 0
  calls : Nat := 0
  opened : Nat := 0
  deriving DecidableEq

namespace Client

variable (k : Kernel) (p : Peer)

variable (s : Client)

def called : Client := { s with calls := s.calls + 1 }

def backOff : Client :=
  { s.called with
    reconnectAfter := k.now s.calls + s.reconnectDelayMs
    reconnectDelayMs := min (s.reconnectDelayMs * 2) 3000 }

def disconnect : Client :=
  match s.fd with
  | none => s
  | some _ => backOff k { s with fd := none }

def send (data : Bytes) (s : Client) : Option Bytes × Client :=
  match s.fd, k.sends s.calls with
  | some connection, some n =>
    (some (data.drop (n + 1)),
      { s.called with fd := some { connection with sent := connection.sent ++ data.take (n + 1) } })
  | _, _ => (none, s.called)

def writeLoop : Nat → Bytes → Client → Bool × Client
  | _, [], s => (true, s)
  | 0, _ :: _, s => (false, s)
  | rounds + 1, data, s =>
    match send k data s with
    | (none, s) => (false, s)
    | (some rest, s) => writeLoop rounds rest s

def writeAll (data : Bytes) (s : Client) : Bool × Client := writeLoop k data.length data s

def sendFrame (call : Call) (s : Client) : Bool × Client :=
  if s.fd.isNone then (false, s)
  else
    let (written, s) := writeAll k (littleEndian32 ((call.words.length + 1) % 2 ^ 32)) s
    if !written then (false, s)
    else
      let (written, s) := writeAll k [call.method.byte] s
      if written then writeAll k call.words s else (false, s)

def read (size : Nat) (s : Client) : Option Bytes × Client :=
  match s.fd, k.reads s.calls with
  | some connection, some n =>
    let chunk := (p.unread connection).take (min (n + 1) size)
    if chunk.isEmpty then (none, s.called)
    else (some chunk,
      { s.called with fd := some { connection with taken := connection.taken + chunk.length } })
  | _, _ => (none, s.called)

def readLoop : Nat → Nat → Bytes → Client → Option Bytes × Client
  | _, 0, got, s => (some got, s)
  | 0, _ + 1, _, s => (none, s)
  | rounds + 1, missing, got, s =>
    match read k p missing s with
    | (none, s) => (none, s)
    | (some chunk, s) => readLoop rounds (missing - chunk.length) (got ++ chunk) s

def readExactly (size : Nat) (s : Client) : Option Bytes × Client := readLoop k p size size [] s

def maxAnswerBytes : Nat := 1024 * 1024

def recvFrame : Bytes × Client :=
  if s.fd.isNone then ([], s)
  else
    match readExactly k p 4 s with
    | (none, s) => ([], s)
    | (some header, s) =>
      let len := value32 header
      if len = 0 ∨ len > maxAnswerBytes then ([], s)
      else
        let (result, s) := readExactly k p len s
        (result.getD [], s)

def isAlive : Bool :=
  match k.peeks s.calls with
  | .data | .wouldBlock => true
  | .closed => false

def reconnect : Bool × Client :=
  if k.now s.calls < s.reconnectAfter then (false, s.called)
  else
    let s := s.called
    if k.connects s.calls then
      (true, { s.called with
        fd := some { number := s.opened }
        opened := s.opened + 1
        reconnectDelayMs := 50 })
    else (false, backOff k s.called)

def ensureConnected : Bool × Client :=
  match s.fd with
  | none => reconnect k s
  | some _ => if isAlive k s then (true, s.called) else reconnect k (disconnect k s.called)

def attempt (call : Call) (s : Client) : Bytes × Client :=
  let (sent, s) := sendFrame k call s
  if sent then recvFrame k p s else ([], s)

def exchangeLoop (call : Call) : Nat → Client → Bytes × Client
  | 0, s => ([], s)
  | attempts + 1, s =>
    let (connected, s) := ensureConnected k s
    if !connected then ([], s)
    else
      let (response, s) := attempt k p call s
      if !response.isEmpty then (response, s)
      else exchangeLoop call attempts (disconnect k s)

def exchange (call : Call) (s : Client) : Bytes × Client := exchangeLoop k p call 2 s

def connect : Client := (ensureConnected k {}).2

end Client

end Gateway.Dispatch
