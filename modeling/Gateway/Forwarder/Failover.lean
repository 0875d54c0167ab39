import Mathlib.Data.Finset.Insert
import Mathlib.Logic.Function.Basic
import Gateway.Lib.Bytes

/-! # Failover -/

namespace Gateway.Forwarder

inductive FailoverAction where
  | continue
  | switchAccount
  | exhausted
  deriving DecidableEq

structure FailoverController where
  maxSwitches : Nat := 10
  maxSameRetries : Nat := 3
  switchCount : Nat := 0
  failedAccounts : Finset Int := ∅
  sameAccountRetries : Int → Nat := fun _ => 0

namespace FailoverController

variable (c : FailoverController)

def markFailed (accountId : Int) : FailoverController :=
  { c with failedAccounts := insert accountId c.failedAccounts }

def switch (accountId : Int) : FailoverAction × FailoverController :=
  let c := { c.markFailed accountId with switchCount := c.switchCount + 1 }
  (if c.switchCount > c.maxSwitches then .exhausted else .switchAccount, c)

def handleError (accountId statusCode : Int) :
    FailoverAction × FailoverController :=
  if statusCode = 401 ∨ statusCode = 403 ∨ statusCode = 429 then c.switch accountId
  else
    let retries := c.sameAccountRetries accountId + 1
    let c := { c with sameAccountRetries := Function.update c.sameAccountRetries accountId retries }
    if retries ≤ c.maxSameRetries then (.continue, c) else c.switch accountId

end FailoverController

structure RetryPolicy where
  baseDelayMs : Nat := 300
  maxDelayMs : Nat := 3000
  maxElapsedMs : Nat := 10000

def RetryPolicy.computeDelay (p : RetryPolicy) (attempt : Nat) : Nat :=
  min (p.baseDelayMs * 2 ^ min attempt 10 % 2 ^ 32) p.maxDelayMs

def RetryPolicy.isRetryableStatus (statusCode : Int) : Bool :=
  statusCode = 401 || statusCode = 403 || statusCode = 429 || statusCode = 529
    || statusCode ≥ 500

end Gateway.Forwarder
