import Janus.ChannelHealth.RedisStore
import Janus.Gateway.Served

/-!
# Degradation and recovery (`channel_health/service.py`)

* `recordAndEvaluate`, `recordProbeSuccess`, `recordProbeFailure`: the methods of
  `ChannelHealthService`.
* `Call.prog`: a call of one of them, as the finalizer, the probe and the recovery by hand make them.
-/

set_option autoImplicit false

namespace ChannelHealth

open Conc Gateway.Handler

/-- The settings that `__init__` reads. -/
structure Settings where
  windowSeconds : Int := 300
  minRequests : Int := 10
  errorThreshold : Rat := 1 / 2
  maxProbeFailures : Int := 5
  probeIntervalSeconds : Int := 60
deriving DecidableEq, Repr

def publishInvalidation : Redis Unit := redis (.publish "gateway:router:invalidate")

/-- The attempt of a channel past its threshold: only the first that adds it sets its state. -/
def degrade (channel : ChannelId) : Redis Unit := do
  let wasFirst ← addToDegraded channel
  if wasFirst then
    let now ← redis .time
    updateChannelState channel
      { status := some "degraded", degradedSince := some (now / 1000), probeFailures := some 0 }
    publishInvalidation

/-- The evaluation after a failed request. -/
def evaluate (settings : Settings) (channel : ChannelId) : Redis Unit := do
  let rate ← getErrorRate channel settings.windowSeconds
  -- the rate and the threshold are floats in the source, exact fractions here
  if rate.total < settings.minRequests then pure ()
  else if rate.rate ≤ settings.errorThreshold then pure ()
  else degrade channel

def recordAndEvaluate (settings : Settings) (channel : ChannelId) (success : Bool)
    (errorClass : Option String) : Redis Unit := do
  recordRequestOutcome channel success errorClass settings.windowSeconds
  if success then pure () else evaluate settings channel

def recordProbeSuccess (channel : ChannelId) : Redis Unit := do
  removeFromDegraded channel
  clearChannelState channel
  publishInvalidation

/-- Returns whether the threshold for a hard disable is reached. -/
def recordProbeFailure (settings : Settings) (channel : ChannelId) (currentFailures : Int) :
    Redis Bool := do
  let newCount := currentFailures + 1
  let now ← redis .time
  updateChannelState channel { probeFailures := some newCount, lastProbeAt := some (now / 1000) }
  pure (decide (settings.maxProbeFailures ≤ newCount))

/-! ## Calls -/

/-- The finalizer passes the status of a failed request as its error class. -/
inductive Call
  | outcome (channel : ChannelId) (success : Bool) (errorClass : Option UsageStatus)
  | probeSuccess (channel : ChannelId)
  | probeFailure (channel : ChannelId) (currentFailures : Int)
deriving DecidableEq

def Call.prog (settings : Settings) : Call → Redis Unit
  | .outcome channel success errorClass =>
    recordAndEvaluate settings channel success (errorClass.map Events.statusText)
  | .probeSuccess channel => recordProbeSuccess channel
  | .probeFailure channel currentFailures => do
    let _ ← recordProbeFailure settings channel currentFailures

/-- One call after the other. -/
def runCalls (settings : Settings) (calls : List Call) : Redis Unit :=
  forM calls (Call.prog settings)

def Call.isOutcome (channel : ChannelId) : Call → Bool
  | .outcome channel' .. => channel' = channel
  | .probeSuccess _ | .probeFailure .. => false

/-- How many outcomes of the channel the calls record. -/
def outcomes (channel : ChannelId) (calls : List Call) : Nat := calls.countP (Call.isOutcome channel)

end ChannelHealth
