import Janus.ChannelHealth.Service

/-!
# Probes of degraded channels (`channel_health/tasks.py`, `channel_health/probe.py`)

`probeDegradedChannels` is one run of the cron task: for each degraded channel it takes the lock of
the probe, calls the upstream, records the outcome and gives the lock back.
-/

set_option autoImplicit false

namespace ChannelHealth

open Conc

def getProbeInfo (channel : ChannelId) : Redis (Option ProbeInfo) := redis (.loadProbeInfo channel)

def hardDisableChannel (channel : ChannelId) : Redis Unit := do
  redis (.disable channel)
  publishInvalidation

def ProbeInfo.modelName (info : ProbeInfo) : String :=
  if info.provider = "" then info.upstreamModel else info.provider ++ "/" ++ info.upstreamModel

/-- An empty `api_base` is not passed on. -/
def probeChannel (info : ProbeInfo) : Redis Bool :=
  redis (.acompletion info.modelName info.apiKey (info.apiBase.filter (· ≠ "")))

/-- What a failed probe records. -/
def probeFailed (settings : Settings) (channel : ChannelId) : Redis Unit := do
  let state ← getChannelState channel
  let currentFailures := state.probeFailures.getD 0
  let shouldDisable ← recordProbeFailure settings channel currentFailures
  if shouldDisable then hardDisableChannel channel

def probeSingleChannel (settings : Settings) (channel : ChannelId) : Redis Unit := do
  match ← getProbeInfo channel with
  | none => pure ()
  | some info =>
    let success ← probeChannel info
    if success then recordProbeSuccess channel else probeFailed settings channel

/-- One round of the loop, with the number of channels probed so far. -/
def probeRound (settings : Settings) (probed : Nat) (channel : ChannelId) : Redis Nat := do
  let acquired ← acquireProbeLock channel settings.probeIntervalSeconds
  if acquired then
    probeSingleChannel settings channel
    releaseProbeLock channel
    pure (probed + 1)
  else pure probed

def probeDegradedChannels (settings : Settings) : Redis Nat := do
  let degradedIds ← getDegradedChannelIds
  degradedIds.foldlM (probeRound settings) 0

end ChannelHealth
