import Mathlib.Logic.Relation
import Janus.Gateway.RateLimit

/-!
# The time that streams take (`gateway/router.py`, `gateway/router_factory.py`)

A stream holds its slot from its check to its finalizer. All four generators share the loop that
`loopTime` times: the duration cap is looked at between two chunks only, the idle timer runs while a
chunk is awaited only, and at a `yield` the client may take any time. Times are in milliseconds.

* `Timing.lifetime`: how long a stream holds its slot.
* `Streams.Step`: the streams of one rule, each with its own timing, over the limiter's keys.
-/

set_option autoImplicit false

namespace RateLimit

open Conc

def streamMaxDurationSeconds : Nat := 1800
def streamIdleTimeoutSeconds : Nat := 60

/-- The router's timeout, and how often it retries. -/
def routerTimeoutSeconds : Nat := 120
def routerNumRetries : Nat := 2

/-- One round of the loop: how long the upstream takes, and how long the client takes at the `yield`.
The round that ends the loop is left without a `yield` or at it. -/
structure Round where
  wait : Nat
  pause : Nat

/-- When the loop is over, if it is at its top `elapsed` after it started. -/
def loopTime (maxDuration idleTimeout elapsed : Nat) : List Round → Nat
  | [] => elapsed
  | r :: later =>
    if maxDuration < elapsed then elapsed
    else if idleTimeout ≤ r.wait then elapsed + idleTimeout
    else loopTime maxDuration idleTimeout (elapsed + r.wait + r.pause) later

/-- The time until the generator starts, the rounds of its loop, and the time from the end of the
loop to the release: the last `yield`, and closing the upstream. -/
structure Timing where
  opening : Nat
  rounds : List Round
  closing : Nat

def Timing.lifetime (t : Timing) : Nat :=
  t.opening + loopTime (streamMaxDurationSeconds * 1000) (streamIdleTimeoutSeconds * 1000) 0 t.rounds +
    t.closing

/-! ## The streams of one rule -/

/-- The limiter, and the streams that hold a slot, with their readings of the clock. -/
structure Streams where
  limiter : State
  live : List (String × Int)

/-- A stream without a timing never reaches its finalizer. A check reads the clock before it runs,
and time does not pass the moment at which a finalizer is due. -/
inductive Streams.Step (rule : Rule) (limit : Int) (timing : String → Option Timing) :
    Streams → Streams → Prop
  | check {s : Streams} {member : String} {nowMs : Int} {r : Except RedisError (Bool × Int × Int)}
      {limiter : State} : (∀ x ∈ s.live, x.1 ≠ member) → nowMs ≤ s.limiter.time →
      (∀ t ∈ timing member, (s.limiter.time : Int) ≤ nowMs + t.lifetime) →
      (r, limiter) = (Cmd.concurrentCheck rule.concKey nowMs limit member
        (concurrentStaleTimeoutSeconds * 1000)).run s.limiter →
      Step rule limit timing s ⟨limiter,
        match r with
        | .ok (true, _) => (member, nowMs) :: s.live
        | _ => s.live⟩
  | finalize {s : Streams} {member : String} {admitted : Int} {t : Timing} :
      (member, admitted) ∈ s.live → timing member = some t →
      (s.limiter.time : Int) = admitted + t.lifetime →
      Step rule limit timing s ⟨((Cmd.zrem rule.concKey member).run s.limiter).2,
        s.live.filter (·.1 ≠ member)⟩
  | release {s : Streams} {member : String} : (∀ x ∈ s.live, x.1 ≠ member) →
      Step rule limit timing s ⟨((Cmd.zrem rule.concKey member).run s.limiter).2, s.live⟩
  | wait {s : Streams} (d : Nat) :
      (∀ x ∈ s.live, ∀ t ∈ timing x.1, (s.limiter.time : Int) + d ≤ x.2 + t.lifetime) →
      Step rule limit timing s ⟨{ s.limiter with time := s.limiter.time + d }, s.live⟩
  | other {s : Streams} {c : Cmd} :
      (∀ key member, c = .zrem key member → key ≠ rule.concKey) →
      (∀ key nowMs l member t, c = .concurrentCheck key nowMs l member t → key ≠ rule.concKey) →
      (∀ key nowMs w l member, c = .rpmCheck key nowMs w l member → key ≠ rule.concKey) →
      Step rule limit timing s ⟨(c.run s.limiter).2, s.live⟩

end RateLimit
