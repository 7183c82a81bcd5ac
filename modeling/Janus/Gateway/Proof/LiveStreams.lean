import Janus.Gateway.Proof.Window
import Janus.Gateway.Timing

/-!
# Live streams

Every stream that holds a slot is in the rule's sorted set, as long as none of them is ever as old
as the stale timeout; then a check counts them all (`live_streams_le`). `lifetime_le` is how long a
stream may take: up to the duration cap, an idle timer and one pause after it has started.
-/

set_option autoImplicit false

namespace RateLimit

open Conc Redis

/-! ## Lifetimes -/

/-- The cap is passed by at most one round. -/
theorem loopTime_le {rounds : List Round} {maxDuration idleTimeout elapsed longest : Nat}
    (hpause : ∀ r ∈ rounds, r.pause ≤ longest) :
    loopTime maxDuration idleTimeout elapsed rounds ≤
      max elapsed (maxDuration + idleTimeout + longest) := by
  induction rounds generalizing elapsed with
  | nil => exact Nat.le_max_left _ _
  | cons r rounds ih =>
    have hr := hpause r List.mem_cons_self
    have hrest := @ih (elapsed + r.wait + r.pause) fun r hr => hpause r (List.mem_cons_of_mem _ hr)
    unfold loopTime
    split
    · omega
    · split <;> omega

/-- Half an hour, one idle timer and one pause after the generator has started. -/
theorem lifetime_le {t : Timing} {longest : Nat} (hpause : ∀ r ∈ t.rounds, r.pause ≤ longest) :
    t.lifetime ≤ t.opening +
      (streamMaxDurationSeconds * 1000 + streamIdleTimeoutSeconds * 1000 + longest) + t.closing := by
  have hloop := @loopTime_le t.rounds (streamMaxDurationSeconds * 1000)
    (streamIdleTimeoutSeconds * 1000) 0 longest hpause
  rw [Nat.zero_max] at hloop
  unfold Timing.lifetime
  exact Nat.add_le_add_right (Nat.add_le_add_left hloop _) _

/-! ## The slots of live streams -/

section

variable {rule : Rule} {limit : Int} {timing : String → Option Timing} {s s' : Streams}

/-- The invariant of the streams of a rule. -/
structure LiveHeld (rule : Rule) (limit : Int) (timing : String → Option Timing) (s : Streams) :
    Prop where
  nodup : (s.live.map (·.1)).Nodup
  held : ∀ x ∈ s.live, ∃ (z : ZSet String) (e : Nat),
    s.limiter.sets rule.concKey = some ⟨z, some e⟩ ∧ z.score x.1 = some x.2 ∧ x.2 + 2110000 ≤ e
  read : ∀ x ∈ s.live, x.2 ≤ s.limiter.time
  due : ∀ x ∈ s.live, ∀ t ∈ timing x.1, (s.limiter.time : Int) ≤ x.2 + t.lifetime
  count : (s.live.length : Int) ≤ limit

/-- Every stream is finalized before it is stale. -/
def Prompt (timing : String → Option Timing) : Prop :=
  ∀ member, ∃ t, timing member = some t ∧ t.lifetime < concurrentStaleTimeoutSeconds * 1000

/-- A live stream is younger than the stale timeout. -/
theorem LiveHeld.young (h : LiveHeld rule limit timing s) (hprompt : Prompt timing)
    {x : String × Int} (hx : x ∈ s.live) : (s.limiter.time : Int) < x.2 + 2100000 := by
  obtain ⟨t, ht, hlife⟩ := hprompt x.1
  have hdue := h.due x hx t ht
  simp only [concurrentStaleTimeoutSeconds] at hlife
  omega

/-- A check counts every live stream. -/
theorem LiveHeld.score (h : LiveHeld rule limit timing s) (hprompt : Prompt timing) {nowMs : Int}
    (hnow : nowMs ≤ s.limiter.time) {x : String × Int} (hx : x ∈ s.live) :
    ∃ (z : ZSet String) (e : Nat), s.limiter.sets rule.concKey = some ⟨z, some e⟩ ∧
      (∀ d, some e = some d → s.limiter.time < d) ∧ x.2 + 2110000 ≤ e ∧
      (s.limiter.freshSet rule.concKey (nowMs - 2100000)).score x.1 = some x.2 := by
  obtain ⟨z, e, hz, hscore, he⟩ := h.held x hx
  have hyoung := h.young hprompt hx
  have hlive : ∀ d, some e = some d → s.limiter.time < d := by
    intro d hd
    cases hd
    omega
  exact ⟨z, e, hz, hlive, he, score_freshSet hz hlive hscore (by omega)⟩

theorem LiveHeld.count_le (h : LiveHeld rule limit timing s) (hprompt : Prompt timing) {nowMs : Int}
    (hnow : nowMs ≤ s.limiter.time) :
    s.live.length ≤ (s.limiter.freshSet rule.concKey (nowMs - 2100000)).card := by
  have hsub : s.live.map (·.1) ⊆
      (s.limiter.freshSet rule.concKey (nowMs - 2100000)).map (·.1) := by
    intro m hm
    obtain ⟨x, hx, rfl⟩ := List.mem_map.1 hm
    obtain ⟨z, e, -, -, -, hscore⟩ := h.score hprompt hnow hx
    exact mem_of_score hscore
  have hle := (h.nodup.subperm hsub).length_le
  rwa [List.length_map, List.length_map] at hle

theorem LiveHeld.granted {member : String} {nowMs : Int} (h : LiveHeld rule limit timing s)
    (hprompt : Prompt timing) (hnew : ∀ x ∈ s.live, x.1 ≠ member) (hnow : nowMs ≤ s.limiter.time)
    (hdue : ∀ t ∈ timing member, (s.limiter.time : Int) ≤ nowMs + t.lifetime)
    (hroom : ((s.limiter.freshSet rule.concKey (nowMs - 2100000)).card : Int) < limit) :
    LiveHeld rule limit timing ⟨s.limiter.addMember rule.concKey
      (s.limiter.freshSet rule.concKey (nowMs - 2100000)) member nowMs (2100000 + 10000),
      (member, nowMs) :: s.live⟩ := by
  have hset : (s.limiter.addMember rule.concKey (s.limiter.freshSet rule.concKey (nowMs - 2100000))
      member nowMs (2100000 + 10000)).sets rule.concKey =
        some ⟨(s.limiter.freshSet rule.concKey (nowMs - 2100000)).add member nowMs,
          some (s.limiter.time + 2110000)⟩ := Table.set_self
  have hcount := h.count_le hprompt hnow
  refine ⟨?_, ?_, ?_, ?_, ?_⟩
  · rw [List.map_cons, List.nodup_cons]
    refine ⟨fun hm => ?_, h.nodup⟩
    obtain ⟨x, hx, hxm⟩ := List.mem_map.1 hm
    exact hnew x hx hxm
  · intro x hx
    rcases List.mem_cons.1 hx with rfl | hx
    · exact ⟨_, _, hset, ZSet.score_add_self, by push_cast; omega⟩
    · obtain ⟨z, e, -, -, -, hscore⟩ := h.score hprompt hnow hx
      have hread := h.read x hx
      exact ⟨_, _, hset, (ZSet.score_add_ne (hnew x hx)).trans hscore, by push_cast; omega⟩
  · intro x hx
    rcases List.mem_cons.1 hx with rfl | hx
    · exact hnow
    · exact h.read x hx
  · intro x hx
    rcases List.mem_cons.1 hx with rfl | hx
    · exact hdue
    · exact h.due x hx
  · simp only [List.length_cons]
    omega

theorem LiveHeld.denied {nowMs : Int} (h : LiveHeld rule limit timing s) (hprompt : Prompt timing)
    (hnow : nowMs ≤ s.limiter.time) :
    LiveHeld rule limit timing ⟨s.limiter.dropStale rule.concKey (nowMs - 2100000), s.live⟩ where
  nodup := h.nodup
  held x hx := by
    obtain ⟨z, e, hz, hlive, he, hscore⟩ := h.score hprompt hnow hx
    exact ⟨_, e, dropStale_sets hz hlive (ne_nil_of_score hscore), hscore, he⟩
  read := h.read
  due := h.due
  count := h.count

/-- Removing a member that is not live leaves the slots of the live ones. -/
theorem LiveHeld.zrem {member : String} (h : LiveHeld rule limit timing s) (hprompt : Prompt timing)
    {live : List (String × Int)} (hsub : live.Sublist s.live) (hne : ∀ x ∈ live, x.1 ≠ member) :
    LiveHeld rule limit timing ⟨((Cmd.zrem rule.concKey member).run s.limiter).2, live⟩ where
  nodup := h.nodup.sublist (hsub.map _)
  held x hx := by
    obtain ⟨z, e, hz, hscore, he⟩ := h.held x (hsub.subset hx)
    have hyoung := h.young hprompt (hsub.subset hx)
    have hlive : ∀ d, some e = some d → s.limiter.time < d := by
      intro d hd
      cases hd
      omega
    have hscore' : (z.rem member).score x.1 = some x.2 :=
      (ZSet.score_rem_ne (hne x hx)).trans hscore
    exact ⟨_, e, zrem_sets hz hlive (ne_nil_of_score hscore'), hscore', he⟩
  read x hx := h.read x (hsub.subset hx)
  due x hx := h.due x (hsub.subset hx)
  count := by
    have hlen := hsub.length_le
    have hcount := h.count
    dsimp only
    omega

theorem LiveHeld.frame {limiter : State} (h : LiveHeld rule limit timing s)
    (hsets : limiter.sets rule.concKey = s.limiter.sets rule.concKey)
    (htime : limiter.time = s.limiter.time) : LiveHeld rule limit timing ⟨limiter, s.live⟩ where
  nodup := h.nodup
  held x hx := by
    rw [hsets]
    exact h.held x hx
  read x hx := by
    rw [htime]
    exact h.read x hx
  due x hx t ht := by
    rw [htime]
    exact h.due x hx t ht
  count := h.count

theorem LiveHeld.wait {d : Nat} (h : LiveHeld rule limit timing s)
    (hdue : ∀ x ∈ s.live, ∀ t ∈ timing x.1, (s.limiter.time : Int) + d ≤ x.2 + t.lifetime) :
    LiveHeld rule limit timing ⟨{ s.limiter with time := s.limiter.time + d }, s.live⟩ where
  nodup := h.nodup
  held := h.held
  read x hx := by
    have hread := h.read x hx
    push_cast
    omega
  due x hx t ht := by
    have hd := hdue x hx t ht
    push_cast
    omega
  count := h.count

theorem concurrentCheck_denied {limiter : State} {key : Key} {nowMs timeoutMs : Int} {member : String}
    (h : limit ≤ (limiter.freshSet key (nowMs - timeoutMs)).card) :
    (Cmd.concurrentCheck key nowMs limit member timeoutMs).run limiter =
      (.ok (false, (limiter.freshSet key (nowMs - timeoutMs)).card, limit),
        limiter.dropStale key (nowMs - timeoutMs)) := by
  simp [Cmd.run, State.addIfRoom, h]

theorem concurrentCheck_granted {limiter : State} {key : Key} {nowMs timeoutMs : Int}
    {member : String} (h : ((limiter.freshSet key (nowMs - timeoutMs)).card : Int) < limit) :
    (Cmd.concurrentCheck key nowMs limit member timeoutMs).run limiter =
      (.ok (true, (limiter.freshSet key (nowMs - timeoutMs)).card + 1, limit),
        limiter.addMember key (limiter.freshSet key (nowMs - timeoutMs)) member nowMs
          (timeoutMs + 10000)) := by
  simp [Cmd.run, State.addIfRoom, not_le.2 h]

theorem LiveHeld.step (h : LiveHeld rule limit timing s) (hprompt : Prompt timing)
    (hstep : Streams.Step rule limit timing s s') : LiveHeld rule limit timing s' := by
  cases hstep with
  | @check member nowMs r limiter hnew hnow hdue hrun =>
    rcases lt_or_ge ((s.limiter.freshSet rule.concKey (nowMs - 2100000)).card : Int) limit with
      hroom | hfull
    · have hgranted := h.granted hprompt hnew hnow hdue hroom
      rw [show concurrentStaleTimeoutSeconds * 1000 = 2100000 from rfl,
        concurrentCheck_granted hroom] at hrun
      obtain ⟨rfl, rfl⟩ := Prod.mk.inj hrun
      exact hgranted
    · have hdenied := h.denied hprompt hnow
      rw [show concurrentStaleTimeoutSeconds * 1000 = 2100000 from rfl,
        concurrentCheck_denied hfull] at hrun
      obtain ⟨rfl, rfl⟩ := Prod.mk.inj hrun
      exact hdenied
  | finalize hx _ _ =>
    refine h.zrem hprompt List.filter_sublist ?_
    intro x hx
    simpa using (List.mem_filter.1 hx).2
  | release hne => exact h.zrem hprompt (List.Sublist.refl _) hne
  | wait d hdue => exact h.wait hdue
  | @other c hzrem hconc hrpm =>
    refine h.frame (sets_run_ne ?_) time_run
    cases c with
    | zrem k member => exact fun hk => hzrem k member rfl (Option.some.inj hk)
    | concurrentCheck k nowMs l member t =>
      exact fun hk => hconc k nowMs l member t rfl (Option.some.inj hk)
    | rpmCheck k nowMs w l member => exact fun hk => hrpm k nowMs w l member rfl (Option.some.inj hk)
    | tpmCheck => simp [Cmd.setKey]
    | tpmSettle => simp [Cmd.setKey]
    | emergencyAdmit => simp [Cmd.setKey]

/-- The bound of the module doc. -/
theorem live_streams_le {s₀ : State} (hlimit : 1 ≤ limit) (hprompt : Prompt timing)
    (hrun : Relation.ReflTransGen (Streams.Step rule limit timing) ⟨s₀, []⟩ s) :
    (s.live.length : Int) ≤ limit := by
  suffices h : LiveHeld rule limit timing s from h.count
  induction hrun with
  | refl => refine ⟨?_, ?_, ?_, ?_, ?_⟩ <;> simp; omega
  | tail _ hstep ih => exact ih.step hprompt hstep

end

/-! ## A stream that is evicted while it runs -/

def streamRule : Rule where
  id := 6
  subjectType := "user"
  subjectId := some 7
  logicalModelId := none
  rpmLimit := none
  tpmLimit := none
  tpmBurstLimit := none
  maxConcurrent := some 1

/-- The router takes its timeout at each attempt, then a chunk comes every 50 seconds until the cap,
and the idle timer ends the stream. The client never pauses. -/
def slowTiming : Timing where
  opening := routerTimeoutSeconds * 1000 * (routerNumRetries + 1)
  rounds := List.replicate 36 ⟨50000, 0⟩ ++ [⟨60000, 0⟩]
  closing := 0

/-- The limiter after the first stream was admitted, and 2100 seconds later. -/
def firstAdmitted : State := ((Cmd.concurrentCheck streamRule.concKey 0 1 "m1" 2100000).run emptyState).2
def muchLater : State := { firstAdmitted with time := firstAdmitted.time + 2100000 }

/-- The second stream is admitted then. -/
def evictedStreams : Streams :=
  ⟨((Cmd.concurrentCheck streamRule.concKey 2100000 1 "m2" 2100000).run muchLater).2,
    [("m2", 2100000), ("m1", 0)]⟩

theorem slowTiming_lifetime : slowTiming.lifetime = 2220000 := by decide +kernel

theorem slow_stream_evicted :
    Relation.ReflTransGen (Streams.Step streamRule 1 fun _ => some slowTiming) ⟨emptyState, []⟩
      evictedStreams ∧ ¬ (evictedStreams.live.length : Int) ≤ 1 := by
  have hfirst : Streams.Step streamRule 1 (fun _ => some slowTiming) ⟨emptyState, []⟩
      ⟨firstAdmitted, [("m1", 0)]⟩ := by
    refine .check (fun x hx => by cases hx) (by decide) (fun t ht => ?_) rfl
    cases ht
    rw [slowTiming_lifetime]
    decide
  have hwait : Streams.Step streamRule 1 (fun _ => some slowTiming) ⟨firstAdmitted, [("m1", 0)]⟩
      ⟨muchLater, [("m1", 0)]⟩ := by
    refine .wait 2100000 fun x hx t ht => ?_
    cases List.mem_singleton.1 hx
    cases ht
    rw [slowTiming_lifetime]
    decide
  have htime : (muchLater.time : Int) = 2100000 := by
    show ((0 + 2100000 : Nat) : Int) = 2100000
    omega
  have hsecond : Streams.Step streamRule 1 (fun _ => some slowTiming) ⟨muchLater, [("m1", 0)]⟩
      evictedStreams := by
    refine @Streams.Step.check streamRule 1 _ ⟨muchLater, [("m1", 0)]⟩ "m2" 2100000 _ _
      (fun x hx => ?_) (le_of_eq htime.symm) (fun t ht => ?_) rfl
    · cases List.mem_singleton.1 hx
      decide
    · cases ht
      rw [slowTiming_lifetime]
      show (muchLater.time : Int) ≤ _
      omega
  refine ⟨((Relation.ReflTransGen.single hfirst).tail hwait).tail hsecond, ?_⟩
  simp [evictedStreams]

/-- A stream that is answered at once, with one chunk after a second. -/
def briefTiming : Timing := ⟨0, [⟨1000, 0⟩], 0⟩

theorem briefTiming_lifetime : briefTiming.lifetime = 1000 := by decide

/-- Two such streams: the second is refused while the first is running, and admitted after it. -/
theorem live_streams_le_brief :
    ∃ s, Relation.ReflTransGen (Streams.Step streamRule 1 fun _ => some briefTiming)
      ⟨emptyState, []⟩ s ∧ s.live = [("m2", 1000)] ∧ (s.live.length : Int) ≤ 1 := by
  have hprompt : Prompt fun _ => some briefTiming := fun _ => ⟨briefTiming, rfl, by decide⟩
  let refused : State := ((Cmd.concurrentCheck streamRule.concKey 0 1 "m2" 2100000).run firstAdmitted).2
  let ended : State := { refused with time := refused.time + 1000 }
  have hfirst : Streams.Step streamRule 1 (fun _ => some briefTiming) ⟨emptyState, []⟩
      ⟨firstAdmitted, [("m1", 0)]⟩ :=
    .check (fun x hx => by cases hx) (by decide) (fun t ht => by cases ht; decide) rfl
  have hrefused : Streams.Step streamRule 1 (fun _ => some briefTiming)
      ⟨firstAdmitted, [("m1", 0)]⟩ ⟨refused, [("m1", 0)]⟩ :=
    @Streams.Step.check streamRule 1 _ ⟨firstAdmitted, [("m1", 0)]⟩ "m2" 0 _ _
      (fun x hx => by cases List.mem_singleton.1 hx; decide) (by decide)
      (fun t ht => by cases ht; decide) rfl
  have hwait : Streams.Step streamRule 1 (fun _ => some briefTiming) ⟨refused, [("m1", 0)]⟩
      ⟨ended, [("m1", 0)]⟩ :=
    .wait 1000 fun x hx t ht => by cases List.mem_singleton.1 hx; cases ht; decide
  have hended : Streams.Step streamRule 1 (fun _ => some briefTiming) ⟨ended, [("m1", 0)]⟩
      ⟨((Cmd.zrem streamRule.concKey "m1").run ended).2, []⟩ :=
    .finalize List.mem_cons_self rfl (by decide)
  let free : State := ((Cmd.zrem streamRule.concKey "m1").run ended).2
  have htime : (free.time : Int) = 1000 := by
    show ((0 + 1000 : Nat) : Int) = 1000
    rfl
  have hsecond : Streams.Step streamRule 1 (fun _ => some briefTiming) ⟨free, []⟩
      ⟨free.addMember streamRule.concKey [] "m2" 1000 (concurrentStaleTimeoutSeconds * 1000 + 10000),
        [("m2", 1000)]⟩ := by
    refine @Streams.Step.check streamRule 1 _ ⟨free, []⟩ "m2" 1000 (.ok (true, 1, 1)) _
      (fun x hx => by cases hx) (le_of_eq htime.symm) (fun t ht => ?_) ?_
    · cases ht
      rw [briefTiming_lifetime]
      show (free.time : Int) ≤ _
      omega
    · have hfree : free.freshSet streamRule.concKey
          (1000 - concurrentStaleTimeoutSeconds * 1000) = [] := by decide
      clear_value free
      simp only [Cmd.run, State.addIfRoom, hfree]
      rfl
  have hrun := ((((Relation.ReflTransGen.single hfirst).tail hrefused).tail hwait).tail hended).tail
    hsecond
  exact ⟨_, hrun, rfl, live_streams_le (by decide) hprompt hrun⟩

end RateLimit
