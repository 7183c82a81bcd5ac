import Mathlib.Algebra.Order.BigOperators.Group.List
import Janus.ChannelHealth.Service
import Janus.Conc.Triple

/-!
# What a recovered channel starts from

`record_probe_success` deletes the buckets of ten minutes, `get_error_rate` sums those of the whole
window. The calls run one after the other, time passes between their commands.

* `Sound`: the buckets of a store that calls have left.
* `Recovered`: the store after a recovery, with the minutes of the outcomes recorded since.
* `CleanStart`: a recovered channel is judged by the outcomes recorded since.
* `cleanStart_iff`: it is, unless the window holds counts older than the buckets that were deleted.
-/

set_option autoImplicit false

namespace ChannelHealth

open Conc Redis

variable {settings : Settings} {channel : ChannelId} {s s' : Store} {c : Cmd} {k lo : Int}
  {minutes : List Int}

/-! ## Minutes -/

theorem minute_mono {n n' : Nat} (h : n ≤ n') : minute n ≤ minute n' := by
  unfold minute
  have hdiv := Nat.div_le_div_right (c := 60000) h
  omega

theorem mem_bucketsFrom {b : Int} {n : Nat} : k ∈ bucketsFrom b n ↔ b - n < k ∧ k ≤ b := by
  simp only [bucketsFrom, List.mem_map, List.mem_range]
  constructor
  · rintro ⟨i, hi, rfl⟩
    omega
  · rintro ⟨hlt, hle⟩
    exact ⟨(b - k).toNat, by omega, by omega⟩

theorem nodup_bucketsFrom {b : Int} {n : Nat} : (bucketsFrom b n).Nodup := by
  refine List.Nodup.map (fun i j h => ?_) List.nodup_range
  have : b - (i : Int) = b - j := h
  omega

variable (minutes) in
/-- Of the minutes of a list without repetitions, a list has no more than its length. -/
theorem sum_count_le {l : List Int} (h : l.Nodup) :
    (l.map fun k => minutes.count k).sum ≤ minutes.length := by
  induction minutes with
  | nil => simp
  | cons m minutes ih =>
    have hsplit : (l.map fun k => (m :: minutes).count k).sum =
        (l.map fun k => minutes.count k).sum + l.count m := by
      clear h ih
      induction l with
      | nil => rfl
      | cons k l ih =>
        rw [List.map_cons, List.map_cons, List.sum_cons, List.sum_cons, List.count_cons, ih,
          List.count_cons]
        simp only [beq_iff_eq, eq_comm (b := k)]
        omega
    have hcount : l.count m ≤ 1 := List.nodup_iff_count_le_one.1 h m
    rw [hsplit, List.length_cons]
    omega

/-! ## The buckets -/

/-- What the readers of the buckets see later, they have seen before. -/
def Fades (s s' : Store) : Prop :=
  s.now ≤ s'.now ∧ ∀ key h, s'.buckets.get s'.now key = some h → s.buckets.get s.now key = some h

theorem Fades.refl (s : Store) : Fades s s := ⟨Nat.le_refl _, fun _ _ h => h⟩

theorem fades_tick (h : tick s s') : Fades s s' := by
  obtain ⟨d, rfl⟩ := h
  exact ⟨Nat.le_add_right _ _, fun _ _ h => Table.get_anti h (Nat.le_add_right _ _)⟩

theorem foldl_del (channel : ChannelId) (t : Table (ChannelId × Int) Bucket) (buckets : List Int)
    (key : ChannelId × Int) :
    buckets.foldl (fun t m => t.del (channel, m)) t key =
      if key.1 = channel ∧ key.2 ∈ buckets then none else t key := by
  induction buckets generalizing t with
  | nil => simp
  | cons m buckets ih =>
    rw [List.foldl_cons, ih]
    by_cases hkey : key = (channel, m)
    · subst hkey
      simp
    · have hne : ¬ (key.1 = channel ∧ key.2 = m) := fun h => hkey (Prod.ext h.1 h.2)
      rw [Table.del_ne hkey]
      by_cases hc : key.1 = channel <;> simp_all

/-- The channel in one of whose buckets the command counts. -/
def Cmd.counts : Cmd → Option ChannelId
  | .hincrby channel .. => some channel
  | _ => none

/-- The channel that the command degrades. -/
def Cmd.degrades : Cmd → Option ChannelId
  | .sadd channel => some channel
  | _ => none

theorem fades_run (hc : c.counts = none) : Fades s (c.run Cmd.anyAnswer s).2 := by
  cases c with
  | hincrby ch m f a => cases hc
  | expire ch m ttl =>
    refine ⟨Nat.le_refl _, fun key h hget => ?_⟩
    change (if ttl ≤ 0 then s.buckets.del (ch, m)
      else s.buckets.expire s.now (ch, m) (ttl.toNat * 1000)).get s.now key = some h at hget
    split at hget
    · by_cases hkey : key = (ch, m)
      · subst hkey
        rw [Table.get_of_none Table.del_self] at hget
        cases hget
      · rwa [Table.get_congr (Table.del_ne hkey)] at hget
    · rwa [Table.get_expire (by omega)] at hget
  | deleteBuckets ch ms =>
    refine ⟨Nat.le_refl _, fun key h hget => ?_⟩
    have hkey := foldl_del ch s.buckets ms key
    split at hkey
    · rw [Cmd.run, Table.get_of_none hkey] at hget
      cases hget
    · rwa [Cmd.run, Table.get_congr hkey] at hget
  | setLock ch ttl =>
    simp only [Cmd.run, Store.setLock]
    split <;> exact Fades.refl _
  | _ => exact Fades.refl _

theorem sem_fades {r : c.Resp} (hc : c.counts = none) (h : sem c s r s') : Fades s s' := by
  rw [h.2]
  exact fades_run hc

/-- What readers see of the bucket that is counted in. -/
theorem get_hincrby_self {m : Int} {f : String} {a : Int} :
    (s.hincrby channel m f a).buckets.get s.now (channel, m) =
      some (((s.buckets.get s.now (channel, m)).getD Bucket.empty).add f a) := by
  simp only [Store.hincrby, Table.get_alter_self]

theorem get_hincrby_ne {m : Int} {f : String} {a : Int} {key : ChannelId × Int}
    (h : key ≠ (channel, m)) :
    (s.hincrby channel m f a).buckets.get s.now key = s.buckets.get s.now key := by
  simp only [Store.hincrby, Table.get_alter_ne h]

theorem Bucket.add_self {b : Bucket} {f : String} {a : Int} :
    b.add f a f = some ((b f).getD 0 + a) := Function.update_self ..

theorem Bucket.add_ne {b : Bucket} {f f' : String} {a : Int} (h : f' ≠ f) : b.add f a f' = b f' :=
  Function.update_of_ne h ..

/-! ## The store that calls leave -/

/-- Every count is positive, and no bucket is of a minute to come. -/
structure Sound (s : Store) : Prop where
  positive : ∀ key h f n, s.buckets.get s.now key = some h → h f = some n → 0 < n
  past : ∀ key h, s.buckets.get s.now key = some h → key.2 ≤ minute s.now

theorem sound_empty {start : Nat} : Sound (Store.empty start) where
  positive _ _ _ _ h := by cases h
  past _ _ h := by cases h

theorem Sound.fades (h : Sound s) (hf : Fades s s') : Sound s' where
  positive key b f n hget := h.positive key b f n (hf.2 key b hget)
  past key b hget := (h.past key b (hf.2 key b hget)).trans (minute_mono hf.1)

theorem Sound.hincrby {m : Int} {f : String} (h : Sound s) (hm : m ≤ minute s.now) :
    Sound (s.hincrby channel m f 1) where
  positive key b g n hget hb := by
    by_cases hkey : key = (channel, m)
    · subst hkey
      cases get_hincrby_self.symm.trans hget
      have hold (n' : Int) (hn' : ((s.buckets.get s.now (channel, m)).getD Bucket.empty) g = some n') :
          0 < n' := by
        cases hb' : s.buckets.get s.now (channel, m) with
        | none =>
          rw [hb'] at hn'
          cases hn'
        | some b' =>
          rw [hb'] at hn'
          exact h.positive _ _ _ _ hb' hn'
      by_cases hg : g = f
      · subst hg
        rw [Bucket.add_self] at hb
        cases hb
        cases hg : ((s.buckets.get s.now (channel, m)).getD Bucket.empty) g with
        | none => simp
        | some n' =>
          have hpos := hold n' hg
          simp only [Option.getD_some]
          omega
      · rw [Bucket.add_ne hg] at hb
        exact hold n hb
    · exact h.positive key b g n ((get_hincrby_ne hkey).symm.trans hget) hb
  past key b hget := by
    by_cases hkey : key = (channel, m)
    · subst hkey
      exact hm
    · exact h.past key b ((get_hincrby_ne hkey).symm.trans hget)

theorem Sound.stable : Prog.Stable tick Sound := fun _ _ h ht => h.fades (fades_tick ht)

variable (channel) in
/-- The commands that count in one minute of one channel, and those that do not count. -/
theorem Sound.counts {α : Type} {p : Redis α} {m : Int} {O : α → Prop}
    (h : p.Issues (fun c => (∃ f, c = .hincrby channel m f 1) ∨ c.counts = none) O) :
    Prog.Triple sem tick (fun s => Sound s ∧ m ≤ minute s.now) p fun _ => Sound := by
  refine Prog.Triple.post (Prog.Issues.triple h ?_ ?_) fun _ _ hs => hs.1
  · intro s s' hs ht
    exact ⟨hs.1.fades (fades_tick ht), hs.2.trans (minute_mono (fades_tick ht).1)⟩
  · intro c s r s' hc hs hrun
    rcases hc with ⟨f, rfl⟩ | hc
    · rw [hrun.2]
      exact ⟨hs.1.hincrby hs.2, hs.2⟩
    · have hfades := sem_fades hc hrun
      exact ⟨hs.1.fades hfades, hs.2.trans (minute_mono hfades.1)⟩

/-! ## The programs -/

/-- Neither a count nor a degradation. -/
def Mild {α : Type} (p : Redis α) : Prop :=
  p.Issues (fun c => c.counts = none ∧ c.degrades = none) fun _ => True

/-- The buckets that `get_error_rate` sums. -/
def windowBuckets (windowSeconds : Int) (now : Nat) : List Int :=
  bucketsFrom (minute now) (windowSeconds / 60 + 1).toNat

theorem getErrorRate_eq {windowSeconds : Int} : getErrorRate channel windowSeconds =
    (redis .time >>= fun now => (windowBuckets windowSeconds now).foldlM (readBucket channel) (0, 0)
      >>= fun sums => pure (ErrorRate.ofCounts sums.1 sums.2)) := rfl

theorem getErrorRate_mild {windowSeconds : Int} : Mild (getErrorRate channel windowSeconds) := by
  rw [getErrorRate_eq]
  refine Prog.Issues.cmd_bind.2 ⟨⟨rfl, rfl⟩, fun now => ?_⟩
  refine Prog.Issues.bind (O := fun _ => True) ?_ fun _ _ => trivial
  refine Prog.Issues.foldlM trivial fun _ _ _ _ => ?_
  exact ⟨⟨rfl, rfl⟩, fun _ => ⟨⟨rfl, rfl⟩, fun _ => trivial⟩⟩

theorem recordProbeSuccess_mild : Mild (recordProbeSuccess channel) :=
  ⟨⟨rfl, rfl⟩, fun _ => ⟨⟨rfl, rfl⟩, fun _ => ⟨⟨rfl, rfl⟩, fun _ => ⟨⟨rfl, rfl⟩, fun _ =>
    ⟨⟨rfl, rfl⟩, fun _ => trivial⟩⟩⟩⟩⟩

theorem recordProbeFailure_mild {n : Int} : Mild (recordProbeFailure settings channel n) :=
  ⟨⟨rfl, rfl⟩, fun _ => ⟨⟨rfl, rfl⟩, fun _ => trivial⟩⟩

theorem degrade_issues : (degrade channel).Issues
    (fun c => c.counts = none ∧ (c.degrades = none ∨ c.degrades = some channel)) fun _ => True := by
  refine ⟨⟨rfl, .inr rfl⟩, fun wasFirst => ?_⟩
  cases wasFirst with
  | false => trivial
  | true =>
    exact ⟨⟨rfl, .inl rfl⟩, fun _ => ⟨⟨rfl, .inl rfl⟩, fun _ => ⟨⟨rfl, .inl rfl⟩, fun _ => trivial⟩⟩⟩

/-- The end of an evaluation: the channel is degraded or not. -/
theorem evaluate_issues : (evaluate settings channel).Issues
    (fun c => c.counts = none ∧ (c.degrades = none ∨ c.degrades = some channel)) fun _ => True := by
  refine (getErrorRate_mild.weaken fun c hc => ⟨hc.1, .inl hc.2⟩).bind fun rate _ => ?_
  split
  · trivial
  · split
    · trivial
    · exact degrade_issues

variable {success : Bool} {errorClass : Option String}

theorem recordError_issues {m : Int} : (recordError channel m errorClass).Issues
    (fun c => ∃ f, (f = "error" ∨ errorClass = some f) ∧ c = .hincrby channel m f 1)
    fun _ => True := by
  cases errorClass with
  | none => exact ⟨⟨_, .inl rfl, rfl⟩, fun _ => trivial⟩
  | some text =>
    refine ⟨⟨_, .inl rfl, rfl⟩, fun _ => ?_⟩
    split
    · exact ⟨⟨_, .inr rfl, rfl⟩, fun _ => trivial⟩
    · exact trivial

/-- A recording, once the request is counted in its minute. -/
def recordRest (channel : ChannelId) (success : Bool) (errorClass : Option String) (windowSeconds : Int)
    (m : Int) : Redis Unit := do
  (if success then pure () else recordError channel m errorClass)
  redis (.expire channel m (windowSeconds + 120))

theorem recordRest_issues {windowSeconds m : Int} :
    (recordRest channel success errorClass windowSeconds m).Issues
      (fun c => (∃ f, (f = "error" ∨ errorClass = some f) ∧ c = .hincrby channel m f 1) ∨
        ∃ ttl, c = .expire channel m ttl)
      fun _ => True := by
  cases success with
  | true => exact ⟨.inr ⟨_, rfl⟩, fun _ => trivial⟩
  | false =>
    refine Prog.Issues.bind (O := fun _ => True) ?_ fun _ _ => ⟨.inr ⟨_, rfl⟩, fun _ => trivial⟩
    exact recordError_issues.weaken fun c hc => Or.inl hc

theorem recordRequestOutcome_eq {windowSeconds : Int} :
    recordRequestOutcome channel success errorClass windowSeconds =
      (redis .time >>= fun now => redis (.hincrby channel (minute now) "total" 1) >>= fun _ =>
        recordRest channel success errorClass windowSeconds (minute now)) := rfl

theorem recordRequestOutcome_issues {windowSeconds : Int} :
    (recordRequestOutcome channel success errorClass windowSeconds).Issues
      (fun c => (c.counts = none ∨ c.counts = some channel) ∧ c.degrades = none) fun _ => True := by
  rw [recordRequestOutcome_eq]
  refine Prog.Issues.cmd_bind.2 ⟨⟨.inl rfl, rfl⟩, fun now => Prog.Issues.cmd_bind.2
    ⟨⟨.inr rfl, rfl⟩, fun _ => recordRest_issues.weaken ?_⟩⟩
  rintro c (⟨f, -, rfl⟩ | ⟨ttl, rfl⟩)
  · exact ⟨.inr rfl, rfl⟩
  · exact ⟨.inl rfl, rfl⟩

theorem recordRequestOutcome_sound {windowSeconds : Int} :
    Prog.Triple sem tick Sound (recordRequestOutcome channel success errorClass windowSeconds)
      fun _ => Sound := by
  rw [recordRequestOutcome_eq]
  refine Prog.Triple.step (M := fun now s => Sound s ∧ minute now ≤ minute s.now) Sound.stable
    (fun s r s' hs hrun => ?_) fun now => ?_
  · obtain ⟨rfl, rfl⟩ := hrun
    exact ⟨hs, Int.le_refl _⟩
  · refine Sound.counts channel (Prog.Issues.cmd_bind.2 ⟨.inl ⟨_, rfl⟩, fun _ =>
      recordRest_issues.weaken ?_⟩)
    rintro c (⟨f, -, rfl⟩ | ⟨ttl, rfl⟩)
    · exact .inl ⟨f, rfl⟩
    · exact .inr rfl

variable (settings) in
theorem call_sound (call : Call) :
    Prog.Triple sem tick Sound (call.prog settings) fun _ => Sound := by
  have hkeeps {p : Redis Unit} {I : Cmd → Prop} (hp : p.Issues I fun _ => True)
      (hI : ∀ c, I c → c.counts = none) : Prog.Triple sem tick Sound p fun _ => Sound :=
    Prog.Issues.triple hp Sound.stable fun c _ _ _ hc hs hrun => hs.fades (sem_fades (hI c hc) hrun)
  cases call with
  | outcome ch success errorClass =>
    refine Prog.Triple.bind tick_refl recordRequestOutcome_sound fun _ => ?_
    cases success with
    | true => exact Prog.Triple.ret (Q := fun _ => Sound) Sound.stable
    | false => exact hkeeps evaluate_issues fun c hc => hc.1
  | probeSuccess ch => exact hkeeps recordProbeSuccess_mild fun c hc => hc.1
  | probeFailure ch n =>
    refine hkeeps (Prog.Issues.bind recordProbeFailure_mild fun _ _ => ?_) fun c hc => hc.1
    exact trivial

/-! ## The store after a recovery -/

/-- Nothing that `get_error_rate` reads. -/
def Uncounted (b : Bucket) : Prop := b "total" = none ∧ b "error" = none

/-- The buckets from `lo` on count no more than the outcomes that were recorded in their minutes. -/
structure Counted (channel : ChannelId) (lo : Int) (minutes : List Int) (s : Store) : Prop where
  total : ∀ k b, lo ≤ k → s.buckets.get s.now (channel, k) = some b →
    (b "total").getD 0 ≤ minutes.count k
  untouched : ∀ k b, lo ≤ k → s.buckets.get s.now (channel, k) = some b → k ∉ minutes → Uncounted b

theorem Counted.fades (h : Counted channel lo minutes s) (hf : Fades s s') :
    Counted channel lo minutes s' where
  total k b hk hget := h.total k b hk (hf.2 _ _ hget)
  untouched k b hk hget := h.untouched k b hk (hf.2 _ _ hget)

theorem Counted.hincrby_ne {ch : ChannelId} {m : Int} {f : String} {a : Int}
    (h : Counted channel lo minutes s) (hne : ch ≠ channel) :
    Counted channel lo minutes (s.hincrby ch m f a) := by
  have hget (k : Int) : (s.hincrby ch m f a).buckets.get s.now (channel, k) =
      s.buckets.get s.now (channel, k) := get_hincrby_ne fun hkey => hne (congrArg Prod.fst hkey).symm
  exact ⟨fun k b hk hb => h.total k b hk ((hget k).symm.trans hb),
    fun k b hk hb => h.untouched k b hk ((hget k).symm.trans hb)⟩

theorem Counted.hincrby {m : Int} {f : String} {minutes' : List Int}
    (h : Counted channel lo minutes s) (hm : m ∈ minutes') (hsub : minutes ⊆ minutes')
    (hcount : ∀ k, minutes.count k + (if k = m ∧ f = "total" then 1 else 0) ≤ minutes'.count k) :
    Counted channel lo minutes' (s.hincrby channel m f 1) where
  total k b hk hget := by
    have hk' := hcount k
    by_cases hkm : k = m
    · subst hkm
      cases get_hincrby_self.symm.trans hget
      have hold : (((s.buckets.get s.now (channel, k)).getD Bucket.empty) "total").getD 0 ≤
          minutes.count k := by
        cases hb : s.buckets.get s.now (channel, k) with
        | none => exact Int.natCast_nonneg _
        | some b => exact h.total k b hk hb
      by_cases hf : f = "total"
      · subst hf
        rw [if_pos ⟨rfl, rfl⟩] at hk'
        rw [Bucket.add_self, Option.getD_some]
        omega
      · rw [if_neg fun h => hf h.2] at hk'
        rw [Bucket.add_ne (Ne.symm hf)]
        omega
    · have hb := h.total k b hk ((get_hincrby_ne fun hkey => hkm (congrArg Prod.snd hkey)).symm.trans hget)
      rw [if_neg fun h => hkm h.1] at hk'
      omega
  untouched k b hk hget hnot := by
    have hkm : k ≠ m := fun hkm => hnot (hkm ▸ hm)
    refine h.untouched k b hk ?_ fun hmem => hnot (hsub hmem)
    exact (get_hincrby_ne fun hkey => hkm (congrArg Prod.snd hkey)).symm.trans hget

/-- After a recovery: the outcomes recorded since, by their minutes, from the oldest bucket on that a
later evaluation reads. -/
structure Recovered (settings : Settings) (channel : ChannelId) (lo : Int) (minutes : List Int)
    (s : Store) : Prop extends Counted channel lo minutes s where
  degraded : channel ∈ s.degraded → settings.minRequests ≤ minutes.length
  since : lo ≤ minute s.now - settings.windowSeconds / 60

theorem now_run : (c.run Cmd.anyAnswer s).2.now = s.now := by
  cases c with
  | setLock ch ttl =>
    simp only [Cmd.run, Store.setLock]
    split <;> rfl
  | _ => rfl

theorem degraded_run (hc : c.degrades ≠ some channel)
    (h : channel ∈ (c.run Cmd.anyAnswer s).2.degraded) : channel ∈ s.degraded := by
  cases c with
  | sadd ch =>
    rcases List.mem_insert_iff.1 h with rfl | h
    · exact absurd rfl hc
    · exact h
  | srem ch => exact (List.mem_filter.1 h).1
  | setLock ch ttl =>
    simp only [Cmd.run, Store.setLock] at h
    split at h <;> exact h
  | _ => exact h

theorem Counted.run {r : c.Resp} (h : Counted channel lo minutes s) (hc : c.counts ≠ some channel)
    (hrun : sem c s r s') : Counted channel lo minutes s' := by
  cases c with
  | hincrby ch m f a =>
    rw [hrun.2]
    exact h.hincrby_ne fun hch => hc (congrArg some hch)
  | _ => exact h.fades (sem_fades rfl hrun)

variable {r : c.Resp}

theorem Recovered.run (h : Recovered settings channel lo minutes s) (hc : c.counts ≠ some channel)
    (hd : c.degrades ≠ some channel) (hrun : sem c s r s') :
    Recovered settings channel lo minutes s' where
  toCounted := h.toCounted.run hc hrun
  degraded hmem := h.degraded (degraded_run hd (by rwa [hrun.2] at hmem))
  since := by
    rw [hrun.2, now_run]
    exact h.since

theorem Recovered.stable : Prog.Stable tick (Recovered settings channel lo minutes) := by
  intro s s' h ht
  have hfades := fades_tick ht
  obtain ⟨d, rfl⟩ := ht
  exact ⟨h.toCounted.fades hfades, h.degraded,
    h.since.trans (Int.sub_le_sub_right (minute_mono hfades.1) _)⟩

theorem Recovered.kept {α : Type} {p : Redis α} {O : α → Prop}
    (hp : p.Issues (fun c => c.counts ≠ some channel ∧ c.degrades ≠ some channel) O) :
    Prog.Triple sem tick (Recovered settings channel lo minutes) p
      fun _ => Recovered settings channel lo minutes :=
  Prog.Issues.triple hp Recovered.stable fun _ _ _ _ hc hs hrun => hs.run hc.1 hc.2 hrun

/-! ## Recording -/

theorem Recovered.hincrby {m : Int} {f : String} {minutes' : List Int}
    (h : Recovered settings channel lo minutes s) (hm : m ∈ minutes') (hsub : minutes ⊆ minutes')
    (hcount : ∀ k, minutes.count k + (if k = m ∧ f = "total" then 1 else 0) ≤ minutes'.count k)
    (hlen : minutes.length ≤ minutes'.length) :
    Recovered settings channel lo minutes' (s.hincrby channel m f 1) where
  toCounted := h.toCounted.hincrby hm hsub hcount
  degraded hmem := (h.degraded hmem).trans (Int.ofNat_le.2 hlen)
  since := h.since

/-- An outcome of the channel is counted in its minute. -/
theorem recordRequestOutcome_counts {windowSeconds : Int} (hclass : errorClass ≠ some "total") :
    Prog.Triple sem tick (Recovered settings channel lo minutes)
      (recordRequestOutcome channel success errorClass windowSeconds)
      fun _ s => ∃ m, Recovered settings channel lo (m :: minutes) s := by
  rw [recordRequestOutcome_eq]
  refine Prog.Triple.step (M := fun _ => Recovered settings channel lo minutes) Recovered.stable
    (fun s r s' hs hrun => hs.run (by simp [Cmd.counts]) (by simp [Cmd.degrades]) hrun) fun now => ?_
  refine Prog.Triple.step (M := fun _ => Recovered settings channel lo (minute now :: minutes))
    Recovered.stable (fun s r s' hs hrun => ?_) fun _ => ?_
  · rw [hrun.2]
    refine hs.hincrby List.mem_cons_self (List.subset_cons_self _ _) (fun k => ?_) (by simp)
    rw [List.count_cons]
    simp only [beq_iff_eq, and_true, eq_comm (b := k)]
    exact Nat.le_refl _
  · refine Prog.Triple.post (Q := fun _ => Recovered settings channel lo (minute now :: minutes))
      (Prog.Issues.triple recordRest_issues Recovered.stable ?_) fun _ s hs => ⟨_, hs⟩
    rintro c s r s' (⟨f, hf, rfl⟩ | ⟨ttl, rfl⟩) hs hrun
    · have hne : f ≠ "total" := by
        rintro rfl
        rcases hf with hf | hf
        · exact absurd hf (by decide)
        · exact hclass hf
      rw [hrun.2]
      refine hs.hincrby List.mem_cons_self (List.Subset.refl _) (fun k => ?_) (Nat.le_refl _)
      rw [if_neg fun h => hne h.2]
      exact Nat.le_refl _
    · exact hs.run (by simp [Cmd.counts]) (by simp [Cmd.degrades]) hrun

/-! ## Reading -/

/-- What a read of a bucket of the window answers. -/
theorem Counted.hget (h : Counted channel lo minutes s) {f : String} (hk : lo ≤ k)
    (hf : f = "total" ∨ f = "error") : (k ∉ minutes → s.hget channel k f = none) ∧
    (f = "total" → (s.hget channel k f).getD 0 ≤ minutes.count k) := by
  unfold Store.hget
  cases hb : s.buckets.get s.now (channel, k) with
  | none => exact ⟨fun _ => rfl, fun _ => Int.natCast_nonneg _⟩
  | some b =>
    refine ⟨fun hnot => ?_, fun htotal => ?_⟩
    · have hun := h.untouched k b hk hb hnot
      rcases hf with rfl | rfl
      · exact hun.1
      · exact hun.2
    · subst htotal
      exact h.total k b hk hb

/-- The sums over the buckets read so far leave room for the buckets to come. -/
def Sums (minutes : List Int) (rest : List Int) (sums : Int × Int) : Prop :=
  sums.1 + (rest.map fun k => minutes.count k).sum ≤ minutes.length ∧ (minutes = [] → sums = (0, 0))

theorem readBucket_sums {rest : List Int} {sums : Int × Int} (hk : lo ≤ k) :
    Prog.Triple sem tick
      (fun s => Recovered settings channel lo minutes s ∧ Sums minutes (k :: rest) sums)
      (readBucket channel sums k)
      fun sums s => Recovered settings channel lo minutes s ∧ Sums minutes rest sums := by
  refine Prog.Triple.step (M := fun (t : Option Int) s => (Recovered settings channel lo minutes s ∧
      Sums minutes (k :: rest) sums) ∧ (k ∉ minutes → t = none) ∧ t.getD 0 ≤ minutes.count k)
    (fun s s' hs ht => ⟨hs.1.stable ht, hs.2⟩) (fun s t s' hs hrun => ?_) fun t => ?_
  · have hget := hs.1.toCounted.hget hk (.inl (rfl : "total" = "total"))
    obtain ⟨rfl, rfl⟩ := hrun
    exact ⟨hs, hget.1, hget.2 rfl⟩
  · refine Prog.Triple.step (M := fun (e : Option Int) s => ((Recovered settings channel lo minutes s ∧
        Sums minutes (k :: rest) sums) ∧ (k ∉ minutes → t = none) ∧ t.getD 0 ≤ minutes.count k) ∧
        (k ∉ minutes → e = none))
      (fun s s' hs ht => ⟨⟨hs.1.1.stable ht, hs.1.2⟩, hs.2⟩) (fun s e s' hs hrun => ?_) fun e => ?_
    · have hget := hs.1.1.toCounted.hget hk (.inr (rfl : "error" = "error"))
      obtain ⟨rfl, rfl⟩ := hrun
      exact ⟨hs, hget.1⟩
    · intro s tr a s' tr' hs hr
      obtain ⟨rfl, -, ht⟩ := hr
      obtain ⟨⟨⟨hrec, hsum, hzero⟩, htnone, htotal⟩, henone⟩ := hs
      refine ⟨hrec.stable ht, ?_, fun hnil => ?_⟩
      · rw [List.map_cons, List.sum_cons] at hsum
        push_cast at hsum ⊢
        omega
      · subst hnil
        rw [htnone (by simp), henone (by simp), hzero rfl]
        rfl

theorem getErrorRate_reads : Prog.Triple sem tick (Recovered settings channel lo minutes)
    (getErrorRate channel settings.windowSeconds) fun rate s =>
      Recovered settings channel lo minutes s ∧ rate.total ≤ minutes.length ∧
        (minutes = [] → rate = ⟨0, 0, 0⟩) := by
  rw [getErrorRate_eq]
  refine Prog.Triple.step (M := fun now s => Recovered settings channel lo minutes s ∧
    lo ≤ minute now - settings.windowSeconds / 60) Recovered.stable (fun s r s' hs hrun => ?_)
    fun now => ?_
  · obtain ⟨rfl, rfl⟩ := hrun
    exact ⟨hs, hs.since⟩
  · refine Prog.Triple.bind tick_refl (M := fun sums s =>
      Recovered settings channel lo minutes s ∧ Sums minutes [] sums) ?_ fun sums => ?_
    · refine Prog.Triple.pre (Prog.Triple.post (Prog.Triple.foldlM (I := fun rest sums s =>
        (Recovered settings channel lo minutes s ∧ Sums minutes rest sums) ∧ ∀ k ∈ rest, lo ≤ k)
        tick_refl (fun sums s s' hs ht => ⟨⟨hs.1.1.stable ht, hs.1.2⟩, hs.2⟩) ?_)
        fun sums s hs => hs.1) fun s hs => ⟨⟨hs.1, ?_, fun _ => rfl⟩, fun k hk => ?_⟩
      · intro k rest sums s t a s' t' hs hr
        have hread := readBucket_sums (hs.2 k List.mem_cons_self) hs.1 hr
        exact ⟨hread, fun k' hk' => hs.2 k' (List.mem_cons_of_mem _ hk')⟩
      · have hsum := sum_count_le minutes (nodup_bucketsFrom
          (b := minute now) (n := (settings.windowSeconds / 60 + 1).toNat))
        simp only [zero_add]
        exact_mod_cast hsum
      · have hmem := mem_bucketsFrom.1 hk
        have hlo := hs.2
        omega
    · intro s t a s' t' hs hr
      obtain ⟨rfl, -, ht⟩ := hr
      refine ⟨hs.1.stable ht, ?_, fun hnil => ?_⟩
      · have hsum := hs.2.1
        simp only [List.map_nil, List.sum_nil, Nat.cast_zero, add_zero] at hsum
        exact hsum
      · rw [hs.2.2 hnil]
        rfl

/-! ## Calls after a recovery -/

theorem degrade_recovered : Prog.Triple sem tick
    (fun s => Recovered settings channel lo minutes s ∧ settings.minRequests ≤ minutes.length)
    (degrade channel) fun _ => Recovered settings channel lo minutes := by
  refine Prog.Triple.post (Prog.Issues.triple degrade_issues (fun s s' hs ht =>
    ⟨hs.1.stable ht, hs.2⟩) fun c s r s' hc hs hrun => ⟨⟨?_, fun _ => hs.2, ?_⟩, hs.2⟩)
    fun _ s hs => hs.1
  · exact hs.1.toCounted.fades (sem_fades hc.1 hrun)
  · rw [hrun.2, now_run]
    exact hs.1.since

/-- A channel is degraded only when enough outcomes have been recorded since. -/
theorem evaluate_recovered : Prog.Triple sem tick (Recovered settings channel lo minutes)
    (evaluate settings channel) fun _ => Recovered settings channel lo minutes := by
  refine Prog.Triple.bind tick_refl getErrorRate_reads fun rate => ?_
  have hret : Prog.Triple sem tick (Recovered settings channel lo minutes) (pure () : Redis Unit)
      fun _ => Recovered settings channel lo minutes :=
    Prog.Triple.ret (Q := fun _ => Recovered settings channel lo minutes) Recovered.stable
  split
  · exact hret.pre fun s hs => hs.1
  · next hmin =>
    split
    · exact hret.pre fun s hs => hs.1
    · exact degrade_recovered.pre fun s hs => ⟨hs.1, by have hle := hs.2.1; omega⟩

theorem statusText_ne_total {status : Gateway.Handler.UsageStatus} :
    Events.statusText status ≠ "total" := by
  cases status <;> decide

/-- A call adds the minute of the outcome that it records. -/
theorem call_recovered (call : Call) : Prog.Triple sem tick
    (Recovered settings channel lo minutes) (call.prog settings) fun _ s => ∃ minutes',
      Recovered settings channel lo minutes' s ∧
        minutes'.length = minutes.length + if call.isOutcome channel then 1 else 0 := by
  have hkept {p : Redis Unit} {I : Cmd → Prop} (hp : p.Issues I fun _ => True)
      (hI : ∀ c, I c → c.counts ≠ some channel ∧ c.degrades ≠ some channel) :
      Prog.Triple sem tick (Recovered settings channel lo minutes) p fun _ s => ∃ minutes',
        Recovered settings channel lo minutes' s ∧ minutes'.length = minutes.length + 0 :=
    (Recovered.kept (hp.weaken hI)).post fun _ s hs => ⟨minutes, hs, rfl⟩
  cases call with
  | outcome ch success errorClass =>
    by_cases hch : ch = channel
    · subst hch
      have hclass : errorClass.map Events.statusText ≠ some "total" := by
        intro h
        obtain ⟨status, -, hstatus⟩ := Option.map_eq_some_iff.1 h
        exact statusText_ne_total hstatus
      refine Prog.Triple.bind tick_refl (recordRequestOutcome_counts hclass) fun _ => ?_
      intro s t a s' t' ⟨m, hs⟩ hr
      refine ⟨m :: minutes, ?_, by simp [Call.isOutcome]⟩
      cases success with
      | true => exact hs.stable hr.2.2
      | false => exact evaluate_recovered hs hr
    · have hne : Call.isOutcome channel (.outcome ch success errorClass) = false := by
        simp [Call.isOutcome, hch]
      rw [hne]
      have hother {o : Option ChannelId} (ho : o = none ∨ o = some ch) : o ≠ some channel := by
        rcases ho with rfl | rfl
        · simp
        · simpa using hch
      refine hkept (I := fun c => c.counts ≠ some channel ∧ c.degrades ≠ some channel) ?_
        fun c hc => hc
      refine Prog.Issues.bind (recordRequestOutcome_issues.weaken fun c hc =>
        ⟨hother hc.1, hother (.inl hc.2)⟩) fun _ _ => ?_
      cases success with
      | true => exact trivial
      | false => exact evaluate_issues.weaken fun c hc => ⟨hother (.inl hc.1), hother hc.2⟩
  | probeSuccess ch => exact hkept recordProbeSuccess_mild fun c hc => by simp [hc.1, hc.2]
  | probeFailure ch n =>
    refine hkept (Prog.Issues.bind recordProbeFailure_mild fun _ _ => ?_) fun c hc => by
      simp [hc.1, hc.2]
    exact trivial

theorem runCalls_recovered (calls : List Call) : Prog.Triple sem tick
    (Recovered settings channel lo minutes) (runCalls settings calls) fun _ s => ∃ minutes',
      Recovered settings channel lo minutes' s ∧
        minutes'.length = minutes.length + outcomes channel calls := by
  unfold runCalls
  induction calls generalizing minutes with
  | nil =>
    intro s t a s' t' hs hr
    exact ⟨minutes, hs.stable hr.2.2, rfl⟩
  | cons call calls ih =>
    rw [List.forM_cons]
    refine Prog.Triple.bind tick_refl (call_recovered call) fun _ => ?_
    intro s t a s' t' ⟨minutes', hs, hlen⟩ hr
    obtain ⟨minutes'', hs', hlen'⟩ := ih hs hr
    refine ⟨minutes'', hs', ?_⟩
    rw [hlen', hlen, outcomes, outcomes, List.countP_cons]
    omega

theorem runCalls_sound (calls : List Call) :
    Prog.Triple sem tick Sound (runCalls settings calls) fun _ => Sound := by
  unfold runCalls
  induction calls with
  | nil => exact Prog.Triple.ret (Q := fun _ => Sound) Sound.stable
  | cons call calls ih =>
    rw [List.forM_cons]
    exact Prog.Triple.bind tick_refl (call_sound settings call) fun _ => ih

/-! ## A clean start -/

/-- A recovered channel is judged by what is recorded since: its rate is empty until an outcome is
recorded, and it is degraded only after enough of them. -/
def CleanStart (settings : Settings) (channel : ChannelId) (s : Store) : Prop :=
  (∀ later rate s' t', outcomes channel later = 0 →
    (runCalls settings later >>= fun _ => getErrorRate channel settings.windowSeconds).Runs sem tick
      s [] rate s' t' → rate = ⟨0, 0, 0⟩) ∧
  ∀ later s' t', (runCalls settings later).Runs sem tick s [] () s' t' → channel ∈ s'.degraded →
    settings.minRequests ≤ outcomes channel later

/-- A count in a bucket that is in the window at `now`, but not among the ten that are deleted at
`cleared`. -/
def Leftover (settings : Settings) (channel : ChannelId) (s : Store) (now cleared : Nat) : Prop :=
  ∃ k b, minute now - settings.windowSeconds / 60 ≤ k ∧ k ≤ minute cleared - 10 ∧
    s.buckets.get now (channel, k) = some b ∧ ¬ Uncounted b

theorem Recovered.cleanStart (h : Recovered settings channel lo [] s) :
    CleanStart settings channel s := by
  refine ⟨fun later rate s' t' hnone hrun => ?_, fun later s' t' hrun hmem => ?_⟩
  · obtain ⟨_, s₁, t₁, hlater, hread⟩ := Prog.Runs.of_bind tick_refl hrun
    obtain ⟨minutes', hs, hlen⟩ := runCalls_recovered later h hlater
    have hnil : minutes' = [] := List.eq_nil_of_length_eq_zero (by rw [hlen, hnone]; rfl)
    exact (getErrorRate_reads hs hread).2.2 hnil
  · obtain ⟨minutes', hs, hlen⟩ := runCalls_recovered later h hrun
    have hmin := hs.degraded hmem
    rw [hlen] at hmin
    simpa using hmin

theorem readBuckets_eval {l : List Int} {sums : Int × Int} :
    (l.foldlM (readBucket channel) sums).eval (Cmd.run Cmd.anyAnswer) s =
      ((sums.1 + (l.map fun k => (s.hget channel k "total").getD 0).sum,
        sums.2 + (l.map fun k => (s.hget channel k "error").getD 0).sum), s) := by
  induction l generalizing sums with
  | nil => simp [Prog.eval]
  | cons k l ih =>
    have hread : (readBucket channel sums k).eval (Cmd.run Cmd.anyAnswer) s =
        ((sums.1 + (s.hget channel k "total").getD 0, sums.2 + (s.hget channel k "error").getD 0), s) :=
      rfl
    rw [List.foldlM_cons, Prog.eval_bind, hread, ih]
    simp only [List.map_cons, List.sum_cons, add_assoc]

theorem Sound.hget_nonneg (h : Sound s) {f : String} : 0 ≤ (s.hget channel k f).getD 0 := by
  unfold Store.hget
  cases hb : s.buckets.get s.now (channel, k) with
  | none => exact Int.le_refl _
  | some b =>
    cases hf : b f with
    | none => simp [hf]
    | some n =>
      have hpos := h.positive _ b f n hb hf
      simp only [Option.bind_some, hf, Option.getD_some]
      omega

/-- A count in the window shows. -/
theorem Sound.not_cleanStart {b : Bucket} (h : Sound s)
    (hlo : minute s.now - settings.windowSeconds / 60 ≤ k)
    (hget : s.buckets.get s.now (channel, k) = some b) (hb : ¬ Uncounted b) :
    ¬ CleanStart settings channel s := by
  intro hclean
  have hmem : k ∈ windowBuckets settings.windowSeconds s.now := by
    have hpast : k ≤ minute s.now := h.past _ b hget
    exact mem_bucketsFrom.2 ⟨by omega, hpast⟩
  obtain ⟨t', hrun⟩ := Prog.runs_eval tick_refl (sem_run Cmd.anyAnswer)
    (getErrorRate channel settings.windowSeconds) s []
  have hrate := hclean.1 [] _ _ _ rfl hrun
  rw [getErrorRate_eq, Prog.eval_bind, Prog.eval_bind] at hrate
  simp only [Prog.eval_cmd, Cmd.run, readBuckets_eval, zero_add, Prog.pure_eq, Prog.eval,
    ErrorRate.ofCounts, ErrorRate.mk.injEq] at hrate
  have hzero {f : String}
      (hsum : ((windowBuckets settings.windowSeconds s.now).map fun k =>
        (s.hget channel k f).getD 0).sum = 0) : b f = none := by
    have hle := List.single_le_sum (fun n hn => by
      obtain ⟨k', -, rfl⟩ := List.mem_map.1 hn
      exact h.hget_nonneg) _ (List.mem_map_of_mem (f := fun k => (s.hget channel k f).getD 0) hmem)
    rw [hsum] at hle
    cases hf : b f with
    | none => rfl
    | some n =>
      have hpos := h.positive _ b f n hget hf
      simp only [Store.hget, hget, Option.bind_some, hf, Option.getD_some] at hle
      omega
  exact hb ⟨hzero hrate.1, hzero hrate.2.1⟩

/-- What a recovery leaves of the buckets, and when it has read the clock. -/
theorem recordProbeSuccess_runs {s₁ : Store} {t t₁ : Trace Cmd Cmd.Resp}
    (h : (recordProbeSuccess channel).Runs sem tick s t () s₁ t₁) : ∃ cleared : Nat,
      ⟨Cmd.time, cleared⟩ ∈ t₁ ∧ s.now ≤ cleared ∧ cleared ≤ s₁.now ∧ channel ∉ s₁.degraded ∧
      s₁.buckets = (bucketsFrom (minute cleared) 10).foldl
        (fun t m => t.del (channel, m)) s.buckets := by
  obtain ⟨_, _, _, ⟨d₁, rfl⟩, ⟨-, rfl⟩, _, _, _, ⟨d₂, rfl⟩, ⟨-, rfl⟩, _, cleared, _, ⟨d₃, rfl⟩, ⟨hτ, rfl⟩,
    _, _, _, ⟨d₄, rfl⟩, ⟨-, rfl⟩, _, _, _, ⟨d₅, rfl⟩, ⟨-, rfl⟩, -, rfl, ⟨d₆, rfl⟩⟩ := h
  have hcleared : cleared = s.now + d₁ + d₂ + d₃ := hτ
  subst hcleared
  refine ⟨_, by simp, ?_, ?_, ?_, rfl⟩
  · omega
  · simp only [Cmd.run, Store.setState]
    omega
  · simp [Cmd.run, Store.setState]

/-- A window of less than ten minutes has no bucket that the recovery leaves. -/
theorem not_leftover {now cleared : Nat} (hwindow : settings.windowSeconds < 600)
    (hcleared : cleared ≤ now) : ¬ Leftover settings channel s now cleared := by
  rintro ⟨k, b, hlo, hhi, -⟩
  have hmono := minute_mono hcleared
  omega

variable {start : Nat} {history : List Call} {s₁ : Store} {t t₁ : Trace Cmd Cmd.Resp}

variable (settings) in
theorem Sound.recovery (hs : Sound s)
    (hrecovery : (recordProbeSuccess channel).Runs sem tick s [] () s₁ t₁) :
    ∃ cleared : Nat, ⟨Cmd.time, cleared⟩ ∈ t₁ ∧ cleared ≤ s₁.now ∧
      (CleanStart settings channel s₁ ↔ ¬ Leftover settings channel s s₁.now cleared) := by
  have hs₁ : Sound s₁ := call_sound settings (.probeSuccess channel) hs hrecovery
  obtain ⟨cleared, htime, hbefore, hafter, hdegraded, hbuckets⟩ := recordProbeSuccess_runs hrecovery
  have hkey (k : Int) := foldl_del channel s.buckets (bucketsFrom (minute cleared) 10) (channel, k)
  simp only [← hbuckets, true_and, mem_bucketsFrom] at hkey
  refine ⟨cleared, htime, hafter, ?_, fun hclean => ?_⟩
  · rintro hclean ⟨k, b, hlo, hhi, hget, hb⟩
    refine hs₁.not_cleanStart hlo ?_ hb hclean
    rw [Table.get_congr ((hkey k).trans (if_neg (by omega)))]
    exact hget
  · have hleft {k : Int} {b : Bucket} (hlo : minute s₁.now - settings.windowSeconds / 60 ≤ k)
        (hget : s₁.buckets.get s₁.now (channel, k) = some b) : Uncounted b := by
      by_contra hb
      have hcases := hkey k
      split at hcases
      · rw [Table.get_of_none hcases] at hget
        cases hget
      · next hk =>
        rw [Table.get_congr hcases] at hget
        have hpast : k ≤ minute s.now := hs.past _ b (Table.get_anti hget (hbefore.trans hafter))
        have hmono := minute_mono hbefore
        exact hclean ⟨k, b, hlo, by omega, hget, hb⟩
    have hrecovered : Recovered settings channel (minute s₁.now - settings.windowSeconds / 60) [] s₁ :=
      { total := fun k b hk hget => by simp [(hleft hk hget).1]
        untouched := fun k b hk hget _ => hleft hk hget
        degraded := fun hmem => absurd hmem hdegraded
        since := Int.le_refl _ }
    exact hrecovered.cleanStart

/-- A recovered channel starts from a clean window if and only if the window holds no count that is
older than the deleted buckets. -/
theorem cleanStart_iff
    (hhistory : (runCalls settings history).Runs sem tick (Store.empty start) [] () s t)
    (hrecovery : (recordProbeSuccess channel).Runs sem tick s [] () s₁ t₁) :
    ∃ cleared : Nat, ⟨Cmd.time, cleared⟩ ∈ t₁ ∧ cleared ≤ s₁.now ∧
      (CleanStart settings channel s₁ ↔ ¬ Leftover settings channel s s₁.now cleared) :=
  (runCalls_sound history sound_empty hhistory).recovery settings hrecovery

/-- With a window of less than ten minutes every recovery is clean. -/
theorem cleanStart_of_short (hwindow : settings.windowSeconds < 600)
    (hhistory : (runCalls settings history).Runs sem tick (Store.empty start) [] () s t)
    (hrecovery : (recordProbeSuccess channel).Runs sem tick s [] () s₁ t₁) :
    CleanStart settings channel s₁ := by
  obtain ⟨cleared, -, hcleared, hiff⟩ :=
    (runCalls_sound history sound_empty hhistory).recovery settings hrecovery
  exact hiff.2 (not_leftover hwindow hcleared)

/-! ## A window of ten minutes -/

def Store.later (s : Store) (d : Nat) : Store := { s with now := s.now + d }

/-- A run without delay. -/
def quiet {α : Type} (p : Redis α) (s : Store) : α × Store := p.eval (Cmd.run Cmd.anyAnswer) s

theorem quiet_runs {α : Type} (p : Redis α) (s : Store) (d : Nat) :
    ∃ t, p.Runs sem tick s [] (quiet p (s.later d)).1 (quiet p (s.later d)).2 t := by
  obtain ⟨t, hrun⟩ := Prog.runs_eval tick_refl (sem_run Cmd.anyAnswer) p (s.later d) []
  refine ⟨t, hrun.of_env (fun {a b c} hab hbc => ?_) ⟨d, rfl⟩⟩
  obtain ⟨⟨d₁, rfl⟩, ⟨d₂, rfl⟩⟩ := And.intro hab hbc
  exact ⟨d₁ + d₂, by simp [Nat.add_assoc]⟩

def tenMinutes : Settings := { windowSeconds := 600 }

/-- A request of channel 7 has timed out. -/
def timedOut : Store :=
  (quiet (runCalls tenMinutes [.outcome 7 false (some .timeout)]) ((Store.empty 0).later 0)).2

/-- Ten minutes later the channel recovers. -/
def recovered : Store := (quiet (recordProbeSuccess 7) (timedOut.later 600000)).2

/-- The outcome of ten minutes ago is still in the window. -/
theorem stale_window : ∃ t t₁ s₂ t₂,
    (runCalls tenMinutes [.outcome 7 false (some .timeout)]).Runs sem tick (Store.empty 0) [] ()
      timedOut t ∧
    (recordProbeSuccess 7).Runs sem tick timedOut [] () recovered t₁ ∧
    (getErrorRate 7 tenMinutes.windowSeconds).Runs sem tick recovered [] ⟨1, 1, 1⟩ s₂ t₂ := by
  obtain ⟨t, h⟩ := quiet_runs (runCalls tenMinutes [.outcome 7 false (some .timeout)])
    (Store.empty 0) 0
  obtain ⟨t₁, h₁⟩ := quiet_runs (recordProbeSuccess 7) timedOut 600000
  obtain ⟨t₂, h₂⟩ := quiet_runs (getErrorRate 7 tenMinutes.windowSeconds) recovered 0
  have hrate : (quiet (getErrorRate 7 tenMinutes.windowSeconds) (recovered.later 0)).1 =
      ⟨1, 1, 1⟩ := by decide +kernel
  rw [hrate] at h₂
  exact ⟨t, t₁, _, t₂, h, h₁, h₂⟩

/-- The recovery after five minutes is clean. -/
theorem cleanStart_iff_fiveMinutes :
    CleanStart tenMinutes 7 (quiet (recordProbeSuccess 7) (timedOut.later 300000)).2 := by
  obtain ⟨t, h⟩ := quiet_runs (runCalls tenMinutes [.outcome 7 false (some .timeout)])
    (Store.empty 0) 0
  obtain ⟨t₁, h₁⟩ := quiet_runs (recordProbeSuccess 7) timedOut 300000
  obtain ⟨cleared, -, hcleared, hiff⟩ := cleanStart_iff h h₁
  refine hiff.2 ?_
  rintro ⟨k, b, hlo, hhi, hget, -⟩
  have hnow : minute (quiet (recordProbeSuccess 7) (timedOut.later 300000)).2.now = 5 := rfl
  have hmono := minute_mono hcleared
  have hwindow : tenMinutes.windowSeconds = 600 := rfl
  have hk : k = -5 := by omega
  subst hk
  cases hget

end ChannelHealth
