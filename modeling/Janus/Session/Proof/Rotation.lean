import Janus.Session.Proof.Requests

/-!
# Refresh rotation is linear

Any number of logins, refreshes, logouts and full revocations run at the same time, and any key may
disappear at any time (`fade`). A refresh token is exchanged at most once, and of the tokens that
descend from one token by rotation at most one can still be consumed (`refresh_rotation_linear`).

`Linear` is the invariant: a refresh record that is there was not consumed before, a consumed one
was consumed by one request only, and one that was ever there was there from the start or written
by the one request that minted it.
-/

set_option autoImplicit false

namespace Session

open Conc Redis

/-- Time passes and keys disappear. -/
def fade (s s' : Store) : Prop :=
  s.now ≤ s'.now ∧ (∀ k, s'.strings k = s.strings k ∨ s'.strings k = none) ∧
    (∀ u, s'.index u = s.index u ∨ s'.index u = none) ∧ s'.users = s.users

variable {ι : Type} [DecidableEq ι] (K : Crypto) (cfg : Settings) (requests : ι → Request)

/-- `i` consumed the refresh token `h`. -/
def Consumes (l : Log ι Cmd Cmd.Resp) (i : ι) (h : RefreshHash) : Prop :=
  ∃ raw : Raw, (i, ⟨.getdel (.refresh h), some raw⟩) ∈ l

/-- `i` wrote its new session's access record: it is exchanging the token it presents. -/
def Exchanges (l : Log ι Cmd Cmd.Resp) (i : ι) : Prop :=
  ∃ j v ex, Did (own i l) (.set (.access j) v ex)

/-- Each request mints a token of its own, and none that is there already. -/
structure Fresh (s₀ : Store) : Prop where
  inj : ∀ i j h, (requests i).mint K = some h → (requests j).mint K = some h → i = j
  new : ∀ i h, (requests i).mint K = some h → s₀.strings (.refresh h) = none

/-- The invariant of rotation (module doc). -/
structure Linear (s₀ s : Store) (l : Log ι Cmd Cmd.Resp) : Prop where
  unconsumed : ∀ h i, s.strings (.refresh h) ≠ none → ¬ Consumes l i h
  once : ∀ h i j, Consumes l i h → Consumes l j h → i = j
  origin : ∀ h, (s.strings (.refresh h) ≠ none ∨ ∃ i, Consumes l i h) →
    s₀.strings (.refresh h) ≠ none ∨ ∃ i, (requests i).mint K = some h ∧ Opened (own i l)

variable {K cfg requests}

omit [DecidableEq ι] in
theorem Consumes.cons {l : Log ι Cmd Cmd.Resp} {i j : ι} {h : RefreshHash}
    {e : Event Cmd Cmd.Resp} (hc : Consumes ((j, e) :: l) i h) :
    Consumes l i h ∨ j = i ∧ ∃ raw : Raw, e = ⟨.getdel (.refresh h), some raw⟩ := by
  obtain ⟨raw, hm⟩ := hc
  rcases List.mem_cons.1 hm with he | hm
  · cases he
    exact .inr ⟨rfl, raw, rfl⟩
  · exact .inl ⟨raw, hm⟩

/-- What a request writes under a refresh key is the token it mints, and its first. -/
theorem mint_of_guard {q : Request} {t : Tr} {h : RefreshHash} {v : Raw} {ex : Nat}
    (hg : (q.scope K cfg).guard t (.set (.refresh h) v ex)) :
    q.mint K = some h ∧ ¬ Opened t := by
  obtain ⟨n, hopen, -, he⟩ := hg
  simp only [NewSession.setRefresh, Cmd.set.injEq, Key.refresh.injEq] at he
  cases q with
  | login u m client => exact ⟨by rw [he.1, hopen.1]; rfl, hopen.2⟩
  | refresh token m client =>
    obtain ⟨⟨u, j, -, rfl⟩, hnew⟩ := hopen
    exact ⟨by rw [he.1]; rfl, hnew⟩
  | logout token => exact hopen.elim
  | revokeAllSessions u => exact hopen.elim

theorem Linear.cmd {s₀ s s' : Store} {l : Log ι Cmd Cmd.Resp} {i : ι} {c : Cmd} {r : c.Resp}
    (hfresh : Fresh K requests s₀) (h : Linear K requests s₀ s l)
    (hg : ((requests i).scope K cfg).guard (own i l) c) (hc : sem c s r s') :
    Linear K requests s₀ s' ((i, ⟨c, r⟩) :: l) := by
  have hread (rh : RefreshHash) (raw : Raw)
      (he : (⟨c, r⟩ : Event Cmd Cmd.Resp) = ⟨.getdel (.refresh rh), some raw⟩) :
      s.strings (.refresh rh) ≠ none ∧ s'.strings (.refresh rh) = none := by
    cases he
    have hr : some raw = s.strings.get s.now (.refresh rh) := hc.1
    refine ⟨fun hnone => ?_, ?_⟩
    · rw [Table.get_of_none hnone] at hr
      cases hr
    · rw [hc.2]
      simp [Cmd.run]
  -- a refresh record that the command wrote is new: nobody consumed that token before
  have hwrite (rh : RefreshHash) (hs' : s'.strings (.refresh rh) ≠ none) :
      s.strings (.refresh rh) ≠ none ∨ (∀ j, ¬ Consumes l j rh) ∧
        (requests i).mint K = some rh ∧ Opened (own i ((i, ⟨c, r⟩) :: l)) := by
    obtain ⟨cell, hcell⟩ := Option.ne_none_iff_exists'.1 hs'
    rcases cell_origin hc hcell with ho | ⟨v, ex, rfl, -⟩
    · exact .inl (by simp [ho])
    · obtain ⟨hmint, hnew⟩ := mint_of_guard hg
      refine .inr ⟨fun j hj => ?_, hmint, ?_⟩
      · rcases h.origin rh (.inr ⟨j, hj⟩) with hold | ⟨k, hk, hok⟩
        · exact hold (hfresh.new i rh hmint)
        · exact hnew (hfresh.inj k i rh hk hmint ▸ hok)
      · exact ⟨rh, v, ex, r, by simp⟩
  refine ⟨fun rh j hs' hj => ?_, fun rh j k hj hk => ?_, fun rh hex => ?_⟩
  · rcases hj.cons with hj | ⟨rfl, raw, he⟩
    · rcases hwrite rh hs' with hs | ⟨hno, -⟩
      · exact h.unconsumed rh j hs hj
      · exact hno j hj
    · exact hs' (hread rh raw he).2
  · rcases hj.cons with hj | ⟨rfl, raw, he⟩ <;> rcases hk.cons with hk | ⟨rfl, raw', he'⟩
    · exact h.once rh j k hj hk
    · exact absurd hj (h.unconsumed rh j (hread rh raw' he').1)
    · exact absurd hk (h.unconsumed rh k (hread rh raw he).1)
    · rfl
  · have hold : s.strings (.refresh rh) ≠ none ∨ (∃ j, Consumes l j rh) →
        s₀.strings (.refresh rh) ≠ none ∨
          ∃ j, (requests j).mint K = some rh ∧ Opened (own j ((i, ⟨c, r⟩) :: l)) := by
      intro hex
      rcases h.origin rh hex with hold | ⟨j, hj, hoj⟩
      · exact .inl hold
      · exact .inr ⟨j, hj, hoj.cons _⟩
    rcases hex with hs' | ⟨j, hj⟩
    · rcases hwrite rh hs' with hs | ⟨-, hmint, hopen⟩
      · exact hold (.inl hs)
      · exact .inr ⟨i, hmint, hopen⟩
    · rcases hj.cons with hj | ⟨rfl, raw, he⟩
      · exact hold (.inr ⟨j, hj⟩)
      · exact hold (.inl (hread rh raw he).1)

theorem Linear.faded {s₀ s s' : Store} {l : Log ι Cmd Cmd.Resp} (h : Linear K requests s₀ s l)
    (hf : fade s s') : Linear K requests s₀ s' l := by
  have hs (rh : RefreshHash) (hs' : s'.strings (.refresh rh) ≠ none) :
      s.strings (.refresh rh) ≠ none := by
    rcases hf.2.1 (.refresh rh) with he | he
    · exact he ▸ hs'
    · exact absurd he hs'
  exact ⟨fun rh j hs' => h.unconsumed rh j (hs rh hs'), h.once,
    fun rh hex => h.origin rh (hex.imp_left (hs rh))⟩

/-! ## Runs -/

/-- A token minted by `i` is issued in exchange for the one that `i` presents. -/
def Rotates (K : Crypto) (requests : ι → Request) (h h' : RefreshHash) : Prop :=
  ∃ i, (requests i).presents K = some h ∧ (requests i).mint K = some h'

/-- The refresh token is there and was not consumed. -/
def Consumable (s : Store) (h : RefreshHash) : Prop := (s.strings.get s.now (.refresh h)).isSome

/-- `i` answered with a new token pair, or has begun to write its session. -/
def Exchanged (P : Pool ι Cmd Cmd.Resp Reply Store) (i : ι) : Prop :=
  (∃ p, P.thread i = .ret (.ok (some p))) ∨ Exchanges P.log i

abbrev startPool (K : Crypto) (cfg : Settings) (requests : ι → Request) (s₀ : Store) :
    Pool ι Cmd Cmd.Resp Reply Store :=
  Pool.start s₀ fun i => (requests i).prog K cfg

theorem Linear.of_reach {env : Store → Store → Prop} {s₀ : Store}
    {P : Pool ι Cmd Cmd.Resp Reply Store} (hfresh : Fresh K requests s₀)
    (henv : ∀ s s', env s s' → fade s s')
    (h : Pool.Reach sem env (startPool K cfg requests s₀) P) :
    Linear K requests s₀ P.shared P.log := by
  refine h.invariant (J := Linear K requests s₀) (fun i => (requests i).follows) ?_
    (fun _ hJ hg hc => hJ.cmd hfresh hg hc) fun hJ he => hJ.faded (henv _ _ he)
  refine ⟨fun h i _ ⟨_, hm⟩ => ?_, fun h i j ⟨_, hm⟩ => ?_, fun h hex => ?_⟩
  · cases hm
  · cases hm
  · rcases hex with hs | ⟨i, _, hm⟩
    · exact .inl hs
    · cases hm

/-- A refresh request writes only after it consumed the token it presents. -/
theorem consumes_of_write {l : Log ι Cmd Cmd.Resp} {i : ι} {h : RefreshHash}
    (hg : Trace.Guarded ((requests i).scope K cfg).guard (own i l))
    (hi : (requests i).presents K = some h) (hw : Exchanges l i ∨ Opened (own i l)) :
    Consumes l i h := by
  obtain ⟨t, n, hs, hopen⟩ : ∃ t n, t ⊆ own i l ∧ ((requests i).scope K cfg).opens t n := by
    rcases hw with ⟨j, v, ex, r, hm⟩ | ⟨rh, v, ex, r, hm⟩
    · obtain ⟨t, hs, n, hn, -⟩ := hg.of_mem hm
      exact ⟨t, n, hs, hn⟩
    · obtain ⟨t, hs, n, hn, -⟩ := hg.of_mem hm
      exact ⟨t, n, hs, hn⟩
  cases hq : requests i with
  | refresh token m client =>
    rw [hq] at hi hopen
    obtain rfl : K.hashRefreshToken token = h := Option.some.inj hi
    obtain ⟨⟨u, j, ⟨raw, _, hm, _⟩, _⟩, _⟩ := hopen
    exact ⟨raw, mem_own.1 (hs hm)⟩
  | login _ _ _ | logout _ | revokeAllSessions _ =>
    rw [hq] at hi
    cases hi

theorem exchanges_of_exchanged {env : Store → Store → Prop} {s₀ : Store} {i : ι} {h : RefreshHash}
    {P : Pool ι Cmd Cmd.Resp Reply Store}
    (hreach : Pool.Reach sem env (startPool K cfg requests s₀) P)
    (hi : (requests i).presents K = some h) (he : Exchanged P i) : Exchanges P.log i := by
  rcases he with ⟨p, hp⟩ | he
  · cases hq : requests i with
    | refresh token m client =>
      obtain ⟨u, j, -, -, hsub⟩ := hreach.post (fun i => (requests i).follows) hp p token m client
        hq rfl
      exact ⟨_, _, _, (), hsub ((m.session K cfg client u).setAccess_mem_trace [])⟩
    | login _ _ _ | logout _ | revokeAllSessions _ =>
      rw [hq] at hi
      cases hi
  · exact he

/-- Every token on the way from `h₀` to one that was ever there was consumed by the request that
minted the next one. -/
theorem chain_consumed {s₀ s : Store} {l : Log ι Cmd Cmd.Resp} (hfresh : Fresh K requests s₀)
    (hl : Linear K requests s₀ s l)
    (hg : ∀ i, Trace.Guarded ((requests i).scope K cfg).guard (own i l)) {h₀ h : RefreshHash}
    (hchain : Relation.ReflTransGen (Rotates K requests) h₀ h)
    (hex : s.strings (.refresh h) ≠ none ∨ ∃ i, Consumes l i h) :
    Relation.ReflTransGen (fun a b => ∃ i, Consumes l i a ∧ (requests i).mint K = some b) h₀ h := by
  induction hchain with
  | refl => exact .refl
  | tail _ hrot ih =>
    obtain ⟨i, hp, hmint⟩ := hrot
    rcases hl.origin _ hex with hold | ⟨j, hj, hopen⟩
    · exact absurd (hfresh.new i _ hmint) hold
    · obtain rfl := hfresh.inj j i _ hj hmint
      have hc := consumes_of_write (hg j) hp (.inr hopen)
      exact .tail (ih (.inr ⟨j, hc⟩)) ⟨j, hc, hmint⟩

/-- Each refresh token is exchanged at most once, and of the tokens that descend from one token at
most one can still be consumed. -/
theorem refresh_rotation_linear {s₀ : Store} {P : Pool ι Cmd Cmd.Resp Reply Store}
    (hfresh : Fresh K requests s₀)
    (hreach : Pool.Reach sem fade (startPool K cfg requests s₀) P) :
    (∀ h i j, (requests i).presents K = some h → (requests j).presents K = some h →
      Exchanged P i → Exchanged P j → i = j) ∧
    ∀ h₀ h h', Relation.ReflTransGen (Rotates K requests) h₀ h →
      Relation.ReflTransGen (Rotates K requests) h₀ h' →
      Consumable P.shared h → Consumable P.shared h' → h = h' := by
  have hl := Linear.of_reach hfresh (fun _ _ => id) hreach
  have hg := fun i => (hreach.follows (fun i => (requests i).follows) i).1
  refine ⟨fun h i j hi hj hei hej => ?_, fun h₀ h h' hch hch' hc hc' => ?_⟩
  · have hi' := consumes_of_write (hg i) hi (.inl (exchanges_of_exchanged hreach hi hei))
    have hj' := consumes_of_write (hg j) hj (.inl (exchanges_of_exchanged hreach hj hej))
    exact hl.once h i j hi' hj'
  · have hthere (a : RefreshHash) (ha : Consumable P.shared a) :
        P.shared.strings (.refresh a) ≠ none := fun hnone => by
      simp [Consumable, Table.get_of_none hnone] at ha
    have hp := chain_consumed hfresh hl hg hch (.inl (hthere h hc))
    have hp' := chain_consumed hfresh hl hg hch' (.inl (hthere h' hc'))
    -- each consumed token has one successor, and a consumable one has none
    have hunique : Relator.RightUnique fun a b =>
        ∃ i, Consumes P.log i a ∧ (requests i).mint K = some b := by
      rintro a b c ⟨i, hi, hb⟩ ⟨j, hj, hc⟩
      obtain rfl := hl.once a i j hi hj
      exact Option.some.inj (hb.symm.trans hc)
    have hlast (a b : RefreshHash) (ha : Consumable P.shared a) (hab : Relation.ReflTransGen
        (fun a b => ∃ i, Consumes P.log i a ∧ (requests i).mint K = some b) a b) : a = b := by
      rcases hab.cases_head with rfl | ⟨_, ⟨i, hi, _⟩, _⟩
      · rfl
      · exact absurd hi (hl.unconsumed a i (hthere a ha))
    rcases hp.total_of_right_unique hunique hp' with hpp | hpp
    · exact hlast h h' hc hpp
    · exact (hlast h' h hc' hpp).symm

/-- Two requests that present `r0`. -/
def replay (b : Bool) : Request := .refresh "r0" (replayMint b) {}

theorem fresh_replay : Fresh plainCrypto replay loggedIn where
  inj i j h hi hj := by
    revert hi hj
    cases i <;> cases j <;> simp +contextual [replay, Request.mint, replayMint, Minted.refreshHash,
      plainCrypto] <;> rintro rfl <;> decide
  new i h hi := by
    cases i <;> cases hi <;> rfl

/-- The two requests take turns until both are answered: the first gets a pair and the second does
not, and of the two tokens minted for `r0` only the first one's can be consumed. -/
theorem refresh_rotation_linear_replay :
    let P := Pool.play Cmd.run (startPool plainCrypto fortnight replay loggedIn)
      (List.replicate 9 [true, false]).flatten
    P.Done ∧ Exchanged P true ∧ ¬ Exchanged P false ∧
      Consumable P.shared "r1" ∧ ¬ Consumable P.shared "r2" := by
  intro P
  have hreach : Pool.Reach sem fade (startPool plainCrypto fortnight replay loggedIn) P :=
    Pool.reach_play sem_run _ _
  have hlinear := refresh_rotation_linear fresh_replay hreach
  have htrue : Exchanged P true := .inl ⟨⟨"jwt", 900, "r1"⟩, rfl⟩
  have hconsumable : Consumable P.shared "r1" := rfl
  have hr₁ : Rotates plainCrypto replay "r0" "r1" := ⟨true, rfl, rfl⟩
  have hr₂ : Rotates plainCrypto replay "r0" "r2" := ⟨false, rfl, rfl⟩
  refine ⟨fun i => ?_, htrue, fun hfalse => ?_, hconsumable, fun h => ?_⟩
  · cases i <;> exact ⟨_, rfl⟩
  · exact absurd (hlinear.1 "r0" true false rfl rfl htrue hfalse) (by decide)
  · exact absurd (hlinear.2 "r0" "r1" "r2" (.single hr₁) (.single hr₂) hconsumable h) (by decide)

end Session
