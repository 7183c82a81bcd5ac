import Janus.Conc.Pool
import Janus.Session.Proof.Frame

/-!
# Requests that run at the same time

`Request` is a call of the auth service or of the session store; a pool of them shares one Redis.
`Request.scope` is what a request may create, present and name: a refresh request creates its one
new session only after it consumed the token it presents, and creates it once.

* `Request.follows`: every request keeps to the program order of its scope.
* `Granted`: what a refresh request that answered with a token pair has done.
-/

set_option autoImplicit false

namespace Session

open Conc Janus

inductive Request
  | login (u : UserId) (m : Minted) (client : Client)
  | refresh (token : String) (m : Minted) (client : Client)
  | logout (token : String)
  | revokeAllSessions (u : UserId)

/-- The answer: the token pair of a login or a refresh, nothing for the others. -/
abbrev Reply := Except AppError (Option TokenPair)

section

variable (K : Crypto) (cfg : Settings)

def Request.prog : Request → Redis Reply
  | .login u m client => do
    let pair ← loginSession K cfg m client u
    pure (.ok (some pair))
  | .refresh token m client => do
    let reply ← refreshSession K cfg token m client
    pure (reply.map some)
  | .logout token => do
    let reply ← Session.logout K token
    pure (reply.map fun _ => none)
  | .revokeAllSessions u => do
    Session.revokeAllSessions u
    pure (.ok none)

/-- The refresh hash a request would issue. -/
def Request.mint : Request → Option RefreshHash
  | .login _ m _ | .refresh _ m _ => some (m.refreshHash K)
  | _ => none

/-- The refresh hash a request presents. -/
def Request.presents : Request → Option RefreshHash
  | .refresh token _ _ => some (K.hashRefreshToken token)
  | _ => none

def Request.scope : Request → Scope
  | .login u m client => ⟨fun t n => n = m.session K cfg client u ∧ ¬ Opened t,
      fun _ => False, fun _ => False⟩
  | .refresh token m client => ⟨fun t n => (∃ u j, Won t (K.hashRefreshToken token) u j ∧
      n = m.session K cfg client u) ∧ ¬ Opened t, (· = K.hashRefreshToken token), fun _ => False⟩
  | .logout token => ⟨fun _ _ => False, fun _ => False, (K.decodeAccessToken token = some ·)⟩
  | .revokeAllSessions _ => walking

variable {K cfg} {S : Scope} {t : Tr}

theorem Opened.cons {ι : Type} [DecidableEq ι] {l : Log ι Cmd Cmd.Resp} {i : ι}
    (h : Opened (own i l)) (e : ι × Event Cmd Cmd.Resp) : Opened (own i (e :: l)) := by
  obtain ⟨rh, v, ex, r, hm⟩ := h
  exact ⟨rh, v, ex, r, mem_own.2 (List.mem_cons_of_mem _ (mem_own.1 hm))⟩

theorem not_opened_setAccess {n : NewSession} (h : ¬ Opened t) :
    ¬ Opened (⟨.set (.access n.accessJti) n.accessRecord n.accessTtl, ()⟩ :: t) := by
  rintro ⟨rh, v, ex, r, hm⟩
  rcases List.mem_cons.1 hm with he | hm
  · cases he
  · exact h ⟨rh, v, ex, r, hm⟩

/-- A request that presented `h` and answered with the pair `p`: it consumed `h` and wrote the
records of the new session. -/
def Granted (K : Crypto) (cfg : Settings) (h : RefreshHash) (m : Minted) (client : Client) (t : Tr)
    (p : TokenPair) : Prop :=
  ∃ u j, Won t h u j ∧ p = m.pair cfg u ∧ (m.session K cfg client u).trace [] ⊆ t

theorem rotate_follows {m : Minted} {client : Client} {result : RefreshConsumeResult}
    {token : String} {t₀ : Tr} (hc : Consumed (K.hashRefreshToken token) t₀ t result)
    (h₀ : ¬ Opened t₀) :
    (rotate K cfg m client result).Follows ((Request.refresh token m client).scope K cfg).guard
      (fun reply t' => (Closed t₀ → Closed t') ∧ ∀ p, reply = .ok p →
        Granted K cfg (K.hashRefreshToken token) m client t' p) t := by
  unfold rotate
  split
  case h_1 u j ho hu hj =>
    obtain ⟨u', j', hu', hj', hw⟩ := hc.ok ho
    obtain rfl : u = u' := Option.some.inj (hu.symm.trans hu')
    obtain rfl : j = j' := Option.some.inj (hj.symm.trans hj')
    have hopen := hc.kept.unopened h₀
    have hcreate := createSession_follows (S := (Request.refresh token m client).scope K cfg)
      (n := m.session K cfg client u) ⟨⟨u, j, hw, rfl⟩, hopen⟩
      ⟨⟨u, j, hw.mono (List.subset_cons_self _ _), rfl⟩, not_opened_setAccess hopen⟩
    refine .bind hcreate fun _ t₁ ht₁ => ?_
    subst ht₁
    have hsub := (m.session K cfg client u).subset_trace t
    refine .bind (revokeAccess_follows (.inr (.inr ⟨_, u, hw.mono hsub⟩))) fun _ t₂ hk => ?_
    refine ⟨fun hcl => hk.closed _ ((m.session K cfg client u).closed_trace (hc.kept.closed _ hcl)),
      fun p hp => ⟨u, j, hw.mono fun _ he => hk.sub (hsub he), ?_, fun e he => hk.sub ?_⟩⟩
    · exact (Except.ok.inj hp).symm
    · simp only [NewSession.trace, List.mem_cons, List.not_mem_nil, or_false] at he ⊢
      tauto
  case h_2 => exact ⟨hc.kept.closed _, fun p hp => by cases hp⟩

theorem refreshSession_follows {token : String} {m : Minted} {client : Client} (h₀ : ¬ Opened t) :
    (refreshSession K cfg token m client).Follows
      ((Request.refresh token m client).scope K cfg).guard
      (fun reply t' => (Closed t → Closed t') ∧ ∀ p, reply = .ok p →
        Granted K cfg (K.hashRefreshToken token) m client t' p) t :=
  .bind (consumeRefresh_follows cfg.refreshTtl rfl) fun _ _ hc => rotate_follows hc h₀

theorem refreshObserved_follows {token : String} {m : Minted} {client : Client}
    (h₀ : ¬ Opened t) :
    (refreshObserved K cfg token m client).Follows
      ((Request.refresh token m client).scope K cfg).guard
      (fun reply t' => (Closed t → Closed t') ∧ ∀ p, reply.2 = .ok p →
        Granted K cfg (K.hashRefreshToken token) m client t' p) t :=
  .bind (consumeRefresh_follows cfg.refreshTtl rfl) fun _ _ hc =>
    .bind (rotate_follows hc h₀) fun _ _ hg => hg

/-- Every request keeps to the program order of its scope. -/
theorem Request.follows (q : Request) :
    (q.prog K cfg).Follows (q.scope K cfg).guard (fun reply t' => ∀ p token m client,
      q = .refresh token m client → reply = .ok (some p) →
        Granted K cfg (K.hashRefreshToken token) m client t' p) [] := by
  have h₀ : ¬ Opened [] := fun ⟨_, _, _, _, hm⟩ => nomatch hm
  cases q with
  | login u m client =>
    have hcreate := createSession_follows (S := (Request.login u m client).scope K cfg)
      (n := m.session K cfg client u) ⟨rfl, h₀⟩ ⟨rfl, not_opened_setAccess h₀⟩
    have hlogin : (loginSession K cfg m client u).Follows
        ((Request.login u m client).scope K cfg).guard (fun _ _ => True) [] :=
      .bind hcreate fun _ _ _ => trivial
    exact .bind hlogin fun _ _ _ => nofun
  | refresh token m client =>
    refine .bind (refreshSession_follows h₀) fun reply t' ⟨_, hg⟩ => ?_
    rintro p _ _ _ ⟨⟩ hp
    cases reply with
    | error e => cases hp
    | ok p' =>
      cases hp
      exact hg p rfl
  | logout token =>
    simp only [Request.prog, Session.logout]
    cases hd : K.decodeAccessToken token with
    | none => exact nofun
    | some j =>
      have hlogout : (do revokeAccess j; pure (.ok ()) : Redis (Except AppError Unit)).Follows
          ((Request.logout token).scope K cfg).guard (fun _ _ => True) [] :=
        .bind (revokeAccess_follows (.inl hd)) fun _ _ _ => trivial
      exact .bind hlogout fun _ _ _ => nofun
  | revokeAllSessions u => exact .bind (revokeAllSessions_follows u) fun _ _ _ => nofun

end

/-! ## A replay -/

/-- A hash that is the token itself. -/
def plainCrypto : Crypto := ⟨id, some⟩

def fortnight : Settings := ⟨900, 1209600⟩

/-- Redis after user 7 logged in and holds the refresh token `r0`. -/
def loggedIn : Store :=
  ((createSession
    { userId := 7, accessJti := "a0", accessTtl := 900, refreshHash := "r0",
      refreshTtl := 1209600, loginAt := "2026-01-01T00:00:00+00:00" }).eval Cmd.run
    (Store.empty 0)).2

/-- What two requests that present `r0` mint. -/
def replayMint (b : Bool) : Minted where
  token := fun _ => "jwt"
  accessJti := if b then "a1" else "a2"
  refreshPlain := if b then "r1" else "r2"
  loginAt := "2026-01-01T00:10:00+00:00"

end Session
