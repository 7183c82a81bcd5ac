import Janus.Exceptions
import Janus.Session.Store

/-!
# Sessions in the auth service (`AuthService` in `auth/service.py`)

`refreshSession` is `consume_refresh` followed by `rotate`, the part of `refresh_session` after it.
The signatures and the hash are a parameter (`Crypto`); what a call mints is an argument
(`Minted`), so that a run says which tokens were issued.

* `refreshSession`, `logout`: the two methods.
* `loginSession`: the Redis part of `login_with_password`, after the password was verified.
* `refreshObserved`: `refreshSession` that also returns the outcome `consume_refresh` gave it.
-/

set_option autoImplicit false

namespace Session

open Conc Janus

/-- `hash_refresh_token` (a SHA-256 digest) and `decode_access_token` (`none` on `TokenError`). -/
structure Crypto where
  hashRefreshToken : String → RefreshHash
  decodeAccessToken : String → Option Jti

/-- `platform_access_token_ttl_seconds` and `platform_refresh_token_ttl_seconds`. -/
structure Settings where
  accessTtl : Nat
  refreshTtl : Nat

/-- What `issue_access_token(user_id)` and `issue_refresh_token()` produce in one call, and the
call's clock reading. -/
structure Minted where
  token : UserId → String
  accessJti : Jti
  refreshPlain : String
  loginAt : String

/-- The triple `(access, ttl, refresh)` handed to the client. -/
structure TokenPair where
  access : String
  ttl : Nat
  refresh : String
deriving DecidableEq, Repr

structure Client where
  requestIp : Option String := none
  userAgent : Option String := none

variable (K : Crypto) (cfg : Settings)

def Minted.refreshHash (m : Minted) : RefreshHash := K.hashRefreshToken m.refreshPlain

def Minted.session (m : Minted) (client : Client) (u : UserId) : NewSession where
  userId := u
  accessJti := m.accessJti
  accessTtl := cfg.accessTtl
  refreshHash := m.refreshHash K
  refreshTtl := cfg.refreshTtl
  ip := client.requestIp
  userAgent := client.userAgent
  loginAt := m.loginAt

def Minted.pair (m : Minted) (u : UserId) : TokenPair := ⟨m.token u, cfg.accessTtl, m.refreshPlain⟩

def loginSession (m : Minted) (client : Client) (u : UserId) : Redis TokenPair := do
  createSession (m.session K cfg client u)
  pure (m.pair cfg u)

/-- `refresh_session` after `consume_refresh`. -/
def rotate (m : Minted) (client : Client) (result : RefreshConsumeResult) :
    Redis (Except AppError TokenPair) :=
  match result.outcome, result.userId, result.oldAccessJti with
  | .ok, some u, some oldAccessJti => do
    createSession (m.session K cfg client u)
    revokeAccess oldAccessJti
    pure (.ok (m.pair cfg u))
  | _, _, _ => pure (.error { code := .authRefreshInvalid, statusCode := 401 })

def refreshSession (refreshToken : String) (m : Minted) (client : Client) :
    Redis (Except AppError TokenPair) := do
  let result ← consumeRefresh (K.hashRefreshToken refreshToken) cfg.refreshTtl
  rotate K cfg m client result

def refreshObserved (refreshToken : String) (m : Minted) (client : Client) :
    Redis (RefreshOutcome × Except AppError TokenPair) := do
  let result ← consumeRefresh (K.hashRefreshToken refreshToken) cfg.refreshTtl
  let pair ← rotate K cfg m client result
  pure (result.outcome, pair)

theorem refreshSession_eq (refreshToken : String) (m : Minted) (client : Client) :
    refreshSession K cfg refreshToken m client =
      Prod.snd <$> refreshObserved K cfg refreshToken m client := by
  simp only [refreshSession, refreshObserved, Prog.map_eq, Prog.bind_assoc, Prog.pure_eq,
    Prog.ret_bind, Prog.bind_ret]

def logout (token : String) : Redis (Except AppError Unit) :=
  match K.decodeAccessToken token with
  | none => pure (.error { code := .authInvalidToken, statusCode := 401 })
  | some jti => do
    revokeAccess jti
    pure (.ok ())

end Session
