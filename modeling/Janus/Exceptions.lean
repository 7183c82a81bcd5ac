/-!
# Application errors (`exceptions.py`, `enums.ErrorCode`)

The codes are those the modelled functions raise.
-/

set_option autoImplicit false

namespace Janus

inductive ErrorCode
  | authAccountLocked
  | authForbidden
  | authInvalidToken
  | authPasswordTooWeak
  | authRefreshInvalid
  | modelNotGranted
  | modelNotFound
  | modelUnavailable
  | rateLimitExceeded
  | requestInvalid
  | upstreamError
  | upstreamTimeout
  | upstreamRateLimited
deriving DecidableEq, Repr

structure AppError where
  code : ErrorCode
  statusCode : Nat
  params : List (String × String) := []
deriving DecidableEq, Repr

end Janus
