import Janus.Python.Str

/-!
# The address of a client (`core/client_ip.py`)

Every trusted proxy appends the address it was called from to `X-Forwarded-For`; what stands to the
left of these is the client's own text.
-/

set_option autoImplicit false

namespace ClientIp

open Python

structure Settings where
  trustedProxyCount : Int

/-- The host of the peer, and the header lines under their names in lower case. -/
structure Request where
  client : Option String
  headers : List (String × String)

/-- `request.headers.get`: the first line of that name. -/
def Request.header (request : Request) (name : String) : Option String :=
  request.headers.lookup name

/-- The entries of a header that are not blank. -/
def parts (forwarded : String) : List String :=
  ((split forwarded ',').map strip).filter (· ≠ "")

def clientIp (settings : Settings) (request : Request) : Option String :=
  let peer := request.client
  if settings.trustedProxyCount ≤ 0 then peer
  else
    match request.header "x-forwarded-for" with
    | none => peer
    | some forwarded =>
      if forwarded = "" then peer
      else if parts forwarded = [] then peer
      else
        let index := (parts forwarded).length - settings.trustedProxyCount
        if 0 ≤ index then (parts forwarded)[index.toNat]? else (parts forwarded)[0]?

end ClientIp
