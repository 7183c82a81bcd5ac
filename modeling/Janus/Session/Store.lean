import Janus.Conc.Prog
import Janus.Redis.Table

/-!
# The session store (`core/session_store.py`)

The session state is pure Redis: a whitelist of access jtis, opaque refresh tokens of which only
the hash is stored, and per-user indexes. `Key` is the family of the string keys, so two keys are
equal exactly when the formatted Redis keys are; the two kinds of set have fields of their own.

* `Cmd`: the Redis commands the store issues, with their answers `Cmd.Resp` and meaning `Cmd.run`.
  `SMEMBERS` answers in any order (`sem`).
* `Record`: a JSON object as the store looks at it: a field is `some` when `isinstance` holds.
* `createSession` … `listAllSessions`: the methods of `SessionStore`, one command at a time.
-/

set_option autoImplicit false

namespace Session

open Conc Redis

abbrev UserId := Int
abbrev Jti := String
abbrev RefreshHash := String

/-- A stored JSON object; `none` where the field is absent or of another type. -/
structure Record where
  userId : Option UserId := none
  accessJti : Option Jti := none
  refreshHash : Option RefreshHash := none
  ip : Option String := none
  userAgent : Option String := none
  loginAt : Option String := none
deriving DecidableEq, Repr

/-- A stored text: a JSON object, or anything else. -/
inductive Raw
  | object (r : Record)
  | junk
deriving DecidableEq, Repr

def parseRecord : Raw → Option Record
  | .object r => some r
  | .junk => none

/-- `sess:access:{jti}`, `sess:refresh:{hash}` and `sess:refresh:used:{hash}`. -/
inductive Key
  | access (jti : Jti)
  | refresh (hash : RefreshHash)
  | used (hash : RefreshHash)
deriving DecidableEq, Repr

/-- A member of `sess:users`, as `int(raw_uid)` sees it. -/
inductive RawUid
  | int (u : UserId)
  | text (s : String)
deriving DecidableEq, Repr

/-! ## Redis -/

/-- The part of Redis that holds sessions; `index u` is `sess:user:{u}`, `users` is
`sess:users` (never given a TTL). -/
structure Store where
  now : Nat
  strings : Table Key Raw
  index : Table UserId (List Jti)
  users : List RawUid

def Store.empty (now : Nat) : Store := ⟨now, Table.empty, Table.empty, []⟩

inductive Cmd
  | get (k : Key)
  | set (k : Key) (v : Raw) (ex : Nat)
  | delete (k : Key)
  | getdel (k : Key)
  | existsKey (k : Key)
  | smembers (u : UserId)
  | sadd (u : UserId) (jti : Jti)
  | srem (u : UserId) (jti : Jti)
  | expire (u : UserId) (ttl : Nat)
  | deleteIndex (u : UserId)
  | existsIndex (u : UserId)
  | smembersUsers
  | saddUsers (m : RawUid)
  | sremUsers (m : RawUid)

@[reducible] def Cmd.Resp : Cmd → Type
  | .get _ | .getdel _ => Option Raw
  | .existsKey _ | .existsIndex _ => Bool
  | .smembers _ => List Jti
  | .smembersUsers => List RawUid
  | _ => Unit

/-- `SREM`: a set that loses its last member is gone. -/
def removeMember (jti : Jti) (members : Option (List Jti)) : Option (List Jti) :=
  match members with
  | none => none
  | some l => if l.erase jti = [] then none else some (l.erase jti)

def Cmd.run : (c : Cmd) → Store → c.Resp × Store
  | .get k, s => (s.strings.get s.now k, s)
  | .set k v ex, s => ((), { s with strings := s.strings.set k v (some (s.now + ex)) })
  | .delete k, s => ((), { s with strings := s.strings.del k })
  | .getdel k, s => (s.strings.get s.now k, { s with strings := s.strings.del k })
  | .existsKey k, s => ((s.strings.get s.now k).isSome, s)
  | .smembers u, s => ((s.index.get s.now u).getD [], s)
  | .sadd u j, s =>
    ((), { s with index := s.index.alter s.now u fun l => some ((l.getD []).insert j) })
  | .srem u j, s => ((), { s with index := s.index.alter s.now u (removeMember j) })
  | .expire u ttl, s => ((), { s with index := s.index.expire s.now u ttl })
  | .deleteIndex u, s => ((), { s with index := s.index.del u })
  | .existsIndex u, s => ((s.index.get s.now u).isSome, s)
  | .smembersUsers, s => (s.users, s)
  | .saddUsers m, s => ((), { s with users := s.users.insert m })
  | .sremUsers m, s => ((), { s with users := s.users.erase m })

/-- A set is answered in any order. -/
def Cmd.Answers : (c : Cmd) → c.Resp → c.Resp → Prop
  | .smembers _, l, l' | .smembersUsers, l, l' => l.Perm l'
  | .get _, r, r' | .getdel _, r, r' | .existsKey _, r, r' | .existsIndex _, r, r' => r = r'
  | _, _, _ => True

/-- The meaning of the commands. -/
def sem : Sem Cmd Cmd.Resp Store := fun c s r s' => c.Answers r (c.run s).1 ∧ s' = (c.run s).2

/-- Time passes; keys whose deadline it reaches disappear from the readers' view. -/
def tick (s s' : Store) : Prop := ∃ d, s' = { s with now := s.now + d }

/-! ## The methods -/

abbrev Redis (α : Type) := Prog Cmd Cmd.Resp α

abbrev redis (c : Cmd) : Redis c.Resp := Prog.cmd c

/-- The arguments of `create_session`, and the clock reading it stores as `login_at`. -/
structure NewSession where
  userId : UserId
  accessJti : Jti
  accessTtl : Nat
  refreshHash : RefreshHash
  refreshTtl : Nat
  ip : Option String := none
  userAgent : Option String := none
  loginAt : String
deriving DecidableEq, Repr

def NewSession.accessRecord (n : NewSession) : Raw :=
  .object
    { userId := some n.userId
      refreshHash := some n.refreshHash
      ip := n.ip
      userAgent := n.userAgent
      loginAt := some n.loginAt }

def NewSession.refreshRecord (n : NewSession) : Raw :=
  .object { userId := some n.userId, accessJti := some n.accessJti }

def createSession (n : NewSession) : Redis Unit := do
  redis (.set (.access n.accessJti) n.accessRecord n.accessTtl)
  redis (.set (.refresh n.refreshHash) n.refreshRecord n.refreshTtl)
  redis (.sadd n.userId n.accessJti)
  redis (.expire n.userId n.refreshTtl)
  redis (.saddUsers (.int n.userId))

def isAccessActive (jti : Jti) : Redis Bool :=
  redis (.existsKey (.access jti))

/-- Drops the user from `sess:users` when the user's index is gone. -/
def pruneUserIndex (u : UserId) : Redis Unit := do
  let remaining ← redis (.existsIndex u)
  if !remaining then
    redis (.sremUsers (.int u))

def revokeAccess (jti : Jti) : Redis Unit := do
  let raw ← redis (.get (.access jti))
  redis (.delete (.access jti))
  match raw.bind parseRecord with
  | none => pure ()
  | some record =>
    match record.userId with
    | some u =>
      redis (.srem u jti)
      pruneUserIndex u
    | none => pure ()
    match record.refreshHash with
    | some h => redis (.delete (.refresh h))
    | none => pure ()

/-- One round of the walk of `revoke_all_sessions` over the user's index. -/
def revokeMember (jti : Jti) : Redis Unit := do
  let raw ← redis (.get (.access jti))
  redis (.delete (.access jti))
  match raw.bind parseRecord with
  | none => pure ()
  | some record =>
    match record.refreshHash with
    | some h => redis (.delete (.refresh h))
    | none => pure ()

def revokeAllSessions (u : UserId) : Redis Unit := do
  let jtis ← redis (.smembers u)
  forM jtis revokeMember
  redis (.deleteIndex u)
  redis (.sremUsers (.int u))

inductive RefreshOutcome
  | ok
  | invalid
  | reuseDetected
deriving DecidableEq, Repr

structure RefreshConsumeResult where
  outcome : RefreshOutcome
  userId : Option UserId := none
  oldAccessJti : Option Jti := none
deriving DecidableEq, Repr

def consumeRefresh (h : RefreshHash) (usedMarkerTtl : Nat) : Redis RefreshConsumeResult := do
  match ← redis (.getdel (.refresh h)) with
  | some raw =>
    match parseRecord raw with
    | none => pure { outcome := .invalid }
    | some record =>
      match record.userId, record.accessJti with
      | some u, some j =>
        redis (.set (.used h) (.object { userId := some u }) usedMarkerTtl)
        pure { outcome := .ok, userId := some u, oldAccessJti := some j }
      | _, _ => pure { outcome := .invalid }
  | none =>
    -- no such refresh: a replay of a rotated one if its marker is still there
    match ← redis (.get (.used h)) with
    | none => pure { outcome := .invalid }
    | some usedRaw =>
      match (parseRecord usedRaw).bind Record.userId with
      | some u =>
        revokeAllSessions u
        pure { outcome := .reuseDetected, userId := some u }
      | none => pure { outcome := .invalid }

/-! ## Listing -/

structure SessionInfo where
  accessJti : Jti
  userId : UserId
  ip : Option String
  userAgent : Option String
  loginAt : String
deriving DecidableEq, Repr

def toSessionInfo (jti : Jti) (u : UserId) (record : Record) : SessionInfo :=
  ⟨jti, u, record.ip, record.userAgent, record.loginAt.getD ""⟩

/-- One round of `list_user_sessions`: an index member whose access record is gone is removed. -/
def listMember (u : UserId) (sessions : List SessionInfo) (jti : Jti) :
    Redis (List SessionInfo) := do
  match ← redis (.get (.access jti)) with
  | none =>
    redis (.srem u jti)
    pure sessions
  | some raw =>
    match parseRecord raw with
    | none => pure sessions
    | some record => pure (sessions ++ [toSessionInfo jti u record])

def listUserSessions (u : UserId) : Redis (List SessionInfo) := do
  let jtis ← redis (.smembers u)
  let sessions ← jtis.foldlM (listMember u) []
  pruneUserIndex u
  pure sessions

/-- One round of `list_all_sessions`. -/
def listUser (sessions : List SessionInfo) (rawUid : RawUid) : Redis (List SessionInfo) := do
  match rawUid with
  | .text s =>
    redis (.sremUsers (.text s))
    pure sessions
  | .int u =>
    let userSessions ← listUserSessions u
    if userSessions = [] then
      redis (.sremUsers (.int u))
      pure sessions
    else
      pure (sessions ++ userSessions)

def listAllSessions : Redis (List SessionInfo) := do
  let userIds ← redis .smembersUsers
  userIds.foldlM listUser []

end Session
