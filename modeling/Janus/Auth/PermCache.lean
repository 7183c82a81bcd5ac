import Janus.Cache.Versioned
import Janus.Python.Str

/-!
# The permission snapshot cache (`auth/perm_cache.py`, `core/cache.py`)

A user's snapshot is cached under a key that embeds the global and the user's generation. The
database is any type with the two RBAC queries of the loader (`Rbac`); each is one statement, so
each reads the last committed state. Redis does not fail here; an entry may disappear at any time,
which stands for its TTL.

* `getOrLoad`: `core.cache.get_or_load`.
* `loadSnapshot`: `load_snapshot` with the loader `_load_permission_snapshot` of the auth service.
* `mutate`: an admin mutation: commit, then the after-commit hooks `invalidate_user` and
  `invalidate_all`.
-/

set_option autoImplicit false

namespace PermCache

open Conc

abbrev UserId := Int

structure PermissionSnapshot where
  permissions : Finset String
  roleCodes : Finset String
deriving DecidableEq

/-- The cached JSON text: the two lists, or a text `decode` rejects. -/
inductive Cached
  | object (permissions roleCodes : List String)
  | malformed
deriving DecidableEq

def encode (snapshot : PermissionSnapshot) : Cached :=
  .object (Python.sorted snapshot.permissions) (Python.sorted snapshot.roleCodes)

def decode : Cached → Option PermissionSnapshot
  | .object permissions roleCodes => some ⟨permissions.toFinset, roleCodes.toFinset⟩
  | .malformed => none

theorem decode_encode (snapshot : PermissionSnapshot) : decode (encode snapshot) = some snapshot := by
  simp [encode, decode]

/-- `auth:perm:gen:global` and `auth:perm:gen:user:{id}`. -/
inductive GenKey
  | global
  | user (id : UserId)
deriving DecidableEq

/-- `auth:perm:snap:{user_id}:{global_gen}:{user_gen}`. -/
structure SnapshotKey where
  userId : UserId
  globalGen : Nat
  userGen : Nat
deriving DecidableEq

/-- The loader's two statements. -/
inductive Query
  | permissionCodes (u : UserId)
  | activeRoleCodes (u : UserId)
deriving DecidableEq

abbrev Query.Answer (_ : Query) := Finset String

/-- The RBAC queries over a database of type `D`. -/
structure Rbac (D : Type) where
  listPermissionCodes : D → UserId → Finset String
  listActiveRoleCodes : D → UserId → Finset String

def Rbac.answer {D : Type} (rbac : Rbac D) : (q : Query) → D → q.Answer
  | .permissionCodes u, d => rbac.listPermissionCodes d u
  | .activeRoleCodes u, d => rbac.listActiveRoleCodes d u

section

variable {D : Type}

abbrev Cmd (D : Type) := Versioned.Cmd D GenKey SnapshotKey (fun _ => Cached) Query
abbrev Resp : Cmd D → Type := Versioned.Cmd.Resp Query.Answer
abbrev Io (D α : Type) := Prog (Cmd D) Resp α

abbrev issue (c : Cmd D) : Io D (Resp c) := Prog.cmd c

/-! ## `core/cache.py` -/

/-- The miss path of `get_or_load`: load, then write the entry. -/
def loadAndSeed {T : Type} (key : SnapshotKey) (loader : Io D T) (dumps : T → Cached) : Io D T := do
  let value ← loader
  issue (.set key (dumps value))
  pure value

/-- A malformed entry is loaded over. -/
def getOrLoad {T : Type} (key : SnapshotKey) (loader : Io D T) (dumps : T → Cached)
    (loads : Cached → Option T) : Io D T := do
  match ← issue (.get key) with
  | none => loadAndSeed key loader dumps
  | some cached =>
    match loads cached with
    | some value => pure value
    | none => loadAndSeed key loader dumps

/-! ## `auth/perm_cache.py` -/

/-- One `MGET`; a counter that was never incremented reads as 0. -/
def readGenerations (u : UserId) : Io D (Nat × Nat) := do
  let raw ← issue (.gens [.global, .user u])
  pure ((raw .global).getD 0, (raw (.user u)).getD 0)

def loadSnapshot (u : UserId) (loader : Io D PermissionSnapshot) : Io D PermissionSnapshot := do
  let (globalGen, userGen) ← readGenerations u
  getOrLoad ⟨u, globalGen, userGen⟩ loader encode decode

def invalidateUser (u : UserId) : Io D Unit := do
  let _ ← issue (.incr (.user u))

def invalidateAll : Io D Unit := do
  let _ ← issue (.incr .global)

/-! ## Callers -/

/-- `AuthService._load_permission_snapshot`. -/
def loadPermissionSnapshot (u : UserId) : Io D PermissionSnapshot := do
  let permissions ← issue (.query (.permissionCodes u))
  let roleCodes ← issue (.query (.activeRoleCodes u))
  pure ⟨permissions, roleCodes⟩

/-- An after-commit hook of an admin mutation. -/
inductive Hook
  | invalidateUser (u : UserId)
  | invalidateAll

def Hook.prog : Hook → Io D Unit
  | .invalidateUser u => PermCache.invalidateUser u
  | .invalidateAll => PermCache.invalidateAll

/-- A transaction that changes the database by `change`, and its hooks. -/
def mutate (change : D → D) (hooks : List Hook) : Io D Unit := do
  let _ ← issue (.commit change)
  forM hooks Hook.prog

end

end PermCache
