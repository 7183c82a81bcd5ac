import Janus.Python.Str

/-!
# Encryption of upstream keys (`core/channel_crypto.py`)

`Fernet` stands for `cryptography.fernet`: which texts are keys, and its ciphertexts. A ciphertext
depends on the time and on random bytes as well (`nonce`).
-/

set_option autoImplicit false

namespace ChannelCrypto

/-- `decrypt` is `none` where `Fernet.decrypt` raises `InvalidToken`. -/
structure Fernet (Nonce : Type) where
  isKey : String → Bool
  encrypt : String → Nonce → String → String
  decrypt : String → String → Option String

/-- What is documented of Fernet: a ciphertext is ASCII text that its key decrypts, and it is
authenticated, so no key decrypts it to anything else. -/
structure Fernet.Lawful {Nonce : Type} (fernet : Fernet Nonce) : Prop where
  ascii : ∀ key nonce plaintext, fernet.isKey key = true →
    ∀ c ∈ (fernet.encrypt key nonce plaintext).toList, c.toNat < 128
  decrypt_encrypt : ∀ key nonce plaintext, fernet.isKey key = true →
    fernet.decrypt key (fernet.encrypt key nonce plaintext) = some plaintext
  authentic : ∀ key key' nonce plaintext other, fernet.isKey key = true →
    fernet.isKey key' = true →
    fernet.decrypt key' (fernet.encrypt key nonce plaintext) = some other → other = plaintext

/-- The first four are `ChannelEncryptionError`s. -/
inductive Error
  | notConfigured
  | empty
  | malformed
  | invalidCiphertext
  | unicodeEncodeError
deriving DecidableEq, Repr

/-- The keys of a `MultiFernet`. -/
structure Keys where
  primary : String
  others : List String
deriving DecidableEq, Repr

def Keys.all (keys : Keys) : List String := keys.primary :: keys.others

section

variable {Nonce : Type} (fernet : Fernet Nonce)

/-- `_cipher`, from the setting `channel_encryption_keys`. -/
def cipher (raw : Option String) : Except Error Keys :=
  match raw with
  | none => .error .notConfigured
  | some raw =>
    match ((Python.split raw ',').map Python.strip).filter (· ≠ "") with
    | [] => .error .empty
    | primary :: others =>
      if (primary :: others).all fernet.isKey then .ok ⟨primary, others⟩ else .error .malformed

def encryptChannelKey (raw : Option String) (nonce : Nonce) (plaintext : String) :
    Except Error String :=
  (cipher fernet raw).map fun keys => fernet.encrypt keys.primary nonce plaintext

/-- `MultiFernet.decrypt` tries its keys in order. -/
def decryptChannelKey (raw : Option String) (ciphertext : String) : Except Error String :=
  match cipher fernet raw with
  | .error e => .error e
  | .ok keys =>
    if ciphertext.toList.all fun c => c.toNat < 128 then
      match keys.all.findSome? fun key => fernet.decrypt key ciphertext with
      | some plaintext => .ok plaintext
      | none => .error .invalidCiphertext
    else .error .unicodeEncodeError

end

/-- `plaintext[-4:]` behind three dots. -/
def keyHint (plaintext : String) : String :=
  "..." ++ if 4 ≤ plaintext.length then String.ofList (plaintext.toList.drop (plaintext.length - 4))
    else plaintext

end ChannelCrypto
