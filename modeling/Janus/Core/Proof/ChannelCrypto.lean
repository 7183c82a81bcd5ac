import Janus.Core.ChannelCrypto

/-!
# Ciphertexts outlive the first key

A ciphertext stays readable as long as its key is in the list (`Readable.mono`), wherever it stands
there (`Readable.decrypt`).
-/

set_option autoImplicit false

namespace ChannelCrypto

section

variable {Nonce : Type} {fernet : Fernet Nonce} {raw raw' : Option String} {keys : Keys}
  {ciphertext plaintext : String} {nonce : Nonce}

theorem isKey_of_cipher (h : cipher fernet raw = .ok keys) {key : String} (hkey : key ∈ keys.all) :
    fernet.isKey key = true := by
  unfold cipher at h
  split at h
  · cases h
  · split at h
    · cases h
    · split at h
      · next hall =>
        cases h
        exact List.all_eq_true.1 hall key hkey
      · cases h

/-- The text is a ciphertext of `plaintext` under one of the keys. -/
def Readable (fernet : Fernet Nonce) (raw : Option String) (ciphertext plaintext : String) : Prop :=
  ∃ keys, cipher fernet raw = .ok keys ∧ ∃ key ∈ keys.all, ∃ nonce,
    ciphertext = fernet.encrypt key nonce plaintext

/-- No key is taken out of the list. -/
def Retains (fernet : Fernet Nonce) (raw raw' : Option String) : Prop :=
  ∀ keys, cipher fernet raw = .ok keys →
    ∃ keys', cipher fernet raw' = .ok keys' ∧ keys.all ⊆ keys'.all

theorem Readable.mono (h : Readable fernet raw ciphertext plaintext)
    (hretains : Retains fernet raw raw') : Readable fernet raw' ciphertext plaintext := by
  obtain ⟨keys, hkeys, key, hkey, hcipher⟩ := h
  obtain ⟨keys', hkeys', hsub⟩ := hretains keys hkeys
  exact ⟨keys', hkeys', key, hsub hkey, hcipher⟩

theorem readable_encrypt (h : encryptChannelKey fernet raw nonce plaintext = .ok ciphertext) :
    Readable fernet raw ciphertext plaintext := by
  unfold encryptChannelKey at h
  cases hkeys : cipher fernet raw with
  | error e =>
    rw [hkeys] at h
    cases h
  | ok keys =>
    rw [hkeys] at h
    cases h
    exact ⟨keys, hkeys, keys.primary, List.mem_cons_self .., nonce, rfl⟩

theorem Readable.decrypt (hlawful : fernet.Lawful) (h : Readable fernet raw ciphertext plaintext) :
    decryptChannelKey fernet raw ciphertext = .ok plaintext := by
  obtain ⟨keys, hkeys, key, hkey, nonce, rfl⟩ := h
  have hvalid := isKey_of_cipher hkeys hkey
  have hascii : (fernet.encrypt key nonce plaintext).toList.all (fun c => c.toNat < 128) = true :=
    List.all_eq_true.2 fun c hc => decide_eq_true (hlawful.ascii key nonce plaintext hvalid c hc)
  unfold decryptChannelKey
  rw [hkeys]
  dsimp only
  rw [if_pos hascii]
  cases hfound : keys.all.findSome? fun key' =>
      fernet.decrypt key' (fernet.encrypt key nonce plaintext) with
  | none =>
    have hno := List.findSome?_eq_none_iff.1 hfound key hkey
    rw [hlawful.decrypt_encrypt key nonce plaintext hvalid] at hno
    cases hno
  | some other =>
    -- no key decrypts it to anything else
    obtain ⟨key', hkey', hdecrypt⟩ := List.exists_of_findSome?_eq_some hfound
    rw [hlawful.authentic key key' nonce plaintext other hvalid (isKey_of_cipher hkeys hkey') hdecrypt]

end

end ChannelCrypto
