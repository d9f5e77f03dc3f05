import ShelfRemote.Storage.SecureStore

/-! What storing and retrieving do with a row, whatever else happens.

`sealed_in_context` is about one row: what is stored in a context is had back in that
context and in no other, and whatever is had back was sealed in it. -/
namespace ShelfRemote.Storage
open Qt Auth

namespace SecureStore
variable {C : Crypto} {s : SecureStore} {key : String} {plaintext : Bytes} {ctx : SecretContext} {m : Moment}

/-- A master secret that was acquired is kept. -/
theorem masterSecret_cached (h : s.master ≠ []) (m : Moment) : s.masterSecret m = s := if_neg h

/-- With a master secret and a nonce, a row is written. -/
theorem store_writes (C : Crypto) (key : String) (plaintext : Bytes) (ctx : SecretContext)
    (hmaster : (s.masterSecret m).master ≠ []) (hnonce : m.nonce ≠ none) :
    ∃ blob, Crypto.IsSealing C (s.masterSecret m).master (aad ctx) plaintext blob ∧
      s.store C key plaintext ctx m = (s.masterSecret m).write (.secret key blob) := by
  obtain ⟨nonce, hnonce⟩ := Option.ne_none_iff_exists'.mp hnonce
  have hsealing := Crypto.encrypt_sealing (C := C) hmaster nonce plaintext (aad ctx)
  refine ⟨_, hsealing, ?_⟩
  simp only [store, if_neg hmaster, hnonce, if_neg hsealing.ne_nil]

/-- A row is written. -/
def Writes (s : SecureStore) (m : Moment) : Prop := (s.masterSecret m).master ≠ [] ∧ m.nonce ≠ none

instance (s : SecureStore) (m : Moment) : Decidable (s.Writes m) := inferInstanceAs (Decidable (_ ∧ _))

theorem store_idle (h : ¬s.Writes m) : s.store C key plaintext ctx m = s.masterSecret m := by
  by_cases hmaster : (s.masterSecret m).master = []
  · simp only [store, if_pos hmaster]
  · have hnonce : m.nonce = none := by
      by_contra hsome
      exact h ⟨hmaster, hsome⟩
    simp only [store, if_neg hmaster, hnonce, Crypto.encrypt, if_true]

/-- Retrieving changes nothing but the secret in use. -/
theorem retrieve_store (s : SecureStore) (key : String) (ctx : SecretContext) (m : Moment) :
    (s.retrieve C key ctx m).1 = s ∨ (s.retrieve C key ctx m).1 = s.masterSecret m := by
  simp only [retrieve]
  split
  · exact .inl rfl
  · split
    · exact .inr rfl
    · split
      · exact .inr rfl
      · exact .inr rfl

/-- A row opens when it is a sealing in this context. -/
theorem retrieve_ok_iff (hmaster : (s.masterSecret m).master ≠ []) :
    (s.retrieve C key ctx m).2 = (.ok, plaintext) ↔
      plaintext ≠ [] ∧ ∃ blob, s.disk.secrets key = some blob ∧
        Crypto.IsSealing C (s.masterSecret m).master (aad ctx) plaintext blob := by
  cases hrow : s.disk.secrets key with
  | none => simp [retrieve, Disk.getSecret, hrow]
  | some blob =>
    have hget : s.disk.getSecret key = blob := by simp [Disk.getSecret, hrow]
    simp only [retrieve, hget, if_neg hmaster, Option.some.injEq, exists_eq_left']
    constructor
    · intro h
      split at h
      · cases h
      · split at h
        · cases h
        · next hopened =>
          obtain ⟨-, rfl⟩ := Prod.mk.inj h
          exact ⟨hopened, Crypto.sealing_of_decrypt hmaster hopened rfl⟩
    · rintro ⟨hplaintext, hsealing⟩
      have hopened := hsealing.decrypt hmaster
      rw [if_neg hsealing.ne_nil, hopened, if_neg hplaintext]

/-- A sealing in another context does not open. -/
theorem retrieve_other {blob : Bytes} {ctx' : SecretContext} (hmaster : (s.masterSecret m).master ≠ [])
    (hrow : s.disk.secrets key = some blob)
    (hsealing : Crypto.IsSealing C (s.masterSecret m).master (aad ctx) plaintext blob) (haad : aad ctx' ≠ aad ctx) :
    (s.retrieve C key ctx' m).2 = (.undecryptable, []) := by
  have hget : s.disk.getSecret key = blob := by simp [Disk.getSecret, hrow]
  simp only [retrieve, hget, if_neg hsealing.ne_nil, if_neg hmaster, hsealing.decrypt_other hmaster haad, if_true]

/-- Nothing opens without a master secret. -/
theorem master_of_ok (h : (s.retrieve C key ctx m).2 = (.ok, plaintext)) : (s.masterSecret m).master ≠ [] := by
  intro hmaster
  simp only [retrieve, if_pos hmaster] at h
  split at h
  · cases h
  · cases h

/-- **Sealed in a context.** With a master secret, what is stored in a context is
retrieved in that context and cannot be opened in any other; and whatever is retrieved
from a row of any bytes was sealed, as a blob of that layout, in the context it is
retrieved in. -/
theorem sealed_in_context (C : Crypto) (s : SecureStore) (m : Moment) (hmaster : (s.masterSecret m).master ≠ [])
    (hnonce : m.nonce ≠ none) (key : String) (plaintext : Bytes) (hplaintext : plaintext ≠ [])
    (ctx : SecretContext) (hplain : Plain ctx) :
    (∀ m', ((s.store C key plaintext ctx m).retrieve C key ctx m').2 = (.ok, plaintext)) ∧
      (∀ m' ctx', Plain ctx' → ctx' ≠ ctx →
        ((s.store C key plaintext ctx m).retrieve C key ctx' m').2 = (.undecryptable, [])) ∧
      ∀ (other : SecureStore) (m' : Moment) (row opened : Bytes), other.disk.secrets key = some row →
        (other.retrieve C key ctx m').2 = (.ok, opened) →
        Crypto.IsSealing C (other.masterSecret m').master (aad ctx) opened row := by
  obtain ⟨blob, hsealing, hstore⟩ := store_writes C key plaintext ctx hmaster hnonce
  have hkept (m' : Moment) : (s.store C key plaintext ctx m).masterSecret m' = s.store C key plaintext ctx m :=
    masterSecret_cached (by rw [hstore]; exact hmaster) m'
  have hwritten : (s.store C key plaintext ctx m).disk.secrets key = some blob := by
    rw [hstore]
    exact if_pos rfl
  have hsame : (s.store C key plaintext ctx m).master = (s.masterSecret m).master := by
    rw [hstore]
    rfl
  refine ⟨fun m' => ?_, fun m' ctx' hplain' hne => ?_, fun other m' row opened hrow hok => ?_⟩
  · refine (retrieve_ok_iff ?_).mpr ⟨hplaintext, blob, hwritten, ?_⟩
    · rwa [hkept, hsame]
    · rwa [hkept, hsame]
  · have hsealed : Crypto.IsSealing C ((s.store C key plaintext ctx m).masterSecret m').master (aad ctx) plaintext
        blob := by rwa [hkept, hsame]
    exact retrieve_other (by rwa [hkept, hsame]) hwritten hsealed fun he => hne (aad_inj hplain' hplain he)
  · obtain ⟨-, blob', hblob', hsealed⟩ := (retrieve_ok_iff (master_of_ok hok)).mp hok
    rw [hrow] at hblob'
    exact Option.some.inj hblob' ▸ hsealed

/-- A secret on a device with a key, and a nonce. -/
def sampleMaster : Bytes := List.replicate 32 7

def sampleDevice : SecureStore := fresh {provider := "local-v1", keyFile := some sampleMaster}

def sampleMoment : Moment := {nonce := some ⟨List.replicate 12 3, rfl⟩}

def sampleContext : SecretContext := {serverId := "9a0b", accountId := "root\x00", credType := "tokens"}

theorem sealed_in_context_sample :
    (∀ m', ((sampleDevice.store default "9a0b/tokens" [1, 2] sampleContext sampleMoment).retrieve default
        "9a0b/tokens" sampleContext m').2 = (.ok, [1, 2])) ∧
      ((sampleDevice.store default "9a0b/tokens" [1, 2] sampleContext sampleMoment).retrieve default
        "9a0b/tokens" {sampleContext with accountId := "root"} sampleMoment).2 = (.undecryptable, []) := by
  have h := sealed_in_context default sampleDevice sampleMoment (by decide +kernel) (by decide +kernel)
    "9a0b/tokens" [1, 2] (by decide +kernel) sampleContext (by decide +kernel)
  exact ⟨h.1, h.2.1 sampleMoment {sampleContext with accountId := "root"} (by decide +kernel) (by decide +kernel)⟩

end SecureStore

end ShelfRemote.Storage
