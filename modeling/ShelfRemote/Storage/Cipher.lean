import Mathlib.Data.List.TakeDrop
import ShelfRemote.Auth.Secrets
import ShelfRemote.Qt.ByteArray

/-! How a secret is sealed.

A blob is a version byte, a nonce, a tag and a ciphertext, sealed with AES-256-GCM
under a key derived from the master secret and bound to the context of the secret
(`SecretContext::aad`). The cipher is a parameter and taken as ideal: a triple opens
to exactly what it is the sealing of, and is the sealing of nothing under another
context. Contexts are told apart by their bytes (`aad_inj`). -/
namespace ShelfRemote.Storage
open Qt Auth

/-- Bytes from `RAND_bytes`. -/
structure Drawn (size : Nat) where
  bytes : Bytes
  length : bytes.length = size
  deriving DecidableEq

/-- HKDF-SHA256 and AES-256-GCM. -/
structure Crypto where
  hkdf (salt secret info : Bytes) : Bytes
  /-- The tag and the ciphertext. -/
  encipher (key nonce aad plaintext : Bytes) : Bytes × Bytes
  decipher (key nonce tag ciphertext aad : Bytes) : Option Bytes
  key_length : ∀ salt secret info, (hkdf salt secret info).length = 32
  tag_length : ∀ key nonce aad plaintext, (encipher key nonce aad plaintext).1.length = 16
  /-- A triple opens to what it is the sealing of. -/
  opens : ∀ {key nonce tag ciphertext aad plaintext},
    decipher key nonce tag ciphertext aad = some plaintext ↔ encipher key nonce aad plaintext = (tag, ciphertext)
  /-- No triple is a sealing in two contexts. -/
  binds : ∀ {key nonce aad aad' plaintext plaintext'},
    encipher key nonce aad plaintext = encipher key nonce aad' plaintext' → aad = aad'

def nonceLength : Nat := 12
def tagLength : Nat := 16
def keyLength : Nat := 32

/-- The AAD-bound format. -/
def blobVersion : UInt8 := 2

namespace Crypto
variable (C : Crypto)

/-- Without a master secret there is no key. -/
def deriveKey (master : Bytes) : Bytes :=
  if master = [] then []
  else C.hkdf (utf8 "com.jw6ventures.ShelfRemote" ++ utf8 ".hkdf.v1") master (utf8 "token-encryption")

/-- A blob; empty when there is no nonce or no key. -/
def encrypt (master : Bytes) (nonce : Option (Drawn 12)) (plaintext aad : Bytes) : Bytes :=
  match nonce with
  | none => []
  | some nonce =>
    let key := C.deriveKey master
    if key = [] then []
    else
      let (tag, ciphertext) := C.encipher key nonce.bytes aad plaintext
      blobVersion :: (nonce.bytes ++ tag ++ ciphertext)

/-- What a blob holds; empty when it does not open. -/
def decrypt (master blob aad : Bytes) : Bytes :=
  if blob.length < 1 + nonceLength + tagLength ∨ blob.head? ≠ some blobVersion then []
  else
    let nonce := (blob.drop 1).take nonceLength
    let tag := (blob.drop (1 + nonceLength)).take tagLength
    let ciphertext := blob.drop (1 + nonceLength + tagLength)
    let key := C.deriveKey master
    if key = [] then [] else (C.decipher key nonce tag ciphertext aad).getD []

variable {C} {master aad aad' plaintext : Bytes}

theorem deriveKey_ne_nil (hmaster : master ≠ []) : C.deriveKey master ≠ [] := by
  unfold deriveKey
  rw [if_neg hmaster]
  exact List.ne_nil_of_length_pos (C.key_length .. ▸ by decide)

/-- A blob of `plaintext` sealed under a master secret in a context. -/
structure IsSealing (C : Crypto) (master aad plaintext blob : Bytes) : Prop where
  parts : ∃ nonce tag ciphertext : Bytes, nonce.length = 12 ∧ tag.length = 16 ∧
    blob = blobVersion :: (nonce ++ tag ++ ciphertext) ∧
    C.encipher (C.deriveKey master) nonce aad plaintext = (tag, ciphertext)

theorem IsSealing.ne_nil {blob : Bytes} (h : IsSealing C master aad plaintext blob) : blob ≠ [] := by
  obtain ⟨nonce, tag, ciphertext, -, -, rfl, -⟩ := h.parts
  exact fun he => nomatch he

theorem encrypt_sealing (hmaster : master ≠ []) (nonce : Drawn 12) (plaintext aad : Bytes) :
    IsSealing C master aad plaintext (C.encrypt master (some nonce) plaintext aad) := by
  have hkey := deriveKey_ne_nil (C := C) hmaster
  refine ⟨nonce.bytes, (C.encipher (C.deriveKey master) nonce.bytes aad plaintext).1,
    (C.encipher (C.deriveKey master) nonce.bytes aad plaintext).2, nonce.length, C.tag_length .., ?_, rfl⟩
  simp only [encrypt, if_neg hkey]

/-- The parts of a blob are read back from where they were written. -/
theorem decrypt_parts (hmaster : master ≠ []) {nonce tag ciphertext : Bytes} (hnonce : nonce.length = 12)
    (htag : tag.length = 16) :
    C.decrypt master (blobVersion :: (nonce ++ tag ++ ciphertext)) aad =
      (C.decipher (C.deriveKey master) nonce tag ciphertext aad).getD [] := by
  generalize hbody : nonce ++ tag ++ ciphertext = body
  have hlong : ¬((blobVersion :: body).length < 1 + nonceLength + tagLength ∨
      (blobVersion :: body).head? ≠ some blobVersion) := by
    simp only [← hbody, List.length_cons, List.length_append, List.head?_cons, ne_eq, not_true_eq_false, or_false,
      nonceLength, tagLength]
    omega
  have hnonceRead : body.take nonceLength = nonce := by
    rw [← hbody, List.append_assoc]
    exact List.take_left' hnonce
  have htagRead : (body.drop nonceLength).take tagLength = tag := by
    rw [← hbody, List.append_assoc, List.drop_left' (i := nonceLength) hnonce]
    exact List.take_left' htag
  have hciphertextRead : body.drop (nonceLength + tagLength) = ciphertext := by
    rw [← hbody]
    exact List.drop_left' (by rw [List.length_append, hnonce, htag]; rfl)
  unfold decrypt
  rw [if_neg hlong]
  show (if C.deriveKey master = [] then [] else (C.decipher (C.deriveKey master) (body.take nonceLength)
    ((body.drop nonceLength).take tagLength) (body.drop (nonceLength + tagLength)) aad).getD []) = _
  rw [if_neg (deriveKey_ne_nil hmaster), hnonceRead, htagRead, hciphertextRead]

/-- A sealing opens in its context. -/
theorem IsSealing.decrypt {blob : Bytes} (h : IsSealing C master aad plaintext blob) (hmaster : master ≠ []) :
    C.decrypt master blob aad = plaintext := by
  obtain ⟨nonce, tag, ciphertext, hnonce, htag, rfl, hsealed⟩ := h.parts
  rw [decrypt_parts hmaster hnonce htag, C.opens.mpr hsealed]
  rfl

/-- It opens in no other. -/
theorem IsSealing.decrypt_other {blob : Bytes} (h : IsSealing C master aad plaintext blob) (hmaster : master ≠ [])
    (haad : aad' ≠ aad) : C.decrypt master blob aad' = [] := by
  obtain ⟨nonce, tag, ciphertext, hnonce, htag, rfl, hsealed⟩ := h.parts
  rw [decrypt_parts hmaster hnonce htag]
  cases hopen : C.decipher (C.deriveKey master) nonce tag ciphertext aad' with
  | none => rfl
  | some plaintext' => exact absurd (C.binds ((C.opens.mp hopen).trans hsealed.symm)) haad

/-- What opens was sealed, under the same master secret and in the same context. -/
theorem sealing_of_decrypt {blob : Bytes} (hmaster : master ≠ []) (hplaintext : plaintext ≠ [])
    (h : C.decrypt master blob aad = plaintext) : IsSealing C master aad plaintext blob := by
  by_cases hlong : blob.length < 1 + nonceLength + tagLength ∨ blob.head? ≠ some blobVersion
  · exact absurd (h.symm.trans (if_pos hlong)) hplaintext
  · simp only [not_or, not_lt, not_not] at hlong
    obtain ⟨hlength, hversion⟩ := hlong
    obtain ⟨body, rfl⟩ := List.head?_eq_some_iff.mp hversion
    have hbody : 28 ≤ body.length := by simpa [nonceLength, tagLength] using hlength
    have hnonce : (body.take 12).length = 12 := by
      rw [List.length_take]
      omega
    have htag : ((body.drop 12).take 16).length = 16 := by
      rw [List.length_take, List.length_drop]
      omega
    have hparts : body.take 12 ++ (body.drop 12).take 16 ++ body.drop 28 = body := by
      have hdrop : (body.drop 12).drop 16 = body.drop 28 := List.drop_drop
      rw [List.append_assoc, ← hdrop, List.take_append_drop, List.take_append_drop]
    refine ⟨body.take 12, (body.drop 12).take 16, body.drop 28, hnonce, htag, by rw [hparts], ?_⟩
    rw [← hparts, decrypt_parts hmaster hnonce htag] at h
    cases hopen : C.decipher (C.deriveKey master) (body.take 12) ((body.drop 12).take 16) (body.drop 28) aad with
    | none => rw [hopen] at h; exact absurd h.symm hplaintext
    | some opened =>
      rw [hopen] at h
      exact (show opened = plaintext from h) ▸ C.opens.mp hopen

/-! ### A cipher for examples -/

/-- A byte string after its length in ones, which no other one begins with. -/
def framed (bytes : Bytes) : Bytes := List.replicate bytes.length 1 ++ 0 :: bytes

theorem framed_inj {a a' b b' : Bytes} (h : framed a ++ b = framed a' ++ b') : a = a' ∧ b = b' := by
  have hzero (n : Nat) : (0 : UInt8) ∉ List.replicate n 1 := fun hm => absurd (List.eq_of_mem_replicate hm) (by decide)
  simp only [framed, List.append_assoc, List.cons_append] at h
  obtain ⟨hones, hrest⟩ := front_inj (hzero _) (hzero _) h
  have hlength : a.length = a'.length := by simpa using congrArg List.length hones
  exact List.append_inj hrest hlength

/-- It hides nothing: the ciphertext is the key, the context and the plaintext in the
clear, and the tag is blank. -/
instance : Inhabited Crypto where
  default :=
    { hkdf := fun _ secret _ => secret.takeD 32 0
      encipher := fun key _ aad plaintext => (List.replicate 16 0, framed key ++ (framed aad ++ plaintext))
      decipher := fun key _ tag ciphertext aad =>
        let plaintext := ciphertext.drop (framed key ++ framed aad).length
        if (List.replicate 16 0, framed key ++ (framed aad ++ plaintext)) = (tag, ciphertext) then some plaintext
        else none
      key_length := fun _ secret _ => List.takeD_length 32 secret 0
      tag_length := fun _ _ _ _ => List.length_replicate
      opens := by
        intro key nonce tag ciphertext aad plaintext
        constructor
        · intro h
          dsimp only at h
          split at h
          · next hparts => exact Option.some.inj h ▸ hparts
          · cases h
        · intro h
          obtain ⟨rfl, rfl⟩ := Prod.mk.inj h
          have hread : (framed key ++ (framed aad ++ plaintext)).drop (framed key ++ framed aad).length = plaintext := by
            rw [← List.append_assoc]
            exact List.drop_left
          rw [hread, if_pos rfl]
      binds := fun h => (framed_inj (List.append_cancel_left (Prod.mk.inj h).2)).1 }

end Crypto

/-! ### Contexts -/

/-- `SecretContext::aad`, as bytes. -/
def aad (ctx : SecretContext) : Bytes := utf8 ctx.aad

/-- The fields the callers write themselves: a hash in hex and a literal. -/
def Plain (ctx : SecretContext) : Prop := '\x00' ∉ ctx.serverId.toList ∧ '\x00' ∉ ctx.credType.toList

instance (ctx : SecretContext) : Decidable (Plain ctx) := inferInstanceAs (Decidable (_ ∧ _))

theorem aad_toList (ctx : SecretContext) :
    ctx.aad.toList = ctx.serverId.toList ++ '\x00' :: ((ctx.accountId.toList ++ '\x00' :: ctx.credType.toList) ++
      '\x00' :: (toString ctx.schemaVersion).toList) := by
  simp [SecretContext.aad, String.toList_append]

/-- The server id is read from the front, the version and the type from the back, and
what is left is the account, whatever it contains. -/
theorem aad_inj {ctx ctx' : SecretContext} (h : Plain ctx) (h' : Plain ctx') (haad : aad ctx = aad ctx') :
    ctx = ctx' := by
  have hlist := congrArg String.toList (utf8_injective haad)
  rw [aad_toList, aad_toList] at hlist
  obtain ⟨hserver, hrest⟩ := front_inj h.1 h'.1 hlist
  obtain ⟨hfields, hversion⟩ := back_inj (nul_toString _) (nul_toString _) hrest
  obtain ⟨haccount, htype⟩ := back_inj h.2 h'.2 hfields
  cases ctx
  cases ctx'
  simp only [SecretContext.mk.injEq]
  exact ⟨String.toList_injective hserver, String.toList_injective haccount, String.toList_injective htype,
    toString_int_injective (String.toList_injective hversion)⟩

end ShelfRemote.Storage
