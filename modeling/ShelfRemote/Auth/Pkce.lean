import ShelfRemote.Auth.AuthManager
import ShelfRemote.Lib.Base64
import ShelfRemote.Qt.ByteArray

/-! What an attempt to sign in through the browser is known by.

A token is base64url text of random bytes. The generator fills whole words, so a buffer is
made in words, uninitialised, and cut to length afterwards: what was in memory never shows,
and the text reads back as the bytes drawn (`randomToken_decode`). -/
namespace ShelfRemote.Auth
open Qt

namespace Pkce

/-- What one call draws: the bytes of the generator, and what is in the memory it is
given. -/
structure Draw where
  random : Nat → UInt8
  memory : Nat → UInt8

/-- The first bytes drawn. -/
def Draw.bytes (d : Draw) (n : Nat) : Bytes := (List.range n).map d.random

/-- A byte array of `Qt::Uninitialized`. -/
def Draw.uninitialized (d : Draw) (size : Nat) : Bytes := (List.range size).map d.memory

/-- `QRandomGenerator::fillRange`: words of four bytes, from the front of the buffer. -/
def Draw.fillRange (d : Draw) (buf : Bytes) (words : Nat) : Bytes := d.bytes (words * 4) ++ buf.drop (words * 4)

/-- `QByteArray::toBase64`, for URLs and without trailing equals signs. -/
def base64Url (raw : Bytes) : String := String.ofList (Base64.url.encode raw)

def randomToken (d : Draw) (bytes : Int) : String :=
  if bytes ≤ 0 then ""
  else
    let words := ((bytes + 4 - 1) / 4).toNat
    let buf := d.fillRange (d.uninitialized (words * 4)) words
    base64Url (buf.take bytes.toNat)

def challengeFor (sha256 : Bytes → Bytes) (verifier : String) : String := base64Url (sha256 (utf8 verifier))

/-- The state is drawn before the verifier. -/
def generate (sha256 : Bytes → Bytes) (state verifier : Draw) : Pkce :=
  let codeVerifier := randomToken verifier 48
  {state := randomToken state 16, codeVerifier, codeChallenge := challengeFor sha256 codeVerifier}

/-! ### Texts -/

/-- The characters of RFC 3986 that need no escape anywhere in a URL. -/
def Unreserved (c : Char) : Prop := c.isAlphanum = true ∨ c ∈ ['-', '.', '_', '~']

instance (c : Char) : Decidable (Unreserved c) := inferInstanceAs (Decidable (_ ∨ _))

theorem base64Url_decode (raw : Bytes) : Base64.url.decode (base64Url raw).toList = some raw := by
  unfold base64Url
  rw [String.toList_ofList]
  exact Base64.url.decode_encode raw

theorem base64Url_length (raw : Bytes) : (base64Url raw).length = (4 * raw.length + 2) / 3 := by
  unfold base64Url
  rw [String.length_ofList]
  exact Base64.url.encode_length raw

theorem base64Url_unreserved {raw : Bytes} {c : Char} (hc : c ∈ (base64Url raw).toList) : Unreserved c := by
  unfold base64Url at hc
  rw [String.toList_ofList] at hc
  have hall : Base64.url.chars.all (fun c => decide (Unreserved c)) = true := by decide +kernel
  exact of_decide_eq_true (List.all_eq_true.mp hall c (Base64.url.encode_mem hc))

/-! ### Tokens -/

theorem Draw.length_bytes (d : Draw) (n : Nat) : (d.bytes n).length = n := by
  unfold bytes
  rw [List.length_map, List.length_range]

/-- Nothing but what was drawn is in a token. -/
theorem randomToken_eq (d : Draw) {bytes : Int} (h : 0 < bytes) :
    randomToken d bytes = base64Url (d.bytes bytes.toNat) := by
  have hfits : bytes.toNat ≤ ((bytes + 4 - 1) / 4).toNat * 4 := by omega
  unfold randomToken Draw.fillRange
  rw [if_neg (Int.not_le.mpr h)]
  dsimp only
  rw [List.take_append_of_le_length ((d.length_bytes _).symm ▸ hfits)]
  unfold Draw.bytes
  rw [← List.map_take, List.take_range, Nat.min_eq_left hfits]

theorem randomToken_decode (d : Draw) {bytes : Int} (h : 0 < bytes) :
    Base64.url.decode (randomToken d bytes).toList = some (d.bytes bytes.toNat) := by
  rw [randomToken_eq d h]
  exact base64Url_decode _

theorem randomToken_length (d : Draw) {bytes : Int} (h : 0 < bytes) :
    (randomToken d bytes).length = (4 * bytes.toNat + 2) / 3 := by
  rw [randomToken_eq d h, base64Url_length, d.length_bytes]

theorem randomToken_unreserved {d : Draw} {bytes : Int} (h : 0 < bytes) {c : Char}
    (hc : c ∈ (randomToken d bytes).toList) : Unreserved c := by
  rw [randomToken_eq d h] at hc
  exact base64Url_unreserved hc

/-- The record of an attempt: state and verifier keep every byte drawn for them, the
challenge is the hash of the verifier, and all three go into a URL as they are. -/
structure Drawn (sha256 : Bytes → Bytes) (state verifier : Draw) (pkce : Pkce) : Prop where
  state : Base64.url.decode pkce.state.toList = some (state.bytes 16)
  verifier : Base64.url.decode pkce.codeVerifier.toList = some (verifier.bytes 48)
  challenge : Base64.url.decode pkce.codeChallenge.toList = some (sha256 (utf8 pkce.codeVerifier))
  verifierLength : pkce.codeVerifier.length = 64
  challengeLength : pkce.codeChallenge.length = 43
  unreserved : ∀ text ∈ [pkce.state, pkce.codeVerifier, pkce.codeChallenge], ∀ c ∈ text.toList, Unreserved c

theorem generate_drawn {sha256 : Bytes → Bytes} (hsha : ∀ bytes, (sha256 bytes).length = 32)
    (state verifier : Draw) : Drawn sha256 state verifier (generate sha256 state verifier) where
  state := randomToken_decode state (by decide)
  verifier := randomToken_decode verifier (by decide)
  challenge := base64Url_decode _
  verifierLength := randomToken_length verifier (by decide)
  challengeLength := by
    show (base64Url _).length = 43
    rw [base64Url_length, hsha]
  unreserved := by
    intro text htext c hc
    simp only [List.mem_cons, List.not_mem_nil, or_false] at htext
    obtain rfl | rfl | rfl := htext
    · exact randomToken_unreserved (by decide) hc
    · exact randomToken_unreserved (by decide) hc
    · exact base64Url_unreserved hc

end Pkce

end ShelfRemote.Auth
