import Mathlib.Algebra.Group.Nat.Defs
import ShelfRemote.Lib.Framing
import ShelfRemote.Qt.ByteArray
import ShelfRemote.Qt.Url

/-! Callback URIs on their way to the primary instance.

A later launch writes its URI as a frame: the length in four bytes, then the bytes. The
primary takes what has come out of the socket, whole frames or parts of them, and keeps
what is not a whole frame yet. `callbacks_framed` says that the cuts do not matter. -/
namespace ShelfRemote.App
open Qt Framing

/-- `QString::fromUtf8`, which takes back what `toUtf8` has written. -/
structure Utf8 where
  fromUtf8 : Bytes → String
  fromUtf8_utf8 : ∀ s, fromUtf8 (utf8 s) = s

theorem fromUTF8_utf8 (s : String) : (String.fromUTF8? ⟨(utf8 s).toArray⟩).getD "\uFFFD" = s := by
  have hbytes : (⟨(utf8 s).toArray⟩ : ByteArray) = s.toByteArray := ByteArray.ext (Array.toArray_toList ..)
  rw [hbytes]
  simp [String.fromUTF8?, s.isValidUTF8, String.fromUTF8]

/-- Bytes that are no UTF-8 read as one replacement character. -/
instance : Inhabited Utf8 where
  default := ⟨fun bytes => (String.fromUTF8? ⟨bytes.toArray⟩).getD "\uFFFD", fromUTF8_utf8⟩

namespace Callback

/-- `kMaxFrameBytes`. -/
def maxFrameBytes : Nat := 64 * 1024

/-- `kFrameAccepted`. -/
def frameAccepted : UInt8 := 0x06

/-- `qToBigEndian<quint32>`. -/
def toBigEndian (n : Nat) : Bytes :=
  [UInt8.ofNat (n / 2 ^ 24), UInt8.ofNat (n / 2 ^ 16), UInt8.ofNat (n / 2 ^ 8), UInt8.ofNat n]

/-- `qFromBigEndian<quint32>`. -/
def fromBigEndian : Bytes → Nat
  | a :: b :: c :: d :: _ => a.toNat * 2 ^ 24 + b.toNat * 2 ^ 16 + c.toNat * 2 ^ 8 + d.toNat
  | _ => 0

/-- What `writeFrame` puts on the socket. -/
def frame (uri : String) : Bytes := toBigEndian (utf8 uri).length ++ utf8 uri

/-! ### The primary -/

/-- The head of the buffer. -/
def front (buffer : Bytes) : Front Bytes UInt8 :=
  if buffer.length < 4 then .more
  else
    let len := fromBigEndian buffer
    if len = 0 ∨ maxFrameBytes < len then .bad
    else if buffer.length < 4 + len then .more
    else .item ((buffer.drop 4).take len) (buffer.drop (4 + len))

/-- Bytes that come later are not those of the length. -/
theorem fromBigEndian_append {buffer : Bytes} (h : ¬buffer.length < 4) (later : Bytes) :
    fromBigEndian (buffer ++ later) = fromBigEndian buffer := by
  match buffer, h with
  | [], h | [_], h | [_, _], h | [_, _, _], h => exact absurd (by simp) h
  | _ :: _ :: _ :: _ :: _, _ => rfl

theorem front_shorter (buffer payload rest : Bytes) (h : front buffer = .item payload rest) :
    rest.length < buffer.length := by
  unfold front at h
  split at h
  · cases h
  · dsimp only at h
    split_ifs at h with hbad hpart
    cases h
    rw [List.length_drop]
    omega

theorem front_item_append (buffer payload rest : Bytes) (h : front buffer = .item payload rest)
    (later : Bytes) : front (buffer ++ later) = .item payload (rest ++ later) := by
  unfold front at h
  split at h
  · cases h
  · next hlong =>
    dsimp only at h
    split_ifs at h with hbad hpart
    cases h
    unfold front
    rw [fromBigEndian_append hlong, List.length_append, if_neg (by omega)]
    dsimp only
    rw [if_neg hbad, if_neg (by omega), List.drop_append_of_le_length (by omega),
      List.take_append_of_le_length (by rw [List.length_drop]; omega), List.drop_append_of_le_length (by omega)]

theorem front_bad_append (buffer : Bytes) (h : front buffer = .bad) (later : Bytes) :
    front (buffer ++ later) = .bad := by
  unfold front at h
  split at h
  · cases h
  · next hlong =>
    dsimp only at h
    split_ifs at h with hbad
    unfold front
    rw [fromBigEndian_append hlong, List.length_append, if_neg (by omega)]
    exact if_pos hbad

/-- Frames among the bytes of a connection. -/
def format : Format Bytes UInt8 where
  front := front
  nothing := rfl
  shorter := front_shorter
  item_append := front_item_append
  bad_append := front_bad_append

/-- What has come of a connection. -/
structure Received where
  /-- `uriReceived`, oldest first. -/
  uris : List String := []
  /-- What was written back. -/
  answers : Bytes := []

/-- A payload is announced and acknowledged, if there is anything in it. -/
def receive (u : Utf8) (c : Received) (payload : Bytes) : Received :=
  let uri := trimmed (u.fromUtf8 payload)
  if uri = "" then c else {uris := c.uris ++ [uri], answers := c.answers ++ [frameAccepted]}

/-- A connection with its reassembly buffer. A length that cannot be right aborts it. -/
abbrev Connection := Reader UInt8 Received

def readyRead (u : Utf8) (c : Connection) (chunk : Bytes) : Connection := format.feed (receive u) c chunk

/-- Everything a connection brings, as it comes. -/
def readAll (u : Utf8) (chunks : List Bytes) : Connection := chunks.foldl (readyRead u) {state := {}}

/-! ### Whole frames -/

theorem fromBigEndian_toBigEndian {n : Nat} (h : n < 2 ^ 32) (rest : Bytes) :
    fromBigEndian (toBigEndian n ++ rest) = n := by
  show (UInt8.ofNat (n / 2 ^ 24)).toNat * 2 ^ 24 + (UInt8.ofNat (n / 2 ^ 16)).toNat * 2 ^ 16 +
    (UInt8.ofNat (n / 2 ^ 8)).toNat * 2 ^ 8 + (UInt8.ofNat n).toNat = n
  simp only [UInt8.toNat_ofNat']
  omega

/-- A frame is read as it was written. -/
theorem front_frame {uri : String} (hsome : 1 ≤ (utf8 uri).length) (hfits : (utf8 uri).length ≤ maxFrameBytes)
    (rest : Bytes) : front (frame uri ++ rest) = .item (utf8 uri) rest := by
  have hbound : (utf8 uri).length < 2 ^ 32 := Nat.lt_of_le_of_lt hfits (by decide)
  have hlength : (toBigEndian (utf8 uri).length).length = 4 := rfl
  have hlen := fromBigEndian_toBigEndian hbound (utf8 uri ++ rest)
  unfold front frame
  rw [List.append_assoc, hlen, List.length_append, hlength, if_neg (by omega)]
  dsimp only
  rw [if_neg (by omega), if_neg (by rw [List.length_append]; omega), List.drop_left' hlength, List.take_left,
    ← List.append_assoc, List.drop_left' (by rw [List.length_append, hlength])]

/-- The URIs of the payloads, each acknowledged once. -/
theorem receive_all (u : Utf8) (uris : List String) (c : Received) :
    (uris.map utf8).foldl (receive u) c =
      { uris := c.uris ++ (uris.map trimmed).filter (· ≠ "")
        answers := c.answers ++ List.replicate ((uris.map trimmed).filter (· ≠ "")).length frameAccepted } := by
  induction uris generalizing c with
  | nil => simp
  | cons uri uris ih =>
    rw [List.map_cons, List.foldl_cons, ih]
    unfold receive
    rw [u.fromUtf8_utf8]
    by_cases hnone : trimmed uri = ""
    · simp [hnone]
    · simp [hnone, List.replicate_succ]

/-- **Callbacks arrive whatever the cuts.** URIs of 1 to 65536 bytes that are written as
frames, one after the other, and cut anywhere, are announced once and in order, those that
are not blank, and leave nothing in the buffer; and of any stream whatever, what is
announced before it ends or the connection is aborted does not depend on the cuts. -/
theorem callbacks_framed (u : Utf8) :
    (∀ (uris : List String) (chunks : List Bytes),
      (∀ uri ∈ uris, 1 ≤ (utf8 uri).length ∧ (utf8 uri).length ≤ maxFrameBytes) →
      chunks.flatten = (uris.map frame).flatten →
      (readAll u chunks).state.uris = (uris.map trimmed).filter (· ≠ "") ∧
        (readAll u chunks).broken = false ∧ (readAll u chunks).buffer = []) ∧
    ∀ chunks chunks' : List Bytes, chunks.flatten = chunks'.flatten →
      (readAll u chunks).state.uris = (readAll u chunks').state.uris ∧
        (readAll u chunks).broken = (readAll u chunks').broken := by
  constructor
  · intro uris chunks hsizes hstream
    have hencode : (uris.map frame).flatten =
        ((uris.map utf8).map fun payload => toBigEndian payload.length ++ payload).flatten := by
      rw [List.map_map]
      rfl
    have hitems : ∀ payload ∈ uris.map utf8, ∀ rest,
        format.front ((toBigEndian payload.length ++ payload) ++ rest) = .item payload rest := by
      intro payload hpayload rest
      obtain ⟨uri, huri, rfl⟩ := List.mem_map.mp hpayload
      exact front_frame (hsizes uri huri).1 (hsizes uri huri).2 rest
    have hread := Format.feedAll_items (receive u) hitems {} (hstream.trans hencode)
    have hall : readAll u chunks = {state := (uris.map utf8).foldl (receive u) {}} := hread
    rw [hall, receive_all]
    exact ⟨List.nil_append _, rfl, rfl⟩
  · intro chunks chunks' hsame
    obtain ⟨hbroken, hstate⟩ := Format.feedAll_cut (F := format) (receive u) (r := {state := {}}) rfl rfl hsame
    exact ⟨congrArg Received.uris hstate, hbroken⟩

/-- Two URIs, the first blank, cut within a length. -/
theorem callbacks_framed_cut :
    ((readAll default [[0, 0], [0, 1, 32, 0, 0, 0, 2, 104], [105]]).state.uris = ["hi"] ∧
      (readAll default [[0, 0], [0, 1, 32, 0, 0, 0, 2, 104], [105]]).broken = false ∧
      (readAll default [[0, 0], [0, 1, 32, 0, 0, 0, 2, 104], [105]]).buffer = []) ∧
    (readAll default [[0, 0], [0, 1, 32], [0, 0, 0, 0, 7]]).state.uris =
      (readAll default [[0, 0, 0, 1, 32, 0, 0, 0, 0, 7]]).state.uris := by
  constructor
  · have h := (callbacks_framed default).1 [" ", "hi"] [[0, 0], [0, 1, 32, 0, 0, 0, 2, 104], [105]]
      (by decide +kernel) (by decide +kernel)
    have huris : ([" ", "hi"].map trimmed).filter (· ≠ "") = ["hi"] := by decide +kernel
    exact huris ▸ h
  · exact ((callbacks_framed default).2 _ _ (by decide +kernel)).1

end Callback

end ShelfRemote.App
