import Mathlib.Data.List.Basic
import Mathlib.Data.List.DropRight

/-! Bytes written in an alphabet of sixty-four characters.

Three bytes are four groups of six bits, and one or two bytes at the end are two or three of
them. Each group is a character; a text may be filled up to a multiple of four with a sign
outside the alphabet. What is written reads back, filled up or not (`decode_fill`). -/
namespace Base64

/-- Sixty-four characters, and a sign to fill up with. -/
structure Alphabet where
  chars : List Char
  fill : Char
  length : chars.length = 64
  nodup : chars.Nodup
  outside : fill ∉ chars

/-! ### Groups of six bits -/

def sextets : List UInt8 → List (Fin 64)
  | [] => []
  | [a] => [Fin.ofNat 64 (a.toNat / 4), Fin.ofNat 64 (a.toNat % 4 * 16)]
  | [a, b] =>
    [Fin.ofNat 64 (a.toNat / 4), Fin.ofNat 64 (a.toNat % 4 * 16 + b.toNat / 16), Fin.ofNat 64 (b.toNat % 16 * 4)]
  | a :: b :: c :: rest =>
    Fin.ofNat 64 (a.toNat / 4) :: Fin.ofNat 64 (a.toNat % 4 * 16 + b.toNat / 16) ::
      Fin.ofNat 64 (b.toNat % 16 * 4 + c.toNat / 64) :: Fin.ofNat 64 (c.toNat % 64) :: sextets rest

/-- Bits that are left over are dropped, and a single group is no byte. -/
def bytes : List (Fin 64) → Option (List UInt8)
  | [] => some []
  | [_] => none
  | [x, y] => some [UInt8.ofNat (x * 4 + y / 16)]
  | [x, y, z] => some [UInt8.ofNat (x * 4 + y / 16), UInt8.ofNat (y % 16 * 16 + z / 4)]
  | x :: y :: z :: w :: rest =>
    (bytes rest).map fun tail =>
      UInt8.ofNat (x * 4 + y / 16) :: UInt8.ofNat (y % 16 * 16 + z / 4) :: UInt8.ofNat (z % 4 * 64 + w) :: tail

theorem ofNat_eq {n : Nat} {a : UInt8} (h : n = a.toNat) : UInt8.ofNat n = a := by
  rw [h]
  exact UInt8.ofNat_toNat

theorem bytes_sextets (data : List UInt8) : bytes (sextets data) = some data := by
  induction data using sextets.induct with
  | case1 => rfl
  | case2 a =>
    have ha := a.toNat_lt
    have hfirst : a.toNat / 4 % 64 * 4 + a.toNat % 4 * 16 % 64 / 16 = a.toNat := by omega
    simp only [sextets, bytes, Fin.val_ofNat, ofNat_eq hfirst]
  | case3 a b =>
    have ha := a.toNat_lt
    have hb := b.toNat_lt
    have hfirst : a.toNat / 4 % 64 * 4 + (a.toNat % 4 * 16 + b.toNat / 16) % 64 / 16 = a.toNat := by omega
    have hsecond : (a.toNat % 4 * 16 + b.toNat / 16) % 64 % 16 * 16 + b.toNat % 16 * 4 % 64 / 4 = b.toNat := by
      omega
    simp only [sextets, bytes, Fin.val_ofNat, ofNat_eq hfirst, ofNat_eq hsecond]
  | case4 a b c rest ih =>
    have ha := a.toNat_lt
    have hb := b.toNat_lt
    have hc := c.toNat_lt
    have hfirst : a.toNat / 4 % 64 * 4 + (a.toNat % 4 * 16 + b.toNat / 16) % 64 / 16 = a.toNat := by omega
    have hsecond : (a.toNat % 4 * 16 + b.toNat / 16) % 64 % 16 * 16 +
        (b.toNat % 16 * 4 + c.toNat / 64) % 64 / 4 = b.toNat := by
      omega
    have hthird : (b.toNat % 16 * 4 + c.toNat / 64) % 64 % 4 * 64 + c.toNat % 64 % 64 = c.toNat := by omega
    simp only [sextets, bytes, Fin.val_ofNat, ih, ofNat_eq hfirst, ofNat_eq hsecond, ofNat_eq hthird,
      Option.map_some]

theorem sextets_length (data : List UInt8) : (sextets data).length = (4 * data.length + 2) / 3 := by
  induction data using sextets.induct with
  | case1 => rfl
  | case2 => simp [sextets]
  | case3 => simp [sextets]
  | case4 a b c rest ih =>
    simp only [sextets, List.length_cons, ih]
    omega

/-- All bits but the lowest are seldom set at once: not where every byte is below 128, and none
ends in them. -/
theorem sextets_ne {data : List UInt8} (h : ∀ a ∈ data, a.toNat < 128 ∧ a.toNat % 64 ≠ 62) :
    ∀ v ∈ sextets data, v ≠ 62 := by
  have hne {n : Nat} (hn : n % 64 ≠ 62) : Fin.ofNat 64 n ≠ 62 := fun he => hn (congrArg Fin.val he)
  induction data using sextets.induct with
  | case1 => exact fun _ hv => nomatch hv
  | case2 a =>
    simp only [List.forall_mem_cons, List.not_mem_nil, false_implies, implies_true, and_true] at h
    exact List.forall_mem_cons.mpr ⟨hne (by omega), List.forall_mem_cons.mpr ⟨hne (by omega), fun _ hv => nomatch hv⟩⟩
  | case3 a b =>
    simp only [List.forall_mem_cons, List.not_mem_nil, false_implies, implies_true, and_true] at h
    refine List.forall_mem_cons.mpr ⟨hne (by omega), List.forall_mem_cons.mpr ⟨hne (by omega), ?_⟩⟩
    exact List.forall_mem_cons.mpr ⟨hne (by omega), fun _ hv => nomatch hv⟩
  | case4 a b c rest ih =>
    obtain ⟨ha, hb, hc, hrest⟩ := by simpa only [List.forall_mem_cons] using h
    refine List.forall_mem_cons.mpr ⟨hne (by omega), List.forall_mem_cons.mpr ⟨hne (by omega), ?_⟩⟩
    exact List.forall_mem_cons.mpr ⟨hne (by omega), List.forall_mem_cons.mpr ⟨hne (by omega), ih hrest⟩⟩

/-! ### Characters -/

namespace Alphabet
variable (A : Alphabet)

def char (v : Fin 64) : Char := A.chars.get (v.cast A.length.symm)

def value (c : Char) : Option (Fin 64) :=
  if h : c ∈ A.chars then some ⟨A.chars.idxOf c, (List.idxOf_lt_length_of_mem h).trans_eq A.length⟩ else none

def encode (data : List UInt8) : List Char := (sextets data).map A.char

/-- Filled up to a multiple of four. -/
def padded (data : List UInt8) : List Char :=
  A.encode data ++ List.replicate ((3 - data.length % 3) % 3) A.fill

/-- What stands for the bytes, filled up or not. -/
def decode (text : List Char) : Option (List UInt8) :=
  ((text.rdropWhile (· == A.fill)).mapM A.value).bind bytes

theorem char_mem (v : Fin 64) : A.char v ∈ A.chars := List.get_mem _ _

theorem value_char (v : Fin 64) : A.value (A.char v) = some v := by
  unfold value
  rw [dif_pos (A.char_mem v)]
  have hindex : A.chars.idxOf (A.char v) = v := by
    unfold char
    rw [List.get_eq_getElem, A.nodup.idxOf_getElem]
    rfl
  exact congrArg some (Fin.ext hindex)

theorem encode_mem {data : List UInt8} {c : Char} (hc : c ∈ A.encode data) : c ∈ A.chars := by
  obtain ⟨v, -, rfl⟩ := List.mem_map.mp hc
  exact A.char_mem v

theorem encode_length (data : List UInt8) : (A.encode data).length = (4 * data.length + 2) / 3 :=
  (List.length_map A.char).trans (sextets_length data)

theorem values_chars (groups : List (Fin 64)) : (groups.map A.char).mapM A.value = some groups := by
  induction groups with
  | nil => rfl
  | cons v rest ih =>
    rw [List.map_cons, List.mapM_cons, A.value_char, ih]
    rfl

/-- No character is taken for the sign to fill up with. -/
theorem strip_padded (data : List UInt8) (n : Nat) :
    (A.encode data ++ List.replicate n A.fill).rdropWhile (· == A.fill) = A.encode data := by
  induction n with
  | zero =>
    rw [List.replicate_zero, List.append_nil, List.rdropWhile_eq_self_iff]
    intro hne hlast
    refine A.outside ?_
    rw [← eq_of_beq hlast]
    exact A.encode_mem (List.getLast_mem hne)
  | succ n ih =>
    have hfill : (A.fill == A.fill) = true := beq_self_eq_true A.fill
    rw [List.replicate_succ', ← List.append_assoc, List.rdropWhile_concat_pos (· == A.fill) _ _ hfill]
    exact ih

theorem decode_fill (data : List UInt8) (n : Nat) :
    A.decode (A.encode data ++ List.replicate n A.fill) = some data := by
  unfold decode
  rw [strip_padded, encode, values_chars]
  exact bytes_sextets data

theorem decode_encode (data : List UInt8) : A.decode (A.encode data) = some data := by
  have hfilled := A.decode_fill data 0
  rwa [List.replicate_zero, List.append_nil] at hfilled

theorem decode_padded (data : List UInt8) : A.decode (A.padded data) = some data := A.decode_fill data _

end Alphabet

/-! ### The two alphabets -/

def letters : List Char := "ABCDEFGHIJKLMNOPQRSTUVWXYZabcdefghijklmnopqrstuvwxyz0123456789".toList

def standard : Alphabet where
  chars := letters ++ ['+', '/']
  fill := '='
  length := by decide
  nodup := by decide +kernel
  outside := by decide +kernel

/-- For URLs and file names. -/
def url : Alphabet where
  chars := letters ++ ['-', '_']
  fill := '='
  length := by decide
  nodup := by decide +kernel
  outside := by decide +kernel

/-- The sixty-third character stands for no such bits. -/
theorem plus_not_mem {data : List UInt8} (h : ∀ a ∈ data, a.toNat < 128 ∧ a.toNat % 64 ≠ 62) :
    '+' ∉ standard.padded data := by
  have hchar : ∀ v : Fin 64, standard.char v = '+' → v = 62 := by decide +kernel
  unfold Alphabet.padded Alphabet.encode
  intro hmem
  obtain hmem | hmem := List.mem_append.mp hmem
  · obtain ⟨v, hv, he⟩ := List.mem_map.mp hmem
    exact sextets_ne h v hv (hchar v he)
  · exact absurd (List.eq_of_mem_replicate hmem) (by decide)

end Base64
