import Mathlib.Data.List.Basic

/-! Byte arrays, and texts written as bytes.

A record written with a separator between its fields reads back from the front when
the first field is free of the separator, and from the back when the last one is
(`front_inj`, `back_inj`). What stands between them may contain it. -/
namespace ShelfRemote.Qt

abbrev Bytes := List UInt8

/-- `QString::toUtf8`. -/
def utf8 (s : String) : Bytes := s.toByteArray.data.toList

theorem utf8_injective : Function.Injective utf8 := by
  intro s t h
  have hdata : s.toByteArray.data = t.toByteArray.data := Array.toList_inj.mp h
  exact String.toByteArray_inj.mp (ByteArray.ext hdata)

/-! ### Hexadecimal digits -/

/-- `QByteArray::toHex`. -/
def toHex (bytes : Bytes) : List Char :=
  bytes.flatMap fun b => [Nat.digitChar (b.toNat / 16), Nat.digitChar (b.toNat % 16)]

theorem digitChar_inj {m n : Nat} (hm : m < 16) (hn : n < 16) (h : Nat.digitChar m = Nat.digitChar n) : m = n := by
  have hall : ∀ m < 16, ∀ n < 16, Nat.digitChar m = Nat.digitChar n → m = n := by decide
  exact hall m hm n hn h

theorem digitChar_alphanum {n : Nat} (hn : n < 16) : (Nat.digitChar n).isAlphanum = true := by
  have hall : ∀ n < 16, (Nat.digitChar n).isAlphanum = true := by decide
  exact hall n hn

/-- A byte is read back from its two digits. -/
theorem toHex_injective : Function.Injective toHex := by
  intro a
  induction a with
  | nil =>
    intro b h
    cases b with
    | nil => rfl
    | cons y b => cases h
  | cons x a ih =>
    intro b h
    cases b with
    | nil => cases h
    | cons y b =>
      obtain ⟨hhigh, hrest⟩ := List.cons.inj h
      obtain ⟨hlow, hrest⟩ := List.cons.inj hrest
      have hx := x.toNat_lt
      have hy := y.toNat_lt
      have hdiv := digitChar_inj (by omega) (by omega) hhigh
      have hmod := digitChar_inj (by omega) (by omega) hlow
      have hxy : x = y := UInt8.toNat_inj.mp (by omega)
      rw [hxy, ih hrest]

theorem toHex_alphanum (bytes : Bytes) : (toHex bytes).all Char.isAlphanum = true := by
  refine List.all_eq_true.mpr fun c hc => ?_
  obtain ⟨b, -, hc⟩ := List.mem_flatMap.mp hc
  have hb := b.toNat_lt
  simp only [List.mem_cons, List.not_mem_nil, or_false] at hc
  rcases hc with rfl | rfl
  · exact digitChar_alphanum (by omega)
  · exact digitChar_alphanum (by omega)

/-! ### Separated fields -/

section Separated
variable {α : Type} {sep : α} {a a' b b' : List α}

theorem front_inj (ha : sep ∉ a) (ha' : sep ∉ a') (h : a ++ sep :: b = a' ++ sep :: b') : a = a' ∧ b = b' := by
  induction a generalizing a' with
  | nil =>
    cases a' with
    | nil => exact ⟨rfl, (List.cons.inj h).2⟩
    | cons x rest => exact absurd ((List.cons.inj h).1 ▸ List.mem_cons_self ..) ha'
  | cons x rest ih =>
    cases a' with
    | nil => exact absurd ((List.cons.inj h).1 ▸ List.mem_cons_self ..) ha
    | cons y rest' =>
      obtain ⟨rfl, htail⟩ := List.cons.inj h
      obtain ⟨rfl, rfl⟩ := ih (fun hm => ha (List.mem_cons_of_mem _ hm)) (fun hm => ha' (List.mem_cons_of_mem _ hm))
        htail
      exact ⟨rfl, rfl⟩

theorem back_inj (hb : sep ∉ b) (hb' : sep ∉ b') (h : a ++ sep :: b = a' ++ sep :: b') : a = a' ∧ b = b' := by
  have hreversed : b.reverse ++ sep :: a.reverse = b'.reverse ++ sep :: a'.reverse := by
    simpa using congrArg List.reverse h
  obtain ⟨htail, hhead⟩ := front_inj (by simpa using hb) (by simpa using hb') hreversed
  exact ⟨List.reverse_injective hhead, List.reverse_injective htail⟩

end Separated

/-! ### Numbers -/

theorem natDigits_inj {m n : Nat} (h : Nat.toDigits 10 m = Nat.toDigits 10 n) : m = n := by
  have hread := congrArg (fun digits => Nat.ofDigitChars 10 digits 0) h
  simpa using hread

theorem toList_toString_nat (n : Nat) : (toString (Int.ofNat n)).toList = Nat.toDigits 10 n := by
  show (Int.repr (Int.ofNat n)).toList = _
  simp [Int.repr]

theorem toList_toString_neg (n : Nat) : (toString (Int.negSucc n)).toList = '-' :: Nat.toDigits 10 (n + 1) := by
  show (Int.repr (Int.negSucc n)).toList = _
  simp [Int.repr]

/-- A number is written in digits, and a minus sign where it is negative. -/
theorem not_mem_toString {c : Char} (hdigit : c.isDigit = false) (hminus : c ≠ '-') (n : Int) :
    c ∉ (toString n).toList := by
  have hdigits (m : Nat) : c ∉ Nat.toDigits 10 m := fun hm =>
    absurd (Nat.isDigit_of_mem_toDigits (by decide) (by decide) hm) (by simp [hdigit])
  cases n with
  | ofNat n =>
    rw [toList_toString_nat n]
    exact hdigits n
  | negSucc n =>
    rw [toList_toString_neg, List.mem_cons, not_or]
    exact ⟨hminus, hdigits (n + 1)⟩

theorem nul_toString (n : Int) : '\x00' ∉ (toString n).toList := not_mem_toString (by decide) (by decide) n

theorem toString_int_injective {m n : Int} (h : toString m = toString n) : m = n := by
  have hminus (m n : Nat) : Nat.toDigits 10 m ≠ '-' :: Nat.toDigits 10 n := fun he =>
    absurd (Nat.isDigit_of_mem_toDigits (b := 10) (n := m) (by decide) (by decide) (he ▸ List.mem_cons_self ..))
      (by decide)
  have hlist := congrArg String.toList h
  cases m with
  | ofNat m =>
    rw [toList_toString_nat m] at hlist
    cases n with
    | ofNat n =>
      rw [toList_toString_nat n] at hlist
      exact congrArg Int.ofNat (natDigits_inj hlist)
    | negSucc n => exact absurd (hlist.trans (toList_toString_neg n)) (hminus m (n + 1))
  | negSucc m =>
    rw [toList_toString_neg] at hlist
    cases n with
    | ofNat n => exact absurd (hlist.trans (toList_toString_nat n)).symm (hminus n (m + 1))
    | negSucc n =>
      rw [toList_toString_neg] at hlist
      have hdigits := natDigits_inj (List.cons.inj hlist).2
      exact congrArg Int.negSucc (Nat.succ.inj hdigits)

end ShelfRemote.Qt
