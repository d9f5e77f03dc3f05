import Mathlib.Data.String.Basic

/-! Lists of words in one text, with a character between them.

A list of words is written with `String.intercalate` and read with `String.splitOn`; the empty
words that reading gives are nobody's, so `read` drops them. Words that are not empty and do not
contain the character are read as they were written (`read_write`), and what is read of any text
are such words (`read_plain`). -/
namespace Separated

/-- The text of a list of words. -/
def write (c : Char) (words : List String) : String := String.intercalate (String.singleton c) words

/-- The words of a text. -/
def read (c : Char) (text : String) : List String := (text.splitOn (String.singleton c)).filter (· ≠ "")

/-- A word that stays one. -/
def Plain (c : Char) (word : String) : Prop := word ≠ "" ∧ c ∉ word.toList

instance (c : Char) (word : String) : Decidable (Plain c word) := inferInstanceAs (Decidable (_ ∧ _))

section Split
open String

variable (c : Char)

theorem singleton_get : (0 : Pos.Raw).get (singleton c) = c := by
  have h := get_of_valid [] [c]
  simpa using h

theorem singleton_next : (0 : Pos.Raw).next (singleton c) = ⟨c.utf8Size⟩ := by
  have h := next_of_valid [] c []
  simpa using h

theorem singleton_atEnd : (⟨c.utf8Size⟩ : Pos.Raw).atEnd (singleton c) = true := by
  have h := atEnd_of_valid [c] []
  simpa using h

/-- Splitting at a character, from where it stands in the text: `l` is behind, `m` is the word
that has been begun, `r` is ahead. -/
theorem splitOnAux_char (l m r : List Char) (done : List String) :
    splitOnAux (ofList (l ++ m ++ r)) (singleton c) ⟨utf8Len l⟩ ⟨utf8Len l + utf8Len m⟩ 0 done =
      done.reverse ++ (r.splitOnPPrepend (· == c) m.reverse).map ofList := by
  induction r generalizing l m done with
  | nil =>
    have hend : (⟨utf8Len l + utf8Len m⟩ : Pos.Raw).atEnd (ofList (l ++ m ++ [])) = true := by
      have h := atEnd_of_valid (l ++ m) []
      simpa using h
    unfold splitOnAux
    rw [if_pos hend]
    simp only [extract_of_valid, List.reverse_cons]
    simp
  | cons x r ih =>
    have hhere : (⟨utf8Len l + utf8Len m⟩ : Pos.Raw) = ⟨utf8Len (l ++ m)⟩ := by rw [utf8Len_append]
    have hmore : ¬(⟨utf8Len l + utf8Len m⟩ : Pos.Raw).atEnd (ofList (l ++ m ++ x :: r)) = true := by
      rw [hhere, atEnd_of_valid]
      exact List.cons_ne_nil x r
    have hget : (⟨utf8Len l + utf8Len m⟩ : Pos.Raw).get (ofList (l ++ m ++ x :: r)) = x := by
      rw [hhere, get_of_valid]
      rfl
    have hnext : (⟨utf8Len l + utf8Len m⟩ : Pos.Raw).next (ofList (l ++ m ++ x :: r)) =
        ⟨utf8Len l + utf8Len m + x.utf8Size⟩ := by
      rw [hhere, next_of_valid, utf8Len_append]
    unfold splitOnAux
    rw [if_neg hmore, hget, singleton_get]
    by_cases hx : x = c
    · -- The word ends here, and the next one begins behind the separator.
      subst hx
      have hback : (⟨utf8Len l + utf8Len m + x.utf8Size⟩ : Pos.Raw).unoffsetBy ⟨x.utf8Size⟩ =
          ⟨utf8Len l + utf8Len m⟩ := by
        simp [Pos.Raw.unoffsetBy]
      have hword := extract_of_valid l m (x :: r)
      have hrest := ih (l ++ m ++ [x]) [] (ofList m :: done)
      simp only [beq_self_eq_true, if_true, hnext, singleton_next, singleton_atEnd, hback, hword]
      simpa [List.splitOnPPrepend_cons_eq_if, Nat.add_assoc] using hrest
    · have hsame : (⟨utf8Len l + utf8Len m⟩ : Pos.Raw).unoffsetBy 0 = ⟨utf8Len l + utf8Len m⟩ := by
        simp [Pos.Raw.unoffsetBy]
      have hrest := ih l (m ++ [x]) done
      rw [if_neg (by simpa using hx), hsame, hnext]
      simpa [List.splitOnPPrepend_cons_eq_if, hx, Nat.add_assoc] using hrest

theorem splitOn_char (s : String) : s.splitOn (singleton c) = (s.toList.splitOn c).map ofList := by
  have hsome : (singleton c == "") = false := by
    rw [beq_eq_false_iff_ne]
    intro h
    simpa using congrArg String.toList h
  have hsplit := splitOnAux_char c [] [] s.toList []
  unfold splitOn
  rw [if_neg (by simp [hsome])]
  simpa [List.splitOn_eq_splitOnP] using hsplit

end Split

variable {c : Char} {words : List String}

/-- Words that stay words are read as they were written. -/
theorem read_write (h : ∀ word ∈ words, Plain c word) : read c (write c words) = words := by
  have hall : words.filter (· ≠ "") = words :=
    List.filter_eq_self.mpr fun word hword => by simpa using (h word hword).1
  unfold read write
  rw [splitOn_char, String.toList_intercalate, String.toList_singleton]
  cases words with
  | nil => simp
  | cons word words =>
    rw [List.splitOn_intercalate c ?_ (by simp)]
    · rw [List.map_map]
      simpa [Function.comp_def] using hall
    · intro l hl
      obtain ⟨w, hw, rfl⟩ := List.mem_map.mp hl
      exact (h w hw).2

@[simp] theorem read_empty (c : Char) : read c "" = [] := by
  have h := read_write (c := c) (List.forall_mem_nil (Plain c))
  exact h

/-- No piece contains what it was split at. -/
theorem not_mem_splitOn {α : Type} [BEq α] [LawfulBEq α] {a : α} {xs piece : List α} (h : piece ∈ xs.splitOn a) :
    a ∉ piece := by
  induction xs generalizing piece with
  | nil =>
    rw [List.splitOn_nil, List.mem_singleton] at h
    simp [h]
  | cons x xs ih =>
    rw [List.splitOn_cons_eq_if_modifyHead] at h
    split at h
    · rcases List.mem_cons.mp h with rfl | h
      · exact List.not_mem_nil
      · exact ih h
    · next hx =>
      obtain ⟨head, tail, hsplit⟩ := List.exists_cons_of_ne_nil (List.splitOn_ne_nil a xs)
      rw [hsplit, List.modifyHead_cons] at h
      rcases List.mem_cons.mp h with rfl | h
      · have hhead : a ∉ head := ih (hsplit ▸ List.mem_cons_self ..)
        have hne : a ≠ x := fun h => hx (by simp [h])
        simp [hne, hhead]
      · exact ih (hsplit ▸ List.mem_cons_of_mem _ h)

/-- Whatever the text, what is read of it are words that stay words. -/
theorem read_plain (c : Char) (text : String) : ∀ word ∈ read c text, Plain c word := by
  intro word hword
  obtain ⟨hmem, hsome⟩ := List.mem_filter.mp hword
  rw [splitOn_char] at hmem
  obtain ⟨piece, hpiece, rfl⟩ := List.mem_map.mp hmem
  exact ⟨by simpa using hsome, by simpa using not_mem_splitOn hpiece⟩

end Separated
