import Mathlib.Data.List.Basic

/-! Framed streams, read as they arrive.

A format says what a piece of input begins with: an item, the beginning of one, or
nothing that could become one. A reader keeps the input it could not read yet and
hands each item to its state as soon as it is complete.

`Reads` says what becomes of an input read at once. Wherever a stream is cut, a reader
that is fed the pieces comes to the same state (`feedAll_reads`, `feedAll_cut`). -/
namespace Framing

/-- What some input begins with. -/
inductive Front (α β : Type) where
  /-- The beginning of an item, or nothing at all. -/
  | more
  /-- What no item begins with. -/
  | bad
  | item (a : α) (rest : List β)

/-- A format of items. Input that comes later makes no difference to what is there. -/
structure Format (α β : Type) where
  front : List β → Front α β
  nothing : front [] = .more
  shorter : ∀ input a rest, front input = .item a rest → rest.length < input.length
  item_append : ∀ input a rest, front input = .item a rest →
    ∀ later, front (input ++ later) = .item a (rest ++ later)
  bad_append : ∀ input, front input = .bad → ∀ later, front (input ++ later) = .bad

structure Reader (β σ : Type) where
  buffer : List β := []
  /-- The stream broke the format, and is not read any further. -/
  broken : Bool := false
  state : σ

namespace Format
variable {α β σ : Type} (F : Format α β) (take : σ → α → σ)

/-- Reads every item that is complete. -/
def drain : Nat → Reader β σ → Reader β σ
  | 0, r => r
  | fuel + 1, r =>
    match F.front r.buffer with
    | .more => r
    | .bad => {r with broken := true}
    | .item a rest => drain fuel {r with buffer := rest, state := take r.state a}

/-- A piece of the stream has come. -/
def feed (r : Reader β σ) (chunk : List β) : Reader β σ :=
  if r.broken then r
  else
    let r := {r with buffer := r.buffer ++ chunk}
    F.drain take (r.buffer.length + 1) r

def feedAll (r : Reader β σ) (chunks : List (List β)) : Reader β σ := chunks.foldl (F.feed take) r

/-! ### Input read at once -/

/-- Whether the input breaks the format, the state it leads to, and what is left of it. -/
inductive Reads : List β → σ → Bool → σ → List β → Prop where
  | more {input : List β} {s : σ} (h : F.front input = .more) : Reads input s false s input
  | bad {input : List β} {s : σ} (h : F.front input = .bad) : Reads input s true s input
  | item {input rest left : List β} {s s' : σ} {a : α} {broken : Bool} (h : F.front input = .item a rest)
      (hrest : Reads rest (take s a) broken s' left) : Reads input s broken s' left

variable {F take}
variable {input left left' later : List β} {s s' s'' : σ} {broken broken' : Bool}

theorem Reads.unique (h : F.Reads take input s broken s' left) (h' : F.Reads take input s broken' s'' left') :
    broken = broken' ∧ s' = s'' ∧ left = left' := by
  induction h with
  | more hfront => cases h' <;> simp_all
  | bad hfront => cases h' <;> simp_all
  | item hfront _ ih =>
    cases h' with
    | more hother => exact absurd (hfront.symm.trans hother) (by simp)
    | bad hother => exact absurd (hfront.symm.trans hother) (by simp)
    | item hother hrest =>
      obtain ⟨rfl, rfl⟩ := Front.item.inj (hfront.symm.trans hother)
      exact ih hrest

/-- What is left is read together with what comes later. -/
theorem Reads.append (h : F.Reads take input s false s' left)
    (hlater : F.Reads take (left ++ later) s' broken s'' left') :
    F.Reads take (input ++ later) s broken s'' left' := by
  generalize hb : false = b at h
  induction h with
  | more => exact hlater
  | bad => cases hb
  | item hfront _ ih => exact .item (F.item_append _ _ _ hfront later) (ih hlater hb)

theorem Reads.broken_append (h : F.Reads take input s true s' left) (later : List β) :
    F.Reads take (input ++ later) s true s' (left ++ later) := by
  generalize hb : true = b at h
  induction h with
  | more => cases hb
  | bad hfront => exact .bad (F.bad_append _ hfront later)
  | item hfront _ ih => exact .item (F.item_append _ _ _ hfront later) (ih hb)

/-- What is left is the beginning of an item. -/
theorem Reads.waits (h : F.Reads take input s false s' left) : F.front left = .more := by
  generalize hb : false = b at h
  induction h with
  | more hfront => exact hfront
  | bad => cases hb
  | item _ _ ih => exact ih hb

/-- Items written one after the other are read one after the other. -/
theorem reads_items {encode : α → List β} {items : List α}
    (h : ∀ a ∈ items, ∀ rest, F.front (encode a ++ rest) = .item a rest) (s : σ) :
    F.Reads take (items.map encode).flatten s false (items.foldl take s) [] := by
  induction items generalizing s with
  | nil => exact .more F.nothing
  | cons a items ih =>
    obtain ⟨hfirst, hothers⟩ := List.forall_mem_cons.mp h
    exact .item (hfirst _) (ih hothers (take s a))

/-! ### Input read as it comes -/

/-- Every item takes some of the buffer away, so its length is fuel enough. -/
theorem drain_reads {fuel : Nat} {r : Reader β σ} (hfuel : r.buffer.length < fuel) (hopen : r.broken = false) :
    F.Reads take r.buffer r.state (F.drain take fuel r).broken (F.drain take fuel r).state
      (F.drain take fuel r).buffer := by
  induction fuel generalizing r with
  | zero => exact absurd hfuel (Nat.not_lt_zero _)
  | succ fuel ih =>
    unfold drain
    split
    · next hmore =>
      rw [hopen]
      exact .more hmore
    · next hbad => exact .bad hbad
    · next a rest hitem =>
      have hshorter := F.shorter _ _ _ hitem
      exact .item hitem (ih (r := {r with buffer := rest, state := take r.state a})
        (Nat.lt_of_lt_of_le hshorter (Nat.le_of_lt_succ hfuel)) hopen)

variable (take)

theorem feed_reads {r : Reader β σ} (hopen : r.broken = false) (chunk : List β) :
    F.Reads take (r.buffer ++ chunk) r.state (F.feed take r chunk).broken (F.feed take r chunk).state
      (F.feed take r chunk).buffer := by
  unfold feed
  rw [if_neg (by simp [hopen])]
  exact drain_reads (r := {r with buffer := r.buffer ++ chunk}) (Nat.lt_succ_self _) hopen

theorem feedAll_broken {r : Reader β σ} (hbroken : r.broken = true) (chunks : List (List β)) :
    F.feedAll take r chunks = r := by
  induction chunks with
  | nil => rfl
  | cons chunk chunks ih =>
    have hsame : F.feed take r chunk = r := if_pos hbroken
    simpa only [feedAll, List.foldl_cons, hsame] using ih

/-- Fed piece by piece, a reader comes to where the whole stream leads. What comes after a
break is not kept. -/
theorem feedAll_reads {r : Reader β σ} (hopen : r.broken = false) (hwaits : F.front r.buffer = .more)
    (chunks : List (List β)) :
    ∃ unread, F.Reads take (r.buffer ++ chunks.flatten) r.state (F.feedAll take r chunks).broken
        (F.feedAll take r chunks).state ((F.feedAll take r chunks).buffer ++ unread) ∧
      ((F.feedAll take r chunks).broken = false → unread = []) := by
  induction chunks generalizing r with
  | nil =>
    refine ⟨[], ?_, fun _ => rfl⟩
    rw [List.flatten_nil, List.append_nil, List.append_nil]
    show F.Reads take r.buffer r.state r.broken r.state r.buffer
    exact hopen ▸ .more hwaits
  | cons chunk chunks ih =>
    have hfeed := F.feed_reads take hopen chunk
    rw [List.flatten_cons, ← List.append_assoc]
    cases hbroken : (F.feed take r chunk).broken with
    | true =>
      have hrest : F.feedAll take r (chunk :: chunks) = F.feed take r chunk := feedAll_broken take hbroken chunks
      rw [hbroken] at hfeed
      rw [hrest, hbroken]
      exact ⟨chunks.flatten, hfeed.broken_append _, fun h => nomatch h⟩
    | false =>
      rw [hbroken] at hfeed
      obtain ⟨unread, hreads, hnone⟩ := ih hbroken hfeed.waits
      exact ⟨unread, hfeed.append hreads, hnone⟩

/-- Where a stream is cut makes no difference. -/
theorem feedAll_cut {r : Reader β σ} (hopen : r.broken = false) (hwaits : F.front r.buffer = .more)
    {chunks chunks' : List (List β)} (h : chunks.flatten = chunks'.flatten) :
    (F.feedAll take r chunks).broken = (F.feedAll take r chunks').broken ∧
      (F.feedAll take r chunks).state = (F.feedAll take r chunks').state := by
  obtain ⟨_, hreads, -⟩ := F.feedAll_reads take hopen hwaits chunks
  obtain ⟨_, hreads', -⟩ := F.feedAll_reads take hopen hwaits chunks'
  obtain ⟨hbroken, hstate, -⟩ := hreads.unique (h ▸ hreads')
  exact ⟨hbroken, hstate⟩

/-- A stream of whole items, wherever it is cut, is read to its end. -/
theorem feedAll_items {encode : α → List β} {items : List α}
    (hitems : ∀ a ∈ items, ∀ rest, F.front (encode a ++ rest) = .item a rest) (s : σ)
    {chunks : List (List β)} (h : chunks.flatten = (items.map encode).flatten) :
    F.feedAll take {state := s} chunks = {state := items.foldl take s} := by
  obtain ⟨unread, hreads, hnone⟩ :=
    F.feedAll_reads take (r := {state := s}) rfl F.nothing chunks
  rw [h] at hreads
  obtain ⟨hbroken, hstate, hleft⟩ := (reads_items hitems s).unique hreads
  rw [hnone hbroken.symm, List.append_nil] at hleft
  cases hend : F.feedAll take {state := s} chunks with
  | mk buffer broken state =>
    rw [hend] at hbroken hstate hleft
    simp only at hbroken hstate hleft
    rw [← hbroken, ← hstate, ← hleft]

end Format

end Framing
