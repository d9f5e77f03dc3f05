import ShelfRemote.Net.ApiClient

/-! The client as a component sees it that only sends.

What the component sends has a number, and its reply comes back at most once, as a
response for the closure it was sent with. Retries, aborts and the epoch are the
client's own business; what it promises of them is in the response. -/
namespace ShelfRemote.Net
open Qt Runs

structure Sent (κ : Type) where
  id : Nat
  verb : Verb
  target : Target
  body : Json
  closure : κ

structure Outbox (κ : Type) where
  created : Nat := 0
  inFlight : List (Sent κ) := []

namespace Outbox
variable {κ : Type}

def send (o : Outbox κ) (verb : Verb) (target : Target) (body : Json) (closure : κ) : Outbox κ :=
  {created := o.created + 1, inFlight := ⟨o.created, verb, target, body, closure⟩ :: o.inFlight}

/-- The reply with this number has come. -/
def take (o : Outbox κ) (id : Nat) : Option (Sent κ × Outbox κ) :=
  (pick (fun p => p.id == id) o.inFlight).map fun (p, rest) => (p, {o with inFlight := rest})

/-- Numbers are used once. -/
structure Sound (o : Outbox κ) : Prop where
  past : ∀ p ∈ o.inFlight, p.id < o.created
  once : o.inFlight.Pairwise fun p q => p.id ≠ q.id

theorem sound_start : Sound ({} : Outbox κ) where
  past := fun _ h => by cases h
  once := List.Pairwise.nil

variable {o o' : Outbox κ} {p : Sent κ} {id : Nat}

theorem Sound.send (h : o.Sound) (verb : Verb) (target : Target) (body : Json) (closure : κ) :
    (o.send verb target body closure).Sound where
  past := List.forall_mem_cons.mpr
    ⟨Nat.lt_succ_self _, fun p hp => Nat.lt_succ_of_lt (h.past p hp)⟩
  once := List.pairwise_cons.mpr ⟨fun p hp => Nat.ne_of_gt (h.past p hp), h.once⟩

theorem take_some (h : o.take id = some (p, o')) :
    p.id = id ∧ o.inFlight.Perm (p :: o'.inFlight) ∧ o'.created = o.created := by
  obtain ⟨⟨q, rest⟩, hpick, he⟩ := Option.map_eq_some_iff.mp h
  simp only [Prod.mk.injEq] at he
  obtain ⟨rfl, rfl⟩ := he
  exact ⟨by simpa using pick_accepts hpick, pick_perm hpick, rfl⟩

theorem take_mem (h : o.take id = some (p, o')) : p ∈ o.inFlight :=
  (take_some h).2.1.mem_iff.mpr (List.mem_cons_self ..)

theorem take_rest (h : o.take id = some (p, o')) {q : Sent κ} (hq : q ∈ o'.inFlight) : q ∈ o.inFlight :=
  (take_some h).2.1.mem_iff.mpr (List.mem_cons_of_mem _ hq)

theorem take_left (h : o.take id = some (p, o')) {q : Sent κ} (hq : q ∈ o.inFlight) (hne : q.id ≠ id) :
    q ∈ o'.inFlight := by
  obtain ⟨hid, hperm, -⟩ := take_some h
  exact (List.mem_cons.mp (hperm.mem_iff.mp hq)).resolve_left fun hqp => hne (hqp ▸ hid)

theorem take_none (h : o.take id = none) : ∀ p ∈ o.inFlight, p.id ≠ id := by
  have hpick : pick (fun p => p.id == id) o.inFlight = none := Option.map_eq_none_iff.mp h
  intro p hp
  simpa using pick_none hpick p hp

theorem Sound.take (h : o.Sound) (ht : o.take id = some (p, o')) :
    o'.Sound ∧ ∀ q ∈ o'.inFlight, q.id ≠ p.id := by
  obtain ⟨_, hperm, hcreated⟩ := take_some ht
  obtain ⟨hne, hrest⟩ := List.pairwise_cons.mp (hperm.pairwise h.once fun hpq => hpq.symm)
  exact ⟨⟨fun q hq => hcreated ▸ h.past q (take_rest ht hq), hrest⟩, fun q hq => (hne q hq).symm⟩

/-- A reply takes the request with its number, and no other. -/
theorem Sound.mem_take (h : o.Sound) (ht : o.take id = some (p, o')) (q : Sent κ) :
    q ∈ o'.inFlight ↔ q ∈ o.inFlight ∧ q.id ≠ id :=
  ⟨fun hq => ⟨take_rest ht hq, (take_some ht).1 ▸ (h.take ht).2 q hq⟩, fun hq => take_left ht hq.1 hq.2⟩

/-- The reply to a request that is out finds it. -/
theorem Sound.take_own (h : o.Sound) (hp : p ∈ o.inFlight) : ∃ o', o.take p.id = some (p, o') := by
  cases htake : o.take p.id with
  | none => exact absurd rfl (take_none htake p hp)
  | some taken =>
    obtain ⟨q, o'⟩ := taken
    obtain ⟨hid, hperm, -⟩ := take_some htake
    rcases List.mem_cons.mp (hperm.subset hp) with rfl | hrest
    · exact ⟨o', rfl⟩
    · exact absurd hid.symm ((h.take htake).2 p hrest)

end Outbox

end ShelfRemote.Net
