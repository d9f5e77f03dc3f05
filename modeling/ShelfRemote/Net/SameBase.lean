import ShelfRemote.Net.Delivery

/-! Setting the base that is already set.

`setBaseUrl` compares the URL it is given with the base, which is stored normalised. A URL
that is another spelling of the same base passes for another server: `same_base_kept` says
that it does so for every spelling but the normalised one. -/
namespace ShelfRemote.Net
open Qt Runs

/-- As `setBase` writes a URL: no query, no fragment, no slash at the end, and no escape that
`setPath` would not write. -/
def Tidy (base : QUrl) : Prop :=
  base.query = none ∧ base.fragment = none ∧ QUrl.Canonical base.path ∧ base.path.getLast? ≠ some slash

instance (base : QUrl) : Decidable (Tidy base) := inferInstanceAs (Decidable (_ ∧ _ ∧ _ ∧ _))

theorem withoutSlashes_eq_iff (path : List PathChar) : withoutSlashes path = path ↔ path.getLast? ≠ some slash := by
  unfold withoutSlashes
  rw [List.rdropWhile_eq_self_iff]
  obtain rfl | ⟨init, c, rfl⟩ := path.eq_nil_or_concat
  · simp
  · simp

theorem normalise_eq_iff (base : QUrl) : normalise base = base ↔ Tidy base := by
  constructor
  · intro h
    refine ⟨h ▸ rfl, h ▸ rfl, h ▸ normalise_canonical base, ?_⟩
    have hslash := normalise_no_slash base
    rw [h] at hslash
    exact (withoutSlashes_eq_iff base.path).mp hslash
  · rintro ⟨hquery, hfragment, hcanonical, hslash⟩
    have hpath : (normalise base).path = base.path :=
      (normalise_path_canonical base hcanonical).trans ((withoutSlashes_eq_iff base.path).mpr hslash)
    show {base with path := (normalise base).path, query := none, fragment := none} = base
    rw [hpath]
    cases base
    simp only at hquery hfragment
    rw [hquery, hfragment]

namespace Delivery
variable {s : State} {base : QUrl}

/-! ### A call that returns -/

/-- The call has returned: what it aborts is aborted, and what the closures of the aborted
replies did meanwhile is done. -/
def Returned (s : State) (base : QUrl) (s' : State) : Prop :=
  if s.client.baseUrl = base then s' = s
  else ∃ es, s' = machine.run (setBaseUrl s base) es ∧ s'.aborting = s.aborting

/-- Nothing is aborted, and nothing in flight becomes stale. -/
structure Undisturbed (s s' : State) : Prop where
  epoch : s'.client.epoch = s.client.epoch
  base : s'.client.endpoints = s.client.endpoints
  active : s'.client.active = s.client.active
  inFlight : s'.client.inFlight = s.client.inFlight

/-- A reply is no business of a `setBaseUrl` under way, and moves nothing. -/
theorem finished_frame (s : State) (id : Nat) (raw : RawReply) :
    (finished s id raw).aborting = s.aborting ∧ (finished s id raw).client.epoch = s.client.epoch := by
  unfold finished
  split
  · exact ⟨rfl, rfl⟩
  · dsimp only [onFinished]
    split <;> exact ⟨rfl, rfl⟩

/-- Every call can return: it aborts one reply after another. -/
theorem drained {frame : List Nat} {outer : List (List Nat)} (h : s.aborting = frame :: outer) :
    ∃ es, (machine.run s es).aborting = outer := by
  induction frame generalizing s with
  | nil =>
    refine ⟨[.endSetBaseUrl], ?_⟩
    show (endSetBaseUrl s).aborting = outer
    unfold endSetBaseUrl
    rw [h]
  | cons id rest ih =>
    have hnext : (abort s id {status := 0}).aborting = rest :: outer := by
      unfold abort
      rw [h]
      dsimp only
      rw [if_pos (List.mem_cons_self ..), (finished_frame _ id _).1, List.erase_cons_head]
    obtain ⟨es, hes⟩ := ih hnext
    exact ⟨.abort id {status := 0} :: es, hes⟩

theorem returns (s : State) (base : QUrl) : ∃ s', Returned s base s' := by
  unfold Returned
  split
  · exact ⟨s, rfl⟩
  · next hother =>
    have hframe : (setBaseUrl s base).aborting = s.client.active :: s.aborting := by
      unfold setBaseUrl
      rw [if_neg hother]
    obtain ⟨es, hes⟩ := drained hframe
    exact ⟨_, es, rfl, hes⟩

/-! ### The epoch -/

theorem refreshed_epoch (s : State) (i : Nat) (ok : Bool) : (refreshed s i ok).client.epoch = s.client.epoch := by
  unfold refreshed
  split
  · rfl
  · dsimp only [onRefreshed]
    split <;> rfl

theorem abort_epoch (s : State) (id : Nat) (raw : RawReply) : (abort s id raw).client.epoch = s.client.epoch := by
  unfold abort
  split
  · split
    · exact (finished_frame _ id raw).2
    · rfl
  · rfl

theorem step_epoch (s : State) (e : Event) : s.client.epoch ≤ (step s e).client.epoch := by
  cases e with
  | send request => exact Nat.le_refl _
  | finished id raw => exact (finished_frame s id raw).2.ge
  | refreshed i ok => exact (refreshed_epoch s i ok).ge
  | setBaseUrl base =>
    show s.client.epoch ≤ (setBaseUrl s base).client.epoch
    unfold setBaseUrl
    split
    · exact Nat.le_refl _
    · exact Nat.le_succ _
  | abort id raw => exact (abort_epoch s id raw).ge
  | endSetBaseUrl =>
    show s.client.epoch ≤ (endSetBaseUrl s).client.epoch
    unfold endSetBaseUrl
    split <;> exact Nat.le_refl _
  | setAccessToken token => exact Nat.le_refl _

/-- An epoch that is over does not come again. -/
theorem epoch_keeps (k : Nat) : Machine.Keeps machine (fun _ _ => True) (fun s => k ≤ s.client.epoch) :=
  ⟨fun s e h _ => h.trans (step_epoch s e)⟩

/-! ### The same base again -/

theorem returned_iff {s' : State} (hbase : s.client.endpoints = Endpoints.setBase base)
    (hreturned : Returned s base s') : Undisturbed s s' ↔ Tidy base := by
  rw [← normalise_eq_iff]
  unfold Returned at hreturned
  have hset : s.client.baseUrl = normalise base := congrArg Endpoints.base hbase
  split at hreturned
  · next hsame =>
    rw [hreturned]
    exact iff_of_true ⟨rfl, rfl, rfl, rfl⟩ (hset.symm.trans hsame)
  · next hother =>
    obtain ⟨es, rfl, -⟩ := hreturned
    refine iff_of_false (fun hsame => ?_) fun htidy => hother (hset.trans htidy)
    have hmoved : s.client.epoch + 1 ≤ (setBaseUrl s base).client.epoch := by
      unfold setBaseUrl
      rw [if_neg hother]
      exact Nat.le_refl _
    have hlater := (epoch_keeps (s.client.epoch + 1)).always hmoved es
    have hepoch := hsame.epoch
    omega

/-- **Only a tidy URL is known again.** Whatever the state, and whatever the closures of the
aborted replies do: a call with a URL that stands for the base already set returns with epoch,
base and requests in flight as they were if and only if the URL is written as the base is. -/
theorem same_base_kept (s : State) (base : QUrl) (hbase : s.client.endpoints = Endpoints.setBase base) :
    (∃ s', Returned s base s') ∧ ∀ s', Returned s base s' → (Undisturbed s s' ↔ Tidy base) :=
  ⟨returns s base, fun _ => returned_iff hbase⟩

/-- A base with a slash at its end. -/
def slashed : QUrl := {scheme := "https", host := "a.example", path := [slash]}

/-- The same base without it, and a request in flight. -/
def asking : State :=
  send {client := {endpoints := Endpoints.setBase slashed}}
    {verb := .get, target := (Endpoints.setBase slashed).status, bearer := none}

/-- The request in flight is aborted. -/
theorem same_base_aborts :
    let s' := machine.run asking [.setBaseUrl slashed, .abort 0 {status := 0}, .endSetBaseUrl]
    asking.client.endpoints = Endpoints.setBase slashed ∧ s'.client.endpoints = asking.client.endpoints ∧
      asking.client.active = [0] ∧ s'.client.active = [] ∧ s'.client.epoch = asking.client.epoch + 1 ∧
      Returned asking slashed s' ∧ ¬Undisturbed asking s' := by
  have hother : asking.client.baseUrl ≠ slashed := by decide +kernel
  refine ⟨rfl, rfl, rfl, rfl, rfl, ?_, fun hsame => absurd hsame.epoch (by decide +kernel)⟩
  unfold Returned
  rw [if_neg hother]
  exact ⟨[.abort 0 {status := 0}, .endSetBaseUrl], rfl, rfl⟩

theorem same_base_kept_asking :
    (∀ s', Returned asking (normalise slashed) s' → Undisturbed asking s') ∧
      ∀ s', Returned asking slashed s' → ¬Undisturbed asking s' :=
  ⟨fun s' hreturned => ((same_base_kept asking (normalise slashed) (by decide +kernel)).2 s' hreturned).mpr
      (by decide +kernel),
    fun s' hreturned hsame =>
      absurd (((same_base_kept asking slashed rfl).2 s' hreturned).mp hsame) (by decide +kernel)⟩

end Delivery

end ShelfRemote.Net
