import ShelfRemote.Lib.Runs
import ShelfRemote.Storage.Contexts
import ShelfRemote.Storage.MasterKey

/-! Launch after launch over one disk.

A row is worth something as long as the next launch finds the secret it was sealed
under. A secret that is found is found again, through every switch (`Kept`); one that
was made but could not be written serves for one launch, and takes what was stored
under it with it (`unwritten_key_costs`). -/
namespace ShelfRemote.Storage
open Qt Auth Runs

/-- The launches so far. -/
structure Launches where
  store : SecureStore
  /-- History: what each row was last stored with, while it stands. -/
  stored : String → Option (Bytes × SecretContext) := fun _ => none

namespace Launches

inductive Event where
  | launch
  | store (key : String) (plaintext : Bytes) (ctx : SecretContext) (m : Moment)
  | retrieve (key : String) (ctx : SecretContext) (m : Moment)
  | remove (key : String)
  | setStorage (target : StorageKind) (answer : Option PortalReply) (m : Moment)

variable (C : Crypto)

def step (x : Launches) : Event → Launches
  | .launch => {x with store := .fresh x.store.disk}
  | .store key plaintext ctx m =>
    { store := x.store.store C key plaintext ctx m
      stored := if x.store.Writes m then fun k => if k = key then some (plaintext, ctx) else x.stored k
        else x.stored }
  | .retrieve key ctx m => {x with store := (x.store.retrieve C key ctx m).1}
  | .remove key => {store := x.store.remove key, stored := fun k => if k = key then none else x.stored k}
  | .setStorage target answer m =>
    let (store, result) := x.store.setStorage target answer m
    {store, stored := if result = .reset then fun _ => none else x.stored}

def machine : Machine Launches Event := ⟨step C⟩

/-- What is stored is had back, or waits for the keyring; and nothing is stored, and no
row touched, without a master secret. -/
def Survives (x : Launches) : Event → Prop
  | .retrieve key ctx m => ∀ plaintext, x.stored key = some (plaintext, ctx) → plaintext ≠ [] →
      (x.store.retrieve C key ctx m).2 = (.ok, plaintext) ∨
        (x.store.retrieve C key ctx m).2 = (.providerUnavailable, [])
  | .store key plaintext ctx m => (x.store.masterSecret m).master = [] →
      (x.store.store C key plaintext ctx m).disk.secrets = x.store.disk.secrets
  | _ => True

/-- The portal always hands over the same secret. -/
def Event.Steady (portal : Bytes) : Event → Prop
  | .store _ _ _ m => Storage.Steady portal m.portal
  | .retrieve _ _ m => Storage.Steady portal m.portal
  | .setStorage _ answer m => Storage.Steady portal answer ∧ Storage.Steady portal m.portal
  | _ => True

/-- The secret in use will be found by the next launch: it is the one the disk has, or
it is being acquired and, if it is a new one, is written. -/
def Found (portal : Bytes) (s : SecureStore) (m : Moment) : Prop :=
  if s.master = [] then s.disk.Unkeyed m → m.secret = none ∨ m.write = .written
  else s.disk.key portal = some s.master

instance (portal : Bytes) (s : SecureStore) (m : Moment) : Decidable (Found portal s m) :=
  inferInstanceAs (Decidable (if s.master = [] then s.disk.Unkeyed m → m.secret = none ∨ m.write = .written
    else s.disk.key portal = some s.master))

/-- Something is stored only under a secret that will be found, and no secret is carried
over in a write that fails in silence. -/
def Rule (portal : Bytes) (x : Launches) : Event → Prop
  | .store _ plaintext _ m => plaintext = [] ∨ m.nonce = none ∨ Found portal x.store m
  | .setStorage .device _ m => x.store.storage = .keyring →
      m.write.Truthful ∨ x.store.master = [] ∧ usable m.portal = []
  | _ => True

/-! ### What the disk holds -/

variable {C} {portal : Bytes} {x : Launches} {m : Moment}

/-- Every row that was stored was sealed under the secret the disk has, which is the
one in use. -/
structure Kept (C : Crypto) (portal : Bytes) (x : Launches) : Prop where
  held : ∀ key plaintext ctx, x.stored key = some (plaintext, ctx) → plaintext ≠ [] →
    ∃ k blob, x.store.disk.key portal = some k ∧ x.store.disk.secrets key = some blob ∧
      Crypto.IsSealing C k (aad ctx) plaintext blob
  cached : x.store.master ≠ [] → ∀ k, x.store.disk.key portal = some k → x.store.master = k
  long : x.store.master ≠ [] → keyLength ≤ x.store.master.length

theorem kept_start (C : Crypto) (portal : Bytes) (d : Disk) : Kept C portal {store := .fresh d} where
  held := fun _ _ _ h => nomatch h
  cached := fun h => absurd rfl h
  long := fun h => absurd rfl h

theorem Kept.launch (h : Kept C portal x) : Kept C portal {x with store := .fresh x.store.disk} where
  held := h.held
  cached := fun hsome => absurd rfl hsome
  long := fun hsome => absurd rfl hsome

/-- With rows and keys unchanged, so is what can be had back. -/
theorem Kept.rows (h : Kept C portal x) {d : Disk}
    (hkey : ∀ k, x.store.disk.key portal = some k → d.key portal = some k)
    (hsecrets : d.secrets = x.store.disk.secrets) {key : String} {plaintext : Bytes} {ctx : SecretContext}
    (hstored : x.stored key = some (plaintext, ctx)) (hplaintext : plaintext ≠ []) :
    ∃ k blob, d.key portal = some k ∧ d.secrets key = some blob ∧ Crypto.IsSealing C k (aad ctx) plaintext blob := by
  obtain ⟨k, blob, hfound, hrow, hsealing⟩ := h.held key plaintext ctx hstored hplaintext
  exact ⟨k, blob, hkey k hfound, hsecrets ▸ hrow, hsealing⟩

theorem Kept.masterSecret (h : Kept C portal x) (hsteady : Steady portal m.portal) :
    Kept C portal {x with store := x.store.masterSecret m} := by
  obtain ⟨-, hsame⟩ | ⟨hnone, hacquires, hsecrets⟩ := x.store.masterSecret_cases m
  · rw [hsame]
    exact h
  · exact
      { held := fun key plaintext ctx => h.rows (fun k hkey => (hacquires.keeps hsteady hkey).1) hsecrets
        cached := fun hsome k hkey => hacquires.agrees hsteady hsome hkey
        long := fun hsome => hacquires.length hsome }

/-- A store that holds the same secret over the same rows. -/
theorem Kept.same (h : Kept C portal x) {s : SecureStore} (hmaster : s.master = x.store.master)
    (hkey : s.disk.key portal = x.store.disk.key portal) (hsecrets : s.disk.secrets = x.store.disk.secrets) :
    Kept C portal {x with store := s} where
  held := fun key plaintext ctx => h.rows (fun k hk => hkey ▸ hk) hsecrets
  cached := fun hsome k hk => by
    rw [hmaster] at hsome ⊢
    exact h.cached hsome k (hkey ▸ hk)
  long := fun hsome => by
    rw [hmaster] at hsome ⊢
    exact h.long hsome

/-- A store without rows, whose secret is the one its disk has, if it has one. -/
theorem kept_emptied {s : SecureStore} (hcached : ∀ k, s.disk.key portal = some k → s.master = k)
    (hlong : keyLength ≤ s.master.length) : Kept C portal {store := s} where
  held := fun _ _ _ h => nomatch h
  cached := fun _ => hcached
  long := fun _ => hlong

/-- A secret in use that will be found. -/
theorem found_key (hsteady : Steady portal m.portal) (hfound : Found portal x.store m)
    (hsome : (x.store.masterSecret m).master ≠ []) :
    (x.store.masterSecret m).disk.key portal = some (x.store.masterSecret m).master := by
  unfold Found at hfound
  obtain ⟨hcached, hsame⟩ | ⟨hnone, hacquires, -⟩ := x.store.masterSecret_cases m
  · rw [if_neg hcached] at hfound
    rwa [hsame]
  · rw [if_pos hnone] at hfound
    exact hacquires.found_again hsteady hsome hfound

theorem Kept.store (h : Kept C portal x) {key : String} {plaintext : Bytes} {ctx : SecretContext}
    (hsteady : Steady portal m.portal) (hrule : Rule portal x (.store key plaintext ctx m)) :
    Kept C portal (step C x (.store key plaintext ctx m)) := by
  have hmaster := h.masterSecret hsteady
  by_cases hwrites : x.store.Writes m
  · obtain ⟨blob, hsealing, hstore⟩ := SecureStore.store_writes C key plaintext ctx hwrites.1 hwrites.2
    have hfound (hplaintext : plaintext ≠ []) :=
      found_key hsteady ((hrule.resolve_left hplaintext).resolve_left hwrites.2) hwrites.1
    refine ⟨fun row stored rowCtx hstored hsome => ?_, ?_, ?_⟩
    · simp only [step, if_pos hwrites, hstore] at hstored ⊢
      by_cases hrow : row = key
      · rw [if_pos hrow] at hstored
        obtain ⟨rfl, rfl⟩ := Prod.mk.inj (Option.some.inj hstored)
        exact ⟨_, blob, hfound hsome, if_pos hrow, hsealing⟩
      · rw [if_neg hrow] at hstored
        obtain ⟨k, old, hkey, hold, hopens⟩ := hmaster.held row stored rowCtx hstored hsome
        exact ⟨k, old, hkey, (if_neg hrow).trans hold, hopens⟩
    · simp only [step, hstore]
      exact hmaster.cached
    · simp only [step, hstore]
      exact hmaster.long
  · simp only [step, if_neg hwrites, SecureStore.store_idle hwrites]
    exact hmaster

theorem Kept.retrieve (h : Kept C portal x) (key : String) (ctx : SecretContext)
    (hsteady : Steady portal m.portal) : Kept C portal (step C x (.retrieve key ctx m)) := by
  obtain hsame | hmaster := SecureStore.retrieve_store (C := C) x.store key ctx m
  · simp only [step, hsame]
    exact h
  · simp only [step, hmaster]
    exact h.masterSecret hsteady

theorem Kept.remove (h : Kept C portal x) (key : String) : Kept C portal (step C x (.remove key)) where
  held := fun row plaintext ctx hstored hplaintext => by
    by_cases hrow : row = key
    · exact nomatch (if_pos hrow).symm.trans hstored
    · obtain ⟨k, blob, hkey, hblob, hsealing⟩ :=
        h.held row plaintext ctx ((if_neg hrow).symm.trans hstored) hplaintext
      exact ⟨k, blob, hkey, (if_neg hrow).trans hblob, hsealing⟩
  cached := h.cached
  long := h.long

/-! ### Switching -/

/-- A switch to the device. With no secret to carry the rows go, and otherwise they stay
with the secret they were sealed under. -/
theorem Kept.toDevice (h : Kept C portal x) (hsteady : Steady portal m.portal)
    (hportal : x.store.disk.provider = "portal-v1")
    (hrule : m.write.Truthful ∨ x.store.master = [] ∧ usable m.portal = []) :
    Kept C portal
      { store := (x.store.toDevice m).1
        stored := if (x.store.toDevice m).2 = .reset then fun _ => none else x.stored } := by
  have hused := h.masterSecret hsteady
  obtain ⟨hprovider, hmaster⟩ := SecureStore.masterSecret_portal hportal m
  have hcases := x.store.toDevice_cases m
  generalize x.store.toDevice m = switched at hcases
  obtain ⟨s, result⟩ := switched
  dsimp only at hcases ⊢
  cases hcases with
  | failed master file disk =>
    refine hused.same master ?_ (by rw [disk])
    rw [Disk.key_portal hprovider, disk]
    exact Disk.key_portal hprovider
  | moved carried reports master disk =>
    have htruthful : m.write.Truthful := by
      refine hrule.resolve_right fun hnone => carried ?_
      rw [hmaster, if_pos hnone.1, hnone.2]
    have hwritten := written_of_reports reports htruthful
    have hfile : s.disk.keyFile = some (x.store.masterSecret m).master := by
      simp only [disk, Moment.leaves, hwritten]
    have hkey : s.disk.key portal = some (x.store.masterSecret m).master := by
      rw [Disk.key_device (by simp [disk])]
      exact localSecret_some hfile (hused.long carried)
    refine hused.same master ?_ (by rw [disk])
    rw [hkey, Disk.key_portal hprovider, hused.cached carried portal (Disk.key_portal hprovider)]
  | reset carried reports secret random master disk =>
    refine kept_emptied (fun k hkey => ?_) (master ▸ secret.long)
    rw [Disk.key_device (by simp [disk])] at hkey
    rw [master]
    exact leaves_reported secret reports (congrArg Disk.keyFile disk) hkey

/-- A switch to the keyring keeps the rows only if its secret is the one in use. -/
theorem Kept.toKeyring (h : Kept C portal x) {answer : Option PortalReply} (hanswer : Steady portal answer)
    (hsteady : Steady portal m.portal) :
    Kept C portal
      { store := (x.store.toKeyring answer m).1
        stored := if (x.store.toKeyring answer m).2 = .reset then fun _ => none else x.stored } := by
  obtain ⟨token, hdisk, hsame⟩ := x.store.acquirePortalSecret_disk answer
  have hasked : Kept C portal {x with store := (x.store.acquirePortalSecret answer).1} :=
    h.same hsame (by rw [hdisk]; rfl) (by rw [hdisk])
  have hused := hasked.masterSecret hsteady
  have hcases := x.store.toKeyring_cases answer m
  generalize x.store.toKeyring answer m = switched at hcases
  obtain ⟨s, result⟩ := switched
  dsimp only at hcases hused ⊢
  cases hcases with
  | failed silent unchanged =>
    rw [unchanged]
    exact hasked
  | moved answered same master disk =>
    have hportal := hanswer.usable answered
    have hkey : s.disk.key portal = some portal := Disk.key_portal (by rw [disk])
    have hsome : ((x.store.acquirePortalSecret answer).1.masterSecret m).master ≠ [] := same ▸ answered
    refine ⟨fun key plaintext ctx => hused.rows (fun k hk => ?_) (by rw [disk]), fun _ k hk => ?_, ?_⟩
    · rw [hkey, ← hportal, ← same, hused.cached hsome k hk]
    · rw [hkey] at hk
      rw [master, hportal]
      exact Option.some.inj hk
    · exact fun _ => master ▸ usable_length answered
  | reset answered other master disk =>
    have hkey : s.disk.key portal = some portal := Disk.key_portal (by rw [disk])
    refine kept_emptied (fun k hk => ?_) (master ▸ usable_length answered)
    rw [hkey] at hk
    rw [master, hanswer.usable answered]
    exact Option.some.inj hk

theorem Kept.setStorage (h : Kept C portal x) {target : StorageKind} {answer : Option PortalReply}
    (hsteady : Event.Steady portal (.setStorage target answer m)) (hrule : Rule portal x (.setStorage target answer m)) :
    Kept C portal (step C x (.setStorage target answer m)) := by
  simp only [step, SecureStore.setStorage]
  split
  · exact h
  · next hmoves =>
    cases target with
    | device =>
      have hkeyring : x.store.storage = .keyring := by
        cases hstorage : x.store.storage with
        | keyring => rfl
        | device => exact absurd hstorage.symm hmoves
      have hportal : x.store.disk.provider = "portal-v1" := by
        by_contra hother
        exact nomatch hkeyring.symm.trans (if_neg hother)
      exact h.toDevice hsteady.2 hportal (hrule hkeyring)
    | keyring => exact h.toKeyring hsteady.1 hsteady.2

/-! ### What was stored survives -/

theorem Kept.survives (h : Kept C portal x) {e : Event} (hsteady : e.Steady portal) : Survives C x e := by
  cases e with
  | retrieve key ctx m =>
    intro plaintext hstored hplaintext
    obtain ⟨k, blob, hkey, hrow, hsealing⟩ := h.held key plaintext ctx hstored hplaintext
    have hmaster := h.masterSecret hsteady
    obtain ⟨k', blob', hkey', hrow', hsealing'⟩ := hmaster.held key plaintext ctx hstored hplaintext
    by_cases hsome : (x.store.masterSecret m).master = []
    · right
      have hget : x.store.disk.getSecret key = blob := by simp [Disk.getSecret, hrow]
      simp only [SecureStore.retrieve, hget, if_neg hsealing.ne_nil, if_pos hsome]
    · left
      have hsame := hmaster.cached hsome k' hkey'
      rw [x.store.masterSecret_secrets m] at hrow'
      exact (SecureStore.retrieve_ok_iff hsome).mpr ⟨hplaintext, blob', hrow', hsame ▸ hsealing'⟩
  | store key plaintext ctx m =>
    intro hnone
    rw [SecureStore.store_idle fun hwrites => hwrites.1 hnone]
    exact x.store.masterSecret_secrets m
  | launch | remove | setStorage => trivial

theorem keeps_kept : Machine.Keeps (machine C) (fun x e => e.Steady portal ∧ Rule portal x e) (Kept C portal) where
  step := fun x e h hrule => by
    cases e with
    | launch => exact h.launch
    | store key plaintext ctx m => exact h.store hrule.1 hrule.2
    | retrieve key ctx m => exact h.retrieve key ctx hrule.1
    | remove key => exact h.remove key
    | setStorage target answer m => exact h.setStorage hrule.1 hrule.2

/-- **What is stored survives.** Over any disk, with a portal that always hands over the
same secret: in every run in which nothing is stored under a secret the next launch will
not find, and no secret is carried over in a write that fails in silence, what was stored
in a row and still stands is had back at every later retrieve in its context, or waits
for the keyring; and a store without a master secret leaves the rows as they were. -/
theorem rows_survive (C : Crypto) (portal : Bytes) (d : Disk) (es : List Event)
    (hsteady : ∀ e ∈ es, e.Steady portal) (hrule : (machine C).Along (Rule portal) {store := .fresh d} es) :
    (machine C).Along (Survives C) {store := .fresh d} es :=
  keeps_kept.along (fun _ _ h hboth => h.survives hboth.1) (kept_start C portal d)
    ((Machine.along_of_mem hsteady _).and hrule)

instance (x : Launches) : DecidablePred (Rule portal x)
  | .store _ _ _ _ => inferInstanceAs (Decidable (_ ∨ _ ∨ _))
  | .setStorage .device _ _ => inferInstanceAs (Decidable (_ → _ ∨ _ ∧ _))
  | .setStorage .keyring _ _ => .isTrue trivial
  | .launch | .retrieve _ _ _ | .remove _ => .isTrue trivial

/-- A device without a keyring, on which a new key is or is not written. -/
def keyless (byte : UInt8) (write : WriteOutcome) : Moment :=
  { secret := some ⟨List.replicate 32 byte, List.length_replicate⟩
    nonce := some ⟨List.replicate 12 3, List.length_replicate⟩
    write }

theorem keyless_steady (byte : UInt8) (write : WriteOutcome) : Storage.Steady portal (keyless byte write).portal :=
  fun _ h => nomatch h

/-- Something is stored at the first launch and asked for at the second. -/
def twoLaunches (write : WriteOutcome) : List Event :=
  [.store "9a0b/tokens" [1, 2] SecureStore.sampleContext (keyless 8 write), .launch,
    .retrieve "9a0b/tokens" SecureStore.sampleContext (keyless 9 .written)]

theorem twoLaunches_steady (write : WriteOutcome) : ∀ e ∈ twoLaunches write, e.Steady portal := by
  simp only [twoLaunches, List.forall_mem_cons, List.not_mem_nil, false_imp_iff, implies_true, and_true]
  exact ⟨keyless_steady 8 write, trivial, keyless_steady 9 .written⟩

theorem rows_survive_two_launches :
    (machine default).Along (Survives default) {store := .fresh {}} (twoLaunches .written) :=
  rows_survive default [] {} (twoLaunches .written) (twoLaunches_steady .written) (by decide +kernel)

/-- A key that could not be written serves for one launch. -/
theorem unwritten_key_costs : (∀ e ∈ twoLaunches .denied, e.Steady []) ∧
    ¬(machine default).Along (Survives default) {store := .fresh {}} (twoLaunches .denied) := by
  refine ⟨twoLaunches_steady .denied, fun h => ?_⟩
  have hlast := h.2.2.1 [1, 2] (by decide +kernel) (by decide)
  exact absurd hlast (by decide +kernel)

end Launches

end ShelfRemote.Storage
