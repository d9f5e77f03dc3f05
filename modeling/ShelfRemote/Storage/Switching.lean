import ShelfRemote.Auth.TokenStore
import ShelfRemote.Storage.Contexts
import ShelfRemote.Storage.MasterKey

/-! Moving the master secret.

A switch writes the file, the marker and the rows one after the other, in another order
for each direction. At every point in between, a launch finds the secret the rows were
sealed under (`Writes`), and at the end so does the instance that made the switch. -/
namespace ShelfRemote.Storage
open Qt Auth

/-! ### What a launch finds -/

/-- The same machine at another moment: what the generator and the file system do may
differ. -/
structure SameSite (m m' : Moment) : Prop where
  flatpak : m'.flatpak = m.flatpak
  portal : usable m'.portal = usable m.portal

theorem SameSite.refl (m : Moment) : SameSite m m := ⟨rfl, rfl⟩

/-- The secret a launch finds, unless it has to make one; empty if the keyring is locked. -/
def Disk.finds (d : Disk) (m : Moment) : Option Bytes :=
  if d.Unkeyed m then none else some ((d.key (usable m.portal)).getD (usable m.portal))

/-- The secret a launch acquires. -/
def Disk.acquired (d : Disk) (m : Moment) : Bytes :=
  (d.finds m).getD ((m.secret.map Drawn.bytes).getD [])

variable {C : Crypto} {d d' : Disk} {s s' : SecureStore} {m m' : Moment} {secret : Bytes}

theorem SameSite.finds (h : SameSite m m') (d : Disk) : d.finds m' = d.finds m := by
  have hunkeyed : d.Unkeyed m' ↔ d.Unkeyed m := by simp only [Disk.Unkeyed, h.flatpak, h.portal]
  exact if_congr hunkeyed rfl (by rw [h.portal])

theorem finds_portal (h : d.provider = "portal-v1") : d.finds m = some (usable m.portal) := by
  have hkeyed : ¬d.Unkeyed m := fun hunkeyed => hunkeyed.1 h
  rw [Disk.finds, if_neg hkeyed, Disk.key_portal h]
  rfl

theorem finds_device (h : d.provider ≠ "portal-v1") (hlocal : d.localSecret = some secret) :
    d.finds m = some secret := by
  have hkeyed : ¬d.Unkeyed m := fun hunkeyed => nomatch hlocal.symm.trans hunkeyed.2.1
  rw [Disk.finds, if_neg hkeyed, Disk.key_device h, hlocal]
  rfl

theorem finds_unkeyed (h : d.Unkeyed m) : d.finds m = none := if_pos h

/-- What is found depends on the marker and the file. -/
theorem finds_congr (hprovider : d'.provider = d.provider) (hfile : d'.keyFile = d.keyFile) (m : Moment) :
    d'.finds m = d.finds m := by
  have hlocal : d'.localSecret = d.localSecret := by simp only [Disk.localSecret, hfile]
  have hunkeyed : d'.Unkeyed m ↔ d.Unkeyed m := by simp only [Disk.Unkeyed, hprovider, hlocal]
  have hkey : d'.key (usable m.portal) = d.key (usable m.portal) := by simp only [Disk.key, hprovider, hlocal]
  exact if_congr hunkeyed rfl (by rw [hkey])

theorem Acquires.acquired (h : Acquires d m d' secret) : secret = d.acquired m := by
  unfold Disk.acquired
  cases h with
  | portal chosen => rw [finds_portal chosen]; rfl
  | device _ chosen held => rw [finds_device chosen held]; rfl
  | adopted chosen held flatpak answer =>
    have hkeyed : ¬d.Unkeyed m := fun hunkeyed => by
      obtain hlocal | hbare | hsilent := hunkeyed.2.2
      · exact chosen.2 hlocal
      · exact nomatch flatpak.symm.trans hbare
      · exact answer hsilent
    rw [Disk.finds, if_neg hkeyed, Disk.key_device chosen.1, held]
    rfl
  | failed unkeyed random => rw [finds_unkeyed unkeyed, random]; rfl
  | begun unkeyed drawn random => rw [finds_unkeyed unkeyed, random]; rfl

namespace SecureStore

theorem masterSecret_master (s : SecureStore) (m : Moment) :
    (s.masterSecret m).master = if s.master = [] then s.disk.acquired m else s.master := by
  obtain ⟨hcached, hsame⟩ | ⟨hnone, hacquires, -⟩ := s.masterSecret_cases m
  · rw [hsame, if_neg hcached]
  · rw [if_pos hnone]
    exact hacquires.acquired

theorem fresh_master (d : Disk) (m : Moment) : ((fresh d).masterSecret m).master = d.acquired m :=
  (masterSecret_master _ m).trans (if_pos rfl)

/-- Retrieving looks at the row and the secret in use. -/
theorem retrieve_congr (hsecrets : s'.disk.secrets = s.disk.secrets)
    (hmaster : (s'.masterSecret m).master = (s.masterSecret m).master) (key : String) (ctx : SecretContext) :
    (s'.retrieve C key ctx m).2 = (s.retrieve C key ctx m).2 := by
  have hget : s'.disk.getSecret key = s.disk.getSecret key := by simp only [Disk.getSecret, hsecrets]
  by_cases hrow : s.disk.getSecret key = []
  · simp [retrieve, hget, hrow]
  · by_cases hnone : (s.masterSecret m).master = []
    · simp [retrieve, hget, hrow, hmaster, hnone]
    · by_cases hclosed : C.decrypt (s.masterSecret m).master (s.disk.getSecret key) (aad ctx) = []
      · simp [retrieve, hget, hrow, hmaster, hnone, hclosed]
      · simp [retrieve, hget, hrow, hmaster, hnone, hclosed]

end SecureStore

/-! ### What can be retrieved -/

/-- The row is had back, whatever else the machine does. -/
def Retrieves (C : Crypto) (m : Moment) (s : SecureStore) (key : String) (ctx : SecretContext)
    (plaintext : Bytes) : Prop :=
  ∀ m', SameSite m m' → (s.retrieve C key ctx m').2 = (.ok, plaintext)

/-- The row was sealed under this secret. -/
def Opens (C : Crypto) (rows : String → Option Bytes) (k : Bytes) (key : String) (ctx : SecretContext)
    (plaintext : Bytes) : Prop :=
  plaintext ≠ [] ∧ ∃ blob, rows key = some blob ∧ Crypto.IsSealing C k (aad ctx) plaintext blob

variable {key : String} {ctx : SecretContext} {plaintext k : Bytes}

theorem Retrieves.opens (h : Retrieves C m s key ctx plaintext) :
    (s.masterSecret m).master ≠ [] ∧ Opens C s.disk.secrets (s.masterSecret m).master key ctx plaintext := by
  have hok := h m (.refl m)
  have hmaster := SecureStore.master_of_ok hok
  exact ⟨hmaster, (SecureStore.retrieve_ok_iff hmaster).mp hok⟩

theorem Opens.retrieves (h : Opens C s.disk.secrets k key ctx plaintext) (hk : k ≠ [])
    (hmaster : ∀ m', SameSite m m' → (s.masterSecret m').master = k) : Retrieves C m s key ctx plaintext := by
  intro m' hsite
  have hsame := hmaster m' hsite
  exact (SecureStore.retrieve_ok_iff (hsame ▸ hk)).mpr (hsame ▸ h)

theorem acquired_of_finds (h : d.finds m = some k) (hsite : SameSite m m') : d.acquired m' = k := by
  rw [Disk.acquired, hsite.finds, h]
  rfl

/-- A launch has back what was sealed under the secret it finds. -/
theorem Opens.retrieves_fresh (h : Opens C d.secrets k key ctx plaintext) (hk : k ≠ []) (hfinds : d.finds m = some k) :
    Retrieves C m (.fresh d) key ctx plaintext :=
  Opens.retrieves (s := .fresh d) h hk fun m' hsite =>
    (SecureStore.fresh_master d m').trans (acquired_of_finds hfinds hsite)

/-- What a launch has back whatever the generator does was sealed under a secret it finds. -/
theorem Retrieves.finds (h : Retrieves C m (.fresh d) key ctx plaintext) :
    ∃ k, k ≠ [] ∧ d.finds m = some k ∧ Opens C d.secrets k key ctx plaintext := by
  have hsite : SameSite m {m with secret := none} := ⟨rfl, rfl⟩
  have hok := h {m with secret := none} hsite
  have hmaster := SecureStore.master_of_ok hok
  have hopens := (SecureStore.retrieve_ok_iff hmaster).mp hok
  rw [SecureStore.fresh_master] at hmaster hopens
  cases hfinds : d.finds m with
  | none =>
    have hnone : d.acquired {m with secret := none} = [] := by
      rw [Disk.acquired, hsite.finds, hfinds]
      rfl
    exact absurd hnone hmaster
  | some k =>
    rw [acquired_of_finds hfinds hsite] at hmaster hopens
    exact ⟨k, hmaster, rfl, hopens⟩

/-! ### Write by write -/

/-- From one state to another by writes that pass through no disk but those `Q` accepts. -/
def Through (Q : Disk → Prop) (s s' : SecureStore) : Prop :=
  ∃ writes, s'.log = s.log ++ writes ∧ s'.disk = writes.foldl Disk.apply s.disk ∧
    ∀ before after, writes = before ++ after → Q (before.foldl Disk.apply s.disk)

namespace Through
variable {Q : Disk → Prop} {s s' s'' : SecureStore}

theorem refl (h : Q s.disk) : Through Q s s :=
  ⟨[], (List.append_nil _).symm, rfl, fun before _ hsplit => by
    rw [(List.append_eq_nil_iff.mp hsplit.symm).1]
    exact h⟩

theorem last (h : Through Q s s') : Q s'.disk := by
  obtain ⟨writes, -, hdisk, hall⟩ := h
  rw [hdisk]
  exact hall writes [] (List.append_nil _).symm

theorem trans (h : Through Q s s') (h' : Through Q s' s'') : Through Q s s'' := by
  obtain ⟨writes, hlog, hdisk, hall⟩ := h
  obtain ⟨writes', hlog', hdisk', hall'⟩ := h'
  refine ⟨writes ++ writes', by rw [hlog', hlog, List.append_assoc], by rw [hdisk', hdisk, List.foldl_append],
    fun before after hsplit => ?_⟩
  obtain ⟨between, rfl, hafter⟩ | ⟨between, rfl, hbetween⟩ := List.append_eq_append_iff.mp hsplit
  · have hlater := hall' between after hafter
    rwa [hdisk, ← List.foldl_append] at hlater
  · exact hall before between rfl

theorem write (h : Through Q s s') (w : Write) (hw : Q (s'.disk.apply w)) : Through Q s (s'.write w) := by
  refine h.trans ⟨[w], rfl, rfl, fun before after hsplit => ?_⟩
  cases before with
  | nil => exact h.last
  | cons first rest =>
    obtain ⟨rfl, hrest⟩ := List.cons.inj hsplit
    rw [(List.append_eq_nil_iff.mp hrest.symm).1]
    exact hw

/-- What is held in memory is not written. -/
theorem hold (h : Through Q s s') (master : Bytes) : Through Q s {s' with master} := h

/-- The disk a stop leaves, wherever it comes. -/
theorem stopped (h : Through Q s s') {writes : List Write} (hstop : s.log ++ writes <+: s'.log) :
    Q (writes.foldl Disk.apply s.disk) := by
  obtain ⟨all, hlog, -, hall⟩ := h
  obtain ⟨rest, hrest⟩ := hstop
  rw [hlog, List.append_assoc] at hrest
  exact hall writes rest (List.append_cancel_left hrest).symm

end Through

/-- The disks on which a launch finds `k` over these rows. -/
structure Finding (m : Moment) (k : Bytes) (rows : String → Option Bytes) (d : Disk) : Prop where
  finds : d.finds m = some k
  rows : d.secrets = rows

variable {rows : String → Option Bytes}

theorem Finding.token (h : Finding m k rows d) (token : String) : Finding m k rows {d with portalToken := token} :=
  ⟨(finds_congr rfl rfl m).trans h.finds, h.rows⟩

/-- While the keyring is chosen the file does not matter. -/
theorem Finding.file (h : Finding m k rows d) (hportal : d.provider = "portal-v1") (file : Option Bytes) :
    Finding m k rows {d with keyFile := file} :=
  ⟨(finds_portal (d := {d with keyFile := file}) hportal).trans ((finds_portal hportal).symm.trans h.finds), h.rows⟩

theorem Finding.acquirePortalSecret (h : Finding m k rows s.disk) (reply : Option PortalReply) :
    Through (Finding m k rows) s (s.acquirePortalSecret reply).1 := by
  cases reply with
  | none => exact .refl h
  | some reply =>
    unfold SecureStore.acquirePortalSecret
    dsimp only
    split
    · exact .refl h
    · exact (Through.refl h).write (.portalToken reply.token) (h.token _)

/-- A secret that is found is not made. -/
theorem Finding.keyed (h : Finding m k rows d) : ¬d.Unkeyed m := fun hunkeyed =>
  nomatch h.finds.symm.trans (finds_unkeyed hunkeyed)

/-- The device's secret is read, and nothing is written. -/
theorem Finding.acquireLocalSecret (h : Finding m k rows s.disk) (hlocal : s.disk.provider = "local-v1") :
    Through (Finding m k rows) s (s.acquireLocalSecret m).1 := by
  unfold SecureStore.acquireLocalSecret
  split
  · exact .refl h
  · next hnone =>
    exact absurd ⟨hlocal ▸ by decide, hnone, .inl hlocal⟩ h.keyed

theorem Finding.acquireMasterSecret (h : Finding m k rows s.disk) :
    Through (Finding m k rows) s (s.acquireMasterSecret m).1 := by
  unfold SecureStore.acquireMasterSecret
  split
  · exact h.acquirePortalSecret m.portal
  · next hportal =>
    split
    · next hlocal => exact h.acquireLocalSecret hlocal
    · next hlocal =>
      split
      · next hheld =>
        obtain ⟨secret, hsecret⟩ := Option.ne_none_iff_exists'.mp hheld
        have hk : secret = k := Option.some.inj ((finds_device hportal hsecret).symm.trans h.finds)
        have hmarked : Finding m k rows (s.write (.provider "local-v1")).disk :=
          ⟨hk ▸ finds_device (fun hother => by simp [Disk.apply] at hother) hsecret, h.rows⟩
        exact ((Through.refl h).write (.provider "local-v1") hmarked).trans (hmarked.acquireLocalSecret rfl)
      · next hheld =>
        -- A secret is found, so the portal hands it over.
        have hanswers : m.flatpak = true ∧ usable m.portal ≠ [] := by
          by_contra hsilent
          refine h.keyed ⟨hportal, not_not.mp hheld, .inr ?_⟩
          by_cases hflatpak : m.flatpak = true
          · exact .inr (not_not.mp fun hsome => hsilent ⟨hflatpak, hsome⟩)
          · exact .inl (by simpa using hflatpak)
        have hasked := h.acquirePortalSecret m.portal
        have hsecret := s.acquirePortalSecret_secret m.portal
        simp only [hanswers.1, if_true, hsecret, ne_eq, hanswers.2, not_false_eq_true]
        have hlast := hasked.last
        refine hasked.write (.provider "portal-v1") ⟨?_, hlast.rows⟩
        have hk : usable m.portal = k := by
          have hfinds := h.finds
          rw [Disk.finds, if_neg h.keyed, Disk.key_device hportal, not_not.mp hheld] at hfinds
          exact Option.some.inj hfinds
        exact hk ▸ finds_portal rfl

theorem Finding.masterSecret (h : Finding m k rows s.disk) :
    Through (Finding m k rows) s (s.masterSecret m) := by
  unfold SecureStore.masterSecret
  split
  · exact h.acquireMasterSecret.hold _
  · exact .refl h

theorem Finding.fillKeyFile (h : Finding m k rows s.disk) (hportal : s.disk.provider = "portal-v1")
    (contents : Bytes) : Through (Finding m k rows) s (s.fillKeyFile contents) :=
  ((Through.refl h).write (.keyFile (some [])) (h.file hportal (some []))).write (.keyFile (some contents))
    (h.file hportal (some contents))

namespace SecureStore

theorem toDevice_moved (hcarried : (s.masterSecret m).master ≠ []) (hwritten : m.write = .written) :
    s.toDevice m =
      ({((s.masterSecret m).fillKeyFile (s.masterSecret m).master).write (.provider "local-v1") with
          master := (s.masterSecret m).master}, .moved) := by
  simp [toDevice, hcarried, writeLocalSecret, hwritten]

theorem toKeyring_moved {answer : Option PortalReply} (hanswered : usable answer ≠ [])
    (hsame : ((s.acquirePortalSecret answer).1.masterSecret m).master = usable answer) :
    s.toKeyring answer m =
      ({(((s.acquirePortalSecret answer).1.masterSecret m).write (.provider "portal-v1")).removeKeyFile m with
          master := usable answer}, .moved) := by
  simp [toKeyring, acquirePortalSecret_secret, hanswered, hsame]

end SecureStore

/-- Whatever is written on the way to the device, the secret is found. -/
theorem Finding.toDevice (h : Finding m k rows s.disk) (hportal : s.disk.provider = "portal-v1")
    (hlong : keyLength ≤ k.length) (hused : (s.masterSecret m).master = k) (hwritten : m.write = .written) :
    Through (Finding m k rows) s (s.toDevice m).1 := by
  have hcarried : (s.masterSecret m).master ≠ [] := by
    rw [hused]
    exact long_ne_nil hlong
  have hmaster := h.masterSecret
  have hfile := hmaster.trans (hmaster.last.fillKeyFile (s.masterSecret_portal hportal m).1 (s.masterSecret m).master)
  rw [SecureStore.toDevice_moved hcarried hwritten]
  refine (hfile.write (.provider "local-v1") ⟨?_, hfile.last.rows⟩).hold _
  exact finds_device (fun hother => by simp [Disk.apply] at hother) (localSecret_some (hused ▸ rfl) hlong)

/-- And on the way to the keyring, if it has the same secret. -/
theorem Finding.toKeyring (h : Finding m k rows s.disk) (hanswered : usable m.portal ≠ [])
    (hsame : ((s.acquirePortalSecret m.portal).1.masterSecret m).master = usable m.portal)
    (hk : usable m.portal = k) : Through (Finding m k rows) s (s.toKeyring m.portal m).1 := by
  have hasked := h.acquirePortalSecret m.portal
  have hused := hasked.trans hasked.last.masterSecret
  have hmarked := hused.write (.provider "portal-v1")
    ⟨hk ▸ finds_portal rfl, hused.last.rows⟩
  rw [SecureStore.toKeyring_moved hanswered hsame]
  refine Through.hold ?_ _
  unfold SecureStore.removeKeyFile
  split
  · exact hmarked.write (.keyFile none) (hmarked.last.file rfl none)
  · exact hmarked

/-! ### All or nothing -/

/-- The secret in use is the one a launch would acquire, at the latest when the keyring
it came from is unlocked. -/
def Current (m : Moment) (s : SecureStore) : Prop :=
  s.master = [] ∨ (∀ m', SameSite m m' → ((SecureStore.fresh s.disk).masterSecret m').master = s.master) ∨
    s.disk.provider = "portal-v1" ∧ usable m.portal = [] ∧ keyLength ≤ s.master.length

/-- What a switch from `s` that ends in `s'` with this result owes. -/
structure AllOrNothing (C : Crypto) (m : Moment) (target : StorageKind) (s s' : SecureStore)
    (result : SwitchResult) : Prop where
  /-- A switch that fails changes nothing that is retrieved, by this instance or the next. -/
  kept : result = .failed ∨ result = .unchanged → ∀ m', SameSite m m' → ∀ key ctx,
    (s'.retrieve C key ctx m').2 = (s.retrieve C key ctx m').2 ∧
      ((SecureStore.fresh s'.disk).retrieve C key ctx m').2 = ((SecureStore.fresh s.disk).retrieve C key ctx m').2
  /-- One that moves the secret keeps every row that could be had, for both. -/
  moved : result = .moved → s'.storage = target ∧ ∀ key ctx plaintext,
    Retrieves C m s key ctx plaintext ∨ Retrieves C m (.fresh s.disk) key ctx plaintext →
      Retrieves C m s' key ctx plaintext ∧ Retrieves C m (.fresh s'.disk) key ctx plaintext
  /-- Wherever it is stopped, the next launch has those rows back. -/
  stopped : result = .moved → ∀ writes, s.log ++ writes <+: s'.log → ∀ key ctx plaintext,
    Retrieves C m (.fresh s.disk) key ctx plaintext →
      Retrieves C m (.fresh (writes.foldl Disk.apply s.disk)) key ctx plaintext
  /-- One that begins a new secret leaves no row, and the secret is found. -/
  reset : result = .reset → (∀ key, s'.disk.secrets key = none) ∧ s'.master ≠ [] ∧
    s'.disk.finds m = some s'.master

/-- Nothing retrieved depends on the token, or on the file while the keyring is chosen. -/
theorem kept_of_acquired (hsecrets : s'.disk.secrets = s.disk.secrets)
    (hmaster : ∀ m', SameSite m m' → (s'.masterSecret m').master = (s.masterSecret m').master)
    (hfinds : s'.disk.finds m = s.disk.finds m) : ∀ m', SameSite m m' → ∀ key ctx,
    (s'.retrieve C key ctx m').2 = (s.retrieve C key ctx m').2 ∧
      ((SecureStore.fresh s'.disk).retrieve C key ctx m').2 =
        ((SecureStore.fresh s.disk).retrieve C key ctx m').2 := by
  intro m' hsite key ctx
  refine ⟨SecureStore.retrieve_congr hsecrets (hmaster m' hsite) key ctx, ?_⟩
  have hrows : (SecureStore.fresh s'.disk).disk.secrets = (SecureStore.fresh s.disk).disk.secrets := hsecrets
  refine SecureStore.retrieve_congr hrows ?_ key ctx
  rw [SecureStore.fresh_master, SecureStore.fresh_master, Disk.acquired, Disk.acquired, hsite.finds, hsite.finds,
    hfinds]

/-- A secret that is found is the one in use. -/
theorem Current.used (h : Current m s) (hfinds : s.disk.finds m = some k) (hk : k ≠ []) :
    (s.masterSecret m).master = k := by
  rw [SecureStore.masterSecret_master]
  have hacquired := acquired_of_finds hfinds (.refl m)
  obtain hnone | hsame | ⟨hportal, hsilent, -⟩ := h
  · rw [if_pos hnone, hacquired]
  · have hmaster := hsame m (.refl m)
    rw [SecureStore.fresh_master, hacquired] at hmaster
    rw [if_neg (hmaster ▸ hk), hmaster]
  · rw [finds_portal hportal, hsilent] at hfinds
    exact absurd (Option.some.inj hfinds).symm hk

/-- What could be had, by this instance or the next, opens under the secret in use. -/
theorem Current.opens (h : Current m s)
    (hhad : Retrieves C m s key ctx plaintext ∨ Retrieves C m (.fresh s.disk) key ctx plaintext) :
    Opens C s.disk.secrets (s.masterSecret m).master key ctx plaintext := by
  obtain hhere | hnext := hhad
  · exact hhere.opens.2
  · obtain ⟨k, hk, hfinds, hopens⟩ := hnext.finds
    exact (h.used hfinds hk).symm ▸ hopens

/-- A secret in use is long enough to be a key. -/
theorem Current.long (h : Current m s) (hused : (s.masterSecret m).master ≠ []) :
    keyLength ≤ (s.masterSecret m).master.length := by
  obtain ⟨hcached, hsame⟩ | ⟨-, hacquires, -⟩ := s.masterSecret_cases m
  · rw [hsame]
    obtain hnone | hacquired | ⟨-, -, hlong⟩ := h
    · exact absurd hnone hcached
    · obtain ⟨hcontra, -⟩ | ⟨-, hacquires, -⟩ := (SecureStore.fresh s.disk).masterSecret_cases m
      · exact absurd rfl hcontra
      · rw [hacquired m (.refl m)] at hacquires
        exact hacquires.length hcached
    · exact hlong
  · exact hacquires.length hused

theorem toDevice_all_or_nothing (hportal : s.disk.provider = "portal-v1") (htruthful : m.write.Truthful)
    (hcurrent : Current m s) : AllOrNothing C m .device s (s.toDevice m).1 (s.toDevice m).2 := by
  obtain ⟨hprovider, hmaster⟩ := s.masterSecret_portal hportal m
  have hrows := s.masterSecret_secrets m
  have hcases := s.toDevice_cases m
  refine ⟨fun hresult => ?_, fun hresult => ?_, fun hresult => ?_, fun hresult => ?_⟩
  · have hfailed : (s.toDevice m).2 = .failed := by
      refine hresult.resolve_right fun hunchanged => ?_
      rw [hunchanged] at hcases
      cases hcases
    rw [hfailed] at hcases
    cases hcases with
    | failed master file disk =>
      have hstill : (s.toDevice m).1.disk.provider = "portal-v1" := by rw [disk]; exact hprovider
      have hfinds : (s.toDevice m).1.disk.finds m = s.disk.finds m := by
        rw [finds_portal hstill, finds_portal hportal]
      refine kept_of_acquired (by rw [disk]; exact hrows) (fun m' hsite => ?_) hfinds
      rw [SecureStore.masterSecret_master, SecureStore.masterSecret_master, master, hmaster,
        acquired_of_finds (finds_portal hstill) hsite, acquired_of_finds (finds_portal hportal) hsite]
      by_cases hnone : s.master = []
      · simp only [if_pos hnone]
        split
        · rfl
        · rfl
      · simp only [if_neg hnone]
  · rw [hresult] at hcases
    cases hcases with
    | moved carried reports master disk =>
      have hfile : (s.toDevice m).1.disk.keyFile = some (s.masterSecret m).master := by
        simp only [disk, Moment.leaves, written_of_reports reports htruthful]
      have hfinds : (s.toDevice m).1.disk.finds m = some (s.masterSecret m).master :=
        finds_device (by simp [disk]) (localSecret_some hfile (hcurrent.long carried))
      have hsecrets : (s.toDevice m).1.disk.secrets = s.disk.secrets := by rw [disk]; exact hrows
      refine ⟨if_neg (by simp [disk]), fun key ctx plaintext hhad => ?_⟩
      have hopens := hcurrent.opens hhad
      rw [← hsecrets] at hopens
      exact ⟨hopens.retrieves carried fun m' _ => by
          rw [SecureStore.masterSecret_cached (master ▸ carried), master],
        hopens.retrieves_fresh carried hfinds⟩
  · rw [hresult] at hcases
    cases hcases with
    | moved carried reports master disk =>
      intro writes hstop key ctx plaintext hhad
      obtain ⟨k, hk, hfinds, hopens⟩ := hhad.finds
      have hused := hcurrent.used hfinds hk
      have hthrough := Finding.toDevice ⟨hfinds, rfl⟩ hportal (hused ▸ hcurrent.long carried) hused
        (written_of_reports reports htruthful)
      have hdisk := hthrough.stopped hstop
      rw [← hdisk.rows] at hopens
      exact hopens.retrieves_fresh hk hdisk.finds
  · rw [hresult] at hcases
    cases hcases with
    | reset carried reports secret random master disk =>
      have hfile : (s.toDevice m).1.disk.keyFile = some secret.bytes := by
        simp only [disk, Moment.leaves, written_of_reports reports htruthful]
      refine ⟨fun key => by rw [disk], ?_, ?_⟩
      · rw [master]
        exact long_ne_nil secret.long
      · rw [master]
        exact finds_device (by simp [disk]) (localSecret_some hfile secret.long)

/-- Asking the portal does not change the secret in use. -/
theorem asked_used (s : SecureStore) (reply : Option PortalReply) (m : Moment) :
    ((s.acquirePortalSecret reply).1.masterSecret m).master = (s.masterSecret m).master := by
  obtain ⟨token, hdisk, hmaster⟩ := s.acquirePortalSecret_disk reply
  have hfinds : (s.acquirePortalSecret reply).1.disk.finds m = s.disk.finds m := by
    rw [hdisk]
    exact finds_congr rfl rfl m
  rw [SecureStore.masterSecret_master, SecureStore.masterSecret_master, hmaster, Disk.acquired, Disk.acquired, hfinds]

theorem toKeyring_all_or_nothing (hcurrent : Current m s) :
    AllOrNothing C m .keyring s (s.toKeyring m.portal m).1 (s.toKeyring m.portal m).2 := by
  obtain ⟨token, hdisk, hkept⟩ := s.acquirePortalSecret_disk m.portal
  have hrows : ((s.acquirePortalSecret m.portal).1.masterSecret m).disk.secrets = s.disk.secrets := by
    rw [SecureStore.masterSecret_secrets, hdisk]
  have hcases := s.toKeyring_cases m.portal m
  refine ⟨fun hresult => ?_, fun hresult => ?_, fun hresult => ?_, fun hresult => ?_⟩
  · have hfailed : (s.toKeyring m.portal m).2 = .failed := by
      refine hresult.resolve_right fun hunchanged => ?_
      rw [hunchanged] at hcases
      cases hcases
    rw [hfailed] at hcases
    cases hcases with
    | failed silent unchanged =>
      rw [unchanged]
      refine kept_of_acquired (by rw [hdisk]) (fun m' _ => asked_used s m.portal m') ?_
      rw [hdisk]
      exact finds_congr rfl rfl m
  · rw [hresult] at hcases
    cases hcases with
    | moved answered same master disk =>
      have hsecrets : (s.toKeyring m.portal m).1.disk.secrets = s.disk.secrets := by rw [disk]; exact hrows
      have hfinds : (s.toKeyring m.portal m).1.disk.finds m = some (usable m.portal) :=
        finds_portal (by rw [disk])
      refine ⟨if_pos (by rw [disk]), fun key ctx plaintext hhad => ?_⟩
      have hopens := hcurrent.opens hhad
      rw [← asked_used s m.portal m, same, ← hsecrets] at hopens
      exact ⟨hopens.retrieves answered fun m' _ => by
          rw [SecureStore.masterSecret_cached (master ▸ answered), master],
        hopens.retrieves_fresh answered hfinds⟩
  · rw [hresult] at hcases
    cases hcases with
    | moved answered same master disk =>
      intro writes hstop key ctx plaintext hhad
      obtain ⟨k, hk, hfinds, hopens⟩ := hhad.finds
      have hused : usable m.portal = k := by
        rw [← same, asked_used]
        exact hcurrent.used hfinds hk
      have hfound := (Finding.toKeyring ⟨hfinds, rfl⟩ answered same hused).stopped hstop
      rw [← hfound.rows] at hopens
      exact hopens.retrieves_fresh hk hfound.finds
  · rw [hresult] at hcases
    cases hcases with
    | reset answered other master disk =>
      refine ⟨fun key => by rw [disk], master ▸ answered, ?_⟩
      rw [master]
      exact finds_portal (by rw [disk])

theorem setStorage_all_or_nothing (target : StorageKind) (htruthful : m.write.Truthful) (hcurrent : Current m s) :
    AllOrNothing C m target s (s.setStorage target m.portal m).1 (s.setStorage target m.portal m).2 := by
  unfold SecureStore.setStorage
  split
  · exact
      { kept := fun _ m' _ key ctx => ⟨rfl, rfl⟩
        moved := fun h => nomatch h
        stopped := fun h => nomatch h
        reset := fun h => nomatch h }
  · next hmoves =>
    cases target with
    | device =>
      have hportal : s.disk.provider = "portal-v1" := by
        by_contra hother
        exact hmoves (if_neg hother).symm
      exact toDevice_all_or_nothing hportal htruthful hcurrent
    | keyring => exact toKeyring_all_or_nothing hcurrent

/-! ### With tokens in memory -/

/-- `QJsonDocument::toJson`, in its compact form. -/
structure JsonText where
  compact : Json → Bytes
  compact_ne_nil : ∀ fields, compact (.object fields) ≠ []

/-- Objects of plain texts, which is what the tokens are. -/
def plainText : Json → Bytes
  | .object fields =>
    let members := fields.map fun f => "\"" ++ f.1 ++ "\":\"" ++ f.2.toString "" ++ "\""
    utf8 "\x7b" ++ utf8 (String.intercalate "," members) ++ utf8 "\x7d"
  | _ => []

theorem plainText_ne_nil (fields : List (String × Json)) : plainText (.object fields) ≠ [] := fun h =>
  have hlast := (List.append_eq_nil_iff.mp h).2
  absurd hlast (by decide +kernel)

instance : Inhabited JsonText := ⟨{compact := plainText, compact_ne_nil := plainText_ne_nil}⟩

namespace TokenStore
variable {κ ω : Type} (text : JsonText) (ts : Auth.TokenStore κ ω)

def persist (C : Crypto) (s : SecureStore) (m : Moment) : SecureStore :=
  if ts.serverKey = "" then s else s.store C ts.row (text.compact ts.tokensJson) ts.context m

/-- The tokens in memory are saved again under whatever secret there is now. -/
def setStorage (C : Crypto) (s : SecureStore) (target : StorageKind) (answer : Option PortalReply) (m : Moment) :
    SecureStore × SwitchResult :=
  let (s, result) := s.setStorage target answer m
  if (result = .moved ∨ result = .reset) ∧ ts.hasTokens then (persist text ts C s m, result) else (s, result)

variable {text ts}

/-- What is saved under a secret the disk has is had back. -/
theorem persist_retrieves (hserver : ts.serverKey ≠ "") (hnonce : m.nonce ≠ none) (hmaster : s.master ≠ [])
    (hfinds : s.disk.finds m = some s.master) :
    Retrieves C m (.fresh (persist text ts C s m).disk) ts.row ts.context (text.compact ts.tokensJson) := by
  have hused := SecureStore.masterSecret_cached hmaster m
  have hsome : (s.masterSecret m).master ≠ [] := by rwa [hused]
  obtain ⟨blob, hsealing, hstore⟩ :=
    SecureStore.store_writes C ts.row (text.compact ts.tokensJson) ts.context hsome hnonce
  rw [persist, if_neg hserver, hstore, hused]
  rw [hused] at hsealing
  refine Opens.retrieves_fresh (k := s.master) ⟨text.compact_ne_nil _, blob, if_pos rfl, hsealing⟩ hmaster ?_
  exact (finds_congr rfl rfl m).trans hfinds

/-- **Switching is all or nothing.** For every state and each target, with writes of the
key file reported as they went and a secret in use that a launch would acquire too: a
switch that fails changes nothing that is retrieved, one that moves the secret keeps
every row that could be had, wherever it is stopped, and one that begins a new secret
leaves no row but, where the token store made it, the tokens in memory. -/
theorem switch_all_or_nothing (C : Crypto) (text : JsonText) (ts : Auth.TokenStore κ ω) (s : SecureStore)
    (target : StorageKind) (m : Moment) (htruthful : m.write.Truthful) (hcurrent : Current m s) :
    AllOrNothing C m target s (s.setStorage target m.portal m).1 (s.setStorage target m.portal m).2 ∧
      (ts.hasTokens = true → ts.serverKey ≠ "" → m.nonce ≠ none →
        (setStorage text ts C s target m.portal m).2 = .reset →
        Retrieves C m (.fresh (setStorage text ts C s target m.portal m).1.disk) ts.row ts.context
          (text.compact ts.tokensJson)) := by
  have hall := setStorage_all_or_nothing (C := C) target htruthful hcurrent
  refine ⟨hall, fun htokens hserver hnonce hreset => ?_⟩
  unfold setStorage at hreset ⊢
  generalize s.setStorage target m.portal m = switched at hall hreset ⊢
  obtain ⟨s', result⟩ := switched
  dsimp only at hall hreset ⊢
  have hresult : result = .reset := by
    split at hreset
    · exact hreset
    · exact hreset
  rw [if_pos ⟨.inr hresult, htokens⟩]
  obtain ⟨-, hmaster, hfinds⟩ := hall.reset hresult
  exact persist_retrieves hserver hnonce hmaster hfinds

/-- A sign-in whose keyring is locked when it moves to the device. -/
def sampleTokens : Auth.TokenStore Unit Unit :=
  { api := {endpoints := default}
    serverKey := "9a0b"
    accountId := "root"
    accessToken := "a1"
    refreshToken := "r1" }

def lockedKeyring : SecureStore :=
  .fresh {provider := "portal-v1", secrets := fun key => if key = "9a0b/tokens" then some [2, 9] else none}

def lockedMoment : Moment :=
  {secret := some ⟨List.replicate 32 8, List.length_replicate⟩, nonce := SecureStore.sampleMoment.nonce}

theorem locked_keyring_reset :
    (setStorage default sampleTokens default lockedKeyring .device lockedMoment.portal lockedMoment).2 = .reset ∧
      Retrieves default lockedMoment
        (.fresh (setStorage default sampleTokens default lockedKeyring .device lockedMoment.portal lockedMoment).1.disk)
        "9a0b/tokens" sampleTokens.context ((default : JsonText).compact sampleTokens.tokensJson) := by
  have hreset : (setStorage default sampleTokens default lockedKeyring .device lockedMoment.portal lockedMoment).2 =
      .reset := by decide +kernel
  have h := switch_all_or_nothing default default sampleTokens lockedKeyring .device lockedMoment trivial (.inl rfl)
  exact ⟨hreset, h.2 (by decide +kernel) (by decide +kernel) (by decide +kernel) hreset⟩

end TokenStore

end ShelfRemote.Storage
