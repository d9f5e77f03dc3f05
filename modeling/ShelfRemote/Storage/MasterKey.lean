import ShelfRemote.Storage.SecureStore

/-! Where the master secret comes from.

`Acquires` says once what acquiring can come to: the portal's secret, the secret in the
file, or a new one. From it follows what a launch finds on a disk whatever else happens
(`Disk.finds`), and that acquiring a secret leaves a disk on which it is found again,
unless it is a new one that could not be written (`Acquires.found_again`). -/
namespace ShelfRemote.Storage
open Qt Auth

/-- The secret a reply of the portal is good for. -/
def usable : Option PortalReply → Bytes
  | none => []
  | some reply => if reply.secret.length < keyLength then [] else reply.secret

theorem usable_length {reply : Option PortalReply} (h : usable reply ≠ []) : keyLength ≤ (usable reply).length := by
  cases reply with
  | none => exact absurd rfl h
  | some reply =>
    simp only [usable] at h ⊢
    split at h
    · exact absurd rfl h
    · next hlong =>
      rw [if_neg hlong]
      exact Nat.le_of_not_lt hlong

theorem long_ne_nil {secret : Bytes} (h : keyLength ≤ secret.length) : secret ≠ [] :=
  List.ne_nil_of_length_pos (Nat.lt_of_lt_of_le (by decide) h)

/-- What a write leaves in the file. -/
def Moment.leaves (m : Moment) (secret : Bytes) (file : Option Bytes) : Option Bytes :=
  match m.write with
  | .written => some secret
  | .denied => file
  | .short size => if m.removes then none else some (secret.dropLast.take size)
  | .lost size => some (secret.dropLast.take size)

/-- What it says of itself. -/
def Moment.reports (m : Moment) : Bool :=
  match m.write with
  | .written | .lost _ => true
  | .denied | .short _ => false

namespace SecureStore

@[simp] theorem write_disk (s : SecureStore) (w : Write) : (s.write w).disk = s.disk.apply w := rfl

@[simp] theorem write_master (s : SecureStore) (w : Write) : (s.write w).master = s.master := rfl

theorem removeKeyFile_disk (s : SecureStore) (m : Moment) :
    (s.removeKeyFile m).disk = {s.disk with keyFile := if m.removes then none else s.disk.keyFile} := by
  unfold removeKeyFile
  split <;> rfl

theorem removeKeyFile_master (s : SecureStore) (m : Moment) : (s.removeKeyFile m).master = s.master := by
  unfold removeKeyFile
  split <;> rfl

theorem writeLocalSecret_disk (s : SecureStore) (secret : Bytes) (m : Moment) :
    (s.writeLocalSecret secret m).1.disk = {s.disk with keyFile := m.leaves secret s.disk.keyFile} := by
  unfold writeLocalSecret Moment.leaves
  cases m.write with
  | written | denied | lost => rfl
  | short size =>
    dsimp only
    rw [removeKeyFile_disk]
    rfl

theorem writeLocalSecret_master (s : SecureStore) (secret : Bytes) (m : Moment) :
    (s.writeLocalSecret secret m).1.master = s.master := by
  unfold writeLocalSecret
  cases m.write with
  | written | denied | lost => rfl
  | short size => exact removeKeyFile_master ..

theorem writeLocalSecret_reports (s : SecureStore) (secret : Bytes) (m : Moment) :
    (s.writeLocalSecret secret m).2 = m.reports := by
  unfold writeLocalSecret Moment.reports
  cases m.write <;> rfl

theorem acquirePortalSecret_secret (s : SecureStore) (reply : Option PortalReply) :
    (s.acquirePortalSecret reply).2 = usable reply := by
  cases reply <;> rfl

/-- Asking the portal writes a token at most. -/
theorem acquirePortalSecret_disk (s : SecureStore) (reply : Option PortalReply) :
    ∃ token, (s.acquirePortalSecret reply).1.disk = {s.disk with portalToken := token} ∧
      (s.acquirePortalSecret reply).1.master = s.master := by
  cases reply with
  | none => exact ⟨s.disk.portalToken, rfl, rfl⟩
  | some reply =>
    unfold acquirePortalSecret
    dsimp only
    split
    · exact ⟨s.disk.portalToken, rfl, rfl⟩
    · exact ⟨reply.token, rfl, rfl⟩

end SecureStore

/-! ### Acquiring -/

/-- No provider yields a secret, and there is none on this device. -/
def Disk.Unkeyed (d : Disk) (m : Moment) : Prop :=
  d.provider ≠ "portal-v1" ∧ d.localSecret = none ∧
    (d.provider = "local-v1" ∨ m.flatpak = false ∨ usable m.portal = [])

instance (d : Disk) (m : Moment) : Decidable (d.Unkeyed m) := inferInstanceAs (Decidable (_ ∧ _ ∧ _))

/-- A secret acquired on one disk, and the provider and the file it leaves. -/
inductive Acquires (d : Disk) (m : Moment) (d' : Disk) : Bytes → Prop where
  | portal (chosen : d.provider = "portal-v1") (provider : d'.provider = "portal-v1")
    (file : d'.keyFile = d.keyFile) : Acquires d m d' (usable m.portal)
  | device (secret : Bytes) (chosen : d.provider ≠ "portal-v1") (held : d.localSecret = some secret)
    (provider : d'.provider ≠ "portal-v1") (file : d'.keyFile = d.keyFile) : Acquires d m d' secret
  | adopted (chosen : d.provider ≠ "portal-v1" ∧ d.provider ≠ "local-v1") (held : d.localSecret = none)
    (flatpak : m.flatpak = true) (answer : usable m.portal ≠ []) (provider : d'.provider = "portal-v1")
    (file : d'.keyFile = d.keyFile) : Acquires d m d' (usable m.portal)
  | failed (unkeyed : d.Unkeyed m) (random : m.secret = none) (provider : d'.provider ≠ "portal-v1")
    (file : d'.keyFile = d.keyFile) : Acquires d m d' []
  | begun (unkeyed : d.Unkeyed m) (secret : Drawn 32) (random : m.secret = some secret)
    (provider : d'.provider = "local-v1") (file : d'.keyFile = m.leaves secret.bytes d.keyFile) :
    Acquires d m d' secret.bytes

namespace SecureStore

/-- The device's own secret, on a disk that says `local-v1` afterwards. -/
theorem acquireLocalSecret_acquires {d : Disk} {s : SecureStore} {m : Moment} (hfile : s.disk.keyFile = d.keyFile)
    (hprovider : s.disk.provider = "local-v1") (hchosen : d.provider ≠ "portal-v1")
    (hnone : d.localSecret = none → d.Unkeyed m) :
    Acquires d m (s.acquireLocalSecret m).1.disk (s.acquireLocalSecret m).2 ∧
      (s.acquireLocalSecret m).1.disk.secrets = s.disk.secrets := by
  have hlocal : s.disk.localSecret = d.localSecret := by simp only [Disk.localSecret, hfile]
  have hnot : s.disk.provider ≠ "portal-v1" := hprovider ▸ by decide
  unfold acquireLocalSecret
  split
  · next secret hheld => exact ⟨.device secret hchosen (hlocal ▸ hheld) hnot hfile, rfl⟩
  · next hheld =>
    have hunkeyed := hnone (hlocal ▸ hheld)
    split
    · next hrandom => exact ⟨.failed hunkeyed hrandom hnot hfile, rfl⟩
    · next secret hrandom =>
      dsimp only
      rw [writeLocalSecret_disk]
      exact ⟨.begun hunkeyed secret hrandom hprovider (by rw [hfile]), rfl⟩

theorem acquireMasterSecret_acquires (s : SecureStore) (m : Moment) :
    Acquires s.disk m (s.acquireMasterSecret m).1.disk (s.acquireMasterSecret m).2 ∧
      (s.acquireMasterSecret m).1.disk.secrets = s.disk.secrets := by
  unfold acquireMasterSecret
  split
  · next hportal =>
    obtain ⟨token, hdisk, -⟩ := acquirePortalSecret_disk s m.portal
    rw [acquirePortalSecret_secret, hdisk]
    exact ⟨.portal hportal hportal rfl, rfl⟩
  · next hportal =>
    split
    · next hlocal =>
      exact acquireLocalSecret_acquires rfl hlocal hportal fun hnone => ⟨hportal, hnone, .inl hlocal⟩
    · next hlocal =>
      split
      · next hheld =>
        exact acquireLocalSecret_acquires (s := s.write (.provider "local-v1")) rfl rfl hportal
          fun hnone => absurd hnone hheld
      · next hheld =>
        have hnone := not_not.mp hheld
        have hasked : ∃ token, (if m.flatpak then s.acquirePortalSecret m.portal else (s, [])).1.disk =
            {s.disk with portalToken := token} := by
          split
          · obtain ⟨token, hdisk, -⟩ := acquirePortalSecret_disk s m.portal
            exact ⟨token, hdisk⟩
          · exact ⟨s.disk.portalToken, rfl⟩
        have hanswer : (if m.flatpak then s.acquirePortalSecret m.portal else (s, [])).2 =
            if m.flatpak then usable m.portal else [] := by
          split
          · exact acquirePortalSecret_secret s m.portal
          · rfl
        obtain ⟨token, hdisk⟩ := hasked
        generalize (if m.flatpak then s.acquirePortalSecret m.portal else (s, [])) = asked at hdisk hanswer
        obtain ⟨asked, portal⟩ := asked
        dsimp only at hdisk hanswer ⊢
        split
        · next hsome =>
          rw [hanswer] at hsome ⊢
          cases hflatpak : m.flatpak with
          | false => simp [hflatpak] at hsome
          | true =>
            simp only [hflatpak, if_true] at hsome ⊢
            refine ⟨.adopted ⟨hportal, hlocal⟩ hnone hflatpak hsome rfl ?_, ?_⟩
            · simp [hdisk, Disk.apply]
            · simp [hdisk, Disk.apply]
        · next hempty =>
          have hunkeyed : s.disk.Unkeyed m := by
            refine ⟨hportal, hnone, .inr ?_⟩
            rw [hanswer] at hempty
            cases hflatpak : m.flatpak with
            | false => exact .inl rfl
            | true => exact .inr (by simpa [hflatpak] using hempty)
          have hacquires := acquireLocalSecret_acquires (d := s.disk) (s := asked.write (.provider "local-v1"))
            (m := m) (by simp [hdisk, Disk.apply]) rfl hportal fun _ => hunkeyed
          exact ⟨hacquires.1, hacquires.2.trans (by simp [hdisk, Disk.apply])⟩

/-- The secret in use is acquired, or was before. -/
theorem masterSecret_cases (s : SecureStore) (m : Moment) :
    (s.master ≠ [] ∧ s.masterSecret m = s) ∨
      (s.master = [] ∧ Acquires s.disk m (s.masterSecret m).disk (s.masterSecret m).master ∧
        (s.masterSecret m).disk.secrets = s.disk.secrets) := by
  unfold masterSecret
  split
  · next hnone => exact .inr ⟨hnone, acquireMasterSecret_acquires s m⟩
  · next hsome => exact .inl ⟨hsome, rfl⟩

theorem masterSecret_secrets (s : SecureStore) (m : Moment) : (s.masterSecret m).disk.secrets = s.disk.secrets := by
  obtain ⟨-, hsame⟩ | ⟨-, -, hsecrets⟩ := s.masterSecret_cases m
  · rw [hsame]
  · exact hsecrets

end SecureStore

/-! ### Found again -/

/-- The secret of a disk, if the portal hands over `portal`. -/
def Disk.key (portal : Bytes) (d : Disk) : Option Bytes :=
  if d.provider = "portal-v1" then some portal else d.localSecret

variable {d d' : Disk} {m : Moment} {secret portal : Bytes}

theorem Disk.key_portal (h : d.provider = "portal-v1") : d.key portal = some portal := if_pos h

theorem Disk.key_device (h : d.provider ≠ "portal-v1") : d.key portal = d.localSecret := if_neg h

theorem localSecret_some {file : Bytes} (hfile : d.keyFile = some file) (hlong : keyLength ≤ file.length) :
    d.localSecret = some file := by
  simp [Disk.localSecret, hfile, Option.filter, hlong]

theorem localSecret_short {file : Bytes} (hfile : d.keyFile = some file) (hshort : file.length < keyLength) :
    d.localSecret = none := by
  simp [Disk.localSecret, hfile, Option.filter, hshort]

theorem localSecret_length (h : d.localSecret = some secret) : keyLength ≤ secret.length := by
  obtain ⟨-, hlong⟩ := Option.filter_eq_some_iff.mp h
  simpa using hlong

theorem Drawn.long (secret : Drawn 32) : keyLength ≤ secret.bytes.length := Nat.le_of_eq secret.length.symm

theorem Drawn.cut (secret : Drawn 32) (size : Nat) : (secret.bytes.dropLast.take size).length < keyLength := by
  rw [List.length_take, List.length_dropLast, secret.length]
  exact Nat.lt_of_le_of_lt (Nat.min_le_right ..) (by decide)

/-- A new secret is read back if it was written. -/
theorem leaves_localSecret (secret : Drawn 32) (hnone : d.localSecret = none)
    (hfile : d'.keyFile = m.leaves secret.bytes d.keyFile) :
    d'.localSecret = if m.write = .written then some secret.bytes else none := by
  unfold Moment.leaves at hfile
  cases hwrite : m.write with
  | written =>
    rw [hwrite] at hfile
    exact localSecret_some hfile secret.long
  | denied =>
    rw [hwrite] at hfile
    simpa [Disk.localSecret, hfile] using hnone
  | short size =>
    rw [hwrite] at hfile
    dsimp only at hfile
    split at hfile
    · simp [Disk.localSecret, hfile]
    · exact localSecret_short hfile (secret.cut size)
  | lost size =>
    rw [hwrite] at hfile
    exact localSecret_short hfile (secret.cut size)

/-- The portal hands over this secret, when it answers. -/
def Steady (portal : Bytes) (reply : Option PortalReply) : Prop := ∀ r, reply = some r → r.secret = portal

theorem Steady.usable {reply : Option PortalReply} (h : Steady portal reply) (hsome : usable reply ≠ []) :
    Storage.usable reply = portal := by
  cases reply with
  | none => exact absurd rfl hsome
  | some r =>
    simp only [Storage.usable, h r rfl] at hsome ⊢
    split at hsome
    · exact absurd rfl hsome
    · next hlong => exact if_neg hlong

/-- A secret the disk has is the one that is acquired, and it stays. -/
theorem Acquires.keeps (h : Acquires d m d' secret) (hsteady : Steady portal m.portal) {k : Bytes}
    (hkey : d.key portal = some k) : d'.key portal = some k ∧ (secret ≠ [] → secret = k) := by
  have hkeyed (hunkeyed : d.Unkeyed m) : False := by
    rw [Disk.key_device hunkeyed.1, hunkeyed.2.1] at hkey
    cases hkey
  cases h with
  | portal chosen provider file =>
    rw [Disk.key_portal chosen] at hkey
    rw [Disk.key_portal provider]
    exact ⟨hkey, fun hsome => (hsteady.usable hsome).trans (Option.some.inj hkey)⟩
  | device _ chosen held provider file =>
    rw [Disk.key_device chosen] at hkey
    rw [Disk.key_device provider]
    exact ⟨by simpa only [Disk.localSecret, file] using hkey, fun _ => Option.some.inj (held.symm.trans hkey)⟩
  | adopted chosen held flatpak answer provider file =>
    rw [Disk.key_device chosen.1, held] at hkey
    cases hkey
  | failed unkeyed => exact (hkeyed unkeyed).elim
  | begun unkeyed => exact (hkeyed unkeyed).elim

/-- An acquired secret is the one the disk has then, if it has one. -/
theorem Acquires.agrees (h : Acquires d m d' secret) (hsteady : Steady portal m.portal) (hsome : secret ≠ [])
    {k : Bytes} (hkey : d'.key portal = some k) : secret = k := by
  cases h with
  | portal chosen provider file =>
    rw [Disk.key_portal provider] at hkey
    exact (hsteady.usable hsome).trans (Option.some.inj hkey)
  | device _ chosen held provider file =>
    rw [Disk.key_device provider] at hkey
    simp only [Disk.localSecret, file] at hkey held
    exact Option.some.inj (held.symm.trans hkey)
  | adopted chosen held flatpak answer provider file =>
    rw [Disk.key_portal provider] at hkey
    exact (hsteady.usable hsome).trans (Option.some.inj hkey)
  | failed => exact absurd rfl hsome
  | begun unkeyed drawn random provider file =>
    rw [Disk.key_device (provider ▸ by decide), leaves_localSecret drawn unkeyed.2.1 file] at hkey
    split at hkey
    · exact Option.some.inj hkey
    · cases hkey

/-- An acquired secret is found again, unless it is new and was not written. -/
theorem Acquires.found_again (h : Acquires d m d' secret) (hsteady : Steady portal m.portal) (hsome : secret ≠ [])
    (hwritten : d.Unkeyed m → m.secret = none ∨ m.write = .written) : d'.key portal = some secret := by
  cases h with
  | portal chosen provider file => rw [Disk.key_portal provider, hsteady.usable hsome]
  | device _ chosen held provider file =>
    rw [Disk.key_device provider]
    simpa only [Disk.localSecret, file] using held
  | adopted chosen held flatpak answer provider file => rw [Disk.key_portal provider, hsteady.usable hsome]
  | failed => exact absurd rfl hsome
  | begun unkeyed drawn random provider file =>
    have hwrite := (hwritten unkeyed).resolve_left (random ▸ Option.some_ne_none _)
    rw [Disk.key_device (provider ▸ by decide), leaves_localSecret drawn unkeyed.2.1 file, if_pos hwrite]

/-- Secrets are never short. -/
theorem Acquires.length (h : Acquires d m d' secret) (hsome : secret ≠ []) : keyLength ≤ secret.length := by
  cases h with
  | portal => exact usable_length hsome
  | device _ _ held => exact localSecret_length held
  | adopted => exact usable_length hsome
  | failed => exact absurd rfl hsome
  | begun _ drawn => exact drawn.long

/-- A write that was reported is read back, or nothing is. -/
theorem leaves_reported (secret : Drawn 32) {file : Option Bytes} (hreports : m.reports = true)
    (hfile : d.keyFile = m.leaves secret.bytes file) {k : Bytes} (hlocal : d.localSecret = some k) :
    secret.bytes = k := by
  unfold Moment.reports at hreports
  unfold Moment.leaves at hfile
  cases hwrite : m.write with
  | written =>
    rw [hwrite] at hfile
    rw [localSecret_some hfile secret.long] at hlocal
    exact Option.some.inj hlocal
  | denied | short => simp [hwrite] at hreports
  | lost size =>
    rw [hwrite] at hfile
    rw [localSecret_short hfile (secret.cut size)] at hlocal
    cases hlocal

/-- An honest report of success is right. -/
theorem written_of_reports (hreports : m.reports = true) (htruthful : m.write.Truthful) : m.write = .written := by
  unfold Moment.reports at hreports
  cases hwrite : m.write with
  | written => rfl
  | denied | short => simp [hwrite] at hreports
  | lost size =>
    rw [hwrite] at htruthful
    exact htruthful.elim

/-! ### Switching -/

namespace SecureStore

/-- Where the keyring is chosen, it is the keyring that is asked. -/
theorem masterSecret_portal {s : SecureStore} (h : s.disk.provider = "portal-v1") (m : Moment) :
    (s.masterSecret m).disk.provider = "portal-v1" ∧
      (s.masterSecret m).master = if s.master = [] then usable m.portal else s.master := by
  obtain ⟨hcached, hsame⟩ | ⟨hnone, hacquires, -⟩ := s.masterSecret_cases m
  · rw [hsame, if_neg hcached]
    exact ⟨h, rfl⟩
  · rw [if_pos hnone]
    generalize hmaster : (s.masterSecret m).master = master at hacquires
    cases hacquires with
    | portal chosen provider file => exact ⟨provider, rfl⟩
    | device _ chosen => exact absurd h chosen
    | adopted chosen => exact absurd h chosen.1
    | failed unkeyed => exact absurd h unkeyed.1
    | begun unkeyed => exact absurd h unkeyed.1

/-- What a switch to the device comes to. -/
inductive ToDevice (used s' : SecureStore) (m : Moment) : SwitchResult → Prop where
  | failed (master : s'.master = used.master) (file : Option Bytes)
    (disk : s'.disk = {used.disk with keyFile := file}) : ToDevice used s' m .failed
  | moved (carried : used.master ≠ []) (reports : m.reports = true) (master : s'.master = used.master)
    (disk : s'.disk = {used.disk with
      provider := "local-v1", keyFile := m.leaves used.master used.disk.keyFile}) : ToDevice used s' m .moved
  | reset (carried : used.master = []) (reports : m.reports = true) (secret : Drawn 32)
    (random : m.secret = some secret) (master : s'.master = secret.bytes)
    (disk : s'.disk = {used.disk with
      provider := "local-v1", keyFile := m.leaves secret.bytes used.disk.keyFile, secrets := fun _ => none}) :
    ToDevice used s' m .reset

theorem toDevice_cases (s : SecureStore) (m : Moment) :
    ToDevice (s.masterSecret m) (s.toDevice m).1 m (s.toDevice m).2 := by
  unfold toDevice
  generalize s.masterSecret m = used
  dsimp only
  cases hsecret : if used.master = [] then m.secret.map Drawn.bytes else some used.master with
  | none => exact .failed rfl used.disk.keyFile rfl
  | some secret =>
    have hdisk := writeLocalSecret_disk used secret m
    have hmaster := writeLocalSecret_master used secret m
    have hreports := writeLocalSecret_reports used secret m
    dsimp only
    generalize used.writeLocalSecret secret m = written at hdisk hmaster hreports ⊢
    obtain ⟨written, ok⟩ := written
    dsimp only at hdisk hmaster hreports ⊢
    subst hreports
    cases hok : m.reports with
    | false => exact .failed hmaster _ hdisk
    | true =>
      by_cases hcarried : used.master = []
      · rw [if_pos hcarried] at hsecret
        obtain ⟨drawn, hrandom, rfl⟩ := Option.map_eq_some_iff.mp hsecret
        simp only [hcarried, ne_eq, not_true_eq_false, if_false, Bool.not_true, Bool.false_eq_true]
        exact .reset hcarried hok drawn hrandom rfl (by simp [Disk.apply, hdisk])
      · rw [if_neg hcarried] at hsecret
        cases hsecret
        simp only [hcarried, ne_eq, not_false_eq_true, if_true, Bool.not_true, Bool.false_eq_true, if_false]
        exact .moved hcarried hok rfl (by simp [Disk.apply, hdisk])

/-- What a switch to the keyring comes to, with `asked` the store once the portal has
been asked. -/
inductive ToKeyring (asked s' : SecureStore) (portal : Bytes) (m : Moment) : SwitchResult → Prop where
  | failed (silent : portal = []) (unchanged : s' = asked) : ToKeyring asked s' portal m .failed
  | moved (answered : portal ≠ []) (same : (asked.masterSecret m).master = portal) (master : s'.master = portal)
    (disk : s'.disk = {(asked.masterSecret m).disk with
      provider := "portal-v1"
      keyFile := if m.removes then none else (asked.masterSecret m).disk.keyFile}) :
    ToKeyring asked s' portal m .moved
  | reset (answered : portal ≠ []) (other : (asked.masterSecret m).master ≠ portal) (master : s'.master = portal)
    (disk : s'.disk = {(asked.masterSecret m).disk with
      provider := "portal-v1"
      keyFile := if m.removes then none else (asked.masterSecret m).disk.keyFile
      secrets := fun _ => none}) : ToKeyring asked s' portal m .reset

theorem toKeyring_cases (s : SecureStore) (answer : Option PortalReply) (m : Moment) :
    ToKeyring (s.acquirePortalSecret answer).1 (s.toKeyring answer m).1 (usable answer) m
      (s.toKeyring answer m).2 := by
  have hsecret := acquirePortalSecret_secret s answer
  unfold toKeyring
  generalize s.acquirePortalSecret answer = asked at hsecret ⊢
  obtain ⟨asked, portal⟩ := asked
  dsimp only at hsecret ⊢
  subst hsecret
  by_cases hsilent : usable answer = []
  · rw [if_pos hsilent]
    exact .failed hsilent rfl
  · rw [if_neg hsilent]
    have hdisk := removeKeyFile_disk ((asked.masterSecret m).write (.provider "portal-v1")) m
    by_cases hsame : (asked.masterSecret m).master = usable answer
    · simp only [hsame, ne_eq, not_true_eq_false, if_false]
      exact .moved hsilent hsame rfl hdisk
    · simp only [hsame, ne_eq, not_false_eq_true, if_true]
      exact .reset hsilent hsame rfl (by simp [Disk.apply, hdisk])

end SecureStore

end ShelfRemote.Storage
