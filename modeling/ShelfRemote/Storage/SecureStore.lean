import ShelfRemote.Storage.Cipher

/-! The secrets of one launch, over what outlives it.

The master secret comes from the keyring, through the portal, or from `master.key`
on this device. A marker in the settings says which, once one has been chosen, and
an instance keeps the secret it got. What the rest of the machine does while an
operation runs, from the portal's answer to whether the file can be written, is
given with the operation (`Moment`). -/
namespace ShelfRemote.Storage
open Qt Auth

/-! ### What outlives a launch -/

structure Disk where
  /-- The setting `secretProvider`: `portal-v1`, `local-v1`, or nothing chosen yet. -/
  provider : String := ""
  /-- The setting `secretPortalToken`. -/
  portalToken : String := ""
  /-- The contents of `master.key`. -/
  keyFile : Option Bytes := none
  secrets : String → Option Bytes := fun _ => none

/-- One write to it. -/
inductive Write where
  | provider (marker : String)
  | portalToken (token : String)
  /-- The key file is given these contents, or removed. -/
  | keyFile (contents : Option Bytes)
  | secret (key : String) (blob : Bytes)
  | removeSecret (key : String)
  | removeAllSecrets
  deriving DecidableEq

namespace Disk

def apply (d : Disk) : Write → Disk
  | .provider marker => {d with provider := marker}
  | .portalToken token => {d with portalToken := token}
  | .keyFile contents => {d with keyFile := contents}
  | .secret key blob => {d with secrets := fun k => if k = key then some blob else d.secrets k}
  | .removeSecret key => {d with secrets := fun k => if k = key then none else d.secrets k}
  | .removeAllSecrets => {d with secrets := fun _ => none}

def getSecret (d : Disk) (key : String) : Bytes := (d.secrets key).getD []

/-- `hasExistingLocalSecret`: a key file long enough to be one. -/
def localSecret (d : Disk) : Option Bytes := d.keyFile.filter fun k => keyLength ≤ k.length

end Disk

/-! ### What the machine does meanwhile -/

/-- The secret the portal hands over, and the continuation token if it gave a new one. -/
structure PortalReply where
  secret : Bytes
  token : String := ""

/-- What becomes of a write of `master.key`. -/
inductive WriteOutcome where
  | written
  /-- It could not be opened. -/
  | denied
  /-- It was cut short, and is removed again. -/
  | short (size : Nat)
  /-- It was cut short, and nobody was told. -/
  | lost (size : Nat)
  deriving DecidableEq

def WriteOutcome.Truthful : WriteOutcome → Prop
  | .lost _ => False
  | _ => True

instance : DecidablePred WriteOutcome.Truthful
  | .written => .isTrue trivial
  | .denied => .isTrue trivial
  | .short _ => .isTrue trivial
  | .lost _ => .isFalse id

structure Moment where
  flatpak : Bool := false
  /-- The portal's answer, or its silence. -/
  portal : Option PortalReply := none
  /-- A new master secret, unless the generator fails. -/
  secret : Option (Drawn 32) := none
  nonce : Option (Drawn 12) := none
  write : WriteOutcome := .written
  /-- Whether `master.key` can be removed. -/
  removes : Bool := true

/-! ### The store -/

inductive StorageKind where
  | keyring
  | device
  deriving DecidableEq

inductive SwitchResult where
  | unchanged
  | moved
  | reset
  | failed
  deriving DecidableEq

structure SecureStore where
  disk : Disk
  /-- The master secret, once acquired. -/
  master : Bytes := []
  /-- History: what was written, oldest first. -/
  log : List Write := []

namespace SecureStore

/-- A new instance, as a launch makes one. -/
def fresh (d : Disk) : SecureStore := {disk := d}

def write (s : SecureStore) (w : Write) : SecureStore := {s with disk := s.disk.apply w, log := s.log ++ [w]}

def removeKeyFile (s : SecureStore) (m : Moment) : SecureStore :=
  if m.removes then s.write (.keyFile none) else s

/-- The key file is emptied before it is written. -/
def fillKeyFile (s : SecureStore) (contents : Bytes) : SecureStore :=
  (s.write (.keyFile (some []))).write (.keyFile (some contents))

def writeLocalSecret (s : SecureStore) (secret : Bytes) (m : Moment) : SecureStore × Bool :=
  match m.write with
  | .written => (s.fillKeyFile secret, true)
  | .denied => (s, false)
  | .short size => ((s.fillKeyFile (secret.dropLast.take size)).removeKeyFile m, false)
  | .lost size => (s.fillKeyFile (secret.dropLast.take size), true)

/-- A new key is used whether or not it could be written. -/
def acquireLocalSecret (s : SecureStore) (m : Moment) : SecureStore × Bytes :=
  match s.disk.localSecret with
  | some k => (s, k)
  | none =>
    match m.secret with
    | none => (s, [])
    | some secret => ((s.writeLocalSecret secret.bytes m).1, secret.bytes)

def acquirePortalSecret (s : SecureStore) (reply : Option PortalReply) : SecureStore × Bytes :=
  match reply with
  | none => (s, [])
  | some reply =>
    let s := if reply.token = "" then s else s.write (.portalToken reply.token)
    (s, if reply.secret.length < keyLength then [] else reply.secret)

/-- A provider that was chosen is kept; a first one is chosen here. -/
def acquireMasterSecret (s : SecureStore) (m : Moment) : SecureStore × Bytes :=
  if s.disk.provider = "portal-v1" then s.acquirePortalSecret m.portal
  else if s.disk.provider = "local-v1" then s.acquireLocalSecret m
  else if s.disk.localSecret ≠ none then (s.write (.provider "local-v1")).acquireLocalSecret m
  else
    let (s, portal) := if m.flatpak then s.acquirePortalSecret m.portal else (s, [])
    if portal ≠ [] then (s.write (.provider "portal-v1"), portal)
    else (s.write (.provider "local-v1")).acquireLocalSecret m

def masterSecret (s : SecureStore) (m : Moment) : SecureStore :=
  if s.master = [] then
    let (s, master) := s.acquireMasterSecret m
    {s with master}
  else s

def storage (s : SecureStore) : StorageKind := if s.disk.provider = "portal-v1" then .keyring else .device

variable (C : Crypto)

def store (s : SecureStore) (key : String) (plaintext : Bytes) (ctx : SecretContext) (m : Moment) : SecureStore :=
  let s := s.masterSecret m
  if s.master = [] then s
  else
    let blob := C.encrypt s.master m.nonce plaintext (aad ctx)
    if blob = [] then s else s.write (.secret key blob)

def retrieve (s : SecureStore) (key : String) (ctx : SecretContext) (m : Moment) :
    SecureStore × RetrieveStatus × Bytes :=
  let blob := s.disk.getSecret key
  if blob = [] then (s, .missing, [])
  else
    let s := s.masterSecret m
    if s.master = [] then (s, .providerUnavailable, [])
    else
      let plaintext := C.decrypt s.master blob (aad ctx)
      if plaintext = [] then (s, .undecryptable, []) else (s, .ok, plaintext)

def remove (s : SecureStore) (key : String) : SecureStore := s.write (.removeSecret key)

/-- The secret of the keyring is carried over to the device, or a new one is begun. -/
def toDevice (s : SecureStore) (m : Moment) : SecureStore × SwitchResult :=
  let s := s.masterSecret m
  match if s.master = [] then m.secret.map Drawn.bytes else some s.master with
  | none => (s, .failed)
  | some secret =>
    let carried := s.master ≠ []
    let (s, ok) := s.writeLocalSecret secret m
    if !ok then (s, .failed)
    else
      let s := {s.write (.provider "local-v1") with master := secret}
      if carried then (s, .moved) else (s.write .removeAllSecrets, .reset)

/-- The secret of the keyring is adopted. The portal is asked first, as `answer`, and
perhaps once more for the secret in use. -/
def toKeyring (s : SecureStore) (answer : Option PortalReply) (m : Moment) : SecureStore × SwitchResult :=
  let (s, portal) := s.acquirePortalSecret answer
  if portal = [] then (s, .failed)
  else
    let s := s.masterSecret m
    let previous := s.master
    let s := {(s.write (.provider "portal-v1")).removeKeyFile m with master := portal}
    if previous ≠ portal then (s.write .removeAllSecrets, .reset) else (s, .moved)

def setStorage (s : SecureStore) (target : StorageKind) (answer : Option PortalReply) (m : Moment) :
    SecureStore × SwitchResult :=
  if target = s.storage then (s, .unchanged)
  else
    match target with
    | .device => s.toDevice m
    | .keyring => s.toKeyring answer m

end SecureStore

end ShelfRemote.Storage
