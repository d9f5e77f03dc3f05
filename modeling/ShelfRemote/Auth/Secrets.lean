import ShelfRemote.Net.Endpoints

/-! The secrets table, as the token store sees it.

A row is text sealed under the master secret in a context, or bytes that do not
open under it. Whether the master secret can be had is a property of the moment:
the keyring may be locked now and open later. How the sealing is done is below
this module. -/
namespace ShelfRemote.Auth
open Qt

structure SecretContext where
  serverId : String
  accountId : String
  credType : String
  schemaVersion : Int := 1
  deriving DecidableEq

/-- `SecretContext::aad`: what a sealing is bound to. -/
def SecretContext.aad (ctx : SecretContext) : String :=
  ctx.serverId ++ "\x00" ++ ctx.accountId ++ "\x00" ++ ctx.credType ++ "\x00" ++ toString ctx.schemaVersion

/-- A row of the secrets table, as it opens under the master secret. -/
inductive Blob where
  | sealed (aad : String) (plaintext : Json)
  | foreign

inductive RetrieveStatus where
  | ok
  | missing
  | undecryptable
  | providerUnavailable
  deriving DecidableEq, Repr

structure SecureStore where
  rows : String → Option Blob := fun _ => none
  /-- Whether the master secret can be acquired. -/
  available : Bool := true

namespace SecureStore

/-- Without a master secret the rows stay as they are. -/
def store (s : SecureStore) (key : String) (plaintext : Json) (ctx : SecretContext) : SecureStore :=
  if s.available then
    {s with rows := fun k => if k = key then some (.sealed ctx.aad plaintext) else s.rows k}
  else s

def retrieve (s : SecureStore) (key : String) (ctx : SecretContext) : RetrieveStatus × Json :=
  match s.rows key with
  | none => (.missing, .null)
  | some blob =>
    if s.available then
      match blob with
      | .sealed aad plaintext => if aad = ctx.aad then (.ok, plaintext) else (.undecryptable, .null)
      | .foreign => (.undecryptable, .null)
    else (.providerUnavailable, .null)

def remove (s : SecureStore) (key : String) : SecureStore :=
  {s with rows := fun k => if k = key then none else s.rows k}

/-- Storing takes no row away. -/
theorem store_rows {s : SecureStore} {k : String} (h : s.rows k ≠ none) (key : String)
    (plaintext : Json) (ctx : SecretContext) : (s.store key plaintext ctx).rows k ≠ none := by
  unfold store
  split
  · show (if k = key then some (Blob.sealed ctx.aad plaintext) else s.rows k) ≠ none
    split
    · exact Option.some_ne_none _
    · exact h
  · exact h

end SecureStore

end ShelfRemote.Auth
