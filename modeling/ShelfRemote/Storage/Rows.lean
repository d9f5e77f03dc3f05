import ShelfRemote.Lib.Runs
import ShelfRemote.Storage.Switching

/-! The secrets table the token store sees, and the rows on the disk.

Signing in is modelled over a table that says of each row what opens, and of the machine
whether there is a master secret. Here that table and the rows take the same operations,
side by side. As long as every moment finds the same master secret or none, the rows
stay what the table says of them (`Stands`), and both answer alike (`rows_agree`). -/
namespace ShelfRemote.Storage
open Qt Auth Runs

section Rows
variable {C : Crypto} {text : JsonText} {k : Bytes}

/-- A row under the master secret `k`. An empty one is as good as none. -/
inductive RowStands (C : Crypto) (text : JsonText) (k : Bytes) : Option Blob → Bytes → Prop where
  | missing : RowStands C text k none []
  | sealed {aad : String} {fields : List (String × Json)} {blob : Bytes}
      (h : Crypto.IsSealing C k (utf8 aad) (text.compact (.object fields)) blob) :
      RowStands C text k (some (.sealed aad (.object fields))) blob
  | foreign {blob : Bytes} (hne : blob ≠ []) (h : ∀ aad, C.decrypt k blob aad = []) :
      RowStands C text k (some .foreign) blob

/-- The rows are what the table says of them. -/
def Stands (C : Crypto) (text : JsonText) (k : Bytes) (table : Auth.SecureStore) (s : SecureStore) : Prop :=
  ∀ key, RowStands C text k (table.rows key) (s.disk.getSecret key)

/-- What is retrieved, as the bytes it is read from. -/
def JsonText.answer (text : JsonText) : RetrieveStatus × Json → RetrieveStatus × Bytes
  | (.ok, plaintext) => (.ok, text.compact plaintext)
  | (status, _) => (status, [])

variable {table : Auth.SecureStore} {s s' : SecureStore} {m : Moment}

/-- The machine finds the master secret `k`, or none, and the table says which. -/
def Finds (k : Bytes) (table : Auth.SecureStore) (s : SecureStore) (m : Moment) : Prop :=
  (s.masterSecret m).master = if table.available then k else []

theorem Stands.congr (h : Stands C text k table s) {table' : Auth.SecureStore} (hrows : table'.rows = table.rows)
    (hsecrets : s'.disk.secrets = s.disk.secrets) : Stands C text k table' s' := by
  intro key
  rw [hrows, Disk.getSecret, hsecrets]
  exact h key

theorem retrieve_answer (C : Crypto) (s : SecureStore) (key : String) (ctx : SecretContext) (m : Moment) :
    (s.retrieve C key ctx m).2 =
      if s.disk.getSecret key = [] then (.missing, [])
      else if (s.masterSecret m).master = [] then (.providerUnavailable, [])
      else
        let plaintext := C.decrypt (s.masterSecret m).master (s.disk.getSecret key) (aad ctx)
        if plaintext = [] then (.undecryptable, []) else (.ok, plaintext) := by
  unfold SecureStore.retrieve
  dsimp only
  rw [apply_ite Prod.snd, apply_ite Prod.snd, apply_ite Prod.snd]

/-- Both tables answer alike. -/
theorem Stands.retrieve (h : Stands C text k table s) (hk : k ≠ []) (hfinds : Finds k table s m) (key : String)
    (ctx : SecretContext) : (s.retrieve C key ctx m).2 = text.answer (table.retrieve key ctx) := by
  have hrow := h key
  rw [retrieve_answer, hfinds]
  unfold Auth.SecureStore.retrieve
  generalize s.disk.getSecret key = blob at hrow
  generalize table.rows key = row at hrow
  cases hrow with
  | missing => rfl
  | @sealed aad fields blob hsealing =>
    rw [if_neg hsealing.ne_nil]
    cases table.available with
    | false => rfl
    | true =>
      dsimp only
      rw [if_pos rfl, if_neg hk]
      by_cases haad : aad = ctx.aad
      · have hopened : C.decrypt k blob (Storage.aad ctx) = text.compact (.object fields) := by
          rw [Storage.aad, ← haad]
          exact hsealing.decrypt hk
        rw [hopened, if_neg (text.compact_ne_nil fields), if_pos rfl, if_pos haad]
        rfl
      · have hclosed : C.decrypt k blob (Storage.aad ctx) = [] :=
          hsealing.decrypt_other hk fun he => haad (utf8_injective he).symm
        rw [hclosed, if_pos rfl, if_pos rfl, if_neg haad]
        rfl
  | foreign hne hclosed =>
    rw [if_neg hne]
    cases table.available with
    | false => rfl
    | true =>
      dsimp only
      rw [if_pos rfl, if_neg hk, hclosed, if_pos rfl]
      rfl

/-- A row is written to both tables or to neither. -/
theorem Stands.store (h : Stands C text k table s) (hk : k ≠ []) (hfinds : Finds k table s m)
    (hnonce : m.nonce ≠ none) (key : String) (fields : List (String × Json)) (ctx : SecretContext) :
    Stands C text k (table.store key (.object fields) ctx) (s.store C key (text.compact (.object fields)) ctx m) := by
  unfold Auth.SecureStore.store
  split
  · next havailable =>
    rw [Finds, if_pos havailable] at hfinds
    obtain ⟨blob, hsealing, hstore⟩ :=
      SecureStore.store_writes C key (text.compact (.object fields)) ctx (hfinds ▸ hk) hnonce
    rw [hfinds] at hsealing
    rw [hstore]
    intro other
    by_cases hkey : other = key
    · have hwritten : ((s.masterSecret m).write (.secret key blob)).disk.getSecret other = blob := by
        simp [SecureStore.write, Disk.apply, Disk.getSecret, hkey]
      rw [hwritten]
      simp only [hkey, if_true]
      exact .sealed hsealing
    · have hkept : ((s.masterSecret m).write (.secret key blob)).disk.getSecret other = s.disk.getSecret other := by
        simp [SecureStore.write, Disk.apply, Disk.getSecret, hkey, SecureStore.masterSecret_secrets]
      rw [hkept]
      simp only [hkey, if_false]
      exact h other
  · next hlocked =>
    rw [Finds, if_neg hlocked] at hfinds
    rw [SecureStore.store_idle fun hw => hw.1 hfinds]
    exact h.congr rfl (SecureStore.masterSecret_secrets s m)

theorem Stands.remove (h : Stands C text k table s) (key : String) :
    Stands C text k (table.remove key) (s.remove key) := by
  intro other
  by_cases hkey : other = key
  · simp only [Auth.SecureStore.remove, SecureStore.remove, SecureStore.write, Disk.apply, Disk.getSecret, hkey,
      if_true, Option.getD_none]
    exact .missing
  · simp only [Auth.SecureStore.remove, SecureStore.remove, SecureStore.write, Disk.apply, Disk.getSecret, hkey,
      if_false]
    exact h other

/-- What the token store does to its table, the disk sees too. -/
theorem Stands.persist {κ ω : Type} {ts : Auth.TokenStore κ ω} (h : Stands C text k ts.secrets s) (hk : k ≠ [])
    (hfinds : Finds k ts.secrets s m) (hnonce : m.nonce ≠ none) :
    Stands C text k ts.persist.secrets (TokenStore.persist text ts C s m) := by
  unfold Auth.TokenStore.persist TokenStore.persist
  split
  · exact h
  · exact h.store hk hfinds hnonce ts.row _ ts.context

end Rows

/-! ### Side by side -/

structure Tables where
  table : Auth.SecureStore := {}
  store : SecureStore

namespace Tables
variable (C : Crypto) (text : JsonText) (k : Bytes)

inductive Event where
  | launch
  | store (key : String) (fields : List (String × Json)) (ctx : SecretContext) (m : Moment)
  | retrieve (key : String) (ctx : SecretContext) (m : Moment)
  | remove (key : String)

/-- The table at a moment, which has a master secret or not. -/
def seen (x : Tables) (m : Moment) : Auth.SecureStore :=
  {x.table with available := (x.store.masterSecret m).master ≠ []}

def step (x : Tables) : Event → Tables
  | .launch => {x with store := .fresh x.store.disk}
  | .store key fields ctx m =>
    { table := (x.seen m).store key (.object fields) ctx
      store := x.store.store C key (text.compact (.object fields)) ctx m }
  | .retrieve key ctx m => {x with store := (x.store.retrieve C key ctx m).1}
  | .remove key => {table := x.table.remove key, store := x.store.remove key}

def machine : Machine Tables Event := ⟨step C text⟩

/-- The master secret is `k`, or there is none at the moment. -/
def SameSecret (x : Tables) (m : Moment) : Prop :=
  (x.store.masterSecret m).master = k ∨ (x.store.masterSecret m).master = []

/-- The same master secret is found each time, if any, and what is stored gets a nonce. -/
def Rule (x : Tables) : Event → Prop
  | .store _ _ _ m => SameSecret k x m ∧ m.nonce ≠ none
  | .retrieve _ _ m => SameSecret k x m
  | .launch | .remove _ => True

instance (x : Tables) : DecidablePred (Rule k x)
  | .store _ _ _ _ => inferInstanceAs (Decidable ((_ ∨ _) ∧ _))
  | .retrieve _ _ _ => inferInstanceAs (Decidable (_ ∨ _))
  | .launch | .remove _ => .isTrue trivial

/-- What is retrieved is what the table has. -/
def Agrees (x : Tables) : Event → Prop
  | .retrieve key ctx m => (x.store.retrieve C key ctx m).2 = text.answer ((x.seen m).retrieve key ctx)
  | .launch | .store _ _ _ _ | .remove _ => True

variable {C text k} {x : Tables}

theorem SameSecret.finds {m : Moment} (h : SameSecret k x m) : Finds k (x.seen m) x.store m := by
  unfold Finds seen
  by_cases hnone : (x.store.masterSecret m).master = []
  · simp [hnone]
  · rw [if_pos (decide_eq_true hnone)]
    exact h.resolve_right hnone

theorem stands_seen (h : Stands C text k x.table x.store) (m : Moment) : Stands C text k (x.seen m) x.store :=
  h.congr rfl rfl

theorem keeps_stands (hk : k ≠ []) :
    Machine.Keeps (machine C text) (Rule k) (fun x => Stands C text k x.table x.store) where
  step x e hx he := by
    cases e with
    | launch => exact hx.congr rfl rfl
    | store key fields ctx m => exact (stands_seen hx m).store hk he.1.finds he.2 key fields ctx
    | retrieve key ctx m =>
      show Stands C text k x.table (x.store.retrieve C key ctx m).1
      obtain hsame | hacquired := x.store.retrieve_store (C := C) key ctx m
      · rw [hsame]
        exact hx
      · rw [hacquired]
        exact hx.congr rfl (x.store.masterSecret_secrets m)
    | remove key => exact hx.remove key

/-- **The rows are what the table says.** In every run of launches, stores, retrievals and
removals in which each moment finds one and the same master secret or none, each
retrieval answers as the table of the token store does. -/
theorem rows_agree (hk : k ≠ []) (hx : Stands C text k x.table x.store) (es : List Event)
    (h : (machine C text).Along (Rule k) x es) : (machine C text).Along (Agrees C text) x es :=
  (keeps_stands hk).along (fun x e hx he => by
    cases e with
    | retrieve key ctx m => exact (stands_seen hx m).retrieve hk he.finds key ctx
    | launch | store | remove => trivial) hx h

/-- A device with no rows. -/
theorem stands_empty {s : SecureStore} (h : s.disk.secrets = fun _ => none) : Stands C text k {} s := by
  intro key
  have hnone : s.disk.getSecret key = [] := by simp [Disk.getSecret, h]
  rw [hnone]
  exact .missing

/-- Tokens are saved, and asked for at the next launch, for another account, and once
they are removed. -/
def savedAndRemoved : List Event :=
  [.store "9a0b/tokens" [("access", .string "a1")] SecureStore.sampleContext SecureStore.sampleMoment, .launch,
    .retrieve "9a0b/tokens" SecureStore.sampleContext {},
    .retrieve "9a0b/tokens" {SecureStore.sampleContext with accountId := "guest"} {},
    .remove "9a0b/tokens", .retrieve "9a0b/tokens" SecureStore.sampleContext {}]

example :
    (machine default default).Along (Agrees default default) {store := SecureStore.sampleDevice}
      savedAndRemoved :=
  rows_agree (k := SecureStore.sampleMaster) (by decide) (stands_empty rfl) savedAndRemoved (by decide +kernel)

end Tables

end ShelfRemote.Storage
