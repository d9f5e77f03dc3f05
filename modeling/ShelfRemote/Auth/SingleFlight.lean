import Mathlib.Algebra.GroupWithZero.Nat
import ShelfRemote.Auth.TokenStore

/-! Everyone who waits for a refresh.

The machine here is the token store and its client with everything around them left
open. Waiters are the numbers of the `refresh` calls. What a waiter, a slot of
`refreshFailed` or an aborted reply does while it is being called is an event in
between: the loops under way are a stack (`Frame`), and any call may come at any point
in them.

The history `log` has an entry for each thing that happened. `single_flight` says that
every entry is justified by the older ones (`Allowed`), that at most one refresh is in
flight, and that once nothing is outstanding each waiter has been told exactly once. -/
namespace ShelfRemote.Auth.SingleFlight
open Qt Net Runs

/-- A loop under way. -/
inductive Frame where
  /-- The reply of a refresh has been looked at, and its waiters are to be settled. -/
  | settling (refresh : Nat) (ok : Bool)
  | telling (refresh : Nat) (waiters : List Nat) (ok : Bool)
  /-- What a `setBaseUrl` has yet to abort. -/
  | aborting (ids : List Nat)

inductive Entry where
  | joined (waiter refresh : Nat)
  /-- There was no refresh token. -/
  | dismissed (waiter : Nat)
  | replied (refresh : Nat) (res : ApiResponse) (adopted : Bool)
  | refreshFailed (res : ApiResponse)
  | told (waiter : Nat) (ok : Bool)

structure State where
  tokens : TokenStore Unit Nat
  frames : List Frame := []
  calls : Nat := 0
  /-- History: the exchange of the last refresh. -/
  current : Nat := 0
  log : List Entry := []

inductive Event where
  | refresh
  | finished (id : Nat) (raw : RawReply)
  /-- The innermost loop goes on: it settles, or tells the next waiter, or is done. -/
  | resume
  | abort (id : Nat) (raw : RawReply)
  | setBaseUrl (base : QUrl)
  | setServerKey (key : String)
  | setAccount (account : String)
  | setTokens (access refresh : String)
  | clear
  | resetMemory
  | load
  /-- The secrets table changes. -/
  | secrets (secrets : SecureStore)
  /-- Somebody else sends a request. -/
  | send (request : Request)

/-- Whether the tokens of a reply are adopted, and whether it ends the session. -/
def verdict (ts : TokenStore Unit Nat) (key : String) (res : ApiResponse) : Bool × Bool :=
  if res.stale || key != ts.serverKey then (false, false)
  else if !res.ok then (false, decide (TokenStore.Refused res.status))
  else if TokenStore.replyToken res.body.toObject "accessToken" = "" then (false, true)
  else (true, false)

/-- The tokens once a reply has been looked at. -/
def taken (P : Platform) (ts : TokenStore Unit Nat) (key : String) (res : ApiResponse) : TokenStore Unit Nat :=
  if (verdict ts key res).1 then
    ts.setTokens P (TokenStore.replyToken res.body.toObject "accessToken") (ts.rotated res)
  else ts

/-- Looking at the reply and settling its waiters is what the store does with it. -/
theorem refreshReply_eq (P : Platform) (ts : TokenStore Unit Nat) (key : String) (res : ApiResponse) :
    ts.refreshReply P key res = (taken P ts key res).settle (verdict ts key res).1 (verdict ts key res).2 := by
  unfold TokenStore.refreshReply taken verdict
  by_cases hlate : (res.stale || key != ts.serverKey) = true
  · simp [hlate]
  · by_cases hok : res.ok = true
    · by_cases hempty : TokenStore.replyToken res.body.toObject "accessToken" = ""
      · simp [hlate, hok, hempty]
      · simp [hlate, hok, hempty, TokenStore.rotated]
    · simp [hlate, hok]

def refresh (s : State) : State :=
  let waiter := s.calls
  match s.tokens.refresh waiter with
  | (_, some _) => {s with calls := s.calls + 1, log := .told waiter false :: .dismissed waiter :: s.log}
  | (tokens, none) =>
    let current := if s.tokens.refreshing then s.current else s.tokens.api.created
    {s with tokens, calls := s.calls + 1, current, log := .joined waiter current :: s.log}

/-- A reply is looked at. The tokens that got in tell whether it was adopted. -/
def onReply (P : Platform) (s : State) (id : Nat) (key : String) (res : ApiResponse) : State :=
  let (ok, failed) := verdict s.tokens key res
  let tokens := taken P s.tokens key res
  let adopted := tokens.acquired.length != s.tokens.acquired.length
  {s with
    tokens
    frames := .settling id ok :: s.frames
    log := (if failed then [.refreshFailed res] else []) ++ .replied id res adopted :: s.log}

def finished (P : Platform) (s : State) (id : Nat) (raw : RawReply) : State :=
  match pick (fun x => x.id == id) s.tokens.api.inFlight with
  | none => s
  | some (x, rest) =>
    let asks := s.tokens.api.asksRefresh x raw
    let res := s.tokens.api.response x raw
    let s := {s with tokens := {s.tokens with api := s.tokens.api.drop x rest}}
    -- The unauthorized handler passes the closure it is given to `refresh`.
    if asks then refresh s
    else
      match x.cb with
      | .refresh key => onReply P s x.id key res
      | .call _ => s

def resume (s : State) : State :=
  match s.frames with
  | .settling id ok :: outer =>
    let (tokens, settled) := s.tokens.settle ok
    {s with tokens, frames := .telling id settled.waiters ok :: outer}
  | .telling id (waiter :: rest) ok :: outer =>
    {s with frames := .telling id rest ok :: outer, log := .told waiter ok :: s.log}
  | .telling _ [] _ :: outer => {s with frames := outer}
  | .aborting [] :: outer =>
    {s with tokens := {s.tokens with api := {s.tokens.api with active := []}}, frames := outer}
  | _ => s

/-- The innermost `setBaseUrl` aborts one of its replies. -/
def abort (P : Platform) (s : State) (id : Nat) (raw : RawReply) : State :=
  match s.frames with
  | .aborting ids :: outer =>
    if id ∈ ids then finished P {s with frames := .aborting (ids.erase id) :: outer} id raw else s
  | _ => s

def setBaseUrl (s : State) (base : QUrl) : State :=
  if s.tokens.api.baseUrl = base then s
  else
    {s with
      tokens := {s.tokens with api := s.tokens.api.moveBase base}
      frames := .aborting s.tokens.api.active :: s.frames}

def step (P : Platform) (s : State) : Event → State
  | .refresh => refresh s
  | .finished id raw => finished P s id raw
  | .resume => resume s
  | .abort id raw => abort P s id raw
  | .setBaseUrl base => setBaseUrl s base
  | .setServerKey key => {s with tokens := s.tokens.setServerKey key}
  | .setAccount account => {s with tokens := s.tokens.setAccount account}
  | .setTokens access refresh => {s with tokens := s.tokens.setTokens P access refresh}
  | .clear => {s with tokens := s.tokens.clear}
  | .resetMemory => {s with tokens := s.tokens.resetMemory}
  | .load => {s with tokens := (s.tokens.load P).1}
  | .secrets secrets => {s with tokens := {s.tokens with secrets}}
  | .send request => {s with tokens := {s.tokens with api := s.tokens.api.send request (.call ())}}

def machine (P : Platform) : Machine State Event := ⟨step P⟩

/-- Any store before its first refresh. -/
def start (ts : TokenStore Unit Nat) : State :=
  {tokens := {ts with refreshing := false, pending := [], api := {ts.api with active := [], inFlight := []}}}

/-! ### What a history must show -/

/-- The server refused the refresh token, or succeeded without an access token. -/
def Ends (res : ApiResponse) : Prop :=
  res.ok = false ∧ TokenStore.Refused res.status ∨
    res.ok = true ∧ TokenStore.replyToken res.body.toObject "accessToken" = ""

/-- A waiter has called. -/
def Asked (log : List Entry) (waiter : Nat) : Prop :=
  (∃ refresh, .joined waiter refresh ∈ log) ∨ .dismissed waiter ∈ log

/-- A refresh has been replied to. -/
def Replied (log : List Entry) (refresh : Nat) (adopted : Bool) : Prop := ∃ res, .replied refresh res adopted ∈ log

/-- What must have happened before an entry.

A waiter calls once and a refresh is replied to once. A waiter is told what became of
the refresh it joined, which is whether its tokens were adopted, or that there was no
refresh token. -/
def Allowed (older : List Entry) : Entry → Prop
  | .joined waiter _ => ¬Asked older waiter
  | .dismissed waiter => ¬Asked older waiter
  | .replied refresh _ _ => ∀ adopted, ¬Replied older refresh adopted
  | .refreshFailed res => Ends res ∧ ∃ refresh, .replied refresh res false ∈ older
  | .told waiter ok => .dismissed waiter ∈ older ∧ ok = false ∨
      ∃ refresh, .joined waiter refresh ∈ older ∧ Replied older refresh ok

def isTold (waiter : Nat) : Entry → Bool
  | .told w _ => w == waiter
  | _ => false

/-- How often a waiter was told. -/
def told (log : List Entry) (waiter : Nat) : Nat := log.countP (isTold waiter)

/-! ### The invariant -/

def Frame.isSettling : Frame → Bool
  | .settling .. => true
  | _ => false

/-- How often a loop under way is yet to tell a waiter. -/
def Frame.waits (waiter : Nat) : Frame → Nat
  | .telling _ waiters _ => waiters.count waiter
  | _ => 0

/-- A loop settles the last refresh, or tells those who joined its refresh. -/
def Frame.Sound (current : Nat) (log : List Entry) : Frame → Prop
  | .settling r ok => r = current ∧ Replied log r ok
  | .telling r waiters ok => Replied log r ok ∧ ∀ w ∈ waiters, .joined w r ∈ log
  | .aborting _ => True

/-- A refresh in flight: the last one, not replied to yet. -/
structure Flying (s : State) (x : Exchange (Handler Unit)) : Prop where
  current : x.id = s.current
  created : x.id < s.tokens.api.created
  noAuthRetry : x.request.noAuthRetry = true
  unreplied : ∀ adopted, ¬Replied s.log s.current adopted

/-- How many refreshes are in flight. -/
def flights (ts : TokenStore Unit Nat) : Nat := ts.api.inFlight.countP (·.cb.isRefresh)

structure Kept (s : State) : Prop where
  justified : Justified Allowed s.log
  /-- A waiter is queued, about to be told, or told. -/
  balance : ∀ w, s.tokens.pending.count w + (s.frames.map (Frame.waits w)).sum + told s.log w =
    if w < s.calls then 1 else 0
  asked : ∀ w, Asked s.log w → w < s.calls
  /-- A refresh under way is in flight or about to be settled. -/
  flight : flights s.tokens + s.frames.countP Frame.isSettling = if s.tokens.refreshing then 1 else 0
  idle : s.tokens.refreshing = false → s.tokens.pending = []
  queued : ∀ w ∈ s.tokens.pending, .joined w s.current ∈ s.log
  flying : ∀ x ∈ s.tokens.api.inFlight, x.cb.isRefresh = true → Flying s x
  replied : ∀ r adopted, Replied s.log r adopted → r < s.tokens.api.created
  sound : ∀ f ∈ s.frames, f.Sound s.current s.log

theorem kept_start (ts : TokenStore Unit Nat) : Kept (start ts) where
  justified := trivial
  balance w := rfl
  asked w h := by obtain ⟨_, h⟩ | h := h <;> cases h
  flight := rfl
  idle _ := rfl
  queued w h := by cases h
  flying x h := by cases h
  replied r adopted h := by
    obtain ⟨_, h⟩ := h
    cases h
  sound f h := by cases h

/-- A refresh stays in flight while no reply is logged. -/
theorem Flying.mono {s s' : State} {x : Exchange (Handler Unit)} (h : Flying s x) (hcurrent : s'.current = s.current)
    (hcreated : s.tokens.api.created ≤ s'.tokens.api.created)
    (hreplied : ∀ r adopted, Replied s'.log r adopted → Replied s.log r adopted) : Flying s' x where
  current := h.current.trans hcurrent.symm
  created := h.created.trans_le hcreated
  noAuthRetry := h.noAuthRetry
  unreplied adopted ha := h.unreplied adopted (hreplied _ adopted (hcurrent ▸ ha))

/-! ### What an entry adds -/

theorem Replied.cons {log : List Entry} {r : Nat} {adopted : Bool} (h : Replied log r adopted) (e : Entry) :
    Replied (e :: log) r adopted :=
  let ⟨res, h⟩ := h
  ⟨res, List.mem_cons_of_mem _ h⟩

theorem Frame.Sound.cons {current : Nat} {log : List Entry} {f : Frame} (h : f.Sound current log) (e : Entry) :
    f.Sound current (e :: log) := by
  cases f with
  | settling r ok => exact ⟨h.1, h.2.cons e⟩
  | telling r waiters ok => exact ⟨h.1.cons e, fun w hw => List.mem_cons_of_mem _ (h.2 w hw)⟩
  | aborting ids => trivial

theorem replied_cons {log : List Entry} {e : Entry} (he : ∀ r res adopted, e ≠ .replied r res adopted)
    (r : Nat) (adopted : Bool) : Replied (e :: log) r adopted ↔ Replied log r adopted := by
  refine ⟨fun ⟨res, h⟩ => ⟨res, ?_⟩, fun h => h.cons e⟩
  exact (List.mem_cons.mp h).resolve_left fun hr => he r res adopted hr.symm

/-- An entry that is no call leaves the callers as they are. -/
theorem asked_cons {log : List Entry} {e : Entry} (hj : ∀ w r, e ≠ .joined w r) (hd : ∀ w, e ≠ .dismissed w)
    (w : Nat) : Asked (e :: log) w ↔ Asked log w := by
  have hjoined : ∀ r, Entry.joined w r ∈ e :: log ↔ .joined w r ∈ log := fun r => by
    simp [List.mem_cons, (hj w r).symm]
  have hdismissed : Entry.dismissed w ∈ e :: log ↔ .dismissed w ∈ log := by
    simp [List.mem_cons, (hd w).symm]
  simp only [Asked, hjoined, hdismissed]

theorem asked_joined (log : List Entry) (v r w : Nat) :
    Asked (.joined v r :: log) w ↔ w = v ∨ Asked log w := by
  simp only [Asked, List.mem_cons, Entry.joined.injEq, reduceCtorEq, false_or]
  grind

theorem asked_dismissed (log : List Entry) (v w : Nat) :
    Asked (.dismissed v :: log) w ↔ w = v ∨ Asked log w := by
  simp only [Asked, List.mem_cons, Entry.dismissed.injEq, reduceCtorEq, false_or]
  grind

theorem told_told (log : List Entry) (v : Nat) (ok : Bool) (w : Nat) :
    told (.told v ok :: log) w = told log w + if v = w then 1 else 0 := by
  simp [told, List.countP_cons, isTold]

theorem told_cons {log : List Entry} {e : Entry} (he : ∀ w ok, e ≠ .told w ok) (w : Nat) :
    told (e :: log) w = told log w := by
  refine List.countP_cons_of_neg ?_
  cases e with
  | told v ok => exact absurd rfl (he v ok)
  | _ => simp [isTold]

/-! ### What disturbs no refresh -/

/-- The waiters and the refresh in flight are as they were. -/
structure Undisturbed (ts ts' : TokenStore Unit Nat) : Prop where
  refreshing : ts'.refreshing = ts.refreshing
  pending : ts'.pending = ts.pending
  flights : flights ts' = flights ts
  flying : ∀ x ∈ ts'.api.inFlight, x.cb.isRefresh = true → x ∈ ts.api.inFlight
  created : ts.api.created ≤ ts'.api.created

namespace Undisturbed
variable {ts ts' : TokenStore Unit Nat}

theorem of_eq (hr : ts'.refreshing = ts.refreshing) (hp : ts'.pending = ts.pending)
    (hi : ts'.api.inFlight = ts.api.inFlight) (hc : ts'.api.created = ts.api.created) : Undisturbed ts ts' where
  refreshing := hr
  pending := hp
  flights := by rw [SingleFlight.flights, hi, ← SingleFlight.flights]
  flying x hx _ := hi ▸ hx
  created := hc.ge

theorem setTokens (P : Platform) (ts : TokenStore Unit Nat) (access refresh : String) :
    Undisturbed ts (ts.setTokens P access refresh) := by
  unfold TokenStore.setTokens TokenStore.persist
  split <;> exact of_eq rfl rfl rfl rfl

theorem clear (ts : TokenStore Unit Nat) : Undisturbed ts ts.clear := by
  unfold TokenStore.clear
  dsimp only
  split <;> exact of_eq rfl rfl rfl rfl

theorem load (P : Platform) (ts : TokenStore Unit Nat) : Undisturbed ts (ts.load P).1 := by
  unfold TokenStore.load
  split
  · exact of_eq rfl rfl rfl rfl
  · split
    · dsimp only
      split <;> exact of_eq rfl rfl rfl rfl
    · exact of_eq rfl rfl rfl rfl
    · exact of_eq rfl rfl rfl rfl

theorem taken (P : Platform) (ts : TokenStore Unit Nat) (key : String) (res : ApiResponse) :
    Undisturbed ts (SingleFlight.taken P ts key res) := by
  unfold SingleFlight.taken
  split
  · exact setTokens ..
  · exact of_eq rfl rfl rfl rfl

theorem send (ts : TokenStore Unit Nat) (request : Request) :
    Undisturbed ts {ts with api := ts.api.send request (.call ())} where
  refreshing := rfl
  pending := rfl
  flights := List.countP_cons_of_neg (by simp [Handler.isRefresh])
  flying x hx hr := by
    obtain rfl | hx := List.mem_cons.mp hx
    · cases hr
    · exact hx
  created := Nat.le_succ _

/-- The reply of somebody else's request has finished. -/
theorem drop {x : Exchange (Handler Unit)} {rest : List (Exchange (Handler Unit))} {p : Exchange (Handler Unit) → Bool}
    (hpick : pick p ts.api.inFlight = some (x, rest)) (hx : x.cb.isRefresh = false) :
    Undisturbed ts {ts with api := ts.api.drop x rest} where
  refreshing := rfl
  pending := rfl
  flights := by
    have := pick_count hpick (·.cb.isRefresh)
    show rest.countP (·.cb.isRefresh) = ts.api.inFlight.countP (·.cb.isRefresh)
    simpa [hx] using this.symm
  flying y hy _ := pick_rest hpick hy
  created := le_rfl

end Undisturbed

theorem Kept.undisturbed {s : State} (h : Kept s) {ts : TokenStore Unit Nat} (hu : Undisturbed s.tokens ts) :
    Kept {s with tokens := ts} where
  justified := h.justified
  balance w := by
    show ts.pending.count w + _ + _ = _
    rw [hu.pending]
    exact h.balance w
  asked := h.asked
  flight := by
    show flights ts + _ = if ts.refreshing = true then 1 else 0
    rw [hu.flights, hu.refreshing]
    exact h.flight
  idle hr := hu.pending ▸ h.idle (hu.refreshing ▸ hr)
  queued w hw := h.queued w (hu.pending ▸ hw)
  flying x hx hr := (h.flying x (hu.flying x hx hr) hr).mono rfl hu.created fun _ _ ha => ha
  replied r adopted hr := (h.replied r adopted hr).trans_le hu.created
  sound := h.sound

/-- The loops change, but settle and tell as much as before. -/
theorem Kept.loops {s : State} (h : Kept s) {frames : List Frame}
    (hw : ∀ w, (frames.map (Frame.waits w)).sum = (s.frames.map (Frame.waits w)).sum)
    (hs : frames.countP Frame.isSettling = s.frames.countP Frame.isSettling)
    (hf : ∀ f ∈ frames, f.Sound s.current s.log) : Kept {s with frames} where
  justified := h.justified
  balance w := by
    show _ + (frames.map (Frame.waits w)).sum + _ = _
    rw [hw]
    exact h.balance w
  asked := h.asked
  flight := by
    show _ + frames.countP Frame.isSettling = _
    rw [hs]
    exact h.flight
  idle := h.idle
  queued := h.queued
  flying x hx hr := (h.flying x hx hr).mono rfl le_rfl fun _ _ ha => ha
  replied := h.replied
  sound := hf

/-! ### The calls -/

/-- Without a refresh token the waiter is told at once. -/
theorem kept_dismissed {s : State} (h : Kept s) :
    Kept {s with calls := s.calls + 1, log := .told s.calls false :: .dismissed s.calls :: s.log} where
  justified := by
    have hfresh : ¬Asked s.log s.calls := fun ha => absurd (h.asked _ ha) (lt_irrefl _)
    exact ⟨.inl ⟨List.mem_cons_self .., rfl⟩, hfresh, h.justified⟩
  balance w := by
    have hb := h.balance w
    show s.tokens.pending.count w + (s.frames.map (Frame.waits w)).sum +
      told (.told s.calls false :: .dismissed s.calls :: s.log) w = if w < s.calls + 1 then 1 else 0
    rw [told_told, told_cons (by simp)]
    split at hb <;> split <;> split <;> omega
  asked w ha := by
    have ha := (asked_dismissed _ _ _).mp ((asked_cons (by simp) (by simp) w).mp ha)
    show w < s.calls + 1
    obtain rfl | ha := ha
    · exact Nat.lt_succ_self _
    · exact (h.asked w ha).trans (Nat.lt_succ_self _)
  flight := h.flight
  idle := h.idle
  queued w hw := List.mem_cons_of_mem _ (List.mem_cons_of_mem _ (h.queued w hw))
  flying x hx hr := by
    refine (h.flying x hx hr).mono rfl le_rfl fun r adopted ha => ?_
    exact (replied_cons (by simp) r adopted).mp ((replied_cons (by simp) r adopted).mp ha)
  replied r adopted hr :=
    h.replied r adopted ((replied_cons (by simp) _ _).mp ((replied_cons (by simp) _ _).mp hr))
  sound f hf := ((h.sound f hf).cons _).cons _

/-- A refresh that goes out is the last one, and nobody waits for it yet. -/
theorem kept_launched {s : State} (h : Kept s) (hr : s.tokens.refreshing = false) :
    Kept {s with
      tokens := {s.tokens with
        refreshing := true
        api := s.tokens.api.send s.tokens.refreshRequest (.refresh s.tokens.serverKey)}
      current := s.tokens.api.created} := by
  have hflight := h.flight
  rw [hr, if_neg (by simp)] at hflight
  have hnone : ∀ x ∈ s.tokens.api.inFlight, ¬x.cb.isRefresh = true :=
    List.countP_eq_zero.mp (Nat.add_eq_zero_iff.mp hflight).1
  have hsettling : ∀ f ∈ s.frames, ¬f.isSettling = true :=
    List.countP_eq_zero.mp (Nat.add_eq_zero_iff.mp hflight).2
  have hidle := h.idle hr
  constructor
  case justified => exact h.justified
  case balance => exact h.balance
  case asked => exact h.asked
  case flight =>
    show List.countP _ (_ :: s.tokens.api.inFlight) + _ = 1
    rw [List.countP_cons_of_pos rfl, List.countP_eq_zero.mpr hnone, List.countP_eq_zero.mpr hsettling]
  case idle => exact fun hr => absurd hr (by simp)
  case queued =>
    intro w (hw : w ∈ s.tokens.pending)
    rw [hidle] at hw
    cases hw
  case flying =>
    intro x hx hxr
    obtain rfl | hx := List.mem_cons.mp hx
    · exact ⟨rfl, Nat.lt_succ_self _, rfl, fun adopted ha => absurd (h.replied _ adopted ha) (lt_irrefl _)⟩
    · exact absurd hxr (hnone x hx)
  case replied => exact fun r adopted ha => (h.replied r adopted ha).trans (Nat.lt_succ_self _)
  case sound =>
    intro f hf
    have hs := h.sound f hf
    cases f with
    | settling r ok => exact absurd rfl (hsettling _ hf)
    | telling r waiters ok => exact hs
    | aborting ids => trivial

/-- A waiter joins the refresh under way. -/
theorem kept_joined {s : State} (h : Kept s) (hr : s.tokens.refreshing = true) :
    Kept {s with
      tokens := {s.tokens with pending := s.tokens.pending ++ [s.calls]}
      calls := s.calls + 1
      log := .joined s.calls s.current :: s.log} := by
  constructor
  case justified => exact ⟨fun ha => absurd (h.asked _ ha) (lt_irrefl _), h.justified⟩
  case balance =>
    intro w
    have hb := h.balance w
    show (s.tokens.pending ++ [s.calls]).count w + (s.frames.map (Frame.waits w)).sum +
      told (.joined s.calls s.current :: s.log) w = if w < s.calls + 1 then 1 else 0
    rw [told_cons (by simp), List.count_append, List.count_singleton]
    simp only [beq_iff_eq]
    split at hb <;> split <;> split <;> omega
  case asked =>
    intro w ha
    show w < s.calls + 1
    obtain rfl | ha := (asked_joined _ _ _ _).mp ha
    · exact Nat.lt_succ_self _
    · exact (h.asked w ha).trans (Nat.lt_succ_self _)
  case flight => exact h.flight
  case idle => exact fun hf => absurd (hr.symm.trans hf) (by simp)
  case queued =>
    intro w hw
    obtain hw | hw := List.mem_append.mp hw
    · exact List.mem_cons_of_mem _ (h.queued w hw)
    · rw [List.mem_singleton.mp hw]
      exact List.mem_cons_self ..
  case flying =>
    intro x hx hxr
    exact (h.flying x hx hxr).mono rfl le_rfl fun r adopted => (replied_cons (by simp) r adopted).mp
  case replied => exact fun r adopted ha => h.replied r adopted ((replied_cons (by simp) _ _).mp ha)
  case sound => exact fun f hf => (h.sound f hf).cons _

theorem kept_refresh {s : State} (h : Kept s) : Kept (refresh s) := by
  unfold refresh TokenStore.refresh
  by_cases htoken : s.tokens.refreshToken = ""
  · simp only [htoken, if_true]
    exact kept_dismissed h
  · by_cases hr : s.tokens.refreshing = true
    · simpa only [htoken, hr, if_true, if_false] using kept_joined h hr
    · have hr := Bool.eq_false_iff.mpr hr
      simp only [htoken, hr, if_false, Bool.false_eq_true]
      exact kept_joined (kept_launched h hr) rfl

/-! ### The reply -/

theorem taken_adopted (P : Platform) (ts : TokenStore Unit Nat) (key : String) (res : ApiResponse) :
    ((taken P ts key res).acquired.length != ts.acquired.length) = (verdict ts key res).1 := by
  unfold taken
  by_cases hv : (verdict ts key res).1 = true
  · rw [if_pos hv, hv]
    unfold TokenStore.setTokens TokenStore.persist
    split <;> simp [TokenStore.hold]
  · rw [if_neg hv, Bool.eq_false_iff.mpr hv]
    simp

/-- A reply that ends the session is not adopted, and is one that may end it. -/
theorem verdict_ends {ts : TokenStore Unit Nat} {key : String} {res : ApiResponse}
    (h : (verdict ts key res).2 = true) : Ends res ∧ (verdict ts key res).1 = false := by
  unfold verdict at *
  by_cases hlate : (res.stale || key != ts.serverKey) = true
  · simp [hlate] at h
  · by_cases hok : res.ok = true
    · by_cases hempty : TokenStore.replyToken res.body.toObject "accessToken" = ""
      · exact ⟨.inr ⟨hok, hempty⟩, by simp [hlate, hok, hempty]⟩
      · simp [hlate, hok, hempty] at h
    · simp only [hlate, hok] at h
      exact ⟨.inl ⟨Bool.eq_false_iff.mpr hok, of_decide_eq_true h⟩, by simp [hlate, hok]⟩

/-- The reply of the refresh in flight has finished, and is to be settled. -/
theorem kept_replied {s : State} (h : Kept s) {x : Exchange (Handler Unit)}
    {rest : List (Exchange (Handler Unit))} {p : Exchange (Handler Unit) → Bool}
    (hpick : pick p s.tokens.api.inFlight = some (x, rest)) (hx : x.cb.isRefresh = true)
    (res : ApiResponse) (ok : Bool) :
    Kept {s with
      tokens := {s.tokens with api := s.tokens.api.drop x rest}
      frames := .settling x.id ok :: s.frames
      log := .replied x.id res ok :: s.log} := by
  have hf := h.flying x (pick_mem hpick) hx
  have hcount := pick_count hpick (·.cb.isRefresh)
  rw [if_pos hx] at hcount
  have hflight : rest.countP (·.cb.isRefresh) + 1 + s.frames.countP Frame.isSettling =
      if s.tokens.refreshing then 1 else 0 := by
    rw [← hcount]
    exact h.flight
  -- It is the only one, so none is left.
  have hnone : ∀ y ∈ rest, ¬y.cb.isRefresh = true := by
    refine List.countP_eq_zero.mp ?_
    split at hflight <;> omega
  constructor
  case justified => exact ⟨fun adopted ha => hf.unreplied adopted (hf.current ▸ ha), h.justified⟩
  case balance =>
    intro w
    show s.tokens.pending.count w + (0 + (s.frames.map (Frame.waits w)).sum) +
      told (.replied x.id res ok :: s.log) w = if w < s.calls then 1 else 0
    rw [told_cons (by simp), Nat.zero_add]
    exact h.balance w
  case asked => exact fun w ha => h.asked w ((asked_cons (by simp) (by simp) w).mp ha)
  case flight =>
    show rest.countP (·.cb.isRefresh) + (_ :: s.frames).countP Frame.isSettling =
      if s.tokens.refreshing = true then 1 else 0
    rw [List.countP_cons_of_pos rfl, ← hflight]
    omega
  case idle => exact h.idle
  case queued => exact fun w hw => List.mem_cons_of_mem _ (h.queued w hw)
  case flying => exact fun y hy hyr => absurd hyr (hnone y hy)
  case replied =>
    rintro r adopted ⟨res', ha⟩
    obtain ha | ha := List.mem_cons.mp ha
    · cases ha
      exact hf.created
    · exact h.replied r adopted ⟨res', ha⟩
  case sound =>
    intro f hfr
    obtain rfl | hfr := List.mem_cons.mp hfr
    · exact ⟨hf.current, res, List.mem_cons_self ..⟩
    · exact (h.sound f hfr).cons _

theorem kept_failed {s : State} (h : Kept s) {res : ApiResponse} (hres : Ends res)
    (hrep : ∃ r, .replied r res false ∈ s.log) : Kept {s with log := .refreshFailed res :: s.log} := by
  constructor
  case justified => exact ⟨⟨hres, hrep⟩, h.justified⟩
  case balance =>
    intro w
    show s.tokens.pending.count w + _ + told (.refreshFailed res :: s.log) w = _
    rw [told_cons (by simp)]
    exact h.balance w
  case asked => exact fun w ha => h.asked w ((asked_cons (by simp) (by simp) w).mp ha)
  case flight => exact h.flight
  case idle => exact h.idle
  case queued => exact fun w hw => List.mem_cons_of_mem _ (h.queued w hw)
  case flying =>
    intro x hx hxr
    exact (h.flying x hx hxr).mono rfl le_rfl fun r adopted => (replied_cons (by simp) r adopted).mp
  case replied => exact fun r adopted ha => h.replied r adopted ((replied_cons (by simp) _ _).mp ha)
  case sound => exact fun f hf => (h.sound f hf).cons _

theorem kept_onReply {s : State} (h : Kept s) {x : Exchange (Handler Unit)}
    {rest : List (Exchange (Handler Unit))} {p : Exchange (Handler Unit) → Bool}
    (hpick : pick p s.tokens.api.inFlight = some (x, rest)) (hx : x.cb.isRefresh = true)
    (P : Platform) (key : String) (res : ApiResponse) :
    Kept (onReply P {s with tokens := {s.tokens with api := s.tokens.api.drop x rest}} x.id key res) := by
  unfold onReply
  generalize hts : ({s.tokens with api := s.tokens.api.drop x rest} : TokenStore Unit Nat) = ts
  dsimp only
  rw [taken_adopted]
  have hlooked := kept_replied h hpick hx res (verdict ts key res).1
  rw [hts] at hlooked
  have htaken := hlooked.undisturbed (Undisturbed.taken P ts key res)
  by_cases hfailed : (verdict ts key res).2 = true
  · have hends := verdict_ends hfailed
    rw [if_pos hfailed]
    exact kept_failed htaken hends.1 ⟨x.id, by simp [hends.2]⟩
  · rw [if_neg hfailed]
    exact htaken

theorem kept_finished {s : State} (h : Kept s) (P : Platform) (id : Nat) (raw : RawReply) :
    Kept (finished P s id raw) := by
  unfold finished
  split
  · exact h
  · next x rest hpick =>
    cases hcb : x.cb with
    | call cb =>
      have hdrop := h.undisturbed (Undisturbed.drop hpick (by rw [hcb]; rfl))
      dsimp only
      split
      · exact kept_refresh hdrop
      · exact hdrop
    | refresh key =>
      have hx : x.cb.isRefresh = true := by rw [hcb]; rfl
      have hasks : s.tokens.api.asksRefresh x raw = false := by
        simp [ApiClient.asksRefresh, (h.flying x (pick_mem hpick) hx).noAuthRetry]
      dsimp only
      rw [hasks, if_neg (by simp)]
      exact kept_onReply h hpick hx P key _

/-! ### The loops -/

/-- Everyone queued is about to be told, and the next call starts a refresh of its own. -/
theorem kept_settled {s : State} (h : Kept s) {r : Nat} {ok : Bool} {outer : List Frame}
    (hframes : s.frames = .settling r ok :: outer) :
    Kept {s with
      tokens := {s.tokens with refreshing := false, pending := []}
      frames := .telling r s.tokens.pending ok :: outer} := by
  have hflight := h.flight
  rw [hframes, List.countP_cons_of_pos rfl] at hflight
  have hsound : ∀ f ∈ Frame.settling r ok :: outer, f.Sound s.current s.log := hframes ▸ h.sound
  have hhead := hsound _ (List.mem_cons_self ..)
  have hnone : s.tokens.api.inFlight.countP (·.cb.isRefresh) = 0 := by
    unfold flights at hflight
    split at hflight <;> omega
  constructor
  case justified => exact h.justified
  case balance =>
    intro w
    have hb := h.balance w
    simp only [hframes, List.map_cons, List.sum_cons, Frame.waits] at hb
    show 0 + (s.tokens.pending.count w + (outer.map (Frame.waits w)).sum) + told s.log w = _
    rw [← hb]
    omega
  case asked => exact h.asked
  case flight =>
    show s.tokens.api.inFlight.countP (·.cb.isRefresh) + outer.countP Frame.isSettling = 0
    split at hflight <;> omega
  case idle => exact fun _ => rfl
  case queued => exact fun w hw => absurd hw (List.not_mem_nil)
  case flying => exact fun x hx hxr => absurd hxr (List.countP_eq_zero.mp hnone x hx)
  case replied => exact h.replied
  case sound =>
    intro f hf
    obtain rfl | hf := List.mem_cons.mp hf
    · exact ⟨hhead.2, fun w hw => hhead.1 ▸ h.queued w hw⟩
    · exact hsound f (List.mem_cons_of_mem _ hf)

/-- The loop tells its next waiter. -/
theorem kept_told {s : State} (h : Kept s) {r w : Nat} {rest : List Nat} {ok : Bool} {outer : List Frame}
    (hframes : s.frames = .telling r (w :: rest) ok :: outer) :
    Kept {s with frames := .telling r rest ok :: outer, log := .told w ok :: s.log} := by
  have hsound : ∀ f ∈ Frame.telling r (w :: rest) ok :: outer, f.Sound s.current s.log := hframes ▸ h.sound
  have hhead := hsound _ (List.mem_cons_self ..)
  constructor
  case justified =>
    exact ⟨.inr ⟨r, hhead.2 w (List.mem_cons_self ..), hhead.1⟩, h.justified⟩
  case balance =>
    intro v
    have hb := h.balance v
    rw [hframes, List.map_cons, List.sum_cons, Frame.waits, List.count_cons] at hb
    show s.tokens.pending.count v + (rest.count v + (outer.map (Frame.waits v)).sum) +
      told (.told w ok :: s.log) v = if v < s.calls then 1 else 0
    rw [told_told, ← hb]
    simp only [beq_iff_eq]
    omega
  case asked => exact fun v ha => h.asked v ((asked_cons (by simp) (by simp) v).mp ha)
  case flight =>
    have hflight := h.flight
    rwa [hframes] at hflight
  case idle => exact h.idle
  case queued => exact fun v hv => List.mem_cons_of_mem _ (h.queued v hv)
  case flying =>
    intro x hx hxr
    exact (h.flying x hx hxr).mono rfl le_rfl fun r adopted => (replied_cons (by simp) r adopted).mp
  case replied => exact fun r adopted ha => h.replied r adopted ((replied_cons (by simp) _ _).mp ha)
  case sound =>
    intro f hf
    obtain rfl | hf := List.mem_cons.mp hf
    · exact ⟨hhead.1.cons _, fun v hv => List.mem_cons_of_mem _ (hhead.2 v (List.mem_cons_of_mem _ hv))⟩
    · exact (hsound f (List.mem_cons_of_mem _ hf)).cons _

/-- A loop with nobody to tell and nothing to settle may go or come. -/
theorem Kept.pop {s : State} (h : Kept s) {f : Frame} {outer : List Frame} (hframes : s.frames = f :: outer)
    (hw : ∀ w, f.waits w = 0) (hs : f.isSettling = false) : Kept {s with frames := outer} := by
  refine h.loops (fun w => ?_) ?_ fun g hg => h.sound g (hframes ▸ List.mem_cons_of_mem _ hg)
  · rw [hframes, List.map_cons, List.sum_cons, hw w, Nat.zero_add]
  · rw [hframes, List.countP_cons_of_neg (by simp [hs])]

theorem Kept.push {s : State} (h : Kept s) (ids : List Nat) :
    Kept {s with frames := .aborting ids :: s.frames} := by
  refine h.loops (fun w => ?_) ?_ fun f hf => ?_
  · exact Nat.zero_add _
  · exact List.countP_cons_of_neg (by simp [Frame.isSettling])
  · obtain rfl | hf := List.mem_cons.mp hf
    · trivial
    · exact h.sound f hf

theorem kept_resume {s : State} (h : Kept s) : Kept (resume s) := by
  unfold resume
  split
  · next hframes => exact kept_settled h hframes
  · next hframes => exact kept_told h hframes
  · next hframes => exact h.pop hframes (fun _ => rfl) rfl
  · next hframes =>
    exact (h.pop hframes (fun _ => rfl) rfl).undisturbed (.of_eq rfl rfl rfl rfl)
  · exact h

theorem kept_abort {s : State} (h : Kept s) (P : Platform) (id : Nat) (raw : RawReply) :
    Kept (abort P s id raw) := by
  unfold abort
  split
  · next ids outer hframes =>
    split
    · exact kept_finished ((h.pop hframes (fun _ => rfl) rfl).push _) P id raw
    · exact h
  · exact h

theorem kept_step (P : Platform) {s : State} (h : Kept s) (e : Event) : Kept (step P s e) := by
  cases e with
  | refresh => exact kept_refresh h
  | finished id raw => exact kept_finished h P id raw
  | resume => exact kept_resume h
  | abort id raw => exact kept_abort h P id raw
  | setBaseUrl base =>
    show Kept (setBaseUrl s base)
    unfold setBaseUrl
    split
    · exact h
    · exact (h.push _).undisturbed (.of_eq rfl rfl rfl rfl)
  | setServerKey key => exact h.undisturbed (.of_eq rfl rfl rfl rfl)
  | setAccount account => exact h.undisturbed (.of_eq rfl rfl rfl rfl)
  | setTokens access refresh => exact h.undisturbed (.setTokens P _ access refresh)
  | clear => exact h.undisturbed (.clear _)
  | resetMemory => exact h.undisturbed (.of_eq rfl rfl rfl rfl)
  | load => exact h.undisturbed (.load P _)
  | secrets secrets => exact h.undisturbed (.of_eq rfl rfl rfl rfl)
  | send request => exact h.undisturbed (.send _ request)

theorem keeps (P : Platform) : (machine P).Keeps (fun _ _ => True) Kept := ⟨fun _ e h _ => kept_step P h e⟩

/-! ### What a justified history says -/

def Entry.Asks (waiter : Nat) : Entry → Prop
  | .joined w _ => w = waiter
  | .dismissed w => w = waiter
  | _ => False

def Entry.Replies (refresh : Nat) : Entry → Prop
  | .replied r _ _ => r = refresh
  | _ => False

variable {log : List Entry}

/-- A waiter calls once. -/
theorem asked_once (h : Justified Allowed log) {w : Nat} {a b : Entry} (ha : a ∈ log) (hb : b ∈ log)
    (hwa : a.Asks w) (hwb : b.Asks w) : a = b := by
  refine h.once (fun older e he hw c hc hwc => ?_) ha hb hwa hwb
  have hasked : Asked older w := by
    cases c with
    | joined v r =>
      obtain rfl := hwc
      exact .inl ⟨r, hc⟩
    | dismissed v =>
      obtain rfl := hwc
      exact .inr hc
    | _ => cases hwc
  cases e with
  | joined v r =>
    obtain rfl := hw
    exact he hasked
  | dismissed v =>
    obtain rfl := hw
    exact he hasked
  | _ => cases hw

/-- A refresh is replied to once. -/
theorem replied_once (h : Justified Allowed log) {r : Nat} {ok ok' : Bool} (ha : Replied log r ok)
    (hb : Replied log r ok') : ok = ok' := by
  obtain ⟨res, ha⟩ := ha
  obtain ⟨res', hb⟩ := hb
  have hsame : Entry.replied r res ok = .replied r res' ok' := by
    refine h.once (q := Entry.Replies r) (fun older e he hr c hc hrc => ?_) ha hb rfl rfl
    cases c with
    | replied r' res₀ ok₀ =>
      obtain rfl := hrc
      cases e with
      | replied r' _ _ =>
        obtain rfl := hr
        exact he ok₀ ⟨res₀, hc⟩
      | _ => cases hr
    | _ => cases hrc
  cases hsame
  rfl

/-- Whoever joined a refresh and was told was told what its reply came to. -/
theorem told_replied (h : Justified Allowed log) {w r : Nat} {ok : Bool} (hj : .joined w r ∈ log)
    (ht : .told w ok ∈ log) : Replied log r ok := by
  obtain ⟨older, hsub, hd | ⟨r', hj', res, hr'⟩⟩ := h.of_mem ht
  · cases asked_once h hj (hsub hd.1) rfl rfl
  · cases asked_once h hj (hsub hj') rfl rfl
    exact ⟨res, hsub hr'⟩

/-- **Refresh is single-flight and settles everyone.** Whoever calls, answers, aborts or
changes the tokens, the server key or the base URL, in whatever order and from inside
whatever waiter: at most one refresh is in flight, every entry of the history is
justified by the older ones, no waiter is told twice, and each has been told once nothing
is outstanding. Those who joined one refresh are told the same, which is whether the
tokens of its reply were adopted, and `refreshFailed` is for replies that end the
session. -/
theorem single_flight (P : Platform) (ts : TokenStore Unit Nat) (events : List Event) :
    let s := (machine P).run (start ts) events
    flights s.tokens ≤ 1 ∧
      Justified Allowed s.log ∧
      (∀ w, told s.log w ≤ 1) ∧
      (flights s.tokens = 0 → s.frames = [] → ∀ w, w < s.calls → told s.log w = 1) ∧
      (∀ w r ok, .joined w r ∈ s.log → .told w ok ∈ s.log → Replied s.log r ok) ∧
      (∀ r ok ok', Replied s.log r ok → Replied s.log r ok' → ok = ok') ∧
      ∀ res, .refreshFailed res ∈ s.log → Ends res := by
  intro s
  have h : Kept s := (keeps P).always (kept_start ts) _
  refine ⟨?_, h.justified, fun w => ?_, fun hnone hframes w hw => ?_,
    fun w r ok hj ht => told_replied h.justified hj ht,
    fun r ok ok' ha hb => replied_once h.justified ha hb, fun res hres => ?_⟩
  · have := h.flight
    split at this <;> omega
  · have := h.balance w
    split at this <;> omega
  · have hflight := h.flight
    have hb := h.balance w
    rw [hnone, hframes] at hflight
    have hidle : s.tokens.pending = [] := h.idle (by by_contra hr; simp [hr] at hflight)
    simpa [hidle, hframes, hw] using hb
  · obtain ⟨older, -, hends, -⟩ := h.justified.of_mem hres
    exact hends

/-- Signed in, with a refresh token. -/
def signedIn : TokenStore Unit Nat :=
  { api := {endpoints := Endpoints.setBase {scheme := "https", host := "a"}}
    serverKey := "a"
    accessToken := "access"
    refreshToken := "refresh" }

/-- Three wait for the first refresh, whose tokens are adopted. A fourth asks while they are
being told, and gets a refresh of its own, which the server refuses. -/
def crowd : List Event :=
  [.refresh, .refresh, .refresh, .finished 0 {status := 200, body := .object [("accessToken", .string "again")]},
    .resume, .resume, .refresh, .resume, .resume, .resume, .finished 1 {status := 401}, .resume, .resume, .resume]

theorem single_flight_crowd :
    let s := (machine default).run (start signedIn) crowd
    (flights s.tokens = 0 ∧ s.frames = [] ∧ s.calls = 4) ∧
      ((.joined 2 0 ∈ s.log ∧ .told 2 true ∈ s.log) ∧ .joined 3 1 ∈ s.log ∧ .told 3 false ∈ s.log) ∧
      ∀ w, w < 4 → told s.log w = 1 := by
  intro s
  have hend : flights s.tokens = 0 ∧ s.frames = [] := ⟨rfl, rfl⟩
  refine ⟨⟨hend.1, hend.2, rfl⟩, ⟨⟨?_, ?_⟩, ?_, ?_⟩, ?_⟩
  · exact List.mem_of_getElem? (i := 8) rfl
  · exact List.mem_of_getElem? (i := 3) rfl
  · exact List.mem_of_getElem? (i := 5) rfl
  · exact List.mem_of_getElem? (i := 0) rfl
  · exact (single_flight default signedIn crowd).2.2.2.1 hend.1 hend.2

end ShelfRemote.Auth.SingleFlight
