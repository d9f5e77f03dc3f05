import ShelfRemote.Net.ApiClient

/-! What the client promises about delivery and retry.

The machine here is the client with everything around it left open. Closures are
the numbers of the `send` calls they were passed to. Any call may come at any
point, also from inside a closure: an abort of `setBaseUrl` is an event of its
own (`abort`), the calls to `setBaseUrl` under way are a stack, and whatever a
closure does while a reply is being aborted is an event in between. The
unauthorized handler answers each parked closure once, at once or later, with any
outcome (`refreshed`).

What is outstanding is kept outside the client's handlers: Qt takes a finished reply
off `inFlight` and the unauthorized handler takes the closure it answers off `parked`,
and only then `onFinished` or `onRefreshed` runs.

The history `log` has an entry for each thing that happened. `delivery` says that
every entry is justified by the older ones (`Allowed`), that once nothing is
outstanding each send has had its closure called exactly once, and that every
delivery settles what it delivers (`Settles`). -/
namespace ShelfRemote.Net.Delivery
open Qt Runs

/-- A request put on the wire for a send, with the token the client held then. -/
structure Posting where
  retry : Bool
  bearer : Option String
  noAuthRetry : Bool
  token : String
  epoch : Nat

inductive Entry where
  | sent (send epoch : Nat)
  | posted (send : Nat) (p : Posting)
  | answered (send status epoch : Nat)
  | refreshed (send : Nat) (ok : Bool) (epoch : Nat)
  | called (send : Nat) (stale : Bool) (epoch : Nat)

structure State where
  client : ApiClient Nat
  parked : List (Parked Nat) := []
  /-- The calls to `setBaseUrl` under way, innermost first: what each has yet to abort. -/
  aborting : List (List Nat) := []
  sends : Nat := 0
  log : List Entry := []

inductive Event where
  | send (request : Request)
  | finished (id : Nat) (raw : RawReply)
  | refreshed (send : Nat) (ok : Bool)
  | setBaseUrl (base : QUrl)
  | abort (id : Nat) (raw : RawReply)
  | endSetBaseUrl
  | setAccessToken (token : String)

def post (s : State) (request : Request) (send : Nat) (retry : Bool) : State :=
  {s with
    client := s.client.sendImpl request send (!retry)
    log := .posted send
      ⟨retry, request.bearer, request.noAuthRetry, s.client.accessToken, s.client.epoch⟩ :: s.log}

def call (s : State) (send : Nat) (stale : Bool) : State :=
  {s with log := .called send stale s.client.epoch :: s.log}

def send (s : State) (request : Request) : State :=
  post {s with sends := s.sends + 1, log := .sent s.sends s.client.epoch :: s.log} request s.sends false

/-- Qt reports the reply of `x` finished: `rest` is what is still in flight. -/
def land (s : State) (x : Exchange Nat) (rest : List (Exchange Nat)) (raw : RawReply) : State :=
  {s with
    client := {s.client with inFlight := rest}
    log := .answered x.cb raw.status s.client.epoch :: s.log}

/-- The finished handler of `sendImpl`. -/
def onFinished (s : State) (x : Exchange Nat) (raw : RawReply) : State :=
  let s' := {s with client := {s.client with active := s.client.active.erase x.id}}
  if s.client.asksRefresh x raw then {s' with parked := s.client.park x raw :: s.parked}
  else call s' x.cb (s.client.response x raw).stale

def finished (s : State) (id : Nat) (raw : RawReply) : State :=
  match pick (fun x => x.id == id) s.client.inFlight with
  | none => s
  | some (x, rest) => onFinished (land s x rest raw) x raw

/-- The unauthorized handler is done with the closure of `p`: `rest` still waits. -/
def unpark (s : State) (p : Parked Nat) (rest : List (Parked Nat)) (ok : Bool) : State :=
  {s with parked := rest, log := .refreshed p.cb ok s.client.epoch :: s.log}

/-- The closure that `sendImpl` gives the unauthorized handler. -/
def onRefreshed (s : State) (p : Parked Nat) (ok : Bool) : State :=
  match s.client.resume p ok with
  | (_, some res) => call s p.cb res.stale
  | (_, none) => post s {p.request with bearer := some s.client.accessToken} p.cb true

def refreshed (s : State) (send : Nat) (ok : Bool) : State :=
  match pick (fun p => p.cb == send) s.parked with
  | none => s
  | some (p, rest) => onRefreshed (unpark s p rest ok) p ok

def setBaseUrl (s : State) (base : QUrl) : State :=
  if s.client.baseUrl = base then s
  else {s with client := s.client.moveBase base, aborting := s.client.active :: s.aborting}

/-- The innermost `setBaseUrl` aborts one of its replies; a reply that already
finished stays as it is. -/
def abort (s : State) (id : Nat) (raw : RawReply) : State :=
  match s.aborting with
  | frame :: outer =>
    if id ∈ frame then finished {s with aborting := frame.erase id :: outer} id raw else s
  | [] => s

def endSetBaseUrl (s : State) : State :=
  match s.aborting with
  | [] :: outer => {s with client := {s.client with active := []}, aborting := outer}
  | _ => s

def step (s : State) : Event → State
  | .send request => send s request
  | .finished id raw => finished s id raw
  | .refreshed i ok => refreshed s i ok
  | .setBaseUrl base => setBaseUrl s base
  | .abort id raw => abort s id raw
  | .endSetBaseUrl => endSetBaseUrl s
  | .setAccessToken token => {s with client := s.client.setAccessToken token}

def machine : Machine State Event := ⟨step⟩

/-- A client that has sent nothing yet. -/
def start (endpoints : Endpoints) (accessToken : String) (epoch : Nat) (onUnauthorized : Bool) :
    State :=
  {client := {endpoints, accessToken, epoch, onUnauthorized}}

/-! ### What a history must show -/

def isCall (i : Nat) : Entry → Bool
  | .called j _ _ => j == i
  | _ => false

def isPosting (i : Nat) : Entry → Bool
  | .posted j _ => j == i
  | _ => false

/-- How often the closure of a send was called. -/
def calls (log : List Entry) (i : Nat) : Nat := log.countP (isCall i)

/-- How many requests a send put on the wire. -/
def postings (log : List Entry) (i : Nat) : Nat := log.countP (isPosting i)

/-- The epochs a send was made in. -/
def sentIn (log : List Entry) (i e : Nat) : Prop := .sent i e ∈ log

/-- What must have happened before an entry.

A send is made once. Its first request is the first; a second one follows a 401
and a successful refresh, both in the epoch of the send, is not marked
`NoAuthRetry` and carries the token held at that moment. Its closure is called
once, with `stale` set exactly when the epoch is no longer that of the send. -/
def Allowed (older : List Entry) : Entry → Prop
  | .sent i _ => ∀ e, ¬sentIn older i e
  | .posted i p =>
    if p.retry then
      postings older i = 1 ∧ sentIn older i p.epoch ∧ .answered i 401 p.epoch ∈ older ∧
        .refreshed i true p.epoch ∈ older ∧ p.noAuthRetry = false ∧ p.bearer = some p.token
    else postings older i = 0 ∧ sentIn older i p.epoch
  | .called i stale e => calls older i = 0 ∧ ∃ e₀, sentIn older i e₀ ∧ (stale = true ↔ e₀ ≠ e)
  | _ => True

/-- The closure of send `i` was called once more, and no other. -/
def Calls (s s' : State) (i : Nat) : Prop := ∀ j, calls s'.log j = calls s.log j + if i = j then 1 else 0

/-- The reply is in flight no more. Its closure was called, or waits for a refresh. -/
def Lands (s s' : State) (id : Nat) : Prop :=
  match pick (fun x => x.id == id) s.client.inFlight with
  | none => s' = s
  | some (x, rest) => s'.client.inFlight = rest ∧
      (Calls s s' x.cb ∧ s'.parked = s.parked ∨
        (∀ j, calls s'.log j = calls s.log j) ∧ ∃ p, p.cb = x.cb ∧ s'.parked = p :: s.parked)

/-- The closure waits no more. It was called, or its request is on the wire again. -/
def Resumes (s s' : State) (send : Nat) : Prop :=
  match pick (fun p => p.cb == send) s.parked with
  | none => s' = s
  | some (p, rest) => s'.parked = rest ∧
      (Calls s s' p.cb ∧ s'.client.inFlight = s.client.inFlight ∨
        (∀ j, calls s'.log j = calls s.log j) ∧
          ∃ x, x.cb = p.cb ∧ s'.client.inFlight = x :: s.client.inFlight)

/-- A delivery settles what it delivers. -/
def Settles (s : State) : Event → Prop
  | .finished id raw => Lands s (finished s id raw) id
  | .refreshed send ok => Resumes s (refreshed s send ok) send
  | .abort id raw => ∀ frame outer, s.aborting = frame :: outer → id ∈ frame →
      Lands {s with aborting := frame.erase id :: outer} (abort s id raw) id
  | _ => True

/-! ### The invariant -/

/-- How much of a send is outstanding. -/
def live (s : State) (i : Nat) : Nat :=
  s.client.inFlight.countP (fun x => x.cb == i) + s.parked.countP (fun p => p.cb == i)

/-- A request on the wire: sent in its epoch, the first of its send or the second. -/
structure Flying (log : List Entry) (x : Exchange Nat) : Prop where
  sent : sentIn log x.cb x.epoch
  posted : postings log x.cb = if x.allowRetry then 1 else 2

/-- A parked closure: its only request answered 401 in the epoch of the send. -/
structure Waiting (log : List Entry) (p : Parked Nat) : Prop where
  sent : sentIn log p.cb p.epoch
  posted : postings log p.cb = 1
  answered : .answered p.cb 401 p.epoch ∈ log
  mayRetry : p.request.noAuthRetry = false
  fresh : p.res.stale = false

structure Inv (s : State) : Prop where
  justified : Justified Allowed s.log
  balance : ∀ i, live s i + calls s.log i = if i < s.sends then 1 else 0
  flying : ∀ x ∈ s.client.inFlight, Flying s.log x
  waiting : ∀ p ∈ s.parked, Waiting s.log p
  postings_le : ∀ i, postings s.log i ≤ 2
  unsent : ∀ i, s.sends ≤ i → postings s.log i = 0 ∧ ∀ e, ¬sentIn s.log i e

theorem inv_start (endpoints : Endpoints) (token : String) (epoch : Nat) (h : Bool) :
    Inv (start endpoints token epoch h) where
  justified := trivial
  balance i := rfl
  flying x hx := by cases hx
  waiting p hp := by cases hp
  postings_le i := Nat.zero_le _
  unsent i _ := ⟨rfl, fun e he => by cases he⟩

/-! ### Entries that say nothing about calls, postings or sends -/

/-- An answer or the outcome of a refresh. -/
def Silent : Entry → Prop
  | .answered .. => True
  | .refreshed .. => True
  | _ => False

theorem calls_silent {a : Entry} (h : Silent a) (log : List Entry) (i : Nat) :
    calls (a :: log) i = calls log i := by
  cases a <;> first | rfl | exact h.elim

theorem postings_silent {a : Entry} (h : Silent a) (log : List Entry) (i : Nat) :
    postings (a :: log) i = postings log i := by
  cases a <;> first | rfl | exact h.elim

theorem sentIn_cons_ne {a : Entry} (h : ∀ i e, a ≠ .sent i e) (log : List Entry) (i e : Nat) :
    sentIn (a :: log) i e ↔ sentIn log i e := by
  unfold sentIn
  rw [List.mem_cons]
  exact ⟨fun hs => hs.resolve_left fun he => h i e he.symm, .inr⟩

theorem sentIn_silent {a : Entry} (h : Silent a) (log : List Entry) (i e : Nat) :
    sentIn (a :: log) i e ↔ sentIn log i e := by
  refine sentIn_cons_ne (fun j e' he => ?_) log i e
  rw [he] at h
  exact h

theorem Flying.silent {a : Entry} (h : Silent a) {log : List Entry} {x : Exchange Nat}
    (hx : Flying log x) : Flying (a :: log) x :=
  ⟨(sentIn_silent h log _ _).mpr hx.sent, by rw [postings_silent h]; exact hx.posted⟩

theorem Waiting.silent {a : Entry} (h : Silent a) {log : List Entry} {p : Parked Nat}
    (hp : Waiting log p) : Waiting (a :: log) p :=
  ⟨(sentIn_silent h log _ _).mpr hp.sent, by rw [postings_silent h]; exact hp.posted,
    List.mem_cons_of_mem _ hp.answered, hp.mayRetry, hp.fresh⟩

/-- A silent entry that nothing forbids changes nothing the invariant says. -/
theorem inv_silent {s : State} (h : Inv s) {a : Entry} (ha : Silent a) (hok : Allowed s.log a) :
    Inv {s with log := a :: s.log} where
  justified := ⟨hok, h.justified⟩
  balance i := by
    have := h.balance i
    rwa [← calls_silent ha] at this
  flying x hx := (h.flying x hx).silent ha
  waiting p hp := (h.waiting p hp).silent ha
  postings_le i := by
    rw [postings_silent ha]
    exact h.postings_le i
  unsent i hi := by
    rw [postings_silent ha]
    exact ⟨(h.unsent i hi).1, fun e he => (h.unsent i hi).2 e ((sentIn_silent ha _ _ _).mp he)⟩

/-! ### Calling a closure -/

theorem calls_called (log : List Entry) (i j e : Nat) (stale : Bool) :
    calls (.called j stale e :: log) i = calls log i + if j = i then 1 else 0 := by
  unfold calls
  rw [List.countP_cons]
  simp [isCall]

theorem sentIn_called (log : List Entry) (i e j e' : Nat) (stale : Bool) :
    sentIn (.called j stale e' :: log) i e ↔ sentIn log i e :=
  sentIn_cons_ne (fun _ _ h => by cases h) log i e

/-- One piece of outstanding work of send `j` becomes a call of its closure, and
nothing else moves. -/
theorem inv_call {s s' : State} (h : Inv s) {j : Nat} {stale : Bool} (hlog : s'.log = s.log)
    (hsends : s'.sends = s.sends)
    (hlive : ∀ i, live s i = live s' i + if j = i then 1 else 0)
    (hfly : ∀ x ∈ s'.client.inFlight, x ∈ s.client.inFlight) (hwait : ∀ p ∈ s'.parked, p ∈ s.parked)
    (hstale : ∃ e₀, sentIn s.log j e₀ ∧ (stale = true ↔ e₀ ≠ s'.client.epoch)) :
    Inv (call s' j stale) where
  justified := by
    refine ⟨⟨?_, ?_⟩, ?_⟩
    · have hj := h.balance j
      have hl := hlive j
      rw [if_pos rfl] at hl
      rw [hlog]
      split at hj <;> omega
    · rw [hlog]
      exact hstale
    · rw [hlog]
      exact h.justified
  balance i := by
    have hi := h.balance i
    have hl := hlive i
    show live s' i + calls (.called j stale s'.client.epoch :: s'.log) i = if i < s'.sends then 1 else 0
    rw [calls_called, hlog, hsends]
    omega
  flying x hx := by
    have hx := h.flying x (hfly x hx)
    refine ⟨?_, ?_⟩
    · show sentIn (.called j stale s'.client.epoch :: s'.log) _ _
      rw [sentIn_called, hlog]
      exact hx.sent
    · show postings s'.log x.cb = _
      rw [hlog]
      exact hx.posted
  waiting p hp := by
    have hp := h.waiting p (hwait p hp)
    refine ⟨?_, ?_, ?_, hp.mayRetry, hp.fresh⟩
    · show sentIn (.called j stale s'.client.epoch :: s'.log) _ _
      rw [sentIn_called, hlog]
      exact hp.sent
    · show postings s'.log p.cb = _
      rw [hlog]
      exact hp.posted
    · show _ ∈ _ :: s'.log
      rw [hlog]
      exact List.mem_cons_of_mem _ hp.answered
  postings_le i := by
    show postings s'.log i ≤ 2
    rw [hlog]
    exact h.postings_le i
  unsent i hi := by
    have hi := h.unsent i (by rw [← hsends]; exact hi)
    rw [← hlog] at hi
    exact ⟨hi.1, fun e he => hi.2 e ((sentIn_called ..).mp he)⟩

/-! ### Putting a request on the wire -/

theorem postings_posted (log : List Entry) (i j : Nat) (p : Posting) :
    postings (.posted j p :: log) i = postings log i + if j = i then 1 else 0 := by
  unfold postings
  rw [List.countP_cons]
  simp [isPosting]

theorem sentIn_posted (log : List Entry) (i e j : Nat) (p : Posting) :
    sentIn (.posted j p :: log) i e ↔ sentIn log i e :=
  sentIn_cons_ne (fun _ _ h => by cases h) log i e

theorem live_post (s : State) (request : Request) (j : Nat) (retry : Bool) (i : Nat) :
    live (post s request j retry) i = live s i + if j = i then 1 else 0 := by
  simp only [live, post, ApiClient.sendImpl, List.countP_cons]
  by_cases h : j = i
  · simp [h]
    omega
  · simp [h]

/-- A send posts its first request, in its own epoch. -/
theorem inv_send {s : State} (h : Inv s) (request : Request) : Inv (send s request) := by
  have hnone := h.unsent s.sends (Nat.le_refl _)
  have hother : ∀ {i}, postings s.log i ≠ 0 → s.sends ≠ i := by
    intro i hi he
    rw [← he] at hi
    exact hi hnone.1
  have hlift : ∀ {i e}, sentIn s.log i e →
      sentIn (send s request).log i e := by
    intro i e hs
    exact List.mem_cons_of_mem _ (List.mem_cons_of_mem _ hs)
  have hposted : ∀ i, postings (send s request).log i =
      postings s.log i + if s.sends = i then 1 else 0 := fun i => postings_posted _ _ _ _
  constructor
  · refine ⟨?_, fun e => hnone.2 e, h.justified⟩
    refine ⟨?_, List.mem_cons_self ..⟩
    exact hnone.1
  · intro i
    have hi := h.balance i
    have hl : live (send s request) i = live s i + if s.sends = i then 1 else 0 :=
      live_post _ request s.sends false i
    show live (send s request) i + calls s.log i = if i < s.sends + 1 then 1 else 0
    rw [hl]
    split_ifs at hi ⊢ <;> omega
  · intro x hx
    rcases List.mem_cons.mp hx with rfl | hx
    · refine ⟨List.mem_cons_of_mem _ (List.mem_cons_self ..), ?_⟩
      rw [hposted, if_pos rfl, hnone.1]
      rfl
    · have hx := h.flying x hx
      refine ⟨hlift hx.sent, ?_⟩
      have hne : s.sends ≠ x.cb := hother (by rw [hx.posted]; split <;> decide)
      rw [hposted, if_neg hne]
      exact hx.posted
  · intro p hp
    have hp := h.waiting p hp
    refine ⟨hlift hp.sent, ?_,
      List.mem_cons_of_mem _ (List.mem_cons_of_mem _ hp.answered), hp.mayRetry, hp.fresh⟩
    rw [hposted, if_neg (hother (by rw [hp.posted]; decide)), hp.posted]
  · intro i
    have hi := h.postings_le i
    rw [hposted]
    split
    · next he => rw [← he, hnone.1]; decide
    · exact hi
  · intro i hi
    have hi' : s.sends + 1 ≤ i := hi
    have hu := h.unsent i (by omega)
    have hne : s.sends ≠ i := by omega
    refine ⟨by rw [hposted, if_neg hne, hu.1], fun e he => ?_⟩
    rcases List.mem_cons.mp he with he | he
    · cases he
    · rcases List.mem_cons.mp he with he | he
      · cases he
        exact hne rfl
      · exact hu.2 e he

/-- A parked closure whose refresh succeeded in its epoch posts its request again. -/
theorem inv_retry {s : State} (h : Inv s) {p : Parked Nat} {rest : List (Parked Nat)}
    {accepts : Parked Nat → Bool} (hpick : pick accepts s.parked = some (p, rest))
    (he : p.epoch = s.client.epoch) (hr : .refreshed p.cb true p.epoch ∈ s.log) :
    Inv (post {s with parked := rest} {p.request with bearer := some s.client.accessToken} p.cb true) := by
  have hp := h.waiting p (pick_mem hpick)
  have hcount := pick_count hpick fun q => q.cb == p.cb
  rw [if_pos (beq_self_eq_true _)] at hcount
  have hbal := h.balance p.cb
  -- The parked closure was all that was outstanding of its send.
  have hlone : (∀ x ∈ s.client.inFlight, p.cb ≠ x.cb) ∧ (∀ q ∈ rest, p.cb ≠ q.cb) := by
    unfold live at hbal
    have hf : s.client.inFlight.countP (fun x => x.cb == p.cb) = 0 := by split at hbal <;> omega
    have hq : rest.countP (fun q => q.cb == p.cb) = 0 := by split at hbal <;> omega
    rw [List.countP_eq_zero] at hf hq
    exact ⟨fun x hx hc => hf x hx (by simp [hc]), fun q hq' hc => hq q hq' (by simp [hc])⟩
  have hposted : ∀ i (q : Posting), postings (.posted p.cb q :: s.log) i =
      postings s.log i + if p.cb = i then 1 else 0 := fun i q => postings_posted _ _ _ _
  constructor
  · refine ⟨?_, h.justified⟩
    refine ⟨hp.posted, ?_, ?_, ?_, hp.mayRetry, rfl⟩
    · show sentIn s.log p.cb s.client.epoch
      rw [← he]
      exact hp.sent
    · show Entry.answered p.cb 401 s.client.epoch ∈ s.log
      rw [← he]
      exact hp.answered
    · show Entry.refreshed p.cb true s.client.epoch ∈ s.log
      rw [← he]
      exact hr
  · intro i
    have hi := h.balance i
    have hc := pick_count hpick fun q => q.cb == i
    have hl := live_post {s with parked := rest}
      {p.request with bearer := some s.client.accessToken} p.cb true i
    show live _ i + calls s.log i = if i < s.sends then 1 else 0
    rw [hl]
    simp only [live, beq_iff_eq] at hi hc ⊢
    omega
  · intro x hx
    rcases List.mem_cons.mp hx with rfl | hx
    · refine ⟨?_, ?_⟩
      · refine (sentIn_posted ..).mpr ?_
        show sentIn s.log p.cb s.client.epoch
        rw [← he]
        exact hp.sent
      · refine (hposted _ _).trans ?_
        rw [if_pos rfl, hp.posted]
        rfl
    · have hx' := h.flying x hx
      refine ⟨(sentIn_posted ..).mpr hx'.sent, ?_⟩
      refine (hposted _ _).trans ?_
      rw [if_neg (hlone.1 x hx)]
      exact hx'.posted
  · intro q hq
    have hq' := h.waiting q (pick_rest hpick hq)
    refine ⟨(sentIn_posted ..).mpr hq'.sent, ?_, List.mem_cons_of_mem _ hq'.answered, hq'.mayRetry,
      hq'.fresh⟩
    refine (hposted _ _).trans ?_
    rw [if_neg (hlone.2 q hq)]
    exact hq'.posted
  · intro i
    have hi := h.postings_le i
    refine (hposted _ _).trans_le ?_
    split
    · next hc => rw [← hc, hp.posted]
    · exact hi
  · intro i hi
    have hu := h.unsent i hi
    have hne : p.cb ≠ i := by
      intro hc
      rw [← hc] at hu
      exact hu.2 p.epoch hp.sent
    refine ⟨(hposted _ _).trans ?_, fun e hs => hu.2 e ((sentIn_posted ..).mp hs)⟩
    rw [if_neg hne, hu.1]

/-! ### Every event keeps the invariant -/

theorem live_land {s : State} {accepts : Exchange Nat → Bool} {x : Exchange Nat}
    {rest : List (Exchange Nat)} (hpick : pick accepts s.client.inFlight = some (x, rest)) (raw : RawReply)
    (i : Nat) : live s i = live (land s x rest raw) i + if x.cb = i then 1 else 0 := by
  have := pick_count hpick fun y => y.cb == i
  simp only [live, land, beq_iff_eq] at this ⊢
  omega

theorem live_unpark {s : State} {accepts : Parked Nat → Bool} {p : Parked Nat}
    {rest : List (Parked Nat)} (hpick : pick accepts s.parked = some (p, rest)) (ok : Bool) (i : Nat) :
    live s i = live (unpark s p rest ok) i + if p.cb = i then 1 else 0 := by
  have := pick_count hpick fun q => q.cb == i
  simp only [live, unpark, beq_iff_eq] at this ⊢
  omega

/-- What a reply has to be for its closure to be parked. -/
theorem asksRefresh_iff {c : ApiClient Nat} {x : Exchange Nat} {raw : RawReply} :
    c.asksRefresh x raw = true ↔ raw.status = 401 ∧ x.allowRetry = true ∧
      x.request.noAuthRetry = false ∧ x.epoch = c.epoch ∧ c.onUnauthorized = true := by
  simp [ApiClient.asksRefresh, ApiClient.response, buildResponse, and_assoc]

theorem inv_park {s : State} (h : Inv s) {accepts : Exchange Nat → Bool} {x : Exchange Nat}
    {rest : List (Exchange Nat)} (hpick : pick accepts s.client.inFlight = some (x, rest))
    {raw : RawReply} (ha : s.client.asksRefresh x raw = true)
    (hanswered : .answered x.cb 401 s.client.epoch ∈ s.log) :
    Inv {s with client := s.client.drop x rest, parked := s.client.park x raw :: s.parked} := by
  obtain ⟨_, hretry, hno, he, _⟩ := asksRefresh_iff.mp ha
  have hx := h.flying x (pick_mem hpick)
  have hposted := hx.posted
  rw [hretry, if_pos rfl] at hposted
  refine { h with balance := ?_, flying := ?_, waiting := ?_ }
  · intro i
    have hi := h.balance i
    have hd := live_land hpick raw i
    simp only [live, land, ApiClient.drop, List.countP_cons, ApiClient.park, beq_iff_eq] at hi hd ⊢
    omega
  · exact fun y hy => h.flying y (pick_rest hpick hy)
  · intro p hp
    rcases List.mem_cons.mp hp with rfl | hp
    · refine ⟨hx.sent, hposted, ?_, hno, ?_⟩
      · show Entry.answered x.cb 401 x.epoch ∈ s.log
        rw [he]
        exact hanswered
      · simp [ApiClient.park, ApiClient.response, he]
    · exact h.waiting p hp

theorem inv_finished {s : State} (h : Inv s) (id : Nat) (raw : RawReply) :
    Inv (finished s id raw) := by
  unfold finished
  split
  · exact h
  · next x rest hpick =>
    have h' : Inv {s with log := .answered x.cb raw.status s.client.epoch :: s.log} :=
      inv_silent h (a := .answered ..) trivial trivial
    have hx := (h'.flying x (pick_mem hpick)).sent
    unfold onFinished
    dsimp only
    split
    · next ha =>
      obtain ⟨h401, _⟩ := asksRefresh_iff.mp ha
      exact inv_park h' hpick ha (by rw [h401]; exact List.mem_cons_self ..)
    · refine inv_call h' rfl rfl (live_land hpick raw) (fun y hy => pick_rest hpick hy) (fun _ hp => hp)
        ⟨x.epoch, hx, ?_⟩
      simp [ApiClient.response, land]

theorem inv_refreshed {s : State} (h : Inv s) (i : Nat) (ok : Bool) : Inv (refreshed s i ok) := by
  unfold refreshed
  split
  · exact h
  · next p rest hpick =>
    have h' : Inv {s with log := .refreshed p.cb ok s.client.epoch :: s.log} :=
      inv_silent h (a := .refreshed ..) trivial trivial
    have hp := h'.waiting p (pick_mem hpick)
    unfold onRefreshed
    cases hc : !ok || p.epoch != s.client.epoch
    · simp only [Bool.or_eq_false_iff, Bool.not_eq_eq_eq_not, Bool.not_false, bne_eq_false_iff_eq] at hc
      obtain ⟨rfl, he⟩ := hc
      simp only [ApiClient.resume, unpark, he, Bool.not_true, bne_self_eq_false, Bool.or_self,
        Bool.false_eq_true, if_false]
      exact inv_retry h' hpick he (by rw [he]; exact List.mem_cons_self ..)
    · simp only [ApiClient.resume, unpark, hc, if_true]
      refine inv_call h' rfl rfl (live_unpark hpick ok) (fun _ hx => hx) (fun q hq => pick_rest hpick hq)
        ⟨p.epoch, hp.sent, ?_⟩
      simp [hp.fresh]

theorem inv_step {s : State} (h : Inv s) (e : Event) : Inv (step s e) := by
  cases e with
  | send request => exact inv_send h request
  | finished id raw => exact inv_finished h id raw
  | refreshed i ok => exact inv_refreshed h i ok
  | setBaseUrl base =>
    show Inv (setBaseUrl s base)
    unfold setBaseUrl
    split
    · exact h
    · exact { h with }
  | abort id raw =>
    show Inv (abort s id raw)
    unfold abort
    split
    · next frame outer _ =>
      split
      · have h' : Inv {s with aborting := frame.erase id :: outer} := { h with }
        exact inv_finished h' id raw
      · exact h
    · exact h
  | endSetBaseUrl =>
    show Inv (endSetBaseUrl s)
    unfold endSetBaseUrl
    split
    · exact { h with }
    · exact h
  | setAccessToken token => exact { h with }

theorem keeps : Machine.Keeps machine (fun _ _ => True) Inv := ⟨fun _ e h _ => inv_step h e⟩

/-! ### What a delivery does -/

theorem calls_call (s : State) (i : Nat) (stale : Bool) : Calls s (call s i stale) i :=
  fun j => calls_called s.log j i s.client.epoch stale

theorem lands (s : State) (id : Nat) (raw : RawReply) : Lands s (finished s id raw) id := by
  unfold Lands finished
  cases pick (fun x => x.id == id) s.client.inFlight with
  | none => rfl
  | some picked =>
    obtain ⟨x, rest⟩ := picked
    dsimp only [onFinished]
    split
    · exact ⟨rfl, .inr ⟨fun j => rfl, _, rfl, rfl⟩⟩
    · refine ⟨rfl, .inl ⟨fun j => ?_, rfl⟩⟩
      exact calls_call (land s x rest raw) x.cb _ j

theorem resumes (s : State) (send : Nat) (ok : Bool) : Resumes s (refreshed s send ok) send := by
  unfold Resumes refreshed
  cases pick (fun p => p.cb == send) s.parked with
  | none => rfl
  | some picked =>
    obtain ⟨p, rest⟩ := picked
    dsimp only [onRefreshed, ApiClient.resume]
    split
    · next hlate =>
      split at hlate
      · refine ⟨rfl, .inl ⟨fun j => ?_, rfl⟩⟩
        exact calls_call (unpark s p rest ok) p.cb _ j
      · cases hlate
    · exact ⟨rfl, .inr ⟨fun j => rfl, _, rfl, rfl⟩⟩

theorem settles (s : State) (e : Event) : Settles s e := by
  cases e with
  | finished id raw => exact lands s id raw
  | refreshed send ok => exact resumes s send ok
  | abort id raw =>
    intro frame outer haborting hid
    have habort : abort s id raw = finished {s with aborting := frame.erase id :: outer} id raw := by
      unfold abort
      rw [haborting]
      exact if_pos hid
    rw [habort]
    exact lands _ id raw
  | send request => trivial
  | setBaseUrl base => trivial
  | endSetBaseUrl => trivial
  | setAccessToken token => trivial

/-- **Delivery and retry.** Whatever is sent, answered, aborted, refreshed or
re-pointed, in whatever order and from inside whatever closure: every entry of
the history is justified by the older ones, no send has its closure called twice
or puts more than two requests on the wire, and once no reply and no refresh is
outstanding every send has had its closure called. A reply or an outcome that is
delivered is outstanding no more. -/
theorem delivery (endpoints : Endpoints) (token : String) (epoch : Nat) (handler : Bool)
    (events : List Event) :
    let s := machine.run (start endpoints token epoch handler) events
    Justified Allowed s.log ∧
      (∀ i, calls s.log i ≤ 1 ∧ postings s.log i ≤ 2) ∧
      (s.client.inFlight = [] → s.parked = [] → ∀ i, i < s.sends → calls s.log i = 1) ∧
      machine.Along Settles (start endpoints token epoch handler) events := by
  intro s
  have h : Inv s := keeps.always (inv_start endpoints token epoch handler) events
  refine ⟨h.justified, fun i => ⟨?_, h.postings_le i⟩, fun hf hp i hi => ?_,
    Machine.along_of_forall settles _ events⟩
  · have := h.balance i
    split at this <;> omega
  · have := h.balance i
    simpa [live, hf, hp, hi] using this

/-- The server signed in to, and another one. -/
def home : Endpoints := Endpoints.setBase {scheme := "https", host := "a.example", path := []}

def elsewhere : QUrl := {scheme := "https", host := "b.example", path := []}

def question : Request := {verb := .get, target := home.status, bearer := some "t0"}

/-- A request is answered 401, refreshed and sent again; the next one is aborted by a change of
base. -/
def errands : List Event :=
  [.send question, .setAccessToken "t1", .finished 0 {status := 401}, .refreshed 0 true,
    .finished 1 {status := 200}, .send question, .setBaseUrl elsewhere,
    .abort 2 {status := 0, error := some "Operation canceled"}, .endSetBaseUrl]

theorem delivery_errands :
    let s := machine.run (start home "t0" 0 true) errands
    (s.client.inFlight = [] ∧ s.parked = [] ∧ s.client.active = [] ∧ s.client.epoch = 1) ∧
      s.sends = 2 ∧ postings s.log 0 = 2 ∧ postings s.log 1 = 1 ∧
      .called 0 false 0 ∈ s.log ∧ .called 1 true 1 ∈ s.log ∧ ∀ i, i < 2 → calls s.log i = 1 := by
  intro s
  have hend : s.client.inFlight = [] ∧ s.parked = [] := ⟨rfl, rfl⟩
  refine ⟨⟨hend.1, hend.2, rfl, rfl⟩, rfl, rfl, rfl, ?_, ?_, ?_⟩
  · exact List.mem_of_getElem? (i := 4) rfl
  · exact List.mem_of_getElem? (i := 0) rfl
  · exact (delivery home "t0" 0 true errands).2.2.1 hend.1 hend.2

end ShelfRemote.Net.Delivery
