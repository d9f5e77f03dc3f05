import Mathlib.Logic.Function.Basic
import ShelfRemote.App.Callbacks
import ShelfRemote.Lib.Runs

/-! One instance at a time.

A launch opens the lock file and asks the kernel for the lock. The one that gets it removes
whatever socket is left at the path and listens there; the others connect to the path, write
the callback they were started with, and are gone. Every system call is a step of its own, so
launches interleave, fail and crash between any two of them.

`one_owner` says who may run, and `primary_reached` when the path leads to the one that does. -/
namespace ShelfRemote.App
open Qt Runs

namespace Instance

/-- A launch of the program. -/
abbrev Pid := Nat

/-- The callback on a command line, which the system keeps far below this length. -/
structure Argument where
  text : String
  fits : (utf8 text).length < 2 ^ 32

/-- How far a launch has come. -/
inductive Phase where
  | absent
  | starting
  /-- In `acquire`: the lock file is open; the lock is there; the old socket is removed. -/
  | opened
  | locked
  | removed
  /-- In `forwardToPrimary`, the lock being another's or (`false`) the lock file not to be had. -/
  | forwarding (contended : Bool)
  | connected
  | written
  /-- `acquire` returned true; `main` is in its event loop, and out of it. -/
  | acquired
  | running
  | leaving
  /-- In `~SingleInstanceGuard`, without the lock. -/
  | released
  | gone
  deriving DecidableEq

/-- The connection of a launch to the one that listens. -/
structure Link where
  peer : Pid
  /-- Written and not yet read. -/
  inFlight : Bytes := []
  received : Callback.Connection := {state := {}}

structure Launch where
  phase : Phase := .absent
  /-- `m_lockFd >= 0`. -/
  lockFd : Bool := false
  /-- `m_server`. -/
  listening : Bool := false
  link : Option Link := none
  /-- What `writeFrame` returned. -/
  acknowledged : Bool := false

/-- A call of `UriHandler::handle`. -/
structure Handled where
  handler : Pid
  origin : Pid
  uri : String
  deriving DecidableEq

structure State where
  /-- Who has the lock. -/
  lock : Option Pid := none
  /-- Whose socket is at the path. -/
  path : Option Pid := none
  launches : Pid → Launch := fun _ => {}
  handled : List Handled := []

inductive Event where
  | start (p : Pid)
  | openLock (p : Pid) (ok : Bool)
  | flock (p : Pid) (error : Bool)
  | removeServer (p : Pid) (ok : Bool)
  | listen (p : Pid) (ok : Bool)
  /-- A probe of `forwardToPrimary` finds someone, and the time for probes is over. -/
  | connect (p : Pid)
  | expire (p : Pid)
  /-- As many bytes of the frame get through. -/
  | write (p : Pid) (count : Nat)
  /-- As many of them are read at the other end. -/
  | arrive (p : Pid) (count : Nat)
  | acknowledge (p : Pid)
  | giveUp (p : Pid)
  /-- `main` up to `app.exec()`. -/
  | enter (p : Pid)
  | quit (p : Pid)
  /-- `~SingleInstanceGuard`, and the end of `m_server` after it. -/
  | unlock (p : Pid)
  | close (p : Pid) (unlinks : Bool)
  | crash (p : Pid)
  deriving DecidableEq

def State.put (s : State) (p : Pid) (l : Launch) : State := {s with launches := Function.update s.launches p l}

@[simp] theorem put_lock (s : State) (p : Pid) (l : Launch) : (s.put p l).lock = s.lock := rfl
@[simp] theorem put_path (s : State) (p : Pid) (l : Launch) : (s.put p l).path = s.path := rfl
@[simp] theorem put_handled (s : State) (p : Pid) (l : Launch) : (s.put p l).handled = s.handled := rfl
@[simp] theorem put_same (s : State) (p : Pid) (l : Launch) : (s.put p l).launches p = l :=
  Function.update_self ..

theorem put_launches (s : State) (p q : Pid) (l : Launch) :
    (s.put p l).launches q = if q = p then l else s.launches q :=
  Function.update_apply ..

section Step
variable (u : Utf8) (arg : Pid → Argument)

/-- `startListening`. Listening replaces what is at the path. -/
def startListening (s : State) (p : Pid) (ok : Bool) : State :=
  {s.put p {s.launches p with phase := .acquired, listening := ok} with path := if ok then some p else s.path}

/-- A connection to the path, if the socket there is open. An empty callback needs nothing more. -/
def connect (s : State) (p : Pid) : State :=
  match s.path with
  | none => s
  | some q =>
    if (s.launches q).listening = false then s
    else if (arg p).text = "" then s.put p {s.launches p with phase := .gone}
    else s.put p {s.launches p with phase := .connected, link := some {peer := q}}

/-- `writeFrame` up to its wait for the answer. -/
def write (s : State) (p : Pid) (link : Link) (count : Nat) : State :=
  let frame := Callback.frame (arg p).text
  let link := {link with inFlight := link.inFlight ++ frame.take count}
  let phase := if frame.length ≤ count then .written else .gone
  s.put p {s.launches p with phase := phase, link := some link}

/-- `readyRead` at the other end, which hands on what it has read. -/
def arrive (s : State) (p : Pid) (link : Link) (count : Nat) : State :=
  let received := Callback.readyRead u link.received (link.inFlight.take count)
  let new := received.state.uris.drop link.received.state.uris.length
  let link := {link with inFlight := link.inFlight.drop count, received := received}
  { s.put p {s.launches p with link := some link} with
    handled := s.handled ++ new.map fun uri => ⟨link.peer, p, uri⟩ }

def step (s : State) : Event → State
  | .start p => if (s.launches p).phase = .absent then s.put p {s.launches p with phase := .starting} else s
  | .openLock p ok =>
    if (s.launches p).phase = .starting then
      if ok then s.put p {s.launches p with phase := .opened, lockFd := true}
      else s.put p {s.launches p with phase := .forwarding false}
    else s
  | .flock p error =>
    if (s.launches p).phase = .opened then
      if error = false ∧ s.lock = none then {s.put p {s.launches p with phase := .locked} with lock := some p}
      else s.put p {s.launches p with phase := .forwarding true, lockFd := false}
    else s
  | .removeServer p ok =>
    if (s.launches p).phase = .locked then
      {s.put p {s.launches p with phase := .removed} with path := if ok then none else s.path}
    else s
  | .listen p ok => if (s.launches p).phase = .removed then startListening s p ok else s
  | .connect p =>
    match (s.launches p).phase with
    | .forwarding _ => connect arg s p
    | _ => s
  | .expire p =>
    match (s.launches p).phase with
    | .forwarding contended => s.put p {s.launches p with phase := if contended then .gone else .acquired}
    | _ => s
  | .write p count =>
    match (s.launches p).phase, (s.launches p).link with
    | .connected, some link => write arg s p link count
    | _, _ => s
  | .arrive p count =>
    match (s.launches p).link with
    | some link =>
      if (s.launches link.peer).phase = .running ∧ (s.launches link.peer).listening = true
      then arrive u s p link count else s
    | none => s
  | .acknowledge p =>
    match (s.launches p).phase, (s.launches p).link with
    | .written, some link =>
      if link.received.state.answers.contains Callback.frameAccepted then
        s.put p {s.launches p with phase := .gone, acknowledged := true}
      else s
    | _, _ => s
  | .giveUp p => if (s.launches p).phase = .written then s.put p {s.launches p with phase := .gone} else s
  | .enter p =>
    if (s.launches p).phase = .acquired then
      { s.put p {s.launches p with phase := .running} with
        handled := if (arg p).text = "" then s.handled else s.handled ++ [⟨p, p, (arg p).text⟩] }
    else s
  | .quit p => if (s.launches p).phase = .running then s.put p {s.launches p with phase := .leaving} else s
  | .unlock p =>
    if (s.launches p).phase = .leaving then
      { s.put p {s.launches p with phase := .released, lockFd := false} with
        lock := if (s.launches p).lockFd then none else s.lock }
    else s
  | .close p unlinks =>
    if (s.launches p).phase = .released then
      { s.put p {s.launches p with phase := .gone, listening := false} with
        path := if (s.launches p).listening ∧ unlinks then none else s.path }
    else s
  | .crash p =>
    if (s.launches p).phase = .absent then s
    else
      { s.put p {s.launches p with phase := .gone, lockFd := false, listening := false} with
        lock := if s.lock = some p then none else s.lock }

def machine : Machine State Event := ⟨step u arg⟩

end Step

def Event.launch : Event → Pid
  | .start p | .openLock p _ | .flock p _ | .removeServer p _ | .listen p _ | .connect p | .expire p | .write p _
  | .arrive p _ | .acknowledge p | .giveUp p | .enter p | .quit p | .unlock p | .close p _ | .crash p => p

/-- What a step is that changes anything. -/
inductive Turn (u : Utf8) (arg : Pid → Argument) (s : State) : Event → State → Prop where
  | start {p} (h : (s.launches p).phase = .absent) :
    Turn u arg s (.start p) (s.put p {s.launches p with phase := .starting})
  | opens {p} (h : (s.launches p).phase = .starting) :
    Turn u arg s (.openLock p true) (s.put p {s.launches p with phase := .opened, lockFd := true})
  | opensNot {p} (h : (s.launches p).phase = .starting) :
    Turn u arg s (.openLock p false) (s.put p {s.launches p with phase := .forwarding false})
  | locks {p} (h : (s.launches p).phase = .opened) (hfree : s.lock = none) :
    Turn u arg s (.flock p false) {s.put p {s.launches p with phase := .locked} with lock := some p}
  | locksNot {p error} (h : (s.launches p).phase = .opened) :
    Turn u arg s (.flock p error) (s.put p {s.launches p with phase := .forwarding true, lockFd := false})
  | removes {p ok} (h : (s.launches p).phase = .locked) :
    Turn u arg s (.removeServer p ok)
      {s.put p {s.launches p with phase := .removed} with path := if ok then none else s.path}
  | listens {p ok} (h : (s.launches p).phase = .removed) : Turn u arg s (.listen p ok) (startListening s p ok)
  | needsNothing {p q contended} (h : (s.launches p).phase = .forwarding contended) (hpath : s.path = some q)
      (hq : (s.launches q).listening = true) (hnone : (arg p).text = "") :
    Turn u arg s (.connect p) (s.put p {s.launches p with phase := .gone})
  | connects {p q contended} (h : (s.launches p).phase = .forwarding contended) (hpath : s.path = some q)
      (hq : (s.launches q).listening = true) (hsome : (arg p).text ≠ "") :
    Turn u arg s (.connect p) (s.put p {s.launches p with phase := .connected, link := some {peer := q}})
  | expires {p contended} (h : (s.launches p).phase = .forwarding contended) :
    Turn u arg s (.expire p) (s.put p {s.launches p with phase := if contended then .gone else .acquired})
  | writes {p link count} (h : (s.launches p).phase = .connected) (hlink : (s.launches p).link = some link) :
    Turn u arg s (.write p count) (write arg s p link count)
  | arrives {p link count} (hlink : (s.launches p).link = some link)
      (hruns : (s.launches link.peer).phase = .running) (hlistens : (s.launches link.peer).listening = true) :
    Turn u arg s (.arrive p count) (arrive u s p link count)
  | acknowledges {p link} (h : (s.launches p).phase = .written) (hlink : (s.launches p).link = some link)
      (hanswer : link.received.state.answers.contains Callback.frameAccepted = true) :
    Turn u arg s (.acknowledge p) (s.put p {s.launches p with phase := .gone, acknowledged := true})
  | givesUp {p} (h : (s.launches p).phase = .written) :
    Turn u arg s (.giveUp p) (s.put p {s.launches p with phase := .gone})
  | enters {p} (h : (s.launches p).phase = .acquired) : Turn u arg s (.enter p)
      { s.put p {s.launches p with phase := .running} with
        handled := if (arg p).text = "" then s.handled else s.handled ++ [⟨p, p, (arg p).text⟩] }
  | quits {p} (h : (s.launches p).phase = .running) :
    Turn u arg s (.quit p) (s.put p {s.launches p with phase := .leaving})
  | unlocks {p} (h : (s.launches p).phase = .leaving) : Turn u arg s (.unlock p)
      { s.put p {s.launches p with phase := .released, lockFd := false} with
        lock := if (s.launches p).lockFd then none else s.lock }
  | closes {p unlinks} (h : (s.launches p).phase = .released) : Turn u arg s (.close p unlinks)
      { s.put p {s.launches p with phase := .gone, listening := false} with
        path := if (s.launches p).listening ∧ unlinks then none else s.path }
  | crashes {p} (h : (s.launches p).phase ≠ .absent) : Turn u arg s (.crash p)
      { s.put p {s.launches p with phase := .gone, lockFd := false, listening := false} with
        lock := if s.lock = some p then none else s.lock }

section Turn
variable {u : Utf8} {arg : Pid → Argument} {s s' : State} {e : Event}

theorem connect_turn {p : Pid} {contended : Bool} (h : (s.launches p).phase = .forwarding contended) :
    connect arg s p = s ∨ Turn u arg s (.connect p) (connect arg s p) := by
  unfold connect
  split
  · exact .inl rfl
  · next q hpath =>
    split_ifs with hq hnone
    · exact .inl rfl
    · exact .inr (.needsNothing h hpath (by simpa using hq) hnone)
    · exact .inr (.connects h hpath (by simpa using hq) hnone)

theorem step_turn (u : Utf8) (arg : Pid → Argument) (s : State) (e : Event) : step u arg s e = s ∨ Turn u arg s e (step u arg s e) := by
  cases e <;> simp only [step]
  case start p => split_ifs with h; exacts [.inr (.start h), .inl rfl]
  case openLock p ok =>
    cases ok <;> split
    · exact .inr (.opensNot ‹_›)
    · exact .inl rfl
    · exact .inr (.opens ‹_›)
    · exact .inl rfl
  case flock p error =>
    split_ifs with h hfree
    · obtain ⟨rfl, hfree⟩ := hfree
      exact .inr (.locks h hfree)
    · exact .inr (.locksNot h)
    · exact .inl rfl
  case removeServer p ok => split; exacts [.inr (.removes ‹_›), .inl rfl]
  case listen p ok => split_ifs with h; exacts [.inr (.listens h), .inl rfl]
  case connect p => split; exacts [connect_turn ‹_›, .inl rfl]
  case expire p => split; exacts [.inr (.expires ‹_›), .inl rfl]
  case write p count => split; exacts [.inr (.writes ‹_› ‹_›), .inl rfl]
  case arrive p count =>
    split
    · next link hlink =>
      split_ifs with h
      · exact .inr (.arrives hlink h.1 h.2)
      · exact .inl rfl
    · exact .inl rfl
  case acknowledge p =>
    split
    · next link hphase hlink =>
      split_ifs with h
      · exact .inr (.acknowledges hphase hlink h)
      · exact .inl rfl
    · exact .inl rfl
  case giveUp p => split_ifs with h; exacts [.inr (.givesUp h), .inl rfl]
  case enter p => split; exacts [.inr (.enters ‹_›), .inl rfl]
  case quit p => split_ifs with h; exacts [.inr (.quits h), .inl rfl]
  case unlock p => split; exacts [.inr (.unlocks ‹_›), .inl rfl]
  case close p unlinks => split; exacts [.inr (.closes ‹_›), .inl rfl]
  case crash p => split; exacts [.inl rfl, .inr (.crashes ‹_›)]

end Turn

/-! ### The lock -/

/-- What the lock, the socket and the phase of a launch have to do with each other. -/
structure Placed (s : State) (p : Pid) : Prop where
  lock : s.lock = some p ↔ (s.launches p).lockFd = true ∧ (s.launches p).phase ≠ .opened
  fd : (s.launches p).lockFd = true →
    (s.launches p).phase ∈ [.opened, .locked, .removed, .acquired, .running, .leaving]
  opened : (s.launches p).phase ∈ [.opened, .locked, .removed] → (s.launches p).lockFd = true
  listening : (s.launches p).listening = true →
    (s.launches p).phase ∈ [.acquired, .running, .leaving] ∧ (s.launches p).lockFd = true ∨
      (s.launches p).phase = .released

/-- A step of one launch leaves the others as they are. -/
structure Only (p : Pid) (s s' : State) : Prop where
  launches : ∀ q, q ≠ p → s'.launches q = s.launches q
  lock : ∀ q, q ≠ p → (s'.lock = some q ↔ s.lock = some q)
  handled : ∃ new, s'.handled = s.handled ++ new ∧ ∀ h ∈ new, h.origin = p

theorem Only.refl (p : Pid) (s : State) : Only p s s :=
  ⟨fun _ _ => rfl, fun _ _ => Iff.rfl, [], by simp, by simp⟩

theorem Only.put (p : Pid) (s : State) (l : Launch) (lock : Option Pid)
    (hlock : lock = s.lock ∨ lock = none ∧ s.lock = some p ∨ lock = some p ∧ s.lock = none) (path : Option Pid) :
    Only p s {s.put p l with lock := lock, path := path} := by
  refine ⟨fun q hq => ?_, fun q hq => ?_, [], by simp, by simp⟩
  · show (s.put p l).launches q = _
    rw [put_launches, if_neg hq]
  · rcases hlock with rfl | ⟨rfl, h⟩ | ⟨rfl, h⟩
    · rfl
    · simp [h, Ne.symm hq]
    · simp [h, Ne.symm hq]

section Placed
variable {u : Utf8} {arg : Pid → Argument} {s : State}

theorem Turn.placed {s' : State} {e : Event} (hturn : Turn u arg s e s') (h : Placed s e.launch) :
    Placed s' e.launch := by
  obtain ⟨hlock, hfd, hopened, hlistening⟩ := h
  cases hturn with
  | listens hphase => constructor <;> simp_all [Event.launch, startListening]
  | expires hphase =>
    next p contended => cases contended <;> constructor <;> simp_all [Event.launch]
  | writes hphase hlink =>
    unfold write
    dsimp only
    split <;> constructor <;> simp_all [Event.launch]
  | arrives => constructor <;> simp_all [Event.launch, arrive]
  | _ => constructor <;> simp_all [Event.launch]

theorem Turn.only {s' : State} {e : Event} (hturn : Turn u arg s e s') (h : Placed s e.launch) :
    Only e.launch s s' := by
  cases hturn with
  | locks hphase hfree => exact Only.put _ s _ _ (.inr (.inr ⟨rfl, hfree⟩)) _
  | unlocks hphase =>
    refine Only.put _ s _ _ ?_ _
    split
    · next hfd => exact .inr (.inl ⟨rfl, h.lock.mpr ⟨hfd, by simp [Event.launch, hphase]⟩⟩)
    · exact .inl rfl
  | crashes =>
    refine Only.put _ s _ _ ?_ _
    split
    · next hheld => exact .inr (.inl ⟨rfl, hheld⟩)
    · exact .inl rfl
  | arrives =>
    refine ⟨fun q hq => (put_launches ..).trans (if_neg hq), fun _ _ => Iff.rfl, _, rfl, fun h hnew => ?_⟩
    obtain ⟨_, _, rfl⟩ := List.mem_map.mp hnew
    rfl
  | enters =>
    refine ⟨fun q hq => (put_launches ..).trans (if_neg hq), fun _ _ => Iff.rfl, ?_⟩
    split
    · exact ⟨[], by simp, by simp⟩
    · exact ⟨_, rfl, by simp [Event.launch]⟩
  | _ => exact Only.put _ s _ _ (.inl rfl) _

/-- The others are where they were. -/
theorem Only.placed {p q : Pid} {s' : State} (h : Only p s s') (hq : q ≠ p) (hplaced : Placed s q) : Placed s' q := by
  have hsame := h.launches q hq
  exact ⟨by rw [h.lock q hq, hsame]; exact hplaced.lock, by rw [hsame]; exact hplaced.fd,
    by rw [hsame]; exact hplaced.opened, by rw [hsame]; exact hplaced.listening⟩

theorem step_only (u : Utf8) (arg : Pid → Argument) (h : ∀ q, Placed s q) (e : Event) : Only e.launch s (step u arg s e) := by
  rcases step_turn u arg s e with hsame | hturn
  · rw [hsame]
    exact .refl _ s
  · exact hturn.only (h _)

theorem keeps_placed : Machine.Keeps (machine u arg) (fun _ _ => True) fun s => ∀ p, Placed s p where
  step s e h _ q := by
    show Placed (step u arg s e) q
    by_cases hq : q = e.launch
    · rcases step_turn u arg s e with hsame | hturn
      · rw [hsame]
        exact h q
      · exact hq ▸ hturn.placed (h _)
    · exact (step_only u arg h e).placed hq (h q)

end Placed

/-- Before the first launch, with whatever a crash left at the path. -/
def fresh (path : Option Pid) : State := {path := path}

theorem placed_fresh (path : Option Pid) (p : Pid) : Placed (fresh path) p :=
  ⟨by simp [fresh], by simp [fresh], by simp [fresh], by simp [fresh]⟩

/-- `acquire` let the launch through, and it has not begun to go. -/
def Launch.Runs (l : Launch) : Prop := l.phase ∈ [.acquired, .running, .leaving]

instance (l : Launch) : Decidable l.Runs := inferInstanceAs (Decidable (_ ∈ _))

/-- On the way to run, or running, without the lock. -/
def Launch.Unlocked (l : Launch) : Prop := l.phase = .forwarding false ∨ l.Runs ∧ l.lockFd = false

section Unlocked
variable {u : Utf8} {arg : Pid → Argument}

theorem step_unlocked {s : State} (h : ∀ q, Placed s q) (e : Event) (p : Pid)
    (hafter : ((step u arg s e).launches p).Unlocked) : (s.launches p).Unlocked ∨ e = .openLock p false := by
  by_cases hp : p = e.launch
  · have hfd := (h p).opened
    rcases step_turn u arg s e with hsame | hturn
    · exact .inl (hsame ▸ hafter)
    · subst hp
      generalize step u arg s e = s' at hturn hafter
      cases hturn with
      | expires => next p contended hphase => cases contended <;> simp_all [Event.launch, Launch.Unlocked, Launch.Runs]
      | writes =>
        unfold write at hafter
        dsimp only at hafter
        split at hafter <;> simp_all [Event.launch, Launch.Unlocked, Launch.Runs]
      | _ => simp_all [Event.launch, Launch.Unlocked, Launch.Runs, startListening, arrive]
  · rw [(step_only u arg h e).launches p hp] at hafter
    exact .inl hafter

theorem run_unlocked {s : State} (h : ∀ q, Placed s q) (es : List Event) (p : Pid)
    (hafter : (((machine u arg).run s es).launches p).Unlocked) :
    (s.launches p).Unlocked ∨ .openLock p false ∈ es := by
  induction es generalizing s with
  | nil => exact .inl hafter
  | cons e rest ih =>
    rcases ih (keeps_placed.step s e h trivial) hafter with hbefore | hmem
    · rcases step_unlocked h e p hbefore with hbefore | rfl
      · exact .inl hbefore
      · exact .inr (List.mem_cons_self ..)
    · exact .inr (List.mem_cons_of_mem _ hmem)

end Unlocked

/-- **One instance.** Whatever launches there are, in whatever order they take their steps,
fail and crash: one that could open the lock file runs only while it has the lock, so of two
that run one could not open it; and an open socket at the path belongs to the one with the
lock, or to one that has just let go of it. -/
theorem one_owner (u : Utf8) (arg : Pid → Argument) (path : Option Pid) (es : List Event) :
    let s := (machine u arg).run (fresh path) es
    (∀ p, (s.launches p).Runs → .openLock p false ∉ es → s.lock = some p) ∧
      (∀ p q, (s.launches p).Runs → (s.launches q).Runs → p ≠ q →
        .openLock p false ∈ es ∨ .openLock q false ∈ es) ∧
      ∀ q, s.path = some q → (s.launches q).listening = true →
        s.lock = some q ∨ (s.launches q).phase = .released := by
  intro s
  have hplaced : ∀ p, Placed s p := keeps_placed.always (placed_fresh path) es
  have howner : ∀ p, (s.launches p).Runs → .openLock p false ∉ es → s.lock = some p := by
    intro p hruns hopened
    apply (hplaced p).lock.mpr
    constructor
    · by_contra hfd
      have hunlocked : (s.launches p).Unlocked := .inr ⟨hruns, by simpa using hfd⟩
      rcases run_unlocked (placed_fresh path) es p hunlocked with hfresh | hmem
      · rcases hfresh with h | ⟨h, -⟩ <;> simp [fresh, Launch.Runs] at h
      · exact hopened hmem
    · intro hphase
      simp [Launch.Runs, hphase] at hruns
  refine ⟨howner, fun p q hp hq hne => ?_, fun q _ hlistens => ?_⟩
  · by_contra hboth
    obtain ⟨hp', hq'⟩ := not_or.mp hboth
    exact hne (Option.some.inj ((howner p hp hp').symm.trans (howner q hq hq')))
  · rcases (hplaced q).listening hlistens with ⟨hphase, hfd⟩ | hreleased
    · refine .inl ((hplaced q).lock.mpr ⟨hfd, fun hopened => ?_⟩)
      simp [hopened] at hphase
    · exact .inr hreleased

/-- Every launch is asked to hand on `hi`. -/
def sampleArg : Pid → Argument := fun _ => ⟨"hi", by decide +kernel⟩

/-- The steps of a launch that becomes the one instance. -/
def opening (p : Pid) : List Event :=
  [.start p, .openLock p true, .flock p false, .removeServer p true, .listen p true, .enter p]

theorem one_owner_second :
    ((machine default sampleArg).run (fresh none) (opening 0 ++ opening 1)).lock = some 0 ∧
      ¬((((machine default sampleArg).run (fresh none) (opening 0 ++ opening 1)).launches 1).Runs) := by
  have hsafe := one_owner default sampleArg none (opening 0 ++ opening 1)
  refine ⟨hsafe.1 0 (by decide +kernel) (by decide), fun hruns => ?_⟩
  exact absurd (hsafe.2.1 0 1 (by decide +kernel) hruns (by decide)) (by decide)

/-! ### The path -/

/-- The one with the lock is found at the path, if it listens at all. -/
def Reached (s : State) : Prop := ∀ p, s.lock = some p → (s.launches p).listening = true → s.path = some p

/-- The one with the lock listens, and nothing is at the path. -/
structure Cut (s : State) (p : Pid) : Prop where
  lock : s.lock = some p
  listening : (s.launches p).listening = true
  path : s.path = none

/-- Nobody who let go of the lock takes the file away when the next one listens already. -/
def Undisturbed (s : State) : Event → Prop
  | .close q true => (s.launches q).phase = .released → (s.launches q).listening = true →
      ∀ p, s.lock = some p → (s.launches p).listening = false
  | _ => True

section Path
variable {u : Utf8} {arg : Pid → Argument} {s : State}

theorem Placed.not_released {p : Pid} (h : Placed s p) (hlock : s.lock = some p) :
    (s.launches p).phase ≠ .released := by
  intro hreleased
  have hphase := h.fd (h.lock.mp hlock).1
  simp [hreleased] at hphase

theorem Placed.not_listening {p : Pid} (h : Placed s p)
    (hphase : (s.launches p).phase ∈ [.opened, .locked, .removed]) : (s.launches p).listening = false := by
  by_contra hlistens
  rcases h.listening (by simpa using hlistens) with ⟨hother, -⟩ | hother
  · revert hphase hother
    cases (s.launches p).phase <;> simp
  · simp [hother] at hphase

theorem Cut.turn {s' : State} {e : Event} {p : Pid} (hturn : Turn u arg s e s') (h : ∀ q, Placed s q) (hcut : Cut s p)
    (hunlock : e ≠ .unlock p) (hcrash : e ≠ .crash p) :
    Cut s' p := by
  have hlock := hcut.lock
  have hnone := hcut.path
  have hlistens := hcut.listening
  have hquiet : (s.launches p).phase ∉ [.opened, .locked, .removed] := fun hphase =>
    absurd ((h p).not_listening hphase) (by simp [hlistens])
  have hreleased := (h p).not_released hlock
  by_cases hp : e.launch = p
  · subst hp
    cases hturn <;> constructor <;> simp_all [Event.launch, arrive, write]
  · have honly := hturn.only (h e.launch)
    have hsame := honly.launches p (Ne.symm hp)
    refine ⟨(honly.lock p (Ne.symm hp)).mpr hlock, hsame ▸ hlistens, ?_⟩
    cases hturn with
    | @listens q _ hphase =>
      -- The one that is about to listen has the lock, and is `p`.
      have hheld : s.lock = some q :=
        (h q).lock.mpr ⟨(h q).opened (by simp [hphase]), by simp [hphase]⟩
      exact absurd (Option.some.inj (hheld.symm.trans hlock)) hp
    | _ => simp_all [Event.launch, arrive, write]

/-- Nobody connects to a path with nothing there. -/
theorem Turn.unlinked {s' : State} {e : Event} (hturn : Turn u arg s e s') (hnone : s.path = none) {q : Pid}
    (hlink : (s.launches q).link = none) : (s'.launches q).link = none := by
  by_cases hq : q = e.launch
  · subst hq
    cases hturn <;> simp_all [Event.launch, startListening]
  · cases hturn <;> simp_all [Event.launch, put_launches, startListening, arrive, write]

theorem Cut.step (u : Utf8) (arg : Pid → Argument) {e : Event} {p : Pid} (hcut : Cut s p) (h : ∀ q, Placed s q)
    (hunlock : e ≠ .unlock p) (hcrash : e ≠ .crash p) :
    Cut (step u arg s e) p ∧ ∀ q, (s.launches q).link = none → ((step u arg s e).launches q).link = none := by
  rcases step_turn u arg s e with hsame | hturn
  · rw [hsame]
    exact ⟨hcut, fun _ => id⟩
  · exact ⟨hcut.turn hturn h hunlock hcrash, fun _ => hturn.unlinked hcut.path⟩

theorem Turn.reached {s' : State} {e : Event} (hturn : Turn u arg s e s') (h : ∀ q, Placed s q) (hs : Reached s)
    (he : Undisturbed s e) : Reached s' := by
  intro p hlock hlistens
  by_cases hp : p = e.launch
  · subst hp
    have hheld := (hturn.placed (h _)).lock.mp hlock
    have hbefore := hs e.launch
    have hplaced := (h e.launch).lock
    have hdeaf := (h e.launch).not_listening
    cases hturn <;> simp_all [Event.launch, startListening, arrive, write]
  · have honly := hturn.only (h e.launch)
    rw [honly.launches p hp] at hlistens
    have hlock' := (honly.lock p hp).mp hlock
    have hpath := hs p hlock' hlistens
    cases hturn with
    | @removes q _ hphase =>
      have hheld : s.lock = some q := (h q).lock.mpr ⟨(h q).opened (by simp [hphase]), by simp [hphase]⟩
      exact absurd (Option.some.inj (hlock'.symm.trans hheld)) hp
    | @listens q _ hphase =>
      have hheld : s.lock = some q := (h q).lock.mpr ⟨(h q).opened (by simp [hphase]), by simp [hphase]⟩
      exact absurd (Option.some.inj (hlock'.symm.trans hheld)) hp
    | @closes q unlinks hphase =>
      cases unlinks with
      | true =>
        have hdeaf : (s.launches q).listening = false := by
          by_contra hq
          exact absurd (he hphase (by simpa using hq) p hlock') (by simp [hlistens])
        simpa [hdeaf] using hpath
      | false => simpa using hpath
    | _ => exact hpath

theorem step_reached (u : Utf8) (arg : Pid → Argument) (h : ∀ q, Placed s q) (hs : Reached s) (e : Event) :
    (Reached (step u arg s e) ↔ Undisturbed s e) ∧ (¬Undisturbed s e → ∃ p, Cut (step u arg s e) p) := by
  have hcut : ¬Undisturbed s e → ∃ p, Cut (step u arg s e) p := by
    intro hdisturbed
    cases e with
    | close q unlinks =>
      cases unlinks with
      | false => exact absurd trivial hdisturbed
      | true =>
        simp only [Undisturbed, not_forall, Bool.not_eq_false] at hdisturbed
        obtain ⟨hphase, hopen, p, hlock, hlistens⟩ := hdisturbed
        have hne : p ≠ q := by
          rintro rfl
          exact (h p).not_released hlock hphase
        refine ⟨p, ?_, ?_, ?_⟩ <;> simp [step, hphase, hopen, hlock, hlistens, put_launches, hne]
    | _ => exact absurd trivial hdisturbed
  refine ⟨⟨fun hafter => ?_, fun he => ?_⟩, hcut⟩
  · by_contra hdisturbed
    obtain ⟨p, hp⟩ := hcut hdisturbed
    exact absurd (hafter p hp.lock hp.listening) (by simp [hp.path])
  · rcases step_turn u arg s e with hsame | hturn
    · rw [hsame]
      exact hs
    · exact hturn.reached h hs he

end Path

/-- **The way to the primary.** Where nobody who let go of the lock takes the socket file away
while the next launch listens there, the launch that has the lock and listens is found at the
path after every step; a step that does take it away leaves that launch with nothing at the
path, and until it lets go of the lock or crashes nobody connects any more. -/
theorem primary_reached (u : Utf8) (arg : Pid → Argument) (path : Option Pid) :
    (∀ es, (machine u arg).Along Undisturbed (fresh path) es →
      let s := (machine u arg).run (fresh path) es
      Reached s ∧ ∀ e, (Reached (step u arg s e) ↔ Undisturbed s e) ∧
        (¬Undisturbed s e → ∃ p, Cut (step u arg s e) p)) ∧
      ∀ es p, Cut ((machine u arg).run (fresh path) es) p →
        ∀ later, .unlock p ∉ later → .crash p ∉ later →
          let s := (machine u arg).run (fresh path) es
          Cut ((machine u arg).run s later) p ∧
            ∀ q, (s.launches q).link = none → (((machine u arg).run s later).launches q).link = none := by
  have hfresh : Reached (fresh path) := fun p hlock => by simp [fresh] at hlock
  constructor
  · intro es hes s
    have hplaced : ∀ p, Placed s p := keeps_placed.always (placed_fresh path) es
    have hkeeps : Machine.Keeps (machine u arg) Undisturbed fun s => (∀ p, Placed s p) ∧ Reached s :=
      ⟨fun s e hs he => ⟨keeps_placed.step s e hs.1 trivial, (step_reached u arg hs.1 hs.2 e).1.mpr he⟩⟩
    have hreached : Reached s := (hkeeps.run ⟨placed_fresh path, hfresh⟩ hes).2
    exact ⟨hreached, step_reached u arg hplaced hreached⟩
  · intro es p hcut later hunlock hcrash
    have hplaced : ∀ q, Placed ((machine u arg).run (fresh path) es) q :=
      keeps_placed.always (placed_fresh path) es
    revert hcut hplaced
    generalize (machine u arg).run (fresh path) es = s
    intro hcut hplaced
    induction later generalizing s with
    | nil => exact ⟨hcut, fun _ => id⟩
    | cons e later ih =>
      simp only [List.mem_cons, not_or] at hunlock hcrash
      obtain ⟨hstep, hlink⟩ := hcut.step u arg hplaced (Ne.symm hunlock.1) (Ne.symm hcrash.1)
      obtain ⟨hrun, hlinks⟩ := ih hunlock.2 hcrash.2 _ hstep (keeps_placed.step s e hplaced trivial)
      exact ⟨hrun, fun q hq => hlinks q (hlink q hq)⟩

/-- One launch goes, the next comes, and only then the first takes the socket file away. -/
def handover : List Event := opening 0 ++ [.quit 0, .unlock 0] ++ opening 1

def handedOver : State := (machine default sampleArg).run (fresh none) handover

theorem handedOver_cut : Cut (step default sampleArg handedOver (.close 0 true)) 1 :=
  ⟨by decide +kernel, by decide +kernel, by decide +kernel⟩

theorem primary_reached_handover :
    (handedOver.lock = some 1 ∧ handedOver.path = some 1) ∧
      (((machine default sampleArg).run (step default sampleArg handedOver (.close 0 true))
        [.start 2, .openLock 2 true, .flock 2 false, .connect 2]).launches 2).link = none := by
  have hreached := primary_reached default sampleArg none
  have hstays : Reached handedOver :=
    (hreached.1 handover (by simp [handover, opening, Machine.Along, Undisturbed])).1
  have hlock : handedOver.lock = some 1 := by decide +kernel
  have hlistens : (handedOver.launches 1).listening = true := by decide +kernel
  have hrun : (machine default sampleArg).run (fresh none) (handover ++ [.close 0 true]) =
      step default sampleArg handedOver (.close 0 true) := Machine.run_append ..
  have hlost := hreached.2 (handover ++ [.close 0 true]) 1
  rw [hrun] at hlost
  have hlater := hlost handedOver_cut [.start 2, .openLock 2 true, .flock 2 false, .connect 2] (by decide) (by decide)
  have hnone : ((step default sampleArg handedOver (.close 0 true)).launches 2).link = none := by decide +kernel
  exact ⟨⟨hlock, hstays 1 hlock hlistens⟩, hlater.2 2 hnone⟩

end Instance

end ShelfRemote.App
