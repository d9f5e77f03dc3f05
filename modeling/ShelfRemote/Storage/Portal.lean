import ShelfRemote.Lib.Runs
import ShelfRemote.Storage.SecureStore

/-! One exchange with the Secret portal.

The client subscribes to the path its request is going to have, calls, and waits in loops of
its own: five seconds for the reply to the call and fifteen for the Response. The portal may
answer in either order, and it writes the secret to a pipe that is read at the end. What the
loops dispatch are the events; a loop returns some time after it has been told to quit, and
what comes in between still counts. `portal_secret` says what the client ends with, and
`portal_ends` how long it waits. -/
namespace ShelfRemote.Storage
open Qt Runs

namespace Portal

/-- `kPortalCallTimeoutMs`. -/
def callTimeoutMs : Nat := 5000

/-- `kPortalResponseTimeoutMs`. -/
def responseTimeoutMs : Nat := 15000

/-- The path a request is going to have. -/
def expectedPath (baseService handleToken : String) : String :=
  let sender := match baseService.toList with
    | ':' :: rest => rest
    | name => name
  "/org/freedesktop/portal/desktop/request/" ++
    String.ofList (sender.map fun c => if c = '.' then '_' else c) ++ "/" ++ handleToken

/-- The reply to `RetrieveSecret`. -/
inductive Reply where
  | error
  | path (path : String)
  deriving DecidableEq

/-- A Response. Zero is success. -/
structure Response where
  code : Nat
  token : String := ""
  deriving DecidableEq

inductive Phase where
  /-- In `callLoop`, so many milliseconds before it gives up. -/
  | calling (left : Nat)
  /-- In the loop after it. -/
  | waiting (left : Nat)
  | done (answer : Option PortalReply)

structure Exchange where
  phase : Phase := .calling callTimeoutMs
  /-- The loop has been told to quit. -/
  quits : Bool := false
  /-- The path whose Responses reach the waiter. -/
  path : String
  reply : Option Reply := none
  /-- What the waiter got, the last of it. -/
  got : Option Response := none
  /-- What has been written to the pipe. -/
  pipe : Bytes := []

inductive Event where
  | reply (r : Reply)
  | response (path : String) (r : Response)
  | write (bytes : Bytes)
  /-- A millisecond passes. -/
  | tick
  /-- The loop returns. What comes next is whether the pipe can be read. -/
  | resume (reads : Bool)

/-- A session bus, a pipe and a subscription are needed first. -/
def start (connected piped subscribed : Bool) (baseService handleToken : String) : Exchange :=
  let path := expectedPath baseService handleToken
  if connected ∧ piped ∧ subscribed then {path} else {path, phase := .done none}

namespace Exchange

/-- There is a Response, or there will be none. -/
def finish (x : Exchange) (reads : Bool) : Exchange :=
  {x with phase := .done (match x.got with
    | some r => if r.code = 0 then some ⟨if reads then x.pipe else [], r.token⟩ else none
    | none => none)}

/-- There is a reply, or there will be none. A path of the portal's own is subscribed to
from here on. -/
def called (x : Exchange) (reads : Bool) : Exchange :=
  match x.reply with
  | none | some .error => {x with phase := .done none}
  | some (.path path) =>
    if path = "" then {x with phase := .done none}
    else
      let x := {x with path}
      if x.got.isSome then x.finish reads
      else {x with phase := .waiting responseTimeoutMs, quits := false}

def step (x : Exchange) : Event → Exchange
  | .reply r =>
    match x.phase, x.reply with
    | .calling _, none => {x with reply := some r, quits := true}
    | _, _ => x
  | .response path r =>
    match x.phase with
    | .calling _ => if path = x.path then {x with got := some r} else x
    | .waiting _ => if path = x.path then {x with got := some r, quits := true} else x
    | .done _ => x
  | .write bytes =>
    match x.phase with
    | .calling _ | .waiting _ => {x with pipe := x.pipe ++ bytes}
    | .done _ => x
  | .tick =>
    match x.phase with
    | .calling left => {x with phase := .calling (left - 1), quits := x.quits || left ≤ 1}
    | .waiting left => {x with phase := .waiting (left - 1), quits := x.quits || left ≤ 1}
    | .done _ => x
  | .resume reads =>
    if !x.quits then x
    else
      match x.phase with
      | .calling _ => x.called reads
      | .waiting _ => x.finish reads
      | .done _ => x

end Exchange

def machine : Machine Exchange Event := ⟨Exchange.step⟩

def Event.bytes : Event → Bytes
  | .write bytes => bytes
  | _ => []

/-- What the portal writes in a run. -/
def written (es : List Event) : Bytes := es.flatMap Event.bytes

/-! ### What the portal has said -/

/-- The call was replied to with a path. -/
def Accepted (es : List Event) : Prop := ∃ path, path ≠ "" ∧ .reply (.path path) ∈ es

/-- A Response came to the path expected, or to the one in the reply. -/
def Said (expected : String) (es : List Event) (r : Response) : Prop :=
  ∃ path, .response path r ∈ es ∧ (path = expected ∨ .reply (.path path) ∈ es)

/-- What an exchange holds is what the portal has said. -/
structure Heard (expected : String) (es : List Event) (x : Exchange) : Prop where
  reply : ∀ r, x.reply = some r → .reply r ∈ es
  path : x.path = expected ∨ .reply (.path x.path) ∈ es
  got : ∀ r, x.got = some r → Said expected es r
  pipe : x.pipe <+: written es
  whole : (∀ answer, x.phase ≠ .done answer) → x.pipe = written es
  waiting : ∀ left, x.phase = .waiting left → Accepted es
  answer : ∀ a, x.phase = .done (some a) →
    Accepted es ∧ Said expected es ⟨0, a.token⟩ ∧ a.secret <+: written es

section Heard
variable {expected : String} {es : List Event} {x : Exchange}

theorem Accepted.later (h : Accepted es) (e : Event) : Accepted (es ++ [e]) :=
  let ⟨path, hpath, hmem⟩ := h
  ⟨path, hpath, List.mem_append_left _ hmem⟩

theorem Said.later {r : Response} (h : Said expected es r) (e : Event) : Said expected (es ++ [e]) r :=
  let ⟨path, hmem, hpath⟩ := h
  ⟨path, List.mem_append_left _ hmem, hpath.imp_right (List.mem_append_left _)⟩

theorem written_append (es : List Event) (e : Event) : written (es ++ [e]) = written es ++ e.bytes := by
  simp [written]

/-- More may be said that the exchange does not take in. -/
theorem Heard.later (h : Heard expected es x) {e : Event}
    (he : e.bytes = [] ∨ ∃ answer, x.phase = .done answer) : Heard expected (es ++ [e]) x where
  reply r hr := List.mem_append_left _ (h.reply r hr)
  path := h.path.imp_right (List.mem_append_left _)
  got r hr := (h.got r hr).later e
  pipe := written_append es e ▸ h.pipe.trans (List.prefix_append _ _)
  whole hopen := by
    rcases he with he | ⟨answer, hdone⟩
    · rw [h.whole hopen, written_append, he, List.append_nil]
    · exact absurd hdone (hopen answer)
  waiting left hleft := (h.waiting left hleft).later e
  answer a ha :=
    let ⟨haccepted, hsaid, hsecret⟩ := h.answer a ha
    ⟨haccepted.later e, hsaid.later e, written_append es e ▸ hsecret.trans (List.prefix_append _ _)⟩

theorem Heard.finish (h : Heard expected es x) (haccepted : Accepted es) (reads : Bool) :
    Heard expected es (x.finish reads) where
  reply := h.reply
  path := h.path
  got := h.got
  pipe := h.pipe
  whole hopen := absurd rfl (hopen _)
  waiting left hleft := nomatch hleft
  answer a ha := by
    have hanswer := Phase.done.inj ha
    cases hgot : x.got with
    | none => simp [hgot] at hanswer
    | some r =>
      simp only [hgot] at hanswer
      split at hanswer
      · next hcode =>
        obtain rfl := Option.some.inj hanswer
        refine ⟨haccepted, ?_, ?_⟩
        · have hr : r = ⟨0, r.token⟩ := by rw [← hcode]
          exact hr ▸ h.got r hgot
        · show (if reads then x.pipe else []) <+: _
          split
          · exact h.pipe
          · exact List.nil_prefix
      · cases hanswer

theorem Heard.gaveUp (h : Heard expected es x) : Heard expected es {x with phase := .done none} where
  reply := h.reply
  path := h.path
  got := h.got
  pipe := h.pipe
  whole hopen := absurd rfl (hopen _)
  waiting := nofun
  answer := nofun

theorem Heard.called (h : Heard expected es x) {left : Nat} (hphase : x.phase = .calling left) (reads : Bool) :
    Heard expected es (x.called reads) := by
  unfold Exchange.called
  split
  · exact h.gaveUp
  · exact h.gaveUp
  · next path hreply =>
    have hmem := h.reply _ hreply
    have hmoved : Heard expected es {x with path} := {h with path := .inr hmem}
    split
    · exact h.gaveUp
    · next hpath =>
      dsimp only
      split
      · exact hmoved.finish ⟨path, hpath, hmem⟩ reads
      · exact
          { reply := h.reply
            path := .inr hmem
            got := h.got
            pipe := h.pipe
            whole := fun _ => h.whole fun answer => by rw [hphase]; exact nofun
            waiting := fun _ _ => ⟨path, hpath, hmem⟩
            answer := nofun }

/-- The waiter hears a Response to the path it is subscribed to. -/
theorem Heard.response (h : Heard expected es x) (r : Response) (quits : Bool)
    (hopen : ∀ answer, x.phase ≠ .done answer) :
    Heard expected (es ++ [.response x.path r]) {x with got := some r, quits} :=
  have hlater : Heard expected (es ++ [.response x.path r]) x := h.later (.inl rfl)
  { reply := hlater.reply
    path := hlater.path
    got := fun r' hr' => by
      obtain rfl := Option.some.inj hr'
      exact ⟨x.path, by simp, h.path.imp_right (List.mem_append_left _)⟩
    pipe := hlater.pipe
    whole := hlater.whole
    waiting := hlater.waiting
    answer := fun a ha => absurd ha (hopen _) }

theorem Heard.write (h : Heard expected es x) (bytes : Bytes) (hopen : ∀ answer, x.phase ≠ .done answer) :
    Heard expected (es ++ [.write bytes]) {x with pipe := x.pipe ++ bytes} where
  reply r hr := List.mem_append_left _ (h.reply r hr)
  path := h.path.imp_right (List.mem_append_left _)
  got r hr := (h.got r hr).later _
  pipe := by rw [h.whole hopen, written_append]; exact List.prefix_rfl
  whole _ := by rw [h.whole hopen, written_append]; rfl
  waiting left hleft := (h.waiting left hleft).later _
  answer a ha := absurd ha (hopen _)

theorem Heard.step (h : Heard expected es x) (e : Event) : Heard expected (es ++ [e]) (x.step e) := by
  cases hphase : x.phase with
  | done answer =>
    have hsame : x.step e = x := by
      cases e <;> simp [Exchange.step, hphase]
    rw [hsame]
    exact h.later (.inr ⟨answer, hphase⟩)
  | calling left =>
    have hopen : ∀ answer, x.phase ≠ .done answer := by simp [hphase]
    cases e with
    | reply r =>
      have hlater : Heard expected (es ++ [.reply r]) x := h.later (.inl rfl)
      cases hreply : x.reply with
      | some _ => simpa [Exchange.step, hphase, hreply] using hlater
      | none =>
        simp only [Exchange.step, hphase, hreply]
        exact {hlater with
          reply := fun r' hr' => by obtain rfl := Option.some.inj hr'; simp
          whole := fun _ => hlater.whole hopen
          waiting := nofun
          answer := nofun}
    | response path r =>
      simp only [Exchange.step, hphase]
      split
      · next hpath =>
        obtain rfl := hpath
        simpa [hphase] using h.response r x.quits hopen
      · exact h.later (.inl rfl)
    | write bytes =>
      simp only [Exchange.step, hphase]
      simpa [hphase] using h.write bytes hopen
    | tick =>
      have hlater : Heard expected (es ++ [.tick]) x := h.later (.inl rfl)
      simp only [Exchange.step, hphase]
      exact {hlater with
        whole := fun _ => hlater.whole hopen
        waiting := nofun
        answer := nofun}
    | resume reads =>
      simp only [Exchange.step, hphase]
      split
      · exact h.later (.inl rfl)
      · exact (h.called hphase reads).later (.inl rfl)
  | waiting left =>
    have hopen : ∀ answer, x.phase ≠ .done answer := by simp [hphase]
    cases e with
    | reply r =>
      simp only [Exchange.step, hphase]
      exact h.later (.inl rfl)
    | response path r =>
      simp only [Exchange.step, hphase]
      split
      · next hpath =>
        obtain rfl := hpath
        simpa [hphase] using h.response r true hopen
      · exact h.later (.inl rfl)
    | write bytes =>
      simp only [Exchange.step, hphase]
      simpa [hphase] using h.write bytes hopen
    | tick =>
      have hlater : Heard expected (es ++ [.tick]) x := h.later (.inl rfl)
      simp only [Exchange.step, hphase]
      exact {hlater with
        whole := fun _ => hlater.whole hopen
        waiting := fun _ _ => hlater.waiting left hphase
        answer := nofun}
    | resume reads =>
      simp only [Exchange.step, hphase]
      split
      · exact h.later (.inl rfl)
      · exact (h.finish (h.waiting left hphase) reads).later (.inl rfl)

theorem heard (baseService handleToken : String) (es : List Event) :
    Heard (expectedPath baseService handleToken) es
      (machine.run (start true true true baseService handleToken) es) := by
  induction es using List.reverseRecOn with
  | nil => exact ⟨nofun, .inl rfl, nofun, List.nil_prefix, fun _ => rfl, nofun, nofun⟩
  | append_singleton es e ih =>
    rw [Machine.run_append]
    exact ih.step e

end Heard

/-! ### A portal that grants -/

/-- What the loop waits for has come. -/
def Exchange.Awaited (x : Exchange) : Prop :=
  match x.phase with
  | .calling _ => x.reply.isSome = true
  | .waiting _ => x.got.isSome = true
  | .done _ => True

/-- The portal replies with the path expected, writes all of a secret before it responds, and is
not too late for either loop. -/
def Grants (expected : String) (secret : Bytes) (token : String) (x : Exchange) : Event → Prop
  | .reply r => r = .path expected
  | .response path r => path = expected → r = ⟨0, token⟩ ∧ x.pipe = secret
  | .write bytes => x.pipe ++ bytes <+: secret
  | .tick => True
  | .resume reads => reads = true ∧ (x.quits = true → x.Awaited)

structure Granted (expected : String) (secret : Bytes) (token : String) (x : Exchange) : Prop where
  path : x.path = expected
  reply : ∀ r, x.reply = some r → r = .path expected
  got : ∀ r, x.got = some r → r = ⟨0, token⟩ ∧ x.pipe = secret
  answer : ∀ answer, x.phase = .done answer → answer = some ⟨secret, token⟩

section Granted
variable {expected : String} {secret : Bytes} {token : String} {x : Exchange}

theorem expectedPath_ne (baseService handleToken : String) : expectedPath baseService handleToken ≠ "" := by
  intro h
  obtain ⟨hfront, _⟩ := String.append_eq_empty_iff.mp h
  obtain ⟨_, hslash⟩ := String.append_eq_empty_iff.mp hfront
  exact absurd hslash (by decide)

theorem Granted.finish (h : Granted expected secret token x) (hgot : x.got.isSome = true) :
    Granted expected secret token (x.finish true) where
  path := h.path
  reply := h.reply
  got := h.got
  answer answer ha := by
    obtain ⟨r, hr⟩ := Option.isSome_iff_exists.mp hgot
    obtain ⟨rfl, hpipe⟩ := h.got r hr
    rw [← Phase.done.inj ha]
    simp [hr, hpipe]

theorem Granted.called (h : Granted expected secret token x) (hpath : expected ≠ "")
    (hreply : x.reply.isSome = true) :
    Granted expected secret token (x.called true) := by
  obtain ⟨r, hr⟩ := Option.isSome_iff_exists.mp hreply
  obtain rfl := h.reply r hr
  have hmoved : Granted expected secret token {x with path := expected} := {h with path := rfl}
  unfold Exchange.called
  split
  · next hnone => cases hr.symm.trans hnone
  · next herror => cases hr.symm.trans herror
  · next path hsome =>
    obtain rfl : expected = path := Reply.path.inj (Option.some.inj (hr.symm.trans hsome))
    rw [if_neg hpath]
    dsimp only
    split
    · next hgot => exact hmoved.finish hgot
    · exact {hmoved with answer := nofun}

theorem Granted.step (h : Granted expected secret token x) (hpath : expected ≠ "") {e : Event}
    (he : Grants expected secret token x e) : Granted expected secret token (x.step e) := by
  cases e with
  | reply r =>
    simp only [Exchange.step]
    split
    · exact {h with
        reply := fun r' hr' => by obtain rfl := Option.some.inj hr'; exact he
        answer := fun a ha => h.answer a ha}
    · exact h
  | response path r =>
    have hheard (hsame : path = x.path) (quits : Bool) :
        Granted expected secret token {x with got := some r, quits} :=
      have hgrants := he (hsame.trans h.path)
      {h with got := fun r' hr' => by obtain rfl := Option.some.inj hr'; exact hgrants}
    simp only [Exchange.step]
    split
    · split
      · next hsame => exact hheard hsame x.quits
      · exact h
    · split
      · next hsame => exact hheard hsame true
      · exact h
    · exact h
  | write bytes =>
    have hfull (hpipe : x.pipe = secret) : x.pipe ++ bytes = secret := by
      have hwhole : secret ++ bytes <+: secret := hpipe ▸ he
      have hlength := hwhole.length_le
      rw [List.length_append] at hlength
      obtain rfl : bytes = [] := List.length_eq_zero_iff.mp (by omega)
      rw [hpipe, List.append_nil]
    have hmore : Granted expected secret token {x with pipe := x.pipe ++ bytes} :=
      {h with got := fun r hr => ⟨(h.got r hr).1, hfull (h.got r hr).2⟩}
    simp only [Exchange.step]
    split
    · exact hmore
    · exact hmore
    · exact h
  | tick =>
    simp only [Exchange.step]
    split
    · exact {h with answer := nofun}
    · exact {h with answer := nofun}
    · exact h
  | resume reads =>
    obtain ⟨rfl, hawaited⟩ := he
    simp only [Exchange.step]
    split
    · exact h
    · next hquits =>
      replace hawaited := hawaited (by simpa using hquits)
      unfold Exchange.Awaited at hawaited
      split
      · next hphase => exact h.called hpath (by simpa [hphase] using hawaited)
      · next hphase => exact h.finish (by simpa [hphase] using hawaited)
      · exact h

theorem granted (baseService handleToken : String) {es : List Event}
    (hes : machine.Along (Grants (expectedPath baseService handleToken) secret token)
      (start true true true baseService handleToken) es) :
    Granted (expectedPath baseService handleToken) secret token
      (machine.run (start true true true baseService handleToken) es) :=
  have hkeeps : Machine.Keeps machine (Grants (expectedPath baseService handleToken) secret token)
      (Granted (expectedPath baseService handleToken) secret token) :=
    ⟨fun _ _ h he => h.step (expectedPath_ne baseService handleToken) he⟩
  hkeeps.run ⟨rfl, nofun, nofun, nofun⟩ hes

end Granted

/-- **The secret of the keyring.** Whatever order things come in: a store gets a secret only
with a Response of success to a request that was accepted, and then the secret is at least a
key long and the beginning of what the portal wrote; the continuation token of such a Response
is all that is saved. A portal that grants the request, and is not too late, is not missed,
also where its Response comes before the reply to the call. -/
theorem portal_secret (s : SecureStore) (baseService handleToken : String) (es : List Event)
    (answer : Option PortalReply)
    (hdone : (machine.run (start true true true baseService handleToken) es).phase = .done answer) :
    let expected := expectedPath baseService handleToken
    let acquired := s.acquirePortalSecret answer
    (acquired.2 ≠ [] → keyLength ≤ acquired.2.length ∧ acquired.2 <+: written es ∧ Accepted es ∧
      ∃ token, Said expected es ⟨0, token⟩) ∧
    (acquired.1 = s ∨
      ∃ token, token ≠ "" ∧ Said expected es ⟨0, token⟩ ∧ acquired.1 = s.write (.portalToken token)) ∧
    ∀ secret token, keyLength ≤ secret.length →
      machine.Along (Grants expected secret token) (start true true true baseService handleToken) es →
      acquired = (if token = "" then s else s.write (.portalToken token), secret) := by
  intro expected acquired
  have hheard : Heard expected es _ := heard baseService handleToken es
  refine ⟨fun hne => ?_, ?_, fun secret token hlong hes => ?_⟩
  · cases answer with
    | none => exact absurd rfl hne
    | some reply =>
      obtain ⟨haccepted, hsaid, hsecret⟩ := hheard.answer reply hdone
      have hacquired : acquired.2 = if reply.secret.length < keyLength then [] else reply.secret := rfl
      rw [hacquired] at hne ⊢
      split at hne
      · exact absurd rfl hne
      · next hlong =>
        rw [if_neg hlong]
        exact ⟨Nat.le_of_not_lt hlong, hsecret, haccepted, reply.token, hsaid⟩
  · cases answer with
    | none => exact .inl rfl
    | some reply =>
      obtain ⟨_, hsaid, _⟩ := hheard.answer reply hdone
      by_cases htoken : reply.token = ""
      · exact .inl (if_pos htoken)
      · exact .inr ⟨reply.token, htoken, hsaid, if_neg htoken⟩
  · obtain rfl := (granted baseService handleToken hes).answer answer hdone
    show ((if token = "" then s else s.write (.portalToken token)),
      if secret.length < keyLength then [] else secret) = _
    rw [if_neg (Nat.not_lt.mpr hlong)]

/-- Thirty-two bytes, and the Response before the reply. -/
def early : List Event :=
  let path := expectedPath ":1.42" "shelfremote0"
  [.write (List.replicate 32 7), .response path ⟨0, "next"⟩, .reply (.path path), .resume true]

theorem portal_secret_early :
    let answer := some ⟨List.replicate 32 7, "next"⟩
    (SecureStore.fresh {}).acquirePortalSecret answer =
      ((SecureStore.fresh {}).write (.portalToken "next"), List.replicate 32 7) := by
  have hgrants : machine.Along (Grants (expectedPath ":1.42" "shelfremote0") (List.replicate 32 7) "next")
      (start true true true ":1.42" "shelfremote0") early :=
    ⟨List.prefix_rfl, fun _ => ⟨rfl, rfl⟩, rfl, ⟨rfl, fun _ => rfl⟩, trivial⟩
  exact (portal_secret (SecureStore.fresh {}) ":1.42" "shelfremote0" early _ rfl).2.2 _ "next" (by decide) hgrants

/-! ### How long it takes -/

def isTick : Event → Bool
  | .tick => true
  | _ => false

namespace Exchange

/-- The milliseconds the loops may still wait. -/
def left (x : Exchange) : Nat :=
  match x.phase with
  | .calling left => left + responseTimeoutMs
  | .waiting left => left
  | .done _ => 0

/-- A loop whose time is over has been told to quit. -/
def Expired (x : Exchange) : Prop :=
  match x.phase with
  | .calling left | .waiting left => left = 0 → x.quits = true
  | .done _ => True

end Exchange

/-- Time passes while the client waits: a loop that has been told to quit returns. -/
def Waits (x : Exchange) : Event → Prop
  | .tick => x.quits = false ∧ ∀ answer, x.phase ≠ .done answer
  | _ => True

section Ends
variable {x : Exchange}

/-- A loop that returns leaves nothing to wait for but the Response. -/
theorem called_left (x : Exchange) (reads : Bool) :
    (x.called reads).Expired ∧ (x.called reads).left ≤ responseTimeoutMs := by
  unfold Exchange.called
  split
  · exact ⟨trivial, Nat.zero_le _⟩
  · exact ⟨trivial, Nat.zero_le _⟩
  · split
    · exact ⟨trivial, Nat.zero_le _⟩
    · dsimp only
      split
      · exact ⟨trivial, Nat.zero_le _⟩
      · exact ⟨fun hnone => absurd hnone (by decide), Nat.le_refl _⟩

/-- What the portal does moves no loop on. -/
theorem told_step (x : Exchange) {e : Event} (htick : isTick e = false) (hresume : ∀ reads, e ≠ .resume reads) :
    (x.step e).phase = x.phase ∧ (x.quits = true → (x.step e).quits = true) := by
  cases e with
  | tick => cases htick
  | resume reads => exact absurd rfl (hresume reads)
  | reply r =>
    simp only [Exchange.step]
    split
    · exact ⟨rfl, fun _ => rfl⟩
    · exact ⟨rfl, id⟩
  | response path r =>
    simp only [Exchange.step]
    split
    · split <;> exact ⟨rfl, id⟩
    · split
      · exact ⟨rfl, fun _ => rfl⟩
      · exact ⟨rfl, id⟩
    · exact ⟨rfl, id⟩
  | write bytes =>
    simp only [Exchange.step]
    split <;> exact ⟨rfl, id⟩

theorem told_left (h : x.Expired) {e : Event} (htick : isTick e = false) (hresume : ∀ reads, e ≠ .resume reads) :
    (x.step e).Expired ∧ (x.step e).left + (if isTick e then 1 else 0) ≤ x.left := by
  obtain ⟨hphase, hquits⟩ := told_step x htick hresume
  unfold Exchange.Expired Exchange.left at *
  rw [hphase, htick]
  refine ⟨?_, Nat.le_refl _⟩
  split
  · next heq => exact fun hzero => hquits (by rw [heq] at h; exact h hzero)
  · next heq => exact fun hzero => hquits (by rw [heq] at h; exact h hzero)
  · trivial

/-- No event but a tick takes time, and none gives time back. -/
theorem left_step (h : x.Expired) {e : Event} (he : Waits x e) :
    (x.step e).Expired ∧ (x.step e).left + (if isTick e then 1 else 0) ≤ x.left := by
  cases e with
  | tick =>
    obtain ⟨hquits, hopen⟩ := he
    cases hphase : x.phase with
    | done answer => exact absurd hphase (hopen answer)
    | calling left | waiting left =>
      have hleft : left ≠ 0 := fun hzero => by simp [Exchange.Expired, hphase, hzero, hquits] at h
      simp only [Exchange.step, Exchange.Expired, Exchange.left, hphase, isTick, if_true, Bool.or_eq_true,
        decide_eq_true_eq]
      omega
  | resume reads =>
    simp only [Exchange.step]
    split
    · exact ⟨h, Nat.le_refl _⟩
    · split
      · next hphase =>
        obtain ⟨hstill, hless⟩ := called_left x reads
        exact ⟨hstill, Nat.le_trans hless (by simp [Exchange.left, hphase])⟩
      · exact ⟨trivial, Nat.zero_le _⟩
      · exact ⟨h, Nat.le_refl _⟩
  | reply | response | write => exact told_left h rfl nofun

theorem left_run {es : List Event} (h : x.Expired) (hes : machine.Along Waits x es) :
    (machine.run x es).left + es.countP isTick ≤ x.left := by
  induction es generalizing x with
  | nil => exact Nat.le_refl _
  | cons e rest ih =>
    have hstep := left_step h hes.1
    have hrest : (machine.run (x.step e) rest).left + rest.countP isTick ≤ (x.step e).left :=
      ih hstep.1 hes.2
    rw [List.countP_cons]
    show (machine.run (x.step e) rest).left + _ ≤ _
    omega

/-- What has come while the exchange went on is there. -/
structure Came (expected : String) (es : List Event) (x : Exchange) : Prop where
  path : x.path = expected
  reply : ∀ r, x.reply = some r → r = .path expected
  told : ∀ left, x.phase = .calling left → x.reply.isSome = true → x.quits = true
  heard : ∀ left, x.phase = .waiting left → x.reply.isSome = true ∧ (x.got.isSome = true → x.quits = true)
  replied : (∃ r, .reply r ∈ es) → (∀ answer, x.phase ≠ .done answer) → x.reply.isSome = true
  responded : (∃ r, .response expected r ∈ es) → (∀ answer, x.phase ≠ .done answer) → x.got.isSome = true

variable {expected : String} {es : List Event}

theorem Came.done (hpath : x.path = expected) (hreply : ∀ r, x.reply = some r → r = .path expected)
    {answer : Option PortalReply} (hdone : x.phase = .done answer) : Came expected es x where
  path := hpath
  reply := hreply
  told _ hleft := nomatch hdone.symm.trans hleft
  heard _ hleft := nomatch hdone.symm.trans hleft
  replied _ hopen := absurd hdone (hopen answer)
  responded _ hopen := absurd hdone (hopen answer)

/-- More came that is neither a reply nor a Response. -/
theorem Came.later (h : Came expected es x) {e : Event} (hreply : ∀ r, e ≠ .reply r)
    (hresponse : ∀ r, e ≠ .response expected r) :
    Came expected (es ++ [e]) x :=
  {h with
    replied := fun ⟨r, hr⟩ => h.replied ⟨r, by simpa [(hreply r).symm] using hr⟩
    responded := fun ⟨r, hr⟩ => h.responded ⟨r, by simpa [(hresponse r).symm] using hr⟩}

theorem Came.called (h : Came expected es x) (hpath : expected ≠ "") (reads : Bool) {left : Nat}
    (hphase : x.phase = .calling left) : Came expected es (x.called reads) := by
  have hopen : ∀ answer, x.phase ≠ .done answer := fun _ hdone => nomatch hphase.symm.trans hdone
  unfold Exchange.called
  split
  · exact .done h.path h.reply rfl
  · exact .done h.path h.reply rfl
  · next path hreply =>
    obtain rfl := Reply.path.inj (h.reply _ hreply)
    rw [if_neg hpath]
    dsimp only
    split
    · exact .done rfl h.reply rfl
    · next hgot =>
      exact
        { path := rfl
          reply := h.reply
          told := nofun
          heard := fun _ _ => ⟨by simp [hreply], fun hsome => absurd hsome hgot⟩
          replied := fun hr _ => h.replied hr hopen
          responded := fun hr _ => h.responded hr hopen }

/-- A Response to the path expected is heard. -/
theorem Came.response (h : Came expected es x) (r : Response) (quits : Bool)
    (hquits : x.quits = true → quits = true)
    (hwaiting : ∀ left, x.phase = .waiting left → quits = true) :
    Came expected (es ++ [.response expected r]) {x with got := some r, quits} where
  path := h.path
  reply := h.reply
  told left hleft hreply := hquits (h.told left hleft hreply)
  heard left hleft := ⟨(h.heard left hleft).1, fun _ => hwaiting left hleft⟩
  replied hr hopen := h.replied (by simpa using hr) hopen
  responded _ _ := rfl

theorem Came.step (h : Came expected es x) (hpath : expected ≠ "") {e : Event}
    (he : ∀ r, e = .reply r → r = .path expected) : Came expected (es ++ [e]) (x.step e) := by
  cases hphase : x.phase with
  | done answer =>
    have hsame : x.step e = x := by
      cases e <;> simp [Exchange.step, hphase]
    rw [hsame]
    exact .done h.path h.reply hphase
  | calling left =>
    have hopen : ∀ answer, x.phase ≠ .done answer := fun _ hdone => nomatch hphase.symm.trans hdone
    cases e with
    | reply r =>
      obtain rfl := he r rfl
      have hgot (hr : ∃ r', .response expected r' ∈ es ++ [.reply (.path expected)]) : x.got.isSome = true :=
        h.responded (by simpa using hr) hopen
      cases hreply : x.reply with
      | some _ =>
        simp only [Exchange.step, hphase, hreply]
        exact {h with replied := fun _ _ => by simp [hreply], responded := fun hr _ => hgot hr}
      | none =>
        simp only [Exchange.step, hphase, hreply]
        exact
          { path := h.path
            reply := fun r hr => (Option.some.inj hr).symm
            told := fun _ _ _ => rfl
            heard := nofun
            replied := fun _ _ => rfl
            responded := fun hr _ => hgot hr }
    | response path r =>
      simp only [Exchange.step, hphase]
      split
      · next hsame =>
        obtain rfl := hsame.trans h.path
        simpa [hphase] using h.response r x.quits id fun left hleft => nomatch hphase.symm.trans hleft
      · next hother => exact h.later nofun fun r' hr' => hother ((Event.response.inj hr').1.trans h.path.symm)
    | write bytes =>
      have hlater : Came expected (es ++ [.write bytes]) x := h.later nofun nofun
      simpa [Exchange.step, hphase] using {hlater with : Came expected _ {x with pipe := x.pipe ++ bytes}}
    | tick =>
      have hlater : Came expected (es ++ [.tick]) x := h.later nofun nofun
      simp only [Exchange.step, hphase]
      exact
        { path := h.path
          reply := h.reply
          told := fun _ _ hreply => by simp [h.told left hphase hreply]
          heard := nofun
          replied := fun hr _ => hlater.replied hr hopen
          responded := fun hr _ => hlater.responded hr hopen }
    | resume reads =>
      simp only [Exchange.step, hphase]
      split
      · exact h.later nofun nofun
      · exact (h.called hpath reads hphase).later nofun nofun
  | waiting left =>
    have hopen : ∀ answer, x.phase ≠ .done answer := fun _ hdone => nomatch hphase.symm.trans hdone
    obtain ⟨hreply, hquits⟩ := h.heard left hphase
    cases e with
    | reply r =>
      simp only [Exchange.step, hphase]
      exact {h with
        replied := fun _ _ => hreply
        responded := fun hr _ => h.responded (by simpa using hr) hopen}
    | response path r =>
      simp only [Exchange.step, hphase]
      split
      · next hsame =>
        obtain rfl := hsame.trans h.path
        simpa [hphase] using h.response r true (fun _ => rfl) fun _ _ => rfl
      · next hother => exact h.later nofun fun r' hr' => hother ((Event.response.inj hr').1.trans h.path.symm)
    | write bytes =>
      have hlater : Came expected (es ++ [.write bytes]) x := h.later nofun nofun
      simpa [Exchange.step, hphase] using {hlater with : Came expected _ {x with pipe := x.pipe ++ bytes}}
    | tick =>
      have hlater : Came expected (es ++ [.tick]) x := h.later nofun nofun
      simp only [Exchange.step, hphase]
      exact
        { path := h.path
          reply := h.reply
          told := nofun
          heard := fun _ _ => ⟨hreply, fun hgot => by simp [hquits hgot]⟩
          replied := fun hr _ => hlater.replied hr hopen
          responded := fun hr _ => hlater.responded hr hopen }
    | resume reads =>
      simp only [Exchange.step, hphase]
      split
      · exact h.later nofun nofun
      · exact .done h.path h.reply rfl

theorem came (baseService handleToken : String) (es : List Event)
    (hes : ∀ r, .reply r ∈ es → r = .path (expectedPath baseService handleToken)) :
    Came (expectedPath baseService handleToken) es
      (machine.run (start true true true baseService handleToken) es) := by
  induction es using List.reverseRecOn with
  | nil => exact ⟨rfl, nofun, nofun, nofun, nofun, nofun⟩
  | append_singleton es e ih =>
    rw [Machine.run_append]
    refine (ih fun r hr => hes r (List.mem_append_left _ hr)).step (expectedPath_ne baseService handleToken) ?_
    rintro r rfl
    exact hes r (by simp)

/-- A loop returns with what has come. -/
theorem Came.ends (h : Came expected es x) (hpath : expected ≠ "") (hreply : ∃ r, .reply r ∈ es)
    (hresponse : ∃ r, .response expected r ∈ es) (reads : Bool) :
    ∃ answer, (x.step (.resume reads)).phase = .done answer := by
  cases hphase : x.phase with
  | done answer =>
    refine ⟨answer, ?_⟩
    simp [Exchange.step, hphase]
  | calling left =>
    have hopen : ∀ answer, x.phase ≠ .done answer := fun _ hdone => nomatch hphase.symm.trans hdone
    have hreplied := h.replied hreply hopen
    obtain ⟨r, hr⟩ := Option.isSome_iff_exists.mp hreplied
    obtain rfl := h.reply r hr
    have hgot := h.responded hresponse hopen
    simp only [Exchange.step, hphase, h.told left hphase hreplied, Exchange.called, hr, if_neg hpath, hgot, if_true,
      Bool.not_true, Bool.false_eq_true, if_false]
    exact ⟨_, rfl⟩
  | waiting left =>
    have hopen : ∀ answer, x.phase ≠ .done answer := fun _ hdone => nomatch hphase.symm.trans hdone
    simp only [Exchange.step, hphase, (h.heard left hphase).2 (h.responded hresponse hopen), Bool.not_true,
      Bool.false_eq_true, if_false]
    exact ⟨_, rfl⟩

end Ends

/-- **The wait for the keyring.** Whatever the portal does, the client waits for twenty seconds
at most. Once the reply with the path expected and the Response to it have both come, in
whichever order and however late, the loop it is in is the last. -/
theorem portal_ends (baseService handleToken : String) (es : List Event) :
    let expected := expectedPath baseService handleToken
    let begun := start true true true baseService handleToken
    (machine.Along Waits begun es → es.countP isTick ≤ callTimeoutMs + responseTimeoutMs) ∧
    ((∃ r, .reply r ∈ es) → (∀ r, .reply r ∈ es → r = .path expected) →
      (∃ r, .response expected r ∈ es) → ∀ reads, ∃ answer,
        (machine.run begun (es ++ [.resume reads])).phase = .done answer) := by
  intro expected begun
  constructor
  · intro hes
    have hexpired : begun.Expired := fun hnone => absurd hnone (by decide)
    exact Nat.le_trans (Nat.le_add_left _ _) (left_run hexpired hes)
  · intro hreply hreplies hresponse reads
    rw [Machine.run_append]
    have hcame := came baseService handleToken es hreplies
    exact hcame.ends (expectedPath_ne baseService handleToken) hreply hresponse reads

theorem portal_ends_early :
    let path := expectedPath ":1.42" "shelfremote0"
    ∃ answer, (machine.run (start true true true ":1.42" "shelfremote0")
      ([.response path ⟨0, ""⟩, .tick, .reply (.path path)] ++ [.resume true])).phase = .done answer :=
  (portal_ends ":1.42" "shelfremote0" _).2 ⟨.path (expectedPath ":1.42" "shelfremote0"), by simp⟩ (by simp)
    ⟨_, .head _⟩ true

end Portal

end ShelfRemote.Storage
