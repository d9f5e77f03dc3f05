import Mathlib.Algebra.GroupWithZero.Nat
import ShelfRemote.App.Instance

/-! The callbacks of launches that find another instance there.

`handled_once` says that no callback is handled twice, whatever the launches do, and
`callback_answered` that it is handled and answered where the other instance stays. -/
namespace ShelfRemote.App
open Qt Runs Framing

namespace Instance

/-! ### A frame and its beginnings -/

/-- The beginning of a frame is not read, breaks the connection, or is the whole of it. -/
theorem front_prefix (a : Argument) {input : Bytes} (h : input <+: Callback.frame a.text) :
    Callback.front input = .more ∨ Callback.front input = .bad ∨
      Callback.front input = .item (utf8 a.text) [] := by
  by_cases hshort : input.length < 4
  · exact .inl (if_pos hshort)
  · obtain ⟨after, hframe⟩ := h
    have hhead : (Callback.toBigEndian (utf8 a.text).length).length = 4 := rfl
    have hlen : Callback.fromBigEndian input = (utf8 a.text).length := by
      rw [← Callback.fromBigEndian_append hshort after, hframe]
      exact Callback.fromBigEndian_toBigEndian a.fits _
    have htotal := congrArg List.length hframe
    rw [Callback.frame, List.length_append, List.length_append, hhead] at htotal
    unfold Callback.front
    rw [if_neg hshort, hlen]
    dsimp only
    split_ifs with hbad hpart
    · exact .inr (.inl rfl)
    · exact .inl rfl
    · have hnone : after = [] := List.length_eq_zero_iff.mp (by omega)
      rw [hnone, List.append_nil] at hframe
      rw [hframe, Callback.frame, List.drop_left' hhead, List.take_length]
      exact .inr (.inr (congrArg _ (List.drop_eq_nil_of_le (by rw [List.length_append, hhead]))))

/-- What has been read of the beginning of a frame: nothing, or the callback, and once. -/
theorem read_prefix (u : Utf8) (a : Argument) {chunks : List Bytes} (h : chunks.flatten <+: Callback.frame a.text) :
    (Callback.readAll u chunks).state = {} ∨
      trimmed a.text ≠ "" ∧
        (Callback.readAll u chunks).state = {uris := [trimmed a.text], answers := [Callback.frameAccepted]} := by
  obtain ⟨unread, hreads, -⟩ :=
    Callback.format.feedAll_reads (Callback.receive u) (r := {state := {}}) rfl rfl chunks
  change Callback.format.Reads _ chunks.flatten _ (Callback.readAll u chunks).broken
    (Callback.readAll u chunks).state ((Callback.readAll u chunks).buffer ++ unread) at hreads
  generalize (Callback.readAll u chunks).state = state, (Callback.readAll u chunks).broken = broken,
    (Callback.readAll u chunks).buffer ++ unread = left at hreads
  have htaken : Callback.receive u {} (utf8 a.text) =
      if trimmed a.text = "" then {} else {uris := [trimmed a.text], answers := [Callback.frameAccepted]} := by
    unfold Callback.receive
    rw [u.fromUtf8_utf8]
    rfl
  cases hreads with
  | more => exact .inl rfl
  | bad => exact .inl rfl
  | @item _ rest _ _ _ payload _ hfront hrest =>
    have hwhole : payload = utf8 a.text ∧ rest = [] := by
      rcases front_prefix a h with hmore | hbad | hitem
      · exact absurd (hfront.symm.trans hmore) (by simp)
      · exact absurd (hfront.symm.trans hbad) (by simp)
      · exact Front.item.inj (hfront.symm.trans hitem)
    obtain ⟨rfl, rfl⟩ := hwhole
    rw [htaken] at hrest
    obtain ⟨-, rfl, -⟩ := hrest.unique (.more Callback.format.nothing)
    split
    · exact .inl rfl
    · next hsome => exact .inr ⟨hsome, rfl⟩

/-- What was announced stays announced. -/
theorem drain_uris (u : Utf8) (fuel : Nat) (c : Callback.Connection) :
    c.state.uris <+: (Callback.format.drain (Callback.receive u) fuel c).state.uris := by
  induction fuel generalizing c with
  | zero => exact List.prefix_refl _
  | succ fuel ih =>
    unfold Format.drain
    split
    · exact List.prefix_refl _
    · exact List.prefix_refl _
    · next payload rest _ =>
      refine List.IsPrefix.trans ?_ (ih {c with buffer := rest, state := Callback.receive u c.state payload})
      show c.state.uris <+: (Callback.receive u c.state payload).uris
      unfold Callback.receive
      dsimp only
      split
      · exact List.prefix_refl _
      · exact List.prefix_append ..

theorem readyRead_uris (u : Utf8) (c : Callback.Connection) (chunk : Bytes) :
    (Callback.readyRead u c chunk).state.uris =
      c.state.uris ++ (Callback.readyRead u c chunk).state.uris.drop c.state.uris.length := by
  have hprefix : c.state.uris <+: (Callback.readyRead u c chunk).state.uris := by
    unfold Callback.readyRead Format.feed
    split
    · exact List.prefix_refl _
    · exact drain_uris u _ {c with buffer := c.buffer ++ chunk}
  obtain ⟨new, hnew⟩ := hprefix
  rw [← hnew, List.drop_left]

/-! ### One call -/

/-- The calls for the callback of a launch. -/
def heard (s : State) (p : Pid) : List Handled := s.handled.filter fun h => h.origin = p

/-- A connection carries the frame of its launch, and no more of it than was written. -/
structure Carries (u : Utf8) (arg : Pid → Argument) (p : Pid) (phase : Phase) (link : Link) : Prop where
  sent : phase ∈ [.connected, .written, .gone]
  other : link.peer ≠ p
  read : ∃ chunks, link.received = Callback.readAll u chunks ∧
    chunks.flatten ++ link.inFlight <+: Callback.frame (arg p).text ∧
    (phase = .connected → chunks.flatten ++ link.inFlight = [])

/-- A callback is handled by its own launch or by the one it is connected to. -/
structure Heard (u : Utf8) (arg : Pid → Argument) (s : State) (p : Pid) : Prop where
  unlinked : (s.launches p).link = none → (s.launches p).acknowledged = false ∧
    (heard s p = [] ∨
      (s.launches p).phase ∈ [.running, .leaving, .released, .gone] ∧ heard s p = [⟨p, p, (arg p).text⟩])
  linked : ∀ link, (s.launches p).link = some link → Carries u arg p (s.launches p).phase link ∧
    heard s p = link.received.state.uris.map (fun uri => ⟨link.peer, p, uri⟩) ∧
    ((s.launches p).acknowledged = true → link.received.state.uris ≠ [])

section Heard
variable {u : Utf8} {arg : Pid → Argument} {s s' : State}

theorem heard_append {p : Pid} {new : List Handled} (h : s'.handled = s.handled ++ new)
    (hnew : ∀ h ∈ new, h.origin = p) : heard s' p = heard s p ++ new := by
  have hall : (new.filter fun h => h.origin = p) = new := List.filter_eq_self.mpr (by simpa using hnew)
  unfold heard
  rw [h, List.filter_append, hall]

theorem Only.heard {p q : Pid} (h : Only p s s') (hq : q ≠ p) (hheard : Heard u arg s q) : Heard u arg s' q := by
  obtain ⟨new, hnew, horigin⟩ := h.handled
  have hsame : Instance.heard s' q = Instance.heard s q := by
    have hnone : (new.filter fun h => h.origin = q) = [] := by
      refine List.filter_eq_nil_iff.mpr fun h hh => ?_
      simpa [horigin h hh] using Ne.symm hq
    unfold Instance.heard
    rw [hnew, List.filter_append, hnone, List.append_nil]
  exact ⟨by rw [hsame, h.launches q hq]; exact hheard.unlinked,
    by rw [hsame, h.launches q hq]; exact hheard.linked⟩

/-- A launch that only goes on. -/
theorem Heard.moves {p : Pid} (h : Heard u arg s p) (hheard : heard s' p = heard s p)
    (hlink : (s'.launches p).link = (s.launches p).link)
    (hack : (s'.launches p).acknowledged = (s.launches p).acknowledged)
    (hown : (s.launches p).phase ∈ [.running, .leaving, .released, .gone] →
      (s'.launches p).phase ∈ [.running, .leaving, .released, .gone])
    (hsent : (s.launches p).phase ∈ [.connected, .written, .gone] →
      (s'.launches p).phase ∈ [.connected, .written, .gone])
    (hconnected : (s'.launches p).phase = .connected → (s.launches p).phase = .connected) : Heard u arg s' p := by
  constructor
  · rw [hlink, hack, hheard]
    intro hnone
    obtain ⟨hnot, hcalls⟩ := h.unlinked hnone
    exact ⟨hnot, hcalls.imp id fun hmine => ⟨hown hmine.1, hmine.2⟩⟩
  · rw [hlink, hack, hheard]
    intro link hsome
    obtain ⟨⟨hphase, hother, chunks, hread, hpart, hnothing⟩, hcalls, hanswer⟩ := h.linked link hsome
    exact ⟨⟨hsent hphase, hother, chunks, hread, hpart, fun h => hnothing (hconnected h)⟩, hcalls, hanswer⟩

/-- Before a launch runs or has connected, nothing has become of its callback. -/
theorem Heard.nothing {p : Pid} (h : Heard u arg s p)
    (hphase : (s.launches p).phase ∉ [.connected, .written, .running, .leaving, .released, .gone]) :
    (s.launches p).link = none ∧ heard s p = [] ∧ (s.launches p).acknowledged = false := by
  have hlink : (s.launches p).link = none := by
    by_contra hsome
    obtain ⟨link, hsome⟩ := Option.ne_none_iff_exists'.mp hsome
    have hsent := (h.linked link hsome).1.sent
    simp_all
  obtain ⟨hnot, hnone | ⟨hown, -⟩⟩ := h.unlinked hlink
  · exact ⟨hlink, hnone, hnot⟩
  · simp_all

/-- Nothing has happened to a launch that has not started. -/
theorem Placed.unstarted {p : Pid} (h : Placed s p) (hheard : Heard u arg s p)
    (habsent : (s.launches p).phase = .absent) : s.launches p = {} := by
  obtain ⟨hlink, -, hnot⟩ := hheard.nothing (by simp [habsent])
  have hfd : (s.launches p).lockFd = false := by
    by_contra hfd
    simpa [habsent] using h.fd (by simpa using hfd)
  have hdeaf : (s.launches p).listening = false := by
    by_contra hlistens
    simpa [habsent] using h.listening (by simpa using hlistens)
  revert habsent hlink hnot hfd hdeaf
  cases s.launches p
  simp_all

theorem Turn.heard {e : Event} (hturn : Turn u arg s e s') (hplaced : Placed s e.launch)
    (h : Heard u arg s e.launch) : Heard u arg s' e.launch := by
  have hsame : s'.handled = s.handled → Instance.heard s' e.launch = Instance.heard s e.launch := fun h => by
    rw [Instance.heard, h, Instance.heard]
  cases hturn with
  | @connects p q _ hphase hpath hq hsome =>
    obtain ⟨-, hnone, hnot⟩ := h.nothing (by simp [Event.launch, hphase])
    have hother : q ≠ p := by
      rintro rfl
      rcases hplaced.listening hq with ⟨hruns, -⟩ | hruns <;> simp [Event.launch, hphase] at hruns
    refine ⟨fun hlink => by simp [Event.launch] at hlink, fun link hlink => ?_⟩
    obtain rfl : ({peer := q} : Link) = link := by simpa [Event.launch] using hlink
    refine ⟨⟨by simp [Event.launch], hother, [], rfl, List.nil_prefix, fun _ => rfl⟩, ?_, fun hack => ?_⟩
    · exact (hsame rfl).trans hnone
    · simp [Event.launch] at hack hnot
      simp [hnot] at hack
  | @writes p link count hphase hlink =>
    change Heard u arg s p at h
    show Heard u arg _ p
    obtain ⟨⟨-, hother, chunks, hread, -, hnothing⟩, hcalls, hanswer⟩ := h.linked link hlink
    obtain ⟨hchunks, hflight⟩ := List.append_eq_nil_iff.mp (hnothing hphase)
    refine ⟨fun hnone => by simp [write] at hnone, fun link' hlink' => ?_⟩
    obtain rfl : {link with inFlight := (Callback.frame (arg p).text).take count} = link' := by
      simpa [write, hflight] using hlink'
    have hsent : ((write arg s p link count).launches p).phase ∈ [.written, .gone] := by
      unfold write
      dsimp only
      split <;> simp
    refine ⟨⟨List.mem_cons_of_mem _ hsent, hother, chunks, hread, ?_, fun hconnected => ?_⟩, ?_, fun hack => ?_⟩
    · rw [hchunks, List.nil_append]
      exact List.take_prefix ..
    · simp [hconnected] at hsent
    · exact (hsame rfl).trans hcalls
    · exact hanswer (by simpa [write] using hack)
  | @arrives p link count hlink hruns hlistens =>
    change Heard u arg s p at h
    show Heard u arg _ p
    obtain ⟨⟨hphase, hother, chunks, hread, hpart, hnothing⟩, hcalls, hanswer⟩ := h.linked link hlink
    have hmore := readyRead_uris u link.received (link.inFlight.take count)
    refine ⟨fun hnone => by simp [arrive] at hnone, fun link' hlink' => ?_⟩
    obtain rfl : {link with
        inFlight := link.inFlight.drop count
        received := Callback.readyRead u link.received (link.inFlight.take count)} = link' := by
      simpa [arrive] using hlink'
    have hwhole : (chunks ++ [link.inFlight.take count]).flatten ++ link.inFlight.drop count =
        chunks.flatten ++ link.inFlight := by
      rw [List.flatten_append, List.flatten_singleton, List.append_assoc, List.take_append_drop]
    refine ⟨⟨by simpa [arrive] using hphase, hother, chunks ++ [link.inFlight.take count], ?_, hwhole ▸ hpart,
      fun hconnected => hwhole ▸ hnothing (by simpa [arrive] using hconnected)⟩, ?_, fun hack => ?_⟩
    · rw [Callback.readAll, List.foldl_append, hread]
      rfl
    · rw [hmore, List.map_append, ← hcalls]
      apply heard_append rfl
      intro h hnew
      obtain ⟨_, _, rfl⟩ := List.mem_map.mp hnew
      rfl
    · have hsome := hanswer (by simpa [arrive] using hack)
      rw [hmore]
      exact List.append_ne_nil_of_left_ne_nil hsome _
  | @acknowledges p link hphase hlink hanswer =>
    change Heard u arg s p at h
    show Heard u arg _ p
    obtain ⟨⟨-, hother, chunks, hread, hpart, -⟩, hcalls, -⟩ := h.linked link hlink
    refine ⟨fun hnone => by simp [hlink] at hnone, fun link' hlink' => ?_⟩
    obtain rfl : link = link' := by simpa [hlink] using hlink'
    refine ⟨⟨by simp, hother, chunks, hread, hpart, fun h => by simp at h⟩, (hsame rfl).trans hcalls, fun _ hnone => ?_⟩
    have hprefix : chunks.flatten <+: Callback.frame (arg p).text := (List.prefix_append ..).trans hpart
    rw [hread] at hanswer hnone
    rcases read_prefix u (arg p) hprefix with hstate | ⟨-, hstate⟩ <;> simp [hstate] at hanswer hnone
  | @enters p hphase =>
    obtain ⟨hlink, hnone, hnot⟩ := h.nothing (by simp [Event.launch, hphase])
    change (s.launches p).link = none at hlink
    show Heard u arg _ p
    change (s.launches p).acknowledged = false at hnot
    change Instance.heard s p = [] at hnone
    refine ⟨fun _ => ⟨by simpa using hnot, ?_⟩, fun link hsome => by simp [hlink] at hsome⟩
    by_cases hempty : (arg p).text = ""
    · exact .inl ((hsame (if_pos hempty)).trans hnone)
    · refine .inr ⟨by simp, ?_⟩
      refine (heard_append (if_neg hempty) (by simp)).trans ?_
      rw [hnone]
      rfl
  | @expires p contended hphase =>
    cases contended <;> apply h.moves (hsame rfl) <;> simp_all [Event.launch]
  | _ => apply h.moves (hsame rfl) <;> simp_all [Event.launch, startListening]

/-- A call for another launch is made by the one with the lock. -/
theorem Turn.handles {e : Event} (hturn : Turn u arg s e s') (hplaced : ∀ q, Placed s q) :
    ∀ h ∈ s'.handled, h ∈ s.handled ∨ h.handler = h.origin ∨ s.lock = some h.handler := by
  intro h hmem
  cases hturn with
  | @arrives p link count hlink hruns hlistens =>
    rcases List.mem_append.mp hmem with hold | hnew
    · exact .inl hold
    · obtain ⟨uri, _, rfl⟩ := List.mem_map.mp hnew
      refine .inr (.inr ((hplaced link.peer).lock.mpr ⟨?_, by simp [hruns]⟩))
      rcases (hplaced link.peer).listening hlistens with ⟨-, hfd⟩ | hreleased
      · exact hfd
      · simp [hruns] at hreleased
  | enters =>
    dsimp only at hmem
    split at hmem
    · exact .inl hmem
    · rcases List.mem_append.mp hmem with hold | hnew
      · exact .inl hold
      · rw [List.mem_singleton.mp hnew]
        exact .inr (.inl rfl)
  | _ => exact .inl hmem

theorem keeps_heard : Machine.Keeps (machine u arg) (fun _ _ => True)
    fun s => (∀ p, Placed s p) ∧ ∀ p, Heard u arg s p where
  step s e hs _ := by
    refine ⟨keeps_placed.step s e hs.1 trivial, fun q => ?_⟩
    show Heard u arg (step u arg s e) q
    by_cases hq : q = e.launch
    · rcases step_turn u arg s e with hsame | hturn
      · rw [hsame]
        exact hs.2 q
      · exact hq ▸ hturn.heard (hs.1 _) (hs.2 _)
    · exact (step_only u arg hs.1 e).heard hq (hs.2 q)

theorem heard_fresh (path : Option Pid) (p : Pid) : Heard u arg (fresh path) p :=
  ⟨fun _ => ⟨rfl, .inl rfl⟩, fun _ hlink => nomatch hlink⟩

/-- The calls for a callback: none, one by its own launch, or one by another, for the callback
without the blanks around it. -/
theorem Heard.calls {p : Pid} (h : Heard u arg s p) :
    heard s p = [] ∨ heard s p = [⟨p, p, (arg p).text⟩] ∨
      ∃ q, q ≠ p ∧ trimmed (arg p).text ≠ "" ∧ heard s p = [⟨q, p, trimmed (arg p).text⟩] := by
  cases hlink : (s.launches p).link with
  | none => exact (h.unlinked hlink).2.imp id fun hmine => .inl hmine.2
  | some link =>
    obtain ⟨⟨-, hother, chunks, hread, hpart, -⟩, hcalls, -⟩ := h.linked link hlink
    rw [hcalls, hread]
    rcases read_prefix u (arg p) ((List.prefix_append ..).trans hpart) with hstate | ⟨hsome, hstate⟩
    · exact .inl (by rw [hstate]; rfl)
    · exact .inr (.inr ⟨link.peer, hother, hsome, by rw [hstate]; rfl⟩)

/-- What was acknowledged was handled. -/
theorem Heard.acknowledged {p : Pid} (h : Heard u arg s p) (hack : (s.launches p).acknowledged = true) :
    ∃ q, q ≠ p ∧ heard s p = [⟨q, p, trimmed (arg p).text⟩] := by
  cases hlink : (s.launches p).link with
  | none => exact absurd hack (by simp [(h.unlinked hlink).1])
  | some link =>
    obtain ⟨⟨-, hother, -⟩, hcalls, hanswer⟩ := h.linked link hlink
    rcases h.calls with hnone | hmine | ⟨q, hq, -, hcall⟩
    · exact absurd (List.map_eq_nil_iff.mp (hcalls.symm.trans hnone)) (hanswer hack)
    · obtain ⟨uri, -, huri⟩ := List.mem_map.mp (hcalls ▸ hmine ▸ List.mem_singleton.mpr rfl)
      exact absurd (congrArg Handled.handler huri) hother
    · exact ⟨q, hq, hcall⟩

end Heard

/-- **A callback is handled once.** Whatever launches there are, in whatever order they take
their steps, fail and crash: for the callback of a launch there is at most one call, by the
launch itself if it runs, or by another, with the blanks around the callback gone and not for
blanks alone; a launch that was told its callback is accepted has had that call; and whoever
makes a call for another launch has the lock at that moment. -/
theorem handled_once (u : Utf8) (arg : Pid → Argument) (path : Option Pid) (es : List Event) :
    let s := (machine u arg).run (fresh path) es
    (∀ p, heard s p = [] ∨ heard s p = [⟨p, p, (arg p).text⟩] ∨
      ∃ q, q ≠ p ∧ trimmed (arg p).text ≠ "" ∧ heard s p = [⟨q, p, trimmed (arg p).text⟩]) ∧
    (∀ p, (s.launches p).acknowledged = true → ∃ q, q ≠ p ∧ heard s p = [⟨q, p, trimmed (arg p).text⟩]) ∧
    (machine u arg).Along (fun s e => ∀ h ∈ (step u arg s e).handled,
      h ∈ s.handled ∨ h.handler = h.origin ∨ s.lock = some h.handler) (fresh path) es := by
  intro s
  have hstart : (∀ p, Placed (fresh path) p) ∧ ∀ p, Heard u arg (fresh path) p :=
    ⟨placed_fresh path, heard_fresh path⟩
  have hheard : ∀ p, Heard u arg s p := (keeps_heard.always hstart es).2
  refine ⟨fun p => (hheard p).calls, fun p => (hheard p).acknowledged, ?_⟩
  refine keeps_heard.always_along (fun s e hs => ?_) hstart es
  rcases step_turn u arg s e with hsame | hturn
  · rw [hsame]
    exact fun h hmem => .inl hmem
  · exact hturn.handles hs.1

theorem handled_once_twice :
    let s := (machine default sampleArg).run (fresh none) (opening 0 ++ [.start 1, .openLock 1 true, .flock 1 false,
      .connect 1, .write 1 6, .arrive 1 6, .acknowledge 1])
    (s.launches 1).acknowledged = true ∧ ∃ q, q ≠ 1 ∧ heard s 1 = [⟨q, 1, trimmed "hi"⟩] := by
  intro s
  have hack : (s.launches 1).acknowledged = true := by decide +kernel
  exact ⟨hack, (handled_once default sampleArg none _).2.1 1 hack⟩

/-! ### The answer -/

/-- The launch that others connect to, and that reads what they write. -/
structure Serves (s : State) (q : Pid) : Prop where
  lock : s.lock = some q
  path : s.path = some q
  running : (s.launches q).phase = .running
  listening : (s.launches q).listening = true

/-- Nothing but a launch that serves, and one more. -/
def alone (q p : Pid) (l : Launch) : State where
  lock := some q
  path := some q
  launches := Function.update (fun _ => {phase := .running, lockFd := true, listening := true}) p l

section Answer
variable {u : Utf8} {arg : Pid → Argument} {s : State} {p q : Pid}

@[simp] theorem alone_self (l : Launch) : (alone q p l).launches p = l := by
  simp [alone]

theorem alone_other {r : Pid} (hr : r ≠ p) (l : Launch) :
    (alone q p l).launches r = {phase := .running, lockFd := true, listening := true} := by
  simp [alone, hr]

/-- What becomes of a launch hangs on nothing but its own steps while another serves. -/
theorem step_alone (h : Serves s q) (hne : p ≠ q) (e : Event) (he : e.launch = p)
    (hlink : ∀ link, (s.launches p).link = some link → link.peer = q) :
    (step u arg s e).launches p = (step u arg (alone q p (s.launches p)) e).launches p := by
  obtain ⟨hlock, hpath, hrunning, hlistening⟩ := h
  have hpath' : (alone q p (s.launches p)).path = some q := rfl
  have hlock' : (alone q p (s.launches p)).lock = some q := rfl
  cases e with
  | flock r error =>
    obtain rfl : r = p := he
    simp only [step, alone_self, hlock, hlock']
    split_ifs <;> simp_all
  | connect r =>
    obtain rfl : r = p := he
    simp only [step, connect, alone_self, alone_other (Ne.symm hne), hpath, hpath', hlistening]
    split
    · simp only [Bool.true_eq_false, if_false]
      split <;> simp
    · simp
  | arrive r count =>
    obtain rfl : r = p := he
    simp only [step, alone_self]
    split
    · next link hsome =>
      have hpeer : link.peer = q := hlink link hsome
      rw [hpeer, alone_other (Ne.symm hne), hrunning, hlistening]
      simp [arrive]
    · simp
  | expire r | write r =>
    obtain rfl : r = p := he
    simp only [step, alone_self]
    split <;> simp [write]
  | acknowledge r =>
    obtain rfl : r = p := he
    simp only [step, alone_self]
    split
    · split <;> simp
    · simp
  | start r | openLock r | removeServer r | listen r | giveUp r | enter r | quit r | unlock r | close r | crash r =>
    obtain rfl : r = p := he
    simp only [step, alone_self]
    split_ifs <;> simp [startListening]

theorem Serves.step {e : Event} (h : Serves s q) (hplaced : ∀ r, Placed s r) (hquit : e ≠ .quit q)
    (hcrash : e ≠ .crash q) (he : Undisturbed s e) : Serves (step u arg s e) q := by
  obtain ⟨hlock, hpath, hrunning, hlistening⟩ := h
  have hreached : Reached s := fun r hr _ => hpath.trans (hlock.symm.trans hr)
  have hafter := (step_reached u arg hplaced hreached e).1.mpr he
  have hkept : (Instance.step u arg s e).lock = some q ∧ ((Instance.step u arg s e).launches q).phase = .running ∧
      ((Instance.step u arg s e).launches q).listening = true := by
    by_cases hq : q = e.launch
    · subst hq
      rcases step_turn u arg s e with hsame | hturn
      · rw [hsame]
        exact ⟨hlock, hrunning, hlistening⟩
      · generalize Instance.step u arg s e = s' at hturn
        cases hturn <;> simp_all [Event.launch, arrive]
    · have honly := step_only u arg hplaced e
      rw [honly.launches q hq]
      exact ⟨(honly.lock q hq).mpr hlock, hrunning, hlistening⟩
  exact ⟨hkept.1, hafter q hkept.1 hkept.2.2, hkept.2.1, hkept.2.2⟩

/-- What a step of its own makes of a launch while another serves. -/
def own (u : Utf8) (arg : Pid → Argument) (q p : Pid) (l : Launch) (e : Event) : Launch :=
  (step u arg (alone q p l) e).launches p

theorem own_peer {l : Launch} {e : Event} (he : e.launch = p) (hlink : ∀ link, l.link = some link → link.peer = q) :
    ∀ link, (own u arg q p l e).link = some link → link.peer = q := by
  unfold own
  rcases step_turn u arg (alone q p l) e with hsame | hturn
  · rw [hsame, alone_self]
    exact hlink
  · have hpath : (alone q p l).path = some q := rfl
    subst he
    generalize step u arg (alone q e.launch l) e = s' at hturn
    intro link hsome
    cases hturn <;> simp_all [Event.launch, startListening, write, arrive]
    all_goals rw [← hsome]

/-- The rule by which a launch goes on serving. -/
def Stays (q : Pid) (s : State) (e : Event) : Prop := e ≠ .quit q ∧ e ≠ .crash q ∧ Undisturbed s e

/-- In a run in which another goes on serving, a launch comes to where its own steps lead. -/
theorem run_own (u : Utf8) (arg : Pid → Argument) (h : Serves s q) (hplaced : ∀ r, Placed s r) (hne : p ≠ q)
    (hlink : ∀ link, (s.launches p).link = some link → link.peer = q) {es : List Event}
    (hes : (machine u arg).Along (Stays q) s es) :
    ((machine u arg).run s es).launches p =
      (es.filter fun e => e.launch = p).foldl (own u arg q p) (s.launches p) := by
  induction es generalizing s with
  | nil => rfl
  | cons e rest ih =>
    obtain ⟨⟨hquit, hcrash, he⟩, hrest⟩ := hes
    have hserves : Serves (step u arg s e) q := h.step hplaced hquit hcrash he
    have hplaced' : ∀ r, Placed (step u arg s e) r := keeps_placed.step s e hplaced trivial
    by_cases hp : e.launch = p
    · have hown : (step u arg s e).launches p = own u arg q p (s.launches p) e := step_alone h hne e hp hlink
      rw [List.filter_cons_of_pos (by simpa using hp), List.foldl_cons, ← hown]
      exact ih hserves hplaced' (hown ▸ own_peer hp hlink) hrest
    · have hother := (step_only u arg hplaced e).launches p (Ne.symm hp)
      rw [List.filter_cons_of_neg (by simpa using hp), ← hother]
      exact ih hserves hplaced' (hother ▸ hlink) hrest

/-- The steps of a launch that hands on its callback. -/
def forward (p : Pid) (error : Bool) (count : Nat) (counts : List Nat) : List Event :=
  [.start p, .openLock p true, .flock p error, .connect p, .write p count] ++ counts.map (.arrive p) ++
    [.acknowledge p]

/-- The reading of a frame, piece by piece. -/
theorem own_arrives (u : Utf8) (arg : Pid → Argument) (l : Launch) (link : Link) (hne : p ≠ link.peer)
    (hlink : l.link = some link) (counts : List Nat) :
    ∃ chunks : List Bytes, (counts.map (.arrive p)).foldl (own u arg q p) l =
        {l with link := some {link with
          inFlight := link.inFlight.drop counts.sum
          received := chunks.foldl (Callback.readyRead u) link.received}} ∧
      chunks.flatten = link.inFlight.take counts.sum := by
  induction counts generalizing l link with
  | nil => exact ⟨[], by simp [← hlink], by simp⟩
  | cons count counts ih =>
    have hstep : own u arg q p l (.arrive p count) = {l with link := some {link with
        inFlight := link.inFlight.drop count
        received := Callback.readyRead u link.received (link.inFlight.take count)}} := by
      unfold own
      simp only [step, alone_self, hlink, alone_other (Ne.symm hne)]
      simp [arrive]
    let read : Link := {link with
      inFlight := link.inFlight.drop count
      received := Callback.readyRead u link.received (link.inFlight.take count)}
    obtain ⟨chunks, hrun, hchunks⟩ := ih {l with link := some read} read hne rfl
    refine ⟨link.inFlight.take count :: chunks, ?_, ?_⟩
    · rw [List.map_cons, List.foldl_cons, hstep]
      refine hrun.trans ?_
      simp [read, List.drop_drop]
    · rw [List.flatten_cons, hchunks, List.sum_cons, List.take_add]

/-- The callback is read whole, however it comes, and accepted. -/
theorem own_forward (u : Utf8) (hne : p ≠ q) (hsize : (utf8 (arg p).text).length ≤ Callback.maxFrameBytes)
    (hsome : trimmed (arg p).text ≠ "") (error : Bool) {count : Nat} {counts : List Nat}
    (hcount : (Callback.frame (arg p).text).length ≤ count)
    (hcounts : (Callback.frame (arg p).text).length ≤ counts.sum) :
    ∃ link, (forward p error count counts).foldl (own u arg q p) {} =
        {phase := .gone, link := some link, acknowledged := true} ∧
      link.peer = q ∧ link.received.state.uris = [trimmed (arg p).text] := by
  have htext : (arg p).text ≠ "" := by
    intro h
    rw [h] at hsome
    exact hsome (by decide)
  let frame := Callback.frame (arg p).text
  let link : Link := {peer := q, inFlight := frame}
  have hstart : own u arg q p {} (.start p) = {phase := .starting} := by simp [own, step]
  have hopen : own u arg q p {phase := .starting} (.openLock p true) = {phase := .opened, lockFd := true} := by
    simp [own, step]
  have hbusy : own u arg q p {phase := .opened, lockFd := true} (.flock p error) = {phase := .forwarding true} := by
    have hlock : (alone q p {phase := .opened, lockFd := true}).lock = some q := rfl
    simp [own, step, hlock]
  have hconnect : own u arg q p {phase := .forwarding true} (.connect p) =
      {phase := .connected, link := some {peer := q}} := by
    have hpath : (alone q p {phase := .forwarding true}).path = some q := rfl
    simp [own, step, connect, hpath, alone_other (Ne.symm hne), htext]
  have hwrite : own u arg q p {phase := .connected, link := some {peer := q}} (.write p count) =
      {phase := .written, link := some link} := by
    simp [own, step, write, hcount, link, frame, List.take_of_length_le hcount]
  obtain ⟨chunks, harrive, hchunks⟩ :=
    own_arrives u arg (q := q) {phase := .written, link := some link} link hne rfl counts
  -- The frame came whole, so it was read to its end.
  have hwhole : chunks.flatten = ([utf8 (arg p).text].map fun payload =>
      Callback.toBigEndian payload.length ++ payload).flatten := by
    rw [hchunks, List.take_of_length_le hcounts]
    simp [Callback.frame]
  have hpayload : 1 ≤ (utf8 (arg p).text).length := by
    refine List.length_pos_iff.mpr fun hnone => htext (utf8_injective ?_)
    exact hnone
  have hread : chunks.foldl (Callback.readyRead u) {state := {}} =
      {state := {uris := [trimmed (arg p).text], answers := [Callback.frameAccepted]}} := by
    refine (Format.feedAll_items (F := Callback.format) (Callback.receive u) ?_ {} hwhole).trans ?_
    · intro payload hpayload' rest
      obtain rfl := List.mem_singleton.mp hpayload'
      exact Callback.front_frame hpayload hsize rest
    · simp [Callback.receive, u.fromUtf8_utf8, hsome]
  have hanswer : own u arg q p {phase := .written, link := some {link with
        inFlight := link.inFlight.drop counts.sum
        received := chunks.foldl (Callback.readyRead u) link.received}} (.acknowledge p) =
      {phase := .gone, acknowledged := true, link := some {link with
        inFlight := link.inFlight.drop counts.sum
        received := chunks.foldl (Callback.readyRead u) link.received}} := by
    have hread' : chunks.foldl (Callback.readyRead u) link.received = _ := hread
    simp [own, step, hread']
  refine ⟨{link with
      inFlight := link.inFlight.drop counts.sum
      received := chunks.foldl (Callback.readyRead u) link.received}, ?_, rfl, ?_⟩
  · rw [forward, List.foldl_append, List.foldl_append]
    simp only [List.foldl_cons, List.foldl_nil, hstart, hopen, hbusy, hconnect, hwrite, harrive, hanswer]
  · exact congrArg (fun c : Callback.Connection => c.state.uris) hread

end Answer

/-- **A callback gets through.** While one launch serves, that is until it quits or crashes and
as long as nobody takes its socket file away: a launch that starts meanwhile, and whose own
steps are those of a forward, with the frame written and read to its end, has its callback
handled by the one that serves, once, and is told so. What the other launches do between its
steps, and into how many pieces the frame falls, makes no difference. -/
theorem callback_answered (u : Utf8) (arg : Pid → Argument) (path : Option Pid) (es later : List Event) (p q : Pid)
    (error : Bool) (count : Nat) (counts : List Nat) :
    let s := (machine u arg).run (fresh path) es
    let s' := (machine u arg).run s later
    Serves s q → (s.launches p).phase = .absent → (machine u arg).Along (Stays q) s later →
    trimmed (arg p).text ≠ "" → (utf8 (arg p).text).length ≤ Callback.maxFrameBytes →
    (Callback.frame (arg p).text).length ≤ count → (Callback.frame (arg p).text).length ≤ counts.sum →
    (later.filter fun e => e.launch = p) = forward p error count counts →
    heard s' p = [⟨q, p, trimmed (arg p).text⟩] ∧ (s'.launches p).acknowledged = true := by
  intro s s' hserves habsent hstays hsome hsize hcount hcounts hown
  have hstart : (∀ r, Placed (fresh path) r) ∧ ∀ r, Heard u arg (fresh path) r :=
    ⟨placed_fresh path, heard_fresh path⟩
  have hs : (∀ r, Placed s r) ∧ ∀ r, Heard u arg s r := keeps_heard.always hstart es
  have hs' : (∀ r, Placed s' r) ∧ ∀ r, Heard u arg s' r := keeps_heard.always hs later
  have hne : p ≠ q := by
    rintro rfl
    exact absurd (habsent.symm.trans hserves.running) (by decide)
  have hnew : s.launches p = {} := (hs.1 p).unstarted (hs.2 p) habsent
  have hrun := run_own u arg hserves hs.1 hne (by simp [hnew]) hstays
  obtain ⟨link, hforward, hpeer, huris⟩ :=
    own_forward u hne hsize hsome error hcount hcounts
  have hend : s'.launches p = {phase := .gone, link := some link, acknowledged := true} := by
    rw [← hforward, ← hown, ← hnew]
    exact hrun
  refine ⟨?_, by rw [hend]⟩
  rw [((hs'.2 p).linked link (by rw [hend])).2.1, huris, hpeer]
  rfl

/-- The frame of the second launch comes in two pieces, a third launch comes in between. -/
def forwarding : List Event :=
  [.start 1, .openLock 1 true, .start 2, .flock 1 false, .connect 1, .openLock 2 false, .write 1 6, .connect 2,
    .arrive 1 3, .giveUp 2, .arrive 1 3, .acknowledge 1]

theorem callback_answered_pieces :
    let s := (machine default sampleArg).run ((machine default sampleArg).run (fresh none) (opening 0)) forwarding
    heard s 1 = [⟨0, 1, trimmed "hi"⟩] ∧ (s.launches 1).acknowledged = true :=
  callback_answered default sampleArg none (opening 0) forwarding 1 0 false 6 [3, 3]
    ⟨by decide +kernel, by decide +kernel, by decide +kernel, by decide +kernel⟩ (by decide +kernel)
    (by simp [forwarding, Machine.Along, Stays, Undisturbed]) (by decide +kernel) (by decide +kernel)
    (by decide +kernel) (by decide +kernel) (by decide)

end Instance

end ShelfRemote.App
