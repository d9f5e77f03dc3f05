import ShelfRemote.Player.Books

/-! Listening time is reported once.

Every millisecond the clock runs is, from then on, in one place: pending, on a
request in flight, or acknowledged. A report takes all that is pending, a reply
that failed returns it, and a session that opens starts from nothing (`Booked`,
`Balanced`). A late reply of an earlier session changes neither. -/
namespace ShelfRemote.Player
open Qt Net Runs PlaybackSession

/-- The listening time a request reports. -/
def Post.listened (p : Post) : Nat :=
  match p.body with
  | .play _ => 0
  | .report r => r.timeListened

/-- The time in these spans. -/
def total (spans : List Span) : Nat := (spans.map (·.ms)).sum

theorem total_append (a b : List Span) : total (a ++ b) = total a + total b := by
  simp [total]

/-- A sync or a close of the session with this id. -/
def Reports (target : Target) (sessionId : String) : Prop :=
  target = target.server.sessionSync sessionId ∨ target = target.server.sessionClose sessionId

/-! ### The invariant -/

/-- The closure of a request knows what the request reports, and for which session. -/
def Post.Fair (p : Post) : Prop :=
  match p.closure with
  | .play _ => p.listened = 0
  | .report listened gen => listened = p.listened ∧ gen = p.session
  | .quit => True

theorem Post.fair_report {p : Post} {listened gen : Nat} (hc : p.closure = .report listened gen)
    (hl : listened = p.listened) (hg : gen = p.session) : p.Fair := by
  unfold Fair
  rw [hc]
  exact ⟨hl, hg⟩

theorem Post.fair_quit {p : Post} (hc : p.closure = .quit) : p.Fair := by
  unfold Fair
  rw [hc]
  trivial

/-- The time a request reports accrued in the session it was posted in. -/
structure Post.Honest (p : Post) : Prop where
  listened : p.listened = total p.spans
  own : ∀ span ∈ p.spans, span.session = p.session ∧ Reports p.target span.sessionId

/-- What the requests of one session report. -/
def claims (session : Nat) (posts : List Post) : Nat :=
  ((posts.filter fun p => p.session == session).map (·.listened)).sum

/-- What a request reports, where it is of this session. -/
def Post.share (p : Post) (session : Nat) : Nat := if p.session = session then p.listened else 0

theorem claims_cons (session : Nat) (p : Post) (posts : List Post) :
    claims session (p :: posts) = p.share session + claims session posts := by
  unfold claims Post.share
  by_cases h : p.session = session <;> simp [h]

theorem claims_perm {session : Nat} {a b : List Post} (h : a.Perm b) : claims session a = claims session b :=
  ((h.filter _).map _).sum_nat

theorem claims_eq_zero {session : Nat} {posts : List Post} (h : ∀ p ∈ posts, p.session ≠ session) :
    claims session posts = 0 := by
  have hnone : posts.filter (fun p => p.session == session) = [] :=
    List.filter_eq_nil_iff.mpr fun p hp => by simpa using h p hp
  simp [claims, hnone]

namespace Books

def pending (b : Books) : Nat := b.listen.pendingListened b.now

/-- What requests of the newest session report that are not answered yet. -/
def claimed (b : Books) : Nat := claims b.session b.inFlight

structure Booked (b : Books) : Prop where
  sound : b.listen.Sound b.now
  pending : b.pending = total b.spans
  own : ∀ span ∈ b.spans, span.session = b.session
  /-- The session that is open keeps its id. -/
  named : b.active = true → ∀ span ∈ b.spans, span.sessionId = b.sessionId
  returns : b.active = true → ∀ p ∈ b.inFlight, p.session = b.session →
    ∀ span ∈ p.spans, span.sessionId = b.sessionId
  honest : ∀ p ∈ b.wire, p.Honest
  fair : ∀ p ∈ b.inFlight, p.Fair
  older : ∀ p ∈ b.inFlight, p.session ≤ b.session
  flying : ∀ p ∈ b.inFlight, p ∈ b.wire
  /-- Nothing of a session that is open is being posted for the last time. -/
  last : b.active = true → ∀ p ∈ b.inFlight, p.closure = .quit → p.session ≠ b.session

variable {b b' : Books} {plays : Prop}

theorem Booked.setPlaying (h : b.Booked) (playing : Bool) : (b.setPlaying playing).Booked := by
  refine {h with sound := h.sound.setPlaying playing, pending := ?_}
  exact (ProgressSyncer.pending_setPlaying ..).trans h.pending

/-- What is reported is all that is pending. -/
theorem Booked.report (h : b.Booked) {target : Target} {currentTime duration : Rat}
    {closure : Nat → Closure} (htarget : ∀ span ∈ b.spans, Reports target span.sessionId)
    (hclosure : ∀ listened, closure listened = .report listened b.session ∨
      closure listened = .quit ∧ b.active = false) :
    (b.report target currentTime duration closure).Booked := by
  have htaken := ProgressSyncer.pending_takeListened b.listen b.now
  refine ⟨h.sound.takeListened, htaken.2, ?_, ?_, ?_, ?_, ?_, ?_, ?_, ?_⟩
  · exact fun span hs => absurd hs List.not_mem_nil
  · exact fun _ span hs => absurd hs List.not_mem_nil
  · exact fun hactive => List.forall_mem_cons.mpr ⟨fun _ => h.named hactive, h.returns hactive⟩
  · refine List.forall_mem_cons.mpr ⟨⟨htaken.1.trans h.pending, fun span hs => ?_⟩, h.honest⟩
    exact ⟨h.own span hs, htarget span hs⟩
  · refine List.forall_mem_cons.mpr ⟨?_, h.fair⟩
    rcases hclosure (b.listen.takeListened b.now).2 with hc | hc
    · exact Post.fair_report hc rfl rfl
    · exact Post.fair_quit hc.1
  · exact List.forall_mem_cons.mpr ⟨Nat.le_refl _, h.older⟩
  · exact List.forall_mem_cons.mpr ⟨List.mem_cons_self .., fun p hp => List.mem_cons_of_mem _ (h.flying p hp)⟩
  · intro hactive
    refine List.forall_mem_cons.mpr ⟨fun hq => ?_, h.last hactive⟩
    rcases hclosure (b.listen.takeListened b.now).2 with hc | hc
    · cases hc.symm.trans hq
    · cases hc.2.symm.trans hactive

/-- A session that is not open owes less. -/
theorem Booked.close (h : b.Booked) : b.close.Booked :=
  {h with
    named := fun hactive => absurd hactive Bool.false_ne_true
    returns := fun hactive => absurd hactive Bool.false_ne_true
    last := fun hactive => absurd hactive Bool.false_ne_true}

theorem Booked.discard (h : b.Booked) : b.discard.Booked := by
  refine {h with sound := h.sound.takeListened, pending := ?_, own := ?_, named := ?_}
  · exact (ProgressSyncer.pending_takeListened b.listen b.now).2
  · exact fun span hs => absurd hs List.not_mem_nil
  · exact fun _ span hs => absurd hs List.not_mem_nil

theorem Booked.request (h : b.Booked) (target : Target) (body : Json) : (b.request target body).Booked := by
  refine ⟨h.sound, h.pending, h.own, h.named, fun hactive => ?_, ?_, ?_, ?_, ?_, fun hactive => ?_⟩
  · exact List.forall_mem_cons.mpr ⟨fun _ span hs => absurd hs List.not_mem_nil, h.returns hactive⟩
  · exact List.forall_mem_cons.mpr ⟨⟨rfl, fun span hs => absurd hs List.not_mem_nil⟩, h.honest⟩
  · exact List.forall_mem_cons.mpr ⟨rfl, h.fair⟩
  · exact List.forall_mem_cons.mpr ⟨Nat.le_refl _, h.older⟩
  · exact List.forall_mem_cons.mpr ⟨List.mem_cons_self .., fun p hp => List.mem_cons_of_mem _ (h.flying p hp)⟩
  · exact List.forall_mem_cons.mpr ⟨fun hq => Closure.noConfusion hq, h.last hactive⟩

/-- Whatever of the requests in flight is taken away, the books stay in order. -/
theorem Booked.settle (h : b.Booked) {rest : List Post} (hrest : ∀ p ∈ rest, p ∈ b.inFlight) :
    (b.settle rest).Booked :=
  {h with
    returns := fun hactive p hp => h.returns hactive p (hrest p hp)
    fair := fun p hp => h.fair p (hrest p hp)
    older := fun p hp => h.older p (hrest p hp)
    flying := fun p hp => h.flying p (hrest p hp)
    last := fun hactive p hp => h.last hactive p (hrest p hp)}

theorem Booked.name (h : b.Booked) (hidle : b.active = false) (sessionId : String) :
    (b.named sessionId).Booked :=
  {h with
    named := fun hactive => absurd (hidle.symm.trans hactive) Bool.false_ne_true
    returns := fun hactive => absurd (hidle.symm.trans hactive) Bool.false_ne_true}

/-- A new session has no request in flight. -/
theorem Booked.fresh (h : b.Booked) : ∀ p ∈ b.inFlight, p.session ≠ b.session + 1 := fun p hp hsession =>
  absurd (hsession ▸ h.older p hp) (Nat.not_succ_le_self _)

theorem Booked.renew (h : b.Booked) : b.renew.Booked := by
  have hnone : ∀ R : Span → Prop, ∀ span ∈ b.renew.spans, R span := fun _ _ hs => absurd hs List.not_mem_nil
  refine ⟨ProgressSyncer.reset_sound b.listen b.now, rfl, hnone _, fun _ => hnone _, ?_, h.honest, h.fair, ?_,
    h.flying, ?_⟩
  · exact fun _ p hp hsession => absurd hsession (h.fresh p hp)
  · exact fun p hp => Nat.le_succ_of_le (h.older p hp)
  · exact fun _ p hp _ => h.fresh p hp

theorem Booked.rollback (h : b.Booked) {listened : Nat} {spans : List Span}
    (hlistened : listened = total spans) (hown : ∀ span ∈ spans, span.session = b.session)
    (hnamed : b.active = true → ∀ span ∈ spans, span.sessionId = b.sessionId) :
    (b.rollback listened spans).Booked := by
  refine {h with sound := h.sound.rollback listened, pending := ?_, own := ?_, named := ?_}
  · calc (b.rollback listened spans).pending
        = b.pending + listened := ProgressSyncer.pending_rollback ..
      _ = total (b.spans ++ spans) := by rw [h.pending, hlistened, total_append]
  · exact List.forall_mem_append.mpr ⟨h.own, hown⟩
  · exact fun hactive => List.forall_mem_append.mpr ⟨h.named hactive, hnamed hactive⟩

/-- Time passes in the session that is open. -/
theorem Booked.tick (h : b.Booked) (ms : Nat) : (b.tick ms).Booked := by
  have hlater := ProgressSyncer.pending_later h.sound ms
  have hpending : b.listen.pendingListened b.now = total b.spans := h.pending
  unfold Books.tick
  cases hplaying : b.listen.playing
  · refine {h with sound := h.sound.later ms, pending := ?_}
    exact hlater.trans (by simp [hplaying, hpending])
  · refine {h with sound := h.sound.later ms, pending := ?_, own := ?_, named := ?_}
    · refine hlater.trans ?_
      simp [hplaying, hpending, total]
    · exact List.forall_mem_append.mpr ⟨h.own, List.forall_mem_singleton.mpr rfl⟩
    · exact fun hactive => List.forall_mem_append.mpr ⟨h.named hactive, List.forall_mem_singleton.mpr rfl⟩

theorem Booked.stop (h : b.Booked) : b.stop.Booked := {h with}

theorem Closes.booked (hcloses : Closes b b') (h : b.Booked) : b'.Booked := by
  cases hcloses with
  | report server _ _ _ hactive hclosure =>
    refine (h.setPlaying false).close.report (fun span hs => .inr (h.named hactive span hs ▸ rfl)) ?_
    exact fun listened => (hclosure listened).imp_right fun hq => ⟨hq, rfl⟩
  | abandon => exact (h.setPlaying false).discard.close

theorem Move.booked (hmove : Move plays b b') (h : b.Booked) : b'.Booked := by
  cases hmove with
  | setPlaying playing => exact h.setPlaying playing
  | report server _ _ hactive =>
    exact h.report (fun span hs => .inl (h.named hactive span hs ▸ rfl)) fun _ => .inl rfl
  | close hcloses => exact hcloses.booked h
  | finish hcloses => exact (hcloses.booked h).stop
  | request target body => exact h.request target body

theorem Moves.booked (hmoves : Moves plays b b') (h : b.Booked) : b'.Booked := by
  induction hmoves with
  | refl => exact h
  | tail _ hmove ih => exact hmove.booked ih

/-- A step keeps the books, where the newest play request is known to be. -/
theorem Step.booked {e : Event} (hstep : Step b e b') (hasked : b.Asked) (h : b.Booked) : b'.Booked := by
  cases hstep with
  | moves hmoves => exact hmoves.booked h
  | tick ms => exact h.tick ms
  | stop => exact h.stop
  | unknown => exact h
  | @answered _ _ _ p rest hpick hans =>
    have hsettled : (b.settle rest).Booked := h.settle fun p hp => pick_rest hpick hp
    cases hans with
    | kept => exact hsettled
    | unusable hp sessionId => exact hsettled.name (hasked.closed hpick hp) sessionId
    | opened hp sessionId => exact (hsettled.name (hasked.closed hpick hp) sessionId).renew
    | reported listened gen hc =>
      have hp := pick_mem hpick
      have hhonest := h.honest p (h.flying p hp)
      have hfair := h.fair p hp
      unfold Post.Fair at hfair
      rw [hc] at hfair
      split
      · next hreturned =>
        have hsession : p.session = b.session := hfair.2.symm.trans hreturned.2.1
        refine hsettled.rollback (hfair.1.trans hhonest.listened) ?_ ?_
        · exact fun span hs => (hhonest.own span hs).1.trans hsession
        · exact fun hactive => h.returns hactive p hp hsession
      · exact hsettled

/-! ### Nothing lost, nothing counted twice -/

/-- A move of an open session that leaves it open shifts time between what is
pending and what is claimed. -/
theorem Move.owed (hmove : Move plays b b') (hactive : b'.active = true) :
    b.active = true ∧ b'.session = b.session ∧ b'.claimed + b'.pending = b.claimed + b.pending := by
  cases hmove with
  | setPlaying playing =>
    refine ⟨hactive, rfl, ?_⟩
    have := ProgressSyncer.pending_setPlaying b.listen b.now playing
    exact congrArg (b.claimed + ·) this
  | report =>
    refine ⟨hactive, rfl, ?_⟩
    have htaken := ProgressSyncer.pending_takeListened b.listen b.now
    calc _ = claims b.session _ + 0 := congrArg (claims b.session _ + ·) htaken.2
      _ = (b.listen.takeListened b.now).2 + b.claimed := by
        rw [Nat.add_zero]
        refine (claims_cons ..).trans ?_
        exact congrArg (· + b.claimed) (if_pos rfl)
      _ = b.claimed + b.pending := by rw [htaken.1, Nat.add_comm, Books.pending]
  | close hcloses => cases hcloses.idle.symm.trans hactive
  | finish hcloses => cases hcloses.idle.symm.trans hactive
  | request _ _ _ hidle => cases hidle.symm.trans hactive

theorem Moves.owed (hmoves : Moves plays b b') (hactive : b'.active = true) :
    b.active = true ∧ b'.session = b.session ∧ b'.claimed + b'.pending = b.claimed + b.pending := by
  induction hmoves with
  | refl => exact ⟨hactive, rfl, rfl⟩
  | tail _ hmove ih =>
    obtain ⟨hopen, hsession, howed⟩ := hmove.owed hactive
    obtain ⟨hopen', hsession', howed'⟩ := ih hopen
    exact ⟨hopen', hsession.trans hsession', howed.trans howed'⟩

/-- What the reply to this request is about to acknowledge, or to fail. -/
def answering (b : Books) (id : Nat) : Nat :=
  match pick (fun p => p.id == id) b.inFlight with
  | some (p, _) => p.share b.session
  | none => 0

end Books

/-! ### The audit -/

/-- Of the newest session: how long its clock has run, and how much of that the
server has acknowledged. -/
structure Audit where
  ran : Nat := 0
  acked : Nat := 0

/-- A session that opens is audited from the start. -/
def Audit.note (a : Audit) (b : Books) (e : Event) (b' : Books) : Audit :=
  if b'.session = b.session then
    match e with
    | .tick ms => if b.listen.playing then {a with ran := a.ran + ms} else a
    | .reply id res => if res.ok then {a with acked := a.acked + b.answering id} else a
    | _ => a
  else {}

/-- A session and its audit. -/
def audited : Machine (PlaybackSession × Audit) Event :=
  ⟨fun x e => (machine.step x.1 e, x.2.note x.1.books e (machine.step x.1 e).books)⟩

namespace Books

/-- While a session is open, what its clock has run is acknowledged, claimed or
pending. -/
def Balanced (b : Books) (a : Audit) : Prop := b.active = true → a.acked + b.claimed + b.pending = a.ran

variable {b b' : Books} {a : Audit} {e : Event}

theorem note_other (hsession : b'.session = b.session) (hr : ∀ id res, e ≠ .reply id res)
    (ht : ∀ ms, e ≠ .tick ms) : a.note b e b' = a := by
  refine (if_pos hsession).trans ?_
  cases e with
  | reply id res => exact absurd rfl (hr id res)
  | tick ms => exact absurd rfl (ht ms)
  | _ => rfl

theorem note_reply (hsession : b'.session = b.session) (id : Nat) (res : ApiResponse) :
    a.note b (.reply id res) b' = if res.ok then {a with acked := a.acked + b.answering id} else a :=
  if_pos hsession

theorem note_opened (hsession : b'.session ≠ b.session) : a.note b e b' = {} := if_neg hsession

/-- The clock and its audit advance together. -/
theorem Booked.tick_balanced (h : b.Booked) (ms : Nat) (hbalanced : b.Balanced a) :
    (b.tick ms).Balanced (a.note b (.tick ms) (b.tick ms)) := by
  intro hactive
  have hb : a.acked + b.claimed + b.pending = a.ran := hbalanced hactive
  have hlater : (b.tick ms).pending = b.pending + if b.listen.playing then ms else 0 :=
    ProgressSyncer.pending_later h.sound ms
  have hnote : a.note b (.tick ms) (b.tick ms) =
      if b.listen.playing then {a with ran := a.ran + ms} else a := if_pos rfl
  rw [hlater, hnote]
  split
  · exact (Nat.add_assoc ..).symm.trans (congrArg (· + ms) hb)
  · exact hb

/-- A request that reports nothing for the session that is open. -/
theorem Booked.share_kept (h : b.Booked) {p : Post} (hp : p ∈ b.inFlight) (hactive : b.active = true)
    (hkept : ∀ listened gen, p.closure ≠ .report listened gen) : p.share b.session = 0 := by
  have hfair := h.fair p hp
  unfold Post.share Post.Fair at *
  cases hc : p.closure with
  | play gen =>
    rw [hc] at hfair
    simp [hfair]
  | report listened gen => exact absurd hc (hkept listened gen)
  | quit => exact if_neg (h.last hactive p hp hc)

/-- A reply moves what its request claimed to where it belongs. -/
theorem Booked.answered_balanced (h : b.Booked) (hasked : b.Asked) {id : Nat} {res : ApiResponse}
    {p : Post} {rest : List Post} (hpick : pick (fun p => p.id == id) b.inFlight = some (p, rest))
    (hans : Answered p res (b.settle rest) b') (hstale : res.stale = false) (hbalanced : b.Balanced a) :
    b'.Balanced (a.note b (.reply id res) b') := by
  intro hactive
  have hp := pick_mem hpick
  have hclaimed : b.claimed = p.share b.session + (b.settle rest).claimed :=
    (claims_perm (pick_perm hpick)).trans (claims_cons ..)
  have hnote : ∀ b' : Books, b'.session = b.session → a.note b (.reply id res) b' =
      if res.ok then {a with acked := a.acked + p.share b.session} else a := by
    have hanswering : b.answering id = p.share b.session := by simp [answering, hpick]
    exact fun b' hsession => hanswering ▸ note_reply hsession id res
  cases hans with
  | kept hkept =>
    have hshare := h.share_kept hp hactive hkept
    have hb : a.acked + b.claimed + b.pending = a.ran := hbalanced hactive
    rw [hclaimed, hshare, Nat.zero_add] at hb
    rw [hnote (b.settle rest) rfl, hshare]
    split <;> exact hb
  | unusable hc _ => cases (hasked.closed hpick hc).symm.trans hactive
  | opened hc sessionId =>
    have hnone : claims (b.session + 1) rest = 0 :=
      claims_eq_zero fun q hq => h.fresh q (pick_rest hpick hq)
    have hopened : a.note b (.reply id res) ((b.settle rest).named sessionId).renew = {} :=
      note_opened (Nat.succ_ne_self _)
    rw [hopened]
    exact (Nat.add_zero _).trans ((Nat.zero_add _).trans hnone)
  | reported listened gen hc =>
    obtain ⟨hlistened, hgen⟩ : listened = p.listened ∧ gen = p.session := by
      have hfair := h.fair p hp
      unfold Post.Fair at hfair
      rwa [hc] at hfair
    have hb : a.acked + b.claimed + b.pending = a.ran := by
      refine hbalanced ?_
      split at hactive <;> exact hactive
    rw [hclaimed] at hb
    split
    · next hreturned =>
      -- What the failed report had taken is pending again.
      have hpending : ((b.settle rest).rollback listened p.spans).pending = b.pending + listened :=
        ProgressSyncer.pending_rollback ..
      have hshare : p.share b.session = listened :=
        (if_pos (hgen.symm.trans hreturned.2.1)).trans hlistened.symm
      have hsum : a.acked + (b.settle rest).claimed + (b.pending + listened) = a.ran := by
        rw [hshare] at hb
        omega
      rw [hnote ((b.settle rest).rollback listened p.spans) rfl, hpending, if_neg (by simp [hreturned.2.2])]
      exact hsum
    · next hkept =>
      rw [hnote (b.settle rest) rfl]
      cases hok : res.ok
      · have hshare : p.share b.session = 0 := if_neg fun hp => hkept ⟨hstale, hgen.trans hp, hok⟩
        rw [hshare, Nat.zero_add] at hb
        exact hb
      · exact (congrArg (· + b.pending) (Nat.add_assoc ..)).trans hb

/-- A step keeps the balance. -/
theorem Step.balanced (hstep : Step b e b') (hasked : b.Asked) (h : b.Booked)
    (hstale : ∀ id res, e = .reply id res → res.stale = false) (hbalanced : b.Balanced a) :
    b'.Balanced (a.note b e b') := by
  cases hstep with
  | moves hmoves hr ht =>
    intro hactive
    obtain ⟨hopen, hsession, howed⟩ := hmoves.owed hactive
    rw [note_other hsession hr ht, Nat.add_assoc, howed, ← Nat.add_assoc]
    exact hbalanced hopen
  | tick ms => exact h.tick_balanced ms hbalanced
  | stop hidle => exact fun hactive => absurd (hidle.symm.trans hactive) Bool.false_ne_true
  | @unknown id res hpick =>
    intro hactive
    have hanswering : b.answering id = 0 := by simp [answering, hpick]
    have hnote : a.note b (.reply id res) b = _ := note_reply rfl id res
    rw [hnote, hanswering]
    split <;> exact hbalanced hactive
  | answered hpick hans => exact h.answered_balanced hasked hpick hans (hstale _ _ rfl) hbalanced

end Books

/-! ### Every run -/

/-- Listening time is accounted for, and none is put on a request of another session. -/
structure Accounted (s : PlaybackSession) (a : Audit) : Prop where
  balance : s.active = true →
    a.acked + claims s.listenGeneration s.inFlight + s.listen.pendingListened s.now = a.ran
  own : ∀ p ∈ s.wire, p.Honest

/-- A reply that is stale: the client was pointed at another server meanwhile. -/
def stale : Event → Bool
  | .reply _ res => res.stale
  | _ => false

/-- What is kept along a run. -/
structure Kept (x : PlaybackSession × Audit) : Prop where
  asked : x.1.books.Asked
  booked : x.1.books.Booked
  balanced : x.1.books.Balanced x.2

theorem keeps : Machine.Keeps audited (fun _ e => stale e = false) Kept where
  step x e hx he := by
    have hstep : Books.Step x.1.books e (machine.step x.1 e).books := handle_step x.1.fresh e
    refine ⟨hstep.asked hx.asked, hstep.booked hx.asked hx.booked, ?_⟩
    refine hstep.balanced hx.asked hx.booked (fun id res h => ?_) hx.balanced
    subst h
    exact he

theorem booked_start (env : Env) (server : Endpoints) : (PlaybackSession.books {env, server}).Booked :=
  ⟨ProgressSyncer.reset_sound {} 0, rfl, (fun _ h => nomatch h), (fun h => nomatch h), (fun h => nomatch h),
    (fun _ h => nomatch h), (fun _ h => nomatch h), (fun _ h => nomatch h), (fun _ h => nomatch h),
    (fun h => nomatch h)⟩

/-- **Listening time is reported once.** In every run in which no reply is stale,
while a session is open the time its clock has run is what was acknowledged, what is
in flight and what is pending; and all time on a request accrued in the session the
request is posted to. -/
theorem listening_conserved (env : Env) (server : Endpoints) (es : List Event)
    (hes : ∀ e ∈ es, stale e = false) :
    Accounted (audited.run ({env, server}, {}) es).1 (audited.run ({env, server}, {}) es).2 := by
  have hstart : Kept ({env, server}, {}) :=
    ⟨Books.asked_start env server, booked_start env server, fun hactive => nomatch hactive⟩
  have hkept := keeps.run hstart (Machine.along_of_mem hes _)
  exact ⟨hkept.balanced, hkept.booked.honest⟩

/-- Two syncs of one session, of which the first fails after the second went out;
a close that fails once the next session is open. -/
def overlapping : List Event :=
  let ok : ApiResponse := ⟨200, true, false, sampleBook, "", none⟩
  let failed : ApiResponse := ⟨500, false, false, .null, "", none⟩
  [.playItem "book", .reply 0 ok, .mpv (.coreIdle false), .tick 5000, .syncTimeout, .tick 3000,
    .syncTimeout, .reply 1 failed, .tick 1000, .stopAndClose, .playItem "book", .reply 4 ok,
    .reply 3 failed, .mpv (.coreIdle true), .mpv (.coreIdle false), .tick 2000, .syncTimeout, .reply 6 ok,
    .tick 4000]

/-- Of the six seconds of the second session, two are acknowledged. -/
theorem listening_conserved_overlapping :
    Accounted (audited.run (samplePlayer, {}) overlapping).1 (audited.run (samplePlayer, {}) overlapping).2 ∧
      (audited.run (samplePlayer, {}) overlapping).1.active = true ∧
      (audited.run (samplePlayer, {}) overlapping).2.ran = 6000 ∧
      (audited.run (samplePlayer, {}) overlapping).2.acked = 2000 :=
  ⟨listening_conserved _ sampleServer overlapping (by decide +kernel), by decide +kernel, by decide +kernel,
    by decide +kernel⟩

end ShelfRemote.Player
