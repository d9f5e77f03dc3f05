import Mathlib.Data.List.Pairwise
import ShelfRemote.Lib.Ledger
import ShelfRemote.Model.BookmarkStore

/-! The bookmarks on the screen and those on the server.

The server handles the requests in the order they were sent and accepts or refuses
each; its answers reach the store in any order. A refused change is taken back when
its answer comes, and that is right only if the change is still the last word on its
second: `bookmarks_converge`.

The history is a ledger of the changes that stand, on both sides of the line the
server has got to (`queue`, `done`). What is shown follows the whole ledger, and what
the server has follows the accepted changes in it. -/
namespace ShelfRemote.Model.Bookmarks
open Qt Net Runs Ledger

/-- A change: whether the item is to have a bookmark at the second. -/
abbrev Change := Entry (String × Int) Bool

structure Sync where
  store : BookmarkStore
  /-- The seconds at which the server has bookmarks. -/
  server : String × Int → Bool
  /-- The changes the server has yet to handle, oldest first. -/
  queue : List Change := []
  /-- Its answers, by number of the request. -/
  answers : Nat → Option Bool := fun _ => none
  /-- History: the handled changes that have not been taken back, newest first. -/
  done : List Change := []
  /-- History: the seconds the store was loaded with. -/
  loaded : String × Int → Bool

/-- The change a request asks for. -/
def change (p : Sent BookmarkPost) : Change :=
  ⟨p.id, (p.closure.closure.itemId, p.closure.closure.second), p.closure.closure.adds⟩

/-- What the store has sent in a call. -/
def sent (s s' : BookmarkStore) : List Change :=
  (s'.outbox.inFlight.filter fun p => s.outbox.created ≤ p.id).map change

def shows (s : BookmarkStore) (k : String × Int) : Bool := s.has k.1 k.2

namespace Sync

def call (x : Sync) (store : BookmarkStore) : Sync :=
  {x with store, queue := x.queue ++ sent x.store store}

/-- The server handles the oldest request. -/
def serve (x : Sync) (accept : Bool) : Sync :=
  match x.queue with
  | [] => x
  | c :: queue =>
    { x with
      queue
      done := c :: x.done
      answers := fun id => if id = c.id then some accept else x.answers id
      server := fun k => if accept && k == c.key then c.value else x.server k }

/-- An answer of the server arrives. -/
def reply (x : Sync) (id : Nat) (res : ApiResponse) : Sync :=
  match x.answers id with
  | none => x
  | some ok =>
    { x with
      store := x.store.finished id {res with ok, stale := false}
      done := if ok then x.done else x.done.filter fun c => c.id ≠ id }

end Sync

inductive Event where
  | add (itemId : String) (time : Rat) (title : String)
  | remove (itemId : String) (time : Rat)
  | serve (accept : Bool)
  | reply (id : Nat) (res : ApiResponse)

def step (x : Sync) : Event → Sync
  | .add itemId time title => x.call (x.store.add itemId time title)
  | .remove itemId time => x.call (x.store.remove itemId time)
  | .serve accept => x.serve accept
  | .reply id res => x.reply id res

def machine : Machine Sync Event := ⟨step⟩

/-- The store has been loaded from a user, and the server has what it has loaded. -/
def start (server : Endpoints) (user : Json) : Sync :=
  let store := BookmarkStore.loadFromUser {server} user
  {store, server := shows store, loaded := shows store}

/-- With no answer to come, an item has at most one bookmark a second, and the seconds
of the server. -/
def Converged (x : Sync) : Prop :=
  x.store.outbox.inFlight = [] →
    ∀ item, (x.store.seconds item).Nodup ∧ ∀ t, t ∈ x.store.seconds item ↔ x.server (item, t) = true

/-- The changes that stand, newest first. -/
def Sync.standing (x : Sync) : List Change := x.queue.reverse ++ x.done

def Sync.accepted (x : Sync) (c : Change) : Bool := x.answers c.id == some true

/-- Taking a change back is right: it is the newest that stands for its second, which
was the other way before it; or it is an addition, and nothing is there to take back. -/
def Rightful (x : Sync) (c : Change) : Prop :=
  ((newest x.standing c.key).map (·.id) = some c.id ∧
      value x.loaded (x.standing.filter fun d => d.id ≠ c.id) c.key = !c.value) ∨
    (c.value = true ∧ shows x.store c.key = false)

instance (x : Sync) (c : Change) : Decidable (Rightful x c) := inferInstanceAs (Decidable (_ ∨ _))

/-- A refusal arrives only where taking the change back is right. -/
def Rule (x : Sync) : Event → Prop
  | .reply id _ =>
    x.answers id = some false → ∀ p ∈ x.store.outbox.inFlight, p.id = id → Rightful x (change p)
  | _ => True

instance (x : Sync) : DecidablePred (Rule x)
  | .reply id _ =>
    inferInstanceAs (Decidable (x.answers id = some false →
      ∀ p ∈ x.store.outbox.inFlight, p.id = id → Rightful x (change p)))
  | .add .. | .remove .. | .serve _ => .isTrue trivial

/-! ### What the store does to a second -/

section Store
variable {s : BookmarkStore} {k j : String × Int}
open BookmarkStore (keyOf)

theorem shows_iff : shows s k = true ↔ k.2 ∈ s.seconds k.1 := BookmarkStore.has_iff

theorem put_seconds (s : BookmarkStore) (itemId : String) (marks : List Bookmark) (item : String) :
    (s.put itemId marks).seconds item =
      if item = itemId then marks.map (fun b => keyOf b.time) else s.seconds item := by
  unfold BookmarkStore.seconds
  split
  · next h => rw [h, BookmarkStore.put_same]
  · next h => rw [BookmarkStore.put_other s marks h]

theorem insert_seconds (s : BookmarkStore) {b : Bookmark} (hb : keyOf b.time = k.2) (item : String) :
    (s.put k.1 (s.byItem k.1 ++ [b])).seconds item =
      if item = k.1 then s.seconds k.1 ++ [k.2] else s.seconds item := by
  rw [put_seconds, List.map_append, List.map_singleton, hb]
  rfl

theorem drop_seconds (s : BookmarkStore) (k : String × Int) (item : String) :
    (s.put k.1 (s.without k.1 k.2)).seconds item =
      if item = k.1 then (s.seconds k.1).filter (· ≠ k.2) else s.seconds item := by
  rw [put_seconds]
  have hmap : (s.without k.1 k.2).map (fun b => keyOf b.time) = (s.seconds k.1).filter (· ≠ k.2) := by
    simp [BookmarkStore.without, BookmarkStore.seconds, List.filter_map, Function.comp_def]
  rw [hmap]

theorem shows_insert (s : BookmarkStore) {b : Bookmark} (hb : keyOf b.time = k.2) (j : String × Int) :
    shows (s.put k.1 (s.byItem k.1 ++ [b])) j = if j = k then true else shows s j := by
  rw [Bool.eq_iff_iff, shows_iff, insert_seconds s hb]
  obtain ⟨i, t⟩ := j
  obtain ⟨i', t'⟩ := k
  by_cases hi : i = i' <;> by_cases ht : t = t' <;> simp [hi, ht, shows_iff]

theorem shows_drop (s : BookmarkStore) (k j : String × Int) :
    shows (s.put k.1 (s.without k.1 k.2)) j = if j = k then false else shows s j := by
  rw [Bool.eq_iff_iff, shows_iff, drop_seconds]
  obtain ⟨i, t⟩ := j
  obtain ⟨i', t'⟩ := k
  by_cases hi : i = i' <;> by_cases ht : t = t' <;> simp [hi, ht, shows_iff]

theorem nodup_insert (h : ∀ item, (s.seconds item).Nodup) {b : Bookmark} (hb : keyOf b.time = k.2)
    (habsent : shows s k = false) (item : String) :
    ((s.put k.1 (s.byItem k.1 ++ [b])).seconds item).Nodup := by
  rw [insert_seconds s hb]
  split
  · have hnot : k.2 ∉ s.seconds k.1 := fun hmem =>
      Bool.false_ne_true (habsent.symm.trans (shows_iff.mpr hmem))
    exact List.nodup_append.mpr ⟨h _, List.nodup_singleton _, fun t ht t' ht' he =>
      hnot (List.mem_singleton.mp ht' ▸ he ▸ ht)⟩
  · exact h item

theorem nodup_drop (h : ∀ item, (s.seconds item).Nodup) (k : String × Int) (item : String) :
    ((s.put k.1 (s.without k.1 k.2)).seconds item).Nodup := by
  rw [drop_seconds]
  split
  · exact (h _).filter _
  · exact h item

/-- What a call of the user comes to: nothing, or a second goes the other way and the
server is asked for it. -/
inductive Asks (s : BookmarkStore) : BookmarkStore → Prop where
  | nothing : Asks s s
  | change (k : String × Int) (marks : List Bookmark) (verb : Verb) (target : Target) (body : Json)
      (closure : BookmarkStore.Closure) (hkey : (closure.itemId, closure.second) = k)
      (hother : shows s k = !closure.adds)
      (hshows : ∀ j, shows (s.put k.1 marks) j = if j = k then closure.adds else shows s j)
      (hnodup : (∀ item, (s.seconds item).Nodup) → ∀ item, ((s.put k.1 marks).seconds item).Nodup) :
      Asks s ((s.put k.1 marks).send verb target body closure)

theorem add_asks (s : BookmarkStore) (itemId : String) (time : Rat) (title : String) :
    Asks s (s.add itemId time title) := by
  unfold BookmarkStore.add
  split
  · exact .nothing
  · dsimp only
    split
    · exact .nothing
    · next habsent =>
      have habsent : shows s (itemId, keyOf time) = false := by simpa [shows] using habsent
      have hb : keyOf (⟨keyOf time, title⟩ : Bookmark).time = (itemId, keyOf time).2 :=
        BookmarkStore.keyOf_int _
      exact .change (itemId, keyOf time) _ _ _ _ _ rfl habsent (shows_insert s hb)
        fun h => nodup_insert h hb habsent

theorem remove_asks (s : BookmarkStore) (itemId : String) (time : Rat) : Asks s (s.remove itemId time) := by
  unfold BookmarkStore.remove
  split
  · exact .nothing
  · dsimp only
    split
    · exact .nothing
    · next removed hfind =>
      have hkey : keyOf removed.time = keyOf time := by simpa using List.find?_some hfind
      have hpresent : shows s (itemId, keyOf time) = true :=
        shows_iff.mpr (List.mem_map.mpr ⟨removed, List.mem_of_find?_eq_some hfind, hkey⟩)
      exact .change (itemId, keyOf time) _ _ _ _ _ (by rw [BookmarkStore.Closure.second, hkey]; rfl) hpresent
        (shows_drop s (itemId, keyOf time)) fun h => nodup_drop h (itemId, keyOf time)

/-- What a refusal comes to. -/
theorem refused_shows (s : BookmarkStore) (closure : BookmarkStore.Closure) {res : ApiResponse}
    (hstale : res.stale = false) (hok : res.ok = false) (j : String × Int) :
    shows (s.onReply closure res) j =
      if j = (closure.itemId, closure.second) then !closure.adds else shows s j := by
  unfold BookmarkStore.onReply
  rw [if_neg (by simp [hstale, hok])]
  cases closure with
  | add itemId t => exact shows_drop s (itemId, t) j
  | remove itemId removed => exact shows_insert (k := (itemId, keyOf removed.time)) s rfl j

theorem refused_nodup {closure : BookmarkStore.Closure} (h : ∀ item, (s.seconds item).Nodup)
    (hshows : closure.adds = false → shows s (closure.itemId, closure.second) = false) (res : ApiResponse)
    (item : String) : ((s.onReply closure res).seconds item).Nodup := by
  unfold BookmarkStore.onReply
  split
  · exact h item
  · cases closure with
    | add itemId t => exact nodup_drop h (itemId, t) item
    | remove itemId removed => exact nodup_insert (k := (itemId, keyOf removed.time)) h rfl (hshows rfl) item

/-- A removal taken back where the second is there already would show it twice. -/
theorem refused_absent {closure : BookmarkStore.Closure} {res : ApiResponse} (hremoves : closure.adds = false)
    (hstale : res.stale = false) (hok : res.ok = false)
    (h : ((s.onReply closure res).seconds closure.itemId).Nodup) :
    shows s (closure.itemId, closure.second) = false := by
  unfold BookmarkStore.onReply at h
  rw [if_neg (by simp [hstale, hok])] at h
  cases closure with
  | add itemId t => cases hremoves
  | remove itemId removed =>
    have hadded : (s.seconds itemId ++ [keyOf removed.time]).Nodup := by
      have hseconds := insert_seconds (k := (itemId, keyOf removed.time)) s (b := removed) rfl itemId
      rw [if_pos rfl] at hseconds
      exact hseconds ▸ h
    by_contra hshown
    have hmem : keyOf removed.time ∈ s.seconds itemId := shows_iff.mp (by simpa using hshown)
    exact (List.nodup_append.mp hadded).2.2 _ hmem _ (List.mem_singleton_self _) rfl

end Store

/-! ### What holds along a run -/

structure Kept (x : Sync) : Prop where
  outbox : x.store.outbox.Sound
  nodup : ∀ item, (x.store.seconds item).Nodup
  shown : ∀ k, shows x.store k = value x.loaded x.standing k
  server : ∀ k, x.server k = value x.loaded (x.done.filter x.accepted) k
  handled : ∀ c ∈ x.done, x.answers c.id ≠ none
  pending : ∀ c ∈ x.queue, x.answers c.id = none
  future : ∀ id, x.store.outbox.created ≤ id → x.answers id = none
  /-- What is in flight stands. -/
  flight : ∀ p ∈ x.store.outbox.inFlight, change p ∈ x.standing
  /-- What stands is in flight or accepted. -/
  due : ∀ c ∈ x.standing, x.accepted c = false → ∃ p ∈ x.store.outbox.inFlight, p.id = c.id
  ids : ∀ c ∈ x.standing, c.id < x.store.outbox.created
  once : x.standing.Pairwise fun c d => c.id ≠ d.id

variable {x : Sync} {c d : Change}

theorem mem_standing : c ∈ x.standing ↔ c ∈ x.queue ∨ c ∈ x.done := by
  simp [Sync.standing]

theorem Kept.same (h : Kept x) (hc : c ∈ x.standing) (hd : d ∈ x.standing) (hid : c.id = d.id) : c = d := by
  have : Std.Symm fun c d : Change => c.id ≠ d.id := ⟨fun _ _ hcd => hcd.symm⟩
  by_contra hne
  exact h.once.forall hc hd hne hid

theorem pending_accepted (h : x.answers c.id = none) : x.accepted c = false := by
  simp [Sync.accepted, h]

/-- A request that is in flight and answered has been handled. -/
theorem Kept.answered (h : Kept x) {p : Sent BookmarkPost} (hp : p ∈ x.store.outbox.inFlight)
    (hans : x.answers p.id ≠ none) : change p ∈ x.done :=
  (mem_standing.mp (h.flight p hp)).resolve_left fun hq => hans (h.pending _ hq)

/-! ### The user calls -/

theorem sent_nothing (h : x.store.outbox.Sound) : sent x.store x.store = [] := by
  unfold sent
  rw [List.filter_eq_nil_iff.mpr fun p hp => by simpa using h.past p hp, List.map_nil]

theorem sent_one {s : BookmarkStore} (h : s.outbox.Sound) (itemId : String) (marks : List Bookmark)
    (verb : Verb) (target : Target) (body : Json) (closure : BookmarkStore.Closure) :
    sent s ((s.put itemId marks).send verb target body closure) =
      [⟨s.outbox.created, (closure.itemId, closure.second), closure.adds⟩] := by
  have hold : (s.outbox.inFlight.filter fun p => s.outbox.created ≤ p.id) = [] :=
    List.filter_eq_nil_iff.mpr fun p hp => by simpa using h.past p hp
  show ((_ :: s.outbox.inFlight).filter fun p => decide (s.outbox.created ≤ p.id)).map change = _
  rw [List.filter_cons_of_pos (by simp [BookmarkStore.put]), hold]
  rfl

theorem Kept.call (h : Kept x) {s : BookmarkStore} (hasks : Asks x.store s) : Kept (x.call s) := by
  cases hasks with
  | nothing =>
    unfold Sync.call
    rw [sent_nothing h.outbox, List.append_nil]
    exact h
  | change k marks verb target body closure hkey hother hshows hnodup =>
    have hsent := sent_one h.outbox k.1 marks verb target body closure
    rw [hkey] at hsent
    let c : Change := ⟨x.store.outbox.created, k, closure.adds⟩
    have hstanding : (x.call ((x.store.put k.1 marks).send verb target body closure)).standing =
        c :: x.standing := by simp [Sync.call, hsent, Sync.standing, c]
    have hnew : x.answers c.id = none := h.future _ (Nat.le_refl _)
    refine ⟨h.outbox.send .., hnodup h.nodup, fun j => ?_, h.server, h.handled, ?_, ?_, ?_, ?_, ?_, ?_⟩
    · rw [hstanding, value_cons]
      refine (hshows j).trans ?_
      rw [h.shown j]
      simp only [eq_comm, c]
      rfl
    · show ∀ d ∈ x.queue ++ _, _
      rw [hsent]
      exact List.forall_mem_append.mpr ⟨h.pending, List.forall_mem_singleton.mpr hnew⟩
    · exact fun id hid => h.future id (Nat.le_of_succ_le hid)
    · rw [hstanding]
      refine List.forall_mem_cons.mpr ⟨?_, fun p hp => List.mem_cons_of_mem _ (h.flight p hp)⟩
      have hchange : change ⟨x.store.outbox.created, verb, target, body, ⟨closure, x.store.signIns⟩⟩ = c := by
        simp only [change, hkey, c]
      rw [← hchange]
      exact List.mem_cons_self ..
    · rw [hstanding]
      refine List.forall_mem_cons.mpr ⟨fun _ => ⟨_, List.mem_cons_self .., rfl⟩, fun d hd hacc => ?_⟩
      obtain ⟨p, hp, hid⟩ := h.due d hd hacc
      exact ⟨p, List.mem_cons_of_mem _ hp, hid⟩
    · rw [hstanding]
      exact List.forall_mem_cons.mpr ⟨Nat.lt_succ_self _, fun d hd => Nat.lt_succ_of_lt (h.ids d hd)⟩
    · rw [hstanding]
      exact List.pairwise_cons.mpr ⟨fun d hd => Nat.ne_of_gt (h.ids d hd), h.once⟩

/-! ### The server handles a request -/

theorem Kept.serve (h : Kept x) (accept : Bool) : Kept (x.serve accept) := by
  unfold Sync.serve
  split
  · exact h
  · next c queue hqueue =>
    have hstanding : queue.reverse ++ c :: x.done = x.standing := by simp [Sync.standing, hqueue]
    have hc : c ∈ x.standing := mem_standing.mpr (.inl (hqueue ▸ List.mem_cons_self ..))
    have hnone : x.answers c.id = none := h.pending c (hqueue ▸ List.mem_cons_self ..)
    have hrest : ∀ d ∈ queue, d.id ≠ c.id := by
      have honce := h.once
      rw [← hstanding] at honce
      exact fun d hd => (List.pairwise_append.mp honce).2.2 d (List.mem_reverse.mpr hd) c (List.mem_cons_self ..)
    have hdone : ∀ d ∈ x.done, d.id ≠ c.id := fun d hd he => h.handled d hd (he ▸ hnone)
    have hsame : ∀ d : Change, d.id ≠ c.id →
        (if d.id = c.id then some accept else x.answers d.id) = x.answers d.id := fun d hd => if_neg hd
    refine ⟨h.outbox, h.nodup, fun k => ?_, fun k => ?_, ?_, ?_, ?_, ?_, ?_, ?_, ?_⟩
    · exact (h.shown k).trans (by rw [← hstanding]; rfl)
    · show (if accept && k == c.key then c.value else x.server k) = _
      have hfilter : (x.done.filter fun d => (if d.id = c.id then some accept else x.answers d.id) == some true) =
          x.done.filter x.accepted :=
        List.filter_congr fun d hd => by rw [hsame d (hdone d hd)]; rfl
      show _ = value x.loaded ((c :: x.done).filter fun d =>
        (if d.id = c.id then some accept else x.answers d.id) == some true) k
      cases accept
      · rw [List.filter_cons_of_neg (by simp), hfilter]
        exact h.server k
      · rw [List.filter_cons_of_pos (by simp), hfilter, value_cons, ← h.server k]
        by_cases hk : k = c.key
        · simp [hk]
        · simp [hk, Ne.symm hk]
    · refine List.forall_mem_cons.mpr ⟨?_, fun d hd => ?_⟩
      · exact fun hnone => Option.some_ne_none accept ((if_pos rfl).symm.trans hnone)
      · exact fun hnone => h.handled d hd ((hsame d (hdone d hd)).symm.trans hnone)
    · intro d hd
      exact (hsame d (hrest d hd)).trans (h.pending d (hqueue ▸ List.mem_cons_of_mem _ hd))
    · intro id hid
      have hne : id ≠ c.id := fun he => absurd (h.ids c hc) (Nat.not_lt.mpr (he ▸ hid))
      exact (if_neg hne).trans (h.future id hid)
    · intro p hp
      show change p ∈ queue.reverse ++ c :: x.done
      exact hstanding.symm ▸ h.flight p hp
    · intro d hd hacc
      refine h.due d (hstanding ▸ hd) ?_
      by_cases hid : d.id = c.id
      · exact pending_accepted (hid ▸ hnone)
      · have hacc : ((if d.id = c.id then some accept else x.answers d.id) == some true) = false := hacc
        rwa [hsame d hid] at hacc
    · exact fun d hd => h.ids d (hstanding ▸ hd)
    · show (queue.reverse ++ c :: x.done).Pairwise _
      exact hstanding.symm ▸ h.once

/-! ### An answer arrives -/

/-- What is taken back leaves the ledger. -/
theorem standing_without (h : Kept x) {id : Nat} (hans : x.answers id ≠ none) :
    x.queue.reverse ++ (x.done.filter fun c => c.id ≠ id) = x.standing.filter fun c => c.id ≠ id := by
  have hqueue : (x.queue.reverse.filter fun c => c.id ≠ id) = x.queue.reverse :=
    List.filter_eq_self.mpr fun c hc =>
      decide_eq_true fun he : c.id = id => hans (he ▸ h.pending c (List.mem_reverse.mp hc))
  rw [Sync.standing, List.filter_append, hqueue]

/-- Taking back a change that was rightful to take back shows what stands without it. -/
theorem Kept.undone (h : Kept x) {p : Sent BookmarkPost} (hp : p ∈ x.store.outbox.inFlight)
    (hright : Rightful x (change p)) (k : String × Int) :
    (if k = (change p).key then !(change p).value else shows x.store k) =
      value x.loaded (x.standing.filter fun c => c.id ≠ p.id) k := by
  have hmem := h.flight p hp
  split
  · next hk =>
    rw [hk]
    rcases hright with ⟨_, hbefore⟩ | ⟨hadds, habsent⟩
    · exact hbefore.symm
    · -- The addition is not the newest change of its second.
      cases hnew : newest x.standing (change p).key with
      | none => exact absurd rfl (newest_none hnew _ hmem)
      | some e =>
        have hshown := (h.shown (change p).key).symm.trans habsent
        rw [value_of_newest hnew] at hshown
        have hid : e.id ≠ p.id := fun he => by
          have hsame := h.same (newest_mem hnew) hmem he
          rw [hsame, hadds] at hshown
          exact Bool.false_ne_true hshown.symm
        rw [value_filter_newest hnew (decide_eq_true hid), hshown, hadds]
        rfl
  · next hk =>
    rw [h.shown k, value_filter]
    intro e he hkey
    exact decide_eq_true fun hid => hk (hkey ▸ congrArg Entry.key (h.same he hmem hid))

/-- A removal that is rightful to take back has left nothing at its second. -/
theorem Kept.absent (h : Kept x) {p : Sent BookmarkPost} (hp : p ∈ x.store.outbox.inFlight)
    (hright : Rightful x (change p)) (hremoves : (change p).value = false) :
    shows x.store (change p).key = false := by
  rcases hright with ⟨hnewest, _⟩ | ⟨hadds, _⟩
  · obtain ⟨e, hnew, hid⟩ := Option.map_eq_some_iff.mp hnewest
    have hshown := (h.shown (change p).key).trans (value_of_newest hnew)
    rw [h.same (newest_mem hnew) (h.flight p hp) hid] at hshown
    exact hshown.trans hremoves
  · exact absurd (hremoves.symm.trans hadds) Bool.false_ne_true

section Taken
variable {p : Sent BookmarkPost} {outbox : Outbox BookmarkPost} {id : Nat} {res : ApiResponse}

theorem Kept.accepts (h : Kept x) (htake : x.store.outbox.take id = some (p, outbox))
    (hans : x.answers id = some true) :
    Kept {x with store := {x.store with outbox}} := by
  obtain ⟨hid, -, hcreated⟩ := Outbox.take_some htake
  refine ⟨(h.outbox.take htake).1, h.nodup, h.shown, h.server, h.handled, h.pending, ?_, ?_, ?_, ?_, h.once⟩
  · exact fun n hn => h.future n (hcreated ▸ hn)
  · exact fun q hq => h.flight q (Outbox.take_rest htake hq)
  · intro c hc hacc
    obtain ⟨q, hq, hqid⟩ := h.due c hc hacc
    refine ⟨q, Outbox.take_left htake hq fun hq' => ?_, hqid⟩
    have hacc' : x.accepted c = false := hacc
    simp [Sync.accepted, ← hqid, hq', hans] at hacc'
  · exact fun c hc => hcreated.symm ▸ h.ids c hc

theorem Kept.refuses (h : Kept x) (htake : x.store.outbox.take id = some (p, outbox))
    (hans : x.answers id = some false) (hright : Rightful x (change p)) (hstale : res.stale = false)
    (hok : res.ok = false) :
    Kept {x with
      store := {x.store with outbox}.onReply p.closure.closure res
      done := x.done.filter fun c => c.id ≠ id} := by
  obtain ⟨hid, -, hcreated⟩ := Outbox.take_some htake
  obtain ⟨hsound, hothers⟩ := h.outbox.take htake
  have hp := Outbox.take_mem htake
  have hwithout := standing_without h (hans ▸ Option.some_ne_none _)
  have hshows := refused_shows {x.store with outbox} p.closure.closure hstale hok
  have hbox := BookmarkStore.onReply_outbox {x.store with outbox} p.closure.closure res
  have hnodup := refused_nodup (s := {x.store with outbox}) h.nodup (h.absent hp hright) res
  generalize {x.store with outbox}.onReply p.closure.closure res = store at hshows hbox hnodup ⊢
  refine ⟨hbox ▸ hsound, hnodup, fun k => ?_, fun k => ?_, ?_, h.pending, ?_, ?_, ?_, ?_, ?_⟩
  · refine (hshows k).trans ((h.undone hp hright k).trans ?_)
    rw [hid, ← hwithout]
    rfl
  · refine (h.server k).trans ?_
    show _ = value x.loaded ((x.done.filter fun c => c.id ≠ id).filter x.accepted) k
    rw [List.filter_filter]
    refine congrArg (value x.loaded · k) (List.filter_congr fun c hc => ?_)
    by_cases hc : c.id = id
    · simp [Sync.accepted, hc, hans]
    · simp [hc]
  · exact fun c hc => h.handled c (List.mem_filter.mp hc).1
  · exact fun n hn => h.future n (by rw [hbox, hcreated] at hn; exact hn)
  · intro q hq
    rw [hbox] at hq
    have hne : q.id ≠ id := fun hqid => hothers q hq (hqid.trans hid.symm)
    have hmem : change q ∈ x.standing.filter fun c => c.id ≠ id :=
      List.mem_filter.mpr ⟨h.flight q (Outbox.take_rest htake hq), decide_eq_true hne⟩
    rw [← hwithout] at hmem
    exact hmem
  · intro c hc hacc
    have hmem : c ∈ x.standing.filter fun c => c.id ≠ id := hwithout ▸ hc
    obtain ⟨hstands, hne⟩ := List.mem_filter.mp hmem
    obtain ⟨q, hq, hqid⟩ := h.due c hstands hacc
    rw [hbox]
    exact ⟨q, Outbox.take_left htake hq (hqid ▸ of_decide_eq_true hne), hqid⟩
  · intro c hc
    have hmem : c ∈ x.standing.filter fun c => c.id ≠ id := hwithout ▸ hc
    rw [hbox, hcreated]
    exact h.ids c (List.mem_filter.mp hmem).1
  · have hone : (x.standing.filter fun c => c.id ≠ id).Pairwise fun c d => c.id ≠ d.id := h.once.filter _
    rw [← hwithout] at hone
    exact hone

/-- Nothing refused stands that is not in flight. -/
theorem Kept.unsent (h : Kept x) (htake : x.store.outbox.take id = none) (hans : x.answers id = some false) :
    (x.done.filter fun c => c.id ≠ id) = x.done := by
  refine List.filter_eq_self.mpr fun c hc => decide_eq_true fun hid => ?_
  obtain ⟨p, hp, hpid⟩ := h.due c (mem_standing.mpr (.inr hc)) (by simp [Sync.accepted, hid, hans])
  exact Outbox.take_none htake p hp (hpid.trans hid)

end Taken

theorem Kept.reply (h : Kept x) (id : Nat) (res : ApiResponse) (he : Rule x (.reply id res)) :
    Kept (x.reply id res) := by
  unfold Sync.reply BookmarkStore.finished
  split
  · exact h
  · next ok hans =>
    cases htake : x.store.outbox.take id with
    | none =>
      cases ok
      · dsimp only
        rw [if_neg Bool.false_ne_true, h.unsent htake hans]
        exact h
      · exact h
    | some taken =>
      obtain ⟨p, outbox⟩ := taken
      cases ok
      · exact h.refuses htake hans (he hans p (Outbox.take_mem htake) (Outbox.take_some htake).1) rfl rfl
      · have hsame : {x.store with outbox}.onReply p.closure.closure {res with ok := true, stale := false} =
            {x.store with outbox} := BookmarkStore.onReply_harmless (.inr (.inl rfl))
        dsimp only
        rw [hsame, if_pos rfl]
        exact h.accepts htake hans

theorem keeps : Machine.Keeps machine Rule Kept where
  step x e hx he := by
    cases e with
    | add itemId time title => exact hx.call (add_asks x.store itemId time title)
    | remove itemId time => exact hx.call (remove_asks x.store itemId time)
    | serve accept => exact hx.serve accept
    | reply id res => exact hx.reply id res he

theorem Kept.converged (h : Kept x) : Converged x := by
  intro hquiet item
  have hall : ∀ c ∈ x.standing, x.accepted c = true := by
    intro c hc
    by_contra hacc
    obtain ⟨p, hp, _⟩ := h.due c hc (by simpa using hacc)
    rw [hquiet] at hp
    cases hp
  have hqueue : x.queue = [] := List.eq_nil_iff_forall_not_mem.mpr fun c hc => by
    have hacc := hall c (mem_standing.mpr (.inl hc))
    rw [pending_accepted (h.pending c hc)] at hacc
    exact Bool.false_ne_true hacc
  have hstanding : x.standing = x.done := by simp [Sync.standing, hqueue]
  refine ⟨h.nodup item, fun t => ?_⟩
  rw [← shows_iff (k := (item, t)), h.shown, h.server, hstanding, List.filter_eq_self.mpr (hstanding ▸ hall)]

/-- Where one change alone is still to be answered, and was refused, everything else that
stands has been accepted. -/
theorem Kept.others_accepted (h : Kept x) {p : Sent BookmarkPost} (honly : x.store.outbox.inFlight = [p])
    (hans : x.answers p.id = some false) (k : String × Int) :
    x.server k = value x.loaded (x.standing.filter fun c => c.id ≠ p.id) k := by
  have haccepted : ∀ c ∈ x.standing, x.accepted c = decide (c.id ≠ p.id) := by
    intro c hc
    by_cases hid : c.id = p.id
    · simp [Sync.accepted, hid, hans]
    · rw [decide_eq_true hid]
      by_contra hacc
      obtain ⟨q, hq, hqid⟩ := h.due c hc (by simpa using hacc)
      rw [honly] at hq
      exact hid (hqid ▸ congrArg Sent.id (List.mem_singleton.mp hq))
  have hqueue : x.queue = [] := List.eq_nil_iff_forall_not_mem.mpr fun c hc => by
    have hacc := haccepted c (mem_standing.mpr (.inl hc))
    rw [pending_accepted (h.pending c hc)] at hacc
    have hid : c.id = p.id := by simpa using hacc.symm
    exact absurd ((h.pending c hc).symm.trans (hid ▸ hans)) (Option.some_ne_none false).symm
  rw [h.server, ← standing_without h (by rw [hans]; exact Option.some_ne_none _), hqueue, List.reverse_nil,
    List.nil_append, List.filter_congr fun c hc => haccepted c (mem_standing.mpr (.inr hc))]

/-- Where a refusal is the last answer to come, taking the change back is right exactly
when it leaves the seconds of the server. -/
theorem Kept.last_refusal (h : Kept x) {p : Sent BookmarkPost} (honly : x.store.outbox.inFlight = [p])
    (hans : x.answers p.id = some false) (res : ApiResponse) :
    Converged (x.reply p.id res) ↔ Rightful x (change p) := by
  have hmem := h.flight p (honly ▸ List.mem_cons_self ..)
  constructor
  · intro hconv
    let left : BookmarkStore := {x.store with outbox := {x.store.outbox with inFlight := []}}
    have htake : x.store.outbox.take p.id = some (p, left.outbox) := by
      simp [Outbox.take, honly, pick, left]
    have hstore : (x.reply p.id res).store = left.onReply p.closure.closure {res with ok := false, stale := false} := by
      simp only [Sync.reply, hans, BookmarkStore.finished, htake]
      rfl
    have hserver : (x.reply p.id res).server = x.server := by
      simp only [Sync.reply, hans]
    have hquiet : (x.reply p.id res).store.outbox.inFlight = [] := by
      rw [hstore, BookmarkStore.onReply_outbox]
    obtain ⟨hnodup, hseconds⟩ := hconv hquiet (change p).key.1
    have hshows : shows (x.reply p.id res).store (change p).key = !(change p).value := by
      rw [hstore]
      exact (refused_shows left p.closure.closure rfl rfl (change p).key).trans (if_pos rfl)
    have hbefore : value x.loaded (x.standing.filter fun c => c.id ≠ p.id) (change p).key = !(change p).value := by
      rw [← h.others_accepted honly hans, ← hshows, Bool.eq_iff_iff, shows_iff, hseconds, hserver]
    cases hnew : newest x.standing (change p).key with
    | none => exact absurd rfl (newest_none hnew _ hmem)
    | some e =>
      by_cases hid : e.id = p.id
      · exact .inl ⟨by rw [hnew]; exact congrArg some hid, hbefore⟩
      · right
        rw [value_filter_newest hnew (decide_eq_true hid)] at hbefore
        have hshown : shows x.store (change p).key = !(change p).value :=
          ((h.shown _).trans (value_of_newest hnew)).trans hbefore
        cases hvalue : (change p).value
        · rw [hvalue, Bool.not_false] at hshown
          rw [hstore] at hnodup
          exact absurd ((refused_absent hvalue rfl rfl hnodup).symm.trans hshown) Bool.false_ne_true
        · exact ⟨rfl, hshown.trans (by rw [hvalue]; rfl)⟩
  · intro hright
    refine (h.reply p.id res fun _ q hq _ => ?_).converged
    rw [honly] at hq
    exact List.mem_singleton.mp hq ▸ hright

theorem kept_start (server : Endpoints) (user : Json)
    (hdistinct : ∀ item, ((start server user).store.seconds item).Nodup) : Kept (start server user) where
  outbox := Outbox.sound_start
  nodup := hdistinct
  shown _ := rfl
  server _ := rfl
  handled _ h := nomatch h
  pending _ h := nomatch h
  future _ _ := rfl
  flight _ h := nomatch h
  due _ h := nomatch h
  ids _ h := nomatch h
  once := List.Pairwise.nil

/-- **The bookmarks converge.** In every run in which a refusal arrives only where
taking the change back is right: whenever no answer is to come, each item has at most
one bookmark a second and the seconds of the server. Where a refusal is the last
answer to come, no weaker condition would do. -/
theorem bookmarks_converge (server : Endpoints) (user : Json)
    (hdistinct : ∀ item, ((start server user).store.seconds item).Nodup) (es : List Event)
    (h : machine.Along Rule (start server user) es) :
    Converged (machine.run (start server user) es) ∧
      ∀ p res, (machine.run (start server user) es).store.outbox.inFlight = [p] →
        (machine.run (start server user) es).answers p.id = some false →
        (Converged (step (machine.run (start server user) es) (.reply p.id res)) ↔
          Rightful (machine.run (start server user) es) (change p)) := by
  have hkept := keeps.run (kept_start server user hdistinct) h
  exact ⟨hkept.converged, fun p res honly hans => hkept.last_refusal honly hans res⟩

def answer : ApiResponse := ⟨200, true, false, .null, "", none⟩

/-- A bookmark is added and removed again before the server has answered, and both
requests are refused. -/
def hasty : List Event :=
  [.add "book" 10 "here", .remove "book" 10, .serve false, .serve false, .reply 0 answer, .reply 1 answer]

/-- It comes back, and the server has none. -/
theorem refused_removal_shows : ¬Converged (machine.run (start default (.object [])) hasty) := fun h =>
  absurd ((h rfl "book").2 10) (by decide +kernel)

/-- The same with the answers the other way round, and then once more with a bookmark
that stays. -/
def orderly : List Event :=
  [.add "book" 10 "here", .remove "book" 10, .serve false, .serve false, .reply 1 answer, .reply 0 answer,
    .add "book" 20 "there", .serve true, .reply 2 answer, .remove "book" 20, .serve false, .reply 3 answer]

theorem bookmarks_converge_orderly :
    Converged (machine.run (start default (.object [])) orderly) ∧
      (machine.run (start default (.object [])) orderly).store.seconds "book" = [20] :=
  ⟨(bookmarks_converge default (.object []) (fun item => by simp [start, BookmarkStore.loadFromUser,
    BookmarkStore.seconds, Json.toArray]) orderly (by decide +kernel)).1, by decide +kernel⟩

end ShelfRemote.Model.Bookmarks
