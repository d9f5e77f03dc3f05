import ShelfRemote.Lib.Recency
import ShelfRemote.Lib.Runs
import ShelfRemote.Lib.Scans
import ShelfRemote.Storage.Database

/-! What pruning keeps of the item cache.

`pruneItemCache` orders the items by the second they were written in, and those of one second
by their rowid. An item has its rowid from when it was first cached; written again, it stands
behind whatever was first cached after it in the same second. `prune_keeps_newest` says that
in runs without such a write the items kept are the newest ones. -/
namespace ShelfRemote.Storage
open Tables Recency Runs

/-- The cache under a clock in whole seconds. -/
structure ItemCache where
  db : Database := {}
  now : Int
  /-- History: the items written and what was written of them, newest first. -/
  calls : List (String × String) := []

namespace ItemCache

inductive Event where
  | wait (seconds : Nat)
  | cacheItem (itemId json : String)
  | pruneItemCache (maxRows : Int)
  | removeCachedItemsForServer (serverId : String)

def machine : Machine ItemCache Event where
  step s
    | .wait seconds => {s with now := s.now + seconds}
    | .cacheItem itemId json =>
      {s with db := s.db.cacheItem itemId json s.now, calls := (itemId, json) :: s.calls}
    | .pruneItemCache maxRows => {s with db := s.db.pruneItemCache maxRows}
    | .removeCachedItemsForServer serverId => {s with db := s.db.removeCachedItemsForServer serverId}

def rows (s : ItemCache) : List ItemRow := s.db.itemCache.rows

def keys (s : ItemCache) : List String := s.db.itemCache.keys

/-- The items in the cache, in the order of their last writes. -/
def newest (s : ItemCache) : List String := (recent (s.calls.map (·.1))).filter (· ∈ s.keys)

/-- Pruned now to any number of rows, the cache holds the items written last, each as it was
written last. -/
def KeepsNewest (s : ItemCache) : Prop :=
  ∀ maxRows : Int, 0 ≤ maxRows →
    let after := (s.db.pruneItemCache maxRows).itemCache
    after.keys.Perm (s.newest.take maxRows.toNat) ∧ ∀ r ∈ after.rows, s.calls.lookup r.itemId = some r.json

/-- No item is written again in the second in which one first cached after it was written. -/
def Timely (s : ItemCache) : Event → Prop
  | .cacheItem itemId _ => ∀ old ∈ s.rows, old.itemId = itemId → ∀ r ∈ s.rows, r.updated = s.now → r.rowid ≤ old.rowid
  | _ => True

instance (s : ItemCache) : (e : Event) → Decidable (s.Timely e)
  | .cacheItem itemId _ => inferInstanceAs (Decidable
      (∀ old ∈ s.rows, old.itemId = itemId → ∀ r ∈ s.rows, r.updated = s.now → r.rowid ≤ old.rowid))
  | .wait _ | .pruneItemCache _ | .removeCachedItemsForServer _ => .isTrue trivial

/-! ### The order of the rows -/

theorem newer_iff {a b : ItemRow} :
    Database.newer a b = true ↔ b.updated < a.updated ∨ a.updated = b.updated ∧ b.rowid ≤ a.rowid := by
  simp [Database.newer]

/-- Rows of different rowids are told apart. -/
theorem orders_newer {rows : List ItemRow} (h : (rows.map (·.rowid)).Nodup) : Orders Database.newer rows where
  trans a b c hab hbc := by
    rw [newer_iff] at hab hbc ⊢
    omega
  total a b := by
    rw [Bool.or_eq_true, newer_iff, newer_iff]
    omega
  strict a ha b hb hab hba := by
    rw [newer_iff] at hab hba
    exact List.inj_on_of_nodup_map h ha hb (by omega)

theorem lt_nextRowid (db : Database) {r : ItemRow} (hr : r ∈ db.itemCache.rows) : r.rowid < db.nextRowid :=
  Nat.lt_succ_of_le (Scans.le_greatest id (fun _ => True) (List.mem_map_of_mem hr) trivial 0)

/-! ### What an event does -/

/-- The row that caching an item writes. -/
def written (s : ItemCache) (itemId json : String) : ItemRow :=
  s.db.itemCache.written ⟨s.db.nextRowid, itemId, json, s.now⟩ fun r => {r with json, updated := s.now}

/-- An event writes one row, or takes out the rows of some items. -/
inductive Next (s s' : ItemCache) : Event → Prop
  | write (itemId json : String) (hnow : s'.now = s.now) (hcalls : s'.calls = (itemId, json) :: s.calls)
      (hrows : s'.rows.Perm (s.written itemId json :: s.rows.filter (·.itemId ≠ itemId))) :
      Next s s' (.cacheItem itemId json)
  | sift {e : Event} (keep : String → Bool) (he : s.Timely e) (hnow : s.now ≤ s'.now) (hcalls : s'.calls = s.calls)
      (hrows : s'.rows = s.rows.filter fun r => keep r.itemId) : Next s s' e

theorem pruneItemCache_rows (db : Database) {maxRows : Int} (h : 0 ≤ maxRows) :
    (db.pruneItemCache maxRows).itemCache.rows = db.itemCache.rows.filter fun r =>
      ((order Database.newer (·.itemId) db.itemCache.rows).take maxRows.toNat).contains r.itemId := by
  unfold Database.pruneItemCache order
  rw [if_neg (Int.not_lt.mpr h), ← List.map_take]
  exact List.filter_congr fun r _ => Bool.not_not _

theorem step_next (s : ItemCache) (e : Event) : Next s (machine.step s e) e := by
  cases e with
  | wait seconds =>
    refine .sift (fun _ => true) trivial ?_ rfl (List.filter_eq_self.mpr fun _ _ => rfl).symm
    exact Int.le_add_of_nonneg_right (Int.natCast_nonneg seconds)
  | cacheItem itemId json =>
    refine .write itemId json rfl rfl (s.db.itemCache.upsert_perm ?_)
    exact fun _ hid => hid
  | pruneItemCache maxRows =>
    by_cases h : 0 ≤ maxRows
    · exact .sift _ trivial le_rfl rfl (pruneItemCache_rows s.db h)
    · refine .sift (fun _ => true) trivial le_rfl rfl ?_
      rw [List.filter_eq_self.mpr fun _ _ => rfl]
      show (s.db.pruneItemCache maxRows).itemCache.rows = _
      rw [Database.pruneItemCache, if_pos (Int.not_le.mp h)]
      rfl
  | removeCachedItemsForServer serverId =>
    exact .sift (fun itemId => !like (serverId ++ "/%").toList itemId.toList) trivial le_rfl rfl rfl

/-! ### What the rows tell -/

/-- No row is from the future or has the rowid of another one, and each has its last text. -/
structure Tracked (s : ItemCache) : Prop where
  past : ∀ r ∈ s.rows, r.updated ≤ s.now
  rowids : (s.rows.map (·.rowid)).Nodup
  last : ∀ r ∈ s.rows, s.calls.lookup r.itemId = some r.json

variable {s s' : ItemCache} {e : Event} {itemId json : String}

/-- An item that is written again keeps its rowid; a new one gets the largest. -/
theorem written_cases (s : ItemCache) (itemId json : String) :
    (∃ old ∈ s.rows, old.itemId = itemId ∧ s.written itemId json = {old with json, updated := s.now}) ∨
      (∀ r ∈ s.rows, r.itemId ≠ itemId) ∧ s.written itemId json = ⟨s.db.nextRowid, itemId, json, s.now⟩ := by
  unfold written Table.written
  cases hfound : s.db.itemCache.rows.find? fun r => r.itemId = itemId with
  | some old => exact .inl ⟨old, List.mem_of_find?_eq_some hfound, by simpa using List.find?_some hfound, rfl⟩
  | none =>
    refine .inr ⟨fun r hr => ?_, rfl⟩
    simpa using List.find?_eq_none.mp hfound r hr

theorem written_itemId (s : ItemCache) (itemId json : String) : (s.written itemId json).itemId = itemId := by
  rcases written_cases s itemId json with ⟨old, -, hid, hwritten⟩ | ⟨-, hwritten⟩
  · rw [hwritten]
    exact hid
  · rw [hwritten]

theorem written_updated (s : ItemCache) (itemId json : String) :
    (s.written itemId json).updated = s.now ∧ (s.written itemId json).json = json := by
  rcases written_cases s itemId json with ⟨old, -, -, hwritten⟩ | ⟨-, hwritten⟩ <;> rw [hwritten] <;> exact ⟨rfl, rfl⟩

/-- No other row has the rowid of the row written. -/
theorem written_rowid (h : s.Tracked) : ∀ r ∈ s.rows, r.itemId ≠ itemId → r.rowid ≠ (s.written itemId json).rowid := by
  intro r hr hother
  rcases written_cases s itemId json with ⟨old, hold, hid, hwritten⟩ | ⟨-, hwritten⟩
  · rw [hwritten]
    exact fun he => hother ((List.inj_on_of_nodup_map h.rowids hr hold he) ▸ hid)
  · rw [hwritten]
    exact Nat.ne_of_lt (lt_nextRowid s.db hr)

theorem Next.tracked (hnext : Next s s' e) (h : s.Tracked) : s'.Tracked := by
  cases hnext with
  | write itemId json hnow hcalls hrows =>
    obtain ⟨hupdated, hjson⟩ := written_updated s itemId json
    have hmem (r : ItemRow) (hr : r ∈ s'.rows) : r = s.written itemId json ∨ r ∈ s.rows ∧ r.itemId ≠ itemId := by
      simpa using hrows.subset hr
    refine ⟨fun r hr => ?_, ?_, fun r hr => ?_⟩
    · rcases hmem r hr with rfl | ⟨hr, -⟩
      · rw [hupdated, hnow]
      · exact hnow ▸ h.past r hr
    · rw [(hrows.map _).nodup_iff, List.map_cons, List.nodup_cons]
      refine ⟨fun hwritten => ?_, h.rowids.sublist (List.filter_sublist.map _)⟩
      obtain ⟨r, hr, he⟩ := List.mem_map.mp hwritten
      obtain ⟨hr, hother⟩ := List.mem_filter.mp hr
      exact written_rowid h r hr (of_decide_eq_true hother) he
    · rw [hcalls]
      rcases hmem r hr with rfl | ⟨hr, hother⟩
      · simp [written_itemId, hjson]
      · rw [List.lookup_cons, beq_eq_false_iff_ne.mpr hother]
        exact h.last r hr
  | sift keep _ hnow hcalls hrows =>
    refine ⟨fun r hr => ?_, ?_, fun r hr => ?_⟩
    · rw [hrows] at hr
      exact (h.past r (List.mem_filter.mp hr).1).trans hnow
    · rw [hrows]
      exact h.rowids.sublist (List.filter_sublist.map _)
    · rw [hrows] at hr
      rw [hcalls]
      exact h.last r (List.mem_filter.mp hr).1

/-! ### What is kept -/

/-- The rows in their order are the items in the order of their last writes. -/
def Agrees (s : ItemCache) : Prop := order Database.newer (·.itemId) s.rows = s.newest

theorem pruned_keys (s : ItemCache) {maxRows : Int} (h : 0 ≤ maxRows) :
    (s.db.pruneItemCache maxRows).itemCache.keys.Perm
      ((order Database.newer (·.itemId) s.rows).take maxRows.toNat) := by
  have horder := order_perm Database.newer (·.itemId) s.rows
  refine (List.perm_ext_iff_of_nodup (Table.unique _) ?_).mpr fun k => ?_
  · exact (horder.nodup_iff.mpr s.db.itemCache.unique).sublist (List.take_sublist ..)
  · rw [pruneItemCache_rows s.db h, List.mem_map]
    constructor
    · rintro ⟨r, hr, rfl⟩
      exact List.contains_iff_mem.mp (List.mem_filter.mp hr).2
    · intro hk
      obtain ⟨r, hr, rfl⟩ := List.mem_map.mp (horder.subset (List.mem_of_mem_take hk))
      exact ⟨r, List.mem_filter.mpr ⟨hr, List.contains_iff_mem.mpr hk⟩, rfl⟩

theorem keepsNewest_iff (h : s.Tracked) : s.KeepsNewest ↔ s.Agrees := by
  constructor
  · intro hkeeps
    refine eq_of_take_perm fun n => ?_
    have hn := Int.natCast_nonneg n
    exact (pruned_keys s hn).symm.trans (hkeeps n hn).1
  · intro hagrees maxRows hmax
    refine ⟨hagrees ▸ pruned_keys s hmax, fun r hr => ?_⟩
    rw [pruneItemCache_rows s.db hmax] at hr
    exact h.last r (List.mem_filter.mp hr).1

/-- Nothing that is taken out puts the rest out of order. -/
theorem sift_agrees (h : s.Tracked) (hagrees : s.Agrees) {keep : String → Bool} (hcalls : s'.calls = s.calls)
    (hrows : s'.rows = s.rows.filter fun r => keep r.itemId) : s'.Agrees := by
  have hkeys (k : String) : k ∈ s'.keys ↔ k ∈ s.keys ∧ keep k = true := by
    show k ∈ s'.rows.map (·.itemId) ↔ k ∈ s.rows.map (·.itemId) ∧ _
    rw [hrows, ← List.mem_filter, List.filter_map]
    rfl
  unfold Agrees
  rw [hrows, order_filter (orders_newer h.rowids), show order Database.newer (·.itemId) s.rows = _ from hagrees]
  unfold newest
  rw [hcalls, List.filter_filter]
  refine List.filter_congr fun k _ => ?_
  simp [hkeys, Bool.and_comm]

/-- What comes to stand where once an item is written. -/
theorem newest_write (hcalls : s'.calls = (itemId, json) :: s.calls)
    (hrows : s'.rows.Perm (s.written itemId json :: s.rows.filter (·.itemId ≠ itemId))) :
    s'.newest = itemId :: s.newest.filter (· ≠ itemId) := by
  have hkeys (k : String) : k ∈ s'.keys ↔ k = itemId ∨ k ∈ s.keys := by
    have hold : k ≠ itemId → (k ∈ (s.rows.filter (·.itemId ≠ itemId)).map (·.itemId) ↔ k ∈ s.keys) := by
      intro hk
      show k ∈ List.map _ _ ↔ k ∈ s.rows.map (·.itemId)
      simp only [List.mem_map, List.mem_filter]
      refine exists_congr fun r => and_congr_left fun hr => and_iff_left ?_
      exact decide_eq_true (hr ▸ hk)
    show k ∈ s'.rows.map (·.itemId) ↔ _
    rw [(hrows.map _).mem_iff, List.map_cons, List.mem_cons, written_itemId]
    exact or_congr_right' hold
  unfold newest
  rw [hcalls, List.map_cons, recent, List.filter_cons_of_pos (by simp [hkeys])]
  rw [List.filter_filter, List.filter_filter]
  refine congrArg (itemId :: ·) (List.filter_congr fun k _ => ?_)
  by_cases h : k = itemId <;> simp [hkeys, h]

theorem written_first_iff (h : s.Tracked) :
    (∀ r ∈ s.rows.filter (·.itemId ≠ itemId), Database.newer (s.written itemId json) r = true) ↔
      s.Timely (.cacheItem itemId json) := by
  obtain ⟨hupdated, -⟩ := written_updated s itemId json
  constructor
  · intro hfirst old hold hid r hr hnow
    rcases written_cases s itemId json with ⟨old', hold', hid', hwritten⟩ | ⟨hnew, -⟩
    · obtain rfl := List.inj_on_of_nodup_map s.db.itemCache.unique hold hold' (hid.trans hid'.symm)
      by_cases hother : r.itemId = itemId
      · obtain rfl := List.inj_on_of_nodup_map s.db.itemCache.unique hr hold (hother.trans hid.symm)
        exact Nat.le_refl _
      · have hnewer := hfirst r (List.mem_filter.mpr ⟨hr, decide_eq_true hother⟩)
        rw [newer_iff, hupdated, hnow, hwritten] at hnewer
        exact (hnewer.resolve_left (Int.lt_irrefl _)).2
    · exact absurd hid (hnew old hold)
  · intro htimely r hr
    have hr := (List.mem_filter.mp hr).1
    rw [newer_iff, hupdated]
    rcases Int.lt_or_eq_of_le (h.past r hr) with hbefore | hnow
    · exact .inl hbefore
    · refine .inr ⟨hnow.symm, ?_⟩
      rcases written_cases s itemId json with ⟨old, hold, hid, hwritten⟩ | ⟨-, hwritten⟩
      · rw [hwritten]
        exact htimely old hold hid r hr hnow
      · rw [hwritten]
        exact (lt_nextRowid s.db hr).le

theorem Next.agrees (hnext : Next s s' e) (h : s.Tracked) (hagrees : s.Agrees) : s'.Agrees ↔ s.Timely e := by
  have htracked := hnext.tracked h
  cases hnext with
  | sift keep he hnow hcalls hrows => exact iff_of_true (sift_agrees h hagrees hcalls hrows) he
  | write itemId json hnow hcalls hrows =>
    have hfront := order_front_iff (orders_newer htracked.rowids) hrows s'.db.itemCache.unique
    have hrest : order Database.newer (·.itemId) (s.rows.filter (·.itemId ≠ itemId)) = _ :=
      order_filter (orders_newer h.rowids) fun k => decide (k ≠ itemId)
    rw [hrest, show order Database.newer (·.itemId) s.rows = _ from hagrees, written_itemId,
      ← newest_write hcalls hrows] at hfront
    exact hfront.trans (written_first_iff h)

theorem tracked_start (now : Int) : Tracked {now} where
  past _ hr := nomatch hr
  rowids := List.nodup_nil
  last _ hr := nomatch hr

theorem agrees_start (now : Int) : Agrees {now} := by
  show List.map _ (List.mergeSort [] _) = _
  rw [List.mergeSort_nil]
  rfl

theorem tracked_keeps : Machine.Keeps machine (fun _ _ => True) Tracked :=
  ⟨fun s e hs _ => (step_next s e).tracked hs⟩

/-- **Pruning keeps the newest items** in every run in which no item is written again in the
second in which one first cached after it was written. From every state of such a run, one
event leaves it so if and only if it is no such write. -/
theorem prune_keeps_newest (now : Int) (es : List Event) (hes : machine.Along Timely {now} es) :
    let s := machine.run {now} es
    s.KeepsNewest ∧ ∀ e, (machine.step s e).KeepsNewest ↔ s.Timely e := by
  have hgood (s : ItemCache) (e : Event) (hs : s.Tracked) (hkeeps : s.KeepsNewest) :
      (machine.step s e).KeepsNewest ↔ s.Timely e := by
    have hnext := step_next s e
    rw [keepsNewest_iff hs] at hkeeps
    rw [keepsNewest_iff (hnext.tracked hs)]
    exact hnext.agrees hs hkeeps
  have hstart : ({now} : ItemCache).KeepsNewest := (keepsNewest_iff (tracked_start now)).mpr (agrees_start now)
  exact (tracked_keeps.exactly hgood (tracked_start now) hstart hes).2

/-- Two items are cached and the first one is cached again, all in one second. -/
def rewritten : List Event := [.cacheItem "s/1" "one", .cacheItem "s/2" "two", .cacheItem "s/1" "one again"]

/-- Pruned to one row, the cache keeps the item that was not written last. -/
theorem prune_keeps_older :
    let s := machine.run {now := 100} rewritten
    (s.db.pruneItemCache 1).itemCache.keys = ["s/2"] ∧ s.newest = ["s/1", "s/2"] ∧ ¬s.KeepsNewest := by
  have hrows : (machine.run {now := 100} rewritten).rows = [⟨1, "s/1", "one again", 100⟩, ⟨2, "s/2", "two", 100⟩] := by
    rfl
  have horder : List.mergeSort [⟨1, "s/1", "one again", 100⟩, ⟨2, "s/2", "two", 100⟩] Database.newer =
      [⟨2, "s/2", "two", 100⟩, ⟨1, "s/1", "one again", 100⟩] := by
    simp [List.mergeSort, Database.newer]
  have hkept : ((machine.run {now := 100} rewritten).db.pruneItemCache 1).itemCache.keys = ["s/2"] := by
    rw [Table.keys, pruneItemCache_rows _ (by decide), show Table.rows _ = _ from hrows, order, horder]
    decide
  have hnewest : (machine.run {now := 100} rewritten).newest = ["s/1", "s/2"] := by decide +kernel
  refine ⟨hkept, hnewest, fun hkeeps => ?_⟩
  have hperm := (hkeeps 1 (by decide)).1
  rw [hkept, hnewest] at hperm
  exact absurd (List.singleton_perm_singleton.mp hperm) (by decide)

/-- It is the second of the write that matters. -/
theorem prune_keeps_newest_rewritten :
    let s := machine.run {now := 100} [.cacheItem "s/1" "one", .cacheItem "s/2" "two", .wait 1]
    s.KeepsNewest ∧ (machine.step s (.cacheItem "s/1" "one again")).KeepsNewest ∧
      ¬(machine.step (machine.step s (.cacheItem "s/2" "two again")) (.cacheItem "s/1" "one again")).KeepsNewest :=
  have h := prune_keeps_newest 100 [.cacheItem "s/1" "one", .cacheItem "s/2" "two", .wait 1] (by decide +kernel)
  have h' := prune_keeps_newest 100 [.cacheItem "s/1" "one", .cacheItem "s/2" "two", .wait 1, .cacheItem "s/2" "two again"]
    (by decide +kernel)
  ⟨h.1, (h.2 _).mpr (by decide +kernel), fun hkeeps => absurd ((h'.2 _).mp hkeeps) (by decide +kernel)⟩

end ItemCache

end ShelfRemote.Storage
