import ShelfRemote.Lib.Runs
import ShelfRemote.Net.Outbox
import ShelfRemote.Storage.CoverPaths
import ShelfRemote.Storage.Covers

/-! The cover cache, with the client and the disk behind it.

A cover that is not on disk is fetched and written there. Two sets of paths keep the cache
from asking too often: the fetches that are out, and the covers the server has none of. A
reply that comes after the client was pointed at another server only ends its fetch. The
client aborts such replies while it is being pointed there; here they are late ones, which
may come at any time from then on. -/
namespace ShelfRemote.Storage
open Qt Net Runs Tables

/-- A response as far as a fetch reads it. -/
structure RawResponse where
  status : Nat
  ok : Bool
  body : Bytes

/-- The server has nothing there, as opposed to a request that failed. -/
def RawResponse.Nothing (res : RawResponse) : Prop := res.status = 404 ∨ res.ok = true ∧ res.body = []

instance : DecidablePred RawResponse.Nothing := fun _ => inferInstanceAs (Decidable (_ ∨ _))

/-- What the closure of a fetch has captured, and the client's epoch when it was sent. -/
structure Fetch where
  itemId : String
  path : String
  epoch : Nat

def CoverDir.write (disk : CoverDir) (f : CoverFile) : CoverDir := disk.upsert f (fun _ => f) fun _ _ => rfl

structure CoverCache where
  server : Endpoints
  epoch : Nat := 0
  outbox : Outbox Fetch := {}
  inFlight : List String := []
  missing : List String := []
  disk : CoverDir := {}
  /-- What `coverReady` has announced, newest first. -/
  ready : List (String × String) := []

namespace CoverCache

def fetch (env : CoverEnv) (s : CoverCache) (id : String) (width height : Int) (author : Bool) : CoverCache :=
  let path := CoverKey.diskPath env ⟨s.server, author, id, width, height⟩
  if path ∈ s.inFlight ∨ path ∈ s.missing then s
  else
    let q := [("width", toString width), ("height", toString height), ("format", "webp")]
    let url := if author then s.server.authorImage id q else s.server.cover id q
    {s with
      inFlight := path :: s.inFlight
      outbox := s.outbox.send .get url .null ⟨id, path, s.epoch⟩}

/-- The file, if it is there; else it is fetched. -/
def get (env : CoverEnv) (s : CoverCache) (id : String) (width height : Int) (author : Bool) :
    CoverCache × Option String :=
  let path := CoverKey.diskPath env ⟨s.server, author, id, width, height⟩
  if path ∈ s.disk.keys then (s, some path) else (s.fetch env id width height author, none)

def localUrl (env : CoverEnv) (s : CoverCache) (itemId : String) (width height : Int) : CoverCache × Option String :=
  s.get env itemId width height false

def authorImage (env : CoverEnv) (s : CoverCache) (authorId : String) (width height : Int) :
    CoverCache × Option String :=
  s.get env authorId width height true

/-- The closure of a fetch. The file may not open. -/
def finished (s : CoverCache) (f : Fetch) (stale : Bool) (res : RawResponse) (opens : Bool) (modified : Int) :
    CoverCache :=
  let s := {s with inFlight := s.inFlight.filter (· ≠ f.path)}
  if stale then s
  else if res.Nothing then {s with missing := f.path :: s.missing}
  else if !res.ok then s
  else if opens then
    {s with
      disk := s.disk.write ⟨f.path, res.body.length, modified⟩
      ready := (f.itemId, f.path) :: s.ready}
  else s

/-- Files may be left that cannot be deleted. -/
def clearCache (s : CoverCache) (removable : String → Bool) : CoverCache :=
  {s with missing := [], disk := s.disk.deleteWhere fun f => removable f.path}

inductive Event where
  | localUrl (itemId : String) (width height : Int)
  | authorImage (authorId : String) (width height : Int)
  | clearCache (removable : String → Bool)
  | pruneToLimit (dir : Listing) (removable : String → Bool) (maxBytes : Int)
  | setBaseUrl (base : QUrl)
  | reply (id : Nat) (res : RawResponse) (opens : Bool) (modified : Int)

def machine (env : CoverEnv) : Machine CoverCache Event where
  step s
    | .localUrl itemId width height => (s.localUrl env itemId width height).1
    | .authorImage authorId width height => (s.authorImage env authorId width height).1
    | .clearCache removable => s.clearCache removable
    | .pruneToLimit dir removable maxBytes => {s with disk := (Storage.pruneToLimit dir removable s.disk maxBytes).disk}
    | .setBaseUrl base =>
      if s.server.base = base then s else {s with server := Endpoints.setBase base, epoch := s.epoch + 1}
    | .reply id res opens modified =>
      match s.outbox.take id with
      | none => s
      | some (p, outbox) => {s with outbox}.finished p.closure (p.closure.epoch != s.epoch) res opens modified

/-! ### What an event does -/

/-- The files that are being fetched. -/
def fetching (s : CoverCache) : List String := s.outbox.inFlight.map (·.closure.path)

variable {env : CoverEnv} {s s' : CoverCache}

/-- A reply that is not late may change the disk or mark a cover as missing. -/
theorem finished_cases (s : CoverCache) (f : Fetch) (stale : Bool) (res : RawResponse) (opens : Bool) (modified : Int) :
    let ended := {s with inFlight := s.inFlight.filter (· ≠ f.path)}
    let s' := s.finished f stale res opens modified
    s' = ended ∨ s' = {ended with missing := f.path :: s.missing} ∨
      s' = {ended with
        disk := s.disk.write ⟨f.path, res.body.length, modified⟩
        ready := (f.itemId, f.path) :: s.ready} := by
  unfold finished
  dsimp only
  split_ifs
  · exact .inl rfl
  · exact .inr (.inl rfl)
  · exact .inl rfl
  · exact .inr (.inr rfl)
  · exact .inl rfl

def Event.clears : Event → Bool
  | .clearCache _ => true
  | _ => false

/-- What an event does with fetches: one is sent for a file that nothing stands against, or
one has ended, or there are no others than before. -/
inductive Next (s s' : CoverCache) (e : Event) : Prop
  | sent (path id : String) (url : Target) (hfree : path ∉ s.disk.keys ∧ path ∉ s.inFlight ∧ path ∉ s.missing)
      (hs' : s' = {s with
        inFlight := path :: s.inFlight
        outbox := s.outbox.send .get url .null ⟨id, path, s.epoch⟩})
  | ended {id : Nat} {p : Sent Fetch} {outbox : Outbox Fetch} (htake : s.outbox.take id = some (p, outbox))
      (hepoch : s'.epoch = s.epoch) (houtbox : s'.outbox = outbox)
      (hinFlight : s'.inFlight = s.inFlight.filter (· ≠ p.closure.path)) (hmissing : s.missing ⊆ s'.missing)
  | same (hepoch : s.epoch ≤ s'.epoch) (houtbox : s'.outbox = s.outbox) (hinFlight : s'.inFlight = s.inFlight)
      (hmissing : e.clears = false → s'.missing = s.missing)

theorem get_next (env : CoverEnv) (s : CoverCache) (id : String) (width height : Int) (author : Bool) (e : Event) :
    Next s (s.get env id width height author).1 e := by
  unfold get fetch
  dsimp only
  split
  · exact .same (Nat.le_refl _) rfl rfl fun _ => rfl
  · next hdisk =>
    split
    · exact .same (Nat.le_refl _) rfl rfl fun _ => rfl
    · next hout =>
      rw [not_or] at hout
      exact .sent _ id _ ⟨hdisk, hout⟩ rfl

theorem step_next (env : CoverEnv) (s : CoverCache) (e : Event) : Next s ((machine env).step s e) e := by
  cases e with
  | localUrl itemId width height => exact get_next env s itemId width height false _
  | authorImage authorId width height => exact get_next env s authorId width height true _
  | clearCache removable => exact .same (Nat.le_refl _) rfl rfl fun hclears => nomatch hclears
  | pruneToLimit dir removable maxBytes => exact .same (Nat.le_refl _) rfl rfl fun _ => rfl
  | setBaseUrl base =>
    dsimp only [machine]
    split
    · exact .same (Nat.le_refl _) rfl rfl fun _ => rfl
    · exact .same (Nat.le_succ _) rfl rfl fun _ => rfl
  | reply id res opens modified =>
    dsimp only [machine]
    cases htake : s.outbox.take id with
    | none => exact .same (Nat.le_refl _) rfl rfl fun _ => rfl
    | some taken =>
      obtain ⟨p, outbox⟩ := taken
      dsimp only
      rcases finished_cases {s with outbox} p.closure (p.closure.epoch != s.epoch) res opens modified with he | he | he
      · exact he ▸ .ended htake rfl rfl rfl (List.Subset.refl _)
      · exact he ▸ .ended htake rfl rfl rfl (List.subset_cons_self ..)
      · exact he ▸ .ended htake rfl rfl rfl (List.Subset.refl _)

/-! ### What is kept -/

/-- The set of paths is that of the fetches that are out, each for a file of its own. -/
structure Kept (s : CoverCache) : Prop where
  numbers : s.outbox.Sound
  epochs : ∀ p ∈ s.outbox.inFlight, p.closure.epoch ≤ s.epoch
  alone : s.fetching.Nodup
  inFlight : ∀ path, path ∈ s.inFlight ↔ path ∈ s.fetching

theorem kept_start (server : Endpoints) (disk : CoverDir) : Kept {server, disk} where
  numbers := Outbox.sound_start
  epochs _ hp := nomatch hp
  alone := List.nodup_nil
  inFlight _ := Iff.rfl

variable {e : Event}

theorem Next.kept (hnext : Next s s' e) (h : s.Kept) : s'.Kept := by
  cases hnext with
  | sent path id url hfree hs' =>
    subst hs'
    refine ⟨h.numbers.send .get url .null _, List.forall_mem_cons.mpr ⟨Nat.le_refl _, h.epochs⟩, ?_, fun path' => ?_⟩
    · exact List.nodup_cons.mpr ⟨fun hmem => hfree.2.1 ((h.inFlight _).mpr hmem), h.alone⟩
    · show path' ∈ path :: s.inFlight ↔ path' ∈ path :: s.fetching
      rw [List.mem_cons, List.mem_cons, h.inFlight]
  | @ended id p outbox htake hepoch houtbox hinFlight _ =>
    obtain ⟨-, hperm, -⟩ := Outbox.take_some htake
    have hpaths : s.fetching.Perm (p.closure.path :: s'.fetching) := by
      unfold fetching
      exact houtbox ▸ hperm.map _
    have hnodup := List.nodup_cons.mp (hpaths.nodup_iff.mp h.alone)
    refine ⟨houtbox ▸ (h.numbers.take htake).1, fun q hq => ?_, hnodup.2, fun path => ?_⟩
    · exact hepoch ▸ h.epochs q (Outbox.take_rest htake (houtbox ▸ hq))
    · rw [hinFlight, List.mem_filter, h.inFlight, hpaths.mem_iff, List.mem_cons]
      constructor
      · rintro ⟨hmem, hne⟩
        exact hmem.resolve_left (of_decide_eq_true hne)
      · exact fun hmem => ⟨.inr hmem, decide_eq_true fun he => hnodup.1 (he ▸ hmem)⟩
  | same hepoch houtbox hinFlight =>
    have hfetching : s'.fetching = s.fetching := congrArg (fun o : Outbox Fetch => o.inFlight.map _) houtbox
    refine ⟨houtbox ▸ h.numbers, fun p hp => ?_, hfetching ▸ h.alone, ?_⟩
    · exact Nat.le_trans (h.epochs p (houtbox ▸ hp)) hepoch
    · rw [hinFlight, hfetching]
      exact h.inFlight

theorem keeps (env : CoverEnv) : Machine.Keeps (machine env) (fun _ _ => True) Kept :=
  ⟨fun s e hs _ => (step_next env s e).kept hs⟩

/-! ### What is fetched -/

/-- The event sends a fetch for the file. -/
def Starts (env : CoverEnv) (s : CoverCache) (e : Event) (path : String) : Prop :=
  ∃ p ∈ ((machine env).step s e).outbox.inFlight, p ∉ s.outbox.inFlight ∧ p.closure.path = path

theorem Starts.free {path : String} (h : s.Starts env e path) :
    path ∉ s.disk.keys ∧ path ∉ s.inFlight ∧ path ∉ s.missing := by
  obtain ⟨p, hp, hnew, hpath⟩ := h
  cases step_next env s e with
  | sent path' id url hfree hs' =>
    rw [hs'] at hp
    rcases List.mem_cons.mp hp with rfl | hp
    · exact hpath ▸ hfree
    · exact absurd hp hnew
  | ended htake _ houtbox => exact absurd (Outbox.take_rest htake (houtbox ▸ hp)) hnew
  | same _ houtbox => exact absurd (houtbox ▸ hp) hnew

/-- What is marked as missing stays so until the cache is cleared. -/
theorem missing_keeps (env : CoverEnv) (path : String) :
    Machine.Keeps (machine env) (fun _ e => e.clears = false) (fun s => path ∈ s.missing) := by
  refine ⟨fun s e hpath hclears => ?_⟩
  cases step_next env s e with
  | sent _ _ _ _ hs' => exact hs' ▸ hpath
  | ended _ _ _ _ hmissing => exact hmissing hpath
  | same _ _ _ hmissing => exact hmissing hclears ▸ hpath

/-- The current server has nothing for a fetch. -/
theorem Kept.marks (h : s.Kept) (env : CoverEnv) {p : Sent Fetch} (hp : p ∈ s.outbox.inFlight)
    (hcurrent : p.closure.epoch = s.epoch) {res : RawResponse} (hres : res.Nothing) (opens : Bool) (modified : Int) :
    p.closure.path ∈ ((machine env).step s (.reply p.id res opens modified)).missing := by
  obtain ⟨outbox, htake⟩ := h.numbers.take_own hp
  dsimp only [machine]
  rw [htake]
  dsimp only
  unfold finished
  rw [hcurrent, bne_self_eq_false, if_neg Bool.false_ne_true, if_pos hres]
  exact List.mem_cons_self ..

/-! ### Late replies -/

/-- No file is written, nothing is marked as missing, and nothing is announced. -/
def Ignores (s s' : CoverCache) : Prop := s'.disk = s.disk ∧ s'.missing = s.missing ∧ s'.ready = s.ready

/-- The fetches with the first numbers are of epochs gone by. -/
structure Past (created epoch : Nat) (s : CoverCache) : Prop where
  sent : created ≤ s.outbox.created
  gone : epoch < s.epoch
  old : ∀ p ∈ s.outbox.inFlight, p.id < created → p.closure.epoch ≤ epoch

theorem Next.past {created epoch : Nat} (hnext : Next s s' e) (h : Past created epoch s) : Past created epoch s' := by
  cases hnext with
  | sent path id url _ hs' =>
    subst hs'
    refine ⟨Nat.le_succ_of_le h.sent, h.gone, List.forall_mem_cons.mpr ⟨fun hid => ?_, h.old⟩⟩
    exact absurd hid (Nat.not_lt.mpr h.sent)
  | ended htake hepoch houtbox =>
    refine ⟨?_, hepoch ▸ h.gone, fun q hq => h.old q (Outbox.take_rest htake (houtbox ▸ hq))⟩
    rw [houtbox, (Outbox.take_some htake).2.2]
    exact h.sent
  | same hepoch houtbox => exact ⟨houtbox ▸ h.sent, Nat.lt_of_lt_of_le h.gone hepoch, houtbox ▸ h.old⟩

theorem past_keeps (env : CoverEnv) (created epoch : Nat) :
    Machine.Keeps (machine env) (fun _ _ => True) (Past created epoch) :=
  ⟨fun s e hs _ => (step_next env s e).past hs⟩

/-- The fetches that are out when the client is pointed elsewhere. -/
theorem Kept.past (h : s.Kept) (env : CoverEnv) {base : QUrl} (hbase : base ≠ s.server.base) :
    Past s.outbox.created s.epoch ((machine env).step s (.setBaseUrl base)) := by
  dsimp only [machine]
  rw [if_neg hbase.symm]
  exact ⟨Nat.le_refl _, Nat.lt_succ_self _, fun p hp _ => h.epochs p hp⟩

/-- A reply of an epoch gone by only ends its fetch. -/
theorem Past.ignores {created epoch : Nat} (h : Past created epoch s) {id : Nat} (hid : id < created)
    (res : RawResponse) (opens : Bool) (modified : Int) :
    s.Ignores ((machine env).step s (.reply id res opens modified)) := by
  dsimp only [machine]
  cases htake : s.outbox.take id with
  | none => exact ⟨rfl, rfl, rfl⟩
  | some taken =>
    obtain ⟨p, outbox⟩ := taken
    have hold := h.old p (Outbox.take_mem htake) ((Outbox.take_some htake).1 ▸ hid)
    have hstale : p.closure.epoch ≠ s.epoch := Nat.ne_of_lt (Nat.lt_of_le_of_lt hold h.gone)
    dsimp only
    unfold finished
    rw [bne_iff_ne.mpr hstale, if_pos rfl]
    exact ⟨rfl, rfl, rfl⟩

/-- **Covers are never mixed up or fetched twice at once.** Two covers have one file if and
only if they are the same. In every state of every run no two fetches that are out are for one
file, and one is sent only for a file that is not on disk, and not for one that the server had
nothing for, whatever happened since but a cleared cache. After the client has been pointed
elsewhere, and whatever happens then, the reply to a fetch that was out is ignored. -/
theorem covers_kept_apart (env : CoverEnv) (server : Endpoints) (disk : CoverDir) (es : List Event) :
    (∀ a b : CoverKey, CoverKey.Distinguished env a b → (a.diskPath env = b.diskPath env ↔ a = b)) ∧
    let s := (machine env).run {server, disk} es
    s.fetching.Nodup ∧ (∀ e path, s.Starts env e path → path ∉ s.disk.keys ∧ path ∉ s.fetching) ∧
      ∀ p ∈ s.outbox.inFlight, ∀ later,
        (∀ res opens modified, p.closure.epoch = s.epoch → res.Nothing → (∀ e ∈ later, e.clears = false) →
          ∀ e, ¬((machine env).run s (.reply p.id res opens modified :: later)).Starts env e p.closure.path) ∧
        ∀ base ≠ s.server.base, ∀ res opens modified,
          let s' := (machine env).run s (.setBaseUrl base :: later)
          s'.Ignores ((machine env).step s' (.reply p.id res opens modified)) := by
  have hkept := (keeps env).always (kept_start server disk) es
  refine ⟨fun _ _ h => CoverKey.diskPath_inj h, hkept.alone, fun e path hstarts => ?_, fun p hp later => ⟨?_, ?_⟩⟩
  · obtain ⟨hdisk, hout, -⟩ := hstarts.free
    exact ⟨hdisk, fun hmem => hout ((hkept.inFlight path).mpr hmem)⟩
  · intro res opens modified hcurrent hres hlater e hstarts
    have hmarked := hkept.marks env hp hcurrent hres opens modified
    have hstill := (missing_keeps env _).run hmarked (Machine.along_of_mem hlater _)
    exact hstarts.free.2.2 hstill
  · intro base hbase res opens modified
    have hpast := (past_keeps env _ _).always (hkept.past env hbase) later
    exact hpast.ignores (hkept.numbers.past p hp) res opens modified

/-! ### Two servers -/

theorem hex_of_all {id : String} (h : id.toList.all (hexDigits.contains ·) = true) : Hex id := fun c hc =>
  List.contains_iff_mem.mp (List.all_eq_true.mp h c hc)

def homeBase : QUrl := {scheme := "https", host := "a.example"}

def awayBase : QUrl := {scheme := "https", host := "b.example"}

/-- The digests of the two base URLs. -/
def sampleUrls : HashedUrls where
  toString u := u.scheme ++ "://" ++ u.host
  parse t := {scheme := "https", host := String.ofList (t.toList.drop 8)}
  sha1 t :=
    if t = "https://a.example" then "bb9ff501e6525da65263ea91006d4511719e1cce"
    else "52cf6482dd9cea2beb2546c834918175193a7e8b"
  hex t := by
    split <;> exact hex_of_all (by decide +kernel)

/-- The digests of the two covers' texts. -/
def sampleCoverEnv : CoverEnv where
  urls := sampleUrls
  sha256 bytes :=
    if bytes = utf8 "bb9ff501e6525da65263ea91006d4511719e1cce|i|b|400x640|1x2" then
      [48, 9, 87, 118, 23, 30, 15, 174, 240, 67, 230, 216, 202, 140, 48, 1, 98, 62, 205, 169, 140, 40, 152, 171, 34,
        59, 111, 7, 9, 91, 10, 106]
    else
      [40, 228, 30, 185, 226, 250, 30, 7, 87, 68, 180, 215, 45, 0, 106, 29, 89, 97, 50, 70, 229, 212, 46, 150, 214,
        11, 76, 107, 71, 127, 147, 240]
  dir := "/covers"

/-- An id that looks like another cover's id and size. -/
def homeCover : CoverKey := ⟨Endpoints.setBase homeBase, false, "b|400x640", 1, 2⟩

def awayCover : CoverKey := ⟨Endpoints.setBase awayBase, false, "b", 400, 640⟩

theorem sample_distinguished : CoverKey.Distinguished sampleCoverEnv homeCover awayCover where
  reads := by decide +kernel
  sha1 h := absurd h (by decide +kernel)
  sha256 h := absurd h (by decide +kernel)

def asked : CoverCache := (machine sampleCoverEnv).run {server := homeCover.server} [.localUrl homeCover.id 1 2]

def askedFetch : Sent Fetch where
  id := 0
  verb := .get
  target := homeCover.server.cover homeCover.id [("width", "1"), ("height", "2"), ("format", "webp")]
  body := .null
  closure := ⟨homeCover.id, homeCover.diskPath sampleCoverEnv, 0⟩

theorem asked_inFlight : askedFetch ∈ asked.outbox.inFlight := List.mem_singleton.mpr rfl

/-- The server has nothing for a fetch, or its answer comes after the client has been pointed
elsewhere and back. -/
theorem covers_kept_apart_sample :
    homeCover.diskPath sampleCoverEnv ≠ awayCover.diskPath sampleCoverEnv ∧
      (¬((machine sampleCoverEnv).run asked
          [.reply 0 ⟨404, false, []⟩ true 7, .setBaseUrl awayBase, .setBaseUrl homeBase]).Starts sampleCoverEnv
        (.localUrl homeCover.id 1 2) (homeCover.diskPath sampleCoverEnv)) ∧
      let s' := (machine sampleCoverEnv).run asked [.setBaseUrl awayBase, .setBaseUrl homeBase]
      s'.Ignores ((machine sampleCoverEnv).step s' (.reply 0 ⟨200, true, [1]⟩ true 7)) :=
  have h := covers_kept_apart sampleCoverEnv homeCover.server {} [.localUrl homeCover.id 1 2]
  have hnext := h.2.2.2 askedFetch asked_inFlight
  ⟨fun hpath => absurd ((h.1 _ _ sample_distinguished).mp hpath) (by decide),
    (hnext [.setBaseUrl awayBase, .setBaseUrl homeBase]).1 ⟨404, false, []⟩ true 7 rfl (.inl rfl)
      (by simp [Event.clears])
      (.localUrl homeCover.id 1 2),
    (hnext [.setBaseUrl homeBase]).2 awayBase (by decide) ⟨200, true, [1]⟩ true 7⟩

end CoverCache

end ShelfRemote.Storage
