import ShelfRemote.Player.PlaybackSession
import ShelfRemote.Qt.ByteArray

/-! The session on the desktop's bus.

A controller reads the track's id with the metadata, and sends it back with a position. The
id is an object path, so the ids the server chose are written in hexadecimal digits into its
last element. `track_ids` says that the path is legal, and that it is the path of no other
item or episode. -/
namespace ShelfRemote.Player
open Qt

/-! ### Object paths -/

def elementChar (c : Char) : Bool := c.isAlphanum || c == '_'

/-- A slash, and elements between slashes: none is empty, and there is nothing in them but
letters, digits and underscores. -/
def LegalPath (path : List Char) : Prop :=
  path.head? = some '/' ∧ ∀ e ∈ path.tail.splitOn '/', e ≠ [] ∧ e.all elementChar = true

instance : DecidablePred LegalPath := fun _ => inferInstanceAs (Decidable (_ ∧ _))

/-- `QDBusObjectPath`: an illegal path is discarded. -/
def objectPath (path : String) : String := if path = "/" ∨ LegalPath path.toList then path else ""

/-! ### The adaptor -/

/-- `AppConfig::appId`. -/
def appId : String := "com.jw6ventures.ShelfRemote"

def appPath : String := String.ofList (appId.toList.map fun c => if c = '.' then '/' else c)

def pathElement (id : String) : String := String.ofList (toHex (utf8 id))

def trackElement (itemId episodeId : String) : String :=
  let track := if itemId = "" then "none" else "i" ++ pathElement itemId
  if episodeId = "" then track else track ++ ("_e" ++ pathElement episodeId)

def trackObjectPath (s : PlaybackSession) : String :=
  "/" ++ appPath ++ "/track/" ++ trackElement s.itemId s.episodeId

structure Metadata where
  trackId : String
  length : Int
  title : String
  artist : List String

/-- Times are in microseconds. -/
def metadata (s : PlaybackSession) : Metadata :=
  { trackId := objectPath (trackObjectPath s)
    length := (s.duration * 1000000).num.tdiv (s.duration * 1000000).den
    title := s.title
    artist := [s.author] }

/-- A position for another track, or outside this one, is ignored. -/
def setPosition (s : PlaybackSession) (trackId : String) (positionMicroseconds : Int) : PlaybackSession :=
  if !s.active || trackId != trackObjectPath s then s
  else
    let seconds : Rat := positionMicroseconds / 1000000
    if seconds < 0 ∨ s.duration < seconds then s else s.seekGlobal seconds

/-! ### Legal -/

theorem all_elementChar {l : List Char} (h : l.all Char.isAlphanum = true) : l.all elementChar = true :=
  List.all_eq_true.mpr fun c hc => by simp [elementChar, List.all_eq_true.mp h c hc]

theorem not_mem_of_alphanum {l : List Char} {c : Char} (h : l.all Char.isAlphanum = true)
    (hc : c.isAlphanum = false) : c ∉ l := fun hmem =>
  absurd (List.all_eq_true.mp h c hmem) (by simp [hc])

theorem pathElement_toList (id : String) : (pathElement id).toList = toHex (utf8 id) := String.toList_ofList

/-- What stands for the item in the element. -/
def itemPart (itemId : String) : List Char := if itemId = "" then "none".toList else 'i' :: toHex (utf8 itemId)

theorem itemPart_alphanum (itemId : String) : (itemPart itemId).all Char.isAlphanum = true := by
  unfold itemPart
  split
  · decide
  · rw [List.all_cons, toHex_alphanum]
    decide

theorem trackElement_toList (itemId episodeId : String) :
    (trackElement itemId episodeId).toList =
      itemPart itemId ++ if episodeId = "" then [] else '_' :: 'e' :: toHex (utf8 episodeId) := by
  have hitem : (if itemId = "" then "none" else "i" ++ pathElement itemId).toList = itemPart itemId := by
    unfold itemPart
    split
    · rfl
    · rw [String.toList_append, pathElement_toList]
      rfl
  unfold trackElement
  dsimp only
  split
  · rw [hitem, List.append_nil]
  · rw [String.toList_append, hitem, String.toList_append, pathElement_toList]
    rfl

theorem itemPart_ne_nil (itemId : String) : itemPart itemId ≠ [] := by
  unfold itemPart
  split <;> simp

theorem trackElement_legal (itemId episodeId : String) :
    (trackElement itemId episodeId).toList ≠ [] ∧ (trackElement itemId episodeId).toList.all elementChar = true := by
  rw [trackElement_toList]
  refine ⟨fun h => itemPart_ne_nil itemId (List.append_eq_nil_iff.mp h).1, ?_⟩
  rw [List.all_append, all_elementChar (itemPart_alphanum itemId), Bool.true_and]
  split
  · rfl
  · rw [List.all_cons, List.all_cons, all_elementChar (toHex_alphanum _)]
    decide

theorem trackObjectPath_toList (s : PlaybackSession) :
    (trackObjectPath s).toList =
      '/' :: ("com/jw6ventures/ShelfRemote/track".toList ++ '/' :: (trackElement s.itemId s.episodeId).toList) := by
  unfold trackObjectPath
  rw [String.toList_append]
  rfl

theorem trackObjectPath_legal (s : PlaybackSession) : LegalPath (trackObjectPath s).toList := by
  obtain ⟨hne, hall⟩ := trackElement_legal s.itemId s.episodeId
  have hslash : '/' ∉ (trackElement s.itemId s.episodeId).toList := fun hmem =>
    absurd (List.all_eq_true.mp hall _ hmem) (by decide)
  rw [trackObjectPath_toList]
  refine ⟨rfl, fun e he => ?_⟩
  have hlast : (trackElement s.itemId s.episodeId).toList.splitOnP (· == '/') = [_] :=
    List.splitOnP_eq_singleton fun c hc => beq_eq_false_iff_ne.mpr fun h => hslash (h ▸ hc)
  rw [List.tail_cons, List.splitOn_eq_splitOnP, List.splitOnP_append_cons _ _ (by decide), hlast,
    List.mem_append, List.mem_singleton] at he
  rcases he with hfixed | rfl
  · have hall : ("com/jw6ventures/ShelfRemote/track".toList.splitOnP (· == '/')).all
        (fun e => !e.isEmpty && e.all elementChar) = true := by
      decide +kernel
    simpa using List.all_eq_true.mp hall e hfixed
  · exact ⟨hne, hall⟩

/-- So nothing is discarded of the id that is sent. -/
theorem metadata_trackId (s : PlaybackSession) : (metadata s).trackId = trackObjectPath s :=
  if_pos (.inr (trackObjectPath_legal s))

/-! ### One path for each track -/

theorem utf8_toHex_inj {id id' : String} (h : toHex (utf8 id) = toHex (utf8 id')) : id = id' :=
  utf8_injective (toHex_injective h)

/-- The placeholder starts as no id does. -/
theorem itemPart_inj {itemId itemId' : String} (h : itemPart itemId = itemPart itemId') : itemId = itemId' := by
  unfold itemPart at h
  split at h <;> split at h
  · next hitem hitem' => rw [hitem, hitem']
  · simp at h
  · simp at h
  · exact utf8_toHex_inj (List.cons.inj h).2

theorem itemPart_underscore (itemId : String) : '_' ∉ itemPart itemId :=
  not_mem_of_alphanum (itemPart_alphanum itemId) (by decide)

/-- The element is read from the front: the item ends at the underscore, if there is one. -/
theorem trackElement_inj {itemId itemId' episodeId episodeId' : String}
    (h : trackElement itemId episodeId = trackElement itemId' episodeId') :
    itemId = itemId' ∧ episodeId = episodeId' := by
  have hlist := congrArg String.toList h
  rw [trackElement_toList, trackElement_toList] at hlist
  split at hlist <;> split at hlist
  · next hepisode hepisode' =>
    rw [List.append_nil, List.append_nil] at hlist
    exact ⟨itemPart_inj hlist, hepisode.trans hepisode'.symm⟩
  · refine absurd ?_ (itemPart_underscore itemId)
    rw [List.append_nil] at hlist
    exact hlist ▸ List.mem_append_right _ (List.mem_cons_self ..)
  · refine absurd ?_ (itemPart_underscore itemId')
    rw [List.append_nil] at hlist
    exact hlist ▸ List.mem_append_right _ (List.mem_cons_self ..)
  · obtain ⟨hitem, hepisode⟩ := front_inj (itemPart_underscore itemId) (itemPart_underscore itemId') hlist
    exact ⟨itemPart_inj hitem, utf8_toHex_inj (List.cons.inj hepisode).2⟩

theorem trackObjectPath_inj {s s' : PlaybackSession} :
    trackObjectPath s = trackObjectPath s' ↔ s.itemId = s'.itemId ∧ s.episodeId = s'.episodeId := by
  constructor
  · intro h
    have hlist := congrArg String.toList h
    rw [trackObjectPath_toList, trackObjectPath_toList] at hlist
    have htrack := List.append_cancel_left (List.cons.inj hlist).2
    exact trackElement_inj (String.toList_inj.mp (List.cons.inj htrack).2)
  · rintro ⟨hitem, hepisode⟩
    unfold trackObjectPath
    rw [hitem, hepisode]

theorem setPosition_eq (s : PlaybackSession) (trackId : String) (positionMicroseconds : Int) :
    let seconds : Rat := positionMicroseconds / 1000000
    setPosition s trackId positionMicroseconds =
      if s.active = true ∧ trackId = trackObjectPath s ∧ (0 ≤ seconds ∧ seconds ≤ s.duration) then
        s.seekGlobal seconds
      else s := by
  dsimp only
  unfold setPosition
  by_cases hactive : s.active = true
  · by_cases htrack : trackId = trackObjectPath s
    · simp [hactive, htrack, ← not_lt, ← not_or, ite_not]
    · simp [hactive, htrack]
  · simp [hactive]

/-- **Track ids are valid and unambiguous**: the id of a session is a legal path, and two
sessions have the same one if and only if they are of the same item and episode. With the id
that was read of one session a position is set in another one only where both are the same. -/
theorem track_ids (s s' : PlaybackSession) (positionMicroseconds : Int) :
    LegalPath (trackObjectPath s).toList ∧
    (trackObjectPath s = trackObjectPath s' ↔ s.itemId = s'.itemId ∧ s.episodeId = s'.episodeId) ∧
    let seconds : Rat := positionMicroseconds / 1000000
    setPosition s' (metadata s).trackId positionMicroseconds =
      if s'.active = true ∧ (s.itemId = s'.itemId ∧ s.episodeId = s'.episodeId) ∧
          (0 ≤ seconds ∧ seconds ≤ s'.duration) then s'.seekGlobal seconds
      else s' := by
  refine ⟨trackObjectPath_legal s, trackObjectPath_inj, ?_⟩
  simp only [setPosition_eq, metadata_trackId, trackObjectPath_inj]

example : trackElement "" "" = "none" ∧ trackElement "none" "" = "i6e6f6e65" ∧ trackElement "" "e" = "none_e65" := by
  decide +kernel

end ShelfRemote.Player
