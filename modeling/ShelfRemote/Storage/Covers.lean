import Mathlib.Data.List.Sort
import ShelfRemote.Lib.Eviction
import ShelfRemote.Lib.Tables

/-! The directory of the cover cache, and how it is kept small.

Nothing but `pruneToLimit` bounds the directory. It deletes the files that were written first
until the rest fits; a file that cannot be deleted is passed over. -/
namespace ShelfRemote.Storage
open Eviction Tables

/-- A file of the directory. Its content counts by its size here. -/
structure CoverFile where
  path : String
  size : Nat
  modified : Int
  deriving DecidableEq

abbrev CoverDir := Table CoverFile.path

namespace CoverFile

def Older (f g : CoverFile) : Prop := f.modified ≤ g.modified

instance : DecidableRel Older := fun f g => inferInstanceAs (Decidable (f.modified ≤ g.modified))

instance : Std.Total Older := ⟨fun f g => Int.le_total f.modified g.modified⟩

instance : IsTrans CoverFile Older := ⟨fun _ _ _ hfg hgh => Int.le_trans hfg hgh⟩

end CoverFile

/-- `QDir::entryInfoList` with `QDir::Time | QDir::Reversed`. Which of two files of one time
comes first is left open. -/
structure Listing where
  list : List CoverFile → List CoverFile
  perm : ∀ files, (list files).Perm files
  oldestFirst : ∀ files, (list files).Pairwise CoverFile.Older

instance : Inhabited Listing where
  default :=
    { list := List.insertionSort CoverFile.Older
      perm := List.perm_insertionSort CoverFile.Older
      oldestFirst := List.pairwise_insertionSort CoverFile.Older }

namespace CoverDir

def bytes (files : List CoverFile) : Int := total (fun f => f.size) files

def cacheSizeBytes (disk : CoverDir) : Int := bytes disk.rows

end CoverDir

/-- The loop of `pruneToLimit` under way: the files there are, the size counted of them, and,
as history, the files deleted. -/
structure Pruning where
  disk : CoverDir
  total : Int
  deleted : List CoverFile := []

namespace Pruning

/-- `QFile::remove`, which may fail. -/
def remove (removable : String → Bool) (p : Pruning) (fi : CoverFile) : Pruning :=
  if removable fi.path then
    { disk := p.disk.deleteWhere (·.path == fi.path)
      total := p.total - fi.size
      deleted := p.deleted ++ [fi] }
  else p

def loop (removable : String → Bool) (maxBytes : Int) (p : Pruning) : List CoverFile → Pruning
  | [] => p
  | fi :: files => if p.total ≤ maxBytes then p else loop removable maxBytes (p.remove removable fi) files

end Pruning

def pruneToLimit (dir : Listing) (removable : String → Bool) (disk : CoverDir) (maxBytes : Int) : Pruning :=
  if maxBytes < 0 then {disk, total := disk.cacheSizeBytes}
  else
    let files := dir.list disk.rows
    Pruning.loop removable maxBytes {disk, total := CoverDir.bytes files} files

/-! ### What is deleted -/

namespace Pruning
variable {removable : String → Bool} {maxBytes : Int}

/-- The walk that the loop takes over the files. -/
abbrev walk (removable : String → Bool) (maxBytes running : Int) (files : List CoverFile) : Outcome CoverFile :=
  Eviction.walk (fun f => f.size) (fun f => removable f.path) maxBytes running files

theorem loop_deleted (p : Pruning) (files : List CoverFile) :
    (p.loop removable maxBytes files).deleted = p.deleted ++ (walk removable maxBytes p.total files).evicted := by
  induction files generalizing p with
  | nil => exact (List.append_nil _).symm
  | cons fi files ih =>
    unfold loop walk Eviction.walk
    split_ifs with hfits hremovable
    · exact (List.append_nil _).symm
    · rw [ih, remove, if_pos hremovable]
      exact List.append_assoc ..
    · rw [ih, remove, if_neg hremovable]

theorem loop_rows (p : Pruning) (files : List CoverFile) :
    (p.loop removable maxBytes files).disk.rows =
      p.disk.rows.filter fun f => f.path ∉ (walk removable maxBytes p.total files).evicted.map (·.path) := by
  induction files generalizing p with
  | nil => simp [loop, walk, Eviction.walk]
  | cons fi files ih =>
    unfold loop walk Eviction.walk
    split_ifs with hfits hremovable
    · simp
    · rw [ih, remove, if_pos hremovable]
      simp only [Table.deleteWhere, List.filter_filter, List.map_cons, List.mem_cons, not_or]
      refine List.filter_congr fun f _ => ?_
      by_cases h : f.path = fi.path <;> simp [h]
    · rw [ih, remove, if_neg hremovable]

end Pruning

/-- Files of different paths: without those that go, those that stay are there. -/
theorem filter_perm {rows gone stay : List CoverFile} (hrows : (rows.map (·.path)).Nodup)
    (h : (gone ++ stay).Perm rows) : (rows.filter fun f => f.path ∉ gone.map (·.path)).Perm stay := by
  have hnodup : ((gone ++ stay).map (·.path)).Nodup := (h.map _).nodup_iff.mpr hrows
  rw [List.map_append, List.nodup_append] at hnodup
  refine (h.symm.filter _).trans ?_
  rw [List.filter_append, List.filter_eq_nil_iff.mpr, List.filter_eq_self.mpr, List.nil_append]
  · intro f hf
    exact decide_eq_true fun hgone => hnodup.2.2 _ hgone _ (List.mem_map_of_mem hf) rfl
  · intro f hf
    exact fun hstays => of_decide_eq_true hstays (List.mem_map_of_mem hf)

/-- **Eviction is oldest first and minimal**, whatever the files and whichever of them cannot
be deleted: no file that can be is kept while a newer one goes, without any one of the
deletions the rest would not fit, and in the end it fits or there is nothing to delete. -/
theorem prune_oldest_first (dir : Listing) (removable : String → Bool) (disk : CoverDir) (maxBytes : Int)
    (hlimit : 0 ≤ maxBytes) :
    let after := pruneToLimit dir removable disk maxBytes
    Evicts (fun f => f.size) (fun f => removable f.path) CoverFile.Older maxBytes disk.rows
      ⟨after.deleted, after.disk.rows⟩ := by
  have hfiles := dir.perm disk.rows
  have hwalk : Evicts _ _ _ maxBytes _
      (Pruning.walk removable maxBytes (CoverDir.bytes (dir.list disk.rows)) (dir.list disk.rows)) :=
    walk_evicts (dir.oldestFirst disk.rows)
  unfold pruneToLimit
  rw [if_neg (Int.not_lt.mpr hlimit)]
  dsimp only
  rw [Pruning.loop_deleted, Pruning.loop_rows, List.nil_append]
  exact (hwalk.of_perm hfiles).keep (filter_perm disk.unique (hwalk.perm.trans hfiles)).symm

/-- Four covers, of which the newest is empty. -/
def sampleCovers : CoverDir where
  rows := [⟨"b.webp", 700, 20⟩, ⟨"d.webp", 0, 40⟩, ⟨"a.webp", 500, 10⟩, ⟨"c.webp", 300, 30⟩]
  unique := by decide

/-- The oldest cover cannot be deleted; without the second the rest fits exactly. -/
theorem prune_oldest_first_sample :
    let after := pruneToLimit default (· != "a.webp") sampleCovers 800
    (after.deleted.map (·.path) = ["b.webp"] ∧ after.disk.cacheSizeBytes = 800) ∧
      Evicts (fun f => f.size) (fun f => f.path != "a.webp") CoverFile.Older 800 sampleCovers.rows
        ⟨after.deleted, after.disk.rows⟩ :=
  ⟨by decide +kernel, prune_oldest_first default (· != "a.webp") sampleCovers 800 (by decide)⟩

end ShelfRemote.Storage
