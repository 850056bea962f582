import Xerv.Lib.BufferedFile

/-!
# A file that is replaced by renaming

New contents are written to a temporary file, which is fsynced and then renamed over the old file. The
directory itself is not fsynced: until the system has written it, a power loss may bring back what was under
the name before the rename. A power loss also cuts a file to some length not below what was fsynced.
-/

namespace Xerv.Lib

/-- Where a replacement stops, by an error or since the process ends. -/
inductive ReplaceStop where
  | opening
  | writing (written : ℕ)
  | syncing
  | renaming
  deriving DecidableEq

structure ReplacedFile where
  target : Option DiskFile
  temp : Option DiskFile
  -- what a power loss may leave under the name
  possible : List (Option DiskFile)

namespace ReplacedFile
variable (f : ReplacedFile)

def fresh : ReplacedFile := ⟨none, none, [none]⟩

/-- `create(true).write(true).truncate(true)` -/
def openTemp : ReplacedFile := { f with temp := some .empty }

def writeTemp (data : Bytes) : ReplacedFile :=
  { f with temp := f.temp.map fun file => { file with data := file.data ++ data } }

/-- `sync_all` -/
def syncTemp : ReplacedFile :=
  { f with temp := f.temp.map fun file => { file with synced := file.data.length } }

/-- `rename` of the temporary file over the target. -/
def rename : ReplacedFile :=
  match f.temp with
  | none => f
  | some file => ⟨some file, none, f.possible ++ [some file]⟩

def replace (data : Bytes) : Option ReplaceStop → ReplacedFile
  | some .opening => f
  | some (.writing written) => f.openTemp.writeTemp (data.take written)
  | some .syncing => f.openTemp.writeTemp data
  | some .renaming => (f.openTemp.writeTemp data).syncTemp
  | none => (f.openTemp.writeTemp data).syncTemp.rename

/-- The system writes the directory. -/
def settle : ReplacedFile := { f with possible := [f.target] }

end ReplacedFile

/-- Of the bytes that were not fsynced a beginning may be left. -/
def DiskFile.cut (file : DiskFile) (left : ℕ) : DiskFile :=
  { file with data := file.data.take (max file.synced left) }

def DiskFile.Synced (file : DiskFile) : Prop := file.data.length ≤ file.synced

namespace ReplacedFile

def powerLoss (f : ReplacedFile) (pick left : ℕ) : ReplacedFile :=
  let target := (f.possible[pick]?.getD f.target).map fun file => file.cut left
  ⟨target, f.temp.map fun file => file.cut left, [target]⟩

/-- Everything that can be under the name has been fsynced. -/
structure Intact (f : ReplacedFile) : Prop where
  synced : ∀ file, some file ∈ f.possible → file.Synced
  current : f.target ∈ f.possible

end ReplacedFile

theorem DiskFile.Synced.cut {file : DiskFile} (h : file.Synced) (left : ℕ) : file.cut left = file := by
  have hlength : file.data.length ≤ max file.synced left := le_trans h (le_max_left _ _)
  rw [DiskFile.cut, List.take_of_length_le hlength]

namespace ReplacedFile
variable {f : ReplacedFile}

def written (data : Bytes) : DiskFile := ⟨data, data.length⟩

theorem replace_none (f : ReplacedFile) (data : Bytes) :
    f.replace data none = ⟨some (written data), none, f.possible ++ [some (written data)]⟩ := rfl

theorem replace_some (f : ReplacedFile) (data : Bytes) (stop : ReplaceStop) :
    (f.replace data (some stop)).target = f.target ∧ (f.replace data (some stop)).possible = f.possible := by
  cases stop <;> exact ⟨rfl, rfl⟩

theorem Intact.replace (h : f.Intact) (data : Bytes) (stop : Option ReplaceStop) : (f.replace data stop).Intact := by
  cases stop with
  | some stop =>
    obtain ⟨htarget, hpossible⟩ := replace_some f data stop
    refine ⟨?_, ?_⟩
    · rw [hpossible]
      exact h.synced
    · rw [htarget, hpossible]
      exact h.current
  | none =>
    rw [replace_none]
    refine ⟨fun file hfile => ?_, by simp⟩
    rcases List.mem_append.mp hfile with hold | hnew
    · exact h.synced file hold
    · obtain rfl := Option.some.inj (List.mem_singleton.mp hnew)
      exact le_refl data.length

theorem Intact.settle (h : f.Intact) : f.settle.Intact := by
  refine ⟨fun file hfile => h.synced file ?_, List.mem_singleton_self _⟩
  rw [List.mem_singleton.mp hfile]
  exact h.current

theorem Intact.powerLoss (h : f.Intact) (pick left : ℕ) :
    ∃ target ∈ f.possible, (f.powerLoss pick left).target = target ∧ (f.powerLoss pick left).possible = [target] ∧
      (f.powerLoss pick left).Intact := by
  have hmem : f.possible[pick]?.getD f.target ∈ f.possible := by
    cases hpick : f.possible[pick]? with
    | none => exact h.current
    | some target => exact List.mem_of_getElem? hpick
  have hcut : (f.possible[pick]?.getD f.target).map (fun file => file.cut left) =
      f.possible[pick]?.getD f.target := by
    cases htarget : f.possible[pick]?.getD f.target with
    | none => rfl
    | some file => rw [Option.map_some, (h.synced file (htarget ▸ hmem)).cut left]
  refine ⟨_, hmem, hcut, by rw [ReplacedFile.powerLoss, hcut], ?_, ?_⟩
  · intro file hfile
    rw [ReplacedFile.powerLoss, hcut, List.mem_singleton] at hfile
    exact h.synced file (hfile ▸ hmem)
  · exact List.mem_singleton_self _

theorem intact_fresh : fresh.Intact := by
  refine ⟨fun file hfile => ?_, List.mem_singleton_self _⟩
  cases List.mem_singleton.mp hfile

end ReplacedFile
end Xerv.Lib
