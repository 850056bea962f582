import Xerv.Lib.BufferedFile

/-!
# A directory without some of its files

A directory that has lost files nobody writes to any more goes on like the whole one: a writer on a file that is
kept does the same to both.
-/

namespace Xerv.Lib

/-- `d'` has the files of `d` that are kept, and no others. -/
structure Trimmed (keep : String → Prop) (d d' : FileDir) : Prop where
  kept : ∀ n, keep n → d'.get n = d.get n
  gone : ∀ n, ¬ keep n → d'.get n = none

section Trimmed
variable {keep : String → Prop} {d d' : FileDir} {path : String}

theorem trimmed_self (h : ∀ n ∈ d, keep n) : Trimmed keep d d where
  kept _ _ := rfl
  gone n hn := (Directory.get_eq_none _ _).mpr fun hmem => hn (h n hmem)

theorem Trimmed.keep_of_mem (h : Trimmed keep d d') {n : String} (hn : n ∈ d') : keep n := by
  by_contra hgone
  exact (Directory.get_eq_none d' n).mp (h.gone n hgone) hn

theorem Trimmed.mem_iff (h : Trimmed keep d d') (n : String) : n ∈ d' ↔ keep n ∧ n ∈ d := by
  constructor
  · intro hn
    have hkeep := h.keep_of_mem hn
    rw [← Directory.get_isSome, h.kept n hkeep, Directory.get_isSome] at hn
    exact ⟨hkeep, hn⟩
  · intro ⟨hkeep, hn⟩
    rw [← Directory.get_isSome, h.kept n hkeep, Directory.get_isSome]
    exact hn

theorem Trimmed.change (h : Trimmed keep d d') {e e' : FileDir} (hpath : keep path) (hsame : e'.get path = e.get path)
    (hd : ∀ n, n ≠ path → e.get n = d.get n) (hd' : ∀ n, n ≠ path → e'.get n = d'.get n) : Trimmed keep e e' := by
  constructor
  · intro n hn
    by_cases hne : n = path
    · rw [hne, hsame]
    · rw [hd n hne, hd' n hne, h.kept n hn]
  · intro n hn
    have hne : n ≠ path := fun he => hn (he ▸ hpath)
    rw [hd' n hne, h.gone n hn]

theorem Trimmed.modifyFile (h : Trimmed keep d d') (hpath : keep path) (f : DiskFile → DiskFile) :
    Trimmed keep (modifyFile d path f) (modifyFile d' path f) := by
  refine h.change hpath ?_ (fun n hn => modifyFile_other d path n f hn) fun n hn => modifyFile_other d' path n f hn
  rw [modifyFile_self, modifyFile_self, h.kept path hpath]

theorem Trimmed.openAppend (h : Trimmed keep d d') (hpath : keep path) :
    Trimmed keep (openAppend d path) (openAppend d' path) := by
  refine h.change hpath ?_ (fun n hn => openAppend_other d path n hn) fun n hn => openAppend_other d' path n hn
  rw [openAppend_self, openAppend_self, h.kept path hpath]

theorem Trimmed.erase (h : Trimmed keep d d') (path : String) :
    Trimmed (fun n => keep n ∧ n ≠ path) d (d'.erase path) := by
  constructor
  · intro n hn
    rw [Directory.get_erase_ne d' path n hn.2, h.kept n hn.1]
  · intro n hn
    by_cases hne : n = path
    · rw [hne, Directory.get_erase_self]
    · rw [Directory.get_erase_ne d' path n hne]
      exact h.gone n fun hkeep => hn ⟨hkeep, hne⟩

theorem Trimmed.congr (h : Trimmed keep d d') {keep' : String → Prop} (hkeep : ∀ n, keep' n ↔ keep n) :
    Trimmed keep' d d' where
  kept n hn := h.kept n ((hkeep n).mp hn)
  gone n hn := h.gone n fun hk => hn ((hkeep n).mpr hk)

theorem Trimmed.eraseAll (h : Trimmed keep d d') (paths : List String) :
    Trimmed (fun n => keep n ∧ n ∉ paths) d (paths.foldl (fun d n => d.erase n) d') := by
  induction paths generalizing keep d' with
  | nil => exact h.congr fun n => by simp
  | cons path paths ih => exact (ih (h.erase path)).congr fun n => by simp [and_assoc]

end Trimmed

/-! ### Writers -/

section Writers
variable {keep : String → Prop}

/-- One writer on both directories, on a file that is kept. -/
structure SameWriter (keep : String → Prop) (s s' : BufWriter.OnDisk) : Prop where
  writer : s'.1 = s.1
  path : keep s.1.path
  files : Trimmed keep s.2 s'.2

variable {s s' : BufWriter.OnDisk}

theorem SameWriter.modify (h : SameWriter keep s s') (writer : BufWriter) (hpath : writer.path = s.1.path)
    (f : DiskFile → DiskFile) :
    SameWriter keep (writer, modifyFile s.2 s.1.path f) (writer, modifyFile s'.2 s.1.path f) :=
  ⟨rfl, hpath ▸ h.path, h.files.modifyFile h.path f⟩

theorem SameWriter.flush (h : SameWriter keep s s') : SameWriter keep (BufWriter.flush s) (BufWriter.flush s') := by
  have hmod := h.modify { s.1 with buf := [] } rfl fun f => { f with data := f.data ++ s.1.buf }
  unfold BufWriter.flush
  rw [h.writer]
  exact hmod

theorem SameWriter.syncData (h : SameWriter keep s s') :
    SameWriter keep (BufWriter.syncData s) (BufWriter.syncData s') := by
  have hmod := h.modify s.1 rfl fun f => { f with synced := f.data.length }
  unfold BufWriter.syncData
  rw [h.writer]
  exact hmod

theorem SameWriter.buffer (h : SameWriter keep s s') (bytes : Bytes) :
    SameWriter keep (BufWriter.buffer s bytes) (BufWriter.buffer s' bytes) := by
  unfold BufWriter.buffer
  rw [h.writer]
  exact ⟨rfl, h.path, h.files⟩

theorem SameWriter.direct (h : SameWriter keep s s') (bytes : Bytes) :
    SameWriter keep (BufWriter.direct s bytes) (BufWriter.direct s' bytes) := by
  have hmod := h.modify s.1 rfl fun f => { f with data := f.data ++ bytes }
  unfold BufWriter.direct
  rw [h.writer]
  exact hmod

theorem SameWriter.writeAll (h : SameWriter keep s s') (bytes : Bytes) :
    SameWriter keep (BufWriter.writeAll s bytes) (BufWriter.writeAll s' bytes) := by
  have hroom : SameWriter keep (if s.1.capacity - s.1.buf.length < bytes.length then BufWriter.flush s else s)
      (if s.1.capacity - s.1.buf.length < bytes.length then BufWriter.flush s' else s') := by
    split
    · exact h.flush
    · exact h
  unfold BufWriter.writeAll
  simp only [h.writer]
  generalize ite (_ < bytes.length) (BufWriter.flush s) s = t at *
  generalize ite (_ < bytes.length) (BufWriter.flush s') s' = t' at *
  split
  · exact h.buffer bytes
  · rw [hroom.writer]
    split
    · exact hroom.direct bytes
    · exact hroom.buffer bytes

end Writers

end Xerv.Lib
