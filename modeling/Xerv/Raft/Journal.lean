import Xerv.Raft.Fallible

/-!
# Appending and loading, file by file

The storage as a set of files, without an order of the segments and for indices
of any size: every file and what is buffered for it is a list of whole lines, and
the lines of all files together are the entries appended so far. What is loaded
from such files does not depend on the order in which they are listed, as long as
no index has two entries.
-/

namespace Xerv.Raft
open Xerv.Lib

def contents (d : FileDir) (name : String) : Bytes := ((d.get name).map DiskFile.data).getD []

/-- No two entries with the same index. -/
def OnePerIndex {P : Type} (es : List (ClusterEntry P)) : Prop :=
  ∀ x ∈ es, ∀ y ∈ es, x.index = y.index → x = y

section Journal
variable {P : Type} (codec : EntryCodec P)

def buffered (s : LogStorage P) (name : String) : Bytes :=
  match s.active with
  | some x => if x.writer.path = name then x.writer.buf else []
  | none => []

structure Journal (s : LogStorage P) (lines : String → List (ClusterEntry P))
    (done : List (ClusterEntry P)) : Prop where
  names : ∀ n ∈ s.segments, ∃ first, n = segmentFilename first
  writer : ∀ x, s.active = some x →
    x.writer.path ∈ s.segments ∧ x.writer.buf.length ≤ x.writer.capacity
  file : ∀ n, contents s.segments n ++ buffered s n = encodeEntries codec (lines n)
  entries : ∀ e, e ∈ done ↔ ∃ n, e ∈ lines n

variable {codec} {s : LogStorage P} {lines : String → List (ClusterEntry P)}
  {done : List (ClusterEntry P)}

theorem buffered_idle (h : Idle s) (name : String) : buffered s name = [] := by
  unfold buffered
  cases hs : s.active with
  | none => rfl
  | some x =>
    dsimp only
    split_ifs with hpath
    · exact h x hs
    · rfl

theorem contents_openAppend (d : FileDir) (path name : String) :
    contents (openAppend d path) name = contents d name := by
  unfold contents
  by_cases hn : name = path
  · subst hn
    rw [openAppend_self]
    cases d.get name with
    | none => rfl
    | some f => rfl
  · rw [openAppend_other d path name hn]

theorem accepted_extends {s' : LogStorage P} {x x' : ActiveSegment} {disk : BufWriter.OnDisk}
    {bytes : Bytes} (hx : s.active = some x) (hmem : x.writer.path ∈ s.segments)
    (hext : BufWriter.Extends (x.writer, s.segments) disk bytes) (hsegments : s'.segments = disk.2)
    (hx' : s'.active = some x') (hwriter : x'.writer = disk.1) (n : String) :
    contents s'.segments n ++ buffered s' n =
      contents s.segments n ++ buffered s n ++ if n = x.writer.path then bytes else [] := by
  have hbuf : buffered s n = if x.writer.path = n then x.writer.buf else [] := by
    simp [buffered, hx]
  have hbuf' : buffered s' n = if x.writer.path = n then disk.1.buf else [] := by
    simp [buffered, hx', hwriter, hext.path]
  rw [hbuf, hbuf', hsegments]
  by_cases hn : n = x.writer.path
  · subst hn
    obtain ⟨f, hf⟩ := Option.isSome_iff_exists.mp ((Directory.get_isSome _ _).mpr hmem)
    obtain ⟨f', hf', hdata⟩ := hext.holds _ ⟨f, hf, rfl⟩
    rw [hext.path] at hf'
    simp only [contents, hf, hf', Option.map_some, Option.getD_some, if_true]
    exact hdata
  · have hne : x.writer.path ≠ n := fun he => hn he.symm
    rw [if_neg hne, if_neg hne, if_neg hn, contents, contents, hext.others n hn]
    simp

theorem Journal.extend {s' : LogStorage P} {x x' : ActiveSegment} {disk : BufWriter.OnDisk}
    (h : Journal codec s lines done) (es : List (ClusterEntry P)) (hx : s.active = some x)
    (hext : BufWriter.Extends (x.writer, s.segments) disk (encodeEntries codec es))
    (hcap : disk.1.buf.length ≤ disk.1.capacity) (hsegments : s'.segments = disk.2)
    (hx' : s'.active = some x') (hwriter : x'.writer = disk.1) :
    Journal codec s' (fun n => if n = x.writer.path then lines n ++ es else lines n) (done ++ es) := by
  have hmem := (h.writer x hx).1
  refine ⟨?_, ?_, ?_, ?_⟩
  · intro n hn
    rw [hsegments] at hn
    exact h.names n ((hext.names n).mp hn)
  · intro y hy
    rw [hx'] at hy
    cases hy
    rw [hwriter, hsegments, hext.path, hext.names]
    exact ⟨hmem, hcap⟩
  · intro n
    rw [accepted_extends hx hmem hext hsegments hx' hwriter n, h.file n]
    split_ifs with hn
    · exact (encodeEntries_append codec _ _).symm
    · exact List.append_nil _
  · intro e
    rw [List.mem_append, h.entries e]
    constructor
    · rintro (⟨n, hn⟩ | he)
      · refine ⟨n, ?_⟩
        split_ifs with hpath
        · exact List.mem_append_left _ hn
        · exact hn
      · refine ⟨x.writer.path, ?_⟩
        rw [if_pos rfl]
        exact List.mem_append_right _ he
    · rintro ⟨n, hn⟩
      split_ifs at hn with hpath
      · rcases List.mem_append.mp hn with hn | hn
        · exact .inl ⟨n, hn⟩
        · exact .inr hn
      · exact .inl ⟨n, hn⟩

theorem Journal.startNewSegment (h : Journal codec s lines done) (hidle : Idle s) (index : ℕ) :
    Journal codec (s.startNewSegment index) lines done := by
  have hidle' : Idle (s.startNewSegment index) := by
    intro x hx
    cases hx
    rfl
  refine ⟨?_, ?_, ?_, h.entries⟩
  · intro n hn
    rcases (mem_openAppend _ _ _).mp hn with hn | hn
    · exact ⟨_, hn⟩
    · exact h.names n hn
  · intro x hx
    cases hx
    exact ⟨(mem_openAppend _ _ _).mpr (.inl rfl), Nat.zero_le _⟩
  · intro n
    rw [buffered_idle hidle', ← h.file n, buffered_idle hidle]
    show contents (openAppend s.segments _) n ++ [] = _
    rw [contents_openAppend]

theorem Journal.flushActive (h : Journal codec s lines done) :
    ∃ lines', Journal codec s.flushActive lines' done := by
  cases hs : s.active with
  | none =>
    rw [flushActive_of_none s hs]
    exact ⟨lines, h⟩
  | some x =>
    have hext : BufWriter.Extends (x.writer, s.segments)
        (BufWriter.syncData (BufWriter.flush (x.writer, s.segments))) (encodeEntries codec []) :=
      (BufWriter.flush_extends _).trans (BufWriter.syncData_extends _)
    have hsegments : s.flushActive.segments =
        (BufWriter.syncData (BufWriter.flush (x.writer, s.segments))).2 := by
      unfold LogStorage.flushActive
      rw [hs]
    have hactive : s.flushActive.active = some { x with
        writer := (BufWriter.syncData (BufWriter.flush (x.writer, s.segments))).1 } := by
      unfold LogStorage.flushActive
      rw [hs]
    have hsame := h.extend [] hs hext (Nat.zero_le _) hsegments hactive rfl
    rw [List.append_nil] at hsame
    exact ⟨_, hsame⟩

theorem Journal.ensureActive (h : Journal codec s lines done) (index : ℕ) :
    ∃ lines', Journal codec (s.ensureActive index) lines' done := by
  unfold LogStorage.ensureActive
  cases hs : s.active with
  | none =>
    have hidle : Idle s := fun x hx => by
      rw [hs] at hx
      cases hx
    exact ⟨lines, h.startNewSegment hidle index⟩
  | some x =>
    simp only [hs, Option.isNone_some, Bool.false_eq_true, if_false]
    split_ifs with hfull
    · obtain ⟨lines', h'⟩ := h.flushActive
      exact ⟨lines', h'.startNewSegment (flushActive_idle s) index⟩
    · exact ⟨lines, h⟩

theorem Journal.writeEntry (h : Journal codec s lines done) (hactive : s.active.isSome)
    (e : ClusterEntry P) : ∃ lines', Journal codec (s.writeEntry codec e) lines' (done ++ [e]) := by
  obtain ⟨x, hx⟩ := Option.isSome_iff_exists.mp hactive
  have hcap := (h.writer x hx).2
  obtain ⟨hext, hcap'⟩ := writeLine_extends codec (x.writer, s.segments) e hcap
  unfold LogStorage.writeEntry
  rw [hx]
  exact ⟨_, h.extend [e] hx hext hcap' rfl rfl rfl⟩

theorem Journal.appendOne (h : Journal codec s lines done) (e : ClusterEntry P) :
    ∃ lines', Journal codec (s.appendOne codec e) lines' (done ++ [e]) := by
  obtain ⟨lines₁, h₁⟩ := h.ensureActive e.index
  exact h₁.writeEntry (ensureActive_isSome s e.index) e

theorem Journal.appendAll (h : Journal codec s lines done) (es : List (ClusterEntry P)) :
    ∃ lines', Journal codec (es.foldl (LogStorage.appendOne codec) s) lines' (done ++ es) := by
  induction es generalizing s lines done with
  | nil =>
    rw [List.append_nil]
    exact ⟨lines, h⟩
  | cons e es ih =>
    obtain ⟨lines₁, h₁⟩ := h.appendOne e
    obtain ⟨lines₂, h₂⟩ := ih h₁
    rw [List.append_assoc, List.singleton_append] at h₂
    exact ⟨lines₂, h₂⟩

theorem journal_fresh (codec : EntryCodec P) :
    Journal codec LogStorage.fresh (fun _ => []) [] where
  names _ hn := absurd hn (AList.notMem_empty _)
  writer _ hx := absurd hx nofun
  file _ := rfl
  entries _ := ⟨fun he => absurd he List.not_mem_nil, fun ⟨_, hn⟩ => absurd hn List.not_mem_nil⟩

def runAppends (codec : EntryCodec P) (batches : List (List (ClusterEntry P))) : LogStorage P :=
  batches.foldl (LogStorage.appendEntries codec) LogStorage.fresh

theorem journal_runAppends (codec : EntryCodec P) (batches : List (List (ClusterEntry P))) :
    ∃ lines, Journal codec (runAppends codec batches) lines batches.flatten := by
  have hrun : ∀ (s : LogStorage P) lines done, Journal codec s lines done →
      ∃ lines', Journal codec (batches.foldl (LogStorage.appendEntries codec) s) lines'
        (done ++ batches.flatten) := by
    induction batches with
    | nil =>
      intro s lines done h
      rw [List.flatten_nil, List.append_nil]
      exact ⟨lines, h⟩
    | cons es batches ih =>
      intro s lines done h
      rw [List.foldl_cons, List.flatten_cons, ← List.append_assoc]
      have hnext : ∃ lines', Journal codec (s.appendEntries codec es) lines' (done ++ es) := by
        unfold LogStorage.appendEntries
        cases es with
        | nil =>
          rw [List.append_nil]
          exact ⟨lines, h⟩
        | cons e es =>
          obtain ⟨lines₁, h₁⟩ := h.appendAll (e :: es)
          exact h₁.flushActive
      obtain ⟨lines₁, h₁⟩ := hnext
      exact ih _ lines₁ _ h₁
  have hfresh := hrun _ _ _ (journal_fresh codec)
  rwa [List.nil_append] at hfresh

end Journal

/-! ### Loading files in any order -/

section Loading
variable {P : Type} (codec : EntryCodec P)

theorem loadFiles_error (d : FileDir) (segments : List (ℕ × String)) (i : ℕ) (name : String)
    (err : StorageError) (hmem : (i, name) ∈ segments)
    (h : loadEntries codec (contents d name) = .error err) (logs : SortedMap (ClusterEntry P)) :
    ∃ err', LogStorage.loadFiles codec d segments logs = .error err' := by
  induction segments generalizing logs with
  | nil => exact absurd hmem List.not_mem_nil
  | cons p segments ih =>
    obtain ⟨j, path⟩ := p
    rw [LogStorage.loadFiles]
    rcases List.mem_cons.mp hmem with he | hmem
    · cases he
      have hfile : loadEntries codec (((d.get name).map DiskFile.data).getD []) = .error err := h
      rw [hfile]
      exact ⟨err, rfl⟩
    · cases loadEntries codec (((d.get path).map DiskFile.data).getD []) with
      | error err' => exact ⟨err', rfl⟩
      | ok es => exact ih hmem _

theorem lastWith_eq_some_iff (es : List (ClusterEntry P)) (h : OnePerIndex es) (k : ℕ)
    (e : ClusterEntry P) : lastWith k es = some e ↔ e ∈ es ∧ e.index = k := by
  constructor
  · exact lastWith_some k es e
  · rintro ⟨he, rfl⟩
    obtain ⟨e', he'⟩ := lastWith_of_mem es e he
    obtain ⟨hmem, hindex⟩ := lastWith_some _ es e' he'
    rw [he', h e' hmem e he hindex]

/-- A directory left by a crash: whole lines in every file, and behind those of one file the bytes of
an unfinished one. -/
structure Image (d : FileDir) (lines : String → List (ClusterEntry P)) (done : List (ClusterEntry P))
    (path : String) (tail : Bytes) : Prop where
  names : ∀ n ∈ d, ∃ first, n = segmentFilename first
  file : ∀ n, contents d n = encodeEntries codec (lines n) ++ if n = path then tail else []
  entries : ∀ e, e ∈ done ↔ ∃ n, e ∈ lines n
  torn : tail ≠ [] → path ∈ d

variable {codec} {d : FileDir} {lines : String → List (ClusterEntry P)} {done : List (ClusterEntry P)}
  {path : String} {tail : Bytes}

theorem mem_of_contents_ne_nil (d : FileDir) (name : String) (h : contents d name ≠ []) : name ∈ d := by
  rw [← Directory.get_isSome]
  cases hd : d.get name with
  | some f => rfl
  | none => exact absurd (by rw [contents, hd]; rfl) h

theorem encodeEntries_ne_nil (es : List (ClusterEntry P)) (e : ClusterEntry P) (h : e ∈ es) :
    encodeEntries codec es ≠ [] := by
  intro hnil
  have hline := List.flatMap_eq_nil_iff.mp hnil e h
  exact absurd hline (by simp [entryLine])

theorem Image.mem_of_line (h : Image codec d lines done path tail) (n : String) (e : ClusterEntry P)
    (hn : e ∈ lines n) : n ∈ d := by
  refine mem_of_contents_ne_nil d n ?_
  rw [h.file n]
  exact List.append_ne_nil_of_left_ne_nil (encodeEntries_ne_nil (lines n) e hn) _

/-- What a file is read as: its whole lines, and behind those of one file what the tail decodes to. -/
def withExtra (lines : String → List (ClusterEntry P)) (path : String) (extra : List (ClusterEntry P))
    (n : String) : List (ClusterEntry P) :=
  if n = path then lines n ++ extra else lines n

theorem mem_withExtra (extra : List (ClusterEntry P)) (n : String) (e : ClusterEntry P) :
    e ∈ withExtra lines path extra n ↔ e ∈ lines n ∨ n = path ∧ e ∈ extra := by
  unfold withExtra
  by_cases hn : n = path
  · simp [hn]
  · simp [hn]

theorem Image.loads (h : Image codec d lines done path tail) (extra : List (ClusterEntry P))
    (htail : loadEntries codec (encodeEntries codec (lines path) ++ tail) = .ok (lines path ++ extra))
    (n : String) : loadEntries codec (contents d n) = .ok (withExtra lines path extra n) := by
  rw [h.file n, withExtra]
  by_cases hn : n = path
  · rw [if_pos hn, if_pos hn, hn]
    exact htail
  · rw [if_neg hn, if_neg hn, List.append_nil]
    exact loadEntries_encodeEntries codec _

theorem Image.mem_listed (h : Image codec d lines done path tail) (extra : List (ClusterEntry P))
    (hextra : tail = [] → extra = []) (segments : List (ℕ × String))
    (hlisted : ∀ n, n ∈ d ↔ ∃ i, (i, n) ∈ segments) (e : ClusterEntry P) :
    e ∈ segments.flatMap (fun p => withExtra lines path extra p.2) ↔ e ∈ done ++ extra := by
  rw [List.mem_flatMap, List.mem_append, h.entries]
  simp only [mem_withExtra]
  constructor
  · rintro ⟨p, _, he | ⟨_, he⟩⟩
    · exact .inl ⟨p.2, he⟩
    · exact .inr he
  · rintro (⟨n, hn⟩ | he)
    · obtain ⟨i, hi⟩ := (hlisted n).mp (h.mem_of_line n e hn)
      exact ⟨(i, n), hi, .inl hn⟩
    · have hne : tail ≠ [] := fun hnil => absurd he (by rw [hextra hnil]; exact List.not_mem_nil)
      obtain ⟨i, hi⟩ := (hlisted path).mp (h.torn hne)
      exact ⟨(i, path), hi, .inr ⟨rfl, he⟩⟩

theorem Image.opens (h : Image codec d lines done path tail) (extra : List (ClusterEntry P))
    (htail : loadEntries codec (encodeEntries codec (lines path) ++ tail) = .ok (lines path ++ extra))
    (hextra : tail = [] → extra = []) (honce : OnePerIndex (done ++ extra))
    (metaFile : Option PersistedLogMeta) :
    ∃ s', LogStorage.openStorage codec d metaFile = .ok s' ∧
      ∀ k e, s'.logs.get k = some e ↔ e ∈ done ++ extra ∧ e.index = k := by
  obtain ⟨segments, hlist, hlisted⟩ := listSegments_all d h.names
  have hmem := h.mem_listed extra hextra segments hlisted
  have hload := loadFiles_ok d (fun p => withExtra lines path extra p.2) segments
    (fun p _ => h.loads extra htail p.2) SortedMap.empty
  have honce' : OnePerIndex (segments.flatMap fun p => withExtra lines path extra p.2) :=
    fun x hx y hy => honce x ((hmem x).mp hx) y ((hmem y).mp hy)
  unfold LogStorage.openStorage
  rw [hlist]
  dsimp only
  rw [hload]
  refine ⟨_, rfl, fun k e => ?_⟩
  dsimp only
  rw [get_foldl_insertEntry, SortedMap.get_empty, Option.or_none, lastWith_eq_some_iff _ honce', hmem]

theorem Image.fails (h : Image codec d lines done path tail) (hne : tail ≠ []) (err : StorageError)
    (htail : loadEntries codec (encodeEntries codec (lines path) ++ tail) = .error err)
    (metaFile : Option PersistedLogMeta) :
    ∃ err', LogStorage.openStorage codec d metaFile = .error err' := by
  obtain ⟨segments, hlist, hlisted⟩ := listSegments_all d h.names
  obtain ⟨i, hi⟩ := (hlisted path).mp (h.torn hne)
  have hfile : loadEntries codec (contents d path) = .error err := by
    rw [h.file path, if_pos rfl]
    exact htail
  obtain ⟨err', herr'⟩ := loadFiles_error codec d segments i path err hi hfile SortedMap.empty
  refine ⟨err', ?_⟩
  unfold LogStorage.openStorage
  rw [hlist]
  dsimp only
  rw [herr']

end Loading

end Xerv.Raft
