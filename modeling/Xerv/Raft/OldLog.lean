import Xerv.Lib.Grouping
import Xerv.Lib.ReplacedFile
import Xerv.Raft.Durability
import Xerv.Raft.Fallible
import Xerv.Raft.SegmentNames

/-!
# Migration from `logs.json` (`xerv-cluster/src/raft/storage/{persistence,segment,inner}.rs`)

An old directory has all entries in one JSON array. Opening it writes them to segments and removes the array
last. Each opening may stop at any of its steps, by an error or since the process ends; the next one starts with
the files that are there. Reading the array is a parameter.
-/

namespace Xerv.Raft
open Xerv.Lib

structure OldDir where
  segments : FileDir
  metaFile : Option PersistedLogMeta
  logsJson : Option Bytes

/-- The steps of `LogStorage::open` that can be the last one; `segment` is the round of the loop that writes the
segments, and where `write_segment_file` stops. -/
inductive OpenStop where
  | loading
  | segment (round : ℕ) (stop : ReplaceStop)
  | reopening
  | removing
  deriving DecidableEq

namespace LogStorage
variable {P : Type} (codec : EntryCodec P)

/-- What `write_segment_file` leaves where it stops. -/
def leaveSegmentFile (firstIndex : ℕ) (entries : List (ClusterEntry P)) (s : LogStorage P) :
    ReplaceStop → LogStorage P
  | .opening => s
  | .writing written => s.leaveTemp codec firstIndex entries written
  | .syncing => s.leaveTemp codec firstIndex entries (encodeEntries codec entries).length
  | .renaming =>
    let data := encodeEntries codec entries
    { s with segments := s.segments.insert (segmentFilename firstIndex ++ ".tmp") (ReplacedFile.written data) }

def segmentGroups (logs : SortedMap (ClusterEntry P)) : List (ℕ × List (ClusterEntry P)) :=
  (collectGroups (fun p : ℕ × ClusterEntry P => alignFirst p.1) none [] logs.entries).map
    fun g => (g.1, g.2.map Prod.snd)

/-- The loop of `flush_all_to_segments`, and whether it got to its end. -/
def writeSegments (stop : Option OpenStop) :
    ℕ → List (ℕ × List (ClusterEntry P)) → LogStorage P → LogStorage P × Bool
  | _, [], s => (s, true)
  | round, (firstIndex, entries) :: groups, s =>
    match stop with
    | some (.segment n stopped) =>
      if n = round then (s.leaveSegmentFile codec firstIndex entries stopped, false)
      else writeSegments stop (round + 1) groups (s.writeSegmentFile codec firstIndex entries)
    | _ => writeSegments stop (round + 1) groups (s.writeSegmentFile codec firstIndex entries)

/-- The last segment becomes the active one unless it is full. -/
def activateLast (groups : List (ℕ × List (ClusterEntry P))) (s : LogStorage P) : LogStorage P :=
  match groups.getLast? with
  | none => s
  | some (firstIndex, entries) =>
    if entries.length < segmentMaxEntries then
      s.reopenSegment firstIndex entries.length (segmentFilename firstIndex)
    else s

def flushAllToSegments (stop : Option OpenStop) (s : LogStorage P) : LogStorage P × Bool :=
  let groups := segmentGroups s.logs
  match s.closeActive.writeSegments codec stop 0 groups with
  | (s, false) => (s, false)
  | (s, true) => if stop = some .reopening then (s, false) else (s.activateLast groups, true)

variable (readArray : Bytes → Option (List (ClusterEntry P)))

def migrateFromSingleFile (stop : Option OpenStop) (logsJson : Option Bytes) (s : LogStorage P) :
    LogStorage P × Option Bytes × Bool :=
  match logsJson with
  | none => (s, none, true)
  | some bytes =>
    match readArray bytes with
    | none => (s, some bytes, false)
    | some entries =>
      if entries.isEmpty then
        if stop = some .removing then (s, some bytes, false) else (s, none, true)
      else
        match ({ s with logs := entries.foldl insertEntry s.logs } : LogStorage P).flushAllToSegments codec stop with
        | (s, false) => (s, some bytes, false)
        | (s, true) => if stop = some .removing then (s, some bytes, false) else (s, none, true)

end LogStorage

section Opening
variable {P : Type} (codec : EntryCodec P) (readArray : Bytes → Option (List (ClusterEntry P)))

/-- `LogStorage::open`: the files it leaves, and the storage if it gets to the end. -/
def OldDir.initializeStorage (d : OldDir) (stop : Option OpenStop) : OldDir × Option (LogStorage P) :=
  match LogStorage.openStorage codec d.segments d.metaFile with
  | .error _ => (d, none)
  | .ok s =>
    if stop = some .loading then (⟨s.segments, d.metaFile, d.logsJson⟩, none)
    else
      match s.migrateFromSingleFile codec readArray stop d.logsJson with
      | (s, logsJson, opened) => (⟨s.segments, d.metaFile, logsJson⟩, if opened then some s else none)

def OldDir.openings (d : OldDir) (stops : List (Option OpenStop)) : OldDir :=
  stops.foldl (fun d stop => (d.initializeStorage codec readArray stop).1) d

end Opening

/-! ### Groups of entries -/

section Groups
variable {P : Type} {logs : SortedMap (ClusterEntry P)}

def grouping (logs : SortedMap (ClusterEntry P)) : List (ℕ × List (ℕ × ClusterEntry P)) :=
  collectGroups (fun p => LogStorage.alignFirst p.1) none [] logs.entries

theorem alignFirst_mono {i j : ℕ} (h : i ≤ j) : LogStorage.alignFirst i ≤ LogStorage.alignFirst j :=
  Nat.mul_le_mul_right _ (Nat.div_le_div_right h)

theorem grouping_grouped (logs : SortedMap (ClusterEntry P)) :
    Grouped (fun p : ℕ × ClusterEntry P => LogStorage.alignFirst p.1) 0 logs.entries (grouping logs) :=
  collectGroups_grouped logs.entries (logs.sorted.imp fun h => alignFirst_mono (le_of_lt h))

def segmentFiles (logs : SortedMap (ClusterEntry P)) : SortedMap (List (ClusterEntry P)) where
  entries := LogStorage.segmentGroups logs
  sorted := List.pairwise_map.mpr (grouping_grouped logs).sorted

theorem mem_segment {first : ℕ} {es : List (ClusterEntry P)} (h : (segmentFiles logs).get first = some es)
    (e : ClusterEntry P) : e ∈ es ↔ ∃ k, logs.get k = some e ∧ LogStorage.alignFirst k = first := by
  obtain ⟨g, hg, hpair⟩ := List.mem_map.mp (((segmentFiles logs).get_eq_some_iff first es).mp h)
  cases hpair
  rw [((grouping_grouped logs).all g hg).1, List.mem_map]
  constructor
  · intro ⟨p, hp, hpe⟩
    obtain ⟨hentry, hfirst⟩ := List.mem_filter.mp hp
    exact ⟨p.1, (logs.get_eq_some_iff p.1 e).mpr (hpe ▸ hentry), by simpa using hfirst⟩
  · intro ⟨k, hget, hfirst⟩
    exact ⟨(k, e), List.mem_filter.mpr ⟨(logs.get_eq_some_iff k e).mp hget, by simpa using hfirst⟩, rfl⟩

theorem segment_nonempty {first : ℕ} {es : List (ClusterEntry P)} (h : (segmentFiles logs).get first = some es) :
    es ≠ [] := by
  obtain ⟨g, hg, hpair⟩ := List.mem_map.mp (((segmentFiles logs).get_eq_some_iff first es).mp h)
  cases hpair
  simpa using ((grouping_grouped logs).all g hg).2

theorem segment_of_entry {k : ℕ} {e : ClusterEntry P} (h : logs.get k = some e) :
    ∃ es, (segmentFiles logs).get (LogStorage.alignFirst k) = some es ∧ e ∈ es := by
  obtain ⟨g, hg, hkey⟩ := (grouping_grouped logs).covers (k, e) ((logs.get_eq_some_iff k e).mp h)
  have hget : (segmentFiles logs).get (LogStorage.alignFirst k) = some (g.2.map Prod.snd) :=
    ((segmentFiles logs).get_eq_some_iff _ _).mpr (List.mem_map.mpr ⟨g, hg, by rw [hkey]⟩)
  exact ⟨_, hget, (mem_segment hget e).mpr ⟨k, h, rfl⟩⟩

theorem segment_bound {first : ℕ} (hbound : ∀ k ∈ logs.keys, k < indexBound)
    (h : first ∈ (segmentFiles logs).keys) : first < indexBound := by
  obtain ⟨es, hes⟩ := ((segmentFiles logs).mem_keys_iff first).mp h
  obtain ⟨e, he⟩ := List.exists_mem_of_ne_nil es (segment_nonempty hes)
  obtain ⟨k, hk, rfl⟩ := (mem_segment hes e).mp he
  exact lt_of_le_of_lt (alignFirst_le k) (hbound k ((logs.mem_keys_iff k).mpr ⟨e, hk⟩))

end Groups

/-! ### A directory that is being migrated -/

theorem parse_temp (first : ℕ) : parseSegmentFilename (segmentFilename first ++ ".tmp") = .ok none := by
  have hsuffix : ¬ (segSuffix.map charByte).isSuffixOf (utf8 (segmentFilename first ++ ".tmp")) = true := by
    rw [List.isSuffixOf_iff_suffix, utf8_eq_flatMap, ascii_suffix_iff segSuffix_ascii]
    intro ⟨front, hfront⟩
    have hlast := congrArg List.getLast? hfront
    simp [segSuffix] at hlast
  unfold parseSegmentFilename
  dsimp only
  rw [if_neg (by simp [hsuffix])]

section Partial
variable {P : Type} (codec : EntryCodec P) (logs : SortedMap (ClusterEntry P))

/-- Every file is a whole segment of the map, or was going to be one. -/
def PartlyWritten (d : FileDir) : Prop :=
  ∀ n f, d.get n = some f →
    (∃ first es, (segmentFiles logs).get first = some es ∧ n = segmentFilename first ∧
      f.data = encodeEntries codec es) ∨
    ∃ first ∈ (segmentFiles logs).keys, n = segmentFilename first ++ ".tmp"

variable {codec logs} {d : FileDir}

theorem PartlyWritten.name (h : PartlyWritten codec logs d) (hbound : ∀ k ∈ logs.keys, k < indexBound)
    {n : String} (hn : n ∈ d) :
    (∃ first es f, (segmentFiles logs).get first = some es ∧ n = segmentFilename first ∧ d.get n = some f ∧
      f.data = encodeEntries codec es ∧ parseSegmentFilename n = .ok (some first)) ∨
    parseSegmentFilename n = .ok none := by
  obtain ⟨f, hf⟩ := Option.isSome_iff_exists.mp ((Directory.get_isSome d n).mpr hn)
  rcases h n f hf with ⟨first, es, hes, rfl, hdata⟩ | ⟨first, -, rfl⟩
  · have hfirst := segment_bound hbound (((segmentFiles logs).mem_keys_iff first).mpr ⟨es, hes⟩)
    exact .inl ⟨first, es, f, hes, rfl, hf, hdata, parseSegmentFilename_segmentFilename first hfirst⟩
  · exact .inr (parse_temp first)

theorem PartlyWritten.listed (h : PartlyWritten codec logs d) (hbound : ∀ k ∈ logs.keys, k < indexBound)
    {i : ℕ} {n : String} (hin : (i, n) ∈ listNumbered segmentIndex d) :
    ∃ es f, (segmentFiles logs).get i = some es ∧ d.get n = some f ∧ f.data = encodeEntries codec es := by
  obtain ⟨hn, hindex⟩ := (mem_listNumbered segmentIndex d i n).mp hin
  rcases h.name hbound hn with ⟨first, es, f, hes, -, hf, hdata, hparse⟩ | hparse
  · simp only [segmentIndex, hparse, Option.some.injEq] at hindex
    subst hindex
    exact ⟨es, f, hes, hf, hdata⟩
  · simp [segmentIndex, hparse] at hindex

theorem PartlyWritten.listSegments (h : PartlyWritten codec logs d) (hbound : ∀ k ∈ logs.keys, k < indexBound) :
    Raft.listSegments d = .ok (listNumbered segmentIndex d) := by
  have hno : (d.keys.any fun n => parseSegmentFilename n = .error .slicePanic) = false := by
    rw [List.any_eq_false]
    intro n hn
    rcases h.name hbound (AList.mem_keys.mpr hn) with ⟨first, es, f, -, -, -, -, hparse⟩ | hparse
    · simp [hparse]
    · simp [hparse]
  rw [Raft.listSegments, hno]
  rfl

theorem reopenLast_present (loaded : SortedMap (ClusterEntry P)) (segments : List (ℕ × String))
    (h : ∀ i n, (i, n) ∈ segments → ∃ f, d.get n = some f) :
    (LogStorage.reopenLast d loaded segments).1 = d ∧
      ∀ x, (LogStorage.reopenLast d loaded segments).2 = some x →
        x.writer.buf = [] ∧ ∃ n, (x.firstIndex, n) ∈ segments := by
  unfold LogStorage.reopenLast
  cases hlast : segments.getLast? with
  | none => simp
  | some p =>
    obtain ⟨i, n⟩ := p
    obtain ⟨f, hf⟩ := h i n (List.mem_of_getLast? hlast)
    simp only [openAppend_existing d n f hf]
    split
    · refine ⟨rfl, fun x hx => ?_⟩
      cases hx
      exact ⟨rfl, n, List.mem_of_getLast? hlast⟩
    · simp

theorem PartlyWritten.open (h : PartlyWritten codec logs d) (hbound : ∀ k ∈ logs.keys, k < indexBound)
    (hkeyed : ∀ k e, logs.get k = some e → e.index = k) (metaFile : Option PersistedLogMeta) :
    ∃ s, LogStorage.openStorage codec d metaFile = .ok s ∧ s.segments = d ∧ s.metaFile = metaFile ∧
      s.lastPurgedLogId = metaFile.bind PersistedLogMeta.lastPurgedLogId ∧ Idle s ∧
      (∀ x, s.active = some x → x.firstIndex ∈ (segmentFiles logs).keys) ∧
      ∀ k e, s.logs.get k = some e → logs.get k = some e := by
  have hload := loadFiles_ok d (fun p => ((segmentFiles logs).get p.1).getD [])
    (listNumbered segmentIndex d) (fun p hp => by
      obtain ⟨es, f, hes, hf, hdata⟩ := h.listed hbound hp
      rw [hf, Option.map_some, Option.getD_some, hdata, loadEntries_encodeEntries, hes, Option.getD_some])
    SortedMap.empty
  obtain ⟨hsame, hactive⟩ := reopenLast_present (d := d) (((listNumbered segmentIndex d).flatMap fun p =>
    ((segmentFiles logs).get p.1).getD []).foldl LogStorage.insertEntry SortedMap.empty) (listNumbered segmentIndex d)
      (fun i n hin => by
        obtain ⟨-, f, -, hf, -⟩ := h.listed hbound hin
        exact ⟨f, hf⟩)
  unfold LogStorage.openStorage
  rw [h.listSegments hbound]
  dsimp only
  rw [hload]
  refine ⟨_, rfl, hsame, rfl, rfl, fun x hx => (hactive x hx).1, fun x hx => ?_, fun k e he => ?_⟩
  · obtain ⟨-, n, hin⟩ := hactive x hx
    obtain ⟨es, -, hes, -⟩ := h.listed hbound hin
    exact ((segmentFiles logs).mem_keys_iff x.firstIndex).mpr ⟨es, hes⟩
  dsimp only at he
  rw [get_foldl_insertEntry, SortedMap.get_empty, Option.or_none] at he
  obtain ⟨hmem, hindex⟩ := lastWith_some k _ e he
  obtain ⟨p, hp, hep⟩ := List.mem_flatMap.mp hmem
  obtain ⟨es, -, hes, -⟩ := h.listed hbound hp
  rw [hes, Option.getD_some] at hep
  obtain ⟨j, hj, -⟩ := (mem_segment hes e).mp hep
  have hjk : j = k := (hkeyed j e hj).symm.trans hindex
  exact hjk ▸ hj

/-! ### Writing the segments -/

def InPlace (first : ℕ) (d : FileDir) : Prop :=
  segmentFilename first ∈ d ∧ segmentFilename first ++ ".tmp" ∉ d

/-- A step of the migration: nothing but the files of the map's segments is written. -/
structure Migrates (codec : EntryCodec P) (logs : SortedMap (ClusterEntry P)) (s s' : LogStorage P) : Prop where
  partly : PartlyWritten codec logs s'.segments
  same : SameLog s s'
  active : s'.active = s.active

theorem Migrates.trans {s t u : LogStorage P} (h : Migrates codec logs s t) (k : Migrates codec logs t u) :
    Migrates codec logs s u where
  partly := k.partly
  same := ⟨k.same.1.trans h.same.1, k.same.2.1.trans h.same.2.1, k.same.2.2.trans h.same.2.2⟩
  active := k.active.trans h.active

theorem writeSegmentFile_lookup (s : LogStorage P) (first : ℕ) (es : List (ClusterEntry P)) (n : String) :
    (s.writeSegmentFile codec first es).segments.get n =
      if n = segmentFilename first then some (ReplacedFile.written (encodeEntries codec es))
      else if n = segmentFilename first ++ ".tmp" then none else s.segments.get n := by
  show Directory.get ((s.segments.erase (segmentFilename first ++ ".tmp")).insert
    (segmentFilename first) _) n = _
  by_cases hn : n = segmentFilename first
  · subst hn
    rw [if_pos rfl, Directory.get_insert_self]
    rfl
  · rw [if_neg hn, Directory.get_insert_ne _ _ _ _ hn]
    split
    · rename_i htmp
      rw [htmp, Directory.get_erase_self]
    · rename_i htmp
      exact Directory.get_erase_ne _ _ _ htmp

theorem Migrates.write {s : LogStorage P} {first : ℕ} {es : List (ClusterEntry P)}
    (h : PartlyWritten codec logs s.segments) (hes : (segmentFiles logs).get first = some es) :
    Migrates codec logs s (s.writeSegmentFile codec first es) := by
  refine ⟨fun n f hf => ?_, ⟨rfl, rfl, rfl⟩, rfl⟩
  rw [writeSegmentFile_lookup] at hf
  split at hf
  · rename_i hn
    cases hf
    exact .inl ⟨first, es, hes, hn, rfl⟩
  · split at hf
    · cases hf
    · exact h n f hf

theorem InPlace.write (s : LogStorage P) (first : ℕ) (es : List (ClusterEntry P)) :
    InPlace first (s.writeSegmentFile codec first es).segments := by
  constructor
  · rw [← Directory.get_isSome, writeSegmentFile_lookup, if_pos rfl]
    rfl
  · rw [← Directory.get_eq_none, writeSegmentFile_lookup, if_neg (tmp_ne_segmentFilename first first), if_pos rfl]

theorem InPlace.write_other {s : LogStorage P} {first : ℕ} (h : InPlace first s.segments) (other : ℕ)
    (es : List (ClusterEntry P)) : InPlace first (s.writeSegmentFile codec other es).segments := by
  obtain ⟨hfile, htemp⟩ := h
  constructor
  · rw [← Directory.get_isSome, writeSegmentFile_lookup]
    split
    · rfl
    · rw [if_neg fun he => tmp_ne_segmentFilename other first he.symm, Directory.get_isSome]
      exact hfile
  · rw [← Directory.get_eq_none, writeSegmentFile_lookup, if_neg (tmp_ne_segmentFilename first other)]
    split
    · rfl
    · exact (Directory.get_eq_none _ _).mpr htemp

theorem Migrates.leaveTemp {s : LogStorage P} {first : ℕ} {file : DiskFile}
    (h : PartlyWritten codec logs s.segments) (hfirst : first ∈ (segmentFiles logs).keys) :
    Migrates codec logs s { s with segments := s.segments.insert (segmentFilename first ++ ".tmp") file } := by
  refine ⟨fun n f hf => ?_, ⟨rfl, rfl, rfl⟩, rfl⟩
  by_cases hn : n = segmentFilename first ++ ".tmp"
  · exact .inr ⟨first, hfirst, hn⟩
  · exact h n f ((Directory.get_insert_ne _ _ _ _ hn).symm.trans hf)

theorem Migrates.leave {s : LogStorage P} {first : ℕ} {es : List (ClusterEntry P)}
    (h : PartlyWritten codec logs s.segments) (hes : (segmentFiles logs).get first = some es) (stop : ReplaceStop) :
    Migrates codec logs s (s.leaveSegmentFile codec first es stop) := by
  have hfirst : first ∈ (segmentFiles logs).keys := ((segmentFiles logs).mem_keys_iff first).mpr ⟨es, hes⟩
  match stop with
  | .opening => exact ⟨h, ⟨rfl, rfl, rfl⟩, rfl⟩
  | .writing _ => exact Migrates.leaveTemp h hfirst
  | .syncing => exact Migrates.leaveTemp h hfirst
  | .renaming => exact Migrates.leaveTemp h hfirst

theorem writeSegments_migrates (stop : Option OpenStop) (groups : List (ℕ × List (ClusterEntry P)))
    (hgroups : ∀ g ∈ groups, (segmentFiles logs).get g.1 = some g.2) (round : ℕ) (s : LogStorage P)
    (h : PartlyWritten codec logs s.segments) :
    Migrates codec logs s (s.writeSegments codec stop round groups).1 ∧
      ((s.writeSegments codec stop round groups).2 = true →
        (∀ g ∈ groups, InPlace g.1 (s.writeSegments codec stop round groups).1.segments) ∧
        ∀ first, InPlace first s.segments → InPlace first (s.writeSegments codec stop round groups).1.segments) := by
  induction groups generalizing round s with
  | nil => exact ⟨⟨h, ⟨rfl, rfl, rfl⟩, rfl⟩, fun _ => ⟨by simp, fun _ hin => hin⟩⟩
  | cons g groups ih =>
    obtain ⟨first, es⟩ := g
    have hes := hgroups _ List.mem_cons_self
    have hwrite := Migrates.write h hes
    obtain ⟨hrest, hplace⟩ := ih (fun g hg => hgroups g (List.mem_cons_of_mem _ hg)) (round + 1)
      (s.writeSegmentFile codec first es) hwrite.partly
    have hgo : Migrates codec logs s ((s.writeSegmentFile codec first es).writeSegments codec stop (round + 1) groups).1 ∧
        (((s.writeSegmentFile codec first es).writeSegments codec stop (round + 1) groups).2 = true →
          (∀ g ∈ (first, es) :: groups, InPlace g.1
            ((s.writeSegmentFile codec first es).writeSegments codec stop (round + 1) groups).1.segments) ∧
          ∀ j, InPlace j s.segments → InPlace j
            ((s.writeSegmentFile codec first es).writeSegments codec stop (round + 1) groups).1.segments) := by
      refine ⟨hwrite.trans hrest, fun hend => ?_⟩
      obtain ⟨hall, hkeep⟩ := hplace hend
      refine ⟨fun g hg => ?_, fun j hj => hkeep j (hj.write_other first es)⟩
      rcases List.mem_cons.mp hg with rfl | hg
      · exact hkeep first (InPlace.write s first es)
      · exact hall g hg
    unfold LogStorage.writeSegments
    split
    · split
      · exact ⟨Migrates.leave h hes _, fun hend => by cases hend⟩
      · exact hgo
    · exact hgo

/-! ### The migrated log -/

def migratedLog (logs : SortedMap (ClusterEntry P)) (purged : Option LogId) : SegmentedLog P where
  files := segmentFiles logs
  logs := logs
  purged := purged
  saved := purged
  active := (LogStorage.segmentGroups logs).getLast?.bind fun g =>
    if g.2.length < segmentMaxEntries then some (g.1, g.2.length) else none

theorem migratedLog_entries (hkeyed : ∀ k e, logs.get k = some e → e.index = k) (purged : Option LogId)
    (e : ClusterEntry P) : e ∈ (migratedLog logs purged).diskEntries ↔ logs.get e.index = some e := by
  rw [SegmentedLog.mem_diskEntries]
  constructor
  · intro ⟨first, es, hes, he⟩
    obtain ⟨k, hk, -⟩ := (mem_segment hes e).mp he
    rw [hkeyed k e hk]
    exact hk
  · intro h
    obtain ⟨es, hes, he⟩ := segment_of_entry h
    exact ⟨_, es, hes, he⟩

theorem migratedLog_reload (hkeyed : ∀ k e, logs.get k = some e → e.index = k) (purged : Option LogId) :
    (migratedLog logs purged).reload = logs := by
  refine SortedMap.ext_get fun k => ?_
  rw [SegmentedLog.reload_get]
  cases hk : logs.get k with
  | some e =>
    have hindex := hkeyed k e hk
    obtain ⟨e', he'⟩ := lastWith_of_mem _ e ((migratedLog_entries hkeyed purged e).mpr (by rw [hindex]; exact hk))
    obtain ⟨hmem, hindex'⟩ := lastWith_some _ _ e' he'
    have hget := (migratedLog_entries hkeyed purged e').mp hmem
    rw [hindex', hindex, hk] at hget
    rw [← hindex, he', hget]
  | none =>
    refine lastWith_eq_none k _ fun e he hindex => ?_
    have hget := (migratedLog_entries hkeyed purged e).mp he
    rw [hindex, hk] at hget
    cases hget

theorem migratedLog_last {purged : Option LogId} {first n : ℕ} (h : (migratedLog logs purged).active = some (first, n)) :
    first ∈ (segmentFiles logs).keys ∧ ∀ j ∈ (segmentFiles logs).keys, j ≤ first := by
  obtain ⟨g, hg, hroom⟩ := Option.bind_eq_some_iff.mp h
  split at hroom
  · cases hroom
    have hlast : (segmentFiles logs).lastKey? = some g.1 := by
      change ((LogStorage.segmentGroups logs).map Prod.fst).getLast? = _
      rw [List.getLast?_map, hg]
      rfl
    exact ((segmentFiles logs).lastKey?_eq_some_iff g.1).mp hlast
  · cases hroom

theorem migratedLog_durable (hkeyed : ∀ k e, logs.get k = some e → e.index = k) (purged : Option LogId) :
    (migratedLog logs purged).Durable where
  keyed := hkeyed
  kept k e h := by
    rw [← SegmentedLog.reload_get, migratedLog_reload hkeyed]
    exact h
  last first n h := migratedLog_last h
  files first es h := by
    have hlow : ∀ e ∈ es, LogStorage.alignFirst e.index = first := by
      intro e he
      obtain ⟨k, hk, hfirst⟩ := (mem_segment h e).mp he
      rw [hkeyed k e hk, hfirst]
    obtain ⟨e, he⟩ := List.exists_mem_of_ne_nil es (segment_nonempty h)
    refine ⟨?_, fun e he => hlow e he ▸ alignFirst_le e.index, e, he, ?_, ?_⟩
    · rw [← hlow e he]
      exact SegmentedLog.alignFirst_dvd e.index
    · rw [← hlow e he]
      exact SegmentedLog.lt_alignFirst e.index
    · obtain ⟨k, hk, -⟩ := (mem_segment h e).mp he
      exact SegmentedLog.settled_mem _ e.index e ((hkeyed k e hk).symm ▸ hk)

theorem PartlyWritten.refines {s : LogStorage P} (h : PartlyWritten codec logs s.segments)
    (hbound : ∀ k ∈ logs.keys, k < indexBound) (hlogs : s.logs = logs)
    (hpurged : s.metaFile.bind PersistedLogMeta.lastPurgedLogId = s.lastPurgedLogId)
    (hplace : ∀ first ∈ (segmentFiles logs).keys, InPlace first s.segments)
    (hactive : s.active = (migratedLog logs s.lastPurgedLogId).active.map fun p =>
      ⟨p.1, p.2, ⟨segmentFilename p.1, defaultCapacity, []⟩⟩) :
    Refines codec s (migratedLog logs s.lastPurgedLogId) ∧ Idle s := by
  have hidle : Idle s := by
    intro x hx
    rw [hactive] at hx
    obtain ⟨p, -, rfl⟩ := Option.map_eq_some_iff.mp hx
    rfl
  refine ⟨⟨hlogs, rfl, hpurged, fun n => ⟨fun hn => ?_, ?_⟩, fun first hfirst => segment_bound hbound hfirst, ?_, ?_, ?_⟩,
    hidle⟩
  · obtain ⟨f, hf⟩ := Option.isSome_iff_exists.mp ((Directory.get_isSome _ n).mpr hn)
    rcases h n f hf with ⟨first, es, hes, hname, -⟩ | ⟨first, hfirst, rfl⟩
    · exact ⟨first, ((segmentFiles logs).mem_keys_iff first).mpr ⟨es, hes⟩, hname⟩
    · exact absurd hn (hplace first hfirst).2
  · intro ⟨first, hfirst, hname⟩
    exact hname ▸ (hplace first hfirst).1
  · rw [hactive, Option.map_map]
    exact Option.map_id'
  · intro x hx
    rw [hactive] at hx
    obtain ⟨p, hp, rfl⟩ := Option.map_eq_some_iff.mp hx
    exact ⟨rfl, (migratedLog_last hp).1, Nat.zero_le _⟩
  · intro first es hes
    obtain ⟨f, hf⟩ := Option.isSome_iff_exists.mp ((Directory.get_isSome _ _).mpr
      (hplace first (((segmentFiles logs).mem_keys_iff first).mpr ⟨es, hes⟩)).1)
    refine ⟨f, hf, ?_⟩
    rw [pending_idle s hidle, List.append_nil]
    rcases h _ f hf with ⟨j, fs, hfs, hname, hdata⟩ | ⟨j, -, hname⟩
    · obtain rfl := segmentFilename_injective hname
      have hsame : some es = some fs := hes.symm.trans hfs
      cases hsame
      exact hdata
    · exact absurd hname.symm (tmp_ne_segmentFilename j first)

theorem activateLast_eq {s : LogStorage P} (hactive : s.active = none) (purged : Option LogId)
    (hplace : ∀ first ∈ (segmentFiles logs).keys, InPlace first s.segments) :
    s.activateLast (LogStorage.segmentGroups logs) =
      { s with active := (migratedLog logs purged).active.map fun p =>
        ⟨p.1, p.2, ⟨segmentFilename p.1, defaultCapacity, []⟩⟩ } := by
  obtain ⟨segments, metaFile, entries, lastPurged, committed, active⟩ := s
  dsimp only at hactive
  subst hactive
  unfold LogStorage.activateLast migratedLog
  cases hlast : (LogStorage.segmentGroups logs).getLast? with
  | none => rfl
  | some g =>
    obtain ⟨first, es⟩ := g
    have hget : (segmentFiles logs).get first = some es :=
      ((segmentFiles logs).get_eq_some_iff first es).mpr (List.mem_of_getLast? hlast)
    have hin := (hplace first (((segmentFiles logs).mem_keys_iff first).mpr ⟨es, hget⟩)).1
    obtain ⟨f, hf⟩ := Option.isSome_iff_exists.mp ((Directory.get_isSome _ _).mpr hin)
    simp only [Option.bind_some]
    split
    · simp only [LogStorage.reopenSegment, LogStorage.closeActive, openAppend_existing segments _ f hf]
      rfl
    · rfl

theorem flushAll_migrates {s : LogStorage P} (hidle : Idle s) (h : PartlyWritten codec s.logs s.segments)
    (hbound : ∀ k ∈ s.logs.keys, k < indexBound)
    (hpurged : s.metaFile.bind PersistedLogMeta.lastPurgedLogId = s.lastPurgedLogId) (stop : Option OpenStop) :
    PartlyWritten codec s.logs (s.flushAllToSegments codec stop).1.segments ∧
      (s.flushAllToSegments codec stop).1.metaFile = s.metaFile ∧
      ((s.flushAllToSegments codec stop).2 = true →
        Refines codec (s.flushAllToSegments codec stop).1 (migratedLog s.logs s.lastPurgedLogId) ∧
          Idle (s.flushAllToSegments codec stop).1) := by
  have hclosed : PartlyWritten codec s.logs s.closeActive.segments :=
    fun n f hf => h n f ((closeActive_get hidle n).symm.trans hf)
  obtain ⟨hlogs₀, hpurged₀, hmeta₀⟩ := closeActive_sameLog s
  obtain ⟨hwritten, hplace⟩ := writeSegments_migrates stop
    (LogStorage.segmentGroups s.logs) (fun g hg => ((segmentFiles s.logs).get_eq_some_iff g.1 g.2).mpr hg) 0
      s.closeActive hclosed
  obtain ⟨hlogs, hpurged', hmeta⟩ := hwritten.same
  unfold LogStorage.flushAllToSegments
  dsimp only
  generalize s.closeActive.writeSegments codec stop 0 (LogStorage.segmentGroups s.logs) = written at *
  obtain ⟨s', done⟩ := written
  cases done with
  | false => exact ⟨hwritten.partly, hmeta.trans hmeta₀, fun hend => by cases hend⟩
  | true =>
    dsimp only at *
    have hall : ∀ first ∈ (segmentFiles s.logs).keys, InPlace first s'.segments := by
      intro first hfirst
      obtain ⟨g, hg, rfl⟩ := List.mem_map.mp hfirst
      exact (hplace rfl).1 g hg
    split
    · exact ⟨hwritten.partly, hmeta.trans hmeta₀, fun hend => by cases hend⟩
    · have hsame : s'.lastPurgedLogId = s.lastPurgedLogId := hpurged'.trans hpurged₀
      rw [activateLast_eq (hwritten.active.trans (closeActive_active s)) s.lastPurgedLogId hall]
      refine ⟨hwritten.partly, hmeta.trans hmeta₀, fun _ => ?_⟩
      rw [← hsame]
      exact PartlyWritten.refines (s := { s' with active := _ }) hwritten.partly hbound (hlogs.trans hlogs₀)
        (by rw [hmeta.trans hmeta₀, hpurged, hsame]) hall rfl

theorem writeSegments_none (groups : List (ℕ × List (ClusterEntry P))) (round : ℕ) (s : LogStorage P) :
    (s.writeSegments codec none round groups).2 = true := by
  induction groups generalizing round s with
  | nil => rfl
  | cons g groups ih => exact ih (round + 1) (s.writeSegmentFile codec g.1 g.2)

theorem flushAll_none (s : LogStorage P) : (s.flushAllToSegments codec none).2 = true := by
  have hend : (s.closeActive.writeSegments codec none 0 (LogStorage.segmentGroups s.logs)).2 = true :=
    writeSegments_none _ 0 s.closeActive
  unfold LogStorage.flushAllToSegments
  dsimp only
  generalize s.closeActive.writeSegments codec none 0 (LogStorage.segmentGroups s.logs) = written at *
  obtain ⟨s', done⟩ := written
  dsimp only at hend
  subst hend
  simp

end Partial

/-! ### Openings -/

section Openings
variable {P : Type} {codec : EntryCodec P} {readArray : Bytes → Option (List (ClusterEntry P))}
  {bytes : Bytes} {es : List (ClusterEntry P)}

def oldLogs (es : List (ClusterEntry P)) : SortedMap (ClusterEntry P) :=
  es.foldl LogStorage.insertEntry SortedMap.empty

theorem oldLogs_get (es : List (ClusterEntry P)) (k : ℕ) : (oldLogs es).get k = lastWith k es := by
  rw [oldLogs, get_foldl_insertEntry, SortedMap.get_empty, Option.or_none]

theorem oldLogs_keyed (es : List (ClusterEntry P)) (k : ℕ) (e : ClusterEntry P) (h : (oldLogs es).get k = some e) :
    e.index = k := by
  rw [oldLogs_get] at h
  exact (lastWith_some k es e h).2

theorem oldLogs_bound (hbound : ∀ e ∈ es, e.index < indexBound) : ∀ k ∈ (oldLogs es).keys, k < indexBound := by
  intro k hk
  obtain ⟨e, he⟩ := ((oldLogs es).mem_keys_iff k).mp hk
  rw [oldLogs_get] at he
  obtain ⟨hmem, rfl⟩ := lastWith_some k es e he
  exact hbound e hmem

theorem merge_eq {loaded : SortedMap (ClusterEntry P)}
    (h : ∀ k e, loaded.get k = some e → (oldLogs es).get k = some e) :
    es.foldl LogStorage.insertEntry loaded = oldLogs es := by
  refine SortedMap.ext_get fun k => ?_
  rw [get_foldl_insertEntry]
  cases hk : loaded.get k with
  | none => rw [Option.or_none, oldLogs_get]
  | some e =>
    have hold := h k e hk
    rw [oldLogs_get] at hold
    rw [oldLogs_get, hold]
    rfl

/-- A storage that holds the migrated log, and all of it is on disk. -/
structure Holding (codec : EntryCodec P) (es : List (ClusterEntry P)) (s : LogStorage P) (a : SegmentedLog P) :
    Prop where
  refines : Refines codec s a
  idle : Idle s
  durable : a.Durable
  files : a.files = segmentFiles (oldLogs es)

theorem Holding.restart {s : LogStorage P} {a : SegmentedLog P} (h : Holding codec es s a) :
    ∃ s', LogStorage.openStorage codec s.segments s.metaFile = .ok s' ∧ Holding codec es s' a.restart ∧
      s'.logs = oldLogs es := by
  obtain ⟨s', hopen, hrefines, hidle⟩ := h.refines.restart h.idle
  refine ⟨s', hopen, ⟨hrefines, hidle, h.durable.restart, h.files⟩, ?_⟩
  have hreload : a.reload = (migratedLog (oldLogs es) none).reload := by
    rw [SegmentedLog.reload, SegmentedLog.diskEntries, h.files]
    rfl
  rw [hrefines.logs, ← migratedLog_reload (oldLogs_keyed es) none, ← hreload]
  rfl

theorem openStorage_metaFile {d : FileDir} {metaFile : Option PersistedLogMeta} {s : LogStorage P}
    (h : LogStorage.openStorage codec d metaFile = .ok s) : s.metaFile = metaFile := by
  unfold LogStorage.openStorage at h
  split at h
  · cases h
  · split at h
    · cases h
    · cases h
      rfl

/-- Before the array is removed the segments are a part of it, afterwards they are all of it. -/
def Migrating (codec : EntryCodec P) (bytes : Bytes) (es : List (ClusterEntry P)) (d : OldDir) : Prop :=
  (d.logsJson = some bytes ∧ PartlyWritten codec (oldLogs es) d.segments) ∨
    (d.logsJson = none ∧ ∃ s a, s.segments = d.segments ∧ s.metaFile = d.metaFile ∧ Holding codec es s a)

structure Opening (codec : EntryCodec P) (bytes : Bytes) (es : List (ClusterEntry P)) (stop : Option OpenStop)
    (result : OldDir × Option (LogStorage P)) : Prop where
  left : Migrating codec bytes es result.1
  opened : ∀ s, result.2 = some s → result.1.logsJson = none ∧ s.logs = oldLogs es ∧ ∃ a, Holding codec es s a
  opens : stop = none → result.2.isSome

theorem migrate_opening (hread : readArray bytes = some es) (hbound : ∀ e ∈ es, e.index < indexBound)
    {s : LogStorage P} (hpart : PartlyWritten codec (oldLogs es) s.segments) (hidle : Idle s)
    (hactive : ∀ x, s.active = some x → x.firstIndex ∈ (segmentFiles (oldLogs es)).keys)
    (hpurged : s.metaFile.bind PersistedLogMeta.lastPurgedLogId = s.lastPurgedLogId)
    (hloaded : ∀ k e, s.logs.get k = some e → (oldLogs es).get k = some e) (stop : Option OpenStop) :
    let result := s.migrateFromSingleFile codec readArray stop (some bytes)
    Opening codec bytes es stop (⟨result.1.segments, s.metaFile, result.2.1⟩, if result.2.2 then some result.1 else none) := by
  have hmerge := merge_eq hloaded
  have hholding {s' : LogStorage P} (h : Refines codec s' (migratedLog (oldLogs es) s.lastPurgedLogId) ∧ Idle s') :
      Holding codec es s' (migratedLog (oldLogs es) s.lastPurgedLogId) :=
    ⟨h.1, h.2, migratedLog_durable (oldLogs_keyed es) _, rfl⟩
  unfold LogStorage.migrateFromSingleFile
  simp only [hread]
  split
  · rename_i hempty
    obtain rfl := List.isEmpty_iff.mp hempty
    split
    · rename_i hremoving
      exact ⟨.inl ⟨rfl, hpart⟩, fun s' h => by simp at h, fun h => by simp [h] at hremoving⟩
    · have hnone : s.active = none := Option.eq_none_iff_forall_not_mem.mpr fun x hx =>
        List.not_mem_nil (hactive x hx)
      have hdone := hholding (hpart.refines (oldLogs_bound hbound) hmerge hpurged
        (fun first hfirst => absurd hfirst List.not_mem_nil) hnone)
      exact ⟨.inr ⟨rfl, s, _, rfl, rfl, hdone⟩, fun s' h => by cases h; exact ⟨rfl, hmerge, _, hdone⟩, fun _ => rfl⟩
  · have hflush := flushAll_migrates (s := { s with logs := es.foldl LogStorage.insertEntry s.logs })
      hidle (hmerge ▸ hpart) (hmerge ▸ oldLogs_bound hbound) hpurged stop
    have hend : stop = none → (LogStorage.flushAllToSegments codec stop
        { s with logs := es.foldl LogStorage.insertEntry s.logs }).2 = true := fun h => by rw [h]; exact flushAll_none _
    generalize LogStorage.flushAllToSegments codec stop { s with logs := _ } = flushed at *
    obtain ⟨s', done⟩ := flushed
    dsimp only at hflush
    rw [hmerge] at hflush
    obtain ⟨hpart', hmeta, hdone⟩ := hflush
    cases done with
    | false => exact ⟨.inl ⟨rfl, hpart'⟩, fun s' h => by simp at h, fun h => by cases hend h⟩
    | true =>
      have hall := hholding (hdone rfl)
      dsimp only
      split
      · rename_i hremoving
        exact ⟨.inl ⟨rfl, hpart'⟩, fun s' h => by simp at h, fun h => by simp [h] at hremoving⟩
      · refine ⟨.inr ⟨rfl, s', _, rfl, hmeta, hall⟩, fun s'' h => ?_, fun _ => rfl⟩
        cases h
        exact ⟨rfl, hall.refines.logs, _, hall⟩

theorem initialize_opening (hread : readArray bytes = some es) (hbound : ∀ e ∈ es, e.index < indexBound) {d : OldDir}
    (h : Migrating codec bytes es d) (stop : Option OpenStop) :
    Opening codec bytes es stop (d.initializeStorage codec readArray stop) := by
  obtain ⟨segments, metaFile, logsJson⟩ := d
  unfold OldDir.initializeStorage
  rcases h with ⟨hfile, hpart⟩ | ⟨hfile, s₀, a, hsegments, hmeta, hold⟩
  · obtain ⟨s, hopen, hsame, hmeta, hpurged, hidle, hactive, hloaded⟩ :=
      hpart.open (oldLogs_bound hbound) (oldLogs_keyed es) metaFile
    dsimp only at *
    subst hfile hsame hmeta
    rw [hopen]
    dsimp only
    split
    · rename_i hstop
      exact ⟨.inl ⟨rfl, hpart⟩, fun s' h => by simp at h, fun h => by simp [h] at hstop⟩
    · exact migrate_opening hread hbound hpart hidle hactive hpurged.symm hloaded stop
  · dsimp only at *
    subst hfile hsegments hmeta
    obtain ⟨s, hopen, hnew, hlogs⟩ := hold.restart
    have hmeta := openStorage_metaFile hopen
    rw [hopen]
    dsimp only
    split
    · rename_i hstop
      exact ⟨.inr ⟨rfl, s, _, rfl, hmeta, hnew⟩, fun s' h => by simp at h, fun h => by simp [h] at hstop⟩
    · refine ⟨.inr ⟨rfl, s, _, rfl, hmeta, hnew⟩, fun s' h => ?_, fun _ => rfl⟩
      cases h
      exact ⟨rfl, hlogs, _, hnew⟩

theorem openings_migrating (hread : readArray bytes = some es) (hbound : ∀ e ∈ es, e.index < indexBound)
    (stops : List (Option OpenStop)) {d : OldDir} (h : Migrating codec bytes es d) :
    Migrating codec bytes es (d.openings codec readArray stops) := by
  induction stops generalizing d with
  | nil => exact h
  | cons stop stops ih => exact ih (initialize_opening hread hbound h stop).left

theorem initializeStorage_segments {d d' : OldDir} {stop : Option OpenStop} {s : LogStorage P}
    (h : d.initializeStorage codec readArray stop = (d', some s)) : d'.segments = s.segments := by
  unfold OldDir.initializeStorage at h
  split at h
  · cases h
  · split at h
    · cases h
    · dsimp only at h
      obtain ⟨hdir, hopened⟩ := Prod.mk.inj h
      split at hopened
      · rw [← hdir, ← Option.some.inj hopened]
      · cases hopened

/-- However often openings of an old directory are stopped, and at whatever steps, the next one that is not has for
each index the last entry that `logs.json` has, and removes that file; the segment files that it leaves refine a
log with just these entries in them. From then on no entry of the map is lost in a restart. -/
theorem migration_keeps_log (codec : EntryCodec P) (readArray : Bytes → Option (List (ClusterEntry P)))
    (metaFile : Option PersistedLogMeta) (bytes : Bytes) (es : List (ClusterEntry P)) (hread : readArray bytes = some es)
    (hbound : ∀ e ∈ es, e.index < indexBound) (stops : List (Option OpenStop)) :
    ∃ d s a, ((OldDir.mk ∅ metaFile (some bytes)).openings codec readArray stops).initializeStorage codec readArray none =
        (d, some s) ∧ d.logsJson = none ∧ (∀ k, s.logs.get k = lastWith k es) ∧
      d.segments = s.segments ∧ Refines codec s a ∧ a.files = segmentFiles (oldLogs es) ∧
      ∀ ops, OrderlyRun codec s ops → ∃ s', runStorage codec s ops = .ok s' ∧
        ∃ s'', s'.restart codec = .ok s'' ∧ ∀ k e, s'.logs.get k = some e → s''.logs.get k = some e := by
  have hstart : Migrating codec bytes es ⟨∅, metaFile, some bytes⟩ := .inl ⟨rfl, fun n f hf => by cases hf⟩
  have hlast := initialize_opening hread hbound (openings_migrating hread hbound stops hstart) none
  have hfiles (d : OldDir) (s : LogStorage P) :
      ((OldDir.mk ∅ metaFile (some bytes)).openings codec readArray stops).initializeStorage codec readArray none =
        (d, some s) → d.segments = s.segments :=
    initializeStorage_segments
  generalize OldDir.initializeStorage codec readArray _ none = result at *
  obtain ⟨d, opened⟩ := result
  obtain ⟨s, rfl⟩ := Option.isSome_iff_exists.mp (hlast.opens rfl)
  obtain ⟨hnone, hlogs, a, hholding⟩ := hlast.opened s rfl
  refine ⟨d, s, a, rfl, hnone, fun k => by rw [hlogs, oldLogs_get], hfiles d s rfl, hholding.refines, hholding.files,
    fun ops hops => ?_⟩
  obtain ⟨s', a', hrun, hrefines, hidle, hdurable⟩ :=
    OrderlyRun.durable ops hholding.refines hholding.idle hholding.durable hops
  obtain ⟨s'', hrestart, hafter, -⟩ := hrefines.restart hidle
  refine ⟨s', hrun, s'', hrestart, fun k e he => ?_⟩
  rw [hafter.logs]
  exact hdurable.survives k e (hrefines.logs ▸ he)

end Openings

def oldEntries : List (ClusterEntry Unit) := [blankEntry 999, blankEntry 1000, blankEntry 1001]

def oldArray : Bytes :=
  charByte '[' :: ([charByte ','].intercalate (oldEntries.map blankCodec.toJson) ++ [charByte ']'])

def readOldArray (bytes : Bytes) : Option (List (ClusterEntry Unit)) := if bytes = oldArray then some oldEntries else none

/-- The second segment is torn, then the segments are written and the array stays, then the first is not renamed. -/
theorem stopped_migrations_keep_log :
    ∃ d s a, ((OldDir.mk ∅ none (some oldArray)).openings blankCodec readOldArray
        [some (.segment 1 (.writing 10)), some .removing, some (.segment 0 .renaming)]).initializeStorage blankCodec
          readOldArray none = (d, some s) ∧ d.logsJson = none ∧ (∀ k, s.logs.get k = lastWith k oldEntries) ∧
      d.segments = s.segments ∧ Refines blankCodec s a ∧ a.files = segmentFiles (oldLogs oldEntries) ∧
      ∀ ops, OrderlyRun blankCodec s ops → ∃ s', runStorage blankCodec s ops = .ok s' ∧
        ∃ s'', s'.restart blankCodec = .ok s'' ∧ ∀ k e, s'.logs.get k = some e → s''.logs.get k = some e :=
  migration_keeps_log blankCodec readOldArray none oldArray oldEntries (if_pos rfl) (by decide) _

end Xerv.Raft
