import Xerv.Lib.Grouping
import Xerv.Lib.ReplacedFile
import Xerv.Lib.TrimmedDir
import Xerv.Wal.Snapshot
import Xerv.Wal.Writer

/-!
# Snapshot files (`xerv-core/src/wal/snapshot_manager.rs`)

A snapshot is written to a temporary file and renamed; then the oldest snapshots are removed until as many are left
as the configuration says. A creation stops at any of its steps, by an error or since the process ends, and a removal
can fail. `serde_json` is a parameter.
-/

namespace Xerv
open Xerv.Lib

/-! ### Names and contents -/

def snapshotPrefix : List Char := "snapshot_".toList

def snapshotSuffix : List Char := ".snap".toList

/-- `format!("snapshot_{:016x}.snap", id)`. -/
def snapshotName (id : ℕ) : String :=
  String.ofList (snapshotPrefix ++ (padded 16 16 id ++ snapshotSuffix))

def parseSnapshotName (name : String) : Option ℕ :=
  ((stripPrefix snapshotPrefix name.toList).bind (stripSuffix snapshotSuffix)).bind (parseUnsigned 16)

/-- `b"XSNP"`. -/
def snapshotMagic : Bytes := [0x58, 0x53, 0x4e, 0x50]

def snapshotVersion : ℕ := 1

def snapshotFile (data : Bytes) : Bytes :=
  snapshotMagic ++ (leBytes 4 snapshotVersion ++ (leBytes 8 data.length ++ data))

/-- The data of a snapshot file; bytes behind them are not looked at. -/
def readSnapshotFile (bytes : Bytes) : Option Bytes := do
  let (magic, bytes) ← readBytes 4 bytes
  if magic ≠ snapshotMagic then none
  let (version, bytes) ← readLe 4 bytes
  if version ≠ snapshotVersion then none
  let (length, bytes) ← readLe 8 bytes
  let (data, _) ← readBytes length bytes
  return data

/-! ### The manager -/

/-- `SnapshotManager`, with its directory. -/
structure SnapshotManager where
  directory : FileDir
  retentionCount : ℕ
  nextId : ℕ

namespace SnapshotManager

def ids (d : FileDir) : List ℕ := (listNumbered parseSnapshotName d).map Prod.fst

def findNextId (d : FileDir) : ℕ := (ids d).foldl max 0 + 1

def new (d : FileDir) (retentionCount : ℕ) : SnapshotManager := ⟨d, retentionCount, findNextId d⟩

/-- The files that `write_snapshot` leaves, by where it stops. -/
def writeSnapshot (d : FileDir) (name : String) (bytes : Bytes) : Option ReplaceStop → FileDir
  | some .opening => d
  | some (.writing written) => d.insert (name ++ ".tmp") ⟨bytes.take written, 0⟩
  | some .syncing => d.insert (name ++ ".tmp") ⟨bytes, 0⟩
  | some .renaming => d.insert (name ++ ".tmp") (ReplacedFile.written bytes)
  | none => (d.erase (name ++ ".tmp")).insert name (ReplacedFile.written bytes)

/-- The snapshots that `cleanup_old_snapshots` is to remove. -/
def outdated (m : SnapshotManager) : List ℕ := (ids m.directory).take ((ids m.directory).length - m.retentionCount)

def removeSnapshots (fails : String → Bool) (m : SnapshotManager) (removed : List ℕ) : SnapshotManager :=
  { m with
    directory := ((removed.map snapshotName).filter fun n => !fails n).foldl (fun d n => d.erase n) m.directory }

def cleanupOldSnapshots (m : SnapshotManager) (fails : String → Bool) : SnapshotManager :=
  m.removeSnapshots fails m.outdated

end SnapshotManager

/-- Where a creation stops: in the write of the file, or after some of the removals. -/
inductive CreateStop where
  | writing (stop : ReplaceStop)
  | cleaning (removals : ℕ)

inductive SnapshotOp where
  | create (position : WalPosition) (traces : TraceMap) (recordCount now : ℕ) (stop : Option CreateStop)
      (fails : String → Bool)
  | restart (retentionCount : ℕ)

section Manager
variable (toJson : WalSnapshot → Bytes) (fromJson : Bytes → Option WalSnapshot)

namespace SnapshotManager

def create (m : SnapshotManager) (position : WalPosition) (traces : TraceMap) (recordCount now : ℕ)
    (stop : Option CreateStop) (fails : String → Bool) : SnapshotManager × Option WalSnapshot :=
  let snapshot := createSnapshot m.nextId position traces recordCount now
  let write := writeSnapshot m.directory (snapshotName snapshot.id) (snapshotFile (toJson snapshot))
  let m := { m with nextId := m.nextId + 1 }
  match stop with
  | some (.writing stopped) => ({ m with directory := write (some stopped) }, none)
  | some (.cleaning removals) =>
    let m := { m with directory := write none }
    (m.removeSnapshots fails (m.outdated.take removals), none)
  | none => (({ m with directory := write none } : SnapshotManager).cleanupOldSnapshots fails, some snapshot)

/-- A snapshot that cannot be read counts as not there. -/
def loadSnapshot (d : FileDir) (id : ℕ) : Option WalSnapshot := do
  let file ← d.get (snapshotName id)
  let data ← readSnapshotFile file.data
  fromJson data

def loadLatest (m : SnapshotManager) : Option WalSnapshot :=
  (ids m.directory).reverse.findSome? (loadSnapshot fromJson m.directory)

end SnapshotManager

def SnapshotOp.apply (m : SnapshotManager) : SnapshotOp → SnapshotManager
  | .create position traces recordCount now stop fails =>
    (m.create toJson position traces recordCount now stop fails).1
  | .restart retentionCount => .new m.directory retentionCount

/-- The snapshot that a creation puts under its name, though it may not return. -/
def SnapshotOp.renames (m : SnapshotManager) : SnapshotOp → Option WalSnapshot
  | .create _ _ _ _ (some (.writing _)) _ => none
  | .create position traces recordCount now _ _ => some (createSnapshot m.nextId position traces recordCount now)
  | .restart _ => none

def runSnapshots (m : SnapshotManager) (ops : List SnapshotOp) : SnapshotManager :=
  ops.foldl (SnapshotOp.apply toJson) m

def renamedBy : SnapshotManager → List SnapshotOp → List WalSnapshot
  | _, [] => []
  | m, op :: ops => (op.renames m).toList ++ renamedBy (op.apply toJson m) ops

end Manager

/-! ### What a file holds -/

theorem readSnapshotFile_snapshotFile (data : Bytes) (h : data.length < 256 ^ 8) :
    readSnapshotFile (snapshotFile data) = some data := by
  have hmagic := readBytes_append snapshotMagic (leBytes 4 snapshotVersion ++ (leBytes 8 data.length ++ data)) 4 rfl
  have hversion := readLe_append 4 snapshotVersion (leBytes 8 data.length ++ data) (by decide)
  have hlength := readLe_append 8 data.length data h
  have hdata := readBytes_append data [] data.length rfl
  rw [List.append_nil] at hdata
  simp [readSnapshotFile, snapshotFile, hmagic, hversion, hlength, hdata]

theorem parseSnapshotName_snapshotName (id : ℕ) : parseSnapshotName (snapshotName id) = some id := by
  rw [parseSnapshotName, snapshotName, String.toList_ofList, stripPrefix_append, Option.bind_some,
    stripSuffix_append, Option.bind_some]
  exact parseUnsigned_padded 16 16 id (by decide) (by decide) (by decide)

theorem snapshotName_injective : Function.Injective snapshotName := by
  intro i j h
  have hj := parseSnapshotName_snapshotName j
  rw [← h, parseSnapshotName_snapshotName] at hj
  exact Option.some.inj hj

theorem parseSnapshotName_temp (id : ℕ) : parseSnapshotName (snapshotName id ++ ".tmp") = none := by
  have hname : (snapshotName id ++ ".tmp").toList =
      snapshotPrefix ++ (padded 16 16 id ++ snapshotSuffix ++ ".tmp".toList) := by
    simp [snapshotName, String.toList_append]
  have hsuffix : snapshotSuffix.isSuffixOf (padded 16 16 id ++ snapshotSuffix ++ ".tmp".toList) ≠ true := by
    rw [ne_eq, List.isSuffixOf_iff_suffix]
    intro hsuffix
    -- Of two ends of one text the shorter is an end of the longer.
    have htemp : ".tmp".toList <:+ snapshotSuffix :=
      List.suffix_of_suffix_length_le (List.suffix_append _ _) hsuffix (by decide)
    exact absurd htemp (by decide)
  rw [parseSnapshotName, hname, stripPrefix_append, Option.bind_some, stripSuffix, if_neg hsuffix]
  rfl

theorem snapshotName_ne_temp (i j : ℕ) : snapshotName i ≠ snapshotName j ++ ".tmp" := by
  intro h
  have hparse := parseSnapshotName_snapshotName i
  rw [h, parseSnapshotName_temp] at hparse
  cases hparse

/-! ### What the directory holds -/

section Runs
variable {toJson : WalSnapshot → Bytes} {fromJson : Bytes → Option WalSnapshot} {m : SnapshotManager}
  {renamed : List WalSnapshot}

def Filed (toJson : WalSnapshot → Bytes) (renamed : List WalSnapshot) (d : FileDir) : Prop :=
  ∀ n f, d.get n = some f →
    (∃ s ∈ renamed, n = snapshotName s.id ∧ f.data = snapshotFile (toJson s)) ∨ ∃ id, n = snapshotName id ++ ".tmp"

/-- The ids of the snapshots that were renamed grow, and the next one is larger. -/
structure Shelved (toJson : WalSnapshot → Bytes) (renamed : List WalSnapshot) (m : SnapshotManager) : Prop where
  filed : Filed toJson renamed m.directory
  sorted : renamed.Pairwise fun s t => s.id < t.id
  next : ∀ s ∈ renamed, s.id < m.nextId
  last : ∀ s, renamed.getLast? = some s → snapshotName s.id ∈ m.directory

theorem Filed.listed {d : FileDir} (h : Filed toJson renamed d) {i : ℕ} {n : String}
    (hmem : (i, n) ∈ listNumbered parseSnapshotName d) : n ∈ d ∧ n = snapshotName i := by
  obtain ⟨hn, hparse⟩ := (mem_listNumbered parseSnapshotName d i n).mp hmem
  obtain ⟨f, hf⟩ := Option.isSome_iff_exists.mp ((Directory.get_isSome d n).mpr hn)
  rcases h n f hf with ⟨s, -, rfl, -⟩ | ⟨j, rfl⟩
  · rw [parseSnapshotName_snapshotName] at hparse
    exact ⟨hn, congrArg snapshotName (Option.some.inj hparse)⟩
  · rw [parseSnapshotName_temp] at hparse
    cases hparse

theorem Filed.mem_ids {d : FileDir} (h : Filed toJson renamed d) (id : ℕ) :
    id ∈ SnapshotManager.ids d ↔ snapshotName id ∈ d := by
  rw [SnapshotManager.ids, List.mem_map]
  constructor
  · intro ⟨⟨i, n⟩, hmem, hid⟩
    obtain ⟨hn, hname⟩ := h.listed hmem
    rwa [← hid, ← hname]
  · intro hn
    have hparse := parseSnapshotName_snapshotName id
    exact ⟨(id, snapshotName id), (mem_listNumbered parseSnapshotName d id _).mpr ⟨hn, hparse⟩, rfl⟩

theorem Filed.ids_sorted {d : FileDir} (h : Filed toJson renamed d) : (SnapshotManager.ids d).Pairwise (· < ·) := by
  have hle : (listNumbered parseSnapshotName d).Pairwise fun a b => a.1 ≤ b.1 := listNumbered_sorted parseSnapshotName d
  refine List.pairwise_map.mpr ((hle.and (listNumbered_nodup parseSnapshotName d)).imp_of_mem fun {p q} hp hq hpq => ?_)
  have hnames : p.1 = q.1 → p.2 = q.2 := fun he => by rw [(h.listed hp).2, (h.listed hq).2, he]
  exact lt_of_le_of_ne hpq.1 fun he => hpq.2 (Prod.ext he (hnames he))

theorem Filed.exists_renamed {d : FileDir} (h : Filed toJson renamed d) {id : ℕ}
    (hid : id ∈ SnapshotManager.ids d) : ∃ s ∈ renamed, s.id = id := by
  obtain ⟨f, hf⟩ := Option.isSome_iff_exists.mp ((Directory.get_isSome d _).mpr ((h.mem_ids id).mp hid))
  rcases h _ f hf with ⟨s, hs, hname, -⟩ | ⟨j, hname⟩
  · exact ⟨s, hs, (snapshotName_injective hname).symm⟩
  · exact absurd hname (snapshotName_ne_temp _ _)

theorem Shelved.same (h : Shelved toJson renamed m) {s t : WalSnapshot} (hs : s ∈ renamed) (ht : t ∈ renamed)
    (hid : s.id = t.id) : s = t := by
  have hnodup : (renamed.map WalSnapshot.id).Nodup :=
    List.pairwise_map.mpr (h.sorted.imp fun hlt => ne_of_lt hlt)
  exact List.inj_on_of_nodup_map hnodup hs ht hid

theorem Shelved.load (h : Shelved toJson renamed m) {s : WalSnapshot} (hs : s ∈ renamed)
    (hcodec : fromJson (toJson s) = some s ∧ (toJson s).length < 256 ^ 8) (hin : snapshotName s.id ∈ m.directory) :
    SnapshotManager.loadSnapshot fromJson m.directory s.id = some s := by
  obtain ⟨f, hf⟩ := Option.isSome_iff_exists.mp ((Directory.get_isSome _ _).mpr hin)
  rcases h.filed _ f hf with ⟨t, ht, hname, hdata⟩ | ⟨j, hname⟩
  · have hsame : s = t := h.same hs ht (snapshotName_injective hname)
    have hread := readSnapshotFile_snapshotFile (toJson s) hcodec.2
    rw [← hsame] at hdata
    simp [SnapshotManager.loadSnapshot, hf, hdata, hread, hcodec.1]
  · exact absurd hname (snapshotName_ne_temp _ _)

theorem Shelved.le_last (h : Shelved toJson renamed m) {s : WalSnapshot} (hlast : renamed.getLast? = some s) {id : ℕ}
    (hid : id ∈ SnapshotManager.ids m.directory) : id ≤ s.id := by
  obtain ⟨t, ht, rfl⟩ := h.filed.exists_renamed hid
  exact key_le_last h.sorted hlast ht

theorem Shelved.loadLatest (h : Shelved toJson renamed m)
    (hcodec : ∀ s ∈ renamed, fromJson (toJson s) = some s ∧ (toJson s).length < 256 ^ 8) :
    m.loadLatest fromJson = renamed.getLast? := by
  cases hlast : renamed.getLast? with
  | none =>
    have hids : SnapshotManager.ids m.directory = [] := by
      rw [List.eq_nil_iff_forall_not_mem]
      intro id hid
      obtain ⟨t, ht, -⟩ := h.filed.exists_renamed hid
      rw [List.getLast?_eq_none_iff.mp hlast] at ht
      exact List.not_mem_nil ht
    simp [SnapshotManager.loadLatest, hids]
  | some s =>
    have hs : s ∈ renamed := List.mem_of_getLast? hlast
    have hin : s.id ∈ SnapshotManager.ids m.directory := (h.filed.mem_ids s.id).mpr (h.last s hlast)
    have hnewest : (SnapshotManager.ids m.directory).getLast? = some s.id :=
      getLast_of_sorted h.filed.ids_sorted hin fun id hid => h.le_last hlast hid
    obtain ⟨older, holder⟩ := List.getLast?_eq_some_iff.mp hnewest
    rw [SnapshotManager.loadLatest, holder, List.reverse_append, List.reverse_singleton, List.singleton_append,
      List.findSome?_cons, h.load hs (hcodec s hs) (h.last s hlast)]

/-! ### One step -/

theorem Filed.insertTemp {d : FileDir} (h : Filed toJson renamed d) (id : ℕ) (f : DiskFile) :
    Filed toJson renamed (d.insert (snapshotName id ++ ".tmp") f) := by
  intro n g hg
  by_cases hn : n = snapshotName id ++ ".tmp"
  · exact .inr ⟨id, hn⟩
  · rw [Directory.get_insert_ne d _ n f hn] at hg
    exact h n g hg

theorem Filed.insertSnapshot {d : FileDir} (h : Filed toJson renamed d) (s : WalSnapshot) (path : String) :
    Filed toJson (renamed ++ [s])
      ((d.erase path).insert (snapshotName s.id) (ReplacedFile.written (snapshotFile (toJson s)))) := by
  intro n g hg
  by_cases hn : n = snapshotName s.id
  · rw [hn, Directory.get_insert_self] at hg
    exact .inl ⟨s, by simp, hn, by rw [← Option.some.inj hg]; rfl⟩
  · rw [Directory.get_insert_ne _ _ n _ hn] at hg
    by_cases hpath : n = path
    · rw [hpath, Directory.get_erase_self] at hg
      cases hg
    · rw [Directory.get_erase_ne d path n hpath] at hg
      rcases h n g hg with ⟨t, ht, hname, hdata⟩ | htemp
      · exact .inl ⟨t, List.mem_append_left _ ht, hname, hdata⟩
      · exact .inr htemp

theorem eraseAll_trimmed (d : FileDir) (names : List String) :
    Trimmed (fun n => n ∉ names) d (names.foldl (fun d n => d.erase n) d) := by
  have hself : Trimmed (fun _ => True) d d := trimmed_self fun _ _ => trivial
  exact (hself.eraseAll names).congr fun n => by simp

theorem Filed.trimmed {d d' : FileDir} {keep : String → Prop} (h : Filed toJson renamed d) (ht : Trimmed keep d d') :
    Filed toJson renamed d' := by
  intro n f hf
  have hin : n ∈ d' := (Directory.get_isSome d' n).mp (by simp [hf])
  rw [ht.kept n (ht.keep_of_mem hin)] at hf
  exact h n f hf

theorem Shelved.stopped (h : Shelved toJson renamed m) (id : ℕ) (bytes : Bytes) (stop : ReplaceStop) :
    Shelved toJson renamed
      { m with
        directory := SnapshotManager.writeSnapshot m.directory (snapshotName id) bytes (some stop)
        nextId := m.nextId + 1 } := by
  have hinsert (f : DiskFile) :
      Shelved toJson renamed
        { m with
          directory := m.directory.insert (snapshotName id ++ ".tmp") f
          nextId := m.nextId + 1 } := by
    refine ⟨h.filed.insertTemp id f, h.sorted, fun s hs => Nat.lt_succ_of_lt (h.next s hs), fun s hs => ?_⟩
    exact AList.mem_insert _ |>.mpr (.inr (h.last s hs))
  match stop with
  | .opening => exact ⟨h.filed, h.sorted, fun s hs => Nat.lt_succ_of_lt (h.next s hs), h.last⟩
  | .writing written => exact hinsert _
  | .syncing => exact hinsert _
  | .renaming => exact hinsert _

theorem Shelved.written (h : Shelved toJson renamed m) (s : WalSnapshot) (hid : s.id = m.nextId) :
    Shelved toJson (renamed ++ [s])
      { m with
        directory := SnapshotManager.writeSnapshot m.directory (snapshotName s.id) (snapshotFile (toJson s)) none
        nextId := m.nextId + 1 } := by
  refine ⟨h.filed.insertSnapshot s _, ?_, ?_, ?_⟩
  · refine List.pairwise_append.mpr ⟨h.sorted, List.pairwise_singleton _ _, fun t ht u hu => ?_⟩
    rw [List.mem_singleton.mp hu, hid]
    exact h.next t ht
  · intro t ht
    rcases List.mem_append.mp ht with ht | ht
    · exact Nat.lt_succ_of_lt (h.next t ht)
    · rw [List.mem_singleton.mp ht, hid]
      exact Nat.lt_succ_self _
  · intro t ht
    rw [List.getLast?_append, List.getLast?_singleton, Option.some_or] at ht
    rw [← Option.some.inj ht]
    exact AList.mem_insert _ |>.mpr (.inl rfl)

theorem SnapshotManager.removeSnapshots_trimmed (m : SnapshotManager) (fails : String → Bool) (removed : List ℕ) :
    Trimmed (fun n => n ∉ (removed.map snapshotName).filter fun n => !fails n) m.directory
      (m.removeSnapshots fails removed).directory :=
  eraseAll_trimmed _ _

theorem Shelved.removed (h : Shelved toJson renamed m) (hkeeps : 1 ≤ m.retentionCount) (fails : String → Bool)
    {removed : List ℕ} (hremoved : ∀ id ∈ removed, id ∈ m.outdated) :
    Shelved toJson renamed (m.removeSnapshots fails removed) := by
  have htrimmed := m.removeSnapshots_trimmed fails removed
  refine ⟨h.filed.trimmed htrimmed, h.sorted, h.next, fun s hs => ?_⟩
  refine (htrimmed.mem_iff _).mpr ⟨fun hmem => ?_, h.last s hs⟩
  obtain ⟨id, hid, hname⟩ := List.mem_map.mp (List.mem_of_mem_filter hmem)
  obtain rfl := snapshotName_injective hname
  have hle := add_le_of_mem_take h.filed.ids_sorted (fun id hid => h.le_last hs hid) (hremoved _ hid)
  omega

theorem Shelved.restart (h : Shelved toJson renamed m) (retentionCount : ℕ) :
    Shelved toJson renamed (SnapshotManager.new m.directory retentionCount) := by
  refine ⟨h.filed, h.sorted, fun t ht => ?_, h.last⟩
  obtain ⟨s, hs⟩ : ∃ s, renamed.getLast? = some s := ⟨_, List.getLast?_eq_some_getLast (List.ne_nil_of_mem ht)⟩
  have hin : s.id ∈ SnapshotManager.ids m.directory := (h.filed.mem_ids s.id).mpr (h.last s hs)
  have hmax := foldl_max_eq _ 0 s.id (Nat.zero_le _) (fun id hid => h.le_last hs hid) (.inr hin)
  have hle := key_le_last h.sorted hs ht
  have hnext : (SnapshotManager.new m.directory retentionCount).nextId = s.id + 1 := by
    rw [← hmax]
    rfl
  omega

/-! ### Over a run -/

def SnapshotOp.keepsOne : SnapshotOp → Prop
  | .restart retentionCount => 1 ≤ retentionCount
  | .create .. => True

theorem Shelved.apply (h : Shelved toJson renamed m) (hkeeps : 1 ≤ m.retentionCount) (op : SnapshotOp)
    (hop : op.keepsOne) :
    Shelved toJson (renamed ++ (op.renames m).toList) (op.apply toJson m) ∧
      1 ≤ (op.apply toJson m).retentionCount := by
  cases op with
  | restart retentionCount =>
    rw [SnapshotOp.renames, Option.toList_none, List.append_nil]
    exact ⟨h.restart retentionCount, hop⟩
  | create position traces recordCount now stop fails =>
    have hwritten := h.written (createSnapshot m.nextId position traces recordCount now) rfl
    cases stop with
    | none => exact ⟨hwritten.removed hkeeps fails fun _ hid => hid, hkeeps⟩
    | some stop =>
      cases stop with
      | writing stop =>
        rw [SnapshotOp.renames, Option.toList_none, List.append_nil]
        exact ⟨h.stopped m.nextId _ stop, hkeeps⟩
      | cleaning removals => exact ⟨hwritten.removed hkeeps fails fun _ hid => List.mem_of_mem_take hid, hkeeps⟩

theorem Shelved.run (h : Shelved toJson renamed m) (hkeeps : 1 ≤ m.retentionCount) (ops : List SnapshotOp)
    (hops : ∀ op ∈ ops, op.keepsOne) :
    Shelved toJson (renamed ++ renamedBy toJson m ops) (runSnapshots toJson m ops) := by
  induction ops generalizing m renamed with
  | nil => simpa [renamedBy, runSnapshots] using h
  | cons op ops ih =>
    obtain ⟨happly, hone⟩ := h.apply hkeeps op (hops op List.mem_cons_self)
    have hrest := ih happly hone fun op hop => hops op (List.mem_cons_of_mem _ hop)
    rwa [List.append_assoc] at hrest

theorem shelved_new (retentionCount : ℕ) : Shelved toJson [] (SnapshotManager.new ∅ retentionCount) := by
  refine ⟨fun n f hf => ?_, List.Pairwise.nil, by simp, by simp⟩
  have hempty : Directory.get (∅ : FileDir) n = none := (Directory.get_eq_none _ n).mpr (AList.notMem_empty n)
  rw [SnapshotManager.new, hempty] at hf
  cases hf

theorem Shelved.ids_written (h : Shelved toJson renamed m) (s : WalSnapshot) (hid : s.id = m.nextId) :
    SnapshotManager.ids
        (SnapshotManager.writeSnapshot m.directory (snapshotName s.id) (snapshotFile (toJson s)) none) =
      SnapshotManager.ids m.directory ++ [s.id] := by
  have hfiled : Filed toJson (renamed ++ [s])
      (SnapshotManager.writeSnapshot m.directory (snapshotName s.id) (snapshotFile (toJson s)) none) :=
    h.filed.insertSnapshot s _
  refine List.Pairwise.eq_of_mem_iff hfiled.ids_sorted ?_ fun id => ?_
  · refine List.pairwise_append.mpr ⟨h.filed.ids_sorted, List.pairwise_singleton _ _, fun i hi j hj => ?_⟩
    obtain ⟨t, ht, rfl⟩ := h.filed.exists_renamed hi
    rw [List.mem_singleton.mp hj, hid]
    exact h.next t ht
  · have hname : snapshotName id = snapshotName s.id ↔ id = s.id := snapshotName_injective.eq_iff
    rw [hfiled.mem_ids, List.mem_append, h.filed.mem_ids, List.mem_singleton, SnapshotManager.writeSnapshot,
      AList.mem_insert, AList.mem_erase, hname, or_comm]
    simp [snapshotName_ne_temp]

theorem Shelved.ids_cleaned (h : Shelved toJson renamed m) :
    SnapshotManager.ids (m.cleanupOldSnapshots fun _ => false).directory =
      (SnapshotManager.ids m.directory).drop ((SnapshotManager.ids m.directory).length - m.retentionCount) := by
  have htrimmed := m.removeSnapshots_trimmed (fun _ => false) m.outdated
  have hsplit := List.take_append_drop ((SnapshotManager.ids m.directory).length - m.retentionCount)
    (SnapshotManager.ids m.directory)
  have hsorted := h.filed.ids_sorted
  rw [← hsplit, List.pairwise_append] at hsorted
  refine List.Pairwise.eq_of_mem_iff (h.filed.trimmed htrimmed).ids_sorted hsorted.2.1 fun id => ?_
  have hremoved : snapshotName id ∈ (m.outdated.map snapshotName).filter (fun _ => !false) ↔ id ∈ m.outdated := by
    simp [snapshotName_injective.eq_iff]
  rw [SnapshotManager.cleanupOldSnapshots, (h.filed.trimmed htrimmed).mem_ids, htrimmed.mem_iff, hremoved,
    ← h.filed.mem_ids]
  constructor
  · intro ⟨hold, hid⟩
    rw [← hsplit, List.mem_append] at hid
    exact hid.resolve_left hold
  · intro hid
    refine ⟨fun hold => ?_, List.mem_of_mem_drop hid⟩
    exact absurd (hsorted.2.2 id hold id hid) (lt_irrefl id)

theorem Shelved.ids_create (h : Shelved toJson renamed m) (position : WalPosition) (traces : TraceMap)
    (recordCount now : ℕ) :
    SnapshotManager.ids (m.create toJson position traces recordCount now none fun _ => false).1.directory =
      (SnapshotManager.ids m.directory ++ [m.nextId]).drop
        ((SnapshotManager.ids m.directory).length + 1 - m.retentionCount) := by
  have hwritten := h.written (createSnapshot m.nextId position traces recordCount now) rfl
  have hids := h.ids_written (createSnapshot m.nextId position traces recordCount now) rfl
  have hcleaned := hwritten.ids_cleaned
  simp only [hids, List.length_append, List.length_singleton] at hcleaned
  exact hcleaned

/-- Once a snapshot has its name it is the one that is loaded, until another one has: whatever creations stop and
whatever removals fail later. -/
theorem latest_snapshot (retentionCount : ℕ) (ops : List SnapshotOp) (hkeeps : 1 ≤ retentionCount)
    (hops : ∀ op ∈ ops, op.keepsOne)
    (hcodec : ∀ s ∈ renamedBy toJson (.new ∅ retentionCount) ops,
      fromJson (toJson s) = some s ∧ (toJson s).length < 256 ^ 8) :
    let m := runSnapshots toJson (.new ∅ retentionCount) ops
    let renamed := renamedBy toJson (.new ∅ retentionCount) ops
    m.loadLatest fromJson = renamed.getLast? ∧ (renamed.Pairwise fun s t => s.id < t.id) ∧
      ∀ position traces recordCount now,
        SnapshotManager.ids (m.create toJson position traces recordCount now none fun _ => false).1.directory =
          (SnapshotManager.ids m.directory ++ [m.nextId]).drop
            ((SnapshotManager.ids m.directory).length + 1 - m.retentionCount) := by
  have hempty : Shelved toJson [] (.new ∅ retentionCount) := shelved_new retentionCount
  have hrun := hempty.run hkeeps ops hops
  rw [List.nil_append] at hrun
  exact ⟨hrun.loadLatest hcodec, hrun.sorted, hrun.ids_create⟩

end Runs

def sampleSnapshot : WalSnapshot := createSnapshot 2 ⟨0, 25⟩ Table.empty 3 7

def emptySnapshotText (s : WalSnapshot) : Bytes :=
  ("\x7b\"id\":" ++ toString s.id ++ ",\"wal_position\":\x7b\"file_sequence\":" ++
    toString s.walPosition.fileSequence ++ ",\"offset\":" ++ toString s.walPosition.offset ++
    "\x7d,\"trace_states\":\x7b\x7d,\"created_at\":" ++ toString s.createdAt ++
    ",\"record_count\":" ++ toString s.recordCount ++ "\x7d").toList.map charByte

/-- The first and the last creation stop; the snapshot of the second one is loaded. -/
theorem latest_snapshot_sample :
    let ops := [SnapshotOp.create ⟨0, 0⟩ Table.empty 0 5 (some (.writing .renaming)) fun _ => false,
      .create ⟨0, 25⟩ Table.empty 3 7 none fun _ => true,
      .create ⟨0, 50⟩ Table.empty 4 9 (some (.writing (.writing 3))) fun _ => false, .restart 2]
    let m := runSnapshots emptySnapshotText (.new ∅ 1) ops
    let renamed := renamedBy emptySnapshotText (.new ∅ 1) ops
    m.loadLatest (fun bytes => if bytes = emptySnapshotText sampleSnapshot then some sampleSnapshot else none) =
        renamed.getLast? ∧
      (renamed.Pairwise fun s t => s.id < t.id) ∧
      ∀ position traces recordCount now,
        SnapshotManager.ids
            (m.create emptySnapshotText position traces recordCount now none fun _ => false).1.directory =
          (SnapshotManager.ids m.directory ++ [m.nextId]).drop
            ((SnapshotManager.ids m.directory).length + 1 - m.retentionCount) := by
  refine latest_snapshot 1 _ (le_refl 1) (by simp [SnapshotOp.keepsOne]) fun s hs => ?_
  obtain rfl : s = sampleSnapshot := List.mem_singleton.mp hs
  exact ⟨if_pos rfl, by decide +kernel⟩

end Xerv
