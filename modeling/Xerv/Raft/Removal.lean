import Xerv.Raft.Reload

/-!
# Truncated and purged entries

A segment named after `F` is taken to end at `F + 999` by `purge_entries` and
`truncate_entries`, but the entries it holds depend on when it was opened. Two
questions are settled here for an arbitrary state of the storage: when truncated
entries stay away for good, and when purged entries do. Both rest on one fact, that
no operation makes up an entry: what is held afterwards was held before or is
appended (`Holds.run`).
-/

namespace Xerv.Raft
open Xerv.Lib

/-! ### Every entry has a history -/

namespace SegmentedLog
variable {P : Type}

/-- The entry is on disk or in the map. -/
def Holds (a : SegmentedLog P) (e : ClusterEntry P) : Prop :=
  e ∈ a.diskEntries ∨ ∃ k, a.logs.get k = some e

theorem holds_of_file (a : SegmentedLog P) (first : ℕ) (es : List (ClusterEntry P))
    (e : ClusterEntry P) (hes : a.files.get first = some es) (he : e ∈ es) : a.Holds e :=
  .inl ((a.mem_diskEntries e).mpr ⟨first, es, hes, he⟩)

/-- Every entry of the map sits at its own index. -/
def Keyed (a : SegmentedLog P) : Prop := ∀ k e, a.logs.get k = some e → e.index = k

theorem mem_between (logs : SortedMap (ClusterEntry P)) (p : ℕ → Bool) (e : ClusterEntry P)
    (h : e ∈ (logs.retain p).values) : ∃ k, p k = true ∧ logs.get k = some e := by
  obtain ⟨k, hk⟩ := ((logs.retain p).mem_values_iff e).mp h
  rw [SortedMap.get_retain] at hk
  by_cases hp : p k = true
  · rw [if_pos hp] at hk
    exact ⟨k, hp, hk⟩
  · rw [if_neg hp] at hk
    exact absurd hk (by simp)

theorem get_of_retain (logs : SortedMap (ClusterEntry P)) (p : ℕ → Bool) (k : ℕ)
    (e : ClusterEntry P) (h : (logs.retain p).get k = some e) : p k = true ∧ logs.get k = some e := by
  rw [SortedMap.get_retain] at h
  by_cases hp : p k = true
  · rw [if_pos hp] at h
    exact ⟨hp, h⟩
  · rw [if_neg hp] at h
    exact absurd h (by simp)

theorem mem_diskEntries_entriesAt (a : SegmentedLog P) (e : ClusterEntry P) :
    e ∈ a.diskEntries ↔ ∃ first, e ∈ a.entriesAt first := by
  rw [mem_diskEntries]
  constructor
  · intro h
    obtain ⟨first, es, hes, he⟩ := h
    exact ⟨first, by simpa [entriesAt, hes] using he⟩
  · intro h
    obtain ⟨first, he⟩ := h
    unfold entriesAt at he
    cases hes : a.files.get first with
    | none => simp [hes] at he
    | some es => exact ⟨first, es, hes, by simpa [hes] using he⟩

theorem appendOne_logs (a : SegmentedLog P) (e : ClusterEntry P) :
    (a.appendOne e).logs = LogStorage.insertEntry a.logs e ∧
      ∀ first, ∀ x ∈ (a.appendOne e).entriesAt first, x ∈ a.entriesAt first ∨ x = e := by
  obtain ⟨target, n, _, heq⟩ := a.appendOne_eq e
  rw [heq]
  refine ⟨rfl, fun first x hx => ?_⟩
  unfold entriesAt at hx ⊢
  dsimp only at hx
  by_cases hf : first = target
  · subst hf
    rw [SortedMap.get_insert_self] at hx
    rcases List.mem_append.mp hx with hx | hx
    · exact .inl hx
    · exact .inr (List.mem_singleton.mp hx)
  · rw [SortedMap.get_insert_ne _ _ _ _ hf] at hx
    exact .inl hx

theorem get_insertEntry (logs : SortedMap (ClusterEntry P)) (x : ClusterEntry P) (k : ℕ)
    (e : ClusterEntry P) (h : (LogStorage.insertEntry logs x).get k = some e) :
    (k = x.index ∧ e = x) ∨ logs.get k = some e := by
  unfold LogStorage.insertEntry at h
  by_cases hk : k = x.index
  · subst hk
    rw [SortedMap.get_insert_self] at h
    exact .inl ⟨rfl, (Option.some.inj h).symm⟩
  · rw [SortedMap.get_insert_ne _ _ _ _ hk] at h
    exact .inr h

theorem Keyed.append {a : SegmentedLog P} (h : Keyed a) (es : List (ClusterEntry P)) :
    Keyed (a.append es) := by
  unfold SegmentedLog.append
  induction es generalizing a with
  | nil => exact h
  | cons x es ih =>
    refine ih fun k e he => ?_
    rw [(a.appendOne_logs x).1] at he
    rcases get_insertEntry a.logs x k e he with ⟨hk, hex⟩ | hold
    · rw [hk, hex]
    · exact h k e hold

theorem Keyed.apply {a : SegmentedLog P} (h : Keyed a) (op : StorageOp P) : Keyed (a.apply op) := by
  cases op with
  | append es => exact h.append es
  | truncate t =>
    intro k e he
    change (a.truncate t).logs.get k = some e at he
    rw [(a.truncate_frame t).1] at he
    exact h k e (get_of_retain _ _ _ _ he).2
  | purge t =>
    intro k e he
    change (a.purge t).logs.get k = some e at he
    rw [(a.purge_frame t).1] at he
    exact h k e (get_of_retain _ _ _ _ he).2
  | restart =>
    intro k e he
    change a.reload.get k = some e at he
    rw [reload_get] at he
    exact (lastWith_some k _ e he).2

theorem Keyed.run {a : SegmentedLog P} (h : Keyed a) (ops : List (StorageOp P)) :
    Keyed (a.run ops) := by
  unfold SegmentedLog.run
  induction ops generalizing a with
  | nil => exact h
  | cons op ops ih => exact ih (h.apply op)

theorem keyed_fresh : Keyed (fresh : SegmentedLog P) := by
  intro k e he
  exact absurd he (by simp [fresh])

/-! One step makes up no entry. -/

theorem Holds.append {a : SegmentedLog P} {e : ClusterEntry P} (es : List (ClusterEntry P))
    (h : (a.append es).Holds e) : a.Holds e ∨ e ∈ es := by
  unfold SegmentedLog.append at h
  induction es generalizing a with
  | nil => exact .inl h
  | cons x es ih =>
    rcases ih h with hone | hrest
    · obtain ⟨hlogs, hfiles⟩ := a.appendOne_logs x
      rcases hone with hdisk | ⟨k, hk⟩
      · obtain ⟨first, hf⟩ := (mem_diskEntries_entriesAt _ _).mp hdisk
        rcases hfiles first e hf with hold | hnew
        · exact .inl (.inl ((mem_diskEntries_entriesAt _ _).mpr ⟨first, hold⟩))
        · exact .inr (hnew ▸ List.mem_cons_self)
      · rw [hlogs] at hk
        rcases get_insertEntry a.logs x k e hk with ⟨_, hex⟩ | hold
        · exact .inr (hex ▸ List.mem_cons_self)
        · exact .inl (.inr ⟨k, hold⟩)
    · exact .inr (List.mem_cons_of_mem _ hrest)

theorem truncateKeep_cases (logs : SortedMap (ClusterEntry P)) (i first : ℕ)
    (es es' : List (ClusterEntry P)) (h : truncateKeep logs i first es = some es') :
    first < i ∧ ((first + segmentMaxEntries ≤ i ∧ es' = es) ∨
      (i < first + segmentMaxEntries ∧
        es' = (logs.retain fun k => first ≤ k && k < i).values ∧ es' ≠ [])) := by
  unfold truncateKeep at h
  dsimp only at h
  split at h
  · exact absurd h (by simp)
  · rename_i hlt
    refine ⟨by omega, ?_⟩
    split at h
    · rename_i hin
      split at h
      · exact absurd h (by simp)
      · rename_i hne
        have hes : _ = es' := Option.some.inj h
        refine .inr ⟨hin, hes.symm, ?_⟩
        intro hnil
        rw [hes, hnil] at hne
        exact hne rfl
    · exact .inl ⟨by omega, (Option.some.inj h).symm⟩

theorem purgeKeep_some (i first : ℕ) (es es' : List (ClusterEntry P))
    (h : purgeKeep i first es = some es') : i < first + segmentMaxEntries - 1 ∧ es' = es := by
  unfold purgeKeep at h
  split at h
  · exact absurd h (by simp)
  · exact ⟨by omega, (Option.some.inj h).symm⟩

theorem truncate_file (a : SegmentedLog P) (t : LogId) (e : ClusterEntry P)
    (h : e ∈ (a.truncate t).diskEntries) :
    (∃ first es, a.files.get first = some es ∧ first + segmentMaxEntries ≤ t.index ∧ e ∈ es) ∨
      ∃ k, k < t.index ∧ a.logs.get k = some e := by
  obtain ⟨first, es', hes', he⟩ := (mem_diskEntries _ _).mp h
  rw [truncate_files, SortedMap.get_filterMap] at hes'
  obtain ⟨es, hes, hkeep⟩ := Option.bind_eq_some_iff.mp hes'
  obtain ⟨_, hcase⟩ := truncateKeep_cases _ _ _ _ _ hkeep
  rcases hcase with ⟨hout, rfl⟩ | ⟨_, rfl, _⟩
  · exact .inl ⟨first, es', hes, hout, he⟩
  · obtain ⟨k, _, hk⟩ := mem_between _ _ _ he
    obtain ⟨hlt, hget⟩ := get_of_retain _ _ _ _ hk
    exact .inr ⟨k, by simpa using hlt, hget⟩

theorem purge_file (a : SegmentedLog P) (t : LogId) (e : ClusterEntry P)
    (h : e ∈ (a.purge t).diskEntries) :
    ∃ first es, a.files.get first = some es ∧ t.index < first + segmentMaxEntries - 1 ∧ e ∈ es := by
  obtain ⟨first, es', hes', he⟩ := (mem_diskEntries _ _).mp h
  rw [purge_files, SortedMap.get_filterMap] at hes'
  obtain ⟨es, hes, hkeep⟩ := Option.bind_eq_some_iff.mp hes'
  obtain ⟨hlt, rfl⟩ := purgeKeep_some _ _ _ _ hkeep
  exact ⟨first, es', hes, hlt, he⟩

theorem Holds.apply {a : SegmentedLog P} {e : ClusterEntry P} (op : StorageOp P)
    (h : (a.apply op).Holds e) : a.Holds e ∨ e ∈ op.appended := by
  cases op with
  | append es => exact Holds.append es h
  | truncate t =>
    left
    rcases h with hdisk | ⟨k, hk⟩
    · rcases a.truncate_file t e hdisk with ⟨first, es, hes, _, he⟩ | ⟨k, _, hk⟩
      · exact a.holds_of_file first es e hes he
      · exact .inr ⟨k, hk⟩
    · change (a.truncate t).logs.get k = some e at hk
      rw [(a.truncate_frame t).1] at hk
      exact .inr ⟨k, (get_of_retain _ _ _ _ hk).2⟩
  | purge t =>
    left
    rcases h with hdisk | ⟨k, hk⟩
    · obtain ⟨first, es, hes, _, he⟩ := a.purge_file t e hdisk
      exact a.holds_of_file first es e hes he
    · change (a.purge t).logs.get k = some e at hk
      rw [(a.purge_frame t).1] at hk
      exact .inr ⟨k, (get_of_retain _ _ _ _ hk).2⟩
  | restart =>
    left
    rcases h with hdisk | ⟨k, hk⟩
    · exact .inl hdisk
    · change a.reload.get k = some e at hk
      rw [reload_get] at hk
      exact .inl (lastWith_some k _ e hk).1

theorem Holds.run {a : SegmentedLog P} {e : ClusterEntry P} (ops : List (StorageOp P))
    (h : (a.run ops).Holds e) : a.Holds e ∨ e ∈ appendedBy ops := by
  unfold SegmentedLog.run at h
  induction ops generalizing a with
  | nil => exact .inl h
  | cons op ops ih =>
    have happ : appendedBy (op :: ops) = op.appended ++ appendedBy ops := List.flatMap_cons
    rw [happ]
    rcases ih h with hone | hrest
    · rcases Holds.apply op hone with hold | hnew
      · exact .inl hold
      · exact .inr (List.mem_append_left _ hnew)
    · exact .inr (List.mem_append_right _ hrest)

theorem holds_of_get (a : SegmentedLog P) (k : ℕ) (e : ClusterEntry P)
    (h : a.logs.get k = some e) : a.Holds e :=
  .inr ⟨k, h⟩

end SegmentedLog

/-! ### Segments as the storage sees them -/

section Storage
variable {P : Type} (codec : EntryCodec P)

def segmentList (d : FileDir) : List (ℕ × String) := (listSegments d).toOption.getD []

def fileEntries (d : FileDir) (path : String) : List (ClusterEntry P) :=
  (loadEntries codec ((d.get path).map DiskFile.data |>.getD [])).toOption.getD []

variable {codec} {s : LogStorage P} {a : SegmentedLog P}

theorem Refines.segmentList_eq (h : Refines codec s a) :
    segmentList s.segments = a.files.keys.map fun i => (i, segmentFilename i) := by
  unfold segmentList
  rw [h.listing]
  rfl

theorem Refines.fileEntries_eq (h : Refines codec s a) (hidle : Idle s) (first : ℕ)
    (es : List (ClusterEntry P)) (hes : a.files.get first = some es) :
    fileEntries codec s.segments (segmentFilename first) = es := by
  obtain ⟨f, hf, hd⟩ := h.file first es hes
  rw [pending_idle s hidle, List.append_nil] at hd
  unfold fileEntries
  rw [hf]
  simp only [Option.map_some, Option.getD_some, hd, loadEntries_encodeEntries]
  rfl

theorem Refines.forall_segments (h : Refines codec s a) (hidle : Idle s)
    (p : ℕ → List (ClusterEntry P) → Prop) :
    (∀ first path, (first, path) ∈ segmentList s.segments →
        p first (fileEntries codec s.segments path)) ↔
      ∀ first es, a.files.get first = some es → p first es := by
  rw [h.segmentList_eq]
  constructor
  · intro hall first es hes
    have hin : first ∈ a.files.keys := (a.files.mem_keys_iff first).mpr ⟨es, hes⟩
    have hp := hall first (segmentFilename first) (List.mem_map_of_mem hin)
    rwa [h.fileEntries_eq hidle first es hes] at hp
  · intro hall first path hmem
    obtain ⟨i, hi, heq⟩ := List.mem_map.mp hmem
    obtain ⟨rfl, rfl⟩ := Prod.mk.inj heq
    obtain ⟨es, hes⟩ := (a.files.mem_keys_iff i).mp hi
    rw [h.fileEntries_eq hidle i es hes]
    exact hall i es hes

theorem run_fresh (ops : List (StorageOp P)) (hbound : Bounded ops)
    (hrun : runStorage codec LogStorage.fresh ops = .ok s) :
    ∃ a, a = SegmentedLog.fresh.run ops ∧ Refines codec s a ∧ Idle s := by
  obtain ⟨s', hs', hrefines, hidle⟩ := (refines_fresh codec).run idle_fresh ops hbound
  rw [hrun] at hs'
  have hs : s = s' := Except.ok.inj hs'
  subst hs
  exact ⟨_, rfl, hrefines, hidle⟩

end Storage

/-! ### Truncation -/

namespace SegmentedLog
variable {P : Type}

theorem reload_of_mem (a : SegmentedLog P) (e : ClusterEntry P) (h : e ∈ a.diskEntries) :
    ∃ e', a.reload.get e.index = some e' := by
  rw [reload_get]
  exact lastWith_of_mem _ e h

theorem run_cons (a : SegmentedLog P) (op : StorageOp P) (ops : List (StorageOp P)) :
    a.run (op :: ops) = (a.apply op).run ops := rfl

theorem truncate_holds_lt (a : SegmentedLog P) (t : LogId) (hkeyed : Keyed a)
    (hfiles : ∀ first es, a.files.get first = some es → first + segmentMaxEntries ≤ t.index →
      ∀ e ∈ es, e.index < t.index)
    (e : ClusterEntry P) (h : (a.truncate t).Holds e) : e.index < t.index := by
  rcases h with hdisk | ⟨k, hk⟩
  · rcases a.truncate_file t e hdisk with ⟨first, es, hes, hout, he⟩ | ⟨k, hlt, hk⟩
    · exact hfiles first es hes hout e he
    · rw [hkeyed k e hk]
      exact hlt
  · rw [(a.truncate_frame t).1] at hk
    obtain ⟨hlt, hget⟩ := get_of_retain _ _ _ _ hk
    rw [hkeyed k e hget]
    simpa using hlt

theorem truncate_keeps_file (a : SegmentedLog P) (t : LogId) (first : ℕ)
    (es : List (ClusterEntry P)) (hes : a.files.get first = some es)
    (hout : first + segmentMaxEntries ≤ t.index) (e : ClusterEntry P) (he : e ∈ es) :
    e ∈ (a.truncate t).diskEntries := by
  refine (mem_diskEntries _ _).mpr ⟨first, es, ?_, he⟩
  have hpos : 0 < segmentMaxEntries := by decide
  rw [truncate_files, SortedMap.get_filterMap, hes, Option.bind_some, truncateKeep,
    if_neg (by omega), if_neg (by omega)]

end SegmentedLog

section Truncate
variable {P : Type} (codec : EntryCodec P)

/-- Truncated entries stay away if and only if every segment that starts 1000 or more below the
truncation point holds only entries below that point. -/
theorem truncated_stay_away_iff (pre : List (StorageOp P)) (hpre : Bounded pre) (s : LogStorage P)
    (hrun : runStorage codec LogStorage.fresh pre = .ok s) (t : LogId) :
    (∀ post, Bounded post → ∃ s', runStorage codec s (.truncate t :: post) = .ok s' ∧
        ∀ k e, s'.logs.get k = some e → t.index ≤ k → e ∈ appendedBy post) ↔
      ∀ first path, (first, path) ∈ segmentList s.segments → first + segmentMaxEntries ≤ t.index →
        ∀ e ∈ fileEntries codec s.segments path, e.index < t.index := by
  obtain ⟨a, ha, hrefines, hidle⟩ := run_fresh pre hpre hrun
  have hkeyed : a.Keyed := ha ▸ SegmentedLog.keyed_fresh.run pre
  rw [hrefines.forall_segments hidle fun first es =>
    first + segmentMaxEntries ≤ t.index → ∀ e ∈ es, e.index < t.index]
  have hreach (post : List (StorageOp P)) (hpost : Bounded post) :=
    hrefines.run hidle (.truncate t :: post) hpost
  constructor
  · intro hall first es hes hout e he
    -- a restart brings back what the file still holds
    have hnone : Bounded [StorageOp.restart (P := P)] := fun e he => absurd he List.not_mem_nil
    obtain ⟨s', hs', hprop⟩ := hall [.restart] hnone
    obtain ⟨s'', hs'', hr, _⟩ := hreach [.restart] hnone
    have hsame : s' = s'' := Except.ok.inj (hs'.symm.trans hs'')
    subst hsame
    obtain ⟨e', he'⟩ := (a.truncate t).reload_of_mem e (a.truncate_keeps_file t first es hes hout e he)
    by_contra hge
    refine absurd (hprop e.index e' ?_ (by omega)) List.not_mem_nil
    rw [hr.logs]
    exact he'
  · intro hfiles post hpost
    obtain ⟨s', hs', hr, _⟩ := hreach post hpost
    refine ⟨s', hs', fun k e hk hle => ?_⟩
    have hkeyed' : ((a.truncate t).run post).Keyed := (hkeyed.apply (.truncate t)).run post
    rw [hr.logs] at hk
    have hindex : e.index = k := hkeyed' k e hk
    rcases SegmentedLog.Holds.run post (SegmentedLog.holds_of_get _ k e hk) with hold | hnew
    · have hlt := a.truncate_holds_lt t hkeyed hfiles e hold
      omega
    · exact hnew

theorem truncated_stay_away_in_first_segment :
    ∃ s, runStorage blankCodec LogStorage.fresh [.append [blankEntry 1, blankEntry 2]] = .ok s ∧
      ∀ post, Bounded post → ∃ s',
        runStorage blankCodec s (.truncate (blankEntry 2).logId :: post) = .ok s' ∧
          ∀ k e, s'.logs.get k = some e → 2 ≤ k → e ∈ appendedBy post := by
  have hbound : Bounded [.append [blankEntry 1, blankEntry 2]] := by decide
  obtain ⟨s, hs, _⟩ := (refines_fresh blankCodec).run idle_fresh _ hbound
  refine ⟨s, hs, (truncated_stay_away_iff blankCodec _ hbound s hs (blankEntry 2).logId).mpr ?_⟩
  intro first path _ hout
  have hfar : first + 1000 ≤ 2 := hout
  omega

/-- The segment of entry 999 is taken to end before entry 1000, which it holds. -/
theorem truncated_entry_returns :
    ∃ s', runStorage blankCodec LogStorage.fresh [.append [blankEntry 999, blankEntry 1000],
        .truncate (blankEntry 1000).logId, .restart] = .ok s' ∧
      s'.logs.get 1000 = some (blankEntry 1000) := by
  obtain ⟨s', hs', hr, _⟩ := (refines_fresh blankCodec).run idle_fresh
    [.append [blankEntry 999, blankEntry 1000], .truncate (blankEntry 1000).logId, .restart]
    (by decide)
  refine ⟨s', hs', ?_⟩
  rw [hr.logs]
  decide

end Truncate

/-! ### Purging -/

namespace SegmentedLog
variable {P : Type}

theorem purge_holds_gt (a : SegmentedLog P) (t : LogId) (hkeyed : Keyed a)
    (hfiles : ∀ first es, a.files.get first = some es →
      first + segmentMaxEntries - 1 ≤ t.index ∨ ∀ e ∈ es, t.index < e.index)
    (e : ClusterEntry P) (h : (a.purge t).Holds e) : t.index < e.index := by
  rcases h with hdisk | ⟨k, hk⟩
  · obtain ⟨first, es, hes, hout, he⟩ := a.purge_file t e hdisk
    rcases hfiles first es hes with hin | hall
    · omega
    · exact hall e he
  · rw [(a.purge_frame t).1] at hk
    obtain ⟨hlt, hget⟩ := get_of_retain _ _ _ _ hk
    rw [hkeyed k e hget]
    simpa using hlt

theorem purge_keeps_file (a : SegmentedLog P) (t : LogId) (first : ℕ)
    (es : List (ClusterEntry P)) (hes : a.files.get first = some es)
    (hin : ¬ first + segmentMaxEntries - 1 ≤ t.index) (e : ClusterEntry P) (he : e ∈ es) :
    e ∈ (a.purge t).diskEntries := by
  refine (mem_diskEntries _ _).mpr ⟨first, es, ?_, he⟩
  rw [purge_files, SortedMap.get_filterMap, hes, Option.bind_some, purgeKeep, if_neg hin]

theorem append_frame (a : SegmentedLog P) (es : List (ClusterEntry P)) :
    (a.append es).purged = a.purged ∧ (a.append es).saved = a.saved := by
  unfold SegmentedLog.append
  induction es generalizing a with
  | nil => exact ⟨rfl, rfl⟩
  | cons x es ih =>
    obtain ⟨_, _, _, heq⟩ := a.appendOne_eq x
    have hih := ih (a.appendOne x)
    rw [heq] at hih
    rw [List.foldl_cons, heq]
    exact hih

end SegmentedLog

def lastPurge {P : Type} (p : Option LogId) (ops : List (StorageOp P)) : Option LogId :=
  ops.foldl (fun p op => match op with | .purge t => some t | _ => p) p

namespace SegmentedLog
variable {P : Type}

theorem run_purged (a : SegmentedLog P) (ops : List (StorageOp P)) (h : a.saved = a.purged) :
    (a.run ops).purged = lastPurge a.purged ops ∧ (a.run ops).saved = lastPurge a.purged ops := by
  induction ops generalizing a with
  | nil => exact ⟨rfl, h⟩
  | cons op ops ih =>
    rw [run_cons]
    cases op with
    | append es =>
      obtain ⟨hp, hs⟩ := a.append_frame es
      have hih := ih (a.append es) (by rw [hp, hs, h])
      rw [hp] at hih
      exact hih
    | truncate t =>
      obtain ⟨_, hp, hs⟩ := a.truncate_frame t
      have hih := ih (a.truncate t) (by rw [hp, hs, h])
      rw [hp] at hih
      exact hih
    | purge t =>
      obtain ⟨_, hp, hs⟩ := a.purge_frame t
      have hih := ih (a.purge t) (by rw [hp, hs])
      rw [hp] at hih
      exact hih
    | restart =>
      have hih := ih a.restart rfl
      have hp : a.restart.purged = a.purged := h
      rw [hp] at hih
      exact hih

end SegmentedLog

section Purge
variable {P : Type} (codec : EntryCodec P)

/-- Purged entries stay away if and only if every segment ends, by its name, at or below the purge
point or holds only entries above it. -/
theorem purge_permanent_iff (pre : List (StorageOp P)) (hpre : Bounded pre) (s : LogStorage P)
    (hrun : runStorage codec LogStorage.fresh pre = .ok s) (t : LogId) :
    (∀ post, Bounded post → (∀ e ∈ appendedBy post, t.index < e.index) →
        ∃ s', runStorage codec s (.purge t :: post ++ [.restart]) = .ok s' ∧
          (∀ k e, s'.logs.get k = some e → t.index < k) ∧
          s'.lastPurgedLogId = lastPurge (some t) post) ↔
      ∀ first path, (first, path) ∈ segmentList s.segments →
        first + segmentMaxEntries - 1 ≤ t.index ∨
          ∀ e ∈ fileEntries codec s.segments path, t.index < e.index := by
  obtain ⟨a, ha, hrefines, hidle⟩ := run_fresh pre hpre hrun
  have hkeyed : a.Keyed := ha ▸ SegmentedLog.keyed_fresh.run pre
  rw [hrefines.forall_segments hidle fun first es =>
    first + segmentMaxEntries - 1 ≤ t.index ∨ ∀ e ∈ es, t.index < e.index]
  have happ (post : List (StorageOp P)) : appendedBy (.purge t :: post ++ [.restart]) =
      appendedBy post := by
    unfold appendedBy
    rw [List.flatMap_append, List.flatMap_cons]
    exact List.append_nil _
  have hreach (post : List (StorageOp P)) (hpost : Bounded post) :=
    hrefines.run hidle (.purge t :: post ++ [.restart]) fun e he => hpost e (happ post ▸ he)
  constructor
  · intro hall first es hes
    by_cases hin : first + segmentMaxEntries - 1 ≤ t.index
    · exact .inl hin
    · right
      intro e he
      have hnone : Bounded ([] : List (StorageOp P)) := fun e he => absurd he List.not_mem_nil
      obtain ⟨s', hs', hprop, _⟩ := hall [] hnone fun e he => absurd he List.not_mem_nil
      obtain ⟨s'', hs'', hr, _⟩ := hreach [] hnone
      have hsame : s' = s'' := Except.ok.inj (hs'.symm.trans hs'')
      subst hsame
      obtain ⟨e', he'⟩ := (a.purge t).reload_of_mem e (a.purge_keeps_file t first es hes hin e he)
      refine hprop e.index e' ?_
      rw [hr.logs]
      exact he'
  · intro hfiles post hpost habove
    obtain ⟨s', hs', hr, _⟩ := hreach post hpost
    have hend : a.run (.purge t :: post ++ [.restart]) = ((a.purge t).run post).restart := by
      unfold SegmentedLog.run
      rw [List.foldl_append]
      rfl
    rw [hend] at hr
    refine ⟨s', hs', fun k e hk => ?_, ?_⟩
    · rw [hr.logs] at hk
      have hk' : ((a.purge t).run post).reload.get k = some e := hk
      rw [SegmentedLog.reload_get] at hk'
      obtain ⟨hmem, hindex⟩ := lastWith_some k _ e hk'
      rcases SegmentedLog.Holds.run post (.inl hmem) with hold | hnew
      · rw [← hindex]
        exact a.purge_holds_gt t hkeyed hfiles e hold
      · rw [← hindex]
        exact habove e hnew
    · obtain ⟨_, hp, hs⟩ := a.purge_frame t
      have hsaved := ((a.purge t).run_purged post (by rw [hp, hs])).2
      rw [hp] at hsaved
      rw [hr.purged]
      exact hsaved

theorem purge_permanent_at_segment_boundary :
    ∃ s, runStorage blankCodec LogStorage.fresh [.append [blankEntry 1000, blankEntry 1001]] = .ok s ∧
      ∀ post, Bounded post → (∀ e ∈ appendedBy post, 999 < e.index) →
        ∃ s', runStorage blankCodec s (.purge (blankEntry 999).logId :: post ++ [.restart]) = .ok s' ∧
          (∀ k e, s'.logs.get k = some e → 999 < k) ∧
          s'.lastPurgedLogId = lastPurge (some (blankEntry 999).logId) post := by
  have hbound : Bounded [.append [blankEntry 1000, blankEntry 1001]] := by decide
  obtain ⟨s, hs, hr, hidle⟩ := (refines_fresh blankCodec).run idle_fresh _ hbound
  refine ⟨s, hs, (purge_permanent_iff blankCodec _ hbound s hs (blankEntry 999).logId).mpr ?_⟩
  refine (hr.forall_segments hidle fun first es => first + segmentMaxEntries - 1 ≤ 999 ∨
    ∀ e ∈ es, 999 < e.index).mpr fun first es hes => ?_
  have hall : ∀ p ∈ (SegmentedLog.fresh.run [.append [blankEntry 1000, blankEntry 1001]]).files.entries,
      ∀ e ∈ p.2, 999 < e.index := by decide
  exact .inr (hall (first, es) ((SortedMap.get_eq_some_iff _ _ _).mp hes))

/-- A purge inside a segment leaves its file alone, and the next process loads it. -/
theorem purged_entry_returns :
    ∃ s', runStorage blankCodec LogStorage.fresh [.append [blankEntry 1, blankEntry 2],
        .purge (blankEntry 1).logId, .restart] = .ok s' ∧
      s'.logs.get 1 = some (blankEntry 1) ∧ s'.lastPurgedLogId = some (blankEntry 1).logId := by
  obtain ⟨s', hs', hr, _⟩ := (refines_fresh blankCodec).run idle_fresh
    [.append [blankEntry 1, blankEntry 2], .purge (blankEntry 1).logId, .restart] (by decide)
  refine ⟨s', hs', ?_, ?_⟩
  · rw [hr.logs]
    decide
  · rw [hr.purged]
    decide

end Purge

end Xerv.Raft
