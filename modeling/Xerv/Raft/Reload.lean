import Xerv.Raft.Log

/-!
# Reloading the log

Loading inserts the entries of all segments in order, so the map gets, for every
index, the last entry with that index on disk. The loops of `purge_entries` and
`truncate_entries` change every listed file once and no other.
-/

namespace Xerv.Raft
open Xerv.Lib

section Last
variable {P : Type}

def lastWith (k : ℕ) (es : List (ClusterEntry P)) : Option (ClusterEntry P) :=
  es.reverse.find? fun e => e.index = k

theorem lastWith_append (k : ℕ) (xs ys : List (ClusterEntry P)) :
    lastWith k (xs ++ ys) = (lastWith k ys).or (lastWith k xs) := by
  unfold lastWith
  rw [List.reverse_append, List.find?_append]

theorem lastWith_singleton (k : ℕ) (e : ClusterEntry P) :
    lastWith k [e] = if e.index = k then some e else none := by
  unfold lastWith
  rw [List.reverse_singleton]
  by_cases h : e.index = k
  · simp [h]
  · simp [h]

theorem lastWith_some (k : ℕ) (es : List (ClusterEntry P)) (e : ClusterEntry P)
    (h : lastWith k es = some e) : e ∈ es ∧ e.index = k := by
  unfold lastWith at h
  exact ⟨List.mem_reverse.mp (List.mem_of_find?_eq_some h), by simpa using List.find?_some h⟩

theorem lastWith_eq_none (k : ℕ) (es : List (ClusterEntry P)) (h : ∀ e ∈ es, e.index ≠ k) :
    lastWith k es = none := by
  unfold lastWith
  rw [List.find?_eq_none]
  intro e he
  simpa using h e (List.mem_reverse.mp he)

theorem lastWith_of_mem (es : List (ClusterEntry P)) (e : ClusterEntry P) (h : e ∈ es) :
    ∃ e', lastWith e.index es = some e' := by
  cases hl : lastWith e.index es with
  | some e' => exact ⟨e', rfl⟩
  | none =>
    unfold lastWith at hl
    rw [List.find?_eq_none] at hl
    have hne := hl e (List.mem_reverse.mpr h)
    simp at hne

theorem get_foldl_insertEntry (es : List (ClusterEntry P)) (m : SortedMap (ClusterEntry P)) (k : ℕ) :
    (es.foldl LogStorage.insertEntry m).get k = (lastWith k es).or (m.get k) := by
  induction es using List.reverseRecOn with
  | nil => rfl
  | append_singleton es e ih =>
    rw [List.foldl_append, lastWith_append, lastWith_singleton]
    show ((es.foldl LogStorage.insertEntry m).insert e.index e).get k = _
    by_cases h : e.index = k
    · subst h
      simp
    · have hk : k ≠ e.index := fun he => h he.symm
      rw [SortedMap.get_insert_ne _ _ _ _ hk, ih, if_neg h]
      rfl

namespace SegmentedLog

theorem reload_get (a : SegmentedLog P) (k : ℕ) : a.reload.get k = lastWith k a.diskEntries := by
  unfold reload
  rw [get_foldl_insertEntry, SortedMap.get_empty, Option.or_none]

theorem mem_diskEntries (a : SegmentedLog P) (e : ClusterEntry P) :
    e ∈ a.diskEntries ↔ ∃ first es, a.files.get first = some es ∧ e ∈ es := by
  unfold diskEntries
  rw [List.mem_flatten]
  constructor
  · intro h
    obtain ⟨es, hes, he⟩ := h
    obtain ⟨first, hf⟩ := (a.files.mem_values_iff es).mp hes
    exact ⟨first, es, hf, he⟩
  · intro h
    obtain ⟨first, es, hf, he⟩ := h
    exact ⟨es, (a.files.mem_values_iff es).mpr ⟨first, hf⟩, he⟩

end SegmentedLog

/-! ### What the loops do to the files -/

section Loop
variable (step : SegmentedLog P → ℕ → SegmentedLog P)
  (f : ℕ → List (ClusterEntry P) → Option (List (ClusterEntry P)))
  (inv : SegmentedLog P → Prop) (hinv : ∀ a k, inv a → inv (step a k))
  (hself : ∀ a k es, inv a → a.files.get k = some es → (step a k).files.get k = f k es)
  (hother : ∀ a k j, inv a → j ≠ k → (step a k).files.get j = a.files.get j)

include hinv hself hother

theorem foldl_files_get (ks : List ℕ) (hnodup : ks.Nodup) (a : SegmentedLog P) (ha : inv a)
    (hin : ∀ k ∈ ks, k ∈ a.files.keys) (j : ℕ) :
    (ks.foldl step a).files.get j =
      if j ∈ ks then (a.files.get j).bind (f j) else a.files.get j := by
  induction ks generalizing a with
  | nil => simp
  | cons k ks ih =>
    obtain ⟨hnot, hrest⟩ := List.nodup_cons.mp hnodup
    obtain ⟨es, hes⟩ := (a.files.mem_keys_iff k).mp (hin k List.mem_cons_self)
    have hin' : ∀ x ∈ ks, x ∈ (step a k).files.keys := by
      intro x hx
      have hxk : x ≠ k := fun he => hnot (he ▸ hx)
      rw [SortedMap.mem_keys_iff, hother a k x ha hxk, ← SortedMap.mem_keys_iff]
      exact hin x (List.mem_cons_of_mem _ hx)
    rw [List.foldl_cons, ih hrest (step a k) (hinv a k ha) hin']
    by_cases hj : j = k
    · subst hj
      rw [if_neg hnot, hself a j es ha hes, hes]
      simp
    · rw [hother a k j ha hj]
      simp [hj]

theorem foldl_files_eq (a : SegmentedLog P) (ha : inv a) :
    (a.files.keys.foldl step a).files = a.files.filterMap f := by
  refine SortedMap.ext_get fun j => ?_
  rw [foldl_files_get step f inv hinv hself hother _ a.files.keys_nodup a ha (fun _ hk => hk),
    SortedMap.get_filterMap]
  by_cases hj : j ∈ a.files.keys
  · rw [if_pos hj]
  · rw [if_neg hj]
    cases hg : a.files.get j with
    | none => rfl
    | some es => exact absurd ((a.files.mem_keys_iff j).mpr ⟨es, hg⟩) hj

end Loop

def purgeKeep (i first : ℕ) (es : List (ClusterEntry P)) : Option (List (ClusterEntry P)) :=
  if first + segmentMaxEntries - 1 ≤ i then none else some es

/-- What truncating at `i` leaves of a file, the map being `logs` afterwards. -/
def truncateKeep (logs : SortedMap (ClusterEntry P)) (i first : ℕ) (es : List (ClusterEntry P)) :
    Option (List (ClusterEntry P)) :=
  if i ≤ first then none
  else if i < first + segmentMaxEntries then
    let kept := (logs.retain fun k => first ≤ k && k < i).values
    if kept.isEmpty then none else some kept
  else some es

namespace SegmentedLog

theorem dropFile_get_self (a : SegmentedLog P) (k : ℕ) : (a.dropFile k).files.get k = none :=
  SortedMap.get_remove_self _ _

theorem dropFile_get_ne (a : SegmentedLog P) (k j : ℕ) (h : j ≠ k) :
    (a.dropFile k).files.get j = a.files.get j :=
  SortedMap.get_remove_ne _ _ _ h

/-- The fields a loop over the files leaves alone. -/
def Frame (a b : SegmentedLog P) : Prop :=
  b.logs = a.logs ∧ b.purged = a.purged ∧ b.saved = a.saved

theorem Frame.refl (a : SegmentedLog P) : Frame a a := ⟨rfl, rfl, rfl⟩

theorem purgeFile_frame (i : ℕ) (a b : SegmentedLog P) (k : ℕ) (h : Frame a b) :
    Frame a (b.purgeFile i k) := by
  unfold purgeFile
  split
  · exact h
  · exact h

theorem truncateFile_frame (i : ℕ) (a b : SegmentedLog P) (k : ℕ) (h : Frame a b) :
    Frame a (b.truncateFile i k) := by
  unfold truncateFile
  dsimp only
  split
  · exact h
  · split
    · split
      · exact h
      · exact h
    · exact h

theorem foldl_frame (step : SegmentedLog P → ℕ → SegmentedLog P) (a : SegmentedLog P)
    (hstep : ∀ b k, Frame a b → Frame a (step b k)) (ks : List ℕ) (b : SegmentedLog P)
    (h : Frame a b) : Frame a (ks.foldl step b) := by
  induction ks generalizing b with
  | nil => exact h
  | cons k ks ih => exact ih _ (hstep b k h)

theorem purge_files (a : SegmentedLog P) (logId : LogId) :
    (a.purge logId).files = a.files.filterMap (purgeKeep logId.index) := by
  refine foldl_files_eq (purgeFile logId.index) (purgeKeep logId.index) (fun _ => True)
    (fun _ _ _ => trivial) ?_ ?_
    { a with purged := some logId, logs := a.logs.retain fun k => logId.index < k } trivial
  · intro b k es _ hes
    unfold purgeFile purgeKeep
    split
    · exact dropFile_get_self b k
    · exact hes
  · intro b k j _ hj
    unfold purgeFile
    split
    · exact dropFile_get_ne b k j hj
    · rfl

theorem truncate_files (a : SegmentedLog P) (logId : LogId) :
    (a.truncate logId).files = a.files.filterMap
      (truncateKeep (a.logs.retain fun k => k < logId.index) logId.index) := by
  refine foldl_files_eq (truncateFile logId.index)
    (truncateKeep (a.logs.retain fun k => k < logId.index) logId.index)
    (Frame { a with logs := a.logs.retain fun k => k < logId.index })
    (truncateFile_frame logId.index _) ?_ ?_
    { a with logs := a.logs.retain fun k => k < logId.index } (Frame.refl _)
  · intro b k es hb hes
    unfold truncateFile truncateKeep between
    dsimp only
    rw [hb.1]
    split
    · exact dropFile_get_self b k
    · split
      · split
        · exact dropFile_get_self b k
        · exact SortedMap.get_insert_self _ _ _
      · exact hes
  · intro b k j _ hj
    unfold truncateFile
    dsimp only
    split
    · exact dropFile_get_ne b k j hj
    · split
      · split
        · exact dropFile_get_ne b k j hj
        · exact SortedMap.get_insert_ne _ _ _ _ hj
      · rfl

theorem purge_frame (a : SegmentedLog P) (logId : LogId) :
    (a.purge logId).logs = (a.logs.retain fun k => logId.index < k) ∧
      (a.purge logId).purged = some logId ∧ (a.purge logId).saved = some logId := by
  have hframe := foldl_frame (purgeFile logId.index)
    { a with purged := some logId, logs := a.logs.retain fun k => logId.index < k }
    (fun b k hb => purgeFile_frame logId.index _ b k hb) a.files.keys _ (Frame.refl _)
  exact ⟨hframe.1, hframe.2.1, rfl⟩

theorem truncate_frame (a : SegmentedLog P) (logId : LogId) :
    (a.truncate logId).logs = (a.logs.retain fun k => k < logId.index) ∧
      (a.truncate logId).purged = a.purged ∧ (a.truncate logId).saved = a.saved :=
  foldl_frame (truncateFile logId.index) { a with logs := a.logs.retain fun k => k < logId.index }
    (fun b k hb => truncateFile_frame logId.index _ b k hb) a.files.keys _ (Frame.refl _)

/-! ### What appending does -/

theorem appendOne_eq (a : SegmentedLog P) (e : ClusterEntry P) :
    ∃ target n, ((∃ count, a.active = some (target, count)) ∨
        target = LogStorage.alignFirst e.index) ∧
      a.appendOne e = ⟨a.files.insert target (a.entriesAt target ++ [e]),
        LogStorage.insertEntry a.logs e, a.purged, a.saved, some (target, n)⟩ := by
  have hopen : (a.openSegment e.index).write e =
      ⟨a.files.insert (LogStorage.alignFirst e.index)
          (a.entriesAt (LogStorage.alignFirst e.index) ++ [e]),
        LogStorage.insertEntry a.logs e, a.purged, a.saved,
        some (LogStorage.alignFirst e.index, 1)⟩ := by
    unfold openSegment write entriesAt
    dsimp only
    rw [SortedMap.get_insert_self, SortedMap.insert_insert]
    rfl
  unfold appendOne ensure
  cases ha : a.active with
  | none => exact ⟨_, 1, .inr rfl, hopen⟩
  | some p =>
    obtain ⟨first, count⟩ := p
    dsimp only
    split
    · exact ⟨_, 1, .inr rfl, hopen⟩
    · refine ⟨first, count + 1, .inl ⟨count, rfl⟩, ?_⟩
      unfold write
      rw [ha]

end SegmentedLog

end Last

end Xerv.Raft
