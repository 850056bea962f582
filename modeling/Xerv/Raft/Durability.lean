import Xerv.Raft.Removal

/-!
# What survives a restart

The invariant `Durable` says of a segmented log that the map is what a reload of
the files would give, at least on the keys it has. Appended entries land behind
everything on disk because every file has an anchor, an entry within 1000 of the
file's name that the caller has moved past (`Settled`), so a new entry goes to the
last file or a later one. A purge keeps the invariant when the files it deletes
hold nothing above the purge point.
-/

namespace Xerv.Raft
open Xerv.Lib

namespace SegmentedLog
variable {P : Type}

/-- The next index to append is above `k`: `k` is in the map, or purged and below the map. -/
def Settled (a : SegmentedLog P) (k : ℕ) : Prop :=
  k ∈ a.logs.keys ∨ ((∃ p, a.purged = some p ∧ k ≤ p.index) ∧ ∀ j ∈ a.logs.keys, k < j)

/-- An append may go on at `s`. -/
def Ready (a : SegmentedLog P) (s : ℕ) : Prop := ∀ k, a.Settled k → k < s

structure Anchored (a : SegmentedLog P) (first : ℕ) (es : List (ClusterEntry P)) : Prop where
  aligned : segmentMaxEntries ∣ first
  above : ∀ e ∈ es, first ≤ e.index
  anchor : ∃ e ∈ es, e.index < first + segmentMaxEntries ∧ a.Settled e.index

structure Durable (a : SegmentedLog P) : Prop where
  keyed : a.Keyed
  kept : ∀ k e, a.logs.get k = some e → lastWith k a.diskEntries = some e
  last : ∀ first n, a.active = some (first, n) → first ∈ a.files.keys ∧ ∀ j ∈ a.files.keys, j ≤ first
  files : ∀ first es, a.files.get first = some es → a.Anchored first es

theorem durable_fresh : Durable (fresh : SegmentedLog P) where
  keyed := keyed_fresh
  kept _ _ h := absurd h (by simp [fresh])
  last _ _ h := absurd h (by simp [fresh])
  files _ _ h := absurd h (by simp [fresh])

/-! ### Appending -/

theorem settled_mem (a : SegmentedLog P) (k : ℕ) (e : ClusterEntry P) (h : a.logs.get k = some e) :
    a.Settled k :=
  .inl ((a.logs.mem_keys_iff k).mpr ⟨e, h⟩)

theorem Durable.first_le {a : SegmentedLog P} (h : Durable a) (s : ℕ) (hready : a.Ready s)
    (j : ℕ) (hj : j ∈ a.files.keys) : j ≤ LogStorage.alignFirst s := by
  obtain ⟨es, hes⟩ := (a.files.mem_keys_iff j).mp hj
  have hanch := h.files j es hes
  obtain ⟨q, hq⟩ := hanch.aligned
  obtain ⟨e, he, _, hset⟩ := hanch.anchor
  have hlow := hanch.above e he
  have hlt := hready _ hset
  unfold LogStorage.alignFirst
  have hpos : 0 < segmentMaxEntries := by decide
  have hdiv : q ≤ s / segmentMaxEntries := by
    rw [Nat.le_div_iff_mul_le hpos, Nat.mul_comm]
    omega
  calc j = q * segmentMaxEntries := by rw [hq, Nat.mul_comm]
    _ ≤ s / segmentMaxEntries * segmentMaxEntries := Nat.mul_le_mul_right _ hdiv

theorem diskEntries_insert_last (a b : SegmentedLog P) (target : ℕ) (e : ClusterEntry P)
    (hlast : ∀ j ∈ a.files.keys, j ≤ target)
    (hfiles : b.files = a.files.insert target (a.entriesAt target ++ [e])) :
    b.diskEntries = a.diskEntries ++ [e] := by
  have hget : (a.files.get target).toList.flatten = a.entriesAt target := by
    unfold entriesAt
    cases a.files.get target with
    | none => rfl
    | some es => simp
  unfold diskEntries
  rw [hfiles, a.files.values_insert_last target _ hlast, a.files.values_split_last target hlast,
    List.flatten_append, List.flatten_append, hget]
  simp

theorem mem_keys_insertEntry (logs : SortedMap (ClusterEntry P)) (e : ClusterEntry P) (k : ℕ) :
    k ∈ (LogStorage.insertEntry logs e).keys ↔ k = e.index ∨ k ∈ logs.keys :=
  logs.mem_keys_insert k e.index e

theorem alignFirst_dvd (i : ℕ) : segmentMaxEntries ∣ LogStorage.alignFirst i :=
  Dvd.intro_left _ rfl

theorem lt_alignFirst (i : ℕ) : i < LogStorage.alignFirst i + segmentMaxEntries := by
  have hdiv := Nat.div_add_mod i segmentMaxEntries
  have hmod : i % segmentMaxEntries < segmentMaxEntries := Nat.mod_lt _ (by decide)
  unfold LogStorage.alignFirst
  rw [Nat.mul_comm]
  omega

theorem settled_appendOne {a : SegmentedLog P} (e : ClusterEntry P) (hready : a.Ready e.index) (k : ℕ)
    (hk : a.Settled k) : (a.appendOne e).Settled k := by
  obtain ⟨target, n, _, heq⟩ := a.appendOne_eq e
  rw [heq]
  rcases hk with hmem | ⟨hpurged, hbelow⟩
  · exact .inl ((mem_keys_insertEntry _ _ _).mpr (.inr hmem))
  · refine .inr ⟨hpurged, fun j hj => ?_⟩
    rcases (mem_keys_insertEntry _ _ _).mp hj with hj | hj
    · rw [hj]
      exact hready k (.inr ⟨hpurged, hbelow⟩)
    · exact hbelow j hj

theorem Durable.anchored_appendOne {a : SegmentedLog P} (h : Durable a) (e : ClusterEntry P)
    (hready : a.Ready e.index) (first : ℕ)
    (htarget : (∃ count, a.active = some (first, count)) ∨ first = LogStorage.alignFirst e.index) :
    (a.appendOne e).Anchored first (a.entriesAt first ++ [e]) := by
  have hnew : (a.appendOne e).Settled e.index := by
    obtain ⟨target, n, _, heq⟩ := a.appendOne_eq e
    rw [heq]
    exact .inl ((mem_keys_insertEntry _ _ _).mpr (.inl rfl))
  cases hold : a.files.get first with
  | some old =>
    have hanch := h.files first old hold
    have hat : a.entriesAt first = old := by simp [entriesAt, hold]
    obtain ⟨x, hx, hnear, hset⟩ := hanch.anchor
    have hxlow := hanch.above x hx
    have hxlt := hready _ hset
    refine ⟨hanch.aligned, fun y hy => ?_, x, ?_, hnear, settled_appendOne e hready _ hset⟩
    · rw [hat] at hy
      rcases List.mem_append.mp hy with hy | hy
      · exact hanch.above y hy
      · rw [List.mem_singleton.mp hy]
        omega
    · rw [hat]
      exact List.mem_append_left _ hx
  | none =>
    -- a new file is named after the entry that opens it
    have hat : a.entriesAt first = [] := by simp [entriesAt, hold]
    have halign : first = LogStorage.alignFirst e.index := by
      rcases htarget with ⟨count, hact⟩ | halign
      · obtain ⟨old, hget⟩ := (a.files.mem_keys_iff first).mp (h.last first count hact).1
        rw [hold] at hget
        exact absurd hget (by simp)
      · exact halign
    rw [hat, halign]
    refine ⟨alignFirst_dvd _, fun y hy => ?_, e, List.mem_singleton.mpr rfl, lt_alignFirst _, hnew⟩
    rw [List.mem_singleton.mp hy]
    exact alignFirst_le _

theorem Durable.appendOne {a : SegmentedLog P} (h : Durable a) (e : ClusterEntry P)
    (hready : a.Ready e.index) : Durable (a.appendOne e) := by
  obtain ⟨target, n, htarget, heq⟩ := a.appendOne_eq e
  have hlast : ∀ j ∈ a.files.keys, j ≤ target := by
    rcases htarget with ⟨count, hact⟩ | halign
    · exact (h.last target count hact).2
    · rw [halign]
      exact h.first_le e.index hready
  have hdisk : (a.appendOne e).diskEntries = a.diskEntries ++ [e] := by
    refine diskEntries_insert_last a _ target e hlast ?_
    rw [heq]
  refine ⟨h.keyed.append [e], ?_, ?_, ?_⟩
  · intro k x hx
    rw [hdisk, lastWith_append, lastWith_singleton]
    rw [heq] at hx
    rcases get_insertEntry a.logs e k x hx with ⟨hk, hxe⟩ | hold
    · rw [if_pos hk.symm, hxe]
      rfl
    · by_cases hk : e.index = k
      · have hlt := hready k (a.settled_mem k x hold)
        omega
      · rw [if_neg hk]
        exact h.kept k x hold
  · intro first m hact
    rw [heq] at hact ⊢
    have hfirst : target = first := congrArg Prod.fst (Option.some.inj hact)
    subst hfirst
    refine ⟨(a.files.mem_keys_insert _ _ _).mpr (.inl rfl), fun j hj => ?_⟩
    rcases (a.files.mem_keys_insert _ _ _).mp hj with hj | hj
    · exact Nat.le_of_eq hj
    · exact hlast j hj
  · intro first es hes
    have hes' : (a.files.insert target (a.entriesAt target ++ [e])).get first = some es := by
      rw [heq] at hes
      exact hes
    by_cases hf : first = target
    · subst hf
      rw [SortedMap.get_insert_self] at hes'
      cases hes'
      exact h.anchored_appendOne e hready first htarget
    · rw [SortedMap.get_insert_ne _ _ _ _ hf] at hes'
      have hanch := h.files first es hes'
      obtain ⟨x, hx, hnear, hset⟩ := hanch.anchor
      exact ⟨hanch.aligned, hanch.above, x, hx, hnear, settled_appendOne e hready _ hset⟩

theorem Ready.appendOne {a : SegmentedLog P} (e : ClusterEntry P) (s : ℕ)
    (hready : a.Ready e.index) (hs : e.index < s) : (a.appendOne e).Ready s := by
  obtain ⟨target, n, _, heq⟩ := a.appendOne_eq e
  intro k hk
  rw [heq] at hk
  rcases hk with hmem | ⟨_, hbelow⟩
  · rcases (mem_keys_insertEntry _ _ _).mp hmem with hmem | hmem
    · omega
    · have hlt := hready k (.inl hmem)
      omega
  · have hlt := hbelow e.index ((mem_keys_insertEntry _ _ _).mpr (.inl rfl))
    omega

theorem Durable.append {a : SegmentedLog P} (h : Durable a) (es : List (ClusterEntry P))
    (hinc : es.Pairwise fun x y => x.index < y.index) (hready : ∀ e ∈ es, a.Ready e.index) :
    Durable (a.append es) := by
  unfold SegmentedLog.append
  induction es generalizing a with
  | nil => exact h
  | cons e es ih =>
    obtain ⟨hhead, htail⟩ := List.pairwise_cons.mp hinc
    have he := hready e List.mem_cons_self
    refine ih (h.appendOne e he) htail fun x hx => ?_
    exact he.appendOne e x.index (hhead x hx)

/-! ### Removing -/

/-- Dropping or rewriting files leaves the last entry with index `k` alone, if every file keeps its
own last entry with that index or gets `e`. -/
theorem lastWith_filterMap (k : ℕ) (e : ClusterEntry P) (files : List (ℕ × List (ClusterEntry P)))
    (f : ℕ → List (ClusterEntry P) → Option (List (ClusterEntry P)))
    (hf : ∀ p ∈ files, lastWith k ((f p.1 p.2).getD []) = lastWith k p.2 ∨
      lastWith k ((f p.1 p.2).getD []) = some e)
    (h : lastWith k (files.map Prod.snd).flatten = some e) :
    lastWith k (((files.filterMap fun p => (f p.1 p.2).map fun v => (p.1, v)).map Prod.snd).flatten) =
      some e := by
  -- what is loaded afterwards is what was loaded before, or `e`
  have hgen : lastWith k
        (((files.filterMap fun p => (f p.1 p.2).map fun v => (p.1, v)).map Prod.snd).flatten) =
          lastWith k (files.map Prod.snd).flatten ∨
      lastWith k
        (((files.filterMap fun p => (f p.1 p.2).map fun v => (p.1, v)).map Prod.snd).flatten) =
          some e := by
    clear h
    induction files with
    | nil => exact .inl rfl
    | cons p files ih =>
      obtain ⟨first, es⟩ := p
      have hhead := hf (first, es) List.mem_cons_self
      have htail := ih fun q hq => hf q (List.mem_cons_of_mem _ hq)
      have hsplit : lastWith k ((((first, es) :: files).filterMap fun p =>
            (f p.1 p.2).map fun v => (p.1, v)).map Prod.snd).flatten =
          (lastWith k (((files.filterMap fun p =>
            (f p.1 p.2).map fun v => (p.1, v)).map Prod.snd).flatten)).or
              (lastWith k ((f first es).getD [])) := by
        cases hfe : f first es with
        | none => simp [hfe, lastWith]
        | some v => simp [hfe, lastWith_append]
      rw [hsplit, List.map_cons, List.flatten_cons, lastWith_append]
      rcases htail with htail | htail
      · rw [htail]
        rcases hhead with hhead | hhead
        · exact .inl (by rw [hhead])
        · rw [hhead]
          cases lastWith k (files.map Prod.snd).flatten with
          | none => exact .inr rfl
          | some x => exact .inl rfl
      · rw [htail]
        exact .inr rfl
  rcases hgen with hgen | hgen
  · rw [hgen, h]
  · exact hgen

theorem kept_filterMap (a b : SegmentedLog P)
    (f : ℕ → List (ClusterEntry P) → Option (List (ClusterEntry P)))
    (hfiles : b.files = a.files.filterMap f) (k : ℕ) (e : ClusterEntry P)
    (hf : ∀ first es, a.files.get first = some es →
      lastWith k ((f first es).getD []) = lastWith k es ∨
        lastWith k ((f first es).getD []) = some e)
    (h : lastWith k a.diskEntries = some e) : lastWith k b.diskEntries = some e := by
  unfold diskEntries
  rw [hfiles]
  refine lastWith_filterMap k e a.files.entries f ?_ h
  intro p hp
  exact hf p.1 p.2 ((a.files.get_eq_some_iff p.1 p.2).mpr hp)

/-! Purging -/

theorem purge_last (i : ℕ) (ks : List ℕ) (a : SegmentedLog P)
    (h : ∀ first n, a.active = some (first, n) →
      first ∈ a.files.keys ∧ ∀ j ∈ a.files.keys, j ≤ first) :
    ∀ first n, (ks.foldl (purgeFile i) a).active = some (first, n) →
      first ∈ (ks.foldl (purgeFile i) a).files.keys ∧
        ∀ j ∈ (ks.foldl (purgeFile i) a).files.keys, j ≤ first := by
  induction ks generalizing a with
  | nil => exact h
  | cons k ks ih =>
    refine ih (purgeFile i a k) fun first n hact => ?_
    unfold purgeFile at hact ⊢
    split at hact
    · rename_i hdrop
      rw [if_pos hdrop]
      obtain ⟨hact', hne⟩ := Option.filter_eq_some_iff.mp hact
      obtain ⟨hin, hmax⟩ := h first n hact'
      refine ⟨(a.files.mem_keys_remove _ _).mpr ⟨hin, by simpa using hne⟩, fun j hj => ?_⟩
      exact hmax j ((a.files.mem_keys_remove _ _).mp hj).1
    · rename_i hdrop
      rw [if_neg hdrop]
      exact h first n hact

theorem Durable.purge {a : SegmentedLog P} (h : Durable a) (t : LogId)
    (hforward : ∀ p, a.purged = some p → p.index ≤ t.index)
    (hwhole : ∀ first es, a.files.get first = some es → first + segmentMaxEntries - 1 ≤ t.index →
      ∀ e ∈ es, e.index ≤ t.index) :
    Durable (a.purge t) := by
  obtain ⟨hlogs, hpurged, _⟩ := a.purge_frame t
  refine ⟨h.keyed.apply (.purge t), ?_, ?_, ?_⟩
  · intro k e he
    rw [hlogs] at he
    obtain ⟨hgt, hget⟩ := get_of_retain _ _ _ _ he
    have hgt' : t.index < k := by simpa using hgt
    refine kept_filterMap a _ _ (a.purge_files t) k e (fun first es hes => ?_) (h.kept k e hget)
    unfold purgeKeep
    split
    · rename_i hdrop
      left
      have hnone : lastWith k es = none := by
        refine lastWith_eq_none k es fun x hx hxk => ?_
        have hle := hwhole first es hes hdrop x hx
        omega
      rw [hnone]
      rfl
    · exact .inl rfl
  · exact purge_last t.index a.files.keys
      { a with purged := some t, logs := a.logs.retain fun k => t.index < k } h.last
  · intro first es hes
    rw [purge_files, SortedMap.get_filterMap] at hes
    obtain ⟨es', hes', hkeep⟩ := Option.bind_eq_some_iff.mp hes
    obtain ⟨_, rfl⟩ := purgeKeep_some _ _ _ _ hkeep
    have hanch := h.files first es hes'
    obtain ⟨x, hx, hnear, hset⟩ := hanch.anchor
    refine ⟨hanch.aligned, hanch.above, x, hx, hnear, ?_⟩
    unfold Settled
    rw [hlogs, hpurged]
    by_cases hle : x.index ≤ t.index
    · refine .inr ⟨⟨t, rfl, hle⟩, fun j hj => ?_⟩
      have hgt := ((a.logs.mem_keys_retain _ j).mp hj).2
      have hgt' : t.index < j := by simpa using hgt
      omega
    · rcases hset with hmem | ⟨⟨p, hp, hxp⟩, _⟩
      · exact .inl ((a.logs.mem_keys_retain _ _).mpr ⟨hmem, by simpa using hle⟩)
      · have hpt := hforward p hp
        omega

/-! Truncating -/

/-- Along the truncation loop: the active segment is behind every file that is not about to be
removed. -/
def ActiveLast (i : ℕ) (rest : List ℕ) (a : SegmentedLog P) : Prop :=
  ∀ first n, a.active = some (first, n) →
    first ∈ a.files.keys ∧ ∀ j ∈ a.files.keys, j ≤ first ∨ (j ∈ rest ∧ i ≤ j)

theorem ActiveLast.dropFile {i k : ℕ} {rest : List ℕ} {a : SegmentedLog P}
    (h : ActiveLast i (k :: rest) a) : ActiveLast i rest (a.dropFile k) := by
  intro first n hact
  obtain ⟨hact', hne⟩ := Option.filter_eq_some_iff.mp hact
  obtain ⟨hin, hmax⟩ := h first n hact'
  refine ⟨(a.files.mem_keys_remove _ _).mpr ⟨hin, by simpa using hne⟩, fun j hj => ?_⟩
  obtain ⟨hj, hjk⟩ := (a.files.mem_keys_remove _ _).mp hj
  rcases hmax j hj with hle | ⟨hrest, hij⟩
  · exact .inl hle
  · rcases List.mem_cons.mp hrest with hjk' | hrest
    · exact absurd hjk' hjk
    · exact .inr ⟨hrest, hij⟩

theorem ActiveLast.truncateFile {i k : ℕ} {rest : List ℕ} {a : SegmentedLog P}
    (h : ActiveLast i (k :: rest) a)
    (hfar : ∀ j ∈ a.files.keys, j ≤ k ∨ (j ∈ rest ∧ k + segmentMaxEntries ≤ j)) :
    ActiveLast i rest (a.truncateFile i k) := by
  unfold SegmentedLog.truncateFile
  dsimp only
  split
  · exact h.dropFile
  · rename_i hlt
    split
    · rename_i hin
      split
      · exact h.dropFile
      · intro first n hact
        have hfirst : k = first := congrArg Prod.fst (Option.some.inj hact)
        subst hfirst
        refine ⟨(a.files.mem_keys_insert _ _ _).mpr (.inl rfl), fun j hj => ?_⟩
        rcases (a.files.mem_keys_insert _ _ _).mp hj with hj | hj
        · exact .inl (Nat.le_of_eq hj)
        · rcases hfar j hj with hle | ⟨hrest, hge⟩
          · exact .inl hle
          · exact .inr ⟨hrest, by omega⟩
    · intro first n hact
      obtain ⟨hin, hmax⟩ := h first n hact
      refine ⟨hin, fun j hj => ?_⟩
      rcases hmax j hj with hle | ⟨hrest, hij⟩
      · exact .inl hle
      · rcases List.mem_cons.mp hrest with hjk | hrest
        · omega
        · exact .inr ⟨hrest, hij⟩

theorem mem_keys_of_truncateFile (i : ℕ) (a : SegmentedLog P) (k j : ℕ) (hk : k ∈ a.files.keys)
    (hj : j ∈ (a.truncateFile i k).files.keys) : j ∈ a.files.keys := by
  unfold SegmentedLog.truncateFile at hj
  dsimp only at hj
  split at hj
  · exact ((a.files.mem_keys_remove _ _).mp hj).1
  · split at hj
    · split at hj
      · exact ((a.files.mem_keys_remove _ _).mp hj).1
      · rcases (a.files.mem_keys_insert _ _ _).mp hj with hj | hj
        · rw [hj]
          exact hk
        · exact hj
    · exact hj

theorem truncate_activeLast (i : ℕ) (done rest : List ℕ)
    (hsorted : (done ++ rest).Pairwise (· < ·))
    (haligned : ∀ k ∈ done ++ rest, segmentMaxEntries ∣ k) (a : SegmentedLog P)
    (hsub : ∀ j ∈ a.files.keys, j ∈ done ++ rest) (hrest : ∀ k ∈ rest, k ∈ a.files.keys)
    (h : ActiveLast i rest a) : ActiveLast i [] (rest.foldl (SegmentedLog.truncateFile i) a) := by
  induction rest generalizing done a with
  | nil => exact h
  | cons k rest ih =>
    have hassoc : done ++ k :: rest = (done ++ [k]) ++ rest := by simp
    have hk := hrest k List.mem_cons_self
    obtain ⟨_, hks, hdone⟩ := List.pairwise_append.mp hsorted
    have hkrest := (List.pairwise_cons.mp hks).1
    have hfar : ∀ j ∈ a.files.keys, j ≤ k ∨ (j ∈ rest ∧ k + segmentMaxEntries ≤ j) := by
      intro j hj
      rcases List.mem_append.mp (hsub j hj) with hd | hr
      · exact .inl (Nat.le_of_lt (hdone j hd k List.mem_cons_self))
      · rcases List.mem_cons.mp hr with hjk | hr
        · exact .inl (Nat.le_of_eq hjk)
        · have hlt := hkrest j hr
          obtain ⟨p, hp⟩ := haligned j (List.mem_append_right _ (List.mem_cons_of_mem _ hr))
          obtain ⟨q, hq⟩ := haligned k (List.mem_append_right _ List.mem_cons_self)
          refine .inr ⟨hr, ?_⟩
          unfold segmentMaxEntries at hp hq ⊢
          omega
    refine ih (done ++ [k]) (hassoc ▸ hsorted) (hassoc ▸ haligned) (a.truncateFile i k) ?_ ?_
      (h.truncateFile hfar)
    · intro j hj
      rw [← hassoc]
      exact hsub j (mem_keys_of_truncateFile i a k j hk hj)
    · intro j hj
      have hne : j ≠ k := Nat.ne_of_gt (hkrest j hj)
      exact mem_keys_truncateFile i a k j (hrest j (List.mem_cons_of_mem _ hj)) hne

theorem lastWith_between (logs : SortedMap (ClusterEntry P)) (p : ℕ → Bool)
    (hkeyed : ∀ k e, logs.get k = some e → e.index = k) (k : ℕ) :
    lastWith k (logs.retain p).values = if p k then logs.get k else none := by
  cases hl : lastWith k (logs.retain p).values with
  | some e =>
    obtain ⟨hmem, hk⟩ := lastWith_some k _ e hl
    obtain ⟨j, hpj, hj⟩ := mem_between logs p e hmem
    have hjk : j = k := by rw [← hk, hkeyed j e hj]
    subst hjk
    rw [if_pos hpj, hj]
  | none =>
    by_cases hp : p k = true
    · rw [if_pos hp]
      cases hget : logs.get k with
      | none => rfl
      | some e =>
        have hmem : e ∈ (logs.retain p).values := by
          refine ((logs.retain p).mem_values_iff e).mpr ⟨k, ?_⟩
          rw [SortedMap.get_retain, if_pos hp, hget]
        obtain ⟨e', he'⟩ := lastWith_of_mem _ e hmem
        rw [hkeyed k e hget, hl] at he'
        exact absurd he' (by simp)
    · rw [if_neg hp]

theorem Durable.truncate_kept {a : SegmentedLog P} (h : Durable a) (t : LogId) (k : ℕ)
    (e : ClusterEntry P) (he : (a.truncate t).logs.get k = some e) :
    lastWith k (a.truncate t).diskEntries = some e := by
  rw [(a.truncate_frame t).1] at he
  have hkeyed' : ∀ k e, (a.logs.retain fun k => k < t.index).get k = some e → e.index = k :=
    fun k e he => h.keyed k e (get_of_retain _ _ _ _ he).2
  have hget := (get_of_retain _ _ _ _ he).2
  have hlt : k < t.index := by simpa using (get_of_retain _ _ _ _ he).1
  refine kept_filterMap a _ _ (a.truncate_files t) k e (fun first es hes => ?_) (h.kept k e hget)
  -- below the start of a file nothing is lost with it
  have hbelow : k < first → lastWith k es = none := by
    intro hk
    refine lastWith_eq_none k es fun x hx hxk => ?_
    have hge := (h.files first es hes).above x hx
    omega
  have hbetween := lastWith_between (a.logs.retain fun k => k < t.index)
    (fun j => first ≤ j && j < t.index) hkeyed' k
  unfold truncateKeep
  dsimp only
  split
  · exact .inl (by rw [hbelow (by omega)]; rfl)
  · split
    · have hrewritten : lastWith k (((a.logs.retain fun k => k < t.index).retain
          fun j => first ≤ j && j < t.index).values) = lastWith k es ∨
        lastWith k (((a.logs.retain fun k => k < t.index).retain
          fun j => first ≤ j && j < t.index).values) = some e := by
        rw [hbetween]
        by_cases hk : first ≤ k
        · right
          simpa [hk, hlt] using he
        · left
          rw [hbelow (by omega)]
          simp [hk]
      split
      · rename_i hempty
        rw [List.isEmpty_iff.mp hempty] at hrewritten
        exact hrewritten
      · exact hrewritten
    · exact .inl rfl

theorem Durable.truncate_last {a : SegmentedLog P} (h : Durable a) (t : LogId) (first n : ℕ)
    (hact : (a.truncate t).active = some (first, n)) :
    first ∈ (a.truncate t).files.keys ∧ ∀ j ∈ (a.truncate t).files.keys, j ≤ first := by
  have hactive : ActiveLast t.index a.files.keys
      { a with logs := a.logs.retain fun k => k < t.index } := by
    intro first n hact
    obtain ⟨hin, hmax⟩ := h.last first n hact
    exact ⟨hin, fun j hj => .inl (hmax j hj)⟩
  have haligned : ∀ k ∈ a.files.keys, segmentMaxEntries ∣ k := by
    intro k hk
    obtain ⟨es, hes⟩ := (a.files.mem_keys_iff k).mp hk
    exact (h.files k es hes).aligned
  have hend := truncate_activeLast t.index [] a.files.keys a.files.keys_sorted haligned
    { a with logs := a.logs.retain fun k => k < t.index } (fun _ hj => hj) (fun _ hk => hk) hactive
  obtain ⟨hin, hmax⟩ := hend first n hact
  refine ⟨hin, fun j hj => ?_⟩
  rcases hmax j hj with hle | ⟨hnil, _⟩
  · exact hle
  · exact absurd hnil List.not_mem_nil

theorem Durable.truncate_anchored {a : SegmentedLog P} (h : Durable a) (t : LogId) (first : ℕ)
    (es : List (ClusterEntry P)) (hes : (a.truncate t).files.get first = some es) :
    (a.truncate t).Anchored first es := by
  obtain ⟨hlogs, hpurged, _⟩ := a.truncate_frame t
  have hsub : ∀ j, j ∈ (a.logs.retain fun k => k < t.index).keys → j ∈ a.logs.keys :=
    fun j hj => ((a.logs.mem_keys_retain _ j).mp hj).1
  rw [truncate_files, SortedMap.get_filterMap] at hes
  obtain ⟨old, hold, hkeep⟩ := Option.bind_eq_some_iff.mp hes
  have hanch := h.files first old hold
  obtain ⟨hfirst, hcase⟩ := truncateKeep_cases _ _ _ _ _ hkeep
  rcases hcase with ⟨hout, rfl⟩ | ⟨hin, hes', hne⟩
  · obtain ⟨x, hx, hnear, hset⟩ := hanch.anchor
    refine ⟨hanch.aligned, hanch.above, x, hx, hnear, ?_⟩
    unfold Settled
    rw [hlogs, hpurged]
    rcases hset with hmem | ⟨hp, hbelow⟩
    · refine .inl ((a.logs.mem_keys_retain _ _).mpr ⟨hmem, ?_⟩)
      have hx' : x.index < t.index := by omega
      simpa using hx'
    · exact .inr ⟨hp, fun j hj => hbelow j (hsub j hj)⟩
  · -- a rewritten file holds entries of the map in its own range
    have hall : ∀ x ∈ es, first ≤ x.index ∧ x.index < t.index ∧
        x.index ∈ (a.logs.retain fun k => k < t.index).keys := by
      intro x hx
      rw [hes'] at hx
      obtain ⟨k, hk, hget⟩ := mem_between _ _ _ hx
      have hrange : first ≤ k ∧ k < t.index := by simpa using hk
      rw [h.keyed k x (get_of_retain _ _ _ _ hget).2]
      exact ⟨hrange.1, hrange.2, (SortedMap.mem_keys_iff _ k).mpr ⟨x, hget⟩⟩
    obtain ⟨x, hx⟩ := List.exists_mem_of_ne_nil es hne
    obtain ⟨_, hxlt, hxmem⟩ := hall x hx
    refine ⟨hanch.aligned, fun y hy => (hall y hy).1, x, hx, by omega, ?_⟩
    unfold Settled
    rw [hlogs]
    exact .inl hxmem

theorem Durable.truncate {a : SegmentedLog P} (h : Durable a) (t : LogId) :
    Durable (a.truncate t) :=
  ⟨h.keyed.apply (.truncate t), h.truncate_kept t, h.truncate_last t, h.truncate_anchored t⟩

/-! ### Restarting -/

theorem Durable.restart {a : SegmentedLog P} (h : Durable a) : Durable a.restart := by
  refine ⟨h.keyed.apply .restart, ?_, ?_, ?_⟩
  · intro k e he
    have he' : a.reload.get k = some e := he
    rwa [reload_get] at he'
  · intro first n hact
    have hact' : a.reopened = some (first, n) := hact
    obtain ⟨last, hlast, hsome⟩ := Option.bind_eq_some_iff.mp hact'
    dsimp only at hsome
    split at hsome
    · have heq : last = first := congrArg Prod.fst (Option.some.inj hsome)
      subst heq
      exact (a.files.lastKey?_eq_some_iff last).mp hlast
    · exact absurd hsome (by simp)
  · intro first es hes
    have hanch := h.files first es hes
    obtain ⟨x, hx, hnear, _⟩ := hanch.anchor
    refine ⟨hanch.aligned, hanch.above, x, hx, hnear, ?_⟩
    obtain ⟨e', he'⟩ := a.reload_of_mem x ((a.mem_diskEntries x).mpr ⟨first, es, hes, hx⟩)
    exact a.restart.settled_mem x.index e' he'

theorem Durable.survives {a : SegmentedLog P} (h : Durable a) (k : ℕ) (e : ClusterEntry P)
    (he : a.logs.get k = some e) : a.restart.logs.get k = some e := by
  show a.reload.get k = some e
  rw [reload_get]
  exact h.kept k e he

end SegmentedLog

/-! ### Runs of the storage -/

section Storage
variable {P : Type} (codec : EntryCodec P)

/-- What the storage is promised of its next operation, and that a purge deletes no file with an
entry above the purge point. Appended indices increase and go on behind `get_log_state`; purges go
forward. -/
def Orderly (s : LogStorage P) : StorageOp P → Prop
  | .append es => es.Pairwise (fun x y => x.index < y.index) ∧
      ∀ e ∈ es, e.index < indexBound ∧ ∀ l, s.lastLogIndex = some l → l < e.index
  | .purge t => (∀ p, s.lastPurgedLogId = some p → p.index ≤ t.index) ∧
      ∀ first path, (first, path) ∈ segmentList s.segments →
        first + segmentMaxEntries - 1 ≤ t.index →
          ∀ e ∈ fileEntries codec s.segments path, e.index ≤ t.index
  | .truncate _ => True
  | .restart => True

def OrderlyRun : LogStorage P → List (StorageOp P) → Prop
  | _, [] => True
  | s, op :: ops => Orderly codec s op ∧ ∀ s', op.apply codec s = .ok s' → OrderlyRun s' ops

-- the conditions can be evaluated on a concrete run
def decidableOfSome {α : Type} (o : Option α) (p : α → Prop) [DecidablePred p] :
    Decidable (∀ x, o = some x → p x) :=
  match o with
  | none => isTrue fun _ h => absurd h (by simp)
  | some x => decidable_of_iff (p x) ⟨fun h _ hy => Option.some.inj hy ▸ h, fun h => h x rfl⟩

instance (s : LogStorage P) (op : StorageOp P) : Decidable (Orderly codec s op) :=
  match op with
  | .append _ =>
    have (e : ClusterEntry P) : Decidable (∀ l, s.lastLogIndex = some l → l < e.index) :=
      decidableOfSome _ _
    inferInstanceAs (Decidable (_ ∧ _))
  | .purge t =>
    have : Decidable (∀ p, s.lastPurgedLogId = some p → p.index ≤ t.index) := decidableOfSome _ _
    have : Decidable (∀ first path, (first, path) ∈ segmentList s.segments →
        first + segmentMaxEntries - 1 ≤ t.index →
          ∀ e ∈ fileEntries codec s.segments path, e.index ≤ t.index) :=
      decidable_of_iff (∀ x ∈ segmentList s.segments, x.1 + segmentMaxEntries - 1 ≤ t.index →
        ∀ e ∈ fileEntries codec s.segments x.2, e.index ≤ t.index) Prod.forall
    inferInstanceAs (Decidable (_ ∧ _))
  | .truncate _ => isTrue trivial
  | .restart => isTrue trivial

instance decidableOrderlyRun : (s : LogStorage P) → (ops : List (StorageOp P)) →
    Decidable (OrderlyRun codec s ops)
  | _, [] => isTrue trivial
  | s, op :: ops =>
    have : Decidable (∀ s', op.apply codec s = .ok s' → OrderlyRun codec s' ops) :=
      match op.apply codec s with
      | .error _ => isTrue fun _ h => absurd h (by simp)
      | .ok s' =>
        have := decidableOrderlyRun s' ops
        decidable_of_iff (OrderlyRun codec s' ops)
          ⟨fun h _ hy => Except.ok.inj hy ▸ h, fun h => h s' rfl⟩
    inferInstanceAs (Decidable (_ ∧ _))

variable {codec} {s : LogStorage P} {a : SegmentedLog P}

theorem Refines.ready (h : Refines codec s a) (i : ℕ)
    (hi : ∀ l, s.lastLogIndex = some l → l < i) : a.Ready i := by
  intro k hk
  unfold LogStorage.lastLogIndex at hi
  rw [h.logs, h.purged] at hi
  cases hl : a.logs.lastKey? with
  | some l =>
    rw [hl] at hi
    have hli := hi l rfl
    obtain ⟨hmem, hmax⟩ := (a.logs.lastKey?_eq_some_iff l).mp hl
    rcases hk with hin | ⟨_, hbelow⟩
    · have hle := hmax k hin
      omega
    · have hlt := hbelow l hmem
      omega
  | none =>
    rw [hl] at hi
    have hnil := (a.logs.lastKey?_eq_none_iff).mp hl
    rcases hk with hin | ⟨⟨p, hp, hkp⟩, _⟩
    · rw [hnil] at hin
      exact absurd hin List.not_mem_nil
    · rw [hp] at hi
      have hpi := hi p.index rfl
      omega

theorem Orderly.step (op : StorageOp P) (h : Refines codec s a) (hidle : Idle s)
    (hdur : a.Durable) (hop : Orderly codec s op) :
    ∃ s', op.apply codec s = .ok s' ∧ Refines codec s' (a.apply op) ∧ Idle s' ∧
      (a.apply op).Durable := by
  have hbound : ∀ e ∈ op.appended, e.index < indexBound := by
    intro e he
    cases op with
    | append es => exact (hop.2 e he).1
    | truncate t => exact absurd he List.not_mem_nil
    | purge t => exact absurd he List.not_mem_nil
    | restart => exact absurd he List.not_mem_nil
  obtain ⟨s', hs', hr, hi⟩ := h.apply hidle op hbound
  refine ⟨s', hs', hr, hi, ?_⟩
  cases op with
  | append es =>
    exact hdur.append es hop.1 fun e he => h.ready e.index (hop.2 e he).2
  | truncate t => exact hdur.truncate t
  | purge t =>
    obtain ⟨hforward, hwhole⟩ := hop
    refine hdur.purge t (fun p hp => hforward p (h.purged.trans hp)) ?_
    exact (h.forall_segments hidle fun first es => first + segmentMaxEntries - 1 ≤ t.index →
      ∀ e ∈ es, e.index ≤ t.index).mp hwhole
  | restart => exact hdur.restart

theorem OrderlyRun.durable (ops : List (StorageOp P)) (h : Refines codec s a) (hidle : Idle s)
    (hdur : a.Durable) (hops : OrderlyRun codec s ops) :
    ∃ s' a', runStorage codec s ops = .ok s' ∧ Refines codec s' a' ∧ Idle s' ∧ a'.Durable := by
  induction ops generalizing s a with
  | nil => exact ⟨s, a, rfl, h, hidle, hdur⟩
  | cons op ops ih =>
    obtain ⟨hop, hrest⟩ := hops
    obtain ⟨s₁, hs₁, h₁, hidle₁, hdur₁⟩ := hop.step op h hidle hdur
    obtain ⟨s', a', hs', hr, hi, hd⟩ := ih h₁ hidle₁ hdur₁ (hrest s₁ hs₁)
    refine ⟨s', a', ?_, hr, hi, hd⟩
    rw [runStorage, hs₁]
    exact hs'

/-- Along an orderly run from a new directory no entry of the map is lost in a restart. -/
theorem restart_keeps_log (codec : EntryCodec P) (ops : List (StorageOp P))
    (hops : OrderlyRun codec LogStorage.fresh ops) :
    ∃ s, runStorage codec LogStorage.fresh ops = .ok s ∧
      ∃ s', s.restart codec = .ok s' ∧ ∀ k e, s.logs.get k = some e → s'.logs.get k = some e := by
  obtain ⟨s, a, hs, hr, hidle, hdur⟩ := OrderlyRun.durable ops (refines_fresh codec) idle_fresh
    SegmentedLog.durable_fresh hops
  obtain ⟨s', hs', hr', _⟩ := hr.restart hidle
  refine ⟨s, hs, s', hs', fun k e he => ?_⟩
  rw [hr'.logs]
  exact hdur.survives k e (hr.logs ▸ he)

theorem restart_keeps_log_after_truncate_and_purge :
    ∃ s, runStorage blankCodec LogStorage.fresh [.append [blankEntry 1, blankEntry 2],
        .truncate (blankEntry 2).logId, .append [blankEntry 2], .purge (blankEntry 999).logId,
        .append [blankEntry 1000], .restart, .append [blankEntry 1001]] = .ok s ∧
      ∃ s', s.restart blankCodec = .ok s' ∧
        ∀ k e, s.logs.get k = some e → s'.logs.get k = some e :=
  restart_keeps_log blankCodec _ (by decide +kernel)

/-- Purging entry 999 deletes the file of entry 1000 too. -/
theorem purge_loses_entry :
    ∃ s, runStorage blankCodec LogStorage.fresh [.append [blankEntry 999, blankEntry 1000],
        .purge (blankEntry 999).logId] = .ok s ∧
      s.logs.get 1000 = some (blankEntry 1000) ∧
      ∃ s', s.restart blankCodec = .ok s' ∧ s'.logs.get 1000 = none := by
  obtain ⟨s, hs, hr, hidle⟩ := (refines_fresh blankCodec).run idle_fresh
    [.append [blankEntry 999, blankEntry 1000], .purge (blankEntry 999).logId] (by decide)
  obtain ⟨s', hs', hr', _⟩ := hr.restart hidle
  refine ⟨s, hs, ?_, s', hs', ?_⟩
  · rw [hr.logs]
    decide
  · rw [hr'.logs]
    decide

end Storage

end Xerv.Raft
