import Xerv.Raft.Journal

/-!
# An append cut by a crash

Of the bytes of an interrupted `append_entries` a beginning has reached the files:
some whole lines and a part of the next one, with the rotations up to there. The
next `LogStorage::open` reads the part as a line of its own.
-/

namespace Xerv.Raft
open Xerv.Lib

section Torn
variable {P : Type} (codec : EntryCodec P)

/-- The segments when `j` lines of the append and `n` bytes of the next line have left the buffer. A
crash before the next segment is opened is that of an append of the first `j` entries. -/
def tornAppend (s : LogStorage P) (es : List (ClusterEntry P)) (j n : ℕ) : FileDir :=
  let s := (es.take j).foldl (LogStorage.appendOne codec) s
  match es[j]? with
  | none => s.flushActive.segments
  | some e =>
    let s := (s.ensureActive e.index).onActive fun disk =>
      BufWriter.writeAll disk ((entryLine codec e).take n)
    s.flushActive.segments

/-- The log opens, and its entries are those appended by the completed calls and the first `k` of the
interrupted one. -/
def Recovers (d : FileDir) (metaFile : Option PersistedLogMeta) (completed interrupted : List (ClusterEntry P)) :
    Prop :=
  ∃ s', LogStorage.openStorage codec d metaFile = .ok s' ∧ ∃ k, ∀ i e,
    s'.logs.get i = some e ↔ e ∈ completed ++ interrupted.take k ∧ e.index = i

/-- What `serde_json` says of a cut text: no proper beginning of an entry decodes. -/
def CutsFail : Prop :=
  ∀ e n, 0 < n → n < (codec.toJson e).length → codec.fromJson ((codec.toJson e).take n) = none

variable {codec} {s : LogStorage P} {lines : String → List (ClusterEntry P)}
  {done : List (ClusterEntry P)}

theorem Journal.image (h : Journal codec s lines done) (hidle : Idle s) (path : String) :
    Image codec s.segments lines done path [] where
  names := h.names
  file n := by
    have hn := h.file n
    rw [buffered_idle hidle, List.append_nil] at hn
    rw [hn, ite_self, List.append_nil]
  entries := h.entries
  torn hne := absurd rfl hne

theorem Journal.image_written (h : Journal codec s lines done) (hactive : s.active.isSome)
    (bytes : Bytes) : ∃ path, Image codec
      (s.onActive fun disk => BufWriter.writeAll disk bytes).flushActive.segments lines done path bytes := by
  obtain ⟨x, hx⟩ := Option.isSome_iff_exists.mp hactive
  obtain ⟨hmem, hcap⟩ := h.writer x hx
  let disk := BufWriter.syncData (BufWriter.flush (BufWriter.writeAll (x.writer, s.segments) bytes))
  let s' := (s.onActive fun disk => BufWriter.writeAll disk bytes).flushActive
  have hext : BufWriter.Extends (x.writer, s.segments) disk bytes := by
    have hwrite := BufWriter.writeAll_extends (x.writer, s.segments) bytes hcap
    have hsync := (hwrite.trans (BufWriter.flush_extends _)).trans (BufWriter.syncData_extends _)
    rwa [List.append_nil, List.append_nil] at hsync
  have hsegments : s'.segments = disk.2 := by
    simp only [s', LogStorage.onActive, LogStorage.flushActive, hx]
    rfl
  have hactive' : s'.active = some { x with writer := disk.1 } := by
    simp only [s', LogStorage.onActive, LogStorage.flushActive, hx]
    rfl
  refine ⟨x.writer.path, ?_, ?_, h.entries, ?_⟩
  · intro n hn
    have hn' : n ∈ disk.2 := hsegments ▸ hn
    exact h.names n ((hext.names n).mp hn')
  · intro n
    have hn := accepted_extends hx hmem hext hsegments hactive' rfl n
    rw [buffered_idle (flushActive_idle _), List.append_nil, h.file n] at hn
    exact hn
  · intro _
    have hin : x.writer.path ∈ disk.2 := (hext.names _).mpr hmem
    exact hsegments ▸ hin

theorem tornAppend_image (h : Journal codec s lines done) (es : List (ClusterEntry P)) (j n : ℕ) :
    ∃ lines' path, Image codec (tornAppend codec s es j n) lines' (done ++ es.take j) path
      ((es[j]?.map fun e => (entryLine codec e).take n).getD []) := by
  obtain ⟨lines₁, h₁⟩ := h.appendAll (es.take j)
  unfold tornAppend
  cases hj : es[j]? with
  | none =>
    obtain ⟨lines₂, h₂⟩ := h₁.flushActive
    exact ⟨lines₂, "", h₂.image (flushActive_idle _) ""⟩
  | some e =>
    obtain ⟨lines₂, h₂⟩ := h₁.ensureActive e.index
    obtain ⟨path, himage⟩ := h₂.image_written (ensureActive_isSome _ e.index) ((entryLine codec e).take n)
    exact ⟨lines₂, path, himage⟩

theorem loadEntries_whole (es : List (ClusterEntry P)) (e : ClusterEntry P) (n : ℕ)
    (h : (codec.toJson e).length ≤ n) :
    loadEntries codec (encodeEntries codec es ++ (entryLine codec e).take n) = .ok (es ++ [e]) := by
  rcases Nat.eq_or_lt_of_le h with heq | hlt
  · have htake : (entryLine codec e).take n = codec.toJson e := by
      rw [entryLine, ← heq, List.take_left]
    rw [htake, loadEntries_unfinished codec es _ (codec.isLine e).nonempty (codec.isLine e).noNewline,
      codec.roundTrip]
  · have htake : (entryLine codec e).take n = encodeEntries codec [e] := by
      have hlen : (entryLine codec e).length ≤ n := by
        rw [entryLine, List.length_append, List.length_singleton]
        omega
      rw [List.take_of_length_le hlen]
      simp [encodeEntries]
    rw [htake, ← encodeEntries_append, loadEntries_encodeEntries]

theorem loadEntries_cut (hcut : CutsFail codec) (es : List (ClusterEntry P)) (e : ClusterEntry P) (n : ℕ)
    (hpos : 0 < n) (h : n < (codec.toJson e).length) :
    (entryLine codec e).take n ≠ [] ∧
      loadEntries codec (encodeEntries codec es ++ (entryLine codec e).take n) = .error .invalidData := by
  have htake : (entryLine codec e).take n = (codec.toJson e).take n :=
    List.take_append_of_le_length (Nat.le_of_lt h)
  have hne : (codec.toJson e).take n ≠ [] := by
    intro hnil
    have hlen := congrArg List.length hnil
    rw [List.length_take, List.length_nil] at hlen
    omega
  have hline : 10 ∉ (codec.toJson e).take n :=
    fun hmem => (codec.isLine e).noNewline (List.mem_of_mem_take hmem)
  rw [htake, loadEntries_unfinished codec es _ hne hline, hcut e n hpos h]
  exact ⟨hne, rfl⟩

theorem tornAppend_fails (hcut : CutsFail codec) (h : Journal codec s lines done)
    (es : List (ClusterEntry P)) (j n : ℕ) (e : ClusterEntry P) (hj : es[j]? = some e) (hpos : 0 < n)
    (hlt : n < (codec.toJson e).length) (metaFile : Option PersistedLogMeta) :
    ∃ err, LogStorage.openStorage codec (tornAppend codec s es j n) metaFile = .error err := by
  obtain ⟨lines', path, himage⟩ := tornAppend_image h es j n
  rw [hj, Option.map_some, Option.getD_some] at himage
  obtain ⟨hne, herr⟩ := loadEntries_cut hcut (lines' path) e n hpos hlt
  exact himage.fails hne _ herr metaFile

theorem OnePerIndex.take {done es : List (ClusterEntry P)} (h : OnePerIndex (done ++ es)) (k : ℕ) :
    OnePerIndex (done ++ es.take k) := by
  have hsub : ∀ z ∈ done ++ es.take k, z ∈ done ++ es := by
    intro z hz
    rcases List.mem_append.mp hz with hz | hz
    · exact List.mem_append_left _ hz
    · exact List.mem_append_right _ (List.mem_of_mem_take hz)
  intro x hx y hy
  exact h x (hsub x hx) y (hsub y hy)

theorem tornAppend_recovers (h : Journal codec s lines done) (es : List (ClusterEntry P))
    (honce : OnePerIndex (done ++ es)) (j n : ℕ)
    (hcond : ∀ e, es[j]? = some e → n = 0 ∨ (codec.toJson e).length ≤ n)
    (metaFile : Option PersistedLogMeta) :
    Recovers codec (tornAppend codec s es j n) metaFile done es := by
  obtain ⟨lines', path, himage⟩ := tornAppend_image h es j n
  have hnone : (es[j]?.map fun e => (entryLine codec e).take n).getD [] = [] →
      Recovers codec (tornAppend codec s es j n) metaFile done es := by
    intro htail
    rw [htail] at himage
    obtain ⟨s', hs', hlogs⟩ := himage.opens [] (by simp [loadEntries_encodeEntries]) (fun _ => rfl)
      (by rw [List.append_nil]; exact honce.take j) metaFile
    rw [List.append_nil] at hlogs
    exact ⟨s', hs', j, hlogs⟩
  cases hj : es[j]? with
  | none => exact hnone (by rw [hj]; rfl)
  | some e =>
    rcases hcond e hj with hzero | hwhole
    · exact hnone (by rw [hj, hzero]; rfl)
    · have hnext : done ++ es.take j ++ [e] = done ++ es.take (j + 1) := by
        rw [List.take_add_one, hj, Option.toList_some, List.append_assoc]
      have htail : (entryLine codec e).take n = [] → [e] = [] := by
        intro hnil
        have hlen := congrArg List.length hnil
        have hpos := List.length_pos_iff.mpr (codec.isLine e).nonempty
        rw [List.length_take, entryLine, List.length_append, List.length_nil] at hlen
        omega
      rw [hj, Option.map_some, Option.getD_some] at himage
      obtain ⟨s', hs', hlogs⟩ := himage.opens [e] (loadEntries_whole (lines' path) e n hwhole) htail
        (by rw [hnext]; exact honce.take (j + 1)) metaFile
      rw [hnext] at hlogs
      exact ⟨s', hs', j + 1, hlogs⟩

/-- After completed appends and one that was cut, the log opens with all entries of the completed ones
and a beginning of the interrupted one if and only if the cut is between two entries: no byte of the
next entry was written, or its whole text. -/
theorem torn_append_recovers_iff (hcut : CutsFail codec) (batches : List (List (ClusterEntry P)))
    (es : List (ClusterEntry P)) (honce : OnePerIndex (batches.flatten ++ es)) (j n : ℕ) :
    Recovers codec (tornAppend codec (runAppends codec batches) es j n)
        (runAppends codec batches).metaFile batches.flatten es ↔
      ∀ e, es[j]? = some e → n = 0 ∨ (codec.toJson e).length ≤ n := by
  obtain ⟨lines, h⟩ := journal_runAppends codec batches
  constructor
  · intro hrec e hj
    by_contra hbad
    obtain ⟨hpos, hlt⟩ := not_or.mp hbad
    obtain ⟨err, herr⟩ := tornAppend_fails hcut h es j n e hj (Nat.pos_of_ne_zero hpos)
      (Nat.not_le.mp hlt) (runAppends codec batches).metaFile
    obtain ⟨s', hs', _⟩ := hrec
    rw [herr] at hs'
    cases hs'
  · intro hcond
    exact tornAppend_recovers h es honce j n hcond _

end Torn

/-! ### Cut texts of blank entries -/

theorem stripText_suffix (text cs rest : List Char) (h : stripText text cs = some rest) : rest <:+ cs := by
  unfold stripText at h
  split_ifs at h with hpre
  rw [← Option.some.inj h]
  exact List.drop_suffix _ _

theorem takeNumber_suffix (cs rest : List Char) (n : ℕ) (h : takeNumber cs = some (n, rest)) :
    rest <:+ cs := by
  unfold takeNumber at h
  obtain ⟨m, _, he⟩ := Option.map_eq_some_iff.mp h
  rw [← (Prod.mk.inj he).2]
  exact List.dropWhile_suffix _

theorem parseBlank_suffix (cs : List Char) (e : ClusterEntry Unit) (h : parseBlank cs = some e) :
    jsonBlank <:+ cs := by
  unfold parseBlank at h
  obtain ⟨cs₁, h₁, h⟩ := Option.bind_eq_some_iff.mp h
  obtain ⟨⟨term, cs₂⟩, h₂, h⟩ := Option.bind_eq_some_iff.mp h
  obtain ⟨cs₃, h₃, h⟩ := Option.bind_eq_some_iff.mp h
  obtain ⟨⟨node, cs₄⟩, h₄, h⟩ := Option.bind_eq_some_iff.mp h
  obtain ⟨cs₅, h₅, h⟩ := Option.bind_eq_some_iff.mp h
  obtain ⟨⟨index, cs₆⟩, h₆, h⟩ := Option.bind_eq_some_iff.mp h
  dsimp only at h
  split_ifs at h with hend
  rw [← hend]
  have hindex := (takeNumber_suffix _ _ _ h₆).trans (stripText_suffix _ _ _ h₅)
  have hnode := (takeNumber_suffix _ _ _ h₄).trans (stripText_suffix _ _ _ h₃)
  have hterm := (takeNumber_suffix _ _ _ h₂).trans (stripText_suffix _ _ _ h₁)
  exact hindex.trans (hnode.trans hterm)

def blankHead (e : ClusterEntry Unit) : List Char :=
  jsonTerm ++ (padded 10 1 e.logId.term ++ (jsonNode ++ (padded 10 1 e.logId.nodeId ++
    (jsonIndex ++ padded 10 1 e.logId.index))))

theorem blankText_eq (e : ClusterEntry Unit) : blankText e = blankHead e ++ jsonBlank := by
  simp [blankText, blankHead]

theorem count_blankHead (e : ClusterEntry Unit) : (blankHead e).count 'B' = 0 := by
  have hnum : ∀ n, (padded 10 1 n).count 'B' = 0 := by
    intro n
    refine List.count_eq_zero_of_not_mem fun hmem => ?_
    exact absurd (padded_isDigit 1 n 'B' hmem) (by decide)
  have hterm : jsonTerm.count 'B' = 0 := by decide
  have hnode : jsonNode.count 'B' = 0 := by decide
  have hindex : jsonIndex.count 'B' = 0 := by decide
  simp only [blankHead, List.count_append, hnum, hterm, hnode, hindex]

/-- The letter `B` is in the payload only, so a text that ends with the payload is not cut. -/
theorem blankText_cut (e : ClusterEntry Unit) (n : ℕ) (h : jsonBlank <:+ (blankText e).take n) :
    (blankText e).length ≤ n := by
  obtain ⟨q, hq⟩ := h
  have hpayload : jsonBlank.count 'B' = 1 := by decide
  have hsplit : q ++ jsonBlank ++ (blankText e).drop n = blankHead e ++ jsonBlank := by
    rw [hq, List.take_append_drop, blankText_eq]
  have hcount := congrArg (List.count 'B') hsplit
  simp only [List.count_append, count_blankHead, hpayload] at hcount
  have hskip : ∀ l rest : List Char, l.count 'B' = 0 →
      (l ++ jsonBlank ++ rest).dropWhile (· != 'B') = jsonBlank.dropWhile (· != 'B') ++ rest := by
    intro l rest hl
    have hl' : ∀ c ∈ l, (c != 'B') = true := by
      intro c hc
      have hnot := List.count_eq_zero.mp hl
      exact bne_iff_ne.mpr fun he => hnot (he ▸ hc)
    rw [List.append_assoc, List.dropWhile_append_of_pos hl']
    rfl
  have hdrop := congrArg (List.dropWhile (· != 'B')) hsplit
  rw [hskip q _ (by omega), ← List.append_nil (blankHead e ++ jsonBlank),
    hskip (blankHead e) [] (count_blankHead e)] at hdrop
  exact List.drop_eq_nil_iff.mp (List.append_cancel_left hdrop)

theorem cutsFail_blankCodec : CutsFail blankCodec := by
  intro e n _ hlt
  have hback : ((((blankText e).map charByte).take n).map byteChar) = (blankText e).take n := by
    rw [← List.map_take, List.map_map]
    refine (List.map_congr_left fun c hc => ?_).trans (List.map_id _)
    exact byteChar_charByte c (blankText_printable e c (List.mem_of_mem_take hc)).2
  show parseBlank ((((blankText e).map charByte).take n).map byteChar) = none
  rw [hback]
  cases hp : parseBlank ((blankText e).take n) with
  | none => rfl
  | some e' =>
    have hle := blankText_cut e n (parseBlank_suffix _ e' hp)
    have hlen : (blankCodec.toJson e).length = (blankText e).length := List.length_map ..
    omega

theorem missing_newline_recovers :
    Recovers blankCodec (tornAppend blankCodec (runAppends blankCodec [[blankEntry 1]]) [blankEntry 2] 0
        (blankCodec.toJson (blankEntry 2)).length)
      (runAppends blankCodec [[blankEntry 1]]).metaFile [blankEntry 1] [blankEntry 2] := by
  refine (torn_append_recovers_iff cutsFail_blankCodec [[blankEntry 1]] [blankEntry 2] ?_ 0 _).mpr ?_
  · unfold OnePerIndex
    decide
  · intro e he
    cases he
    exact .inr le_rfl

theorem torn_line_keeps_log_closed :
    ¬ ∀ (batches : List (List (ClusterEntry Unit))) (es : List (ClusterEntry Unit)) (j n : ℕ),
      OnePerIndex (batches.flatten ++ es) →
        Recovers blankCodec (tornAppend blankCodec (runAppends blankCodec batches) es j n)
          (runAppends blankCodec batches).metaFile batches.flatten es := by
  intro h
  have honce : OnePerIndex ([[blankEntry 1]].flatten ++ [blankEntry 2]) := by
    unfold OnePerIndex
    decide
  obtain ⟨s', hs', _⟩ := h [[blankEntry 1]] [blankEntry 2] 0 1 honce
  obtain ⟨lines, hj⟩ := journal_runAppends blankCodec [[blankEntry 1]]
  obtain ⟨err, herr⟩ := tornAppend_fails cutsFail_blankCodec hj [blankEntry 2] 0 1 (blankEntry 2) rfl
    Nat.one_pos (by decide) (runAppends blankCodec [[blankEntry 1]]).metaFile
  rw [herr] at hs'
  cases hs'

end Xerv.Raft
