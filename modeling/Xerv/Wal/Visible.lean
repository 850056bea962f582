import Xerv.Wal.Replay
import Xerv.Wal.TornTail

/-!
# What a reader sees of an open log

A `WalReader` reads the files, not the buffer of the writer. Whole records enter and leave
the buffer, so at any point of a run the files hold a prefix of the records written and the
buffer holds the rest.
-/

namespace Xerv
open Xerv.Lib

/-- The current file holds `shown`, and `hidden` waits in the buffer. -/
def Shows (crc : Bytes → UInt32) (disk : BufWriter.OnDisk) (shown hidden : List WalRecord) : Prop :=
  ∃ f, disk.2.get disk.1.path = some f ∧ f.data = encodeAll crc shown ∧
    disk.1.buf = encodeAll crc hidden

/-- The files show `seen`, the buffer holds `hidden`. -/
structure WalShows (crc : Bytes → UInt32) (w : Wal) (seen hidden : List WalRecord) : Prop where
  split : ∃ closed shown, WalLayout crc w closed (shown ++ hidden) ∧ Shows crc w.disk shown hidden ∧
    seen = closed.flatten ++ shown

section Disk
variable {crc : Bytes → UInt32} {disk : BufWriter.OnDisk} {shown hidden : List WalRecord}

theorem Shows.buffer (h : Shows crc disk shown hidden) (r : WalRecord) :
    Shows crc (BufWriter.buffer disk (r.toBytes crc)) shown (hidden ++ [r]) := by
  obtain ⟨f, hf, hdata, hbuf⟩ := h
  refine ⟨f, hf, hdata, ?_⟩
  show disk.1.buf ++ r.toBytes crc = _
  rw [hbuf, encodeAll_append, encodeAll_cons, encodeAll_nil, List.append_nil]

theorem Shows.flush (h : Shows crc disk shown hidden) :
    Shows crc (BufWriter.flush disk) (shown ++ hidden) [] := by
  obtain ⟨f, hf, hdata, hbuf⟩ := h
  refine ⟨{ f with data := f.data ++ disk.1.buf }, ?_, ?_, rfl⟩
  · show (modifyFile _ _ _).get disk.1.path = _
    rw [modifyFile_self, hf]
    rfl
  · rw [hdata, hbuf, encodeAll_append]

theorem Shows.direct (h : Shows crc disk shown []) (r : WalRecord) :
    Shows crc (BufWriter.direct disk (r.toBytes crc)) (shown ++ [r]) [] := by
  obtain ⟨f, hf, hdata, hbuf⟩ := h
  refine ⟨{ f with data := f.data ++ r.toBytes crc }, ?_, ?_, hbuf⟩
  · show (modifyFile _ _ _).get disk.1.path = _
    rw [modifyFile_self, hf]
    rfl
  · rw [hdata, encodeAll_append, encodeAll_cons, encodeAll_nil, List.append_nil]

theorem encodeAll_eq_nil (rs : List WalRecord) (h : encodeAll crc rs = []) : rs = [] := by
  have hle := length_le_encodeAll crc rs
  rw [h, List.length_nil] at hle
  exact List.eq_nil_of_length_eq_zero (by omega)

theorem Shows.writeAll (h : Shows crc disk shown hidden) (r : WalRecord)
    (hcap : disk.1.buf.length ≤ disk.1.capacity) :
    ∃ shown' hidden', Shows crc (BufWriter.writeAll disk (r.toBytes crc)) shown' hidden' ∧
      shown' ++ hidden' = shown ++ hidden ++ [r] := by
  unfold BufWriter.writeAll
  dsimp only
  split_ifs with hfit hfull hbig hbig
  · exact ⟨shown, hidden ++ [r], h.buffer r, by simp⟩
  · exact ⟨shown ++ hidden ++ [r], [], h.flush.direct r, by simp⟩
  · exact ⟨shown ++ hidden, [r], h.flush.buffer r, by simp⟩
  · -- a write past the buffer finds it empty
    have hnil : disk.1.buf = [] := by
      apply List.eq_nil_of_length_eq_zero
      omega
    have hhidden : hidden = [] := by
      obtain ⟨_, _, _, hbuf⟩ := h
      exact encodeAll_eq_nil hidden (hbuf.symm.trans hnil)
    subst hhidden
    exact ⟨shown ++ [r], [], h.direct r, by simp⟩
  · exact ⟨shown, hidden ++ [r], h.buffer r, by simp⟩

end Disk

section Run
variable {crc : Bytes → UInt32} {w : Wal} {seen hidden : List WalRecord}

theorem WalLayout.shows {closed : List (List WalRecord)} {current : List WalRecord}
    (h : WalLayout crc w closed current) (hbuf : w.disk.1.buf = []) :
    WalShows crc w (closed.flatten ++ current) [] := by
  obtain ⟨f, hf, hdata⟩ := h.currentFile
  rw [hbuf, List.append_nil] at hdata
  exact ⟨closed, current, by rwa [List.append_nil], ⟨f, hf, hdata, hbuf⟩, rfl⟩

theorem WalShows.append (h : WalShows crc w seen hidden) (r : WalRecord) :
    ∃ seen' hidden', WalShows crc { w with
        disk := BufWriter.writeAll w.disk (r.toBytes crc)
        fileSize := w.fileSize + (r.toBytes crc).length } seen' hidden' ∧
      seen' ++ hidden' = seen ++ hidden ++ [r] := by
  obtain ⟨closed, shown, hl, hs, rfl⟩ := h.split
  obtain ⟨shown', hidden', hs', hall⟩ := hs.writeAll r hl.capacity
  refine ⟨closed.flatten ++ shown', hidden', ⟨closed, shown', walLayout_iff.mpr ?_, hs', rfl⟩, ?_⟩
  · have hraw := hl.raw.append (r.toBytes crc)
    rw [hall, encodeAll_append _ _ [r], encodeAll_cons, encodeAll_nil, List.append_nil]
    exact hraw
  · rw [List.append_assoc, hall]
    simp

theorem WalShows.syncFile (h : WalShows crc w seen hidden) (w' : Wal)
    (hdisk : w'.disk = Xerv.syncFile w.disk) (hseq : w'.sequence = w.sequence)
    (hsize : w'.fileSize = w.fileSize) : WalShows crc w' (seen ++ hidden) [] := by
  obtain ⟨closed, shown, hl, _, rfl⟩ := h.split
  have hbuf : w'.disk.1.buf = [] := by
    rw [hdisk]
    rfl
  have hw := (hl.syncFile w' hdisk hseq hsize).shows hbuf
  rwa [← List.append_assoc] at hw

theorem WalShows.congr (h : WalShows crc w seen hidden) (w' : Wal) (hdisk : w'.disk = w.disk)
    (hseq : w'.sequence = w.sequence) (hsize : w'.fileSize = w.fileSize) :
    WalShows crc w' seen hidden := by
  obtain ⟨closed, shown, hl, hs, rfl⟩ := h.split
  exact ⟨closed, shown, walLayout_iff.mpr (hl.raw.congr w' hdisk hseq hsize), hdisk ▸ hs, rfl⟩

theorem WalShows.rotate (h : WalShows crc w seen hidden) : WalShows crc w.rotate (seen ++ hidden) [] := by
  obtain ⟨closed, shown, hl, _, rfl⟩ := h.split
  have hraw := hl.raw.rotate
  rw [map_encodeAll_snoc, ← encodeAll_nil crc] at hraw
  have hw := (walLayout_iff.mpr hraw).shows rfl
  simpa using hw

theorem WalShows.syncAfterWrite (h : WalShows crc w seen hidden) (now later : ℕ) :
    ∃ seen' hidden', WalShows crc (w.syncAfterWrite now later) seen' hidden' ∧
      seen' ++ hidden' = seen ++ hidden := by
  unfold Wal.syncAfterWrite
  split
  · exact ⟨seen ++ hidden, [], h.syncFile _ rfl rfl rfl, List.append_nil _⟩
  · split
    · exact ⟨seen, hidden, h, rfl⟩
    · dsimp only
      split
      · exact ⟨seen ++ hidden, [], h.syncFile _ rfl rfl rfl, List.append_nil _⟩
      · exact ⟨seen, hidden, h.congr _ rfl rfl rfl, rfl⟩

theorem WalShows.write (h : WalShows crc w seen hidden) (r : WalRecord) (now later : ℕ) :
    ∃ seen' hidden', WalShows crc (w.write crc r now later) seen' hidden' ∧
      seen' ++ hidden' = seen ++ hidden ++ [r] := by
  have hin (w : Wal) (seen hidden : List WalRecord) (h : WalShows crc w seen hidden) :
      ∃ seen' hidden', WalShows crc ({ w with
          disk := BufWriter.writeAll w.disk (r.toBytes crc)
          fileSize := w.fileSize + (r.toBytes crc).length }.syncAfterWrite now later) seen' hidden' ∧
        seen' ++ hidden' = seen ++ hidden ++ [r] := by
    obtain ⟨seen₁, hidden₁, h₁, hall₁⟩ := h.append r
    obtain ⟨seen₂, hidden₂, h₂, hall₂⟩ := h₁.syncAfterWrite now later
    exact ⟨seen₂, hidden₂, h₂, hall₂.trans hall₁⟩
  unfold Wal.write
  dsimp only
  split
  · obtain ⟨seen', hidden', hw, hall⟩ := hin w.rotate (seen ++ hidden) [] h.rotate
    exact ⟨seen', hidden', hw.congr _ rfl rfl rfl, by rw [hall, List.append_nil]⟩
  · obtain ⟨seen', hidden', hw, hall⟩ := hin w seen hidden h
    exact ⟨seen', hidden', hw.congr _ rfl rfl rfl, hall⟩

theorem WalShows.reopen (h : WalShows crc w seen hidden) (config : WalConfig) (now : ℕ) :
    WalShows crc (Wal.open config w.drop now) (seen ++ hidden) [] := by
  obtain ⟨closed, shown, hl, _, rfl⟩ := h.split
  obtain ⟨closed', current', hl', hgrown⟩ := hl.reopen config now
  have hbuf : (Wal.open config w.drop now).disk.1.buf = [] := rfl
  have hw := hl'.shows hbuf
  rw [hgrown.records, List.append_nil, ← List.append_assoc] at hw
  exact hw

theorem WalShows.run (h : WalShows crc w seen hidden) (ops : List WalOp) :
    ∃ seen' hidden', WalShows crc (runWal crc w ops) seen' hidden' ∧
      seen' ++ hidden' = seen ++ hidden ++ writtenBy ops := by
  induction ops generalizing w seen hidden with
  | nil => exact ⟨seen, hidden, h, (List.append_nil _).symm⟩
  | cons op ops ih =>
    have hstep : ∃ seen' hidden', WalShows crc (op.apply crc w) seen' hidden' ∧
        seen' ++ hidden' = seen ++ hidden ++ op.written.toList := by
      cases op with
      | write record now later => exact h.write record now later
      | flush => exact ⟨_, [], h.syncFile _ rfl rfl rfl, rfl⟩
      | sync now => exact ⟨_, [], h.syncFile _ rfl rfl rfl, rfl⟩
      | reopen config now => exact ⟨_, [], h.reopen config now, rfl⟩
    obtain ⟨seen₁, hidden₁, h₁, hall₁⟩ := hstep
    obtain ⟨seen₂, hidden₂, h₂, hall₂⟩ := ih h₁
    refine ⟨seen₂, hidden₂, h₂, ?_⟩
    rw [hall₂, hall₁, writtenBy_cons, List.append_assoc]

theorem WalShows.readAll (h : WalShows crc w seen hidden) (henc : ∀ r ∈ seen, r.Encodable) :
    readAll crc w.disk.2 = .ok (seen.map WalRecord.readBack) := by
  obtain ⟨closed, shown, hl, ⟨f, hf, hdata, _⟩, rfl⟩ := h.split
  have hfiles : LogFiles w.disk.2 ((closed ++ [shown]).map (encodeAll crc)) := by
    rw [← map_encodeAll_snoc]
    have hlen : closed.length = w.sequence := hl.sequence
    refine ⟨fun n => ?_, fun i bytes hi => ?_⟩
    · rw [hl.names, List.length_append, List.length_map, hlen]
      simp only [List.length_singleton, Nat.lt_succ_iff]
    · rcases getElem?_concat_cases hi with ⟨-, hold⟩ | ⟨rfl, rfl⟩
      · exact hl.raw.closedFile i bytes hold
      · rw [hl.path, ← hlen] at hf
        rw [List.length_map]
        exact ⟨f, hf, hdata⟩
  rw [hfiles.readAll, readEach_whole _ (by simpa using henc)]
  simp

end Run

theorem readAll_open (crc : Bytes → UInt32) (config : WalConfig) (now : ℕ) (ops : List WalOp)
    (henc : ∀ r ∈ writtenBy ops, r.Encodable) :
    ∃ seen, seen <+: writtenBy ops ∧
      readAll crc (runWal crc (Wal.open config ∅ now) ops).disk.2 =
        .ok (seen.map WalRecord.readBack) := by
  have hfresh : WalShows crc (Wal.open config ∅ now) [] [] :=
    (WalLayout.fresh crc config now).shows rfl
  obtain ⟨seen, hidden, hw, hall⟩ := hfresh.run ops
  have hpre : seen <+: writtenBy ops := ⟨hidden, hall⟩
  exact ⟨seen, hpre, hw.readAll fun r hr => henc r (hpre.subset hr)⟩

end Xerv
