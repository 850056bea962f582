import Xerv.Lib.Crc32
import Xerv.Wal.Writer

/-!
# The WAL reader (`xerv-core/src/wal/writer/reader.rs`)

`readFrom` lists the log files in sequence order, skips those before the start
position and reads the others record by record. A record whose length word is
below the header size or runs past the file stops the whole read with an error;
a record that does not decode is skipped.

Over any run of the writer, a flushed log reads back as the records written, up
to what the codec does to empty strings (`readFrom_run`).
-/

namespace Xerv
open Xerv.Lib

/-- The loop of `read_file_from` (`reader.rs:95-141`) on the bytes from position `pos` on. -/
def readRecords (crc : Bytes → UInt32) : ℕ → ℕ → Bytes → Except XervError (List WalRecord)
  | 0, _, _ => .ok []
  | fuel + 1, pos, bs =>
    match readLe 4 bs with
    | none => .ok []
    | some (length, _) =>
      if length < minRecordSize then
        .error (.walCorruption (pos + 4) s!"Invalid record length: {length}")
      else
        match readBytes length bs with
        | none => .error (.walRead "Failed to read record: failed to fill whole buffer")
        | some (buf, rest) =>
          match WalRecord.fromBytes crc buf with
          | .ok record => (readRecords crc fuel (pos + length) rest).map (record :: ·)
          | .error _ => readRecords crc fuel (pos + length) rest

/-- `read_file_from`: every round consumes at least the header, so the byte count is fuel enough. -/
def readFileFrom (crc : Bytes → UInt32) (data : Bytes) (startOffset : ℕ) :
    Except XervError (List WalRecord) :=
  let bs := data.drop startOffset
  readRecords crc bs.length startOffset bs

def readFiles (crc : Bytes → UInt32) (d : FileDir) (start : WalPosition) :
    List (ℕ × String) → Except XervError (List WalRecord)
  | [] => .ok []
  | (seq, path) :: files =>
    if seq < start.fileSequence then readFiles crc d start files
    else
      match d.get path with
      | none => .error (.walRead s!"Failed to open {path}: No such file or directory (os error 2)")
      | some f =>
        match readFileFrom crc f.data (if seq = start.fileSequence then start.offset else 0) with
        | .error e => .error e
        | .ok records => (readFiles crc d start files).map (records ++ ·)

def readFrom (crc : Bytes → UInt32) (d : FileDir) (start : WalPosition) :
    Except XervError (List WalRecord) :=
  readFiles crc d start (listNumbered parseWalFileName d)

def readAll (crc : Bytes → UInt32) (d : FileDir) : Except XervError (List WalRecord) :=
  readFrom crc d ⟨0, 0⟩

/-! ### Reading one file -/

section File
variable (crc : Bytes → UInt32)

theorem readLe_toBytes (r : WalRecord) (rest : Bytes) (h : r.Encodable) :
    ∃ bs, readLe 4 (r.toBytes crc ++ rest) = some (r.serializedSize, bs) := by
  have hlt : minRecordSize + r.payload.length < 256 ^ 4 := by
    rw [r.payload_length]
    exact h
  rw [WalRecord.toBytes, List.append_assoc, ← r.payload_length]
  exact ⟨_, readLe_append 4 _ _ hlt⟩

theorem readRecords_cons (fuel pos : ℕ) (r : WalRecord) (rest : Bytes) (h : r.Encodable) :
    readRecords crc (fuel + 1) pos (r.toBytes crc ++ rest) =
      (readRecords crc fuel (pos + r.serializedSize) rest).map (r.readBack :: ·) := by
  obtain ⟨bs, hlen⟩ := readLe_toBytes crc r rest h
  have hge : ¬ r.serializedSize < minRecordSize := Nat.not_lt.mpr r.serializedSize_ge
  have hread := readBytes_append (r.toBytes crc) rest _ (r.toBytes_length crc)
  simp only [readRecords, hlen, hge, if_false, hread, WalRecord.fromBytes_toBytes crc r h]

theorem readRecords_encodeAll (rs : List WalRecord) (fuel pos : ℕ)
    (hfuel : (encodeAll crc rs).length ≤ fuel) (h : ∀ r ∈ rs, r.Encodable) :
    readRecords crc fuel pos (encodeAll crc rs) = .ok (rs.map WalRecord.readBack) := by
  induction rs generalizing fuel pos with
  | nil =>
    cases fuel with
    | zero => rfl
    | succ fuel => rfl
  | cons r rs ih =>
    have hr : r.Encodable := h r List.mem_cons_self
    have hrs : ∀ x ∈ rs, x.Encodable := fun x hx => h x (List.mem_cons_of_mem _ hx)
    rw [encodeAll_cons, List.length_append, r.toBytes_length] at hfuel
    have hge := r.serializedSize_ge
    unfold minRecordSize at hge
    obtain ⟨n, rfl⟩ : ∃ n, fuel = n + 1 := ⟨fuel - 1, by omega⟩
    rw [encodeAll_cons, readRecords_cons crc n pos r _ hr, ih n _ (by omega) hrs]
    rfl

theorem readFileFrom_encodeAll (before after : List WalRecord) (h : ∀ r ∈ after, r.Encodable) :
    readFileFrom crc (encodeAll crc (before ++ after)) (encodeAll crc before).length =
      .ok (after.map WalRecord.readBack) := by
  unfold readFileFrom
  rw [encodeAll_append, List.drop_left]
  exact readRecords_encodeAll crc after _ _ le_rfl h

end File

/-! ### Reading the whole log -/

section Log
variable {crc : Bytes → UInt32} {d : FileDir} {start : WalPosition}

theorem readFiles_skip (files rest : List (ℕ × String))
    (h : ∀ f ∈ files, f.1 < start.fileSequence) :
    readFiles crc d start (files ++ rest) = readFiles crc d start rest := by
  induction files with
  | nil => rfl
  | cons f files ih =>
    have hf : f.1 < start.fileSequence := h f List.mem_cons_self
    obtain ⟨seq, path⟩ := f
    rw [List.cons_append, readFiles, if_pos hf]
    exact ih fun g hg => h g (List.mem_cons_of_mem _ hg)

theorem readFiles_cons (seq : ℕ) (path : String) (files : List (ℕ × String)) (f : DiskFile)
    (records : List WalRecord) (hseq : start.fileSequence ≤ seq) (hf : d.get path = some f)
    (hread : readFileFrom crc f.data (if seq = start.fileSequence then start.offset else 0) =
      .ok records) :
    readFiles crc d start ((seq, path) :: files) =
      (readFiles crc d start files).map (records ++ ·) := by
  rw [readFiles, if_neg (Nat.not_lt.mpr hseq)]
  simp only [hf, hread]

theorem readFiles_whole (segs : List (List WalRecord)) (first : ℕ)
    (hfirst : start.fileSequence < first) (henc : ∀ seg ∈ segs, ∀ r ∈ seg, r.Encodable)
    (hfiles : ∀ i seg, segs[i]? = some seg →
      ∃ f, d.get (walFileName (first + i)) = some f ∧ f.data = encodeAll crc seg) :
    readFiles crc d start ((List.range' first segs.length).map fun i => (i, walFileName i)) =
      .ok (segs.flatten.map WalRecord.readBack) := by
  induction segs generalizing first with
  | nil => rfl
  | cons seg segs ih =>
    obtain ⟨f, hf, hdata⟩ := hfiles 0 seg rfl
    rw [Nat.add_zero] at hf
    have hseg : ∀ r ∈ seg, r.Encodable := henc seg List.mem_cons_self
    have hread : readFileFrom crc f.data
        (if first = start.fileSequence then start.offset else 0) =
          .ok (seg.map WalRecord.readBack) := by
      rw [if_neg (by omega), hdata]
      exact readFileFrom_encodeAll crc [] seg hseg
    have hrest := ih (first + 1) (by omega) (fun s hs => henc s (List.mem_cons_of_mem _ hs)) <| by
      intro i s hi
      obtain ⟨g, hg, hgd⟩ := hfiles (i + 1) s hi
      exact ⟨g, by rwa [show first + 1 + i = first + (i + 1) by omega], hgd⟩
    rw [List.length_cons, List.range'_succ, List.map_cons,
      readFiles_cons first _ _ f _ (by omega) hf hread, hrest]
    simp [Except.map]

end Log

section Law
variable {crc : Bytes → UInt32} {w : Wal} {closed : List (List WalRecord)}
  {current : List WalRecord}

theorem WalLayout.listing (h : WalLayout crc w closed current) :
    listNumbered parseWalFileName w.disk.2 =
      (List.range (w.sequence + 1)).map fun i => (i, walFileName i) := by
  refine listNumbered_eq parseWalFileName walFileName w.disk.2 _
    (fun i _ => parseWalFileName_walFileName i) List.pairwise_lt_range ?_
  intro n
  rw [h.names]
  constructor
  · rintro ⟨i, hi, rfl⟩
    exact ⟨i, List.mem_range.mpr (by omega), rfl⟩
  · rintro ⟨i, hi, rfl⟩
    rw [List.mem_range] at hi
    exact ⟨i, by omega, rfl⟩

theorem WalLayout.file (h : WalLayout crc w closed current) (hbuf : w.disk.1.buf = []) (i : ℕ)
    (seg : List WalRecord) (hi : (closed ++ [current])[i]? = some seg) :
    ∃ f, w.disk.2.get (walFileName i) = some f ∧ f.data = encodeAll crc seg := by
  rcases getElem?_concat_cases hi with ⟨-, hold⟩ | ⟨rfl, rfl⟩
  · exact h.closedFile i seg hold
  · obtain ⟨f, hf, hd⟩ := h.currentFile
    rw [h.path, ← h.sequence] at hf
    rw [hbuf, List.append_nil] at hd
    exact ⟨f, hf, hd⟩

theorem WalLayout.readFrom_split (h : WalLayout crc w closed current)
    (hbuf : w.disk.1.buf = []) (skipped rest : List (List WalRecord))
    (before after : List WalRecord)
    (hsplit : closed ++ [current] = skipped ++ (before ++ after) :: rest)
    (henc : ∀ r ∈ after ++ rest.flatten, r.Encodable) :
    readFrom crc w.disk.2 ⟨skipped.length, (encodeAll crc before).length⟩ =
      .ok ((after ++ rest.flatten).map WalRecord.readBack) := by
  have hlen : w.sequence + 1 = skipped.length + (rest.length + 1) := by
    have := congrArg List.length hsplit
    simpa [h.sequence] using this
  have hrange : List.range (w.sequence + 1) =
      List.range skipped.length ++ List.range' skipped.length (rest.length + 1) := by
    rw [hlen, List.range_add, List.range'_eq_map_range]
  obtain ⟨f, hf, hdata⟩ := h.file hbuf skipped.length (before ++ after) (by rw [hsplit]; simp)
  have hafter : ∀ r ∈ after, r.Encodable := fun r hr => henc r (List.mem_append_left _ hr)
  have hread : readFileFrom crc f.data (encodeAll crc before).length =
      .ok (after.map WalRecord.readBack) := by
    rw [hdata]
    exact readFileFrom_encodeAll crc before after hafter
  have hwhole : readFiles crc w.disk.2 ⟨skipped.length, (encodeAll crc before).length⟩
      ((List.range' (skipped.length + 1) rest.length).map fun i => (i, walFileName i)) =
        .ok (rest.flatten.map WalRecord.readBack) := by
    refine readFiles_whole rest (skipped.length + 1) (Nat.lt_succ_self _) ?_ ?_
    · intro seg hseg r hr
      exact henc r (List.mem_append_right _ (List.mem_flatten.mpr ⟨seg, hseg, hr⟩))
    · intro i seg hi
      refine h.file hbuf _ seg ?_
      rw [hsplit, show skipped.length + 1 + i = skipped.length + (i + 1) by omega,
        List.getElem?_append_right (Nat.le_add_right _ _), Nat.add_sub_cancel_left]
      exact hi
  rw [readFrom, h.listing, hrange, List.map_append, readFiles_skip]
  · rw [List.range'_succ, List.map_cons, readFiles_cons _ _ _ f _ le_rfl hf (by simpa using hread),
      hwhole]
    simp [Except.map]
  · intro g hg
    obtain ⟨i, hi, rfl⟩ := List.mem_map.mp hg
    exact List.mem_range.mp hi

theorem WalGrown.split {c c' : List (List WalRecord)} {r r' delta : List WalRecord}
    (h : WalGrown c r c' r' delta) : ∃ after rest,
      c' ++ [r'] = c ++ (r ++ after) :: rest ∧ delta = after ++ rest.flatten := by
  rcases h with ⟨rfl, rfl⟩ | ⟨more, rest, rfl, rfl⟩
  · exact ⟨delta, [], rfl, by simp⟩
  · exact ⟨more, rest ++ [r'], by simp, by simp⟩

theorem WalLayout.readFrom_grown (h : WalLayout crc w closed current) (hbuf : w.disk.1.buf = [])
    {c : List (List WalRecord)} {r delta : List WalRecord}
    (hgrown : WalGrown c r closed current delta) (henc : ∀ x ∈ delta, x.Encodable) :
    readFrom crc w.disk.2 ⟨c.length, (encodeAll crc r).length⟩ =
      .ok (delta.map WalRecord.readBack) := by
  obtain ⟨after, rest, hsplit, rfl⟩ := hgrown.split
  exact h.readFrom_split hbuf c rest r after hsplit henc

end Law

/-! ### The log law -/

section Run
variable (crc : Bytes → UInt32) (config : WalConfig) (now : ℕ)

theorem runWal_append (w : Wal) (ops ops' : List WalOp) :
    runWal crc w (ops ++ ops') = runWal crc (runWal crc w ops) ops' := List.foldl_append

theorem writtenBy_append (ops ops' : List WalOp) :
    writtenBy (ops ++ ops') = writtenBy ops ++ writtenBy ops' := List.filterMap_append

theorem readFrom_run (pre post : List WalOp) (henc : ∀ r ∈ writtenBy post, r.Encodable) :
    readFrom crc (runWal crc (Wal.open config ∅ now) (pre ++ post ++ [.flush])).disk.2
      (runWal crc (Wal.open config ∅ now) pre).getCurrentPosition =
        .ok ((writtenBy post).map WalRecord.readBack) := by
  obtain ⟨c₁, r₁, h₁, _⟩ := (WalLayout.fresh crc config now).run pre
  obtain ⟨c₂, r₂, h₂, g₂⟩ := h₁.run (post ++ [.flush])
  have hbuf : (runWal crc (runWal crc (Wal.open config ∅ now) pre)
      (post ++ [.flush])).disk.1.buf = [] := by
    rw [runWal_append]
    rfl
  have hwritten : writtenBy (post ++ [.flush]) = writtenBy post := by
    rw [writtenBy_append]
    exact List.append_nil _
  rw [hwritten] at g₂
  have hread := h₂.readFrom_grown hbuf g₂ henc
  rw [List.append_assoc, runWal_append, Wal.getCurrentPosition, ← h₁.sequence, h₁.size]
  exact hread

theorem readAll_run (ops : List WalOp) (henc : ∀ r ∈ writtenBy ops, r.Encodable) :
    readAll crc (runWal crc (Wal.open config ∅ now) (ops ++ [.flush])).disk.2 =
      .ok ((writtenBy ops).map WalRecord.readBack) := by
  have hread := readFrom_run crc config now [] ops henc
  have hpos : (runWal crc (Wal.open config ∅ now) []).getCurrentPosition = ⟨0, 0⟩ := by
    have hfresh := WalLayout.fresh crc config now
    have hseq := hfresh.sequence
    have hsize := hfresh.size
    simp only [List.length_nil, encodeAll_nil] at hseq hsize
    show WalPosition.mk (Wal.open config ∅ now).sequence (Wal.open config ∅ now).fileSize = _
    rw [← hseq, hsize]
  rw [hpos] at hread
  exact hread

theorem map_readBack_eq_iff (rs : List WalRecord) :
    rs.map WalRecord.readBack = rs ↔ ∀ r ∈ rs, r.NoEmptyText := by
  induction rs with
  | nil => simp
  | cons r rs ih => rw [List.map_cons, List.cons.injEq, ih, r.readBack_eq_iff, List.forall_mem_cons]

/-- The log law for one run: after a flush, the whole log reads as the records written, and the log
from any earlier position as the records written since. -/
def LogLaw (ops : List WalOp) : Prop :=
  readAll crc (runWal crc (Wal.open config ∅ now) (ops ++ [.flush])).disk.2 =
    .ok (writtenBy ops) ∧
  ∀ pre post, ops = pre ++ post →
    readFrom crc (runWal crc (Wal.open config ∅ now) (ops ++ [.flush])).disk.2
      (runWal crc (Wal.open config ∅ now) pre).getCurrentPosition = .ok (writtenBy post)

/-- Over records that fit the length word, the log law holds exactly when no string is empty. -/
theorem log_law_iff (ops : List WalOp) (henc : ∀ r ∈ writtenBy ops, r.Encodable) :
    LogLaw crc config now ops ↔ ∀ r ∈ writtenBy ops, r.NoEmptyText := by
  have hall := readAll_run crc config now ops henc
  constructor
  · rintro ⟨hread, _⟩
    rw [hall, Except.ok.injEq, map_readBack_eq_iff] at hread
    exact hread
  · intro htext
    refine ⟨?_, ?_⟩
    · rw [hall, (map_readBack_eq_iff _).mpr htext]
    · rintro pre post rfl
      have hmem : ∀ r ∈ writtenBy post, r ∈ writtenBy (pre ++ post) := by
        intro r hr
        rw [writtenBy_append]
        exact List.mem_append_right _ hr
      rw [readFrom_run crc config now pre post fun r hr => henc r (hmem r hr),
        (map_readBack_eq_iff _).mpr fun r hr => htext r (hmem r hr)]

end Run

/-- A log that rotates at 100 bytes, so that every second record opens a file. -/
def smallFiles : WalConfig := ⟨100, false, 64, none⟩

def sampleRun : List WalOp :=
  [.write (.traceStart sampleTrace 1) 0 0, .write (.nodeStart sampleTrace 3 2) 0 0,
    .reopen smallFiles 5,
    .write ((WalRecord.traceSuspended sampleTrace 3 4).withMetadata "hook") 0 0]

theorem log_law_sample : LogLaw crc32 smallFiles 0 sampleRun :=
  (log_law_iff crc32 smallFiles 0 sampleRun (by decide +kernel)).mpr (by decide +kernel)

/-- A failed node without a message: the record reads back without its error text. -/
theorem log_law_fails_on_empty_message :
    ¬ LogLaw crc32 smallFiles 0 [.write (.nodeError sampleTrace 1 "" 0) 0 0] := by
  rintro ⟨hread, _⟩
  rw [readAll_run crc32 smallFiles 0 _ (by decide +kernel), Except.ok.injEq] at hread
  exact absurd hread (by decide)

end Xerv
