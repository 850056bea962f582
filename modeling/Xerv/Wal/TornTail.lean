import Xerv.Wal.Reader

/-!
# Torn tails

A crash in the middle of an append leaves a byte prefix of the last log file. The reader
stops quietly when it cannot read a whole length word, but fails when a length word is
there and its record is not; and a `Wal` that is opened on the file appends behind the torn
bytes. So a torn tail is only tolerated when it is shorter than a length word and nothing
is ever appended to that file.
-/

namespace Xerv
open Xerv.Lib

/-! ### Cutting a file -/

/-- The records that lie wholly in the first `cut` bytes. -/
def wholeRecords (cut : ℕ) : List WalRecord → List WalRecord
  | [] => []
  | r :: rs => if r.serializedSize ≤ cut then r :: wholeRecords (cut - r.serializedSize) rs else []

def tornSize (cut : ℕ) : List WalRecord → ℕ
  | [] => 0
  | r :: rs => if r.serializedSize ≤ cut then tornSize (cut - r.serializedSize) rs else cut

section Cut
variable (crc : Bytes → UInt32)

theorem wholeRecords_subset (cut : ℕ) (rs : List WalRecord) : ∀ r ∈ wholeRecords cut rs, r ∈ rs := by
  induction rs generalizing cut with
  | nil => exact fun _ h => h
  | cons r rs ih =>
    intro x hx
    unfold wholeRecords at hx
    split at hx
    · rcases List.mem_cons.mp hx with rfl | hx
      · exact List.mem_cons_self
      · exact List.mem_cons_of_mem _ (ih _ x hx)
    · exact absurd hx List.not_mem_nil

theorem take_encodeAll (cut : ℕ) (rs : List WalRecord) :
    ∃ tail, (encodeAll crc rs).take cut = encodeAll crc (wholeRecords cut rs) ++ tail ∧
      tail.length = tornSize cut rs ∧
      (tail = [] ∨ ∃ r ∈ rs, tornSize cut rs < r.serializedSize ∧
        tail = (r.toBytes crc).take (tornSize cut rs)) := by
  induction rs generalizing cut with
  | nil => exact ⟨[], by simp [wholeRecords], rfl, .inl rfl⟩
  | cons r rs ih =>
    have hlen := r.toBytes_length crc
    rw [encodeAll_cons, List.take_append, hlen]
    unfold wholeRecords tornSize
    split
    · rename_i hfit
      obtain ⟨tail, htake, hsize, htail⟩ := ih (cut - r.serializedSize)
      refine ⟨tail, ?_, hsize, ?_⟩
      · rw [List.take_of_length_le (by omega), htake, encodeAll_cons, List.append_assoc]
      · rcases htail with htail | ⟨x, hx, hlt, htail⟩
        · exact .inl htail
        · exact .inr ⟨x, List.mem_cons_of_mem _ hx, hlt, htail⟩
    · rename_i hfit
      refine ⟨(r.toBytes crc).take cut, ?_, ?_, .inr ⟨r, List.mem_cons_self, by omega, rfl⟩⟩
      · rw [show cut - r.serializedSize = 0 by omega, List.take_zero, List.append_nil]
        rfl
      · rw [List.length_take, hlen]
        omega

end Cut

/-! ### Reading a file with a tail -/

section File
variable (crc : Bytes → UInt32)

theorem readRecords_append (rs : List WalRecord) (tail : Bytes) (fuel pos : ℕ)
    (h : ∀ r ∈ rs, r.Encodable) :
    ∃ pos', readRecords crc (rs.length + fuel) pos (encodeAll crc rs ++ tail) =
      (readRecords crc fuel pos' tail).map (rs.map WalRecord.readBack ++ ·) := by
  induction rs generalizing pos with
  | nil =>
    refine ⟨pos, ?_⟩
    rw [List.length_nil, Nat.zero_add, encodeAll_nil, List.nil_append]
    cases readRecords crc fuel pos tail with
    | error e => rfl
    | ok out => rfl
  | cons r rs ih =>
    obtain ⟨pos', hrest⟩ := ih (pos + r.serializedSize) fun x hx => h x (List.mem_cons_of_mem _ hx)
    refine ⟨pos', ?_⟩
    rw [List.length_cons, Nat.add_right_comm, encodeAll_cons, List.append_assoc,
      readRecords_cons crc _ pos r _ (h r List.mem_cons_self), hrest]
    cases readRecords crc fuel pos' tail with
    | error e => rfl
    | ok out => rfl

theorem length_le_encodeAll (rs : List WalRecord) : rs.length ≤ (encodeAll crc rs).length := by
  induction rs with
  | nil => exact Nat.zero_le _
  | cons r rs ih =>
    have hge := r.serializedSize_ge
    unfold minRecordSize at hge
    rw [encodeAll_cons, List.length_append, r.toBytes_length, List.length_cons]
    omega

theorem readFileFrom_append (rs : List WalRecord) (tail : Bytes) (h : ∀ r ∈ rs, r.Encodable) :
    ∃ fuel pos, tail.length ≤ fuel ∧ readFileFrom crc (encodeAll crc rs ++ tail) 0 =
      (readRecords crc fuel pos tail).map (rs.map WalRecord.readBack ++ ·) := by
  have hle := length_le_encodeAll crc rs
  obtain ⟨pos, hread⟩ := readRecords_append crc rs tail
    ((encodeAll crc rs).length - rs.length + tail.length) 0 h
  refine ⟨(encodeAll crc rs).length - rs.length + tail.length, pos, Nat.le_add_left _ _, ?_⟩
  unfold readFileFrom
  dsimp only
  rw [List.drop_zero, List.length_append,
    show (encodeAll crc rs).length + tail.length =
      rs.length + ((encodeAll crc rs).length - rs.length + tail.length) by omega]
  exact hread

theorem readRecords_short (fuel pos : ℕ) (tail : Bytes) (h : tail.length < 4) :
    readRecords crc fuel pos tail = .ok [] := by
  cases fuel with
  | zero => rfl
  | succ fuel =>
    have hread : readLe 4 tail = none := if_neg (by omega)
    simp only [readRecords, hread]

/-- A length word behind which the file is too short stops the whole read. -/
theorem readRecords_overrun (fuel pos : ℕ) (bs rest : Bytes) (length : ℕ) (hfuel : 0 < fuel)
    (hlength : readLe 4 bs = some (length, rest)) (hmin : minRecordSize ≤ length)
    (hover : bs.length < length) : ∃ e, readRecords crc fuel pos bs = .error e := by
  obtain ⟨n, rfl⟩ : ∃ n, fuel = n + 1 := ⟨fuel - 1, by omega⟩
  have hread : readBytes length bs = none := if_neg (by omega)
  simp only [readRecords, hlength, if_neg (Nat.not_lt.mpr hmin), hread]
  exact ⟨_, rfl⟩

theorem readRecords_torn (fuel pos : ℕ) (r : WalRecord) (size : ℕ) (hr : r.Encodable) (hfour : 4 ≤ size)
    (hsize : size < r.serializedSize) (hfuel : 0 < fuel) :
    ∃ e, readRecords crc fuel pos ((r.toBytes crc).take size) = .error e := by
  obtain ⟨bs, hword⟩ := readLe_toBytes crc r [] hr
  have hlen := r.toBytes_length crc
  rw [List.append_nil] at hword
  have hfull : 4 ≤ (r.toBytes crc).length := by omega
  have hval : leVal ((r.toBytes crc).take 4) = r.serializedSize := by
    unfold readLe at hword
    rw [if_pos hfull] at hword
    exact congrArg Prod.fst (Option.some.inj hword)
  refine readRecords_overrun crc fuel pos _ (((r.toBytes crc).take size).drop 4) r.serializedSize
    hfuel ?_ r.serializedSize_ge ?_
  · have hfour' : 4 ≤ ((r.toBytes crc).take size).length := by
      rw [List.length_take]
      omega
    unfold readLe
    rw [if_pos hfour', List.take_take, min_eq_left hfour, hval]
  · rw [List.length_take]
    omega

def startRecord : WalRecord := .traceStart sampleTrace 0

theorem startRecord_toBytes : ∃ rest, startRecord.toBytes crc = 69 :: 0 :: 0 :: 0 :: rest ∧
    rest.length = 65 := by
  have hword : leBytes 4 (minRecordSize + startRecord.payload.length) = [69, 0, 0, 0] := by
    decide
  obtain ⟨rest, hbytes⟩ : ∃ rest, startRecord.toBytes crc = [69, 0, 0, 0] ++ rest :=
    ⟨_, by rw [WalRecord.toBytes, hword]⟩
  have hlen := startRecord.toBytes_length crc
  have hsize : startRecord.serializedSize = 69 := by decide
  rw [hsize, hbytes] at hlen
  exact ⟨rest, hbytes, by simpa using hlen⟩

/-- Behind torn bytes the length word of a record is read one to three bytes early, so that it counts
256, 65536 or 16777216 times. -/
theorem readRecords_misaligned (fuel pos : ℕ) (tail : Bytes) (hpos : 0 < tail.length)
    (hfour : tail.length < 4) (hfuel : 0 < fuel) :
    ∃ e, readRecords crc fuel pos (tail ++ startRecord.toBytes crc) = .error e := by
  obtain ⟨rest, hbytes, hrest⟩ := startRecord_toBytes crc
  rw [hbytes]
  have hover (length : ℕ) (bs : Bytes) (hread : readLe 4 (tail ++ 69 :: 0 :: 0 :: 0 :: rest) =
      some (length, bs)) (hlarge : 256 * 69 ≤ length) :
      ∃ e, readRecords crc fuel pos (tail ++ 69 :: 0 :: 0 :: 0 :: rest) = .error e := by
    refine readRecords_overrun crc fuel pos _ bs length hfuel hread ?_ ?_
    · unfold minRecordSize
      omega
    · simp only [List.length_append, List.length_cons, hrest]
      omega
  match tail, hpos, hfour with
  | [a], _, _ =>
    refine hover (a.toNat + 256 * 69) (0 :: rest) ?_ (by omega)
    simp [readLe, leVal]
  | [a, b], _, _ =>
    refine hover (a.toNat + 256 * (b.toNat + 256 * 69)) (0 :: 0 :: rest) ?_ (by omega)
    simp [readLe, leVal]
  | [a, b, c], _, _ =>
    refine hover (a.toNat + 256 * (b.toNat + 256 * (c.toNat + 256 * 69))) (0 :: 0 :: 0 :: rest) ?_
      (by omega)
    simp [readLe, leVal]

end File

/-! ### Reading file by file -/

def readEach (crc : Bytes → UInt32) : List Bytes → Except XervError (List WalRecord)
  | [] => .ok []
  | bytes :: files =>
    match readFileFrom crc bytes 0 with
    | .error e => .error e
    | .ok records => (readEach crc files).map (records ++ ·)

section Each
variable {crc : Bytes → UInt32} {d : FileDir}

theorem readEach_cons (bytes : Bytes) (files : List Bytes) : readEach crc (bytes :: files) =
    match readFileFrom crc bytes 0 with
    | .error e => .error e
    | .ok records => (readEach crc files).map (records ++ ·) := rfl

theorem readFiles_each (files : List Bytes) (first : ℕ)
    (hfiles : ∀ i bytes, files[i]? = some bytes →
      ∃ f, d.get (walFileName (first + i)) = some f ∧ f.data = bytes) :
    readFiles crc d ⟨0, 0⟩ ((List.range' first files.length).map fun i => (i, walFileName i)) =
      readEach crc files := by
  induction files generalizing first with
  | nil => rfl
  | cons bytes files ih =>
    obtain ⟨f, hf, hdata⟩ := hfiles 0 bytes rfl
    rw [Nat.add_zero] at hf
    have hrest := ih (first + 1) fun i data hi => by
      obtain ⟨g, hg, hgd⟩ := hfiles (i + 1) data hi
      exact ⟨g, by rwa [show first + 1 + i = first + (i + 1) by omega], hgd⟩
    rw [List.length_cons, List.range'_succ, List.map_cons, readFiles, if_neg (Nat.not_lt_zero _),
      readEach]
    cases hread : readFileFrom crc bytes 0 with
    | error e => simp [hf, hdata, hread]
    | ok records => simp [hf, hdata, hread, hrest]

theorem LogFiles.readAll {files : List Bytes} (h : LogFiles d files) :
    readAll crc d = readEach crc files := by
  have hlist : listNumbered parseWalFileName d =
      (List.range files.length).map fun i => (i, walFileName i) := by
    refine listNumbered_eq parseWalFileName walFileName d _
      (fun i _ => parseWalFileName_walFileName i) List.pairwise_lt_range fun n => ?_
    rw [h.names]
    simp only [List.mem_range]
  unfold Xerv.readAll readFrom
  rw [hlist, List.range_eq_range']
  refine readFiles_each files 0 fun i bytes hi => ?_
  rw [Nat.zero_add]
  exact h.file i bytes hi

theorem readEach_append (segs : List (List WalRecord)) (files : List Bytes)
    (henc : ∀ r ∈ segs.flatten, r.Encodable) :
    readEach crc (segs.map (encodeAll crc) ++ files) =
      (readEach crc files).map (segs.flatten.map WalRecord.readBack ++ ·) := by
  induction segs with
  | nil =>
    rw [List.map_nil, List.nil_append]
    cases readEach crc files with
    | error e => rfl
    | ok out => rfl
  | cons seg segs ih =>
    rw [List.flatten_cons] at henc
    have hseg : readFileFrom crc (encodeAll crc seg) 0 = .ok (seg.map WalRecord.readBack) :=
      readFileFrom_encodeAll crc [] seg fun r hr => henc r (List.mem_append_left _ hr)
    rw [List.map_cons, List.cons_append, readEach_cons, hseg,
      ih fun r hr => henc r (List.mem_append_right _ hr)]
    cases readEach crc files with
    | error e => rfl
    | ok out => simp [Except.map]

theorem readEach_whole (segs : List (List WalRecord)) (henc : ∀ r ∈ segs.flatten, r.Encodable) :
    readEach crc (segs.map (encodeAll crc)) = .ok (segs.flatten.map WalRecord.readBack) := by
  have h : readEach crc (segs.map (encodeAll crc) ++ []) = _ := readEach_append segs [] henc
  rw [List.append_nil] at h
  rw [h]
  simp [readEach, Except.map]

theorem readEach_short (segs : List (List WalRecord)) (rs : List WalRecord) (tail : Bytes)
    (rest : List (List WalRecord)) (htail : tail.length < 4)
    (henc : ∀ r ∈ segs.flatten ++ rs ++ rest.flatten, r.Encodable) :
    readEach crc (segs.map (encodeAll crc) ++ (encodeAll crc rs ++ tail) :: rest.map (encodeAll crc)) =
      .ok ((segs.flatten ++ rs ++ rest.flatten).map WalRecord.readBack) := by
  have hsegs : ∀ r ∈ segs.flatten, r.Encodable := fun r hr => henc r (by simp [hr])
  have hrs : ∀ r ∈ rs, r.Encodable := fun r hr => henc r (by simp [hr])
  have hrest : ∀ r ∈ rest.flatten, r.Encodable := fun r hr => henc r (List.mem_append_right _ hr)
  obtain ⟨fuel, pos, _, hread⟩ := readFileFrom_append crc rs tail hrs
  rw [readRecords_short crc fuel pos tail htail] at hread
  rw [readEach_append segs _ hsegs, readEach_cons, hread]
  simp [Except.map, readEach_whole rest hrest]

theorem readEach_error (segs : List (List WalRecord)) (bytes : Bytes) (rest : List Bytes)
    (henc : ∀ r ∈ segs.flatten, r.Encodable) (e : XervError)
    (hbytes : readFileFrom crc bytes 0 = .error e) :
    readEach crc (segs.map (encodeAll crc) ++ bytes :: rest) = .error e := by
  rw [readEach_append segs _ henc, readEach_cons, hbytes]
  rfl

end Each

/-! ### Appending behind a tail -/

def WalOp.keepsHandle : WalOp → Bool
  | .reopen _ _ => false
  | _ => true

section Append
variable {crc : Bytes → UInt32} {w : Wal} {base : List Bytes} {current : List WalRecord}
  {torn : Bytes}

theorem WalRecord.serializedSize_min (r : WalRecord) : 69 ≤ r.serializedSize := by
  unfold serializedSize minRecordSize
  omega

theorem Wal.syncAfterWrite_config (w : Wal) (now later : ℕ) :
    (w.syncAfterWrite now later).config = w.config := by
  unfold syncAfterWrite
  split
  · rfl
  · split
    · rfl
    · dsimp only
      split
      · rfl
      · rfl

theorem WalOp.apply_config (w : Wal) (op : WalOp) (h : op.keepsHandle = true) :
    (op.apply crc w).config = w.config := by
  cases op with
  | write record now later =>
    simp only [WalOp.apply, Wal.write, Wal.syncAfterWrite_config]
    split
    · exact Wal.rotate_config w
    · rfl
  | flush => rfl
  | sync now => rfl
  | reopen config now => exact absurd h Bool.false_ne_true

/-- Whatever the closed files hold, the records written to the current one and behind it stay in
order. -/
theorem LogLayout.run (h : LogLayout w base (encodeAll crc current)) (ops : List WalOp)
    (hops : ∀ op ∈ ops, op.keepsHandle = true) :
    ∃ (segs : List (List WalRecord)) (current' : List WalRecord),
      LogLayout (runWal crc w ops) (base ++ segs.map (encodeAll crc))
        (encodeAll crc current') ∧ segs.flatten ++ current' = current ++ writtenBy ops := by
  induction ops generalizing w base current with
  | nil => exact ⟨[], current, by simpa [runWal] using h, by simp [writtenBy]⟩
  | cons op ops ih =>
    have hrest : ∀ op ∈ ops, op.keepsHandle = true := fun o ho => hops o (List.mem_cons_of_mem _ ho)
    have hop := hops op List.mem_cons_self
    rw [writtenBy_cons]
    cases op with
    | write record now later =>
      have hbytes : encodeAll crc [record] = record.toBytes crc := by simp [encodeAll_cons]
      have hw := h.write crc record now later
      split at hw
      · -- the current file is closed
        rw [← hbytes] at hw
        obtain ⟨segs, current', hl, hall⟩ := ih hw hrest
        refine ⟨current :: segs, current', ?_, ?_⟩
        · rw [List.map_cons, List.append_cons]
          exact hl
        · rw [List.flatten_cons, List.append_assoc, hall]
          rfl
      · rw [← hbytes, ← encodeAll_append] at hw
        obtain ⟨segs, current', hl, hall⟩ := ih hw hrest
        refine ⟨segs, current', hl, ?_⟩
        rw [hall, List.append_assoc]
        rfl
    | flush => exact ih (h.syncFile _ rfl rfl rfl) hrest
    | sync now => exact ih (h.syncFile _ rfl rfl rfl) hrest
    | reopen config now => exact absurd hop Bool.false_ne_true

theorem LogLayout.run_torn (h : LogLayout w base torn) (hfull : w.config.maxFileSize < torn.length + 69)
    (ops : List WalOp) (hops : ∀ op ∈ ops, op.keepsHandle = true) :
    (writtenBy ops = [] ∧ LogLayout (runWal crc w ops) base torn) ∨
    ∃ (segs : List (List WalRecord)) (current' : List WalRecord),
      LogLayout (runWal crc w ops) (base ++ [torn] ++ segs.map (encodeAll crc))
        (encodeAll crc current') ∧ segs.flatten ++ current' = writtenBy ops := by
  induction ops generalizing w with
  | nil => exact .inl ⟨rfl, h⟩
  | cons op ops ih =>
    have hrest : ∀ op ∈ ops, op.keepsHandle = true := fun o ho => hops o (List.mem_cons_of_mem _ ho)
    have hop := hops op List.mem_cons_self
    have hconfig : (op.apply crc w).config = w.config := op.apply_config w hop
    rw [writtenBy_cons]
    cases op with
    | write record now later =>
      have hmin := record.serializedSize_min
      have hbytes : encodeAll crc [record] = record.toBytes crc := by simp [encodeAll_cons]
      have hw := h.write crc record now later
      rw [if_pos (by rw [record.toBytes_length]; omega), ← hbytes] at hw
      exact .inr (hw.run ops hrest)
    | flush => exact ih (h.syncFile _ rfl rfl rfl) (hconfig ▸ hfull) hrest
    | sync now => exact ih (h.syncFile _ rfl rfl rfl) (hconfig ▸ hfull) hrest
    | reopen config now => exact absurd hop Bool.false_ne_true

theorem LogLayout.flushedFiles {closed : List Bytes} {bytes : Bytes} (ops : List WalOp)
    (h : LogLayout (runWal crc w ops) closed bytes) :
    LogFiles (runWal crc w (ops ++ [.flush])).disk.2 (closed ++ [bytes]) := by
  rw [runWal_append]
  exact (h.syncFile (Wal.flush _) rfl rfl rfl).files rfl

end Append

/-! ### Tolerance -/

/-- The log in `d` reads as `kept`, and still does, followed by the new records, after more has been
written through a handle opened on it. New records are those that the codec keeps. -/
structure Tolerated (crc : Bytes → UInt32) (config : WalConfig) (now : ℕ) (d : FileDir)
    (kept : List WalRecord) : Prop where
  read : readAll crc d = .ok kept
  append : ∀ ops, (∀ op ∈ ops, op.keepsHandle = true) →
    (∀ r ∈ writtenBy ops, r.Encodable ∧ r.NoEmptyText) →
      readAll crc (runWal crc (Wal.open config d now) (ops ++ [.flush])).disk.2 =
        .ok (kept ++ writtenBy ops)

/-- The tail of the last file is empty, or shorter than a length word and never written behind:
the file is over the size at which `open` starts a new one, or too full for any record. -/
def TailSafe (config : WalConfig) (size torn : ℕ) : Prop :=
  torn = 0 ∨ torn < 4 ∧ (32 * 1024 * 1024 < size ∨ config.maxFileSize < size + 69)

instance (config : WalConfig) (size torn : ℕ) : Decidable (TailSafe config size torn) :=
  inferInstanceAs (Decidable (_ ∨ _))

section Tolerance
variable {crc : Bytes → UInt32} {config : WalConfig} {now : ℕ} {closed : List (List WalRecord)}
  {whole : List WalRecord} {tail : Bytes} {d : FileDir}

theorem readAll_torn_files (more : List (List WalRecord))
    (hd : LogFiles d (closed.map (encodeAll crc) ++
      (encodeAll crc whole ++ tail) :: more.map (encodeAll crc)))
    (htail : tail.length < 4) (henc : ∀ r ∈ closed.flatten ++ whole ++ more.flatten, r.Encodable)
    (htext : ∀ r ∈ closed.flatten ++ whole ++ more.flatten, r.NoEmptyText) :
    readAll crc d = .ok (closed.flatten ++ whole ++ more.flatten) := by
  rw [hd.readAll, readEach_short closed whole tail more htail henc, (map_readBack_eq_iff _).mpr htext]

theorem good_append {old new : List WalRecord} (henc : ∀ r ∈ old, r.Encodable)
    (htext : ∀ r ∈ old, r.NoEmptyText) (hnew : ∀ r ∈ new, r.Encodable ∧ r.NoEmptyText) :
    ∀ r ∈ old ++ new, r.Encodable ∧ r.NoEmptyText := by
  intro r hr
  rcases List.mem_append.mp hr with hr | hr
  · exact ⟨henc r hr, htext r hr⟩
  · exact hnew r hr

theorem tolerated_clean
    (hd : LogFiles d (closed.map (encodeAll crc) ++ [encodeAll crc whole]))
    (henc : ∀ r ∈ closed.flatten ++ whole, r.Encodable)
    (htext : ∀ r ∈ closed.flatten ++ whole, r.NoEmptyText) (ops : List WalOp)
    (hops : ∀ op ∈ ops, op.keepsHandle = true)
    (hnew : ∀ r ∈ writtenBy ops, r.Encodable ∧ r.NoEmptyText) :
    readAll crc (runWal crc (Wal.open config d now) (ops ++ [.flush])).disk.2 =
      .ok (closed.flatten ++ whole ++ writtenBy ops) := by
  have hopen : ∃ (base : List (List WalRecord)) (current : List WalRecord),
      LogLayout (Wal.open config d now) (base.map (encodeAll crc)) (encodeAll crc current) ∧
        base.flatten ++ current = closed.flatten ++ whole := by
    have ho := hd.open config now
    split at ho
    · refine ⟨closed ++ [whole], [], ?_, by simp⟩
      rwa [← map_encodeAll_snoc]
    · exact ⟨closed, whole, ho, rfl⟩
  obtain ⟨base, current, hl, hall⟩ := hopen
  obtain ⟨segs, current', hrun, hseg⟩ := hl.run ops hops
  have hfiles := hrun.flushedFiles ops
  rw [← List.map_append, map_encodeAll_snoc] at hfiles
  have hflat : (base ++ segs ++ [current']).flatten = closed.flatten ++ whole ++ writtenBy ops := by
    rw [← hall]
    simp [hseg]
  have hgood := good_append henc htext hnew
  rw [hfiles.readAll, readEach_whole _ (by rw [hflat]; exact fun r hr => (hgood r hr).1), hflat,
    (map_readBack_eq_iff _).mpr fun r hr => (hgood r hr).2]

theorem tolerated_short
    (hd : LogFiles d (closed.map (encodeAll crc) ++ [encodeAll crc whole ++ tail]))
    (htail : tail.length < 4)
    (hfull : 32 * 1024 * 1024 < (encodeAll crc whole ++ tail).length ∨
      config.maxFileSize < (encodeAll crc whole ++ tail).length + 69)
    (henc : ∀ r ∈ closed.flatten ++ whole, r.Encodable)
    (htext : ∀ r ∈ closed.flatten ++ whole, r.NoEmptyText) (ops : List WalOp)
    (hops : ∀ op ∈ ops, op.keepsHandle = true)
    (hnew : ∀ r ∈ writtenBy ops, r.Encodable ∧ r.NoEmptyText) :
    readAll crc (runWal crc (Wal.open config d now) (ops ++ [.flush])).disk.2 =
      .ok (closed.flatten ++ whole ++ writtenBy ops) := by
  have hgood := good_append henc htext hnew
  have hread (more : List (List WalRecord)) (hmore : more.flatten = writtenBy ops)
      (hfiles : LogFiles (runWal crc (Wal.open config d now) (ops ++ [.flush])).disk.2
        (closed.map (encodeAll crc) ++
          (encodeAll crc whole ++ tail) :: more.map (encodeAll crc))) :
      readAll crc (runWal crc (Wal.open config d now) (ops ++ [.flush])).disk.2 =
        .ok (closed.flatten ++ whole ++ writtenBy ops) := by
    rw [← hmore] at hgood ⊢
    exact readAll_torn_files more hfiles htail (fun r hr => (hgood r hr).1)
      fun r hr => (hgood r hr).2
  have hbehind (segs : List (List WalRecord)) (current : List WalRecord)
      (hrun : LogLayout (runWal crc (Wal.open config d now) ops)
        (closed.map (encodeAll crc) ++ [encodeAll crc whole ++ tail] ++ segs.map (encodeAll crc))
        (encodeAll crc current)) (hseg : segs.flatten ++ current = writtenBy ops) :
      readAll crc (runWal crc (Wal.open config d now) (ops ++ [.flush])).disk.2 =
        .ok (closed.flatten ++ whole ++ writtenBy ops) := by
    refine hread (segs ++ [current]) (by simpa using hseg) ?_
    have hfiles := hrun.flushedFiles ops
    rw [List.append_assoc, List.append_assoc, List.singleton_append, map_encodeAll_snoc] at hfiles
    exact hfiles
  have ho := hd.open config now
  split at ho
  · rw [← encodeAll_nil crc] at ho
    obtain ⟨segs, current, hrun, hseg⟩ := ho.run ops hops
    exact hbehind segs current hrun hseg
  · rename_i hbig
    have hroom := hfull.resolve_left hbig
    rcases ho.run_torn hroom ops hops with ⟨hnone, hrun⟩ | ⟨segs, current, hrun, hseg⟩
    · exact hread [] (by rw [hnone]; rfl) (hrun.flushedFiles ops)
    · exact hbehind segs current hrun hseg

theorem append_misaligned (config : WalConfig) (now : ℕ)
    (hd : LogFiles d (closed.map (encodeAll crc) ++ [encodeAll crc whole ++ tail]))
    (hpos : 0 < tail.length) (hfour : tail.length < 4)
    (hbig : ¬ 32 * 1024 * 1024 < (encodeAll crc whole ++ tail).length)
    (hroom : ¬ config.maxFileSize < (encodeAll crc whole ++ tail).length + 69)
    (henc : ∀ r ∈ closed.flatten ++ whole, r.Encodable) :
    ∃ e, readAll crc (runWal crc (Wal.open config d now)
      ([.write startRecord 0 0] ++ [.flush])).disk.2 = .error e := by
  have ho := hd.open config now
  rw [if_neg hbig] at ho
  have hconfig : (Wal.open config d now).config = config := rfl
  have hsize : startRecord.serializedSize = 69 := by decide
  have hw := ho.write crc startRecord 0 0
  rw [hconfig, startRecord.toBytes_length, hsize, if_neg hroom, List.append_assoc] at hw
  have hfiles := LogLayout.flushedFiles [.write startRecord 0 0] hw
  obtain ⟨fuel, pos, hfuel, hread⟩ := readFileFrom_append crc whole (tail ++ startRecord.toBytes crc)
    fun r hr => henc r (List.mem_append_right _ hr)
  rw [List.length_append] at hfuel
  obtain ⟨e, herr⟩ := readRecords_misaligned crc fuel pos tail hpos hfour (by omega)
  rw [herr] at hread
  refine ⟨e, ?_⟩
  rw [hfiles.readAll]
  exact readEach_error closed _ [] (fun r hr => henc r (List.mem_append_left _ hr)) e hread

end Tolerance

section Main
variable (crc : Bytes → UInt32) (config : WalConfig) (now : ℕ)

/-- A crash that cuts the last log file at any byte is tolerated exactly when the kept records have
no empty strings and the torn bytes are harmless. -/
theorem torn_tail_tolerated_iff (d : FileDir) (closed : List (List WalRecord)) (rs : List WalRecord)
    (cut : ℕ) (hd : LogFiles d (closed.map (encodeAll crc) ++ [(encodeAll crc rs).take cut]))
    (henc : ∀ r ∈ closed.flatten ++ rs, r.Encodable) :
    Tolerated crc config now d (closed.flatten ++ wholeRecords cut rs) ↔
      (∀ r ∈ closed.flatten ++ wholeRecords cut rs, r.NoEmptyText) ∧
      TailSafe config ((encodeAll crc rs).take cut).length (tornSize cut rs) := by
  obtain ⟨tail, htake, hsize, htail⟩ := take_encodeAll crc cut rs
  rw [htake] at hd ⊢
  have hkept : ∀ r ∈ closed.flatten ++ wholeRecords cut rs, r.Encodable := by
    intro r hr
    rcases List.mem_append.mp hr with hr | hr
    · exact henc r (List.mem_append_left _ hr)
    · exact henc r (List.mem_append_right _ (wholeRecords_subset cut rs r hr))
  constructor
  · rintro ⟨hread, happend⟩
    have hshort : tornSize cut rs < 4 := by
      by_contra hge
      -- a whole length word of a record that is not there
      rcases htail with rfl | ⟨r, hr, hlt, rfl⟩
      · rw [List.length_nil] at hsize
        omega
      · obtain ⟨fuel, pos, hfuel, hfile⟩ := readFileFrom_append crc (wholeRecords cut rs)
          ((r.toBytes crc).take (tornSize cut rs)) fun x hx => hkept x (List.mem_append_right _ hx)
        obtain ⟨e, herr⟩ := readRecords_torn crc fuel pos r (tornSize cut rs)
          (henc r (List.mem_append_right _ hr)) (by omega) hlt (by omega)
        rw [herr] at hfile
        rw [hd.readAll, readEach_error closed _ []
          (fun x hx => hkept x (List.mem_append_left _ hx)) e hfile] at hread
        cases hread
    have htext : ∀ r ∈ closed.flatten ++ wholeRecords cut rs, r.NoEmptyText := by
      have heach : readEach crc (closed.map (encodeAll crc) ++ [encodeAll crc (wholeRecords cut rs) ++ tail]) =
          _ := readEach_short closed (wholeRecords cut rs) tail [] (by omega) (by simpa using hkept)
      rw [hd.readAll, heach, List.flatten_nil, List.append_nil, Except.ok.injEq] at hread
      exact (map_readBack_eq_iff _).mp hread
    refine ⟨htext, ?_⟩
    rcases Nat.eq_zero_or_pos (tornSize cut rs) with hzero | hpos
    · exact .inl hzero
    · refine .inr ⟨hshort, ?_⟩
      by_contra hfree
      obtain ⟨hbig, hroom⟩ := not_or.mp hfree
      obtain ⟨e, herr⟩ := append_misaligned config now hd (by omega) (by omega) hbig hroom hkept
      rw [happend [.write startRecord 0 0] (by decide) (by decide)] at herr
      cases herr
  · rintro ⟨htext, hsafe⟩
    have hread : readAll crc d = .ok (closed.flatten ++ wholeRecords cut rs) := by
      have hfour : tail.length < 4 := by
        rcases hsafe with hzero | ⟨hlt, _⟩
        · omega
        · omega
      simpa using readAll_torn_files [] hd hfour (by simpa using hkept) (by simpa using htext)
    refine ⟨hread, fun ops hops hnew => ?_⟩
    rcases hsafe with hzero | ⟨hlt, hfull⟩
    · have hnil : tail = [] := List.eq_nil_of_length_eq_zero (by omega)
      subst hnil
      rw [List.append_nil] at hd
      exact tolerated_clean hd hkept htext ops hops hnew
    · exact tolerated_short hd (by omega) hfull hkept htext ops hops hnew

end Main

def cutRecords : List WalRecord := [.traceStart sampleTrace 1, .nodeStart sampleTrace 3 2]

def cutFile (cut : ℕ) : FileDir :=
  (∅ : FileDir).insert (walFileName 0) ⟨(encodeAll crc32 cutRecords).take cut, 0⟩

theorem torn_length_word_is_tolerated :
    Tolerated crc32 smallFiles 0 (cutFile 71) [.traceStart sampleTrace 1] :=
  (torn_tail_tolerated_iff crc32 smallFiles 0 (cutFile 71) [] cutRecords 71 (logFiles_single _)
    (by decide)).mpr ⟨by decide, by decide⟩

/-- A crash in the middle of the second record: the log cannot be read any more. -/
theorem torn_record_stops_the_read :
    ¬ Tolerated crc32 .default 0 (cutFile 100) [.traceStart sampleTrace 1] := by
  rintro ⟨hread, _⟩
  rw [cutFile, (logFiles_single _).readAll] at hread
  exact absurd hread (by decide +kernel)

end Xerv
