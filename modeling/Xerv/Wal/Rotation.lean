import Xerv.Wal.GroupCommit

/-!
# Failed rotations (`xerv-core/src/wal/writer/wal.rs`)

`rotate_locked` takes the next sequence number before it creates and locks the file, and does not give it
back: after a failure the position names a file that nothing is appended to.
-/

namespace Xerv
open Xerv.Lib

inductive RotationFault where
  | create
  | lock
  deriving DecidableEq

def RotationFault.inWrite : RotationFault → WriteFault
  | .create => .create
  | .lock => .lock

/-- A call of `write`, with what happens to the rotation if there is one. -/
structure LogWrite where
  record : WalRecord
  fault : Option RotationFault
  now : ℕ
  later : ℕ

def LogWrite.perform (crc : Bytes → UInt32) (w : Wal) (call : LogWrite) : Called :=
  w.tryWrite crc call.record (call.fault.map RotationFault.inWrite) call.now call.later

def runWrites (crc : Bytes → UInt32) (w : Wal) (calls : List LogWrite) : Wal :=
  calls.foldl (fun w call => (call.perform crc w).wal) w

def succeeded (crc : Bytes → UInt32) : Wal → List LogWrite → List WalRecord
  | _, [] => []
  | w, call :: calls =>
    let r := call.perform crc w
    if r.ok then call.record :: succeeded crc r.wal calls else succeeded crc r.wal calls

/-- The call has to rotate, and its fault strikes. -/
def rotationFails (crc : Bytes → UInt32) (w : Wal) (call : LogWrite) : Bool :=
  w.config.maxFileSize < w.fileSize + (call.record.toBytes crc).length && call.fault.isSome

/-- At every time the position names the file in use, and at every later time the log reads from there, after a
flush, as the records successfully written in between. -/
def PositionLaw (crc : Bytes → UInt32) (w : Wal) (calls : List LogWrite) : Prop :=
  ∀ pre post, pre ++ post <+: calls →
    (runWrites crc w pre).disk.1.path =
        walFileName (runWrites crc w pre).getCurrentPosition.fileSequence ∧
      readFrom crc (runWrites crc w (pre ++ post)).flush.disk.2 (runWrites crc w pre).getCurrentPosition =
        .ok (succeeded crc (runWrites crc w pre) post)

section Calls
variable (crc : Bytes → UInt32) (w : Wal)

theorem LogWrite.perform_ok (call : LogWrite) (h : rotationFails crc w call = false) :
    (call.perform crc w).wal = w.write crc call.record call.now call.later ∧ (call.perform crc w).ok = true := by
  have hnone := w.tryWrite_none crc call.record call.now call.later
  unfold LogWrite.perform
  cases hfault : call.fault with
  | none => exact hnone
  | some fault =>
    unfold rotationFails at h
    rw [hfault, Option.isSome_some, Bool.and_true, decide_eq_false_iff_not] at h
    have hsame : w.tryWrite crc call.record (some fault.inWrite) call.now call.later =
        w.tryWrite crc call.record none call.now call.later := by
      unfold Wal.tryWrite
      dsimp only
      rw [if_neg h, if_neg h]
      cases fault with
      | create => rfl
      | lock => rfl
    rw [Option.map_some, hsame]
    exact hnone

/-- What a failed rotation leaves: the old file in use, under the next number. -/
theorem LogWrite.perform_failed (call : LogWrite) (h : rotationFails crc w call = true) :
    (call.perform crc w).wal.disk.1.path = w.disk.1.path ∧
      (call.perform crc w).wal.sequence = w.sequence + 1 ∧ (call.perform crc w).ok = false := by
  unfold rotationFails at h
  rw [Bool.and_eq_true, decide_eq_true_eq] at h
  obtain ⟨fault, hfault⟩ := Option.isSome_iff_exists.mp h.2
  unfold LogWrite.perform Wal.tryWrite
  dsimp only
  rw [hfault, if_pos h.1]
  cases fault with
  | create => exact ⟨rfl, rfl, rfl⟩
  | lock => exact ⟨rfl, rfl, rfl⟩

def LogWrite.op (call : LogWrite) : WalOp := .write call.record call.now call.later

theorem writtenBy_ops (calls : List LogWrite) :
    writtenBy (calls.map LogWrite.op) = calls.map LogWrite.record := by
  induction calls with
  | nil => rfl
  | cons call calls ih =>
    rw [List.map_cons, writtenBy_cons, ih]
    rfl

theorem runWrites_append (calls calls' : List LogWrite) :
    runWrites crc w (calls ++ calls') = runWrites crc (runWrites crc w calls) calls' := List.foldl_append

theorem rotationFails_after (pre post : List LogWrite)
    (h : ∀ before call, before ++ [call] <+: pre ++ post →
      rotationFails crc (runWrites crc w before) call = false) (before : List LogWrite) (call : LogWrite)
    (hpre : before ++ [call] <+: post) :
    rotationFails crc (runWrites crc (runWrites crc w pre) before) call = false := by
  rw [← runWrites_append]
  refine h (pre ++ before) call ?_
  rw [List.append_assoc]
  exact (List.prefix_append_right_inj pre).mpr hpre

theorem runWrites_ok (calls : List LogWrite)
    (h : ∀ before call, before ++ [call] <+: calls → rotationFails crc (runWrites crc w before) call = false) :
    runWrites crc w calls = runWal crc w (calls.map LogWrite.op) ∧
      succeeded crc w calls = calls.map LogWrite.record := by
  induction calls generalizing w with
  | nil => exact ⟨rfl, rfl⟩
  | cons call calls ih =>
    obtain ⟨hwal, hok⟩ := call.perform_ok crc w (h [] call (by simp))
    have hrest := ih (call.perform crc w).wal fun before call' hpre =>
      h (call :: before) call' (List.cons_prefix_cons.mpr ⟨rfl, hpre⟩)
    refine ⟨?_, ?_⟩
    · rw [show runWrites crc w (call :: calls) = runWrites crc (call.perform crc w).wal calls from rfl,
        hrest.1, hwal]
      rfl
    · rw [List.map_cons, ← hrest.2, succeeded, if_pos hok]

theorem readFrom_writes (config : WalConfig) (now : ℕ) (ops : List WalOp) (pre post : List LogWrite)
    (henc : ∀ call ∈ post, call.record.Encodable)
    (hnone : ∀ before call, before ++ [call] <+: pre ++ post →
      rotationFails crc (runWrites crc (runWal crc (Wal.open config ∅ now) ops) before) call = false) :
    readFrom crc (runWrites crc (runWal crc (Wal.open config ∅ now) ops) (pre ++ post)).flush.disk.2
        (runWrites crc (runWal crc (Wal.open config ∅ now) ops) pre).getCurrentPosition =
      .ok ((succeeded crc (runWrites crc (runWal crc (Wal.open config ∅ now) ops) pre) post).map
        WalRecord.readBack) := by
  have hpre := runWrites_ok crc _ pre fun before call h =>
    hnone before call (h.trans (List.prefix_append _ _))
  have hpost := runWrites_ok crc (runWrites crc (runWal crc (Wal.open config ∅ now) ops) pre) post
    (rotationFails_after crc _ pre post hnone)
  have hwritten : ∀ r ∈ writtenBy (post.map LogWrite.op), r.Encodable := by
    rw [writtenBy_ops]
    exact List.forall_mem_map.mpr henc
  have hread := readFrom_run crc config now (ops ++ pre.map LogWrite.op) (post.map LogWrite.op) hwritten
  rw [writtenBy_ops] at hread
  rw [runWrites_append, hpost.1, hpost.2, hpre.1]
  rw [List.append_assoc, List.append_assoc, runWal_append, runWal_append, runWal_append, runWal_append] at hread
  exact hread

end Calls

/-- For every log, every run of writes on it and every choice of the rotations that fail: the positions are right if
and only if no rotation fails in the run and no record of it has an empty text. -/
theorem position_law_iff (crc : Bytes → UInt32) (config : WalConfig) (now : ℕ) (ops : List WalOp)
    (calls : List LogWrite) (henc : ∀ call ∈ calls, call.record.Encodable) :
    PositionLaw crc (runWal crc (Wal.open config ∅ now) ops) calls ↔
      (∀ before call, before ++ [call] <+: calls →
        rotationFails crc (runWrites crc (runWal crc (Wal.open config ∅ now) ops) before) call = false) ∧
        ∀ call ∈ calls, call.record.NoEmptyText := by
  constructor
  · intro hlaw
    have hnone : ∀ before call, before ++ [call] <+: calls →
        rotationFails crc (runWrites crc (runWal crc (Wal.open config ∅ now) ops) before) call = false := by
      intro before call hpre
      rw [Bool.eq_false_iff]
      intro hfails
      obtain ⟨hpath, hseq, -⟩ := call.perform_failed crc _ hfails
      have hold := (hlaw before [] (by simpa using (List.prefix_append before [call]).trans hpre)).1
      have hnew := (hlaw (before ++ [call]) [] (by simpa using hpre)).1
      -- the file is the one it was, under another number
      rw [runWrites_append] at hnew
      have hsame := walFileName_injective ((hold.symm.trans hpath.symm).trans hnew)
      unfold Wal.getCurrentPosition at hsame
      dsimp only at hsame
      rw [show (runWrites crc (runWrites crc _ before) [call]).sequence = _ from hseq] at hsame
      omega
    refine ⟨hnone, ?_⟩
    have hread := readFrom_writes crc config now ops [] calls henc hnone
    rw [(hlaw [] calls List.prefix_rfl).2, Except.ok.injEq, eq_comm, map_readBack_eq_iff] at hread
    have hall : succeeded crc (runWrites crc (runWal crc (Wal.open config ∅ now) ops) []) calls =
        calls.map LogWrite.record := (runWrites_ok crc _ calls hnone).2
    rw [hall] at hread
    exact List.forall_mem_map.mp hread
  · rintro ⟨hnone, htext⟩ pre post hpre
    have hnone' : ∀ before call, before ++ [call] <+: pre ++ post →
        rotationFails crc (runWrites crc (runWal crc (Wal.open config ∅ now) ops) before) call = false :=
      fun before call h => hnone before call (h.trans hpre)
    have hmem : ∀ call ∈ post, call ∈ calls := fun call h => hpre.subset (List.mem_append_right pre h)
    have hpost := runWrites_ok crc (runWrites crc (runWal crc (Wal.open config ∅ now) ops) pre) post
      (rotationFails_after crc _ pre post hnone')
    refine ⟨?_, ?_⟩
    · have hrun := (runWrites_ok crc _ pre fun before call h =>
        hnone' before call (h.trans (List.prefix_append _ _))).1
      obtain ⟨closed, current, hlayout, -⟩ :=
        (WalLayout.fresh crc config now).run (ops ++ pre.map LogWrite.op)
      rw [runWal_append, ← hrun] at hlayout
      exact hlayout.path
    · rw [readFrom_writes crc config now ops pre post (fun call h => henc call (hmem call h)) hnone', hpost.2,
        (map_readBack_eq_iff _).mpr (List.forall_mem_map.mpr fun call h => htext call (hmem call h))]

def longSuspension : WalRecord :=
  (WalRecord.traceSuspended sampleTrace 3 4).withMetadata "a hook that waits for the answer of somebody who is away"

def tightFiles : WalConfig := ⟨150, false, 64, none⟩

def rotatingWrites : List LogWrite :=
  [⟨.traceStart sampleTrace 1, some .create, 0, 0⟩, ⟨longSuspension, none, 0, 0⟩]

theorem position_law_rotating :
    (runWrites crc32 (Wal.open tightFiles ∅ 0) rotatingWrites).sequence = 1 ∧
      PositionLaw crc32 (runWal crc32 (Wal.open tightFiles ∅ 0) []) rotatingWrites := by
  refine ⟨by decide +kernel, (position_law_iff crc32 tightFiles 0 [] rotatingWrites (by decide +kernel)).mpr
    ⟨fun before call hpre => ?_, by decide⟩⟩
  rcases before with - | ⟨first, before⟩
  · obtain ⟨rfl, -⟩ := List.cons_prefix_cons.mp hpre
    decide
  · obtain ⟨rfl, hrest⟩ := List.cons_prefix_cons.mp hpre
    obtain ⟨rfl, rfl⟩ := concat_prefix_singleton hrest
    exact Bool.and_false _

/-- The second record needs a new file, which cannot be created; the third goes into the old one. -/
def brokenWrites : List LogWrite :=
  [⟨.traceStart sampleTrace 1, none, 0, 0⟩,
    ⟨longSuspension, some .create, 0, 0⟩,
    ⟨.nodeStart sampleTrace 3 2, none, 0, 0⟩]

/-- The third write returns `Ok`, and the position before it reads back nothing. -/
theorem position_lost :
    succeeded crc32 (runWrites crc32 (Wal.open tightFiles ∅ 0) (brokenWrites.take 2)) (brokenWrites.drop 2) =
        [.nodeStart sampleTrace 3 2] ∧
      readFrom crc32 (runWrites crc32 (Wal.open tightFiles ∅ 0) brokenWrites).flush.disk.2
        (runWrites crc32 (Wal.open tightFiles ∅ 0) (brokenWrites.take 2)).getCurrentPosition = .ok [] ∧
      ¬ PositionLaw crc32 (Wal.open tightFiles ∅ 0) brokenWrites := by
  have hsucceeded : succeeded crc32 (runWrites crc32 (Wal.open tightFiles ∅ 0) (brokenWrites.take 2))
      (brokenWrites.drop 2) = [.nodeStart sampleTrace 3 2] := by decide +kernel
  have hread : readFrom crc32 (runWrites crc32 (Wal.open tightFiles ∅ 0) brokenWrites).flush.disk.2
      (runWrites crc32 (Wal.open tightFiles ∅ 0) (brokenWrites.take 2)).getCurrentPosition = .ok [] := by
    decide +kernel
  refine ⟨hsucceeded, hread, fun hlaw => ?_⟩
  have hpost := (hlaw (brokenWrites.take 2) (brokenWrites.drop 2) (by rw [List.take_append_drop])).2
  rw [List.take_append_drop, hread, hsucceeded] at hpost
  cases hpost

end Xerv
