import Xerv.Arena.File
import Xerv.Lib.Fallible
import Xerv.Lib.FiniteMap
import Xerv.Scheduler.Restore
import Xerv.Wal.GroupCommit

/-!
# Starting a trace (`xerv-executor/src/scheduler/executor.rs`, `xerv-core/src/arena/writer.rs`)

`start_trace` creates the arena file, puts the trace into the map and logs it, and each of the steps may
fail. What the steps before a failing one have done stays.
-/

namespace Xerv
open Xerv.Lib

structure ArenaConfig where
  directory : String
  capacity : ℕ
  syncOnWrite : Bool

structure TriggerEvent where
  triggerId : String
  traceId : TraceId
  data : RelPtr

/-- What a start takes hold of: the traces with their arenas, the arena files, and the log with the records that
it has taken in full. -/
structure TraceResources where
  traces : FiniteMap TraceId (TraceState × Arena.ArenaInner)
  arenaFiles : Directory Bytes
  wal : Wal
  records : List WalRecord

inductive StartStep where
  | concurrencyLimit
  | createDirAll
  | openFile
  | tryLock
  | setLen
  | mapMut
  | flush
  | walWrite
  deriving DecidableEq

/-- The configuration, the clocks, and the operations that fail. -/
structure StartArgs where
  crc : Bytes → UInt32
  maxConcurrentTraces : ℕ
  arenaConfig : ArenaConfig
  now : UInt64
  monotonicNow : ℕ
  monotonicLater : ℕ
  arenaFault : Option (Fault StartStep)
  walFault : Option WriteFault

namespace TraceResources

def putFile (path : String) (bytes : Bytes) (s : TraceResources) : TraceResources :=
  { s with arenaFiles := s.arenaFiles.insert path bytes }

def insertTrace (tid : TraceId) (entry : TraceState × Arena.ArenaInner) (s : TraceResources) : TraceResources :=
  { s with traces := s.traces.insert tid entry }

end TraceResources

namespace StartArgs
variable (x : StartArgs)

abbrev Call (α : Type) := EStateM (Stop StartStep) TraceResources α

def path (tid : TraceId) : String := arenaFile x.arenaConfig.directory tid

/-- A step of `Arena::create`; one that fails does nothing. -/
def arenaStep (step : StartStep) (effect : TraceResources → TraceResources) : Call Unit :=
  attempt x.arenaFault step (fun _ => id) effect

/-- `set_len` refuses what is no file length. -/
def setLen (tid : TraceId) : Call Unit :=
  if 2 ^ 63 ≤ x.arenaConfig.capacity then throw (.failed .setLen)
  else x.arenaStep .setLen (TraceResources.putFile (x.path tid) (List.replicate x.arenaConfig.capacity 0))

/-- The header goes to the start of the mapping, which panics where there is no room for it. -/
def writeHeader (tid : TraceId) : Call Arena.ArenaInner :=
  match Arena.ArenaInner.create tid x.arenaConfig.capacity x.arenaConfig.syncOnWrite x.now with
  | none => throw .panic
  | some arena => do
    modify (TraceResources.putFile (x.path tid) arena.mmap)
    return arena

def syncHeader : Call Unit :=
  if x.arenaConfig.syncOnWrite then x.arenaStep .flush id else pure ()

/-- `Arena::create`. -/
def createArena (tid : TraceId) : Call Arena.ArenaInner := do
  x.arenaStep .createDirAll id
  x.arenaStep .openFile (TraceResources.putFile (x.path tid) [])
  x.arenaStep .tryLock id
  x.setLen tid
  x.arenaStep .mapMut id
  let arena ← x.writeHeader tid
  x.syncHeader
  return arena

def startRecord (tid : TraceId) : WalRecord := .traceStart tid x.now

def walCall (tid : TraceId) (wal : Wal) : Called :=
  wal.tryWrite x.crc (x.startRecord tid) x.walFault x.monotonicNow x.monotonicLater

def takeRecord (tid : TraceId) (s : TraceResources) : TraceResources :=
  let r := x.walCall tid s.wal
  { s with
    wal := r.wal
    records := if r.appended then s.records ++ [x.startRecord tid] else s.records }

/-- `self.wal.write(&record)?`. -/
def logStart (tid : TraceId) : Call Unit := fun s =>
  if (x.walCall tid s.wal).ok then .ok () (x.takeRecord tid s)
  else .error (.failed .walWrite) (x.takeRecord tid s)

def startTrace (event : TriggerEvent) : Call TraceId := do
  let s ← get
  if x.maxConcurrentTraces ≤ s.traces.size then throw (.failed .concurrencyLimit)
  let arena ← x.createArena event.traceId
  modify (TraceResources.insertTrace event.traceId (.new event.traceId event.triggerId event.data, arena))
  x.logStart event.traceId
  return event.traceId

/-- Nothing of the trace is there: neither an entry, nor a record of its start, nor a file. -/
structure Absent (tid : TraceId) (s : TraceResources) : Prop where
  entry : s.traces.get tid = none
  record : ∀ r ∈ s.records, r.recordType = .traceStart → r.traceId ≠ tid
  file : x.path tid ∉ s.arenaFiles

/-- Where the start returns an error, the traces are what they were and nothing of the trace is there. -/
def StartsAtomically (event : TriggerEvent) (s : TraceResources) : Prop :=
  Meets (x.startTrace event) s (fun _ _ => True) fun stop s' =>
    ∀ step, stop = .failed step → s'.traces = s.traces ∧ x.Absent event.traceId s'

def fails (step : StartStep) : Bool := (hits x.arenaFault step).isSome

def failsEarly : Bool := x.fails .createDirAll || x.fails .openFile

/-- The arena file is there and the rest of `Arena::create` fails. -/
def arenaFailsLate : Bool :=
  x.fails .tryLock || 2 ^ 63 ≤ x.arenaConfig.capacity || x.fails .setLen || x.fails .mapMut ||
    (Arena.headerSize ≤ x.arenaConfig.capacity && x.arenaConfig.syncOnWrite && x.fails .flush)

def failsAfterOpen (event : TriggerEvent) (s : TraceResources) : Bool :=
  decide (s.traces.size < x.maxConcurrentTraces) && !x.failsEarly &&
    (x.arenaFailsLate ||
      (decide (Arena.headerSize ≤ x.arenaConfig.capacity) && !(x.walCall event.traceId s.wal).ok))

theorem meets_arenaStep {α : Type} {step : StartStep} {effect : TraceResources → TraceResources}
    {f : Unit → Call α} {s : TraceResources} {done : α → TraceResources → Prop}
    {stopped : Stop StartStep → TraceResources → Prop}
    (hstop : x.fails step = true → stopped (.failed step) s)
    (hnext : x.fails step = false → Meets (f ()) (effect s) done stopped) :
    Meets (x.arenaStep step effect >>= f) s done stopped := by
  unfold fails at hstop hnext
  unfold Meets at hnext ⊢
  rw [bind_run]
  unfold arenaStep attempt
  cases hfault : hits x.arenaFault step with
  | none =>
    rw [hfault] at hnext
    exact hnext rfl
  | some n =>
    rw [hfault] at hstop
    exact hstop rfl

/-- Where `Arena::create` stops, and what is left of it. -/
inductive ArenaStops (tid : TraceId) (s : TraceResources) : Stop StartStep → TraceResources → Prop
  | early (step : StartStep) (h : x.failsEarly = true) : ArenaStops tid s (.failed step) s
  | late (step : StartStep) (files : Directory Bytes) (hfile : x.path tid ∈ files)
      (hearly : x.failsEarly = false) (h : x.arenaFailsLate = true) :
      ArenaStops tid s (.failed step) { s with arenaFiles := files }
  | panicked (files : Directory Bytes) (hlate : x.arenaFailsLate = false)
      (h : x.arenaConfig.capacity < Arena.headerSize) :
      ArenaStops tid s .panic { s with arenaFiles := files }

structure ArenaCreated (tid : TraceId) (s s' : TraceResources) : Prop where
  state : ∃ files, x.path tid ∈ files ∧ s' = { s with arenaFiles := files }
  early : x.failsEarly = false
  late : x.arenaFailsLate = false
  room : Arena.headerSize ≤ x.arenaConfig.capacity

theorem mem_insert_file (files : Directory Bytes) (path : String) (bytes : Bytes) : path ∈ files.insert path bytes :=
  (Directory.get_isSome _ _).mp (by rw [Directory.get_insert_self]; rfl)

theorem createArena_meets (tid : TraceId) (s : TraceResources) :
    Meets (x.createArena tid) s (fun _ s' => x.ArenaCreated tid s s') (x.ArenaStops tid s) := by
  unfold createArena
  refine x.meets_arenaStep (fun h => .early _ (by simp only [failsEarly, h, Bool.true_or])) fun hdir => ?_
  refine x.meets_arenaStep (fun h => .early _ (by simp only [failsEarly, h, Bool.or_true])) fun hopen => ?_
  have hearly : x.failsEarly = false := by simp only [failsEarly, hdir, hopen, Bool.or_false]
  have hfile (files : Directory Bytes) (bytes : Bytes) := mem_insert_file files (x.path tid) bytes
  refine x.meets_arenaStep (fun h => .late _ _ (hfile _ _) hearly (by simp only [arenaFailsLate, h, Bool.true_or]))
    fun hlock => ?_
  unfold setLen
  by_cases hlength : 2 ^ 63 ≤ x.arenaConfig.capacity
  · rw [if_pos hlength]
    refine .late _ _ (hfile _ _) hearly ?_
    simp only [arenaFailsLate, hlength, decide_true, Bool.or_true, Bool.true_or]
  rw [if_neg hlength]
  refine x.meets_arenaStep (fun h => .late _ _ (hfile _ _) hearly ?_) fun hset => ?_
  · simp only [arenaFailsLate, h, Bool.or_true, Bool.true_or]
  refine x.meets_arenaStep (fun h => .late _ _ (hfile _ _) hearly ?_) fun hmap => ?_
  · simp only [arenaFailsLate, h, Bool.or_true, Bool.true_or]
  have hlate : x.arenaFailsLate = (decide (Arena.headerSize ≤ x.arenaConfig.capacity) &&
      x.arenaConfig.syncOnWrite && x.fails .flush) := by
    simp only [arenaFailsLate, hlock, hset, hmap, hlength, decide_false, Bool.or_false, Bool.false_or]
  unfold writeHeader Arena.ArenaInner.create
  by_cases hroom : Arena.headerSize ≤ x.arenaConfig.capacity
  · rw [if_pos ⟨hroom, Nat.not_le.mp hlength⟩]
    rw [decide_eq_true hroom, Bool.true_and] at hlate
    have hcreated (h : x.arenaFailsLate = false) (files : Directory Bytes) (hpath : x.path tid ∈ files) :
        x.ArenaCreated tid s { s with arenaFiles := files } := ⟨⟨files, hpath, rfl⟩, hearly, h, hroom⟩
    unfold syncHeader
    by_cases hsync : x.arenaConfig.syncOnWrite = true
    · rw [if_pos hsync]
      rw [hsync, Bool.true_and] at hlate
      exact x.meets_arenaStep (fun h => .late _ _ (hfile _ _) hearly (hlate.trans h)) fun hflush =>
        hcreated (hlate.trans hflush) _ (hfile _ _)
    · rw [if_neg hsync]
      rw [Bool.eq_false_iff.mpr hsync, Bool.false_and] at hlate
      exact hcreated hlate _ (hfile _ _)
  · rw [if_neg fun h => hroom h.1]
    rw [decide_eq_false hroom, Bool.false_and, Bool.false_and] at hlate
    exact .panicked _ hlate (Nat.not_le.mp hroom)

/-- The state when the trace is in the map and its record has been handed to the log. -/
def logged (event : TriggerEvent) (arena : Arena.ArenaInner) (s : TraceResources) : TraceResources :=
  x.takeRecord event.traceId
    (s.insertTrace event.traceId (.new event.traceId event.triggerId event.data, arena))

theorem startTrace_limit (event : TriggerEvent) (s : TraceResources) (h : x.maxConcurrentTraces ≤ s.traces.size) :
    x.startTrace event s = .error (.failed .concurrencyLimit) s := by
  show (if x.maxConcurrentTraces ≤ s.traces.size then throw _ else _ : Call TraceId) s = _
  rw [if_pos h]
  rfl

theorem startTrace_below (event : TriggerEvent) (s : TraceResources) (h : s.traces.size < x.maxConcurrentTraces) :
    x.startTrace event s =
      match x.createArena event.traceId s with
      | .error stop s' => .error stop s'
      | .ok arena s' =>
        if (x.walCall event.traceId s'.wal).ok then .ok event.traceId (x.logged event arena s')
        else .error (.failed .walWrite) (x.logged event arena s') := by
  have hrun : x.startTrace event s = (x.createArena event.traceId >>= fun arena => do
      modify (TraceResources.insertTrace event.traceId
        (.new event.traceId event.triggerId event.data, arena))
      x.logStart event.traceId
      return event.traceId) s := by
    show (if x.maxConcurrentTraces ≤ s.traces.size then throw _ else _ : Call TraceId) s = _
    rw [if_neg (Nat.not_le.mpr h)]
  rw [hrun, bind_run]
  cases x.createArena event.traceId s with
  | error stop s' => rfl
  | ok arena s' =>
    let entry := (TraceState.new event.traceId event.triggerId event.data, arena)
    have hlog : x.logStart event.traceId (s'.insertTrace event.traceId entry) =
        if (x.walCall event.traceId s'.wal).ok then .ok () (x.logged event arena s')
        else .error (.failed .walWrite) (x.logged event arena s') := rfl
    show (x.logStart event.traceId >>= fun _ => pure event.traceId) (s'.insertTrace event.traceId entry) = _
    rw [bind_run, hlog]
    dsimp only
    split_ifs
    · rfl
    · rfl

theorem startTrace_ends (event : TriggerEvent) (s : TraceResources) :
    (x.failsAfterOpen event s = true ∧ ∃ step s', x.startTrace event s = .error (.failed step) s' ∧
      x.path event.traceId ∈ s'.arenaFiles) ∨
      (x.failsAfterOpen event s = false ∧ ((∃ step, x.startTrace event s = .error (.failed step) s) ∨
        (∃ s', x.startTrace event s = .error .panic s') ∨ ∃ tid s', x.startTrace event s = .ok tid s')) := by
  unfold failsAfterOpen
  by_cases hlimit : x.maxConcurrentTraces ≤ s.traces.size
  · rw [decide_eq_false (Nat.not_lt.mpr hlimit)]
    exact .inr ⟨rfl, .inl ⟨_, x.startTrace_limit event s hlimit⟩⟩
  have hcreate := x.createArena_meets event.traceId s
  unfold Meets at hcreate
  rw [x.startTrace_below event s (Nat.not_le.mp hlimit), decide_eq_true (Nat.not_le.mp hlimit), Bool.true_and]
  cases hend : x.createArena event.traceId s with
  | error stop s' =>
    rw [hend] at hcreate
    dsimp only at hcreate ⊢
    cases hcreate with
    | early step h =>
      rw [h]
      exact .inr ⟨rfl, .inl ⟨step, rfl⟩⟩
    | late step files hfile hearly h =>
      rw [hearly, h]
      exact .inl ⟨rfl, step, _, rfl, hfile⟩
    | panicked files hlate h =>
      rw [hlate, decide_eq_false (Nat.not_le.mpr h)]
      refine .inr ⟨?_, .inr (.inl ⟨_, rfl⟩)⟩
      rw [Bool.false_and, Bool.or_false, Bool.and_false]
  | ok arena s' =>
    rw [hend] at hcreate
    obtain ⟨⟨files, hfile, rfl⟩, hearly, hlate, hroom⟩ := hcreate
    rw [hearly, hlate, decide_eq_true hroom]
    dsimp only
    cases hok : (x.walCall event.traceId s.wal).ok with
    | true => exact .inr ⟨rfl, .inr (.inr ⟨_, _, rfl⟩)⟩
    | false => exact .inl ⟨rfl, .walWrite, _, rfl, hfile⟩

theorem not_startsAtomically (event : TriggerEvent) (s : TraceResources)
    (h : x.failsAfterOpen event s = true) : ¬ x.StartsAtomically event s := by
  intro hatomic
  rcases x.startTrace_ends event s with ⟨-, step, s', hrun, hfile⟩ | ⟨hcalm, -⟩
  · unfold StartsAtomically Meets at hatomic
    rw [hrun] at hatomic
    exact (hatomic step rfl).2.file hfile
  · rw [hcalm] at h
    cases h

/-- For every executor, every event whose trace is new and every choice of the operations that fail: the start
is atomic if and only if no step fails after the arena file has been opened. -/
theorem start_atomic_iff (event : TriggerEvent) (s : TraceResources) (habsent : x.Absent event.traceId s) :
    x.StartsAtomically event s ↔ x.failsAfterOpen event s = false := by
  constructor
  · intro hatomic
    exact Bool.eq_false_iff.mpr fun hfails => x.not_startsAtomically event s hfails hatomic
  · intro hcalm
    unfold StartsAtomically Meets
    rcases x.startTrace_ends event s with ⟨hfails, -⟩ | ⟨-, ⟨step, hrun⟩ | ⟨s', hrun⟩ | ⟨tid, s', hrun⟩⟩
    · rw [hcalm] at hfails
      cases hfails
    · rw [hrun]
      exact fun _ _ => ⟨rfl, habsent⟩
    · rw [hrun]
      exact fun step hstep => by cases hstep
    · rw [hrun]
      trivial

def idle : TraceResources := ⟨∅, ∅, Wal.open .default ∅ 0, []⟩

def webhookEvent : TriggerEvent := ⟨"webhook", sampleTrace, RelPtr.null⟩

def oneTrace (arenaFault : Option (Fault StartStep)) (walFault : Option WriteFault) : StartArgs :=
  ⟨crc32, 1, ⟨"/tmp/xerv", 256, false⟩, 1700000000, 0, 0, arenaFault, walFault⟩

theorem idle_absent (arenaFault : Option (Fault StartStep)) (walFault : Option WriteFault) :
    (oneTrace arenaFault walFault).Absent sampleTrace idle :=
  ⟨rfl, fun _ hr => absurd hr List.not_mem_nil, AList.notMem_empty _⟩

theorem start_atomic_no_directory :
    (oneTrace (some ⟨.createDirAll, 0⟩) none).StartsAtomically webhookEvent idle :=
  ((oneTrace _ _).start_atomic_iff webhookEvent idle (idle_absent _ _)).mpr (by decide)

/-- The record is written and its `sync_data` fails: the trace stays behind. -/
theorem failed_start_left_behind :
    (oneTrace none (some (.sync .syncData))).Absent sampleTrace idle ∧
      ¬ (oneTrace none (some (.sync .syncData))).StartsAtomically webhookEvent idle := by
  refine ⟨idle_absent _ _, not_startsAtomically _ webhookEvent idle ?_⟩
  decide

end StartArgs

end Xerv
