import Xerv.Core.Types
import Xerv.Lib.RwLocks

/-!
# Locks of the schema registries

`MigrationRegistry` (`xerv-core/src/schema/migration.rs`) and `VersionedSchemaRegistry`
(`schema/registry/versioned.rs`) keep three `RwLock`s each. Every method takes its locks at its
start, in the order of its `let` lines, and drops the guards in reverse at its end. The writers
and most readers take them in one order; `find_direct`, `find_path`, `get_by_hash` and
`get_latest` take the last one first.
-/

namespace Xerv
open Xerv.Lib

inductive RegistryLock where
  | migrations | direct | graph
  | schemas | byHash | versions
  deriving DecidableEq, Repr

abbrev LockAccess := RwLocks.Access RegistryLock

def RegistryLock.readLock (l : RegistryLock) : LockAccess := ⟨l, .read⟩

def RegistryLock.writeLock (l : RegistryLock) : LockAccess := ⟨l, .write⟩

open RegistryLock

namespace MigrationRegistry

def register : List LockAccess := [migrations.writeLock, direct.writeLock, graph.writeLock]

def unregister : List LockAccess := [migrations.readLock, direct.writeLock, graph.writeLock]

def findDirect : List LockAccess := [direct.readLock, migrations.readLock]

/-- The empty path from a schema to itself needs no lock. -/
def findPath (fromHash toHash : UInt64) : List LockAccess :=
  if fromHash = toHash then [] else [graph.readLock, migrations.readLock]

def migrationsFrom : List LockAccess := [migrations.readLock, graph.readLock]

def migrationsTo : List LockAccess := [migrations.readLock, direct.readLock]

end MigrationRegistry

namespace VersionedSchemaRegistry

def register : List LockAccess := [schemas.writeLock, byHash.writeLock, versions.writeLock]

/-- Sets name and version of the schema, then registers it. -/
def registerVersioned : List LockAccess := register

def get : List LockAccess := [schemas.readLock]

def getByHash : List LockAccess := [byHash.readLock, schemas.readLock]

def getLatest : List LockAccess := [versions.readLock, schemas.readLock]

def getVersions : List LockAccess := [versions.readLock]

end VersionedSchemaRegistry

/-- A call of one of the two registries. -/
inductive RegistryCall where
  | register | unregister | findDirect
  | findPath (fromHash toHash : UInt64)
  | migrationsFrom | migrationsTo
  | registerSchema | registerVersioned
  | get | getByHash | getLatest | getVersions
  deriving DecidableEq, Repr

namespace RegistryCall

def locks : RegistryCall → List LockAccess
  | register => MigrationRegistry.register
  | unregister => MigrationRegistry.unregister
  | findDirect => MigrationRegistry.findDirect
  | findPath fromHash toHash => MigrationRegistry.findPath fromHash toHash
  | migrationsFrom => MigrationRegistry.migrationsFrom
  | migrationsTo => MigrationRegistry.migrationsTo
  | registerSchema => VersionedSchemaRegistry.register
  | registerVersioned => VersionedSchemaRegistry.registerVersioned
  | get => VersionedSchemaRegistry.get
  | getByHash => VersionedSchemaRegistry.getByHash
  | getLatest => VersionedSchemaRegistry.getLatest
  | getVersions => VersionedSchemaRegistry.getVersions

/-- The first call registers a migration or a schema, and the second reads the same registry with the
locks in the other order. -/
inductive Crosses : RegistryCall → RegistryCall → Prop where
  | findDirect : Crosses register findDirect
  | findPath {fromHash toHash : UInt64} (h : fromHash ≠ toHash) :
    Crosses register (findPath fromHash toHash)
  | getByHash : Crosses registerSchema getByHash
  | getByHash' : Crosses registerVersioned getByHash
  | getLatest : Crosses registerSchema getLatest
  | getLatest' : Crosses registerVersioned getLatest

theorem Crosses.ne {c d : RegistryCall} (h : Crosses c d) : c ≠ d := by
  rintro rfl
  cases h

theorem locks_nodup (c : RegistryCall) : (c.locks.map RwLocks.Access.lock).Nodup := by
  cases c with
  | findPath fromHash toHash =>
    change ((MigrationRegistry.findPath fromHash toHash).map RwLocks.Access.lock).Nodup
    unfold MigrationRegistry.findPath
    by_cases heq : fromHash = toHash
    · rw [if_pos heq]
      exact List.nodup_nil
    · rw [if_neg heq]
      decide
  | _ => decide

theorem findPath_reads (fromHash toHash : UInt64) (a : LockAccess)
    (ha : a ∈ MigrationRegistry.findPath fromHash toHash) : a.mode = .read := by
  unfold MigrationRegistry.findPath at ha
  split at ha
  · cases ha
  · rcases List.mem_pair.mp ha with rfl | rfl
    · rfl
    · rfl

theorem register_of_write_migrations (c : RegistryCall) (h : migrations.writeLock ∈ c.locks) :
    c = .register := by
  cases c with
  | register => rfl
  | findPath fromHash toHash => cases findPath_reads _ _ _ h
  | _ => exact absurd h (by decide)

theorem register_of_write_schemas (c : RegistryCall) (h : schemas.writeLock ∈ c.locks) :
    c = .registerSchema ∨ c = .registerVersioned := by
  cases c with
  | registerSchema => exact Or.inl rfl
  | registerVersioned => exact Or.inr rfl
  | findPath fromHash toHash => cases findPath_reads _ _ _ h
  | _ => exact absurd h (by decide)

end RegistryCall

/-- The order of the locks in the writers. -/
def lockRank : RegistryLock → ℕ
  | migrations => 0
  | direct => 1
  | graph => 2
  | schemas => 0
  | byHash => 1
  | versions => 2

abbrev RanksBelow (a b : LockAccess) : Prop := lockRank a.lock < lockRank b.lock

section Calls
variable {n : ℕ} (calls : Fin n → RegistryCall)

abbrev lockProgram : Fin n → List LockAccess := fun i => (calls i).locks

theorem write_of_contended {l : RegistryLock} (h : RwLocks.Contended (lockProgram calls) l) :
    ∃ i, l.writeLock ∈ (calls i).locks := by
  obtain ⟨i, a, ha, hlock, hmode⟩ := h
  refine ⟨i, ?_⟩
  rw [writeLock, ← hlock, ← hmode]
  exact ha

theorem ranked_of_uncrossed (h : ∀ i j, ¬ (calls i).Crosses (calls j)) :
    RwLocks.Ranked lockRank (lockProgram calls) := by
  have hmigrations (c : RegistryCall) (hc : ∃ j, calls j = c) (hcross : RegistryCall.Crosses .register c)
      (hcontended : RwLocks.Contended (lockProgram calls) migrations) : False := by
    obtain ⟨j, hj⟩ := hc
    obtain ⟨i, hi⟩ := write_of_contended calls hcontended
    apply h i j
    rw [hj, RegistryCall.register_of_write_migrations _ hi]
    exact hcross
  have hschemas (c : RegistryCall) (hc : ∃ j, calls j = c)
      (hcross : RegistryCall.Crosses .registerSchema c ∧ RegistryCall.Crosses .registerVersioned c)
      (hcontended : RwLocks.Contended (lockProgram calls) schemas) : False := by
    obtain ⟨j, hj⟩ := hc
    obtain ⟨i, hi⟩ := write_of_contended calls hcontended
    apply h i j
    rw [hj]
    rcases RegistryCall.register_of_write_schemas _ hi with heq | heq
    · rw [heq]
      exact hcross.1
    · rw [heq]
      exact hcross.2
  intro j
  change (calls j).locks.Pairwise _
  cases hc : calls j with
  | findDirect =>
    refine List.pairwise_pair.mpr fun _ hcontended => ?_
    exact absurd hcontended (hmigrations _ ⟨j, hc⟩ .findDirect)
  | findPath fromHash toHash =>
    change (MigrationRegistry.findPath fromHash toHash).Pairwise _
    unfold MigrationRegistry.findPath
    by_cases heq : fromHash = toHash
    · rw [if_pos heq]
      exact List.Pairwise.nil
    · rw [if_neg heq]
      refine List.pairwise_pair.mpr fun _ hcontended => ?_
      exact absurd hcontended (hmigrations _ ⟨j, hc⟩ (.findPath heq))
  | getByHash =>
    refine List.pairwise_pair.mpr fun _ hcontended => ?_
    exact absurd hcontended (hschemas _ ⟨j, hc⟩ ⟨.getByHash, .getByHash'⟩)
  | getLatest =>
    refine List.pairwise_pair.mpr fun _ hcontended => ?_
    exact absurd hcontended (hschemas _ ⟨j, hc⟩ ⟨.getLatest, .getLatest'⟩)
  | _ => exact List.Pairwise.imp (fun {a b} (hlt : RanksBelow a b) _ _ => hlt) (by decide)

end Calls

/-- A writer that has its first lock and needs `l`, a reader that has `l` and needs the first lock. -/
theorem crossed_pair (first l : RegistryLock) (p : List LockAccess) (hp : first.writeLock ∈ p)
    (hapart : ∀ x ∈ p, x.lock ≠ l) :
    RwLocks.Crossed p l.writeLock [l.readLock] first.readLock := by
  refine ⟨⟨_, hp, rfl, Or.inl rfl⟩, ⟨_, List.mem_singleton_self _, rfl, Or.inr rfl⟩, ?_⟩
  intro x hx y hy
  rw [List.mem_singleton.mp hy]
  exact hapart x hx

theorem crossed_of_crosses {c d : RegistryCall} (h : c.Crosses d) :
    ∃ p a after q b after', c.locks = p ++ a :: after ∧ d.locks = q ++ b :: after' ∧
      RwLocks.Crossed p a q b := by
  have hbyHash : RwLocks.Crossed [schemas.writeLock] byHash.writeLock [byHash.readLock]
      schemas.readLock := crossed_pair _ _ _ (by decide) (by decide)
  have hversions : RwLocks.Crossed [schemas.writeLock, byHash.writeLock] versions.writeLock
      [versions.readLock] schemas.readLock := crossed_pair _ _ _ (by decide) (by decide)
  cases h with
  | findDirect =>
    exact ⟨[migrations.writeLock], direct.writeLock, [graph.writeLock], [direct.readLock],
      migrations.readLock, [], rfl, rfl, crossed_pair _ _ _ (by decide) (by decide)⟩
  | findPath hne =>
    exact ⟨[migrations.writeLock, direct.writeLock], graph.writeLock, [], [graph.readLock],
      migrations.readLock, [], rfl, if_neg hne, crossed_pair _ _ _ (by decide) (by decide)⟩
  | getByHash => exact ⟨_, _, [versions.writeLock], _, _, [], rfl, rfl, hbyHash⟩
  | getByHash' => exact ⟨_, _, [versions.writeLock], _, _, [], rfl, rfl, hbyHash⟩
  | getLatest => exact ⟨_, _, [], _, _, [], rfl, rfl, hversions⟩
  | getLatest' => exact ⟨_, _, [], _, _, [], rfl, rfl, hversions⟩

/-- Under either policy towards waiting writers, calls of the two registries never deadlock if and only
if none of them registers while another reads the same registry against the order of the writers. -/
theorem registries_noDeadlock_iff (fair : Bool) {n : ℕ} (calls : Fin n → RegistryCall) :
    RwLocks.NoDeadlock fair (lockProgram calls) ↔ ∀ i j, ¬ (calls i).Crosses (calls j) := by
  constructor
  · intro hno i j hcross
    obtain ⟨p, a, after, q, b, after', hi, hj, hcrossed⟩ := crossed_of_crosses hcross
    have hij : i ≠ j := fun heq => hcross.ne (by rw [heq])
    exact RwLocks.deadlock_of_crossed fair (lockProgram calls) (fun i => (calls i).locks_nodup) hij
      hi hj hcrossed hno
  · exact fun h => RwLocks.noDeadlock_of_ranked fair lockRank _ (ranked_of_uncrossed calls h)

def registerAndFind : Fin 2 → RegistryCall
  | 0 => .register
  | 1 => .findDirect

theorem register_find_direct_deadlock :
    ∃ s, RwLocks.Reachable false (lockProgram registerAndFind) s ∧ RwLocks.Deadlocked false s := by
  have hcrossed : RwLocks.Crossed [migrations.writeLock] direct.writeLock [direct.readLock]
      migrations.readLock := crossed_pair _ _ _ (by decide) (by decide)
  have hdeadlock := RwLocks.deadlock_of_crossed false (lockProgram registerAndFind)
    (fun i => (registerAndFind i).locks_nodup) (by decide : (0 : Fin 2) ≠ 1)
    (rfl : _ = [migrations.writeLock] ++ direct.writeLock :: [graph.writeLock])
    (rfl : _ = [direct.readLock] ++ migrations.readLock :: []) hcrossed
  unfold RwLocks.NoDeadlock at hdeadlock
  push Not at hdeadlock
  exact hdeadlock

end Xerv
