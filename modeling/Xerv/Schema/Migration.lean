import Xerv.Lib.BreadthFirst
import Xerv.Lib.FiniteMap
import Xerv.Lib.Machine
import Xerv.Lib.Table
import Xerv.Schema.Version

/-!
# Migrations between schemas (`xerv-core/src/schema/migration.rs`)

The registry keeps all migrations ever registered in a vector, and a map and a graph of
their indices, from which unregistering removes them. The graph is searched
breadth-first. What a migration does to data is a parameter.
-/

namespace Xerv.Schema
open Xerv.Lib

structure Migration (Transform : Type) where
  fromSchema : String
  fromHash : UInt64
  toSchema : String
  toHash : UInt64
  fromVersion : SchemaVersion
  toVersion : SchemaVersion
  transform : Transform
  description : String

/-- What stands behind the last `@`. -/
def extractVersion (schemaName : String) : Option SchemaVersion :=
  SchemaVersion.parse (String.ofList (schemaName.toList.rtakeWhile (· ≠ '@')))

def Migration.new {Transform : Type} (fromSchema : String) (fromHash : UInt64) (toSchema : String) (toHash : UInt64)
    (transform : Transform) : Migration Transform where
  fromSchema := fromSchema
  fromHash := fromHash
  toSchema := toSchema
  toHash := toHash
  fromVersion := (extractVersion fromSchema).getD .default
  toVersion := (extractVersion toSchema).getD .default
  transform := transform
  description := ""

def Migration.key {Transform : Type} (m : Migration Transform) : UInt64 × UInt64 := (m.fromHash, m.toHash)

/-- `usize::MAX` and `isize::MAX`. -/
def usizeMax : ℕ := 2 ^ 64 - 1

def isizeMax : ℕ := 2 ^ 63 - 1

/-! ### The graph -/

/-- From a hash to the hashes that a migration leads to, each with the migration's index. -/
structure MigrationGraph where
  edges : FiniteMap UInt64 (List (UInt64 × ℕ))

namespace MigrationGraph

def new : MigrationGraph := ⟨∅⟩

def neighbors (g : MigrationGraph) (hash : UInt64) : List (UInt64 × ℕ) := (g.edges.get hash).getD []

def addEdge (g : MigrationGraph) (fromHash toHash : UInt64) (index : ℕ) : MigrationGraph :=
  ⟨g.edges.insert fromHash (g.neighbors fromHash ++ [(toHash, index)])⟩

def removeEdgesFor (g : MigrationGraph) (fromHash toHash : UInt64) : MigrationGraph :=
  match g.edges.get fromHash with
  | some edges => ⟨g.edges.insert fromHash (edges.filter fun e => e.1 ≠ toHash)⟩
  | none => g

/-- Parent and index of the edge from it, `usize::MAX` for the start. -/
abbrev Visited := Table UInt64 (UInt64 × ℕ)

/-- The `while` loop that goes back from a node. -/
def walkBack (visited : Visited) : ℕ → UInt64 → List ℕ → List ℕ
  | 0, _, path => path
  | fuel + 1, node, path =>
    match visited node with
    | none => path
    | some (parent, index) =>
      if index = usizeMax then path else walkBack visited fuel parent (path ++ [index])

/-- The `for` loop over the neighbours of `current`: the path where the target is one of them. -/
def scan (rounds : ℕ) (toHash current : UInt64) :
    List (UInt64 × ℕ) → List UInt64 → Visited → List ℕ ⊕ (List UInt64 × Visited)
  | [], queue, visited => .inr (queue, visited)
  | (nextHash, index) :: rest, queue, visited =>
    if nextHash = toHash then .inl (walkBack visited rounds current [index]).reverse
    else
      match visited nextHash with
      | none => scan rounds toHash current rest (queue ++ [nextHash]) (visited.insert nextHash (current, index))
      | some _ => scan rounds toHash current rest queue visited

def targets (g : MigrationGraph) : Finset UInt64 :=
  g.edges.keys.biUnion fun hash => ((g.neighbors hash).map Prod.fst).toFinset

/-- Each target is queued once, so the loops end within this many rounds. -/
def rounds (g : MigrationGraph) : ℕ := g.targets.card + 1

/-- The `while` loop over the queue. -/
def search (g : MigrationGraph) (toHash : UInt64) : ℕ → List UInt64 → Visited → Option (List ℕ)
  | _, [], _ => none
  | 0, _ :: _, _ => none
  | fuel + 1, current :: queue, visited =>
    match scan g.rounds toHash current (g.neighbors current) queue visited with
    | .inl path => some path
    | .inr (queue, visited) => g.search toHash fuel queue visited

def shortestPath (g : MigrationGraph) (fromHash toHash : UInt64) : Option (List ℕ) :=
  if fromHash = toHash then some []
  else g.search toHash g.rounds [fromHash] (Table.empty.insert fromHash (0, usizeMax))

end MigrationGraph

/-! ### The registry -/

structure MigrationRegistry (Transform : Type) where
  migrations : List (Migration Transform)
  direct : FiniteMap (UInt64 × UInt64) ℕ
  graph : MigrationGraph

namespace MigrationRegistry
variable {Transform : Type}

def new : MigrationRegistry Transform := ⟨[], ∅, .new⟩

/-- `none` where the vector cannot grow any more and `push` panics. -/
def register (r : MigrationRegistry Transform) (m : Migration Transform) : Option (MigrationRegistry Transform) :=
  match r.direct.get m.key with
  | some existing => some { r with migrations := r.migrations.set existing m }
  | none =>
    if isizeMax ≤ r.migrations.length then none
    else
      some
        { migrations := r.migrations ++ [m]
          direct := r.direct.insert m.key r.migrations.length
          graph := r.graph.addEdge m.fromHash m.toHash r.migrations.length }

def unregister (r : MigrationRegistry Transform) (fromHash toHash : UInt64) :
    MigrationRegistry Transform × Option (Migration Transform) :=
  match r.direct.get (fromHash, toHash) with
  | some index =>
    ({ r with direct := r.direct.remove (fromHash, toHash), graph := r.graph.removeEdgesFor fromHash toHash },
      r.migrations[index]?)
  | none => (r, none)

def findDirect (r : MigrationRegistry Transform) (fromHash toHash : UInt64) : Option (Migration Transform) :=
  (r.direct.get (fromHash, toHash)).bind fun index => r.migrations[index]?

def findPath (r : MigrationRegistry Transform) (fromHash toHash : UInt64) : Option (List (Migration Transform)) :=
  if fromHash = toHash then some []
  else (r.graph.shortestPath fromHash toHash).bind fun indices => indices.mapM fun index => r.migrations[index]?

def hasPath (r : MigrationRegistry Transform) (fromHash toHash : UInt64) : Bool :=
  if fromHash = toHash then true else (r.graph.shortestPath fromHash toHash).isSome

def list (r : MigrationRegistry Transform) : List (Migration Transform) := r.migrations

def len (r : MigrationRegistry Transform) : ℕ := r.migrations.length

def isEmpty (r : MigrationRegistry Transform) : Bool := r.migrations.isEmpty

def migrationsFrom (r : MigrationRegistry Transform) (fromHash : UInt64) : List (Migration Transform) :=
  (r.graph.neighbors fromHash).filterMap fun e => r.migrations[e.2]?

/-- `order` are the entries of `direct` in the order of their iteration. -/
def migrationsTo (r : MigrationRegistry Transform) (order : List ((UInt64 × UInt64) × ℕ)) (toHash : UInt64) :
    List (Migration Transform) :=
  (order.filter fun e => e.1.2 = toHash).filterMap fun e => r.migrations[e.2]?

end MigrationRegistry

end Xerv.Schema
