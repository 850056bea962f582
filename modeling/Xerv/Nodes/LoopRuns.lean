import Xerv.Lib.RunLimit
import Xerv.Nodes.Loop

/-!
# Executions of a loop node in one context (`xerv-nodes/src/flow/loop_node.rs`)

The iteration counters of a `Context` persist from one execution to the next, and the executions of other
loop nodes may stand between those of one node. Each execution has an arena and inputs of its own.
-/

namespace Xerv
open Xerv.Lib

structure LoopExecution where
  node : NodeId
  arena : Table RelPtr Bytes
  inputs : Table String RelPtr

namespace LoopNode
variable {F : Type} (ops : ValueOps F) (nodes : NodeId → LoopNode)

def executeIn (iterations : Table NodeId ℕ) (e : LoopExecution) : NodeOutput × Table NodeId ℕ :=
  (nodes e.node).execute ops e.node e.arena iterations e.inputs

def iterationsAfter (iterations : Table NodeId ℕ) (run : List LoopExecution) : Table NodeId ℕ :=
  run.foldl (fun iterations e => (executeIn ops nodes iterations e).2) iterations

/-- The ports on which the executions of node `n` emit, in their order. -/
def emissions (n : NodeId) : Table NodeId ℕ → List LoopExecution → List (Option String)
  | _, [] => []
  | iterations, e :: run =>
    let result := executeIn ops nodes iterations e
    if e.node = n then result.1.port :: emissions n result.2 run else emissions n result.2 run

/-- What holds of the emissions of node `n` in a run from the counters `start`. -/
structure Terminates (n : NodeId) (start : Table NodeId ℕ) (run : List LoopExecution) : Prop where
  each : (emissions ops nodes n start run).length = (run.filter fun e => e.node = n).length
  ports : ∀ port ∈ emissions ops nodes n start run, port = some "exit" ∨ port = some "continue"
  exits : ∀ window, window <:+: emissions ops nodes n start run →
    window.length = (nodes n).maxIterations + 1 → some "exit" ∈ window
  continues : ∀ gap, some "exit" :: (gap ++ [some "exit"]) <:+: emissions ops nodes n start run →
    some "exit" ∉ gap → gap.count (some "continue") ≤ (nodes n).maxIterations
  restarts : ∀ before, before <+: run → ∀ earlier gap,
    emissions ops nodes n start before = earlier ++ some "exit" :: gap → some "exit" ∉ gap →
      getLoopIteration (iterationsAfter ops nodes start before) n = gap.length

section Runs
variable {ops : ValueOps F} {nodes : NodeId → LoopNode} {n : NodeId}

def isExit (port : Option String) : Bool := port == some "exit"

@[simp] theorem getLoopIteration_remove_self (iterations : Table NodeId ℕ) (n : NodeId) :
    getLoopIteration (iterations.remove n) n = 0 := by
  simp [getLoopIteration]

@[simp] theorem getLoopIteration_insert_self (iterations : Table NodeId ℕ) (n : NodeId) (count : ℕ) :
    getLoopIteration (iterations.insert n count) n = count := by
  simp [getLoopIteration]

theorem getLoopIteration_remove_ne {iterations : Table NodeId ℕ} {m n : NodeId} (h : n ≠ m) :
    getLoopIteration (iterations.remove m) n = getLoopIteration iterations n := by
  simp [getLoopIteration, h]

theorem getLoopIteration_insert_ne {iterations : Table NodeId ℕ} {m n : NodeId} {count : ℕ} (h : n ≠ m) :
    getLoopIteration (iterations.insert m count) n = getLoopIteration iterations n := by
  simp [getLoopIteration, h]

/-- The two ways an execution goes: to exit and start the counter again, or to go on and count. -/
theorem execute_cases (ops : ValueOps F) (node : LoopNode) (n : NodeId) (arena : Table RelPtr Bytes)
    (iterations : Table NodeId ℕ) (inputs : Table String RelPtr) :
    (∃ input, node.execute ops n arena iterations inputs =
      (.complete "exit" input 0, iterations.remove n)) ∨
    (getLoopIteration iterations n < node.maxIterations ∧
      ∃ input, node.execute ops n arena iterations inputs =
        (.complete "continue" input 0, iterations.insert n (getLoopIteration iterations n + 1))) := by
  by_cases hexit : node.shouldExit ops (readInput ops arena (inputPtr inputs))
      (getLoopIteration iterations n) = true
  · left
    refine ⟨inputPtr inputs, ?_⟩
    simp only [execute, hexit, if_true]
  · right
    refine ⟨?_, inputPtr inputs, ?_⟩
    · by_contra hlimit
      exact hexit (by rw [shouldExit, if_pos (not_lt.mp hlimit)])
    · simp only [execute, hexit, Bool.false_eq_true, if_false]

theorem executeIn_port (iterations : Table NodeId ℕ) (e : LoopExecution) :
    (executeIn ops nodes iterations e).1.port = some "exit" ∨
      (executeIn ops nodes iterations e).1.port = some "continue" := by
  rcases execute_cases ops (nodes e.node) e.node e.arena iterations e.inputs with
    ⟨input, h⟩ | ⟨-, input, h⟩
  · left
    rw [executeIn, h]
    rfl
  · right
    rw [executeIn, h]
    rfl

/-- At the limit of its node an execution exits. -/
theorem executeIn_limit {iterations : Table NodeId ℕ} {e : LoopExecution}
    (hlimit : (nodes e.node).maxIterations ≤ getLoopIteration iterations e.node) :
    isExit (executeIn ops nodes iterations e).1.port = true := by
  rcases execute_cases ops (nodes e.node) e.node e.arena iterations e.inputs with
    ⟨input, h⟩ | ⟨hbelow, -⟩
  · rw [executeIn, h]
    rfl
  · exact absurd hlimit (not_le.mpr hbelow)

theorem executeIn_own (iterations : Table NodeId ℕ) (e : LoopExecution) :
    getLoopIteration (executeIn ops nodes iterations e).2 e.node =
      afterDecision (getLoopIteration iterations e.node)
        (isExit (executeIn ops nodes iterations e).1.port) := by
  rcases execute_cases ops (nodes e.node) e.node e.arena iterations e.inputs with
    ⟨input, h⟩ | ⟨-, input, h⟩
  · rw [executeIn, h, getLoopIteration_remove_self]
    rfl
  · rw [executeIn, h, getLoopIteration_insert_self]
    rfl

/-- The counter of another node is left alone. -/
theorem executeIn_other (iterations : Table NodeId ℕ) {e : LoopExecution} (hne : e.node ≠ n) :
    getLoopIteration (executeIn ops nodes iterations e).2 n = getLoopIteration iterations n := by
  rcases execute_cases ops (nodes e.node) e.node e.arena iterations e.inputs with
    ⟨input, h⟩ | ⟨-, input, h⟩
  · rw [executeIn, h, getLoopIteration_remove_ne (Ne.symm hne)]
  · rw [executeIn, h, getLoopIteration_insert_ne (Ne.symm hne)]

/-! ### Whole runs -/

@[simp] theorem iterationsAfter_cons (iterations : Table NodeId ℕ) (e : LoopExecution)
    (run : List LoopExecution) :
    iterationsAfter ops nodes iterations (e :: run) =
      iterationsAfter ops nodes (executeIn ops nodes iterations e).2 run := rfl

theorem emissions_cons_own (iterations : Table NodeId ℕ) {e : LoopExecution} (run : List LoopExecution)
    (hn : e.node = n) :
    emissions ops nodes n iterations (e :: run) =
      (executeIn ops nodes iterations e).1.port ::
        emissions ops nodes n (executeIn ops nodes iterations e).2 run :=
  if_pos hn

theorem emissions_cons_other (iterations : Table NodeId ℕ) {e : LoopExecution}
    (run : List LoopExecution) (hne : e.node ≠ n) :
    emissions ops nodes n iterations (e :: run) =
      emissions ops nodes n (executeIn ops nodes iterations e).2 run :=
  if_neg hne

theorem emissions_length (n : NodeId) (iterations : Table NodeId ℕ) (run : List LoopExecution) :
    (emissions ops nodes n iterations run).length = (run.filter fun e => e.node = n).length := by
  induction run generalizing iterations with
  | nil => rfl
  | cons e run ih =>
    by_cases hn : e.node = n
    · rw [emissions_cons_own iterations run hn, List.filter_cons_of_pos (by simpa using hn),
        List.length_cons, List.length_cons, ih]
    · rw [emissions_cons_other iterations run hn, List.filter_cons_of_neg (by simpa using hn), ih]

theorem emissions_ports (n : NodeId) (iterations : Table NodeId ℕ) (run : List LoopExecution) :
    ∀ port ∈ emissions ops nodes n iterations run, port = some "exit" ∨ port = some "continue" := by
  induction run generalizing iterations with
  | nil => exact nofun
  | cons e run ih =>
    by_cases hn : e.node = n
    · rw [emissions_cons_own iterations run hn, List.forall_mem_cons]
      exact ⟨executeIn_port iterations e, ih _⟩
    · rw [emissions_cons_other iterations run hn]
      exact ih _

/-- What the limit of node `n` does to its emissions, from any counters. -/
theorem emissions_limited (n : NodeId) (iterations : Table NodeId ℕ) (run : List LoopExecution) :
    Limited (nodes n).maxIterations (getLoopIteration iterations n)
      ((emissions ops nodes n iterations run).map isExit) := by
  induction run generalizing iterations with
  | nil => trivial
  | cons e run ih =>
    by_cases hn : e.node = n
    · subst hn
      rw [emissions_cons_own iterations run rfl, List.map_cons, Limited, ← executeIn_own]
      exact ⟨executeIn_limit, ih _⟩
    · rw [emissions_cons_other iterations run hn, ← executeIn_other iterations hn]
      exact ih _

/-- The counter of node `n` after a run is that of its emissions. -/
theorem iterationsAfter_counted (n : NodeId) (iterations : Table NodeId ℕ) (run : List LoopExecution) :
    getLoopIteration (iterationsAfter ops nodes iterations run) n =
      counted (getLoopIteration iterations n) ((emissions ops nodes n iterations run).map isExit) := by
  induction run generalizing iterations with
  | nil => rfl
  | cons e run ih =>
    rw [iterationsAfter_cons, ih]
    by_cases hn : e.node = n
    · subst hn
      rw [emissions_cons_own iterations run rfl, executeIn_own]
      rfl
    · rw [emissions_cons_other iterations run hn, executeIn_other iterations hn]

theorem not_mem_isExit {ports : List (Option String)} (h : some "exit" ∉ ports) :
    true ∉ ports.map isExit := by
  intro hmem
  obtain ⟨port, hport, hexit⟩ := List.mem_map.mp hmem
  exact h (beq_iff_eq.mp hexit ▸ hport)

theorem length_le_of_no_exit {iterations : Table NodeId ℕ} {run : List LoopExecution}
    {part : List (Option String)} (hpart : part <:+: emissions ops nodes n iterations run)
    (hgoes : some "exit" ∉ part) : part.length ≤ (nodes n).maxIterations := by
  have h := (emissions_limited n iterations run).part_length_le (hpart.map isExit) (not_mem_isExit hgoes)
  rwa [List.length_map] at h

end Runs

/-- Every loop ends: whatever the nodes, their inputs and the counters of the context at the start. -/
theorem loops_terminate (n : NodeId) (start : Table NodeId ℕ) (run : List LoopExecution) :
    Terminates ops nodes n start run where
  each := emissions_length n start run
  ports := emissions_ports n start run
  exits := by
    intro window hwindow hlength
    by_contra hgoes
    have hshort : window.length ≤ (nodes n).maxIterations := length_le_of_no_exit hwindow hgoes
    omega
  continues := by
    intro gap hgap hgoes
    have hpart : gap <:+: emissions ops nodes n start run :=
      List.IsInfix.trans ⟨[some "exit"], [some "exit"], rfl⟩ hgap
    calc gap.count (some "continue") ≤ gap.length := List.count_le_length
      _ ≤ (nodes n).maxIterations := length_le_of_no_exit hpart hgoes
  restarts := by
    intro before _ earlier gap hports hgoes
    rw [iterationsAfter_counted, hports, List.map_append, List.map_cons]
    calc counted (getLoopIteration start n) (earlier.map isExit ++ true :: gap.map isExit)
        = (gap.map isExit).length := counted_since_stop _ _ (not_mem_isExit hgoes)
      _ = gap.length := List.length_map ..

end LoopNode

end Xerv
