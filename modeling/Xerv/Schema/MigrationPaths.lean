import Mathlib.Logic.Relation
import Xerv.Schema.MigrationSearch

/-!
# Paths of migrations

What is registered after a sequence of calls is a table, the last migration for each pair
of hashes. The registry describes that table, and its search finds the shortest chains of
registered migrations.
-/

namespace Xerv.Schema
open Xerv.Lib

/-- A call that changes the registry. -/
inductive MigrationCall (Transform : Type) where
  | register (m : Migration Transform)
  | unregister (fromHash toHash : UInt64)

variable {Transform : Type}

namespace MigrationRegistry

def step (r : MigrationRegistry Transform) : MigrationCall Transform → Option (MigrationRegistry Transform)
  | .register m => r.register m
  | .unregister fromHash toHash => some (r.unregister fromHash toHash).1

end MigrationRegistry

/-- The migrations that are registered, by their hashes. -/
abbrev Registered (Transform : Type) := Table (UInt64 × UInt64) (Migration Transform)

def Registered.after (live : Registered Transform) : MigrationCall Transform → Registered Transform
  | .register m => live.insert m.key m
  | .unregister fromHash toHash => live.remove (fromHash, toHash)

def registered (calls : List (MigrationCall Transform)) : Registered Transform :=
  calls.foldl Registered.after Table.empty

/-- Registered migrations that lead from one hash to the other. -/
def IsChain (live : Registered Transform) : UInt64 → List (Migration Transform) → UInt64 → Prop
  | fromHash, [], toHash => fromHash = toHash
  | fromHash, m :: ms, toHash => m.fromHash = fromHash ∧ live m.key = some m ∧ IsChain live m.toHash ms toHash

def Reachable (live : Registered Transform) : UInt64 → UInt64 → Prop :=
  Relation.ReflTransGen fun fromHash toHash => ∃ m, live (fromHash, toHash) = some m

/-! ### What the registry describes -/

structure Describes (r : MigrationRegistry Transform) (live : Registered Transform) : Prop where
  entry : ∀ k index, r.direct.get k = some index → ∃ m, r.migrations[index]? = some m ∧ m.key = k ∧ live k = some m
  absent : ∀ k, r.direct.get k = none → live k = none
  edges : ∀ fromHash toHash index,
    (toHash, index) ∈ r.graph.neighbors fromHash ↔ r.direct.get (fromHash, toHash) = some index
  bounded : r.migrations.length ≤ isizeMax

namespace MigrationGraph

theorem neighbors_addEdge (g : MigrationGraph) (fromHash toHash hash : UInt64) (index : ℕ) :
    (g.addEdge fromHash toHash index).neighbors hash =
      if hash = fromHash then g.neighbors fromHash ++ [(toHash, index)] else g.neighbors hash := by
  unfold neighbors addEdge
  rw [FiniteMap.get_insert]
  split
  · rfl
  · rfl

theorem neighbors_removeEdgesFor (g : MigrationGraph) (fromHash toHash hash : UInt64) :
    (g.removeEdgesFor fromHash toHash).neighbors hash =
      if hash = fromHash then (g.neighbors fromHash).filter fun e => e.1 ≠ toHash else g.neighbors hash := by
  unfold removeEdgesFor
  split
  · rename_i edges hedges
    unfold neighbors
    rw [FiniteMap.get_insert, hedges]
    split
    · rfl
    · rfl
  · rename_i hnone
    unfold neighbors
    split
    · rename_i heq
      rw [heq, hnone]
      rfl
    · rfl

end MigrationGraph

namespace Describes
variable {r : MigrationRegistry Transform} {live : Registered Transform}

theorem new : Describes (MigrationRegistry.new : MigrationRegistry Transform) Table.empty where
  entry _ _ h := nomatch h
  absent _ _ := rfl
  edges _ _ _ := iff_of_false List.not_mem_nil nofun
  bounded := Nat.zero_le _

theorem index_lt (h : Describes r live) {k : UInt64 × UInt64} {index : ℕ} (hget : r.direct.get k = some index) :
    index < r.migrations.length := by
  obtain ⟨m, hm, -⟩ := h.entry k index hget
  exact (List.getElem?_eq_some_iff.mp hm).1

theorem index_inj (h : Describes r live) {j k : UInt64 × UInt64} {index : ℕ} (hj : r.direct.get j = some index)
    (hk : r.direct.get k = some index) : j = k := by
  obtain ⟨m, hm, hmj, -⟩ := h.entry j index hj
  obtain ⟨m', hm', hmk, -⟩ := h.entry k index hk
  cases hm.symm.trans hm'
  exact hmj.symm.trans hmk

theorem register_existing (h : Describes r live) (m : Migration Transform) {existing : ℕ}
    (hget : r.direct.get m.key = some existing) :
    Describes { r with migrations := r.migrations.set existing m } (live.insert m.key m) where
  entry k index hk := by
    by_cases hkm : k = m.key
    · subst hkm
      cases hget.symm.trans hk
      exact ⟨m, List.getElem?_set_self (h.index_lt hget), rfl, Table.insert_self _ _ _⟩
    · obtain ⟨m', hm', hkey, hlive⟩ := h.entry k index hk
      have hne : existing ≠ index := by
        rintro rfl
        exact hkm (h.index_inj hk hget)
      exact ⟨m', (List.getElem?_set_ne hne).trans hm', hkey, (Table.insert_ne _ _ hkm).trans hlive⟩
  absent k hk := by
    have hkm : k ≠ m.key := by
      rintro rfl
      cases hget.symm.trans hk
    exact (Table.insert_ne _ _ hkm).trans (h.absent k hk)
  edges := h.edges
  bounded := (Nat.le_of_eq List.length_set).trans h.bounded

theorem register_new (h : Describes r live) (m : Migration Transform) (hget : r.direct.get m.key = none)
    (hroom : r.migrations.length < isizeMax) :
    Describes
      { migrations := r.migrations ++ [m]
        direct := r.direct.insert m.key r.migrations.length
        graph := r.graph.addEdge m.fromHash m.toHash r.migrations.length }
      (live.insert m.key m) where
  entry k index hk := by
    rcases FiniteMap.get_insert_some _ hk with ⟨rfl, rfl⟩ | ⟨hkm, hk⟩
    · exact ⟨m, List.getElem?_concat_length, rfl, Table.insert_self _ _ _⟩
    · obtain ⟨m', hm', hkey, hlive⟩ := h.entry k index hk
      exact ⟨m', (List.getElem?_append_left (h.index_lt hk)).trans hm', hkey,
        (Table.insert_ne _ _ hkm).trans hlive⟩
  absent k hk := by
    have hkm : k ≠ m.key := by
      rintro rfl
      cases (FiniteMap.get_insert_self _ _ _).symm.trans hk
    rw [FiniteMap.get_insert_ne _ _ hkm] at hk
    exact (Table.insert_ne _ _ hkm).trans (h.absent k hk)
  edges fromHash toHash index := by
    rw [MigrationGraph.neighbors_addEdge, FiniteMap.get_insert]
    by_cases hfrom : fromHash = m.fromHash
    · subst hfrom
      rw [if_pos rfl, List.mem_append, List.mem_singleton, h.edges]
      by_cases hto : toHash = m.toHash
      · subst hto
        have hkey : (m.fromHash, m.toHash) = m.key := rfl
        rw [hkey, if_pos rfl, hget, Prod.mk.injEq, Option.some.injEq]
        constructor
        · rintro (hnone | ⟨-, rfl⟩)
          · cases hnone
          · rfl
        · rintro rfl
          exact .inr ⟨rfl, rfl⟩
      · rw [if_neg fun heq => hto (Prod.ext_iff.mp heq).2]
        exact or_iff_left fun heq => hto (Prod.ext_iff.mp heq).1
    · rw [if_neg hfrom, if_neg fun heq => hfrom (Prod.ext_iff.mp heq).1]
      exact h.edges fromHash toHash index
  bounded := by
    rw [List.length_append]
    exact hroom

theorem register (h : Describes r live) (m : Migration Transform) {r' : MigrationRegistry Transform}
    (hstep : r.register m = some r') : Describes r' (live.insert m.key m) := by
  unfold MigrationRegistry.register at hstep
  split at hstep
  · rename_i existing hget
    cases hstep
    exact h.register_existing m hget
  · rename_i hget
    split at hstep
    · cases hstep
    · rename_i hroom
      cases hstep
      exact h.register_new m hget (Nat.lt_of_not_le hroom)

theorem unregister (h : Describes r live) (fromHash toHash : UInt64) :
    Describes (r.unregister fromHash toHash).1 (live.remove (fromHash, toHash)) := by
  unfold MigrationRegistry.unregister
  split
  · refine ⟨?_, ?_, ?_, h.bounded⟩
    · intro k index hk
      obtain ⟨hne, hk⟩ := FiniteMap.get_remove_some _ hk
      obtain ⟨m, hm, hkey, hlive⟩ := h.entry k index hk
      exact ⟨m, hm, hkey, (Table.remove_ne _ hne).trans hlive⟩
    · intro k hk
      by_cases hne : k = (fromHash, toHash)
      · rw [hne, Table.remove_self]
      · rw [FiniteMap.get_remove_ne _ hne] at hk
        exact (Table.remove_ne _ hne).trans (h.absent k hk)
    · intro from₁ to₁ index
      rw [MigrationGraph.neighbors_removeEdgesFor]
      by_cases hfrom : from₁ = fromHash
      · rw [if_pos hfrom, List.mem_filter, hfrom, h.edges, decide_eq_true_eq]
        by_cases hto : to₁ = toHash
        · rw [hto, FiniteMap.get_remove_self]
          exact iff_of_false (fun hboth => hboth.2 rfl) nofun
        · rw [FiniteMap.get_remove_ne _ fun heq => hto (Prod.ext_iff.mp heq).2]
          exact and_iff_left hto
      · rw [if_neg hfrom, FiniteMap.get_remove_ne _ fun heq => hfrom (Prod.ext_iff.mp heq).1]
        exact h.edges from₁ to₁ index
  · rename_i hnone
    have hlive : live.remove (fromHash, toHash) = live := by
      funext k
      by_cases hne : k = (fromHash, toHash)
      · rw [hne, Table.remove_self, h.absent _ hnone]
      · exact Table.remove_ne _ hne
    rw [hlive]
    exact h

/-- Every call keeps the description. -/
theorem step (h : Describes r live) (call : MigrationCall Transform) {r' : MigrationRegistry Transform}
    (hstep : r.step call = some r') : Describes r' (live.after call) := by
  cases call with
  | register m => exact h.register m hstep
  | unregister fromHash toHash =>
    cases hstep
    exact h.unregister fromHash toHash

/-- After any sequence of calls the registry describes what is registered. -/
theorem run {calls : List (MigrationCall Transform)}
    (hrun : Machine.run MigrationRegistry.step MigrationRegistry.new calls = some r) :
    Describes r (registered calls) := by
  refine Machine.run_history (fun _ _ => false) (fun past r => Describes r (registered past)) ?_ calls []
    (Machine.happens_never calls) new hrun
  intro past r call r' _ hpast hstep
  rw [registered, Machine.foldl_concat]
  exact hpast.step call hstep

theorem graph_bounded (h : Describes r live) : r.graph.Bounded := by
  intro hash e he
  have hlt := h.index_lt ((h.edges hash e.1 e.2).mp he)
  have hbound := h.bounded
  unfold isizeMax at hbound
  unfold usizeMax
  omega

theorem edge_migration (h : Describes r live) {fromHash toHash : UInt64} {index : ℕ}
    (hedge : (toHash, index) ∈ r.graph.neighbors fromHash) :
    ∃ m, r.migrations[index]? = some m ∧ m.fromHash = fromHash ∧ m.toHash = toHash ∧ live m.key = some m := by
  obtain ⟨m, hm, hkey, hlive⟩ := h.entry _ index ((h.edges fromHash toHash index).mp hedge)
  exact ⟨m, hm, congrArg Prod.fst hkey, congrArg Prod.snd hkey, hkey ▸ hlive⟩

theorem migration_edge (h : Describes r live) {m : Migration Transform} (hlive : live m.key = some m) :
    ∃ index, (m.toHash, index) ∈ r.graph.neighbors m.fromHash ∧ r.migrations[index]? = some m := by
  cases hget : r.direct.get m.key with
  | none => cases (h.absent _ hget).symm.trans hlive
  | some index =>
    obtain ⟨m', hm', -, hlive'⟩ := h.entry _ index hget
    cases hlive.symm.trans hlive'
    exact ⟨index, (h.edges _ _ index).mpr hget, hm'⟩

theorem findDirect (h : Describes r live) (fromHash toHash : UInt64) :
    r.findDirect fromHash toHash = live (fromHash, toHash) := by
  unfold MigrationRegistry.findDirect
  cases hget : r.direct.get (fromHash, toHash) with
  | none => exact (h.absent _ hget).symm
  | some index =>
    obtain ⟨m, hm, -, hlive⟩ := h.entry _ index hget
    exact hm.trans hlive.symm

end Describes

/-! ### Chains -/

theorem IsChain.concat {live : Registered Transform} {a u : UInt64} {ms : List (Migration Transform)}
    {m : Migration Transform} (h : IsChain live a ms u) (hfrom : m.fromHash = u) (hlive : live m.key = some m) :
    IsChain live a (ms ++ [m]) m.toHash := by
  induction ms generalizing a with
  | nil => exact ⟨hfrom.trans h.symm, hlive, rfl⟩
  | cons m' ms ih => exact ⟨h.1, h.2.1, ih h.2.2⟩

theorem reachable_iff (live : Registered Transform) (hkeys : ∀ k m, live k = some m → m.key = k) (a b : UInt64) :
    Reachable live a b ↔ ∃ ms, IsChain live a ms b := by
  constructor
  · intro h
    induction h using Relation.ReflTransGen.head_induction_on with
    | refl => exact ⟨[], rfl⟩
    | head hstep _ ih =>
      obtain ⟨m, hm⟩ := hstep
      obtain ⟨ms, hms⟩ := ih
      obtain ⟨rfl, rfl⟩ := Prod.mk.inj (hkeys _ m hm)
      exact ⟨m :: ms, rfl, hm, hms⟩
  · rintro ⟨ms, hms⟩
    induction ms generalizing a with
    | nil => exact hms ▸ .refl
    | cons m ms ih =>
      obtain ⟨rfl, hm, hrest⟩ := hms
      exact .head ⟨m, hm⟩ (ih _ hrest)

namespace Describes
variable {r : MigrationRegistry Transform} {live : Registered Transform}

theorem keys (h : Describes r live) (k : UInt64 × UInt64) (m : Migration Transform) (hm : live k = some m) :
    m.key = k := by
  cases hget : r.direct.get k with
  | none => cases (h.absent _ hget).symm.trans hm
  | some index =>
    obtain ⟨m', -, hkey, hlive⟩ := h.entry _ index hget
    cases hm.symm.trans hlive
    exact hkey

/-- A path of the graph is a chain of registered migrations. -/
theorem chain_of_trail (h : Describes r live) {a b : UInt64} {path : List ℕ}
    (htrail : Trail r.graph.neighbors a b path) :
    ∃ ms, (path.mapM fun index => r.migrations[index]?) = some ms ∧ ms.length = path.length ∧
      IsChain live a ms b := by
  induction htrail with
  | nil => exact ⟨[], rfl, rfl, rfl⟩
  | snoc _ hedge ih =>
    obtain ⟨ms, hms, hlen, hchain⟩ := ih
    obtain ⟨m, hm, hfrom, rfl, hlive⟩ := h.edge_migration hedge
    refine ⟨ms ++ [m], ?_, ?_, hchain.concat hfrom hlive⟩
    · simp [List.mapM_append, hms, hm]
    · rw [List.length_append, List.length_append, hlen]
      rfl

theorem trail_of_chain (h : Describes r live) {a u b : UInt64} {path : List ℕ}
    (htrail : Trail r.graph.neighbors a u path) (ms : List (Migration Transform)) (hchain : IsChain live u ms b) :
    ∃ path', path'.length = path.length + ms.length ∧ Trail r.graph.neighbors a b path' := by
  induction ms generalizing u path with
  | nil => exact ⟨path, rfl, hchain ▸ htrail⟩
  | cons m ms ih =>
    obtain ⟨rfl, hlive, hrest⟩ := hchain
    obtain ⟨index, hedge, -⟩ := h.migration_edge hlive
    obtain ⟨path', hlen, htrail'⟩ := ih (.snoc htrail hedge) hrest
    rw [List.length_append, List.length_singleton] at hlen
    exact ⟨path', by rw [List.length_cons]; omega, htrail'⟩

/-- The search finds a shortest chain of registered migrations, or there is none. -/
theorem shortestPath (h : Describes r live) (a b : UInt64) :
    (∃ path ms, r.graph.shortestPath a b = some path ∧ (path.mapM fun index => r.migrations[index]?) = some ms ∧
        IsChain live a ms b ∧ ∀ ms', IsChain live a ms' b → ms.length ≤ ms'.length) ∨
      (r.graph.shortestPath a b = none ∧ ¬ Reachable live a b) := by
  obtain ⟨path, hpath, hshortest⟩ | ⟨hnone, hno⟩ := r.graph.shortestPath_spec h.graph_bounded a b
  · obtain ⟨ms, hms, hlen, hchain⟩ := h.chain_of_trail hshortest.trail
    refine .inl ⟨path, ms, hpath, hms, hchain, fun ms' hms' => ?_⟩
    obtain ⟨path', hlen', htrail'⟩ := h.trail_of_chain .nil ms' hms'
    have hle := hshortest.le path' htrail'
    rw [List.length_nil, Nat.zero_add] at hlen'
    omega
  · refine .inr ⟨hnone, fun hreach => ?_⟩
    obtain ⟨ms, hms⟩ := (reachable_iff live h.keys a b).mp hreach
    obtain ⟨path, -, htrail⟩ := h.trail_of_chain .nil ms hms
    exact hno path htrail

end Describes

/-! ### The searches of the registry -/

theorem MigrationGraph.shortestPath_self (g : MigrationGraph) (hash : UInt64) : g.shortestPath hash hash = some [] :=
  if_pos rfl

namespace MigrationRegistry

theorem findPath_eq (r : MigrationRegistry Transform) (a b : UInt64) :
    r.findPath a b =
      (r.graph.shortestPath a b).bind fun indices => indices.mapM fun index => r.migrations[index]? := by
  unfold findPath
  split
  · rename_i heq
    rw [heq, MigrationGraph.shortestPath_self]
    rfl
  · rfl

theorem hasPath_eq (r : MigrationRegistry Transform) (a b : UInt64) :
    r.hasPath a b = (r.graph.shortestPath a b).isSome := by
  unfold hasPath
  split
  · rename_i heq
    rw [heq, MigrationGraph.shortestPath_self]
    rfl
  · rfl

end MigrationRegistry

/-- After any sequence of calls, `find_path` finds a shortest chain of the migrations that are
registered then, or none where none leads to the target, and `has_path` tells which. -/
theorem findPath_exact (calls : List (MigrationCall Transform)) (r : MigrationRegistry Transform)
    (hrun : Machine.run MigrationRegistry.step MigrationRegistry.new calls = some r) (a b : UInt64) :
    (r.findPath a b = none ↔ ¬ Reachable (registered calls) a b) ∧
    (∀ ms, r.findPath a b = some ms → IsChain (registered calls) a ms b ∧
      ∀ ms', IsChain (registered calls) a ms' b → ms.length ≤ ms'.length) ∧
    r.findPath a a = some [] ∧
    r.hasPath a b = (r.findPath a b).isSome := by
  have h := Describes.run hrun
  have hself : r.findPath a a = some [] := if_pos rfl
  rw [r.findPath_eq a b, r.hasPath_eq]
  obtain ⟨path, ms, hpath, hms, hchain, hle⟩ | ⟨hnone, hno⟩ := h.shortestPath a b
  · have hreach : Reachable (registered calls) a b := (reachable_iff _ h.keys a b).mpr ⟨ms, hchain⟩
    rw [hpath, Option.bind_some, hms]
    refine ⟨iff_of_false nofun (not_not_intro hreach), ?_, hself, rfl⟩
    rintro ms' ⟨⟩
    exact ⟨hchain, hle⟩
  · rw [hnone]
    exact ⟨iff_of_true rfl hno, nofun, hself, rfl⟩

/-- Two steps, a way back, and a shortcut that is taken away again. -/
def orderMigrations : List (MigrationCall Unit) :=
  [.register (.new "Order@v1" 100 "Order@v2" 200 ()), .register (.new "Order@v2" 200 "Order@v3" 300 ()),
    .register (.new "Order@v3" 300 "Order@v1" 100 ()), .register (.new "Order@v1" 100 "Order@v3" 300 ()),
    .unregister 100 300]

theorem findPath_orders :
    ∃ r, Machine.run MigrationRegistry.step MigrationRegistry.new orderMigrations = some r ∧
      ∃ ms, r.findPath 100 300 = some ms ∧ ms.length = 2 ∧ IsChain (registered orderMigrations) 100 ms 300 := by
  refine ⟨_, rfl, _, rfl, rfl, ?_⟩
  exact ((findPath_exact orderMigrations _ rfl 100 300).2.1 _ rfl).1

end Xerv.Schema
