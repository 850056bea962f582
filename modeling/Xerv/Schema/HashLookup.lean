import Xerv.Schema.Versioned

/-!
# Lookup by hash

A registration enters its own hash and leaves the hashes under which its name was entered
before. The lookup is consistent as long as no name is registered with a new hash while an
old one still leads to it.
-/

namespace Xerv.Schema
open Xerv.Lib

/-- A call that changes the registry. -/
inductive RegistryCall where
  | registered (c : Registration)
  | clear

namespace VersionedSchemaRegistry

def call (r : VersionedSchemaRegistry) : RegistryCall → VersionedSchemaRegistry
  | .registered c => r.perform c
  | .clear => r.clear

def afterCalls (path : Option String) (calls : List RegistryCall) : VersionedSchemaRegistry :=
  calls.foldl call (empty path)

/-- The schemas registered since the last `clear`, in order. -/
def registeredSince (calls : List RegistryCall) : List TypeInfo :=
  calls.foldl
    (fun ts c =>
      match c with
      | .registered c => ts ++ [c.info]
      | .clear => [])
    []

/-- What is found by a hash has it, and what is found by a name is found by its hash, unless a schema
registered later has the same hash. -/
structure LookupConsistent (r : VersionedSchemaRegistry) (ts : List TypeInfo) : Prop where
  hash : ∀ h t, r.getByHash h = some t → t.hash = h
  found : ∀ name t, r.get name = some t → r.getByHash t.hash = some t ∨
    ∃ earlier later, ts = earlier ++ t :: later ∧ ∃ t' ∈ later, t'.hash = t.hash

/-- Another hash than the schema's own leads to its name. -/
def MovesName (r : VersionedSchemaRegistry) (info : TypeInfo) : Prop :=
  ∃ h, h ≠ info.hash ∧ r.byHash.get h = some info.name

theorem wellFormed_call {r : VersionedSchemaRegistry} (hr : r.WellFormed) (c : RegistryCall) :
    (r.call c).WellFormed := by
  cases c with
  | registered c =>
    rw [call, perform_eq]
    exact wellFormed_register hr c.info
  | clear => exact wellFormed_empty r.persistencePath

theorem getByHash_register (r : VersionedSchemaRegistry) (info : TypeInfo) (h : UInt64) :
    (r.register info).getByHash h =
      if h = info.hash then some info
      else (r.byHash.get h).bind fun name => if name = info.name then some info else r.get name := by
  unfold getByHash
  change ((r.byHash.insert _ _).get h).bind (fun name => (r.register info).get name) = _
  rw [FiniteMap.get_insert]
  split
  · rw [Option.bind_some, get_register, if_pos rfl]
  · exact Option.bind_congr fun name _ => get_register r info name

/-- A registration keeps the lookup right if and only if it does not move its name away from another hash. -/
theorem hash_register_iff {r : VersionedSchemaRegistry} (hconsistent : ∀ h t, r.getByHash h = some t → t.hash = h)
    (info : TypeInfo) :
    (∀ h t, (r.register info).getByHash h = some t → t.hash = h) ↔ ¬ MovesName r info := by
  constructor
  · rintro hall ⟨h, hne, hname⟩
    refine hne (hall h info ?_).symm
    rw [getByHash_register, if_neg hne, hname, Option.bind_some, if_pos rfl]
  · intro hstay h t ht
    rw [getByHash_register] at ht
    split at ht
    · rename_i heq
      cases ht
      exact heq.symm
    · rename_i hne
      obtain ⟨name, hname, ht⟩ := Option.bind_eq_some_iff.mp ht
      have hother : name ≠ info.name := fun heq => hstay ⟨h, hne, heq ▸ hname⟩
      rw [if_neg hother] at ht
      exact hconsistent h t (Option.bind_eq_some_iff.mpr ⟨name, hname, ht⟩)

/-- What is found by a name is found by its hash, unless a later schema has the hash. -/
structure Found (r : VersionedSchemaRegistry) (ts : List TypeInfo) : Prop where
  mem : ∀ name t, r.get name = some t → t ∈ ts
  found : ∀ name t, r.get name = some t → r.getByHash t.hash = some t ∨
    ∃ earlier later, ts = earlier ++ t :: later ∧ ∃ t' ∈ later, t'.hash = t.hash

theorem Found.register {r : VersionedSchemaRegistry} {ts : List TypeInfo} (hr : r.WellFormed) (h : Found r ts)
    (info : TypeInfo) : Found (r.register info) (ts ++ [info]) := by
  constructor
  · intro name t ht
    rw [get_register] at ht
    rw [List.mem_append, List.mem_singleton]
    split at ht
    · cases ht
      exact .inr rfl
    · exact .inl (h.mem name t ht)
  · intro name t ht
    rw [get_register] at ht
    split at ht
    · cases ht
      exact .inl (by rw [getByHash_register, if_pos rfl])
    · rename_i hne
      obtain ⟨earlier, later, hsplit⟩ := List.append_of_mem (h.mem name t ht)
      by_cases hhash : info.hash = t.hash
      · exact .inr ⟨earlier, later ++ [info], by rw [hsplit]; simp, info, by simp, hhash⟩
      · rcases h.found name t ht with hfound | ⟨earlier, later, hsplit, t', ht', heq⟩
        · refine .inl ?_
          obtain ⟨name', hname', hget⟩ := Option.bind_eq_some_iff.mp hfound
          have hsame : name' = name := (hr.named name' t hget).symm.trans (hr.named name t ht)
          rw [getByHash_register, if_neg (Ne.symm hhash), hname', Option.bind_some, hsame, if_neg hne]
          exact ht
        · exact .inr ⟨earlier, later ++ [info], by rw [hsplit]; simp, t', List.mem_append_left _ ht', heq⟩

theorem found_afterCalls (path : Option String) (calls : List RegistryCall) :
    (afterCalls path calls).WellFormed ∧ Found (afterCalls path calls) (registeredSince calls) := by
  induction calls using List.reverseRecOn with
  | nil => exact ⟨wellFormed_empty path, nofun, nofun⟩
  | append_singleton calls c ih =>
    obtain ⟨hr, hfound⟩ := ih
    rw [afterCalls, registeredSince, Machine.foldl_concat, Machine.foldl_concat]
    refine ⟨wellFormed_call hr c, ?_⟩
    cases c with
    | registered c =>
      rw [call, perform_eq]
      exact hfound.register hr c.info
    | clear => exact ⟨nofun, nofun⟩

def KeepsNames (r : VersionedSchemaRegistry) : RegistryCall → Prop
  | .registered c => ¬ MovesName r c.info
  | .clear => True

theorem hash_throughout_iff (path : Option String) (calls : List RegistryCall) :
    (∀ before, before <+: calls → (afterCalls path before).WellFormed ∧
        ∀ h t, (afterCalls path before).getByHash h = some t → t.hash = h) ↔
      ∀ before c, before ++ [c] <+: calls → KeepsNames (afterCalls path before) c := by
  refine Machine.foldl_throughout call KeepsNames
    (fun r => r.WellFormed ∧ ∀ h t, r.getByHash h = some t → t.hash = h) ?_ calls ⟨wellFormed_empty path, nofun⟩
  rintro r c ⟨hr, hhash⟩
  rw [and_iff_right (wellFormed_call hr c)]
  cases c with
  | registered c =>
    rw [call, perform_eq]
    exact hash_register_iff hhash c.info
  | clear => exact iff_of_true nofun trivial

/-- In every state of a run the lookup is consistent if and only if no schema is registered while
another hash than its own leads to its name. -/
theorem lookup_consistent_iff (path : Option String) (calls : List RegistryCall) :
    (∀ before, before <+: calls → LookupConsistent (afterCalls path before) (registeredSince before)) ↔
      ∀ before c, before ++ [.registered c] <+: calls → ¬ MovesName (afterCalls path before) c.info := by
  have hrule := hash_throughout_iff path calls
  constructor
  · intro hall before c hpre
    refine hrule.mp (fun before hpre => ?_) before (.registered c) hpre
    exact ⟨(found_afterCalls path before).1, (hall before hpre).hash⟩
  · intro hnone before hpre
    refine ⟨(hrule.mpr (fun before c hpre => ?_) before hpre).2, (found_afterCalls path before).2.found⟩
    cases c with
    | registered c => exact hnone before c hpre
    | clear => trivial

def orderRehashed : List RegistryCall :=
  [.registered (.register { TypeInfo.new "Order" 1 with hash := 100 }),
    .registered (.register { TypeInfo.new "Order" 1 with hash := 200 })]

theorem replaced_hash_misread :
    ¬ LookupConsistent (afterCalls none orderRehashed) (registeredSince orderRehashed) := by
  intro h
  have hhash := h.hash 100 { TypeInfo.new "Order" 1 with hash := 200 } rfl
  cases hhash

end VersionedSchemaRegistry
end Xerv.Schema
