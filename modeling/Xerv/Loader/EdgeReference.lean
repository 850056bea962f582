import Xerv.Linker.Parser
import Xerv.Loader.Wiring

/-!
# References to ports (`xerv-core/src/flow/edge.rs`)

An edge names a node, or a node and one of its ports behind a dot. `parse_node_port` tells the
two apart by the look of the text behind the last dot, and `FlowValidator` lets every
name of a node pass, names with dots included.
-/

namespace Xerv
open Xerv.Lib

section
variable (isAlphanumeric : Char → Bool)

/-- Both ends of an edge read a name, alone and with the port, as what it was written for. -/
structure ReferenceParsesBack (id port : String) : Prop where
  fromPort : ∀ e : EdgeDefinition, e.source = id ++ "." ++ port → e.parseFrom isAlphanumeric = (id, port)
  fromNode : ∀ e : EdgeDefinition, e.source = id → e.parseFrom isAlphanumeric = (id, "out")
  toPort : ∀ e : EdgeDefinition, e.target = id ++ "." ++ port → e.parseTo isAlphanumeric = (id, port)
  toNode : ∀ e : EdgeDefinition, e.target = id → e.parseTo isAlphanumeric = (id, "in")

/-- The name has a dot, and what stands behind its last dot passes for a port. -/
def EndsLikePort (id : String) : Prop :=
  ∃ node part, id.toList = node ++ '.' :: part ∧ looksLikePort isAlphanumeric part = true

end

/-! ### The last dot -/

theorem splitLastDot_none (s : List Char) (h : '.' ∉ s) : splitLastDot s = none := by
  have hdrop : s.reverse.dropWhile (· ≠ '.') = [] := by
    rw [List.dropWhile_eq_nil_iff]
    intro c hc
    have hne : c ≠ '.' := fun heq => h (heq ▸ List.mem_reverse.mp hc)
    exact decide_eq_true hne
  unfold splitLastDot
  rw [hdrop]

theorem lastDot_cases (s : List Char) : '.' ∉ s ∨ ∃ node part, s = node ++ '.' :: part ∧ '.' ∉ part := by
  induction s with
  | nil => exact .inl List.not_mem_nil
  | cons c s ih =>
    rcases ih with hnone | ⟨node, part, rfl, hpart⟩
    · by_cases hc : c = '.'
      · exact .inr ⟨[], s, by rw [hc]; rfl, hnone⟩
      · exact .inl fun hmem => (List.mem_cons.mp hmem).elim (fun h => hc h.symm) hnone
    · exact .inr ⟨c :: node, part, rfl, hpart⟩

section
variable {isAlphanumeric : Char → Bool}

theorem parseNodePort_split (node part : List Char) (defaultPort : String) (hpart : '.' ∉ part) :
    parseNodePort isAlphanumeric (String.ofList (node ++ '.' :: part)) defaultPort =
      if looksLikePort isAlphanumeric part then (String.ofList node, String.ofList part)
      else (String.ofList (node ++ '.' :: part), defaultPort) := by
  unfold parseNodePort
  rw [String.toList_ofList, splitLastDot_append node part hpart]

/-- A name alone is read as itself unless it ends like a port. -/
theorem parseNodePort_plain_iff (hdot : isAlphanumeric '.' = false) (id defaultPort : String) :
    parseNodePort isAlphanumeric id defaultPort = (id, defaultPort) ↔ ¬EndsLikePort isAlphanumeric id := by
  constructor
  · rintro h ⟨node, part, hid, hport⟩
    rw [← String.ofList_toList (s := id), hid,
      parseNodePort_split node part defaultPort (looksLikePort_noDot isAlphanumeric hdot part hport),
      if_pos hport] at h
    have hlen := congrArg List.length (String.ofList_injective (Prod.mk.inj h).1)
    rw [List.length_append, List.length_cons] at hlen
    omega
  · intro hplain
    rcases lastDot_cases id.toList with hnone | ⟨node, part, hid, hpart⟩
    · unfold parseNodePort
      rw [splitLastDot_none _ hnone]
    · rw [← String.ofList_toList (s := id), hid, parseNodePort_split node part defaultPort hpart,
        if_neg fun hport => hplain ⟨node, part, hid, hport⟩]

/-! ### Ports -/

theorem identifier_bytes {port : List Char} (hport : IsIdentifier port) :
    (port.map Char.utf8Size).sum = port.length := by
  have hone : port.map Char.utf8Size = port.map fun _ => 1 := by
    refine List.map_congr_left fun c hc => ?_
    have hrange := identifier_range (hport.char hc)
    refine Char.utf8Size_eq_one_iff.mpr ?_
    rw [UInt32.le_iff_toNat_le]
    exact Nat.le_trans hrange.2 (by decide)
  rw [hone, List.map_const', List.sum_replicate]
  simp

/-- Of the tests only the one for the length can refuse an identifier. -/
theorem looksLikePort_identifier (halphanumeric : ∀ c, AsciiLetter c ∨ AsciiDigit c → isAlphanumeric c = true)
    {port : List Char} (hport : IsIdentifier port) :
    looksLikePort isAlphanumeric port = true ↔ port.length < 20 := by
  have hnil : port ≠ [] := by
    obtain ⟨first, rest, rfl, -⟩ := hport
    exact List.cons_ne_nil _ _
  have hall : (port.all fun c => isAlphanumeric c || decide (c = '_')) = true := by
    refine List.all_eq_true.mpr fun c hc => ?_
    rw [Bool.or_eq_true, decide_eq_true_eq]
    rcases hport.char hc with hletter | hdigit | hunderscore
    · exact .inl (halphanumeric c (.inl hletter))
    · exact .inl (halphanumeric c (.inr hdigit))
    · exact .inr hunderscore
  have hsigil : '$' ∉ port := hport.not_mem (by decide)
  have hbrace : '\x7b' ∉ port := hport.not_mem (by decide)
  unfold looksLikePort
  rw [hall, identifier_bytes hport]
  simp [hnil, hsigil, hbrace]

theorem parseNodePort_port_iff (halphanumeric : ∀ c, AsciiLetter c ∨ AsciiDigit c → isAlphanumeric c = true)
    (id port defaultPort : String) (hport : IsIdentifier port.toList) :
    parseNodePort isAlphanumeric (id ++ "." ++ port) defaultPort = (id, port) ↔ port.length < 20 := by
  have htext : id ++ "." ++ port = String.ofList (id.toList ++ '.' :: port.toList) := by
    rw [← String.toList_inj]
    simp
  rw [htext, parseNodePort_split _ _ _ hport.no_dot, String.ofList_toList, String.ofList_toList,
    ← String.length_toList, ← looksLikePort_identifier halphanumeric hport]
  constructor
  · intro h
    by_contra hlong
    rw [if_neg hlong] at h
    have hlen := congrArg String.length (Prod.mk.inj h).1
    simp at hlen
  · exact fun h => if_pos h

end

namespace Document.FlowValidator

/-- The flow whose only node has the given name. -/
def singleNode (id : String) : FlowDefinition nullYaml where
  name := "orders"
  version := none
  triggers := []
  nodes := [(id, { nodeType := "std::log", enabled := true, config := () })]
  edges := []
  distinctNodes := List.nodup_singleton _

theorem singleNode_accepted (isAlphanumeric : Char → Bool) (id : String) :
    validate isAlphanumeric .default (singleNode id) = .ok () := by
  have hnone : errors isAlphanumeric .default (singleNode id) = [] := by
    simp [errors, validateLimits, countErrors, validateMetadata, validateTriggers, validateTriggersFrom,
      validateNodes, validateNodesFrom, validateNode, validateNodeConfig, validateEdges, validateReferences,
      forEdges, singleNode, ValidationLimits.default]
  exact if_pos hnone

/-- The name of a trigger or node in a flow that the validator accepts, under some limits. -/
def AcceptedId (isAlphanumeric : Char → Bool) (id : String) : Prop :=
  ∃ (yaml : Yaml) (limits : ValidationLimits) (flow : FlowDefinition yaml),
    validate isAlphanumeric limits flow = .ok () ∧ id ∈ validIds flow

theorem acceptedId (isAlphanumeric : Char → Bool) (id : String) : AcceptedId isAlphanumeric id :=
  ⟨nullYaml, .default, singleNode id, singleNode_accepted isAlphanumeric id, by simp [validIds, singleNode]⟩

/-- Every text is an accepted name; and references to it and to a port of it, an identifier, are read as
written if and only if the port has fewer than twenty characters and the name does not itself end like a
port. -/
theorem references_parse_back_iff (isAlphanumeric : Char → Bool)
    (halphanumeric : ∀ c, AsciiLetter c ∨ AsciiDigit c → isAlphanumeric c = true)
    (hdot : isAlphanumeric '.' = false) :
    (∀ id, AcceptedId isAlphanumeric id) ∧
      ∀ id port, IsIdentifier port.toList →
        (ReferenceParsesBack isAlphanumeric id port ↔
          port.length < 20 ∧ ¬EndsLikePort isAlphanumeric id) := by
  refine ⟨acceptedId isAlphanumeric, fun id port hport => ⟨fun h => ⟨?_, ?_⟩, ?_⟩⟩
  · exact (parseNodePort_port_iff halphanumeric id port "out" hport).mp (h.fromPort ⟨_, "", false⟩ rfl)
  · exact (parseNodePort_plain_iff hdot id "out").mp (h.fromNode ⟨id, "", false⟩ rfl)
  · rintro ⟨hshort, hplain⟩
    have hqualified (defaultPort : String) :=
      (parseNodePort_port_iff halphanumeric id port defaultPort hport).mpr hshort
    have halone (defaultPort : String) := (parseNodePort_plain_iff hdot id defaultPort).mpr hplain
    refine ⟨?_, ?_, ?_, ?_⟩
    · rintro ⟨source, target, loopBack⟩ rfl
      exact hqualified "out"
    · rintro ⟨source, target, loopBack⟩ rfl
      exact halone "out"
    · rintro ⟨source, target, loopBack⟩ rfl
      exact hqualified "in"
    · rintro ⟨source, target, loopBack⟩ rfl
      exact halone "in"

theorem isAlphanum_of_ascii (c : Char) (hc : AsciiLetter c ∨ AsciiDigit c) : c.isAlphanum = true :=
  (isAlphanum_iff c).mpr hc

theorem audit_parses_back : ReferenceParsesBack Char.isAlphanum "audit" "error" :=
  ((references_parse_back_iff Char.isAlphanum isAlphanum_of_ascii rfl).2 "audit" "error"
    ((isValidIdentifier_iff _).mp (by decide))).mpr
    ⟨by decide, fun ⟨node, part, hid, _⟩ => by
      have hdot : '.' ∈ "audit".toList := hid ▸ List.mem_append_right _ List.mem_cons_self
      exact absurd hdot (by decide)⟩

/-- A port of twenty characters is taken as part of the name; a name with a version behind a dot is cut. -/
theorem reference_misread :
    AcceptedId Char.isAlphanum "audit" ∧ IsIdentifier "needs_second_opinion".toList ∧
      ¬ReferenceParsesBack Char.isAlphanum "audit" "needs_second_opinion" ∧
      AcceptedId Char.isAlphanum "audit.v2" ∧ IsIdentifier "error".toList ∧
      ¬ReferenceParsesBack Char.isAlphanum "audit.v2" "error" := by
  refine ⟨acceptedId _ _, (isValidIdentifier_iff _).mp (by decide), fun h => ?_, acceptedId _ _,
    (isValidIdentifier_iff _).mp (by decide), fun h => ?_⟩
  · have hport := h.fromPort ⟨"audit.needs_second_opinion", "", false⟩ (by decide)
    exact absurd hport (by decide)
  · have hnode := h.fromNode ⟨"audit.v2", "", false⟩ rfl
    exact absurd hnode (by decide)

end Document.FlowValidator

end Xerv
