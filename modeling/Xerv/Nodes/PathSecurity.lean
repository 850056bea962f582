import Xerv.Core.Types
import Xerv.Lib.LossyText
import Xerv.Lib.UnixPath

/-!
# The policy on watched paths (`triggers/filesystem/security.rs`)

`dirs::home_dir` and the `Debug` form of a list of paths are parameters. What `exists` and `canonicalize` answer
is that of the file system at the time of the call.
-/

namespace Xerv.Nodes
open Xerv.Lib Xerv.Lib.UnixPath

structure PathEnv where
  homeDir : Option Bytes
  debugPaths : List Bytes → String

/-- A file system at one time. -/
structure Files where
  pathExists : Bytes → Bool
  canonicalize : Bytes → Except String CanonicalPath

structure PathSecurityConfig where
  allowedPaths : List Bytes
  blockedPaths : List Bytes
  allowSystemPaths : Bool
  deriving DecidableEq

def display (path : Bytes) : String := fromUtf8Lossy path

def pathError (message : String) : XervError := .configValue "path" message

namespace PathSecurityConfig

def default : PathSecurityConfig where
  allowedPaths := []
  blockedPaths := ["/etc", "/etc/passwd", "/etc/shadow", "/etc/sudoers", "/root", "/var/log", "/proc", "/sys", "/dev",
    "/boot", "/var/lib/dpkg", "/var/lib/rpm", "/home/*/.ssh", "/var/lib/private"].map utf8
  allowSystemPaths := false

def allowPath (config : PathSecurityConfig) (path : Bytes) : PathSecurityConfig :=
  { config with allowedPaths := config.allowedPaths ++ [path] }

def blockPath (config : PathSecurityConfig) (path : Bytes) : PathSecurityConfig :=
  { config with blockedPaths := config.blockedPaths ++ [path] }

end PathSecurityConfig

/-! ### Patterns -/

def globMatchParts : List (List Char) → List (List Char) → Bool
  | [], [] => true
  | [], _ :: _ => true
  | _ :: _, [] => false
  | pat :: pattern, p :: path =>
    if pat = ['*'] then globMatchParts pattern path
    else if pat = p then globMatchParts pattern path
    else false

def textParts (text : List Char) : List (List Char) := (text.splitOn '/').filter (· ≠ [])

def globMatches (pattern : List Char) (path : Bytes) : Bool :=
  globMatchParts (textParts pattern) (textParts (lossyText path))

def blocks (blocked : Bytes) (canonical : CanonicalPath) : Bool :=
  let blockedStr := lossyText blocked
  if '*' ∈ blockedStr then globMatches blockedStr canonical.bytes
  else startsWith canonical.bytes blocked || components canonical.bytes == components blocked

def blockedMessage (canonical : CanonicalPath) (blocked : Bytes) : String :=
  if '*' ∈ lossyText blocked then
    "Path '" ++ display canonical.bytes ++ "' matches blocked pattern '" ++ display blocked ++
      "' (security restriction)"
  else
    "Path '" ++ display canonical.bytes ++ "' is blocked for security reasons (matches '" ++ display blocked ++ "')"

/-! ### The check -/

def safePrefixes : List Bytes := ["/data", "/srv", "/opt", "/usr/local/share", "/var/data"].map utf8

section Validate
variable (env : PathEnv)

/-- Under the home directory, a directory for temporary files or one for data. -/
def inSafePlace (canonical : CanonicalPath) : Bool :=
  env.homeDir.any (startsWith canonical.bytes) ||
    (startsWith canonical.bytes (utf8 "/tmp") || startsWith canonical.bytes (utf8 "/var/tmp")) ||
    safePrefixes.any (startsWith canonical.bytes)

namespace PathSecurityConfig

/-- The rules, once the path is resolved. -/
def validateCanonical (config : PathSecurityConfig) (canonical : CanonicalPath) : Except XervError Unit :=
  if config.allowedPaths ≠ [] then
    if config.allowedPaths.any fun allowed =>
        startsWith canonical.bytes allowed || components canonical.bytes == components allowed then .ok ()
    else .error (pathError ("Path '" ++ display canonical.bytes ++ "' is not in the allowed paths list. Allowed: " ++
      env.debugPaths config.allowedPaths))
  else
    match config.blockedPaths.find? fun blocked => blocks blocked canonical with
    | some blocked => .error (pathError (blockedMessage canonical blocked))
    | none =>
      if config.allowSystemPaths || inSafePlace env canonical then .ok ()
      else .error (pathError ("Path '" ++ display canonical.bytes ++
        "' is outside allowed directories. Use allowed_paths to whitelist specific paths, " ++
        "or set allow_system_paths: true in security config"))

def validatePath (config : PathSecurityConfig) (files : Files) (path : Bytes) : Except XervError Unit :=
  match files.canonicalize path with
  | .error e => .error (pathError ("Cannot resolve path '" ++ display path ++ "': " ++ e))
  | .ok canonical => config.validateCanonical env canonical

theorem validatePath_error {env : PathEnv} {config : PathSecurityConfig} {files : Files} {path : Bytes} {e : XervError}
    (h : config.validatePath env files path = .error e) : ∃ cause, e = pathError cause := by
  unfold validatePath validateCanonical at h
  repeat' split at h
  all_goals first | exact ⟨_, (Except.error.inj h).symm⟩ | cases h

end PathSecurityConfig

end Validate

/-! ### What the policy says -/

def star : UInt8 := 0x2A

/-- A component of an entry stands for one of a path. -/
def Covers (entry name : Component) : Prop := (entry = .normal [star] ∧ name ≠ .rootDir) ∨ entry = name

instance (entry name : Component) : Decidable (Covers entry name) := inferInstanceAs (Decidable (_ ∨ _))

def MatchesPrefix (entry : Bytes) (canonical : CanonicalPath) : Prop :=
  MatchesFront Covers (components entry) (components canonical.bytes)

instance (entry : Bytes) (canonical : CanonicalPath) : Decidable (MatchesPrefix entry canonical) :=
  inferInstanceAs (Decidable (MatchesFront _ _ _))

def Under (base : Bytes) (canonical : CanonicalPath) : Prop := components base <+: components canonical.bytes

instance (base : Bytes) (canonical : CanonicalPath) : Decidable (Under base canonical) :=
  inferInstanceAs (Decidable (_ <+: _))

def safePlaces (env : PathEnv) : List Bytes :=
  env.homeDir.toList ++ ["/tmp", "/var/tmp", "/data", "/srv", "/opt", "/usr/local/share", "/var/data"].map utf8

def Permits (env : PathEnv) (config : PathSecurityConfig) (canonical : CanonicalPath) : Prop :=
  (config.allowedPaths ≠ [] ∧ ∃ allowed ∈ config.allowedPaths, Under allowed canonical) ∨
    (config.allowedPaths = [] ∧ (∀ blocked ∈ config.blockedPaths, ¬ MatchesPrefix blocked canonical) ∧
      (config.allowSystemPaths = true ∨ ∃ base ∈ safePlaces env, Under base canonical))

instance (env : PathEnv) (config : PathSecurityConfig) (canonical : CanonicalPath) :
    Decidable (Permits env config canonical) := inferInstanceAs (Decidable (_ ∨ _))

/-- How an entry with a star is matched: by its segments, dots among them, after ill-formed text is replaced. -/
def LossyMatch (entry : Bytes) (canonical : CanonicalPath) : Prop :=
  MatchesFront (fun segment name => segment = [star] ∨ lossyText segment = lossyText name) (segments entry)
    canonical.names

/-! ### The two matchers -/

section Matchers
variable {entry : Bytes} {canonical : CanonicalPath}

theorem startsWith_iff : startsWith canonical.bytes entry = true ↔ Under entry canonical := decide_eq_true_iff

theorem startsWith_or_eq_iff :
    (startsWith canonical.bytes entry || components canonical.bytes == components entry) = true ↔
      Under entry canonical := by
  rw [Bool.or_eq_true, startsWith_iff, beq_iff_eq, or_iff_left_iff_imp]
  intro h
  unfold Under
  rw [h]

theorem globMatchParts_iff (pattern path : List (List Char)) :
    globMatchParts pattern path = true ↔ MatchesFront (fun pat p => pat = ['*'] ∨ pat = p) pattern path := by
  induction pattern generalizing path with
  | nil => cases path <;> exact iff_of_true rfl matchesFront_nil
  | cons pat pattern ih =>
    cases path with
    | nil => exact iff_of_false Bool.false_ne_true not_matchesFront_nil
    | cons p path =>
      rw [globMatchParts, matchesFront_cons, ← ih path]
      by_cases hstar : pat = ['*']
      · simp [hstar]
      · by_cases hp : pat = p <;> simp [hstar, hp]

theorem textParts_lossyText (path : Bytes) : textParts (lossyText path) = (segments path).map lossyText := by
  have hsplit : (lossyText path).splitOn '/' = (path.splitOn slash).map lossyText :=
    splitOn_lossyText (b := slash) (by decide) path
  unfold textParts segments
  rw [hsplit, List.filter_map]
  refine congrArg (List.map lossyText) (List.filter_congr fun segment _ => ?_)
  exact decide_eq_decide.mpr (not_congr (lossyText_eq_nil_iff segment))

theorem globMatches_iff : globMatches (lossyText entry) canonical.bytes = true ↔ LossyMatch entry canonical := by
  unfold globMatches LossyMatch
  rw [textParts_lossyText, textParts_lossyText, globMatchParts_iff, matchesFront_map, canonical.segments_bytes]
  refine matchesFront_congr fun segment _ name _ => or_congr_left ?_
  exact lossyText_eq_singleton_iff (b := star) (by decide) segment

theorem star_mem_lossyText : '*' ∈ lossyText entry ↔ star ∈ entry :=
  byteChar_mem_lossyText (b := star) (by decide) entry

theorem matchesPrefix_iff (habs : isAbsolute entry = true) :
    MatchesPrefix entry canonical ↔
      MatchesFront Covers ((segments entry).filterMap Component.ofSegment) (canonical.names.map .normal) := by
  have hroot : components entry = .rootDir :: (segments entry).filterMap Component.ofSegment := by
    unfold components
    rw [if_pos habs]
    rfl
  unfold MatchesPrefix
  rw [hroot, canonical.components_bytes, matchesFront_cons]
  exact and_iff_right (.inr rfl)

theorem mem_of_mem_segments {segment : Bytes} {b : UInt8} (hsegment : segment ∈ segments entry) (hb : b ∈ segment) :
    b ∈ entry :=
  (mem_part_of_splitOn_iff.mp ⟨segment, List.mem_of_mem_filter hsegment, hb⟩).1

theorem matchesPrefix_of_notMem (hstar : star ∉ entry) : MatchesPrefix entry canonical ↔ Under entry canonical := by
  have hliteral : ∀ component ∈ components entry, component ≠ .normal [star] := by
    rintro component hmem rfl
    rcases List.mem_append.mp hmem with hfront | hsegments
    · split at hfront
      · cases List.mem_singleton.mp hfront
      · split at hfront
        · cases List.mem_singleton.mp hfront
        · cases hfront
    · obtain ⟨segment, hsegment, hof⟩ := List.mem_filterMap.mp hsegments
      unfold Component.ofSegment at hof
      split at hof
      · cases hof
      · split at hof
        · cases hof
        · cases hof
          exact hstar (mem_of_mem_segments hsegment (List.mem_singleton_self star))
  unfold MatchesPrefix Under
  rw [← matchesFront_eq]
  exact matchesFront_congr fun component hmem name _ => or_iff_right fun h => hliteral component hmem h.1

theorem blocks_iff : blocks entry canonical = true ↔
    (star ∉ entry ∧ MatchesPrefix entry canonical) ∨ (star ∈ entry ∧ LossyMatch entry canonical) := by
  unfold blocks
  dsimp only
  by_cases hstar : star ∈ entry
  · rw [if_pos (star_mem_lossyText.mpr hstar), globMatches_iff]
    simp [hstar]
  · rw [if_neg fun h => hstar (star_mem_lossyText.mp h), startsWith_or_eq_iff, ← matchesPrefix_of_notMem hstar]
    simp [hstar]

end Matchers

/-! ### The policy as it is checked -/

/-- The blacklist stops a path by one of its plain entries, or reads those with a star as they are meant. -/
def BlockedAsMeant (config : PathSecurityConfig) (canonical : CanonicalPath) : Prop :=
  (∃ entry ∈ config.blockedPaths, star ∉ entry ∧ MatchesPrefix entry canonical) ∨
    ((∃ entry ∈ config.blockedPaths, star ∈ entry ∧ MatchesPrefix entry canonical) ↔
      ∃ entry ∈ config.blockedPaths, star ∈ entry ∧ LossyMatch entry canonical)

section Policy
variable (env : PathEnv) (config : PathSecurityConfig) (canonical : CanonicalPath)

theorem inSafePlace_iff : inSafePlace env canonical = true ↔ ∃ base ∈ safePlaces env, Under base canonical := by
  unfold inSafePlace safePlaces safePrefixes
  rw [List.map_cons, List.map_cons, ← List.singleton_append, ← List.singleton_append]
  cases env.homeDir <;> simp [startsWith_iff, or_assoc]

theorem validateCanonical_ok_iff : config.validateCanonical env canonical = .ok () ↔
    (config.allowedPaths ≠ [] ∧ ∃ allowed ∈ config.allowedPaths, Under allowed canonical) ∨
      (config.allowedPaths = [] ∧ (∀ blocked ∈ config.blockedPaths, ¬ blocks blocked canonical = true) ∧
        (config.allowSystemPaths = true ∨ ∃ base ∈ safePlaces env, Under base canonical)) := by
  unfold PathSecurityConfig.validateCanonical
  by_cases hallowed : config.allowedPaths ≠ []
  · have hany : (config.allowedPaths.any fun allowed =>
          startsWith canonical.bytes allowed || components canonical.bytes == components allowed) = true ↔
        ∃ allowed ∈ config.allowedPaths, Under allowed canonical := by
      rw [List.any_eq_true]
      exact exists_congr fun allowed => and_congr_right' startsWith_or_eq_iff
    rw [if_pos hallowed]
    split
    · exact iff_of_true rfl (.inl ⟨hallowed, hany.mp ‹_›⟩)
    · refine iff_of_false nofun ?_
      rintro (⟨-, h⟩ | ⟨h, -⟩)
      · exact ‹¬ _› (hany.mpr h)
      · exact hallowed h
  · rw [if_neg hallowed]
    cases hfind : config.blockedPaths.find? fun blocked => blocks blocked canonical with
    | some blocked =>
      have hblocks := List.find?_some hfind
      have hmem := List.mem_of_find?_eq_some hfind
      refine iff_of_false nofun ?_
      rintro (⟨h, -⟩ | ⟨-, hnone, -⟩)
      · exact hallowed h
      · exact hnone blocked hmem hblocks
    | none =>
      have hnone := List.find?_eq_none.mp hfind
      dsimp only
      rw [← inSafePlace_iff, ← Bool.or_eq_true]
      split
      · exact iff_of_true rfl (.inr ⟨not_not.mp hallowed, hnone, ‹_›⟩)
      · refine iff_of_false nofun ?_
        rintro (⟨h, -⟩ | ⟨-, -, h⟩)
        · exact hallowed h
        · exact ‹¬ _› h

theorem exists_blocks_iff : (∃ entry ∈ config.blockedPaths, blocks entry canonical = true) ↔
    (∃ entry ∈ config.blockedPaths, star ∉ entry ∧ MatchesPrefix entry canonical) ∨
      ∃ entry ∈ config.blockedPaths, star ∈ entry ∧ LossyMatch entry canonical := by
  rw [← exists_or]
  refine exists_congr fun entry => ?_
  rw [blocks_iff, ← and_or_left]

theorem exists_matches_iff : (∃ entry ∈ config.blockedPaths, MatchesPrefix entry canonical) ↔
    (∃ entry ∈ config.blockedPaths, star ∉ entry ∧ MatchesPrefix entry canonical) ∨
      ∃ entry ∈ config.blockedPaths, star ∈ entry ∧ MatchesPrefix entry canonical := by
  rw [← exists_or]
  refine exists_congr fun entry => ?_
  rw [← and_or_left, ← or_and_right, or_comm, and_iff_right (Classical.em _)]

theorem blockedAsMeant_iff : BlockedAsMeant config canonical ↔
    ((∃ entry ∈ config.blockedPaths, blocks entry canonical = true) ↔
      ∃ entry ∈ config.blockedPaths, MatchesPrefix entry canonical) := by
  rw [exists_blocks_iff, exists_matches_iff]
  unfold BlockedAsMeant
  generalize (∃ entry ∈ config.blockedPaths, star ∉ entry ∧ MatchesPrefix entry canonical) = plain
  generalize (∃ entry ∈ config.blockedPaths, star ∈ entry ∧ MatchesPrefix entry canonical) = meant
  generalize (∃ entry ∈ config.blockedPaths, star ∈ entry ∧ LossyMatch entry canonical) = read
  by_cases hplain : plain
  · simp only [hplain, true_or]
  · simp only [hplain, false_or]
    exact Iff.comm

theorem matchesPrefix_iff_lossyMatch {entry : Bytes} {canonical : CanonicalPath} (habs : isAbsolute entry = true)
    (hdot : [dot] ∉ segments entry) (hentry : ∀ segment ∈ segments entry, ∃ s, segment = utf8 s)
    (hnames : ∀ name ∈ canonical.names, ∃ s, name = utf8 s) :
    MatchesPrefix entry canonical ↔ LossyMatch entry canonical := by
  have hsegments : (segments entry).filterMap Component.ofSegment =
      (segments entry).map fun segment => if segment = [dot, dot] then .parentDir else .normal segment := by
    rw [← List.filterMap_eq_map]
    refine List.filterMap_congr fun segment hmem => ?_
    have hne : segment ≠ [dot] := fun h => hdot (h ▸ hmem)
    unfold Component.ofSegment
    rw [if_neg hne]
    exact (apply_ite some _ _ _).symm
  rw [matchesPrefix_iff habs, hsegments, matchesFront_map]
  refine matchesFront_congr fun segment hsegment name hname => ?_
  obtain ⟨s, rfl⟩ := hentry segment hsegment
  obtain ⟨t, rfl⟩ := hnames name hname
  have htext : lossyText (utf8 s) = lossyText (utf8 t) ↔ utf8 s = utf8 t := by
    rw [← toList_fromUtf8Lossy, ← toList_fromUtf8Lossy, fromUtf8Lossy_utf8, fromUtf8Lossy_utf8, String.toList_inj]
    exact utf8_injective.eq_iff.symm
  rw [htext]
  unfold Covers
  split
  · rename_i hdots
    have hne : utf8 t ≠ [dot, dot] := (canonical.proper _ hname).2.2.2
    rw [hdots]
    refine iff_of_false ?_ ?_
    · rintro (⟨h, -⟩ | h) <;> cases h
    · rintro (h | h)
      · cases h
      · exact hne h.symm
  · simp

/-- For every policy and every canonical path: `validate_path` accepts it exactly when the policy says so, if and only
if there is a whitelist, the path lies in no place that is permitted, or the blacklist is read as it is meant. -/
theorem path_policy_exact_iff (files : Files) (path : Bytes) (hcanonical : files.canonicalize path = .ok canonical) :
    ((config.validatePath env files path = .ok ()) ↔ Permits env config canonical) ↔
      config.allowedPaths ≠ [] ∨
        ¬ (config.allowSystemPaths = true ∨ ∃ base ∈ safePlaces env, Under base canonical) ∨
        BlockedAsMeant config canonical := by
  have hvalidate : config.validatePath env files path = config.validateCanonical env canonical := by
    unfold PathSecurityConfig.validatePath
    rw [hcanonical]
  have hblocks : (∀ entry ∈ config.blockedPaths, ¬ blocks entry canonical = true) ↔
      ¬ ∃ entry ∈ config.blockedPaths, blocks entry canonical = true := by
    simp only [not_exists, not_and]
  have hmatches : (∀ entry ∈ config.blockedPaths, ¬ MatchesPrefix entry canonical) ↔
      ¬ ∃ entry ∈ config.blockedPaths, MatchesPrefix entry canonical := by
    simp only [not_exists, not_and]
  rw [hvalidate, validateCanonical_ok_iff, blockedAsMeant_iff]
  unfold Permits
  rw [hblocks, hmatches]
  generalize (∃ entry ∈ config.blockedPaths, blocks entry canonical = true) = read
  generalize (∃ entry ∈ config.blockedPaths, MatchesPrefix entry canonical) = meant
  generalize (∃ allowed ∈ config.allowedPaths, Under allowed canonical) = listed
  generalize (config.allowSystemPaths = true ∨ ∃ base ∈ safePlaces env, Under base canonical) = permitted
  simp only [ne_eq]
  generalize (config.allowedPaths = []) = blacklist
  by_cases hlist : blacklist
  · by_cases hpermitted : permitted
    · simpa [hlist, hpermitted] using not_iff_not
    · simp [hlist, hpermitted]
  · simp [hlist]

end Policy

/-! ### Entries that are misread -/

def plainEnv : PathEnv := ⟨none, fun _ => ""⟩

def resolving (canonical : CanonicalPath) : Files := ⟨fun _ => true, fun _ => .ok canonical⟩

def sshKeys : CanonicalPath := ⟨["home", "alice", ".ssh"].map utf8, by decide⟩

def blocking (entry : String) : PathSecurityConfig := ⟨[], [utf8 entry], true⟩

theorem policy_exact_starred :
    (blocking "/home/*/.ssh").validatePath plainEnv (resolving sshKeys) (utf8 "/home/alice/.ssh") = .ok () ↔
      Permits plainEnv (blocking "/home/*/.ssh") sshKeys :=
  (path_policy_exact_iff plainEnv (blocking "/home/*/.ssh") sshKeys (resolving sshKeys) (utf8 "/home/alice/.ssh")
    rfl).mpr (.inr (.inr ((blockedAsMeant_iff (blocking "/home/*/.ssh") sshKeys).mpr (by decide))))

def illFormedName : CanonicalPath := ⟨[utf8 "home", utf8 "alice", [0xFF]], by decide⟩

/-- A dot in an entry with a star lets through what it is to block; a name that is no text is blocked for another. -/
theorem entries_misread :
    ((blocking "/home/./*/.ssh").validatePath plainEnv (resolving sshKeys) (utf8 "/home/alice/.ssh") = .ok () ∧
        ¬ Permits plainEnv (blocking "/home/./*/.ssh") sshKeys) ∧
      (blocking "/home/*/\uFFFD").validatePath plainEnv (resolving illFormedName) illFormedName.bytes ≠ .ok () ∧
        Permits plainEnv (blocking "/home/*/\uFFFD") illFormedName := by
  decide

end Xerv.Nodes
