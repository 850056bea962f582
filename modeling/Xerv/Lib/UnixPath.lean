import Mathlib.Data.List.Forall2
import Xerv.Lib.LittleEndian
import Xerv.Lib.Positions

/-!
# Unix paths

A path is a list of bytes. Its components leave out empty segments and dots, save a dot at the front of
a relative path, and one path starts with another by components. A canonical path is absolute and made of
proper names.
-/

namespace Xerv.Lib

namespace UnixPath

def slash : UInt8 := 0x2F

def dot : UInt8 := 0x2E

inductive Component where
  | rootDir
  | curDir
  | parentDir
  | normal (name : Bytes)
  deriving DecidableEq

def segments (path : Bytes) : List Bytes := (path.splitOn slash).filter (· ≠ [])

def isAbsolute (path : Bytes) : Bool := path.head? = some slash

/-- What a segment is behind the front of a path. -/
def Component.ofSegment (segment : Bytes) : Option Component :=
  if segment = [dot] then none
  else if segment = [dot, dot] then some .parentDir
  else some (.normal segment)

/-- `Path::components` -/
def components (path : Bytes) : List Component :=
  (if isAbsolute path then [.rootDir] else if (path.splitOn slash).head? = some [dot] then [.curDir] else []) ++
    (segments path).filterMap Component.ofSegment

/-- `Path::starts_with` -/
def startsWith (path base : Bytes) : Bool := components base <+: components path

end UnixPath

open UnixPath

/-- What `Path::canonicalize` returns. -/
structure CanonicalPath where
  names : List Bytes
  proper : ∀ name ∈ names, name ≠ [] ∧ slash ∉ name ∧ name ≠ [dot] ∧ name ≠ [dot, dot]
  deriving DecidableEq

namespace CanonicalPath

def bytes (c : CanonicalPath) : Bytes := slash :: [slash].intercalate c.names

variable (c : CanonicalPath)

theorem isAbsolute_bytes : isAbsolute c.bytes = true := rfl

theorem segments_bytes : segments c.bytes = c.names := by
  have hnonempty : ∀ name ∈ c.names, decide (name ≠ []) = true := fun name h => decide_eq_true (c.proper name h).1
  unfold segments bytes
  rw [← List.nil_append (slash :: _), List.splitOn_append_cons_self, List.splitOn_nil]
  by_cases hnil : c.names = []
  · rw [hnil]
    rfl
  · rw [List.splitOn_intercalate slash (fun name h => (c.proper name h).2.1) hnil, List.filter_append,
      List.filter_eq_self.mpr hnonempty]
    rfl

theorem components_bytes : components c.bytes = .rootDir :: c.names.map .normal := by
  have hnames : c.names.filterMap Component.ofSegment = c.names.map .normal := by
    rw [← List.filterMap_eq_map]
    refine List.filterMap_congr fun name h => ?_
    obtain ⟨-, -, hdot, hdots⟩ := c.proper name h
    unfold Component.ofSegment
    rw [if_neg hdot, if_neg hdots]
    rfl
  unfold components
  rw [if_pos c.isAbsolute_bytes, c.segments_bytes, hnames]
  rfl

end CanonicalPath

end Xerv.Lib
