import Xerv.Lib.BlockMove

/-!
# Ranges of a buffer

A range is its first place and its length, as numbers without a bound. `getSpan` is the access that
gives nothing where the range leaves the buffer, and `AgreeOutside` is the frame of what may write to
some ranges only.
-/

namespace Xerv.Lib
variable {α : Type}

/-- The `len` places from `start` on. -/
structure Span where
  start : ℕ
  len : ℕ
  deriving DecidableEq, Repr

namespace Span

def Inside (r : Span) (size : ℕ) : Prop := r.start + r.len ≤ size

def Within (r t : Span) : Prop := t.start ≤ r.start ∧ r.start + r.len ≤ t.start + t.len

def Covers (r : Span) (i : ℕ) : Prop := inRange r.start r.len i

instance (r : Span) (size : ℕ) : Decidable (r.Inside size) := inferInstanceAs (Decidable (_ ≤ _))

theorem Within.refl (r : Span) : r.Within r := ⟨Nat.le_refl _, Nat.le_refl _⟩

theorem Within.covers {r t : Span} (h : r.Within t) {i : ℕ} (hi : r.Covers i) : t.Covers i := by
  unfold Covers inRange at *
  unfold Within at h
  omega

end Span

/-- `buf.get(start..stop)`. -/
def getSpan (buf : List α) (start stop : ℕ) : Option (List α) :=
  if start ≤ stop ∧ stop ≤ buf.length then some (slice buf start (stop - start)) else none

theorem getSpan_eq_some {buf data : List α} {start stop : ℕ} :
    getSpan buf start stop = some data ↔
      start ≤ stop ∧ stop ≤ buf.length ∧ slice buf start (stop - start) = data := by
  unfold getSpan
  by_cases h : start ≤ stop ∧ stop ≤ buf.length
  · rw [if_pos h, Option.some.injEq, ← and_assoc, and_iff_right h]
  · rw [if_neg h]
    exact iff_of_false (Option.some_ne_none data).symm fun hsome => h ⟨hsome.1, hsome.2.1⟩

theorem getSpan_eq_none {buf : List α} {start stop : ℕ} :
    getSpan buf start stop = none ↔ ¬ (start ≤ stop ∧ stop ≤ buf.length) := by
  unfold getSpan
  by_cases h : start ≤ stop ∧ stop ≤ buf.length
  · rw [if_pos h]
    exact iff_of_false (Option.some_ne_none _) fun hnot => hnot h
  · rw [if_neg h]
    exact iff_of_true rfl h

theorem slice_length (buf : List α) {start len : ℕ} (h : start + len ≤ buf.length) :
    (slice buf start len).length = len := by
  unfold slice
  rw [List.length_take, List.length_drop]
  omega

theorem getSpan_length {buf data : List α} {start stop : ℕ} (h : getSpan buf start stop = some data) :
    data.length = stop - start := by
  obtain ⟨hle, hstop, rfl⟩ := getSpan_eq_some.mp h
  exact slice_length buf (by omega)

theorem getElem?_writeAt_outside (pos i : ℕ) (data buf : List α) (h : pos + data.length ≤ buf.length)
    (hi : ¬ inRange pos data.length i) : (writeAt pos data buf)[i]? = buf[i]? := by
  have htake : (buf.take pos).length = pos := by
    rw [List.length_take]
    omega
  unfold writeAt
  unfold inRange at hi
  by_cases hbefore : i < pos
  · rw [List.getElem?_append_left (by omega), List.getElem?_take_of_lt hbefore]
  · have hafter : pos + data.length ≤ i := by omega
    rw [List.getElem?_append_right (by omega), htake, List.getElem?_append_right (by omega),
      List.getElem?_drop]
    congr 1
    omega

/-- A buffer as long as the first one, and the same at all places outside the ranges. -/
structure AgreeOutside (targets : List Span) (buf buf' : List α) : Prop where
  length : buf'.length = buf.length
  same : ∀ i, (∀ r ∈ targets, ¬ r.Covers i) → buf'[i]? = buf[i]?

namespace AgreeOutside
variable {targets : List Span} {buf buf' buf'' : List α}

theorem refl (targets : List Span) (buf : List α) : AgreeOutside targets buf buf := ⟨rfl, fun _ _ => rfl⟩

theorem trans (h : AgreeOutside targets buf buf') (h' : AgreeOutside targets buf' buf'') :
    AgreeOutside targets buf buf'' :=
  ⟨h'.length.trans h.length, fun i hi => (h'.same i hi).trans (h.same i hi)⟩

theorem mono {more : List Span} (h : AgreeOutside targets buf buf') (hsub : targets ⊆ more) :
    AgreeOutside more buf buf' :=
  ⟨h.length, fun i hi => h.same i fun r hr => hi r (hsub hr)⟩

theorem writeAt {t : Span} (ht : t ∈ targets) {pos : ℕ} {data : List α}
    (hwithin : (Span.mk pos data.length).Within t) (hlen : pos + data.length ≤ buf.length) :
    AgreeOutside targets buf (writeAt pos data buf) :=
  ⟨writeAt_length pos data buf hlen, fun i hi =>
    getElem?_writeAt_outside pos i data buf hlen fun hcovered => hi t ht (hwithin.covers hcovered)⟩

theorem slice_eq (h : AgreeOutside targets buf buf') {start len : ℕ}
    (hapart : ∀ r ∈ targets, rangesDisjoint r.start r.len start len) :
    slice buf' start len = slice buf start len := by
  rw [slice_eq_iff]
  intro i hi
  refine h.same (start + i) fun r hr hcovered => ?_
  exact (rangesDisjoint_iff _ _ _ _).mp (hapart r hr) _ hcovered (by unfold inRange; omega)

end AgreeOutside

end Xerv.Lib
