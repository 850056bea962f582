import Mathlib.Data.Nat.Digits.Lemmas
import Mathlib.Tactic.IntervalCases

/-!
# Zero-padded numerals in file names

`padded` is the `{:0w}` / `{:0wx}` family of formats and `parseUnsigned` is
`u64::from_str_radix` on an unbounded counter: an optional leading plus sign, at
least one digit, and upper or lower case letters. A padded numeral parses back
to its number.
-/

namespace Xerv.Lib

def digitVal (base : ℕ) (c : Char) : Option ℕ :=
  let v :=
    if '0' ≤ c ∧ c ≤ '9' then c.toNat - 48
    else if 'a' ≤ c ∧ c ≤ 'z' then c.toNat - 87
    else if 'A' ≤ c ∧ c ≤ 'Z' then c.toNat - 55
    else base
  if v < base then some v else none

def parseStep (base : ℕ) (acc : ℕ) (c : Char) : Option ℕ :=
  (digitVal base c).map fun d => acc * base + d

def parseDigits (base : ℕ) : List Char → Option ℕ
  | [] => none
  | c :: cs => (c :: cs).foldlM (parseStep base) 0

def parseUnsigned (base : ℕ) : List Char → Option ℕ
  | '+' :: cs => parseDigits base cs
  | cs => parseDigits base cs

def padded (base width n : ℕ) : List Char :=
  ((Nat.digits base n).reverse.map Nat.digitChar).leftpad width '0'

theorem digitVal_digitChar (base d : ℕ) (hd : d < base) (hb : base ≤ 16) :
    digitVal base (Nat.digitChar d) = some d := by
  have h16 : d < 16 := by omega
  interval_cases d <;> simp [digitVal, Nat.digitChar, hd]

theorem foldlM_digits (base : ℕ) (hb : base ≤ 16) (ds : List ℕ) (h : ∀ d ∈ ds, d < base) :
    (ds.reverse.map Nat.digitChar).foldlM (parseStep base) 0 = some (Nat.ofDigits base ds) := by
  induction ds with
  | nil => rfl
  | cons d ds ih =>
    have hd : d < base := h d List.mem_cons_self
    have hds := ih fun x hx => h x (List.mem_cons_of_mem _ hx)
    rw [List.reverse_cons, List.map_append, List.foldlM_append, hds]
    simp only [List.map_cons, List.map_nil, List.foldlM_cons, List.foldlM_nil, parseStep,
      digitVal_digitChar base d hd hb, Option.map_some, Nat.ofDigits_cons]
    simp only [Option.bind_eq_bind, Option.bind_some, pure, Option.some.injEq]
    ring

theorem foldlM_zeros (base : ℕ) (hb : 0 < base) (k : ℕ) (cs : List Char) :
    (List.replicate k '0' ++ cs).foldlM (parseStep base) 0 = cs.foldlM (parseStep base) 0 := by
  have hz : digitVal base '0' = some 0 := by simp [digitVal, hb]
  induction k with
  | zero => rfl
  | succ k ih =>
    rw [List.replicate_succ, List.cons_append, List.foldlM_cons]
    simpa only [parseStep, hz, Option.map_some, zero_mul, add_zero, Option.bind_eq_bind,
      Option.bind_some] using ih

theorem foldlM_padded (base width n : ℕ) (h1 : 1 < base) (h16 : base ≤ 16) :
    (padded base width n).foldlM (parseStep base) 0 = some n := by
  have hlt : ∀ d ∈ Nat.digits base n, d < base := fun d hd => Nat.digits_lt_base h1 hd
  rw [padded, List.leftpad, foldlM_zeros base (by omega), foldlM_digits base h16 _ hlt,
    Nat.ofDigits_digits]

theorem padded_length_ge (base width n : ℕ) : width ≤ (padded base width n).length := by
  rw [padded, List.length_leftpad]
  exact le_max_left _ _

theorem padded_length (base width n : ℕ) (h1 : 1 < base) (hn : n < base ^ width) :
    (padded base width n).length = width := by
  have hd : (Nat.digits base n).length ≤ width := (Nat.digits_length_le_iff h1 n).mpr hn
  rw [padded, List.length_leftpad, List.length_map, List.length_reverse]
  exact max_eq_left hd

theorem mem_padded (base width n : ℕ) (h1 : 1 < base) (c : Char) (h : c ∈ padded base width n) :
    c = '0' ∨ ∃ d < base, c = Nat.digitChar d := by
  rw [padded, List.leftpad, List.mem_append] at h
  rcases h with h | h
  · exact .inl (List.eq_of_mem_replicate h)
  · obtain ⟨d, hd, rfl⟩ := List.mem_map.mp h
    exact .inr ⟨d, Nat.digits_lt_base h1 (List.mem_reverse.mp hd), rfl⟩

theorem digitChar_ascii (d : ℕ) (h : d < 16) : (Nat.digitChar d).toNat < 128 := by
  interval_cases d <;> decide

theorem padded_ascii (base width n : ℕ) (h1 : 1 < base) (h16 : base ≤ 16) (c : Char)
    (h : c ∈ padded base width n) : c.toNat < 128 := by
  rcases mem_padded base width n h1 c h with hc | ⟨d, hd, hc⟩
  · rw [hc]
    decide
  · rw [hc]
    exact digitChar_ascii d (by omega)

theorem digitChar_ne_plus (d : ℕ) (h : d < 16) : Nat.digitChar d ≠ '+' := by
  interval_cases d <;> decide

theorem head_padded_ne_plus (base width n : ℕ) (h1 : 1 < base) (h16 : base ≤ 16) (c : Char)
    (cs : List Char) (h : padded base width n = c :: cs) : c ≠ '+' := by
  have hc : c ∈ padded base width n := by
    rw [h]
    exact List.mem_cons_self
  rcases mem_padded base width n h1 c hc with hc | ⟨d, hd, hc⟩
  · rw [hc]
    decide
  · rw [hc]
    exact digitChar_ne_plus d (by omega)

theorem parseUnsigned_padded (base width n : ℕ) (h1 : 1 < base) (h16 : base ≤ 16)
    (hw : 0 < width) : parseUnsigned base (padded base width n) = some n := by
  have hfold := foldlM_padded base width n h1 h16
  cases hp : padded base width n with
  | nil =>
    have hlen := padded_length_ge base width n
    rw [hp, List.length_nil] at hlen
    omega
  | cons c cs =>
    have hne := head_padded_ne_plus base width n h1 h16 c cs hp
    rw [hp] at hfold
    unfold parseUnsigned
    split
    · rename_i heq
      exact absurd (List.cons.inj heq).1 hne
    · exact hfold

theorem foldlM_parseStep_isSome (base acc : ℕ) (cs : List Char)
    (h : ∀ c ∈ cs, ∃ d, digitVal base c = some d) : ∃ n, cs.foldlM (parseStep base) acc = some n := by
  induction cs generalizing acc with
  | nil => exact ⟨acc, rfl⟩
  | cons c cs ih =>
    obtain ⟨d, hd⟩ := h c List.mem_cons_self
    obtain ⟨n, hn⟩ := ih (acc * base + d) fun x hx => h x (List.mem_cons_of_mem _ hx)
    refine ⟨n, ?_⟩
    rw [List.foldlM_cons, parseStep, hd]
    exact hn

theorem digitVal_lt {base d : ℕ} {c : Char} (h : digitVal base c = some d) : d < base := by
  unfold digitVal at h
  dsimp only at h
  generalize (if '0' ≤ c ∧ c ≤ '9' then c.toNat - 48 else if 'a' ≤ c ∧ c ≤ 'z' then c.toNat - 87
    else if 'A' ≤ c ∧ c ≤ 'Z' then c.toNat - 55 else base) = v at h
  split at h
  · rename_i hlt
    rwa [← Option.some.inj h]
  · cases h

theorem foldlM_parseStep_div {base acc n : ℕ} {cs : List Char} (h : cs.foldlM (parseStep base) acc = some n) :
    n / base ^ cs.length = acc := by
  induction cs generalizing acc with
  | nil =>
    obtain rfl := Option.some.inj h
    exact Nat.div_one acc
  | cons c cs ih =>
    rw [List.foldlM_cons, parseStep] at h
    cases hdigit : digitVal base c with
    | none =>
      rw [hdigit] at h
      cases h
    | some d =>
      rw [hdigit] at h
      have hlt := digitVal_lt hdigit
      have hrest : n / base ^ cs.length = acc * base + d := ih h
      rw [List.length_cons, pow_succ, ← Nat.div_div_eq_div_mul, hrest, Nat.add_comm,
        Nat.add_mul_div_right _ _ (by omega), Nat.div_eq_of_lt hlt, Nat.zero_add]

/-- The leading digits of a numeral are the numeral of what is left when the others are divided off. -/
theorem parseUnsigned_take_padded (base width n k : ℕ) (h1 : 1 < base) (h16 : base ≤ 16) (hk : 0 < k)
    (hw : k ≤ width) : parseUnsigned base ((padded base width n).take k) =
      some (n / base ^ ((padded base width n).length - k)) := by
  have hdigit : ∀ c ∈ (padded base width n).take k, c ≠ '+' ∧ ∃ d, digitVal base c = some d := by
    intro c hc
    rcases mem_padded base width n h1 c (List.mem_of_mem_take hc) with hc | ⟨d, hd, hc⟩
    · rw [hc]
      refine ⟨by decide, 0, ?_⟩
      rw [← digitVal_digitChar base 0 (by omega) h16]
      rfl
    · rw [hc]
      exact ⟨digitChar_ne_plus d (by omega), d, digitVal_digitChar base d hd h16⟩
  have hlen := padded_length_ge base width n
  obtain ⟨m, hm⟩ := foldlM_parseStep_isSome base 0 _ fun x hx => (hdigit x hx).2
  have hall := foldlM_padded base width n h1 h16
  rw [← List.take_append_drop k (padded base width n), List.foldlM_append, hm] at hall
  have hdiv := foldlM_parseStep_div hall
  rw [List.length_drop] at hdiv
  cases hcs : (padded base width n).take k with
  | nil =>
    have hzero := congrArg List.length hcs
    rw [List.length_take, List.length_nil] at hzero
    omega
  | cons c cs =>
    rw [hcs] at hdigit hm
    rw [hdiv]
    unfold parseUnsigned
    split
    · rename_i heq
      exact absurd (List.cons.inj heq).1 (hdigit c List.mem_cons_self).1
    · exact hm

end Xerv.Lib
