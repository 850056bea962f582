import Mathlib.Data.List.Induction
import Xerv.Lib.LossyText

/-!
# Slices of UTF-8 text

A byte position of a text is a boundary where some of its characters end. ASCII texts at the front or at the end
of a text can be told by bytes as well as by characters.
-/

namespace Xerv.Lib

theorem isCont_ofNat {n : ℕ} (h : n < 256) : isCont (UInt8.ofNat n) = decide (128 ≤ n ∧ n ≤ 191) := by
  unfold isCont
  rw [Bool.decide_and]
  simp only [UInt8.le_iff_toNat_le, UInt8.toNat_ofNat', Nat.mod_eq_of_lt h]
  rfl

theorem isCont_first {n : ℕ} (h : n < 128 ∨ 192 ≤ n ∧ n < 256) : isCont (UInt8.ofNat n) = false := by
  rw [isCont_ofNat (by omega), decide_eq_false_iff_not]
  omega

theorem isCont_later (n : ℕ) : isCont (UInt8.ofNat (n % 64 + 128)) = true := by
  rw [isCont_ofNat (by omega), decide_eq_true_iff]
  omega

/-- Of the bytes of a character only the first one is no continuation byte. -/
theorem utf8EncodeChar_cont (c : Char) :
    ∃ first rest, String.utf8EncodeChar c = first :: rest ∧ isCont first = false ∧ ∀ b ∈ rest, isCont b = true := by
  unfold String.utf8EncodeChar
  dsimp only
  generalize c.val.toNat = v
  split
  · exact ⟨_, [], rfl, isCont_first (.inl (by omega)), fun b hb => absurd hb List.not_mem_nil⟩
  split
  · exact ⟨_, [_], rfl, isCont_first (.inr (by omega)), List.forall_mem_singleton.mpr (isCont_later v)⟩
  split
  · refine ⟨_, [_, _], rfl, isCont_first (.inr (by omega)), List.forall_mem_cons.mpr ⟨isCont_later _, ?_⟩⟩
    exact List.forall_mem_singleton.mpr (isCont_later v)
  · refine ⟨_, [_, _, _], rfl, isCont_first (.inr (by omega)), List.forall_mem_cons.mpr ⟨isCont_later _, ?_⟩⟩
    exact List.forall_mem_cons.mpr ⟨isCont_later _, List.forall_mem_singleton.mpr (isCont_later v)⟩

/-- A position is no continuation byte and not behind the end exactly where some of the characters take that many
bytes. -/
theorem boundary_iff (cs : List Char) (k : ℕ) :
    (k ≤ (cs.flatMap String.utf8EncodeChar).length ∧ isCont (byteAt (cs.flatMap String.utf8EncodeChar) k) = false) ↔
      ∃ front, front <+: cs ∧ (front.flatMap String.utf8EncodeChar).length = k := by
  induction cs generalizing k with
  | nil =>
    constructor
    · rintro ⟨hk, -⟩
      exact ⟨[], List.nil_prefix, (Nat.le_zero.mp hk).symm⟩
    · rintro ⟨front, hfront, rfl⟩
      rw [List.prefix_nil.mp hfront]
      exact ⟨Nat.le_refl _, by decide⟩
  | cons c cs ih =>
    obtain ⟨first, rest, hencode, hfirst, hrest⟩ := utf8EncodeChar_cont c
    have hbytes : (c :: cs).flatMap String.utf8EncodeChar = first :: rest ++ cs.flatMap String.utf8EncodeChar := by
      rw [List.flatMap_cons, hencode]
    have hfront (front : List Char) : ((c :: front).flatMap String.utf8EncodeChar).length =
        rest.length + 1 + (front.flatMap String.utf8EncodeChar).length := by
      rw [List.flatMap_cons, hencode, List.length_append, List.length_cons]
    rw [hbytes, List.length_append, List.length_cons]
    cases k with
    | zero => exact iff_of_true ⟨Nat.zero_le _, hfirst⟩ ⟨[], List.nil_prefix, rfl⟩
    | succ k =>
      by_cases hinside : k < rest.length
      · have hcont : isCont (byteAt (first :: rest ++ cs.flatMap String.utf8EncodeChar) (k + 1)) = true := by
          have hbyte : byteAt (first :: rest ++ cs.flatMap String.utf8EncodeChar) (k + 1) = rest[k] := by
            simp [byteAt, List.getD_eq_getElem?_getD, List.getElem?_append, hinside]
          rw [hbyte]
          exact hrest _ (List.getElem_mem hinside)
        refine iff_of_false (fun h => ?_) ?_
        · rw [hcont] at h
          cases h.2
        · rintro ⟨front, hpre, hlength⟩
          cases front with
          | nil => cases hlength
          | cons d front =>
            obtain ⟨rfl, -⟩ := List.cons_prefix_cons.mp hpre
            rw [hfront] at hlength
            omega
      · have hbyte : byteAt (first :: rest ++ cs.flatMap String.utf8EncodeChar) (k + 1) =
            byteAt (cs.flatMap String.utf8EncodeChar) (k - rest.length) := by
          simp [byteAt, List.getD_eq_getElem?_getD, List.getElem?_append, hinside]
        have hlater := ih (k - rest.length)
        rw [hbyte]
        constructor
        · rintro ⟨hk, hcont⟩
          obtain ⟨front, hpre, hlength⟩ := hlater.mp ⟨by omega, hcont⟩
          refine ⟨c :: front, List.cons_prefix_cons.mpr ⟨rfl, hpre⟩, ?_⟩
          rw [hfront]
          omega
        · rintro ⟨front, hpre, hlength⟩
          cases front with
          | nil => cases hlength
          | cons d front =>
            obtain ⟨rfl, hpre'⟩ := List.cons_prefix_cons.mp hpre
            rw [hfront] at hlength
            obtain ⟨hk, hcont⟩ := hlater.mpr ⟨front, hpre', by omega⟩
            exact ⟨by omega, hcont⟩

/-! ### ASCII texts inside others -/

theorem eq_of_charByte_mem {a c : Char} (ha : a.toNat < 128) (h : charByte a ∈ String.utf8EncodeChar c) : c = a := by
  have hbyte : (charByte a).toNat < 128 := by
    rw [charByte_toNat a ha]
    exact ha
  rw [encode_of_mem_ascii hbyte h, byteChar_charByte a ha]

theorem encode_ascii {text : List Char} (hascii : ∀ c ∈ text, c.toNat < 128) :
    text.flatMap String.utf8EncodeChar = text.map charByte := by
  rw [← utf8_ofList, utf8_ascii text hascii]

theorem ascii_prefix_iff {text : List Char} (hascii : ∀ c ∈ text, c.toNat < 128) (cs : List Char) :
    text.map charByte <+: cs.flatMap String.utf8EncodeChar ↔ text <+: cs := by
  constructor
  · intro h
    induction text generalizing cs with
    | nil => exact List.nil_prefix
    | cons a text ih =>
      obtain ⟨ha, htail⟩ := List.forall_mem_cons.mp hascii
      cases cs with
      | nil => exact absurd (List.prefix_nil.mp h) (List.cons_ne_nil _ _)
      | cons c cs =>
        have hmem : charByte a ∈ String.utf8EncodeChar c := by
          cases hencode : String.utf8EncodeChar c with
          | nil => exact absurd hencode String.utf8EncodeChar_ne_nil
          | cons first rest =>
            rw [List.flatMap_cons, hencode] at h
            exact List.mem_cons.mpr (.inl (List.cons_prefix_cons.mp h).1)
        obtain rfl := eq_of_charByte_mem ha hmem
        rw [List.flatMap_cons, utf8EncodeChar_ascii c ha] at h
        exact List.cons_prefix_cons.mpr ⟨rfl, ih htail cs (List.cons_prefix_cons.mp h).2⟩
  · rintro ⟨rest, rfl⟩
    rw [List.flatMap_append, encode_ascii hascii]
    exact List.prefix_append _ _

theorem concat_suffix_concat {α : Type} {l m : List α} {a b : α} : l ++ [a] <:+ m ++ [b] ↔ a = b ∧ l <:+ m := by
  rw [List.suffix_concat_iff]
  constructor
  · rintro (hnil | ⟨front, heq, hfront⟩)
    · exact absurd hnil (by simp)
    · obtain ⟨rfl, hab⟩ := List.append_inj' heq rfl
      exact ⟨List.singleton_inj.mp hab, hfront⟩
  · rintro ⟨rfl, hsuffix⟩
    exact .inr ⟨l, rfl, hsuffix⟩

theorem ascii_suffix_iff {text : List Char} (hascii : ∀ c ∈ text, c.toNat < 128) (cs : List Char) :
    text.map charByte <:+ cs.flatMap String.utf8EncodeChar ↔ text <:+ cs := by
  constructor
  · intro h
    induction text using List.reverseRecOn generalizing cs with
    | nil => exact List.nil_suffix
    | append_singleton text a ih =>
      obtain ⟨htail, ha⟩ := List.forall_mem_append.mp hascii
      rw [List.forall_mem_singleton] at ha
      rw [List.map_append, List.map_singleton] at h
      rcases List.eq_nil_or_concat cs with rfl | ⟨cs, c, rfl⟩
      · exact absurd (List.suffix_nil.mp h) (by simp)
      · rw [List.concat_eq_append, List.flatMap_append, List.flatMap_singleton] at h
        have hmem : charByte a ∈ String.utf8EncodeChar c := by
          rcases List.eq_nil_or_concat (String.utf8EncodeChar c) with hnil | ⟨rest, last, hencode⟩
          · exact absurd hnil String.utf8EncodeChar_ne_nil
          · rw [hencode, List.concat_eq_append, ← List.append_assoc] at h
            rw [hencode, List.concat_eq_append]
            rw [(concat_suffix_concat.mp h).1]
            exact List.mem_append_right _ List.mem_cons_self
        obtain rfl := eq_of_charByte_mem ha hmem
        rw [utf8EncodeChar_ascii c ha] at h
        rw [List.concat_eq_append]
        exact concat_suffix_concat.mpr ⟨rfl, ih htail cs (concat_suffix_concat.mp h).2⟩
  · rintro ⟨rest, rfl⟩
    rw [List.flatMap_append, encode_ascii hascii]
    exact List.suffix_append _ _

end Xerv.Lib
