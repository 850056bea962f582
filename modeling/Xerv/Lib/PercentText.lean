import Xerv.Lib.Numeral
import Xerv.Lib.Utf8

/-!
# Percent-encoded text

The bytes of a text, those of unreserved characters as they are and each other byte as `%` and two hexadecimal
digits. Decoding leaves a `%` alone that no two digits follow.
-/

namespace Xerv.Lib

/-- Letters, digits and four marks. -/
def unreserved (c : Char) : Bool := c.isAlphanum || c = '-' || c = '_' || c = '.' || c = '~'

def upperDigit (d : ℕ) : Char := (Nat.digitChar d).toUpper

def percentByte (b : UInt8) : List Char :=
  if unreserved (byteChar b) then [byteChar b]
  else ['%', upperDigit (b.toNat / 16), upperDigit (b.toNat % 16)]

def percentEncode (s : String) : List Char := (utf8 s).flatMap percentByte

def hexPair (high low : UInt8) : Option UInt8 :=
  match digitVal 16 (byteChar high), digitVal 16 (byteChar low) with
  | some h, some l => some (UInt8.ofNat (16 * h + l))
  | _, _ => none

def percentBytes : Bytes → Bytes
  | b :: high :: low :: rest =>
    if b = charByte '%' then
      match hexPair high low with
      | some c => c :: percentBytes rest
      | none => b :: percentBytes (high :: low :: rest)
    else b :: percentBytes (high :: low :: rest)
  | bs => bs

/-- No text where the decoded bytes are not UTF-8. -/
def percentDecode (s : String) : Option String := String.fromUTF8? ⟨(percentBytes (utf8 s)).toArray⟩

theorem percentBytes_cons_ne {b : UInt8} (h : b ≠ charByte '%') (rest : Bytes) :
    percentBytes (b :: rest) = b :: percentBytes rest := by
  match rest with
  | [] => rfl
  | [_] => rfl
  | _ :: _ :: _ => rw [percentBytes, if_neg h]

theorem percentBytes_plain (bs : Bytes) (h : charByte '%' ∉ bs) : percentBytes bs = bs := by
  induction bs with
  | nil => rfl
  | cons b bs ih =>
    have hb : b ≠ charByte '%' := fun he => h (by simp [he])
    have hbs : charByte '%' ∉ bs := fun hmem => h (List.mem_cons_of_mem b hmem)
    rw [percentBytes_cons_ne hb, ih hbs]

theorem upperDigit_spec (d : ℕ) (h : d < 16) :
    (upperDigit d).toNat < 128 ∧ digitVal 16 (upperDigit d) = some d ∧ unreserved (upperDigit d) = true := by
  interval_cases d <;> decide

theorem unreserved_ascii {c : Char} (h : unreserved c = true) : c.toNat < 128 := by
  have hupper : c.isUpper = true ↔ 65 ≤ c.toNat ∧ c.toNat ≤ 90 := decide_eq_true_iff
  have hlower : c.isLower = true ↔ 97 ≤ c.toNat ∧ c.toNat ≤ 122 := by
    change (decide _ && decide _) = true ↔ _
    rw [Bool.and_eq_true, decide_eq_true_iff, decide_eq_true_iff]
    rfl
  have hdigit : c.isDigit = true ↔ 48 ≤ c.toNat ∧ c.toNat ≤ 57 := by
    change (decide _ && decide _) = true ↔ _
    rw [Bool.and_eq_true, decide_eq_true_iff, decide_eq_true_iff]
    rfl
  change (((((c.isUpper || c.isLower) || c.isDigit) || decide (c = '-')) || decide (c = '_')) || decide (c = '.') ||
    decide (c = '~')) = true at h
  simp only [Bool.or_eq_true, hupper, hlower, hdigit, decide_eq_true_eq] at h
  rcases h with (((h | h) | h) | h) | h
  · omega
  · simp [h]
  · simp [h]
  · simp [h]
  · simp [h]

theorem charByte_byteChar_eq (b : UInt8) : charByte (byteChar b) = b := by
  have hb := b.toNat_lt
  have hvalid : b.toNat.isValidChar := by
    left
    omega
  have hchar : (Char.ofNat b.toNat).toNat = b.toNat := by
    rw [Char.ofNat, dif_pos hvalid]
    rfl
  rw [charByte, byteChar, hchar, UInt8.ofNat_toNat]

theorem percentBytes_percentByte (b : UInt8) (rest : Bytes) :
    percentBytes ((percentByte b).map charByte ++ rest) = b :: percentBytes rest := by
  unfold percentByte
  split
  · rename_i hkept
    have hb : b ≠ charByte '%' := by
      intro he
      rw [he] at hkept
      exact absurd hkept (by decide)
    rw [List.map_singleton, charByte_byteChar_eq]
    exact percentBytes_cons_ne hb rest
  · have hb := b.toNat_lt
    obtain ⟨hhigh, hhighVal, -⟩ := upperDigit_spec (b.toNat / 16) (by omega)
    obtain ⟨hlow, hlowVal, -⟩ := upperDigit_spec (b.toNat % 16) (by omega)
    have hpair : hexPair (charByte (upperDigit (b.toNat / 16))) (charByte (upperDigit (b.toNat % 16))) = some b := by
      unfold hexPair
      rw [byteChar_charByte _ hhigh, byteChar_charByte _ hlow, hhighVal, hlowVal]
      simp [Nat.div_add_mod]
    simp only [List.map_cons, List.map_nil, List.cons_append, List.nil_append]
    rw [percentBytes, if_pos rfl, hpair]

theorem percentBytes_encoded (bs : Bytes) : percentBytes ((bs.flatMap percentByte).map charByte) = bs := by
  induction bs with
  | nil => rfl
  | cons b bs ih => rw [List.flatMap_cons, List.map_append, percentBytes_percentByte, ih]

theorem mem_percentEncode {s : String} {c : Char} (h : c ∈ percentEncode s) : unreserved c = true ∨ c = '%' := by
  obtain ⟨b, -, hb⟩ := List.mem_flatMap.mp h
  have hlt := b.toNat_lt
  unfold percentByte at hb
  split at hb
  · rename_i hkept
    rw [List.mem_singleton] at hb
    exact .inl (hb ▸ hkept)
  · simp only [List.mem_cons, List.not_mem_nil, or_false] at hb
    rcases hb with hb | hb | hb
    · exact .inr hb
    · exact .inl (hb ▸ (upperDigit_spec _ (by omega)).2.2)
    · exact .inl (hb ▸ (upperDigit_spec _ (by omega)).2.2)

theorem fromUTF8_utf8 (s : String) : String.fromUTF8? ⟨(utf8 s).toArray⟩ = some s := by
  have hbytes : (⟨(utf8 s).toArray⟩ : ByteArray) = s.toByteArray := by
    unfold utf8
    rw [Array.toArray_toList]
  rw [hbytes, String.fromUTF8?, dif_pos s.isValidUTF8]
  rfl

theorem percentDecode_percentEncode (s : String) : percentDecode (String.ofList (percentEncode s)) = some s := by
  have hascii : ∀ c ∈ percentEncode s, c.toNat < 128 := by
    intro c hc
    rcases mem_percentEncode hc with h | rfl
    · exact unreserved_ascii h
    · decide
  rw [percentDecode, utf8_ascii _ hascii, percentEncode, percentBytes_encoded]
  exact fromUTF8_utf8 s

theorem percentDecode_unreserved (cs : List Char) (h : ∀ c ∈ cs, unreserved c = true) :
    percentDecode (String.ofList cs) = some (String.ofList cs) := by
  have hplain : charByte '%' ∉ utf8 (String.ofList cs) := by
    rw [utf8_ascii cs fun c hc => unreserved_ascii (h c hc)]
    intro hmem
    obtain ⟨c, hc, he⟩ := List.mem_map.mp hmem
    have hchar := congrArg byteChar he
    rw [byteChar_charByte c (unreserved_ascii (h c hc)), byteChar_charByte '%' (by decide)] at hchar
    have hreserved := h c hc
    rw [hchar] at hreserved
    simp [unreserved] at hreserved
  rw [percentDecode, percentBytes_plain _ hplain]
  exact fromUTF8_utf8 _

end Xerv.Lib
