import Xerv.Lib.LittleEndian

/-!
# UTF-8 and lossy decoding

`utf8` is `str::as_bytes`; `fromUtf8Lossy` is `String::from_utf8_lossy`: every
maximal ill-formed prefix is replaced by one U+FFFD, and a well-formed string
decodes to itself.
-/

namespace Xerv.Lib

def utf8 (s : String) : Bytes := s.toByteArray.data.toList

def isCont (b : UInt8) : Bool := 0x80 ≤ b && b ≤ 0xBF

def byteAt (bs : Bytes) (i : ℕ) : UInt8 := bs.getD i 0

/-- Second bytes allowed after the first byte of a three-byte sequence. -/
def secondOf3 (first next : UInt8) : Bool :=
  (first == 0xE0 && 0xA0 ≤ next && next ≤ 0xBF) ||
  (0xE1 ≤ first && first ≤ 0xEC && 0x80 ≤ next && next ≤ 0xBF) ||
  (first == 0xED && 0x80 ≤ next && next ≤ 0x9F) ||
  (0xEE ≤ first && first ≤ 0xEF && 0x80 ≤ next && next ≤ 0xBF)

/-- Second bytes allowed after the first byte of a four-byte sequence. -/
def secondOf4 (first next : UInt8) : Bool :=
  (first == 0xF0 && 0x90 ≤ next && next ≤ 0xBF) ||
  (0xF1 ≤ first && first ≤ 0xF3 && 0x80 ≤ next && next ≤ 0xBF) ||
  (first == 0xF4 && 0x80 ≤ next && next ≤ 0x8F)

/-- Length of the ill-formed prefix replaced by one U+FFFD. -/
def badPrefix (bs : Bytes) : ℕ :=
  let first := byteAt bs 0
  if secondOf3 first (byteAt bs 1) then 2
  else if secondOf4 first (byteAt bs 1) then
    if isCont (byteAt bs 2) then 3 else 2
  else 1

def decodeLossy : ℕ → Bytes → List Char
  | 0, _ => []
  | _, [] => []
  | fuel + 1, b :: bs =>
    match (b :: bs).toByteArray.utf8DecodeChar? 0 with
    | some c => c :: decodeLossy fuel ((b :: bs).drop c.utf8Size)
    | none => '\uFFFD' :: decodeLossy fuel ((b :: bs).drop (badPrefix (b :: bs)))

def fromUtf8Lossy (bs : Bytes) : String := String.ofList (decodeLossy bs.length bs)

theorem byteArray_toList_loop (bs : ByteArray) (i : ℕ) (collected : List UInt8) :
    ByteArray.toList.loop bs i collected = collected.reverse ++ bs.data.toList.drop i := by
  fun_induction ByteArray.toList.loop bs i collected with
  | case1 i collected hi ih =>
    have hlength : i < bs.data.toList.length := by simpa using hi
    have hget : bs.get! i = bs.data.toList[i] := getElem!_pos bs.data i (by simpa using hi)
    rw [ih, List.reverse_cons, List.append_assoc, List.singleton_append, hget,
      ← List.drop_eq_getElem_cons hlength]
  | case2 i collected hi =>
    rw [List.drop_eq_nil_of_le (by simpa using hi), List.append_nil]

theorem toUTF8_toList (s : String) : s.toUTF8.toList = utf8 s := by
  rw [ByteArray.toList, byteArray_toList_loop]
  rfl

theorem utf8_ofList (cs : List Char) :
    utf8 (String.ofList cs) = cs.flatMap String.utf8EncodeChar := by
  unfold utf8
  rw [String.toByteArray_ofList]
  simp [List.utf8Encode]

theorem utf8_eq_flatMap (s : String) : utf8 s = s.toList.flatMap String.utf8EncodeChar := by
  have h := utf8_ofList s.toList
  rwa [String.ofList_toList] at h

theorem utf8_eq_nil_iff (s : String) : utf8 s = [] ↔ s = "" := by
  rw [utf8_eq_flatMap]
  constructor
  · intro h
    have hnil : s.toList = [] := by
      cases hs : s.toList with
      | nil => rfl
      | cons c cs =>
        rw [hs, List.flatMap_cons] at h
        have hlen := congrArg List.length h
        have hpos := c.utf8Size_pos
        simp only [List.length_append, String.length_utf8EncodeChar, List.length_nil] at hlen
        omega
    exact String.toList_eq_nil_iff.mp hnil
  · rintro rfl
    rfl

theorem decodeLossy_encode_cons (fuel : ℕ) (c : Char) (rest : Bytes) :
    decodeLossy (fuel + 1) (String.utf8EncodeChar c ++ rest) = c :: decodeLossy fuel rest := by
  have hdec : (String.utf8EncodeChar c ++ rest).toByteArray.utf8DecodeChar? 0 = some c := by
    rw [List.toByteArray_append]
    exact ByteArray.utf8DecodeChar?_utf8EncodeChar_append
  have hdrop : (String.utf8EncodeChar c ++ rest).drop c.utf8Size = rest :=
    List.drop_left' (String.length_utf8EncodeChar c)
  cases hb : String.utf8EncodeChar c ++ rest with
  | nil =>
    have hlen := congrArg List.length hb
    have hpos := c.utf8Size_pos
    simp only [List.length_append, String.length_utf8EncodeChar, List.length_nil] at hlen
    omega
  | cons b bs =>
    rw [hb] at hdec hdrop
    simp only [decodeLossy, hdec, hdrop]

theorem decodeLossy_encode (cs : List Char) (fuel : ℕ)
    (h : (cs.flatMap String.utf8EncodeChar).length ≤ fuel) :
    decodeLossy fuel (cs.flatMap String.utf8EncodeChar) = cs := by
  induction cs generalizing fuel with
  | nil => cases fuel <;> rfl
  | cons c cs ih =>
    rw [List.flatMap_cons] at h ⊢
    have hpos := c.utf8Size_pos
    rw [List.length_append, String.length_utf8EncodeChar] at h
    obtain ⟨f, rfl⟩ : ∃ f, fuel = f + 1 := ⟨fuel - 1, by omega⟩
    rw [decodeLossy_encode_cons, ih f (by omega)]

theorem fromUtf8Lossy_utf8 (s : String) : fromUtf8Lossy (utf8 s) = s := by
  have h : decodeLossy (utf8 s).length (utf8 s) = s.toList := by
    rw [utf8_eq_flatMap]
    exact decodeLossy_encode s.toList _ le_rfl
  rw [fromUtf8Lossy, h, String.ofList_toList]

theorem utf8_injective : Function.Injective utf8 := fun s t h => by
  rw [← fromUtf8Lossy_utf8 s, h, fromUtf8Lossy_utf8]

/-! ### ASCII -/

def charByte (c : Char) : UInt8 := UInt8.ofNat c.toNat

def byteChar (b : UInt8) : Char := Char.ofNat b.toNat

theorem charByte_toNat (c : Char) (h : c.toNat < 128) : (charByte c).toNat = c.toNat := by
  rw [charByte, UInt8.toNat_ofNat']
  exact Nat.mod_eq_of_lt (by omega)

theorem byteChar_charByte (c : Char) (h : c.toNat < 128) : byteChar (charByte c) = c := by
  rw [byteChar, charByte_toNat c h, Char.ofNat_toNat]

theorem utf8EncodeChar_ascii (c : Char) (h : c.toNat < 128) :
    String.utf8EncodeChar c = [charByte c] := by
  have hsize : c.utf8Size = 1 := by
    rw [Char.utf8Size_eq_one_iff]
    exact UInt32.le_iff_toNat_le.mpr (by simpa using Nat.le_of_lt_succ h)
  rw [String.utf8EncodeChar_eq_singleton hsize]
  rfl

theorem utf8_ascii (cs : List Char) (h : ∀ c ∈ cs, c.toNat < 128) :
    utf8 (String.ofList cs) = cs.map charByte := by
  rw [utf8_ofList]
  induction cs with
  | nil => rfl
  | cons c cs ih =>
    rw [List.flatMap_cons, utf8EncodeChar_ascii c (h c List.mem_cons_self),
      ih fun x hx => h x (List.mem_cons_of_mem _ hx)]
    rfl

end Xerv.Lib
