import Xerv.Lib.Utf8

/-!
# ASCII separators in lossily decoded text

No ill-formed sequence takes in an ASCII byte, so decoding commutes with splitting at one.
-/

namespace Xerv.Lib

/-- `String::from_utf8_lossy`, as a list. -/
def lossyText (bs : Bytes) : List Char := decodeLossy bs.length bs

theorem toList_fromUtf8Lossy (bs : Bytes) : (fromUtf8Lossy bs).toList = lossyText bs := String.toList_ofList

theorem badPrefix_pos (bs : Bytes) : 0 < badPrefix bs := by
  unfold badPrefix
  dsimp only
  split
  · omega
  · split
    · split <;> omega
    · omega

theorem decodeLossy_fuel (fuel : ℕ) (bs : Bytes) (h : bs.length ≤ fuel) : decodeLossy fuel bs = lossyText bs := by
  unfold lossyText
  induction hn : bs.length using Nat.strong_induction_on generalizing fuel bs with
  | _ n ih =>
    subst hn
    cases bs with
    | nil => cases fuel <;> rfl
    | cons b bs =>
      obtain ⟨fuel, rfl⟩ : ∃ f, fuel = f + 1 := ⟨fuel - 1, by rw [List.length_cons] at h; omega⟩
      have hrest (k : ℕ) (hk : 0 < k) :
          decodeLossy fuel ((b :: bs).drop k) = decodeLossy bs.length ((b :: bs).drop k) := by
        have hlt : ((b :: bs).drop k).length < (b :: bs).length := by
          rw [List.length_drop, List.length_cons]
          omega
        rw [List.length_cons] at h hlt
        rw [ih _ (by rw [List.length_cons]; exact hlt) fuel _ (by omega) rfl,
          ih _ (by rw [List.length_cons]; exact hlt) bs.length _ (by omega) rfl]
      rw [List.length_cons, decodeLossy, decodeLossy]
      cases (b :: bs).toByteArray.utf8DecodeChar? 0 with
      | some c => exact congrArg (c :: ·) (hrest c.utf8Size c.utf8Size_pos)
      | none => exact congrArg ('\uFFFD' :: ·) (hrest (badPrefix (b :: bs)) (badPrefix_pos _))

theorem lossyText_cons (b : UInt8) (bs : Bytes) :
    lossyText (b :: bs) =
      match (b :: bs).toByteArray.utf8DecodeChar? 0 with
      | some c => c :: lossyText ((b :: bs).drop c.utf8Size)
      | none => '\uFFFD' :: lossyText ((b :: bs).drop (badPrefix (b :: bs))) := by
  have hrest (k : ℕ) (hk : 0 < k) : decodeLossy bs.length ((b :: bs).drop k) = lossyText ((b :: bs).drop k) := by
    refine decodeLossy_fuel _ _ ?_
    rw [List.length_drop, List.length_cons]
    omega
  unfold lossyText
  rw [List.length_cons, decodeLossy]
  cases (b :: bs).toByteArray.utf8DecodeChar? 0 with
  | some c => exact congrArg (c :: ·) (hrest c.utf8Size c.utf8Size_pos)
  | none => exact congrArg ('\uFFFD' :: ·) (hrest (badPrefix (b :: bs)) (badPrefix_pos _))

theorem lossyText_eq_nil_iff (bs : Bytes) : lossyText bs = [] ↔ bs = [] := by
  cases bs with
  | nil => exact iff_of_true rfl rfl
  | cons x xs =>
    rw [lossyText_cons]
    cases (x :: xs).toByteArray.utf8DecodeChar? 0 <;> exact iff_of_false (List.cons_ne_nil _ _) (List.cons_ne_nil _ _)

/-! ### Characters at the front -/

section Front
variable {b : UInt8} {bs xs ys : Bytes} {c : Char}

theorem decode_some_iff : bs.toByteArray.utf8DecodeChar? 0 = some c ↔ String.utf8EncodeChar c <+: bs := by
  constructor
  · intro h
    obtain ⟨l, hl⟩ := ByteArray.exists_of_utf8DecodeChar?_eq_some h
    refine ⟨l.data.toList, ?_⟩
    have hdata := congrArg (fun a => a.data.toList) hl
    simpa using hdata.symm
  · rintro ⟨rest, rfl⟩
    rw [List.toByteArray_append]
    exact ByteArray.utf8DecodeChar?_utf8EncodeChar_append

theorem byteChar_toNat (hb : b.toNat < 128) : (byteChar b).toNat = b.toNat := by
  have hvalid : b.toNat.isValidChar := .inl (by omega)
  rw [byteChar, Char.ofNat, dif_pos hvalid]
  rfl

theorem charByte_byteChar (hb : b.toNat < 128) : charByte (byteChar b) = b := by
  rw [charByte, byteChar_toNat hb, UInt8.ofNat_toNat]

theorem encode_byteChar (hb : b.toNat < 128) : String.utf8EncodeChar (byteChar b) = [b] := by
  rw [utf8EncodeChar_ascii _ (by rw [byteChar_toNat hb]; exact hb), charByte_byteChar hb]

theorem isUTF8FirstByte_ascii (hb : b.toNat < 128) : b.IsUTF8FirstByte := by
  have hfirst : ∀ n < 128, (UInt8.ofNat n).IsUTF8FirstByte := by decide
  rw [← UInt8.ofNat_toNat (x := b)]
  exact hfirst _ hb

theorem encode_of_mem_ascii (hb : b.toNat < 128) (h : b ∈ String.utf8EncodeChar c) : c = byteChar b := by
  obtain ⟨i, hi, hget⟩ := List.getElem_of_mem h
  have hfirst : (String.utf8EncodeChar c)[i].IsUTF8FirstByte := by
    rw [hget]
    exact isUTF8FirstByte_ascii hb
  have hzero : i = 0 := UInt8.isUTF8FirstByte_getElem_utf8EncodeChar.mp hfirst
  subst hzero
  have hself : (String.utf8EncodeChar c).toByteArray.utf8DecodeChar? 0 = some c :=
    decode_some_iff.mpr (List.prefix_refl _)
  have hbyte : (String.utf8EncodeChar c).toByteArray.utf8DecodeChar? 0 = some (byteChar b) := by
    rw [decode_some_iff, encode_byteChar hb]
    cases hc : String.utf8EncodeChar c with
    | nil => exact absurd hc String.utf8EncodeChar_ne_nil
    | cons x xs =>
      have hx : x = b := by simpa only [hc, List.getElem_cons_zero] using hget
      exact List.cons_prefix_cons.mpr ⟨hx.symm, List.nil_prefix⟩
  exact Option.some.inj (hself.symm.trans hbyte)

/-- What is decoded before an ASCII byte does not depend on it. -/
theorem decode_append_ascii (hb : b.toNat < 128) (hxs : xs ≠ []) :
    (xs ++ b :: ys).toByteArray.utf8DecodeChar? 0 = xs.toByteArray.utf8DecodeChar? 0 := by
  refine Option.ext fun c => ?_
  rw [decode_some_iff, decode_some_iff]
  refine ⟨fun h => ?_, fun h => h.trans (List.prefix_append xs _)⟩
  rcases List.prefix_or_prefix_of_prefix h (List.prefix_append xs (b :: ys)) with hpre | ⟨more, hmore⟩
  · exact hpre
  · cases more with
    | nil =>
      rw [List.append_nil] at hmore
      exact hmore ▸ List.prefix_refl _
    | cons d more =>
      rw [← hmore, List.prefix_append_right_inj] at h
      obtain ⟨rfl, -⟩ := List.cons_prefix_cons.mp h
      have hc := encode_of_mem_ascii hb (by rw [← hmore]; exact List.mem_append_right xs List.mem_cons_self)
      rw [hc, encode_byteChar hb] at hmore
      cases xs with
      | nil => exact absurd rfl hxs
      | cons x xs =>
        have hlength := congrArg List.length hmore
        simp at hlength

theorem not_second_ascii (hb : b.toNat < 128) (first : UInt8) :
    secondOf3 first b = false ∧ secondOf4 first b = false ∧ isCont b = false := by
  have hlow {lo : UInt8} (hlo : 128 ≤ lo.toNat) : decide (lo ≤ b) = false :=
    decide_eq_false fun h => by
      have hle := UInt8.le_iff_toNat_le.mp h
      omega
  refine ⟨?_, ?_, ?_⟩
  · unfold secondOf3
    rw [hlow (by decide), hlow (by decide)]
    simp
  · unfold secondOf4
    rw [hlow (by decide), hlow (by decide)]
    simp
  · unfold isCont
    rw [hlow (by decide)]
    rfl

theorem badPrefix_append_ascii (hb : b.toNat < 128) (hxs : xs ≠ []) :
    badPrefix (xs ++ b :: ys) = badPrefix xs ∧ badPrefix xs ≤ xs.length := by
  have hzero (first : UInt8) := not_second_ascii (b := 0) (by decide) first
  have hsecond := not_second_ascii hb
  unfold badPrefix byteAt
  match xs with
  | [] => exact absurd rfl hxs
  | [x] => simp [(hzero x).1, (hzero x).2.1, (hsecond x).1, (hsecond x).2.1]
  | [x, y] =>
    simp [(hzero x).2.2, (hsecond x).2.2]
    grind
  | x :: y :: z :: more =>
    simp
    grind

end Front

/-! ### Splitting at an ASCII byte -/

section Split
variable {b : UInt8} (hb : b.toNat < 128)
include hb

theorem lossyText_append_ascii (xs ys : Bytes) :
    lossyText (xs ++ b :: ys) = lossyText xs ++ byteChar b :: lossyText ys := by
  induction hn : xs.length using Nat.strong_induction_on generalizing xs with
  | _ n ih =>
    subst hn
    cases xs with
    | nil =>
      have hdecode : (b :: ys).toByteArray.utf8DecodeChar? 0 = some (byteChar b) := by
        rw [decode_some_iff, encode_byteChar hb]
        exact List.prefix_append [b] ys
      have hsize : (byteChar b).utf8Size = 1 := by
        rw [← String.length_utf8EncodeChar, encode_byteChar hb, List.length_singleton]
      rw [List.nil_append, lossyText_cons, hdecode]
      dsimp only
      rw [hsize]
      rfl
    | cons x xs =>
      have hne : x :: xs ≠ [] := List.cons_ne_nil x xs
      have hdrop (k : ℕ) (hk : 0 < k) (hle : k ≤ (x :: xs).length) :
          lossyText ((x :: xs ++ b :: ys).drop k) = lossyText ((x :: xs).drop k) ++ byteChar b :: lossyText ys := by
        rw [List.drop_append_of_le_length hle]
        refine ih _ ?_ _ rfl
        rw [List.length_drop, List.length_cons]
        omega
      have hbad : badPrefix (x :: xs ++ b :: ys) = badPrefix (x :: xs) ∧ badPrefix (x :: xs) ≤ (x :: xs).length :=
        badPrefix_append_ascii hb hne
      have hcons := lossyText_cons x (xs ++ b :: ys)
      rw [← List.cons_append, decode_append_ascii hb hne, hbad.1] at hcons
      rw [hcons, lossyText_cons]
      cases hdecode : (x :: xs).toByteArray.utf8DecodeChar? 0 with
      | some c =>
        have hsize := (decode_some_iff.mp hdecode).length_le
        rw [String.length_utf8EncodeChar] at hsize
        exact congrArg (c :: ·) (hdrop c.utf8Size c.utf8Size_pos hsize)
      | none => exact congrArg ('\uFFFD' :: ·) (hdrop (badPrefix (x :: xs)) (badPrefix_pos _) hbad.2)

theorem byteChar_mem_lossyText (bs : Bytes) : byteChar b ∈ lossyText bs ↔ b ∈ bs := by
  constructor
  · intro h
    induction hn : bs.length using Nat.strong_induction_on generalizing bs with
    | _ n ih =>
      subst hn
      cases bs with
      | nil => cases h
      | cons x xs =>
        have hrest (k : ℕ) (hk : 0 < k) (hmem : byteChar b ∈ lossyText ((x :: xs).drop k)) : b ∈ x :: xs := by
          refine List.mem_of_mem_drop (ih _ ?_ _ hmem rfl)
          rw [List.length_drop, List.length_cons]
          omega
        rw [lossyText_cons] at h
        cases hdecode : (x :: xs).toByteArray.utf8DecodeChar? 0 with
        | some c =>
          rw [hdecode] at h
          rcases List.mem_cons.mp h with rfl | hmem
          · have hpre := decode_some_iff.mp hdecode
            rw [encode_byteChar hb] at hpre
            exact hpre.subset (List.mem_singleton_self b)
          · exact hrest c.utf8Size c.utf8Size_pos hmem
        | none =>
          rw [hdecode] at h
          rcases List.mem_cons.mp h with heq | hmem
          · have hvalue := congrArg Char.toNat heq
            rw [byteChar_toNat hb] at hvalue
            have hlarge : ('\uFFFD').toNat = 65533 := rfl
            omega
          · exact hrest _ (badPrefix_pos _) hmem
  · intro h
    obtain ⟨xs, ys, rfl⟩ := List.append_of_mem h
    rw [lossyText_append_ascii hb]
    exact List.mem_append_right _ List.mem_cons_self

theorem lossyText_eq_singleton_iff (bs : Bytes) : lossyText bs = [byteChar b] ↔ bs = [b] := by
  constructor
  · intro h
    obtain ⟨xs, ys, rfl⟩ := List.append_of_mem
      ((byteChar_mem_lossyText hb bs).mp (by rw [h]; exact List.mem_singleton_self _))
    rw [lossyText_append_ascii hb, List.append_eq_singleton_iff] at h
    rcases h with ⟨hxs, hys⟩ | ⟨-, hcons⟩
    · have hnil := (List.cons.inj hys).2
      rw [lossyText_eq_nil_iff] at hxs hnil
      rw [hxs, hnil]
      rfl
    · cases hcons
  · rintro rfl
    have h := lossyText_append_ascii hb [] []
    rwa [List.nil_append] at h

theorem splitOn_lossyText (bs : Bytes) : (lossyText bs).splitOn (byteChar b) = (bs.splitOn b).map lossyText := by
  induction hn : bs.length using Nat.strong_induction_on generalizing bs with
  | _ n ih =>
    subst hn
    by_cases hmem : b ∈ bs
    · obtain ⟨xs, ys, rfl⟩ := List.append_of_mem hmem
      have hlength : (xs ++ b :: ys).length = xs.length + ys.length + 1 := by
        rw [List.length_append, List.length_cons]
        rfl
      rw [lossyText_append_ascii hb, List.splitOn_append_cons_self, List.splitOn_append_cons_self, List.map_append,
        ih xs.length (by omega) xs rfl, ih ys.length (by omega) ys rfl]
    · rw [List.splitOn_eq_singleton fun h => hmem ((byteChar_mem_lossyText hb bs).mp h), List.splitOn_eq_singleton hmem]
      rfl

end Split

end Xerv.Lib
