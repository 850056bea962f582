import Mathlib.Data.List.Basic
import Mathlib.Tactic.SplitIfs

/-!
# Moving blocks inside one buffer

`moveBlock` copies byte by byte, from the end when the block moves up and from
the start when it moves down, and so has the effect of a copy through a
temporary. `runMoves` does several moves one after the other in the same buffer;
it delivers every block when no move writes over the source of a later move or
over the target of an earlier one.
-/

namespace Xerv.Lib
variable {α : Type}

abbrev inRange (start len p : ℕ) : Prop := start ≤ p ∧ p < start + len

def rangesDisjoint (x s y t : ℕ) : Prop := s = 0 ∨ t = 0 ∨ x + s ≤ y ∨ y + t ≤ x

instance (x s y t : ℕ) : Decidable (rangesDisjoint x s y t) :=
  inferInstanceAs (Decidable (_ ∨ _))

theorem rangesDisjoint_iff (x s y t : ℕ) :
    rangesDisjoint x s y t ↔ ∀ p, inRange x s p → ¬ inRange y t p := by
  unfold rangesDisjoint inRange
  constructor
  · intro h p hp
    omega
  · intro h
    by_contra hcon
    have hx := h x
    have hy := h y
    omega

theorem rangesDisjoint_comm (x s y t : ℕ) : rangesDisjoint x s y t ↔ rangesDisjoint y t x s := by
  unfold rangesDisjoint
  omega

def slice (buf : List α) (start len : ℕ) : List α := (buf.drop start).take len

theorem slice_eq_iff (buf buf' : List α) (start start' len : ℕ) :
    slice buf start len = slice buf' start' len ↔
      ∀ i < len, buf[start + i]? = buf'[start' + i]? := by
  unfold slice
  constructor
  · intro h i hi
    have hget := congrArg (fun l => l[i]?) h
    simpa [List.getElem?_take, hi, List.getElem?_drop] using hget
  · intro h
    apply List.ext_getElem?
    intro i
    rw [List.getElem?_take, List.getElem?_take, List.getElem?_drop, List.getElem?_drop]
    by_cases hi : i < len
    · simp only [hi, if_true]
      exact h i hi
    · simp only [hi, if_false]

/-! ### One write -/

/-- `buf[pos..pos + data.len()].copy_from_slice(data)`. -/
def writeAt (pos : ℕ) (data buf : List α) : List α :=
  buf.take pos ++ (data ++ buf.drop (pos + data.length))

theorem writeAt_length (pos : ℕ) (data buf : List α) (h : pos + data.length ≤ buf.length) :
    (writeAt pos data buf).length = buf.length := by
  unfold writeAt
  simp only [List.length_append, List.length_take, List.length_drop]
  omega

theorem take_writeAt (pos n : ℕ) (data buf : List α) (hn : n ≤ pos) (h : pos ≤ buf.length) :
    (writeAt pos data buf).take n = buf.take n := by
  unfold writeAt
  rw [List.take_append_of_le_length, List.take_take, Nat.min_eq_left hn]
  rw [List.length_take]
  omega

theorem slice_writeAt_before (start len pos : ℕ) (data buf : List α) (hbefore : start + len ≤ pos)
    (h : pos ≤ buf.length) : slice (writeAt pos data buf) start len = slice buf start len := by
  unfold slice
  rw [List.take_drop, List.take_drop, take_writeAt pos (start + len) data buf hbefore h]

theorem slice_writeAt_self (len pos : ℕ) (data buf : List α) (hlen : len ≤ data.length)
    (h : pos ≤ buf.length) : slice (writeAt pos data buf) pos len = data.take len := by
  have htake : (buf.take pos).length = pos := by
    rw [List.length_take]
    omega
  unfold slice writeAt
  rw [List.drop_left' htake, List.take_append_of_le_length hlen]

theorem writeAt_append (pos : ℕ) (data more buf : List α) (h : pos ≤ buf.length) :
    writeAt (pos + data.length) more (writeAt pos data buf) = writeAt pos (data ++ more) buf := by
  have htake : (buf.take pos ++ data).length = pos + data.length := by
    rw [List.length_append, List.length_take]
    omega
  unfold writeAt
  rw [← List.append_assoc (buf.take pos), List.take_left' htake, List.drop_append, htake,
    Nat.add_sub_cancel_left, List.drop_eq_nil_of_le (by omega), List.nil_append, List.drop_drop,
    List.length_append, List.append_assoc, List.append_assoc]
  congr 4
  omega

/-! ### One move -/

def copyStep (src dst : ℕ) (buf : List α) (i : ℕ) : List α :=
  match buf[src + i]? with
  | some v => buf.set (dst + i) v
  | none => buf

def copyAscending (src dst n : ℕ) (buf : List α) : List α :=
  (List.range n).foldl (copyStep src dst) buf

def copyDescending (src dst n : ℕ) (buf : List α) : List α :=
  (List.range n).reverse.foldl (copyStep src dst) buf

def moveBlock (src dst n : ℕ) (buf : List α) : List α :=
  if src < dst then copyDescending src dst n buf
  else if dst < src then copyAscending src dst n buf
  else buf

theorem copyStep_getElem? (src dst i : ℕ) (buf : List α) (hs : src + i < buf.length)
    (hd : dst + i < buf.length) (p : ℕ) :
    (copyStep src dst buf i)[p]? = if p = dst + i then buf[src + i]? else buf[p]? := by
  unfold copyStep
  rw [List.getElem?_eq_getElem hs]
  dsimp only
  rw [List.getElem?_set]
  by_cases hp : p = dst + i
  · subst hp
    simp [hd]
  · have hp' : dst + i ≠ p := fun h => hp h.symm
    simp [hp, hp']

@[simp] theorem copyStep_length (src dst i : ℕ) (buf : List α) :
    (copyStep src dst buf i).length = buf.length := by
  unfold copyStep
  cases buf[src + i]? with
  | none => rfl
  | some v => exact List.length_set

theorem foldl_copyStep_length (src dst : ℕ) (is : List ℕ) (buf : List α) :
    (is.foldl (copyStep src dst) buf).length = buf.length := by
  induction is generalizing buf with
  | nil => rfl
  | cons i is ih => rw [List.foldl_cons, ih, copyStep_length]

@[simp] theorem moveBlock_length (src dst n : ℕ) (buf : List α) :
    (moveBlock src dst n buf).length = buf.length := by
  unfold moveBlock
  split_ifs
  · exact foldl_copyStep_length src dst _ buf
  · exact foldl_copyStep_length src dst _ buf
  · rfl

theorem copyAscending_getElem? (src dst n : ℕ) (buf : List α) (hlt : dst < src)
    (hs : src + n ≤ buf.length) (p : ℕ) :
    (copyAscending src dst n buf)[p]? = if inRange dst n p then buf[src + (p - dst)]? else buf[p]? := by
  unfold inRange
  induction n generalizing p with
  | zero =>
    rw [if_neg (by omega)]
    rfl
  | succ n ih =>
    have hlen : (copyAscending src dst n buf).length = buf.length :=
      foldl_copyStep_length src dst _ buf
    have hstep : copyAscending src dst (n + 1) buf =
        copyStep src dst (copyAscending src dst n buf) n := by
      unfold copyAscending
      rw [List.range_succ, List.foldl_append]
      rfl
    have hprev := ih (by omega)
    rw [hstep, copyStep_getElem? src dst n _ (by omega) (by omega), hprev, hprev]
    by_cases hp : p = dst + n
    · subst hp
      rw [if_pos rfl, if_neg (by omega), if_pos (by omega), Nat.add_sub_cancel_left]
    · by_cases hin : dst ≤ p ∧ p < dst + n
      · rw [if_neg hp, if_pos hin, if_pos (by omega)]
      · rw [if_neg hp, if_neg hin, if_neg (by omega)]

theorem copyDescending_getElem? (src dst n : ℕ) (buf : List α) (hlt : src < dst)
    (hd : dst + n ≤ buf.length) (p : ℕ) :
    (copyDescending src dst n buf)[p]? = if inRange dst n p then buf[src + (p - dst)]? else buf[p]? := by
  unfold inRange
  induction n generalizing buf with
  | zero =>
    rw [if_neg (by omega)]
    rfl
  | succ n ih =>
    have hstep : copyDescending src dst (n + 1) buf =
        copyDescending src dst n (copyStep src dst buf n) := by
      unfold copyDescending
      rw [List.range_succ, List.reverse_append]
      rfl
    have hfirst := copyStep_getElem? src dst n buf (by omega) (by omega)
    rw [hstep, ih (copyStep src dst buf n) (by rw [copyStep_length]; omega), hfirst, hfirst]
    by_cases hp : p = dst + n
    · subst hp
      rw [if_neg (by omega), if_pos rfl, if_pos (by omega), Nat.add_sub_cancel_left]
    · by_cases hin : dst ≤ p ∧ p < dst + n
      · rw [if_pos hin, if_neg (by omega), if_pos (by omega)]
      · rw [if_neg hin, if_neg hp, if_neg (by omega)]

theorem moveBlock_getElem? (src dst n : ℕ) (buf : List α) (hs : src + n ≤ buf.length)
    (hd : dst + n ≤ buf.length) (p : ℕ) :
    (moveBlock src dst n buf)[p]? = if inRange dst n p then buf[src + (p - dst)]? else buf[p]? := by
  unfold moveBlock
  rcases Nat.lt_trichotomy src dst with hup | heq | hdown
  · rw [if_pos hup]
    exact copyDescending_getElem? src dst n buf hup hd p
  · subst heq
    rw [if_neg (Nat.lt_irrefl _), if_neg (Nat.lt_irrefl _)]
    split_ifs with hin
    · rw [show src + (p - src) = p by omega]
    · rfl
  · rw [if_neg (by omega), if_pos hdown]
    exact copyAscending_getElem? src dst n buf hdown hs p

/-! ### A sequence of moves -/

structure Move where
  src : ℕ
  dst : ℕ
  len : ℕ
  deriving DecidableEq

def Move.apply (m : Move) (buf : List α) : List α := moveBlock m.src m.dst m.len buf

def Move.Fits (m : Move) (n : ℕ) : Prop := m.src + m.len ≤ n ∧ m.dst + m.len ≤ n

instance (m : Move) (n : ℕ) : Decidable (m.Fits n) := inferInstanceAs (Decidable (_ ∧ _))

def runMoves (ms : List Move) (buf : List α) : List α := ms.foldl (fun b m => m.apply b) buf

/-- The earlier move `m` leaves the source of the later move `m'` alone, and `m'` the target of `m`. -/
def Move.Before (m m' : Move) : Prop :=
  rangesDisjoint m.dst m.len m'.src m'.len ∧ rangesDisjoint m.dst m.len m'.dst m'.len

theorem Move.apply_of_not_inRange (m : Move) (buf : List α) (hfit : m.Fits buf.length) (p : ℕ)
    (h : ¬ inRange m.dst m.len p) : (m.apply buf)[p]? = buf[p]? := by
  rw [Move.apply, moveBlock_getElem? _ _ _ _ hfit.1 hfit.2, if_neg h]

theorem Move.apply_dst (m : Move) (buf : List α) (hfit : m.Fits buf.length) (i : ℕ)
    (hi : i < m.len) : (m.apply buf)[m.dst + i]? = buf[m.src + i]? := by
  rw [Move.apply, moveBlock_getElem? _ _ _ _ hfit.1 hfit.2,
    if_pos ⟨Nat.le_add_right _ _, by omega⟩, Nat.add_sub_cancel_left]

theorem fits_after {m : Move} {ms : List Move} {buf : List α}
    (hfit : ∀ m' ∈ m :: ms, m'.Fits buf.length) : ∀ m' ∈ ms, m'.Fits (m.apply buf).length := by
  intro m' hm'
  rw [Move.apply, moveBlock_length]
  exact hfit m' (List.mem_cons_of_mem _ hm')

theorem runMoves_frame (ms : List Move) (buf : List α) (hfit : ∀ m ∈ ms, m.Fits buf.length) (p : ℕ)
    (h : ∀ m ∈ ms, ¬ inRange m.dst m.len p) : (runMoves ms buf)[p]? = buf[p]? := by
  induction ms generalizing buf with
  | nil => rfl
  | cons m ms ih =>
    have hm : m.Fits buf.length := hfit m List.mem_cons_self
    have hrest := fits_after hfit
    have hframe := ih (m.apply buf) hrest fun m' hm' => h m' (List.mem_cons_of_mem _ hm')
    exact hframe.trans (m.apply_of_not_inRange buf hm p (h m List.mem_cons_self))

theorem runMoves_delivers (ms : List Move) (buf : List α) (hfit : ∀ m ∈ ms, m.Fits buf.length)
    (hpair : ms.Pairwise Move.Before) (m : Move) (hm : m ∈ ms) (i : ℕ) (hi : i < m.len) :
    (runMoves ms buf)[m.dst + i]? = buf[m.src + i]? := by
  induction ms generalizing buf with
  | nil => exact absurd hm List.not_mem_nil
  | cons first ms ih =>
    have hfirst : first.Fits buf.length := hfit first List.mem_cons_self
    have hrest := fits_after hfit
    obtain ⟨hhead, htail⟩ := List.pairwise_cons.mp hpair
    have hrun : runMoves (first :: ms) buf = runMoves ms (first.apply buf) := rfl
    rw [hrun]
    rcases List.mem_cons.mp hm with heq | hmem
    · -- nothing after the first move writes to its target
      subst heq
      have hframe := runMoves_frame ms (m.apply buf) hrest (m.dst + i) <| by
        intro m' hm' hin
        exact (rangesDisjoint_iff _ _ _ _).mp (hhead m' hm').2 _
          ⟨Nat.le_add_right _ _, by omega⟩ hin
      rw [hframe, m.apply_dst buf hfirst i hi]
    · -- the first move leaves the source of every later one alone
      rw [ih (first.apply buf) hrest htail hmem]
      refine first.apply_of_not_inRange buf hfirst _ fun hin => ?_
      exact (rangesDisjoint_iff _ _ _ _).mp (hhead m hmem).1 _ hin
        ⟨Nat.le_add_right _ _, by omega⟩

theorem runMoves_absent (ms : List Move) (buf : List α) (hfit : ∀ m ∈ ms, m.Fits buf.length) (v : α)
    (h : ∀ p : ℕ, buf[p]? ≠ some v) (p : ℕ) : (runMoves ms buf)[p]? ≠ some v := by
  induction ms generalizing buf with
  | nil => exact h p
  | cons m ms ih =>
    have hm : m.Fits buf.length := hfit m List.mem_cons_self
    have hrest := fits_after hfit
    refine ih (m.apply buf) hrest fun q => ?_
    rw [Move.apply, moveBlock_getElem? _ _ _ _ hm.1 hm.2]
    split_ifs
    · exact h _
    · exact h _

/-- A value that stands only at `p` stays there alone while no source contains `p`, and is lost with
the first move that writes over `p`. -/
theorem runMoves_loses (ms : List Move) (buf : List α) (hfit : ∀ m ∈ ms, m.Fits buf.length) (v : α)
    (p : ℕ) (honly : ∀ q : ℕ, q ≠ p → buf[q]? ≠ some v) (pre post : List Move) (b : Move)
    (hsplit : ms = pre ++ b :: post) (hsrc : ∀ m ∈ pre ++ [b], ¬ inRange m.src m.len p)
    (hdst : inRange b.dst b.len p) (q : ℕ) : (runMoves ms buf)[q]? ≠ some v := by
  subst hsplit
  induction pre generalizing buf with
  | nil =>
    have hb : b.Fits buf.length := hfit b List.mem_cons_self
    have hrest := fits_after hfit
    have hrun : runMoves ([] ++ b :: post) buf = runMoves post (b.apply buf) := rfl
    rw [hrun]
    refine runMoves_absent post (b.apply buf) hrest v (fun r => ?_) q
    rw [Move.apply, moveBlock_getElem? _ _ _ _ hb.1 hb.2]
    have hbsrc := hsrc b List.mem_cons_self
    unfold inRange at hbsrc hdst ⊢
    split_ifs with hr
    · exact honly _ (by omega)
    · exact honly r (by omega)
  | cons m pre ih =>
    have hm : m.Fits buf.length := hfit m List.mem_cons_self
    have hrest := fits_after hfit
    have hrun : runMoves (m :: pre ++ b :: post) buf = runMoves (pre ++ b :: post) (m.apply buf) := rfl
    rw [hrun]
    have hsrc' : ∀ m' ∈ pre ++ [b], ¬ inRange m'.src m'.len p :=
      fun m' hm' => hsrc m' (List.mem_cons_of_mem _ hm')
    refine ih (m.apply buf) (fun r hr => ?_) hsrc' hrest
    rw [Move.apply, moveBlock_getElem? _ _ _ _ hm.1 hm.2]
    have hmsrc := hsrc m List.mem_cons_self
    unfold inRange at hmsrc ⊢
    split_ifs with hin
    · exact honly _ (by omega)
    · exact honly r hr

end Xerv.Lib
