import Mathlib.Data.Nat.Notation
import Xerv.Lib.Positions

/-!
# Texts with placeholders

Two marks in a row open a placeholder and a third one closes it, as in `a ${b} c`. What a
body stands for is a relation. `Reads` says of which pieces a text consists and how many
openings it gives up: one is given up where another follows before the closing mark. The
texts that give up none are the templates proper.
-/

namespace Xerv.Lib.Template

structure Marks (α : Type) where
  sigil : α
  opener : α
  closer : α
  opener_ne_sigil : opener ≠ sigil
  closer_ne_sigil : closer ≠ sigil
  closer_ne_opener : closer ≠ opener

/-- A character that is kept, or a placeholder. -/
inductive Piece (α β : Type) where
  | char (c : α)
  | hole (b : β)

variable {α β : Type}

def holes : List (Piece α β) → List β
  | [] => []
  | .char _ :: ps => holes ps
  | .hole b :: ps => b :: holes ps

/-- The text in which the values stand in place of the placeholders. -/
def splice : List (Piece α β) → List (List α) → List α
  | [], _ => []
  | .char c :: ps, vs => c :: splice ps vs
  | .hole _ :: ps, v :: vs => v ++ splice ps vs
  | .hole _ :: ps, [] => splice ps []

theorem holes_append (ps qs : List (Piece α β)) : holes (ps ++ qs) = holes ps ++ holes qs := by
  induction ps with
  | nil => rfl
  | cons p ps ih =>
    cases p with
    | char c => exact ih
    | hole b => exact congrArg (b :: ·) ih

theorem holes_text (text : List α) : holes (text.map Piece.char : List (Piece α β)) = [] := by
  induction text with
  | nil => rfl
  | cons c text ih => exact ih

variable (m : Marks α)

def Marks.Opens (text : List α) : Prop := ∃ rest, text = m.sigil :: m.opener :: rest

def Marks.NoOpening (text : List α) : Prop := ¬ [m.sigil, m.opener] <:+: text

inductive Reads (IsBody : List α → β → Prop) : ℕ → List α → List (Piece α β) → Prop where
  | nil : Reads IsBody 0 [] []
  | char {n c rest ps} (hplain : ¬ m.Opens (c :: rest)) (hrest : Reads IsBody n rest ps) :
    Reads IsBody n (c :: rest) (.char c :: ps)
  | hole {n text body rest b ps} (htext : text = m.sigil :: m.opener :: (body ++ m.closer :: rest))
    (hbody : IsBody body b) (hrest : Reads IsBody n rest ps) : Reads IsBody n text (.hole b :: ps)
  | givenUp {n text skipped rest ps} (hskipped : m.NoOpening skipped) (hopen : m.closer ∉ skipped)
    (htext : text = m.sigil :: m.opener :: (skipped ++ m.sigil :: m.opener :: rest))
    (hrest : Reads IsBody n (m.sigil :: m.opener :: rest) ps) : Reads IsBody (n + 1) text ps

variable {m}

/-! ### Openings -/

theorem noOpening_nil : m.NoOpening [] := by simp [Marks.NoOpening]

theorem opens_iff_prefix (text : List α) : m.Opens text ↔ [m.sigil, m.opener] <+: text := by
  constructor
  · rintro ⟨rest, rfl⟩
    exact ⟨rest, rfl⟩
  · rintro ⟨rest, rfl⟩
    exact ⟨rest, rfl⟩

theorem noOpening_cons (c : α) (text : List α) :
    m.NoOpening (c :: text) ↔ ¬ m.Opens (c :: text) ∧ m.NoOpening text := by
  unfold Marks.NoOpening
  rw [List.infix_cons_iff, not_or, opens_iff_prefix]

theorem not_opens_append {c : α} {text rest : List α} (h : m.NoOpening (c :: text))
    (hrest : rest.head? ≠ some m.opener) : ¬ m.Opens (c :: (text ++ rest)) := by
  rintro ⟨tail, heq⟩
  obtain ⟨hc, htail⟩ := List.cons.inj heq
  cases text with
  | nil =>
    rw [List.nil_append] at htail
    rw [htail] at hrest
    exact hrest rfl
  | cons d text =>
    obtain ⟨hd, -⟩ := List.cons.inj htail
    exact ((noOpening_cons c (d :: text)).mp h).1 ⟨text, by rw [hc, hd]⟩

theorem head_opening (rest : List α) : (m.sigil :: m.opener :: rest).head? ≠ some m.opener := by
  rw [List.head?_cons]
  exact fun h => m.opener_ne_sigil (Option.some.inj h).symm

theorem noOpening_of_opener {text : List α} (h : m.opener ∉ text) : m.NoOpening text := by
  intro hinner
  exact h (hinner.subset (List.mem_cons_of_mem _ List.mem_cons_self))

/-- What comes first inside a placeholder: the closing mark, another opening, or the end. -/
theorem next_mark (text : List α) :
    (∃ body rest, m.NoOpening body ∧ m.closer ∉ body ∧ text = body ++ m.closer :: rest) ∨
      (∃ skipped rest, m.NoOpening skipped ∧ m.closer ∉ skipped ∧
        text = skipped ++ m.sigil :: m.opener :: rest) ∨
      (m.NoOpening text ∧ m.closer ∉ text) := by
  induction text with
  | nil => exact .inr (.inr ⟨noOpening_nil, List.not_mem_nil⟩)
  | cons c text ih =>
    by_cases hopens : m.Opens (c :: text)
    · obtain ⟨rest, heq⟩ := hopens
      exact .inr (.inl ⟨[], rest, noOpening_nil, List.not_mem_nil, heq⟩)
    by_cases hc : c = m.closer
    · exact .inl ⟨[], text, noOpening_nil, List.not_mem_nil, by rw [hc]; rfl⟩
    have hcloser {w : List α} (hw : m.closer ∉ w) : m.closer ∉ c :: w := by
      intro hmem
      exact (List.mem_cons.mp hmem).elim (fun h => hc h.symm) hw
    have hnone {w rest : List α} (htext : text = w ++ rest) (hw : m.NoOpening w) : m.NoOpening (c :: w) := by
      refine (noOpening_cons c w).mpr ⟨?_, hw⟩
      rintro ⟨tail, heq⟩
      obtain ⟨rfl, rfl⟩ := List.cons.inj heq
      exact hopens ⟨tail ++ rest, by rw [htext]; rfl⟩
    rcases ih with ⟨body, rest, hbody, hmem, htext⟩ | ⟨skipped, rest, hskipped, hmem, htext⟩ | ⟨hall, hmem⟩
    · exact .inl ⟨c :: body, rest, hnone htext hbody, hcloser hmem, by rw [htext]; rfl⟩
    · exact .inr (.inl ⟨c :: skipped, rest, hnone htext hskipped, hcloser hmem, by rw [htext]; rfl⟩)
    · exact .inr (.inr ⟨(noOpening_cons c text).mpr ⟨hopens, hall⟩, hcloser hmem⟩)

/-- The first opening behind a text without openings. -/
theorem opening_unique {w w' rest rest' : List α} (hw : m.NoOpening w) (hw' : m.NoOpening w')
    (h : w ++ m.sigil :: m.opener :: rest = w' ++ m.sigil :: m.opener :: rest') :
    w = w' ∧ rest = rest' := by
  induction w generalizing w' with
  | nil =>
    cases w' with
    | nil => exact ⟨rfl, (List.cons.inj (List.cons.inj h).2).2⟩
    | cons c w' => exact absurd ⟨rest, h.symm⟩ (not_opens_append hw' (head_opening rest'))
  | cons c w ih =>
    cases w' with
    | nil => exact absurd ⟨rest', h⟩ (not_opens_append hw (head_opening rest))
    | cons d w' =>
      obtain ⟨rfl, htail⟩ := List.cons.inj h
      obtain ⟨rfl, hrest⟩ := ih ((noOpening_cons c w).mp hw).2 ((noOpening_cons c w').mp hw').2 htail
      exact ⟨rfl, hrest⟩

/-! ### Readings -/

variable {IsBody : List α → β → Prop}

theorem Reads.append_text {n : ℕ} {text rest : List α} {ps : List (Piece α β)} (hrest : Reads m IsBody n rest ps)
    (hhead : rest.head? ≠ some m.opener) (h : m.NoOpening text) :
    Reads m IsBody n (text ++ rest) (text.map Piece.char ++ ps) := by
  induction text with
  | nil => exact hrest
  | cons c text ih => exact .char (not_opens_append h hhead) (ih ((noOpening_cons c text).mp h).2)

theorem closed_not_givenUp {body rest skipped rest' : List α} (hopener : m.opener ∉ body)
    (hcloser : m.closer ∉ skipped)
    (h : body ++ m.closer :: rest = skipped ++ m.sigil :: m.opener :: rest') : False := by
  induction body generalizing skipped with
  | nil =>
    cases skipped with
    | nil => exact m.closer_ne_sigil (List.cons.inj h).1
    | cons c skipped => exact hcloser (List.mem_cons.mpr (.inl (List.cons.inj h).1))
  | cons c body ih =>
    rw [List.mem_cons, not_or] at hopener
    cases skipped with
    | nil =>
      obtain ⟨-, htail⟩ := List.cons.inj h
      cases body with
      | nil => exact m.closer_ne_opener (List.cons.inj htail).1
      | cons d body => exact hopener.2 (List.mem_cons.mpr (.inl (List.cons.inj htail).1.symm))
    | cons d skipped =>
      rw [List.mem_cons, not_or] at hcloser
      exact ih hopener.2 hcloser.2 (List.cons.inj h).2

theorem reads_nil_iff {n : ℕ} {ps : List (Piece α β)} : Reads m IsBody n [] ps ↔ n = 0 ∧ ps = [] := by
  constructor
  · intro h
    cases h with
    | nil => exact ⟨rfl, rfl⟩
    | hole htext => cases htext
    | givenUp _ _ htext => cases htext
  · rintro ⟨rfl, rfl⟩
    exact .nil

theorem reads_char_iff {n : ℕ} {c : α} {rest : List α} {ps : List (Piece α β)} (hplain : ¬ m.Opens (c :: rest)) :
    Reads m IsBody n (c :: rest) ps ↔ ∃ ps', ps = .char c :: ps' ∧ Reads m IsBody n rest ps' := by
  constructor
  · intro h
    cases h with
    | char _ hrest => exact ⟨_, rfl, hrest⟩
    | hole htext => exact absurd ⟨_, htext⟩ hplain
    | givenUp _ _ htext => exact absurd ⟨_, htext⟩ hplain
  · rintro ⟨ps', rfl, hrest⟩
    exact .char hplain hrest

theorem opening_cons_inj {text text' : List α}
    (h : m.sigil :: m.opener :: text = m.sigil :: m.opener :: text') : text = text' :=
  (List.cons.inj (List.cons.inj h).2).2

theorem reads_opening_iff {n : ℕ} {text : List α} {ps : List (Piece α β)} :
    Reads m IsBody n (m.sigil :: m.opener :: text) ps ↔
      (∃ body rest b ps', text = body ++ m.closer :: rest ∧ IsBody body b ∧ ps = .hole b :: ps' ∧
        Reads m IsBody n rest ps') ∨
      ∃ k skipped rest, n = k + 1 ∧ m.NoOpening skipped ∧ m.closer ∉ skipped ∧
        text = skipped ++ m.sigil :: m.opener :: rest ∧
        Reads m IsBody k (m.sigil :: m.opener :: rest) ps := by
  constructor
  · intro h
    cases h with
    | char hplain _ => exact absurd ⟨text, rfl⟩ hplain
    | hole htext hbody hrest => exact .inl ⟨_, _, _, _, opening_cons_inj htext, hbody, rfl, hrest⟩
    | givenUp hskipped hopen htext hrest =>
      exact .inr ⟨_, _, _, rfl, hskipped, hopen, opening_cons_inj htext, hrest⟩
  · rintro (⟨body, rest, b, ps', rfl, hbody, rfl, hrest⟩ | ⟨k, skipped, rest, rfl, hskipped, hopen, rfl, hrest⟩)
    · exact .hole rfl hbody hrest
    · exact .givenUp hskipped hopen rfl hrest

/-- Where bodies hold neither an opening mark nor the closing one and stand for one thing each, a text
has at most one reading. -/
theorem Reads.unique (hmarks : ∀ body b, IsBody body b → m.opener ∉ body ∧ m.closer ∉ body)
    (hone : ∀ body b b', IsBody body b → IsBody body b' → b = b') {n n' : ℕ} {text : List α}
    {ps ps' : List (Piece α β)} (h : Reads m IsBody n text ps) (h' : Reads m IsBody n' text ps') :
    n = n' ∧ ps = ps' := by
  induction h generalizing n' ps' with
  | nil =>
    obtain ⟨rfl, rfl⟩ := reads_nil_iff.mp h'
    exact ⟨rfl, rfl⟩
  | char hplain _ ih =>
    obtain ⟨ps'', rfl, hrest'⟩ := (reads_char_iff hplain).mp h'
    obtain ⟨rfl, rfl⟩ := ih hrest'
    exact ⟨rfl, rfl⟩
  | @hole n text body rest b ps htext hbody _ ih =>
    subst htext
    obtain ⟨body', rest', b', ps'', heq, hbody', rfl, hrest'⟩ | ⟨k, skipped', rest', rfl, -, hskipped', heq, -⟩ :=
      reads_opening_iff.mp h'
    · obtain ⟨rfl, rfl⟩ := append_cons_inj (hmarks _ _ hbody).2 (hmarks _ _ hbody').2 heq
      obtain ⟨rfl, rfl⟩ := ih hrest'
      rw [hone _ _ _ hbody hbody']
      exact ⟨rfl, rfl⟩
    · exact (closed_not_givenUp (hmarks _ _ hbody).1 hskipped' heq).elim
  | @givenUp n text skipped rest ps hplain hskipped htext _ ih =>
    subst htext
    obtain ⟨body', rest', b', ps'', heq, hbody', rfl, -⟩ | ⟨k, skipped', rest', rfl, hplain', -, heq, hrest'⟩ :=
      reads_opening_iff.mp h'
    · exact (closed_not_givenUp (hmarks _ _ hbody').1 hskipped heq.symm).elim
    · obtain ⟨rfl, rfl⟩ := opening_unique hplain hplain' heq
      obtain ⟨rfl, rfl⟩ := ih hrest'
      exact ⟨rfl, rfl⟩

/-! ### Readings that give up no opening -/

theorem reads_and_iff {P : List α → β → Prop} {Q : β → Prop} {n : ℕ} {text : List α} {ps : List (Piece α β)} :
    Reads m (fun body b => P body b ∧ Q b) n text ps ↔ Reads m P n text ps ∧ ∀ b ∈ holes ps, Q b := by
  constructor
  · intro h
    induction h with
    | nil => exact ⟨.nil, fun _ h => absurd h List.not_mem_nil⟩
    | char hplain _ ih => exact ⟨.char hplain ih.1, ih.2⟩
    | hole htext hbody _ ih => exact ⟨.hole htext hbody.1 ih.1, List.forall_mem_cons.mpr ⟨hbody.2, ih.2⟩⟩
    | givenUp hskipped hopen htext _ ih => exact ⟨.givenUp hskipped hopen htext ih.1, ih.2⟩
  · rintro ⟨h, hall⟩
    induction h with
    | nil => exact .nil
    | char hplain _ ih => exact .char hplain (ih hall)
    | hole htext hbody _ ih =>
      obtain ⟨hfirst, hlater⟩ := List.forall_mem_cons.mp hall
      exact .hole htext ⟨hbody, hfirst⟩ (ih hlater)
    | givenUp hskipped hopen htext _ ih => exact .givenUp hskipped hopen htext (ih hall)

theorem Reads.map {γ : Type} {P : List α → β → Prop} {Q : List α → γ → Prop} {R : β → γ → Prop}
    (hbodies : ∀ body b, P body b → ∃ c, Q body c ∧ R b c) {n : ℕ} {text : List α} {ps : List (Piece α β)}
    (h : Reads m P n text ps) : ∃ qs, Reads m Q n text qs ∧ ∀ c ∈ holes qs, ∃ b ∈ holes ps, R b c := by
  induction h with
  | nil => exact ⟨[], .nil, fun _ h => absurd h List.not_mem_nil⟩
  | @char _ c _ _ hplain _ ih =>
    obtain ⟨qs, hreads, hall⟩ := ih
    exact ⟨.char c :: qs, .char hplain hreads, hall⟩
  | @hole _ _ _ _ b ps htext hbody _ ih =>
    obtain ⟨qs, hreads, hall⟩ := ih
    obtain ⟨c, hc, hrel⟩ := hbodies _ _ hbody
    refine ⟨.hole c :: qs, .hole htext hc hreads, List.forall_mem_cons.mpr ⟨⟨b, List.mem_cons_self, hrel⟩, ?_⟩⟩
    intro later hlater
    obtain ⟨b', hb', hrel'⟩ := hall later hlater
    exact ⟨b', List.mem_cons_of_mem _ hb', hrel'⟩
  | givenUp hskipped hopen htext _ ih =>
    obtain ⟨qs, hreads, hall⟩ := ih
    exact ⟨qs, .givenUp hskipped hopen htext hreads, hall⟩

/-- Where the text says at which closing mark a body ends, it has at most one reading. -/
theorem Reads.unique_cut
    (hcut : ∀ body body' rest rest' b b', IsBody body b → IsBody body' b' →
      body ++ m.closer :: rest = body' ++ m.closer :: rest' → body = body' ∧ b = b')
    {n : ℕ} {text : List α} {ps ps' : List (Piece α β)} (h : Reads m IsBody n text ps) (hn : n = 0)
    (h' : Reads m IsBody 0 text ps') : ps = ps' := by
  induction h generalizing ps' with
  | nil => exact (reads_nil_iff.mp h').2.symm
  | char hplain _ ih =>
    obtain ⟨ps'', rfl, hrest'⟩ := (reads_char_iff hplain).mp h'
    rw [ih hn hrest']
  | hole htext hbody _ ih =>
    subst htext
    obtain ⟨body', rest', b', ps'', heq, hbody', rfl, hrest'⟩ | ⟨k, _, _, hk, -⟩ := reads_opening_iff.mp h'
    · obtain ⟨rfl, rfl⟩ := hcut _ _ _ _ _ _ hbody hbody' heq
      obtain ⟨-, rfl⟩ := List.cons.inj (List.append_cancel_left heq)
      rw [ih hn hrest']
    · cases hk
  | givenUp => cases hn

/-! ### Nested marks -/

section Nesting
variable [DecidableEq α]

/-- How many opening marks are not closed at the end of a text; none where more are closed than were open. -/
def Marks.nesting (m : Marks α) : ℕ → List α → Option ℕ
  | depth, [] => some depth
  | depth, c :: text =>
    if c = m.opener then m.nesting (depth + 1) text
    else if c = m.closer then if depth = 0 then none else m.nesting (depth - 1) text
    else m.nesting depth text

def Marks.Balanced (m : Marks α) (text : List α) : Prop := m.nesting 0 text = some 0

theorem nesting_cons (depth : ℕ) (c : α) (text : List α) : m.nesting depth (c :: text) =
    if c = m.opener then m.nesting (depth + 1) text
    else if c = m.closer then if depth = 0 then none else m.nesting (depth - 1) text
    else m.nesting depth text := rfl

theorem nesting_opener (depth : ℕ) (text : List α) :
    m.nesting depth (m.opener :: text) = m.nesting (depth + 1) text := by
  rw [nesting_cons, if_pos rfl]

theorem nesting_closer (depth : ℕ) (text : List α) :
    m.nesting (depth + 1) (m.closer :: text) = m.nesting depth text := by
  rw [nesting_cons, if_neg m.closer_ne_opener, if_pos rfl, if_neg (Nat.succ_ne_zero _), Nat.add_sub_cancel]

theorem nesting_closer_zero (text : List α) : m.nesting 0 (m.closer :: text) = none := by
  rw [nesting_cons, if_neg m.closer_ne_opener, if_pos rfl, if_pos rfl]

theorem nesting_char {c : α} (hopen : c ≠ m.opener) (hclose : c ≠ m.closer) (depth : ℕ) (text : List α) :
    m.nesting depth (c :: text) = m.nesting depth text := by
  rw [nesting_cons, if_neg hopen, if_neg hclose]

theorem nesting_append (depth : ℕ) (text rest : List α) :
    m.nesting depth (text ++ rest) = (m.nesting depth text).bind fun depth => m.nesting depth rest := by
  induction text generalizing depth with
  | nil => rfl
  | cons c text ih =>
    rw [List.cons_append, nesting_cons, nesting_cons]
    split
    · exact ih _
    · split
      · split
        · rfl
        · exact ih _
      · exact ih _

theorem nesting_le {depth depth' : ℕ} {text : List α} (h : m.nesting depth text = some depth') :
    depth' ≤ depth + text.length := by
  induction text generalizing depth with
  | nil =>
    obtain rfl := Option.some.inj h
    exact Nat.le_refl _
  | cons c text ih =>
    rw [List.length_cons]
    rw [nesting_cons] at h
    split at h
    · have hle := ih h
      omega
    · split at h
      · split at h
        · cases h
        · have hle := ih h
          omega
      · have hle := ih h
        omega

/-- The mark that closes one more than was open. -/
theorem nesting_none {depth : ℕ} {text : List α} (h : m.nesting depth text = none) :
    ∃ body rest, text = body ++ m.closer :: rest ∧ m.nesting depth body = some 0 := by
  induction text generalizing depth with
  | nil => cases h
  | cons c text ih =>
    by_cases hopen : c = m.opener
    · subst hopen
      rw [nesting_opener] at h
      obtain ⟨body, rest, rfl, hbody⟩ := ih h
      exact ⟨m.opener :: body, rest, rfl, (nesting_opener _ _).trans hbody⟩
    by_cases hclose : c = m.closer
    · subst hclose
      cases depth with
      | zero => exact ⟨[], text, rfl, rfl⟩
      | succ depth =>
        rw [nesting_closer] at h
        obtain ⟨body, rest, rfl, hbody⟩ := ih h
        exact ⟨m.closer :: body, rest, rfl, (nesting_closer _ _).trans hbody⟩
    · rw [nesting_char hopen hclose] at h
      obtain ⟨body, rest, rfl, hbody⟩ := ih h
      exact ⟨c :: body, rest, rfl, (nesting_char hopen hclose _ _).trans hbody⟩

theorem nesting_closed {depth : ℕ} {body : List α} (h : m.nesting depth body = some 0) (rest : List α) :
    m.nesting depth (body ++ m.closer :: rest) = none := by
  rw [nesting_append, h]
  exact nesting_closer_zero rest

theorem balanced_of_plain {text : List α} (hopen : m.opener ∉ text) (hclose : m.closer ∉ text) :
    m.Balanced text := by
  induction text with
  | nil => rfl
  | cons c text ih =>
    rw [List.mem_cons, not_or] at hopen hclose
    exact (nesting_char (Ne.symm hopen.1) (Ne.symm hclose.1) _ _).trans (ih hopen.2 hclose.2)

/-- A balanced text ends at one closing mark only. -/
theorem Marks.Balanced.cut {body body' rest rest' : List α} (h : m.Balanced body) (h' : m.Balanced body')
    (heq : body ++ m.closer :: rest = body' ++ m.closer :: rest') : body = body' := by
  -- The shorter of the two would close one mark too many inside the longer.
  have hlonger {w w' tail tail' : List α} (hw : m.Balanced w) (hw' : m.Balanced w')
      (hsame : w ++ m.closer :: tail = w' ++ m.closer :: tail') (d : α) (more : List α) : w' ≠ w ++ d :: more := by
    rintro rfl
    rw [List.append_assoc] at hsame
    obtain ⟨rfl, -⟩ := List.cons.inj (List.append_cancel_left hsame)
    cases (nesting_closed hw more).symm.trans hw'
  rcases List.append_eq_append_iff.mp heq with ⟨more, hbody', -⟩ | ⟨more, hbody, -⟩
  · cases more with
    | nil => rw [hbody', List.append_nil]
    | cons d more => exact absurd hbody' (hlonger h h' heq d more)
  · cases more with
    | nil => rw [hbody, List.append_nil]
    | cons d more => exact absurd hbody (hlonger h' h heq.symm d more)

end Nesting

end Xerv.Lib.Template
