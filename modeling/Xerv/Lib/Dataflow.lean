import Xerv.Lib.Table
import Mathlib.Data.List.Induction

/-!
# Dataflow nets

Nodes that each answer once, on one port, with one value. A node that is not an
entry may start when the nodes it awaits are done and a link into it carries an
answer; it then reads every link that carries one. Links from nodes that are not
awaited may or may not carry an answer by then, so the inputs of a node can depend on
the order in which the nodes answer. `Settled` says that they do not, and two complete
histories of a settled net are equal.
-/

namespace Xerv.Lib

/-- A link into a node: what `source` answers on `port` becomes the input `slot`. -/
structure Link (N P : Type*) where
  source : N
  port : P
  slot : P

structure Net (N P : Type*) where
  nodes : List N
  entry : List N
  links : N → List (Link N P)
  awaits : N → List N

/-! ### Reading inputs -/

section Inputs
variable {N P V : Type*} [DecidableEq P]

/-- The value that a link brings, if any, is put into its slot. -/
def putLink (value : Link N P → Option V) (inputs : Table P V) (l : Link N P) : Table P V :=
  match value l with
  | some v => inputs.insert l.slot v
  | none => inputs

theorem putLink_other (value : Link N P → Option V) (inputs : Table P V) (l : Link N P) (k : P)
    (h : l.slot ≠ k) : putLink value inputs l k = inputs k := by
  unfold putLink
  cases value l with
  | some v => exact Table.insert_ne _ _ (Ne.symm h)
  | none => rfl

theorem putLink_some (value : Link N P → Option V) (inputs : Table P V) (l : Link N P) (v : V)
    (h : value l = some v) : putLink value inputs l l.slot = some v := by
  unfold putLink
  rw [h]
  exact Table.insert_self _ _ _

theorem putLink_none (value : Link N P → Option V) (inputs : Table P V) (l : Link N P)
    (h : value l = none) : putLink value inputs l = inputs := by
  unfold putLink
  rw [h]

/-- The last link that brings a value into a slot decides it: two readings agree on a slot when
every link into it brings the same in both or is covered by a later one that does. -/
theorem foldl_putLink_congr (value value' : Link N P → Option V) (k : P) (ls : List (Link N P))
    (h : ∀ earlier l later, ls = earlier ++ l :: later → l.slot = k → value l = value' l ∨
      ∃ c ∈ later, c.slot = k ∧ ∃ v, value c = some v ∧ value' c = some v) :
    ls.foldl (putLink value) Table.empty k = ls.foldl (putLink value') Table.empty k := by
  induction ls using List.reverseRecOn with
  | nil => rfl
  | append_singleton ls last ih =>
    rw [List.foldl_append, List.foldl_append, List.foldl_cons, List.foldl_cons, List.foldl_nil,
      List.foldl_nil]
    -- unless the last link brings a value to `k` in both readings, the others decide
    have hothers (hlast : last.slot = k → value last = none ∨ value' last = none) :
        ls.foldl (putLink value) Table.empty k = ls.foldl (putLink value') Table.empty k := by
      refine ih fun earlier l later hsplit hslot => ?_
      rcases h earlier l (later ++ [last]) (by rw [hsplit]; simp) hslot with hsame | hcover
      · exact .inl hsame
      · obtain ⟨c, hc, hk, v, hv, hv'⟩ := hcover
        rcases List.mem_append.mp hc with hc | hc
        · exact .inr ⟨c, hc, hk, v, hv, hv'⟩
        · rw [List.mem_singleton.mp hc] at hk hv hv'
          rcases hlast hk with hnone | hnone
          · rw [hnone] at hv
            cases hv
          · rw [hnone] at hv'
            cases hv'
    by_cases hslot : last.slot = k
    · rcases h ls last [] rfl hslot with hsame | hcover
      · cases hv : value last with
        | none =>
          rw [putLink_none value _ last hv, putLink_none value' _ last (hsame ▸ hv)]
          exact hothers fun _ => .inl hv
        | some v =>
          rw [← hslot, putLink_some value _ last v hv, putLink_some value' _ last v (hsame ▸ hv)]
      · obtain ⟨c, hc, _⟩ := hcover
        exact absurd hc List.not_mem_nil
    · rw [putLink_other _ _ _ _ hslot, putLink_other _ _ _ _ hslot]
      exact hothers fun heq => absurd heq hslot

end Inputs

namespace Net
variable {N P V : Type*} (net : Net N P)

/-! ### Orders of completion

`route n` is the port on which `n` answers. -/

def Enabled (route : N → P) (done : Keys N) (n : N) : Prop :=
  n ∈ net.entry ∨
    ((∃ l ∈ net.links n, done l.source = true ∧ route l.source = l.port) ∧
      ∀ m ∈ net.awaits n, done m = true)

variable {net} {route route' : N → P}

theorem Enabled.mono {done done' : Keys N} {n : N} (h : net.Enabled route done n)
    (hsub : ∀ m, done m = true → done' m = true) : net.Enabled route done' n := by
  rcases h with h | ⟨⟨l, hl, hdone, hport⟩, hwait⟩
  · exact .inl h
  · exact .inr ⟨⟨l, hl, hsub _ hdone, hport⟩, fun m hm => hsub m (hwait m hm)⟩

theorem Enabled.congr {done : Keys N} {n : N} (h : net.Enabled route done n)
    (hroute : ∀ m, done m = true → route' m = route m) : net.Enabled route' done n := by
  rcases h with h | ⟨⟨l, hl, hdone, hport⟩, hwait⟩
  · exact .inl h
  · exact .inr ⟨⟨l, hl, hdone, (hroute _ hdone).trans hport⟩, hwait⟩

variable [DecidableEq N]

variable (net) in
/-- The sets of nodes that can be done at some moment. -/
inductive Stage (route : N → P) : Keys N → Prop
  | start : Stage route Keys.empty
  | complete (done : Keys N) (n : N) (h : Stage route done) (hn : n ∈ net.nodes)
    (hnew : done n = false) (hen : net.Enabled route done n) : Stage route (done.insert n)

variable (net) in
/-- `n` starts when the nodes of `done` are done. Nodes start as soon as they are enabled: whatever
is done by then had started when `n` was not enabled. -/
structure Start (route : N → P) (n : N) (done : Keys N) : Prop where
  stage : net.Stage route done
  new : done n = false
  enabled : net.Enabled route done n
  earlier : ∀ m, done m = true → ∃ before, (∀ k, before k = true → done k = true) ∧
    net.Stage route before ∧ before m = false ∧ net.Enabled route before m ∧
      ¬ net.Enabled route before n

variable (net) in
/-- `n` never starts before `m` is done. -/
def After (route : N → P) (m n : N) : Prop :=
  ∀ done, net.Stage route done → done n = false → net.Enabled route done n → done m = true

variable (net) in
/-- `n` never starts later than `m`. -/
def Before (route : N → P) (m n : N) : Prop :=
  ∀ done, net.Stage route done → done m = false → net.Enabled route done m →
    done n = true ∨ net.Enabled route done n

theorem Stage.congr {done : Keys N} (h : net.Stage route done)
    (hroute : ∀ m, done m = true → route' m = route m) : net.Stage route' done := by
  induction h with
  | start => exact .start
  | complete done n _ hn hnew hen ih =>
    have hsub : ∀ m, done m = true → route' m = route m :=
      fun m hm => hroute m ((Keys.insert_true_iff _ _ _).mpr (.inr hm))
    exact .complete done n (ih hsub) hn hnew (hen.congr hsub)

theorem Start.congr {done : Keys N} {n : N} (h : net.Start route n done)
    (hroute : ∀ m, done m = true → route' m = route m) : net.Start route' n done := by
  refine ⟨h.stage.congr hroute, h.new, h.enabled.congr hroute, fun m hm => ?_⟩
  obtain ⟨before, hsub, hstage, hnew, hen, hnot⟩ := h.earlier m hm
  have hroute' : ∀ k, before k = true → route' k = route k := fun k hk => hroute k (hsub k hk)
  refine ⟨before, hsub, hstage.congr hroute', hnew, hen.congr hroute', fun hen' => hnot ?_⟩
  exact hen'.congr fun k hk => (hroute' k hk).symm

theorem Start.of_after {done : Keys N} {m n : N} (h : net.Start route n done)
    (hafter : net.After route m n) : done m = true :=
  hafter done h.stage h.new h.enabled

theorem Start.of_before {done : Keys N} {m n : N} (h : net.Start route n done)
    (hbefore : net.Before route m n) : done m = false := by
  cases hm : done m with
  | false => rfl
  | true =>
    obtain ⟨before, hsub, hstage, hnew, hen, hnot⟩ := h.earlier m hm
    rcases hbefore before hstage hnew hen with hn | hn
    · have hdone := hsub n hn
      rw [h.new] at hdone
      cases hdone
    · exact absurd hn hnot

theorem after_of_awaits (m n : N) (hentry : n ∉ net.entry) (hm : m ∈ net.awaits n) :
    net.After route m n := by
  intro done _ _ hen
  rcases hen with hen | ⟨_, hwait⟩
  · exact absurd hen hentry
  · exact hwait m hm

theorem insert_keys {A : Type*} (res : Table N A) (n : N) (a : A) :
    (res.insert n a).keys = res.keys.insert n := by
  funext m
  by_cases h : m = n
  · subst h
    simp
  · simp [h]

theorem before_of_awaits (m n : N) (hentry : m ∉ net.entry) (hn : n ∈ net.awaits m) :
    net.Before route m n := by
  intro done _ _ hen
  rcases hen with hen | ⟨_, hwait⟩
  · exact absurd hen hentry
  · exact .inl (hwait n hn)

/-! ### Answers -/

variable [DecidableEq P]

def linkValue (res : Table N (P × V)) (done : Keys N) (l : Link N P) : Option V :=
  match res l.source with
  | some (port, v) => if done l.source = true ∧ port = l.port then some v else none
  | none => none

variable (net) in
def inputs (input : Table P V) (res : Table N (P × V)) (done : Keys N) (n : N) : Table P V :=
  if n ∈ net.entry then input else (net.links n).foldl (putLink (linkValue res done)) Table.empty

theorem inputs_congr (input : Table P V) (res res' : Table N (P × V)) (done : Keys N) (n : N)
    (h : ∀ m, done m = true → res' m = res m) :
    net.inputs input res' done n = net.inputs input res done n := by
  have hvalue : (linkValue res' done : Link N P → Option V) = linkValue res done := by
    funext l
    unfold linkValue
    cases hd : done l.source with
    | true => rw [h _ hd]
    | false =>
      cases res' l.source with
      | none =>
        cases res l.source with
        | none => rfl
        | some a => simp
      | some a =>
        cases res l.source with
        | none => simp
        | some b => simp
  unfold inputs
  rw [hvalue]

variable (net) in
/-- Tables of answers that a run of the net can produce, with `f` for what the nodes compute. -/
inductive History (f : N → Table P V → P × V) (input : Table P V) (route : N → P) :
    Table N (P × V) → Prop
  | start : History f input route Table.empty
  | answer (res : Table N (P × V)) (n : N) (done : Keys N) (h : History f input route res)
    (hn : n ∈ net.nodes) (hnew : res n = none)
    (hdone : ∀ m, done m = true → (res m).isSome = true) (hstart : net.Start route n done)
    (hroute : (f n (net.inputs input res done n)).1 = route n) :
    History f input route (res.insert n (f n (net.inputs input res done n)))

variable {f : N → Table P V → P × V} {input : Table P V} {res res' : Table N (P × V)}

theorem History.stage (h : net.History f input route res) : net.Stage route res.keys := by
  induction h with
  | start => exact .start
  | answer res n done _ hn hnew hdone hstart _ ih =>
    rw [insert_keys]
    have hen := Enabled.mono hstart.enabled hdone
    exact .complete res.keys n ih hn (by simp [hnew]) hen

theorem History.computed (h : net.History f input route res) (n : N) (a : P × V)
    (ha : res n = some a) : ∃ done, (∀ m, done m = true → (res m).isSome = true) ∧
      net.Start route n done ∧ a = f n (net.inputs input res done n) ∧ a.1 = route n := by
  induction h with
  | start => cases ha
  | answer res m done _ hm hnew hdone hstart hroute ih =>
    have hkeep : ∀ k, (res k).isSome = true →
        (res.insert m (f m (net.inputs input res done m))) k = res k := by
      intro k hk
      refine Table.insert_ne _ _ fun heq => ?_
      rw [heq, hnew] at hk
      cases hk
    by_cases hnm : n = m
    · subst hnm
      rw [Table.insert_self] at ha
      cases ha
      refine ⟨done, fun k hk => ?_, hstart, ?_, hroute⟩
      · rw [hkeep k (hdone k hk)]
        exact hdone k hk
      · rw [inputs_congr input res _ done n fun k hk => hkeep k (hdone k hk)]
    · rw [Table.insert_ne _ _ hnm] at ha
      obtain ⟨before, hsub, hstart', heq, hport⟩ := ih ha
      refine ⟨before, fun k hk => ?_, hstart', ?_, hport⟩
      · rw [hkeep k (hsub k hk)]
        exact hsub k hk
      · rw [heq, inputs_congr input res _ before n fun k hk => hkeep k (hsub k hk)]

variable (net) in
/-- Nothing is left that could start. -/
def Closed (route : N → P) (res : Table N (P × V)) : Prop :=
  ∀ n ∈ net.nodes, net.Enabled route res.keys n → (res n).isSome = true

/-! ### Settled nets -/

variable (net) in
/-- Whatever ports the nodes answer on: every link that carries an answer comes from a node that is
always done, or never done, when the target starts, or is covered by a later link into its slot from
a node that is always done. -/
def Settled (f : N → Table P V → P × V) : Prop :=
  ∀ route : N → P, (∀ n, ∃ inputs, (f n inputs).1 = route n) → ∀ n ∉ net.entry,
    ∀ earlier l later, net.links n = earlier ++ l :: later → route l.source = l.port →
      net.After route l.source n ∨ net.Before route l.source n ∨
        ∃ c ∈ later, c.slot = l.slot ∧ route c.source = c.port ∧ net.After route c.source n

omit [DecidableEq P] in
theorem settled_of_awaits (f : N → Table P V → P × V)
    (h : ∀ n ∉ net.entry, ∀ l ∈ net.links n, l.source ∈ net.awaits n ∨
      (l.source ∉ net.entry ∧ n ∈ net.awaits l.source)) : net.Settled f := by
  intro route _ n hentry earlier l later hsplit _
  have hl : l ∈ net.links n := by
    rw [hsplit]
    exact List.mem_append_right _ List.mem_cons_self
  rcases h n hentry l hl with hm | ⟨hsource, hn⟩
  · exact .inl (after_of_awaits l.source n hentry hm)
  · exact .inr (.inl (before_of_awaits l.source n hsource hn))

theorem Settled.inputs_eq (h : net.Settled f) (hroute : ∀ n, ∃ inputs, (f n inputs).1 = route n)
    (hres : ∀ m a, res m = some a → a.1 = route m) (input : Table P V) (n : N)
    (done done' : Keys N) (hsub : ∀ m, done m = true → (res m).isSome = true)
    (hstart : net.Start route n done) (hstart' : net.Start route n done') :
    net.inputs input res done n = net.inputs input res done' n := by
  unfold inputs
  by_cases hentry : n ∈ net.entry
  · rw [if_pos hentry, if_pos hentry]
  · rw [if_neg hentry, if_neg hentry]
    funext k
    refine foldl_putLink_congr _ _ k _ fun earlier l later hsplit hslot => ?_
    have hsame (hd : done l.source = done' l.source) :
        linkValue res done l = linkValue res done' l := by
      unfold linkValue
      rw [hd]
    by_cases hport : route l.source = l.port
    · rcases h route hroute n hentry earlier l later hsplit hport with hafter | hbefore | hcover
      · refine .inl (hsame ?_)
        rw [hstart.of_after hafter, hstart'.of_after hafter]
      · refine .inl (hsame ?_)
        rw [hstart.of_before hbefore, hstart'.of_before hbefore]
      · obtain ⟨c, hc, hcslot, hcport, hafter⟩ := hcover
        have hd := hstart.of_after hafter
        have hd' := hstart'.of_after hafter
        obtain ⟨a, ha⟩ := Option.isSome_iff_exists.mp (hsub _ hd)
        refine .inr ⟨c, hc, hcslot.trans hslot, a.2, ?_, ?_⟩
        · unfold linkValue
          simp [ha, hd, hres _ a ha, hcport]
        · unfold linkValue
          simp [ha, hd', hres _ a ha, hcport]
    · left
      -- a link whose source answers on another port brings nothing
      unfold linkValue
      cases ha : res l.source with
      | none => rfl
      | some a =>
        have hne : a.1 ≠ l.port := hres _ a ha ▸ hport
        simp [hne]

theorem History.subset (hsettled : net.Settled f) (h : net.History f input route res)
    (h' : net.History f input route' res') (hclosed : net.Closed route' res')
    (hroute' : ∀ n, ∃ inputs, (f n inputs).1 = route' n) :
    ∀ n a, res n = some a → res' n = some a := by
  induction h with
  | start => exact fun n a ha => nomatch ha
  | answer res n done h hn hnew hdone hstart hroute ih =>
    intro m a ha
    by_cases hmn : m = n
    · subst hmn
      rw [Table.insert_self] at ha
      have hports : ∀ k, done k = true → route' k = route k := by
        intro k hk
        obtain ⟨b, hb⟩ := Option.isSome_iff_exists.mp (hdone k hk)
        obtain ⟨_, _, _, _, hport⟩ := h.computed k b hb
        obtain ⟨_, _, _, _, hport'⟩ := h'.computed k b (ih k b hb)
        exact hport'.symm.trans hport
      have hstart₁ := hstart.congr hports
      have hsame : ∀ k, done k = true → res' k = res k := by
        intro k hk
        obtain ⟨b, hb⟩ := Option.isSome_iff_exists.mp (hdone k hk)
        rw [hb, ih k b hb]
      have hsub : ∀ k, done k = true → (res' k).isSome = true := by
        intro k hk
        rw [hsame k hk]
        exact hdone k hk
      have hmem := hclosed m hn (Enabled.mono hstart₁.enabled hsub)
      obtain ⟨b, hb⟩ := Option.isSome_iff_exists.mp hmem
      obtain ⟨done', _, hstart', hb', _⟩ := h'.computed m b hb
      have hres : ∀ k c, res' k = some c → c.1 = route' k := by
        intro k c hc
        obtain ⟨_, _, _, _, hport⟩ := h'.computed k c hc
        exact hport
      have hinputs := hsettled.inputs_eq hroute' hres input m done done' hsub hstart₁
        hstart'
      rw [hb, hb', ← hinputs, inputs_congr input res res' done m hsame]
      exact ha
    · rw [Table.insert_ne _ _ hmn] at ha
      exact ih m a ha

theorem History.unique (hsettled : net.Settled f) (h : net.History f input route res)
    (h' : net.History f input route' res') (hclosed : net.Closed route res)
    (hclosed' : net.Closed route' res') (hroute : ∀ n, ∃ inputs, (f n inputs).1 = route n)
    (hroute' : ∀ n, ∃ inputs, (f n inputs).1 = route' n) : res = res' := by
  funext n
  cases ha : res n with
  | some a => exact (h.subset hsettled h' hclosed' hroute' n a ha).symm
  | none =>
    cases hb : res' n with
    | none => rfl
    | some b =>
      rw [h'.subset hsettled h hclosed hroute n b hb] at ha
      cases ha

end Net

end Xerv.Lib
