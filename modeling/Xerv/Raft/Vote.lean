import Xerv.Lib.Machine
import Xerv.Lib.ReplacedFile
import Xerv.Raft.Segment

/-!
# The vote of a node (`xerv-cluster/src/raft/storage/{persistence,mod}.rs`)

`save_vote` replaces `vote.json` and then sets the vote in memory; `load_vote` reads the file when the storage is
opened. The calls of a run fail at any step, and the process or the power goes away at any step of a call. The
JSON text of a vote is a parameter.
-/

namespace Xerv.Raft
open Xerv.Lib

/-- `openraft::Vote` -/
structure Vote where
  term : UInt64
  nodeId : UInt64
  committed : Bool
  deriving DecidableEq

structure PersistedVote where
  term : UInt64
  nodeId : Option UInt64
  committed : Bool
  deriving DecidableEq

/-- The value that `save_vote_to_disk` writes. -/
def persisted (vote : Vote) : PersistedVote := ⟨vote.term, some vote.nodeId, vote.committed⟩

/-- What `load_vote` makes of it: `Vote::new`, and `commit` if it was committed. -/
def PersistedVote.toVote (p : PersistedVote) : Vote := ⟨p.term, p.nodeId.getD 0, p.committed⟩

/-- `serde_json` on a persisted vote. -/
structure VoteCodec where
  toJson : PersistedVote → Bytes
  fromJson : Bytes → Option PersistedVote
  roundTrip : ∀ p, fromJson (toJson p) = some p

structure VoteStorage where
  voteFile : ReplacedFile
  vote : Option Vote

namespace VoteStorage
variable (codec : VoteCodec)

def fresh : VoteStorage := ⟨.fresh, none⟩

def saveVoteToDisk (file : ReplacedFile) (vote : Vote) (stop : Option ReplaceStop) : ReplacedFile :=
  file.replace (codec.toJson (persisted vote)) stop

/-- `load_vote`, which fails when the file cannot be decoded. -/
def loadVote : Option DiskFile → Option (Option Vote)
  | none => some none
  | some disk => (codec.fromJson disk.data).map fun p => some p.toVote

def saveVote (s : VoteStorage) (vote : Vote) (stop : Option ReplaceStop) : VoteStorage :=
  { voteFile := saveVoteToDisk codec s.voteFile vote stop
    vote := if stop.isNone then some vote else s.vote }

/-- The file as it is when the process ends, perhaps inside of a `save_vote`. -/
def interrupted (s : VoteStorage) : Option (Vote × Option ReplaceStop) → ReplacedFile
  | none => s.voteFile
  | some (vote, stop) => saveVoteToDisk codec s.voteFile vote stop

def reopen (file : ReplacedFile) : Option VoteStorage :=
  (loadVote codec file.target).map fun vote => ⟨file, vote⟩

end VoteStorage

/-- A `save_vote` that returns or fails, an end of the process, an end of the power, both at any point of a
`save_vote`, and a write of the directory by the system. -/
inductive VoteAction where
  | saveVote (vote : Vote) (stop : Option ReplaceStop)
  | crash (during : Option (Vote × Option ReplaceStop))
  | powerLoss (during : Option (Vote × Option ReplaceStop)) (pick left : ℕ)
  | settle

namespace VoteAction

def vote : VoteAction → Option Vote
  | saveVote vote _ => some vote
  | crash during => during.map Prod.fst
  | powerLoss during _ _ => during.map Prod.fst
  | settle => none

def isPowerLoss : VoteAction → Bool
  | powerLoss _ _ _ => true
  | _ => false

/-- The power stays, and the directory is not written. -/
def leavesDirectory : VoteAction → Bool
  | saveVote _ _ | crash _ => true
  | powerLoss _ _ _ | settle => false

end VoteAction

def voteStep (codec : VoteCodec) (s : VoteStorage) : VoteAction → Option VoteStorage
  | .saveVote vote stop => some (s.saveVote codec vote stop)
  | .crash during => VoteStorage.reopen codec (s.interrupted codec during)
  | .powerLoss during pick left => VoteStorage.reopen codec ((s.interrupted codec during).powerLoss pick left)
  | .settle => some { s with voteFile := s.voteFile.settle }

def attempted (actions : List VoteAction) : List Vote := actions.filterMap VoteAction.vote

/-- The power stays until the system has written the directory. -/
def outlasts : List VoteAction → Bool
  | [] => true
  | .settle :: _ => true
  | action :: actions => !action.isPowerLoss && outlasts actions

/-! ### What may be found in the file -/

section Reads
variable (codec : VoteCodec)

/-- The file holds the vote in memory, which is one of `now`; after a power loss it would hold one of `later`. -/
structure Reads (now later : List (Option Vote)) (s : VoteStorage) : Prop where
  intact : s.voteFile.Intact
  current : VoteStorage.loadVote codec s.voteFile.target = some s.vote
  now : s.vote ∈ now
  later : ∀ target ∈ s.voteFile.possible, ∃ vote ∈ later, VoteStorage.loadVote codec target = some vote

variable {codec} {now later : List (Option Vote)} {s s' : VoteStorage}

theorem reads_fresh : Reads codec [none] [none] VoteStorage.fresh where
  intact := ReplacedFile.intact_fresh
  current := rfl
  now := List.mem_singleton_self none
  later target htarget := by
    obtain rfl := List.mem_singleton.mp htarget
    exact ⟨none, List.mem_singleton_self none, rfl⟩

theorem Reads.mono {now' later' : List (Option Vote)} (h : Reads codec now later s) (hnow : ∀ v ∈ now, v ∈ now')
    (hlater : ∀ v ∈ later, v ∈ later') : Reads codec now' later' s where
  intact := h.intact
  current := h.current
  now := hnow _ h.now
  later target htarget := by
    obtain ⟨vote, hvote, hload⟩ := h.later target htarget
    exact ⟨vote, hlater vote hvote, hload⟩

theorem loadVote_written (vote : Vote) :
    VoteStorage.loadVote codec (some (ReplacedFile.written (codec.toJson (persisted vote)))) = some (some vote) := by
  simp only [VoteStorage.loadVote, ReplacedFile.written, codec.roundTrip, Option.map_some]
  rfl

theorem Reads.saveVote (h : Reads codec now later s) (vote : Vote) (stop : Option ReplaceStop) :
    Reads codec (now ++ [some vote]) (later ++ [some vote]) (s.saveVote codec vote stop) := by
  have hintact := h.intact.replace (codec.toJson (persisted vote)) stop
  cases stop with
  | none =>
    refine ⟨hintact, loadVote_written vote, by simp [VoteStorage.saveVote], fun target htarget => ?_⟩
    rcases List.mem_append.mp htarget with hold | hnew
    · obtain ⟨old, hmem, hload⟩ := h.later target hold
      exact ⟨old, List.mem_append_left _ hmem, hload⟩
    · obtain rfl := List.mem_singleton.mp hnew
      exact ⟨some vote, by simp, loadVote_written vote⟩
  | some stop =>
    obtain ⟨htarget, hpossible⟩ := ReplacedFile.replace_some s.voteFile (codec.toJson (persisted vote)) stop
    refine ⟨hintact, ?_, List.mem_append_left _ h.now, ?_⟩
    · simp only [VoteStorage.saveVote, VoteStorage.saveVoteToDisk, htarget]
      exact h.current
    · simp only [VoteStorage.saveVote, VoteStorage.saveVoteToDisk, hpossible]
      exact (h.mono (fun v hv => hv) fun v hv => List.mem_append_left _ hv).later

theorem interrupted_eq (s : VoteStorage) (during : Option (Vote × Option ReplaceStop)) :
    s.interrupted codec during =
      (during.elim s fun call => s.saveVote codec call.1 call.2).voteFile := by
  cases during <;> rfl

theorem Reads.interrupted (h : Reads codec now later s) (during : Option (Vote × Option ReplaceStop)) :
    Reads codec (now ++ ((during.map Prod.fst).map some).toList) (later ++ ((during.map Prod.fst).map some).toList)
      (during.elim s fun call => s.saveVote codec call.1 call.2) := by
  cases during with
  | none => simpa using h
  | some call => exact h.saveVote call.1 call.2

theorem Reads.reopen (h : Reads codec now later s) : VoteStorage.reopen codec s.voteFile = some s := by
  rw [VoteStorage.reopen, h.current]
  rfl

theorem Reads.powerLoss (h : Reads codec now later s) (pick left : ℕ) :
    ∃ s', VoteStorage.reopen codec (s.voteFile.powerLoss pick left) = some s' ∧ Reads codec later later s' := by
  obtain ⟨target, hmem, htarget, hpossible, hintact⟩ := h.intact.powerLoss pick left
  obtain ⟨vote, hvote, hload⟩ := h.later target hmem
  refine ⟨⟨s.voteFile.powerLoss pick left, vote⟩, ?_, hintact, ?_, hvote, ?_⟩
  · rw [VoteStorage.reopen, htarget, hload]
    rfl
  · rw [htarget, hload]
  · intro other hother
    rw [hpossible] at hother
    obtain rfl := List.mem_singleton.mp hother
    exact ⟨vote, hvote, hload⟩

theorem Reads.step (h : Reads codec now later s) (action : VoteAction) :
    ∃ s', voteStep codec s action = some s' ∧
      Reads codec ((if action.isPowerLoss then later else now) ++ (action.vote.map some).toList)
        (later ++ (action.vote.map some).toList) s' := by
  cases action with
  | saveVote vote stop => exact ⟨_, rfl, h.saveVote vote stop⟩
  | crash during =>
    have hcall := h.interrupted during
    refine ⟨_, ?_, hcall⟩
    rw [voteStep, interrupted_eq]
    exact hcall.reopen
  | powerLoss during pick left =>
    obtain ⟨s', hreopen, hafter⟩ := (h.interrupted during).powerLoss pick left
    refine ⟨s', ?_, hafter⟩
    rw [voteStep, interrupted_eq]
    exact hreopen
  | settle =>
    refine ⟨_, rfl, h.intact.settle, h.current, by simpa [VoteAction.vote, VoteAction.isPowerLoss] using h.now, ?_⟩
    intro target htarget
    obtain rfl := List.mem_singleton.mp htarget
    obtain ⟨vote, hvote, hload⟩ := h.later _ h.intact.current
    exact ⟨vote, List.mem_append_left _ hvote, hload⟩

theorem Reads.settle (h : Reads codec now later s) :
    Reads codec now now { s with voteFile := s.voteFile.settle } := by
  refine ⟨h.intact.settle, h.current, h.now, fun target htarget => ?_⟩
  obtain rfl := List.mem_singleton.mp htarget
  exact ⟨s.vote, h.now, h.current⟩

theorem Reads.run {votes : List (Option Vote)} (h : Reads codec votes votes s) (actions : List VoteAction) :
    ∃ s', Machine.run (voteStep codec) s actions = some s' ∧
      Reads codec (votes ++ (attempted actions).map some) (votes ++ (attempted actions).map some) s' := by
  induction actions generalizing s votes with
  | nil => exact ⟨s, rfl, by simpa [attempted] using h⟩
  | cons action actions ih =>
    obtain ⟨s₁, hstep, hafter⟩ := h.step action
    rw [ite_self] at hafter
    obtain ⟨s', hrun, hend⟩ := ih hafter
    refine ⟨s', (Machine.run_cons hstep actions).trans hrun, ?_⟩
    have hvotes : votes ++ (attempted (action :: actions)).map some =
        votes ++ (action.vote.map some).toList ++ (attempted actions).map some := by
      cases haction : action.vote <;> simp [attempted, haction]
    rw [hvotes]
    exact hend

theorem Reads.outlasts (h : Reads codec now later s) (actions : List VoteAction) (hpower : outlasts actions = true)
    (hrun : Machine.run (voteStep codec) s actions = some s') :
    ∃ later', Reads codec (now ++ (attempted actions).map some) later' s' := by
  induction actions generalizing s now later with
  | nil =>
    cases hrun
    exact ⟨later, by simpa [attempted] using h⟩
  | cons action actions ih =>
    obtain ⟨s₁, hstep, hrest⟩ := Option.bind_eq_some_iff.mp hrun
    by_cases hsettle : action = .settle
    · subst hsettle
      obtain ⟨s₂, hrun₂, hend⟩ := h.settle.run actions
      cases hstep
      rw [hrest] at hrun₂
      cases hrun₂
      exact ⟨_, hend⟩
    · obtain ⟨hloss, hpower⟩ : action.isPowerLoss = false ∧ Raft.outlasts actions = true := by
        cases action <;> simp_all [Raft.outlasts, VoteAction.isPowerLoss]
      obtain ⟨s₂, hstep₂, hafter⟩ := h.step action
      rw [hstep] at hstep₂
      cases hstep₂
      rw [hloss] at hafter
      obtain ⟨later', hend⟩ := ih hafter hpower hrest
      have hvotes : now ++ (attempted (action :: actions)).map some =
          now ++ (action.vote.map some).toList ++ (attempted actions).map some := by
        cases haction : action.vote <;> simp [attempted, haction]
      rw [hvotes]
      exact ⟨later', hend⟩

theorem possible_saveVote {pick : ℕ} {target : Option DiskFile} (vote : Vote) (stop : Option ReplaceStop)
    (h : s.voteFile.possible[pick]? = some target) :
    (s.saveVote codec vote stop).voteFile.possible[pick]? = some target := by
  cases stop with
  | some stop =>
    simp only [VoteStorage.saveVote, VoteStorage.saveVoteToDisk, (ReplacedFile.replace_some _ _ stop).2]
    exact h
  | none =>
    obtain ⟨hlt, -⟩ := List.getElem?_eq_some_iff.mp h
    simp only [VoteStorage.saveVote, VoteStorage.saveVoteToDisk, ReplacedFile.replace_none]
    rw [List.getElem?_append_left hlt]
    exact h

theorem possible_step {pick : ℕ} {target : Option DiskFile} (action : VoteAction)
    (hleaves : action.leavesDirectory = true) (h : s.voteFile.possible[pick]? = some target)
    (hstep : voteStep codec s action = some s') : s'.voteFile.possible[pick]? = some target := by
  cases action with
  | saveVote vote stop =>
    cases hstep
    exact possible_saveVote vote stop h
  | crash during =>
    obtain ⟨vote, -, rfl⟩ := Option.map_eq_some_iff.mp hstep
    rw [interrupted_eq]
    cases during with
    | none => exact h
    | some call => exact possible_saveVote call.1 call.2 h
  | powerLoss during pick left => cases hleaves
  | settle => cases hleaves

/-- What can be found stays so until the directory is written, and a power loss finds it. -/
theorem Reads.broughtBack {pick : ℕ} {target : Option DiskFile} {old : Option Vote} (h : Reads codec now later s)
    (hpick : s.voteFile.possible[pick]? = some target) (hload : VoteStorage.loadVote codec target = some old)
    (actions : List VoteAction) (hleaves : ∀ action ∈ actions, action.leavesDirectory = true) :
    ∃ s', Machine.run (voteStep codec) s (actions ++ [.powerLoss none pick 0]) = some s' ∧ s'.vote = old := by
  induction actions generalizing s now later with
  | nil =>
    have hmem : target ∈ s.voteFile.possible := List.mem_of_getElem? hpick
    have hfound : (s.voteFile.powerLoss pick 0).target = target := by
      rw [ReplacedFile.powerLoss, hpick, Option.getD_some]
      cases htarget : target with
      | none => rfl
      | some file => rw [Option.map_some, (h.intact.synced file (htarget ▸ hmem)).cut 0]
    refine ⟨⟨s.voteFile.powerLoss pick 0, old⟩, ?_, rfl⟩
    rw [List.nil_append, Machine.run, voteStep, VoteStorage.interrupted, VoteStorage.reopen, hfound, hload]
    rfl
  | cons action actions ih =>
    obtain ⟨s₁, hstep, hafter⟩ := h.step action
    have hstays := possible_step action (hleaves action List.mem_cons_self) hpick hstep
    obtain ⟨s', hrun, hold⟩ := ih hafter hstays fun other hother => hleaves other (List.mem_cons_of_mem _ hother)
    exact ⟨s', (Machine.run_cons hstep _).trans hrun, hold⟩

end Reads

/-! ### The JSON text of a vote -/

def jsonVoteTerm : List Char := "\x7b\"term\":".toList

def jsonVoteCommitted : List Char := ",\"committed\":".toList

def jsonNull : List Char := "null".toList

def boolText (b : Bool) : List Char := if b then "true\x7d".toList else "false\x7d".toList

def nodeText : Option UInt64 → List Char
  | none => jsonNull
  | some node => padded 10 1 node.toNat

def voteText (p : PersistedVote) : List Char :=
  jsonVoteTerm ++ (padded 10 1 p.term.toNat ++ (jsonNode ++ (nodeText p.nodeId ++
    (jsonVoteCommitted ++ boolText p.committed))))

def takeWord (cs : List Char) : Option (UInt64 × List Char) :=
  (takeNumber cs).bind fun (n, rest) => if n < 2 ^ 64 then some (UInt64.ofNat n, rest) else none

def takeNode (cs : List Char) : Option (Option UInt64 × List Char) :=
  match stripText jsonNull cs with
  | some rest => some (none, rest)
  | none => (takeWord cs).map fun (node, rest) => (some node, rest)

def parseVote (cs : List Char) : Option PersistedVote := do
  let (term, cs) ← takeWord (← stripText jsonVoteTerm cs)
  let (nodeId, cs) ← takeNode (← stripText jsonNode cs)
  let cs ← stripText jsonVoteCommitted cs
  if cs = boolText true then some ⟨term, nodeId, true⟩
  else if cs = boolText false then some ⟨term, nodeId, false⟩
  else none

theorem takeWord_padded (w : UInt64) (c : Char) (cs : List Char) (hc : c.isDigit = false) :
    takeWord (padded 10 1 w.toNat ++ c :: cs) = some (w, c :: cs) := by
  rw [takeWord, takeNumber_padded w.toNat c cs hc, Option.bind_some]
  dsimp only
  rw [if_pos w.toNat_lt, UInt64.ofNat_toNat]

theorem stripText_null_padded (n : ℕ) (cs : List Char) : stripText jsonNull (padded 10 1 n ++ cs) = none := by
  cases hpadded : padded 10 1 n with
  | nil =>
    have hlength := padded_length_ge 10 1 n
    rw [hpadded] at hlength
    exact absurd hlength (by decide)
  | cons d ds =>
    have hdigit : d.isDigit = true := padded_isDigit 1 n d (hpadded ▸ List.mem_cons_self)
    have hne : d ≠ 'n' := by
      rintro rfl
      exact absurd hdigit (by decide)
    have hpre : jsonNull.isPrefixOf (d :: ds ++ cs) = false := by
      rw [← Bool.not_eq_true, List.isPrefixOf_iff_prefix]
      rintro ⟨rest, hrest⟩
      exact hne (List.cons.inj hrest).1.symm
    rw [stripText, hpre, if_neg Bool.false_ne_true]

theorem takeNode_nodeText (nodeId : Option UInt64) (c : Char) (cs : List Char) (hc : c.isDigit = false) :
    takeNode (nodeText nodeId ++ c :: cs) = some (nodeId, c :: cs) := by
  cases nodeId with
  | none => rw [takeNode, nodeText, stripText_append]
  | some node => rw [takeNode, nodeText, stripText_null_padded, takeWord_padded node c cs hc, Option.map_some]

theorem parseVote_voteText (p : PersistedVote) : parseVote (voteText p) = some p := by
  have hnode (cs : List Char) : takeWord (padded 10 1 p.term.toNat ++ (jsonNode ++ cs)) =
      some (p.term, jsonNode ++ cs) := takeWord_padded p.term ',' _ (by decide)
  have hcommitted (cs : List Char) : takeNode (nodeText p.nodeId ++ (jsonVoteCommitted ++ cs)) =
      some (p.nodeId, jsonVoteCommitted ++ cs) := takeNode_nodeText p.nodeId ',' _ (by decide)
  unfold parseVote voteText
  simp only [stripText_append, hnode, hcommitted, Option.bind_eq_bind, Option.bind_some]
  cases hbool : p.committed with
  | true => rw [if_pos rfl, ← hbool]
  | false => rw [if_neg (by decide), if_pos rfl, ← hbool]

theorem voteText_ascii (p : PersistedVote) (c : Char) (h : c ∈ voteText p) : c.toNat < 128 := by
  have hall : (jsonVoteTerm ++ jsonNode ++ jsonVoteCommitted ++ jsonNull ++ boolText true ++ boolText false).all
      (fun x => decide (x.toNat < 128)) = true := by decide
  have hlit := fun x hx => of_decide_eq_true (List.all_eq_true.mp hall x hx)
  simp only [List.mem_append] at hlit
  have hnum : ∀ n, ∀ x ∈ padded 10 1 n, x.toNat < 128 :=
    fun n x hx => padded_ascii 10 1 n (by decide) (by decide) x hx
  simp only [voteText, List.mem_append] at h
  rcases h with h | h | h | h | h | h
  · exact hlit c (by simp [h])
  · exact hnum _ c h
  · exact hlit c (by simp [h])
  · cases hnode : p.nodeId with
    | none => exact hlit c (by simp_all [nodeText])
    | some node => exact hnum node.toNat c (by simpa [hnode, nodeText] using h)
  · exact hlit c (by simp [h])
  · cases hbool : p.committed <;> exact hlit c (by simp_all)

def jsonVoteCodec : VoteCodec where
  toJson p := (voteText p).map charByte
  fromJson bs := parseVote (bs.map byteChar)
  roundTrip p := by
    have hback : ((voteText p).map charByte).map byteChar = voteText p := by
      rw [List.map_map]
      refine (List.map_congr_left fun c hc => ?_).trans (List.map_id _)
      exact byteChar_charByte c (voteText_ascii p c hc)
    rw [hback, parseVote_voteText]

/-- Over every run of saved votes that fail anywhere and of ends of the process and of the power anywhere inside
them: the storage opens again, the file holds the vote in memory, and that is no vote but those that were to be
saved. A vote whose save returned is only ever replaced by one of a later call, unless the power goes away
before the system has written the directory; where it does, the vote from before that save can come back. -/
theorem vote_survives (codec : VoteCodec) (actions : List VoteAction) :
    ∃ s, Machine.run (voteStep codec) .fresh actions = some s ∧
      VoteStorage.loadVote codec s.voteFile.target = some s.vote ∧
      (∀ vote, s.vote = some vote → vote ∈ attempted actions) ∧
      (∀ before vote after, actions = before ++ .saveVote vote none :: after → outlasts after = true →
        ∃ kept ∈ vote :: attempted after, s.vote = some kept) ∧
      ∀ vote after, (∀ action ∈ after, VoteAction.leavesDirectory action = true) →
        ∃ pick s', Machine.run (voteStep codec) .fresh
          (actions ++ (.saveVote vote none :: (after ++ [.powerLoss none pick 0]))) = some s' ∧
          s'.vote = s.vote := by
  obtain ⟨s, hrun, hreads⟩ := reads_fresh.run actions
  refine ⟨s, hrun, hreads.current, fun vote hvote => ?_, ?_, ?_⟩
  · have hmem := hreads.now
    rw [hvote] at hmem
    simpa using hmem
  · intro before vote after hactions hpower
    rw [hactions, Machine.run_append] at hrun
    obtain ⟨s₁, hbefore, hrest⟩ := Option.bind_eq_some_iff.mp hrun
    obtain ⟨s₂, hrun₂, hreads₁⟩ := reads_fresh.run before
    rw [hbefore] at hrun₂
    cases hrun₂
    have hsaved := hreads₁.saveVote vote none
    have hvote : Reads codec [some vote] _ (s₁.saveVote codec vote none) :=
      ⟨hsaved.intact, hsaved.current, List.mem_singleton_self _, hsaved.later⟩
    obtain ⟨later', hend⟩ := hvote.outlasts after hpower hrest
    have hmem := hend.now
    rw [← List.map_singleton, ← List.map_append, List.mem_map] at hmem
    obtain ⟨kept, hkept, heq⟩ := hmem
    exact ⟨kept, by simpa using hkept, heq.symm⟩
  · intro vote after hleaves
    obtain ⟨pick, hpick⟩ := List.mem_iff_getElem?.mp hreads.intact.current
    have hstays : (s.saveVote codec vote none).voteFile.possible[pick]? = some s.voteFile.target :=
      possible_saveVote vote none hpick
    obtain ⟨s', hafter, hold⟩ := (hreads.saveVote vote none).broughtBack hstays hreads.current after hleaves
    refine ⟨pick, s', ?_, hold⟩
    rw [Machine.run_append, hrun, Option.bind_some, Machine.run, voteStep, Option.bind_some]
    exact hafter

/-- A node votes, dies while it saves its next vote, and loses its power before the directory is written. -/
theorem vote_survives_sample :
    ∃ s, Machine.run (voteStep jsonVoteCodec) .fresh
        [.saveVote ⟨1, 1, false⟩ none, .settle, .crash (some (⟨2, 3, false⟩, some (.writing 7))),
          .saveVote ⟨3, 2, true⟩ none, .powerLoss none 0 0] = some s ∧
      VoteStorage.loadVote jsonVoteCodec s.voteFile.target = some s.vote ∧
      ∃ kept ∈ [⟨1, 1, false⟩, ⟨2, 3, false⟩, ⟨3, 2, true⟩], s.vote = some kept := by
  obtain ⟨s, hrun, hfile, -, hkept, -⟩ := vote_survives jsonVoteCodec
    [.saveVote ⟨1, 1, false⟩ none, .settle, .crash (some (⟨2, 3, false⟩, some (.writing 7))),
      .saveVote ⟨3, 2, true⟩ none, .powerLoss none 0 0]
  exact ⟨s, hrun, hfile, hkept [] ⟨1, 1, false⟩ _ rfl rfl⟩

end Xerv.Raft
