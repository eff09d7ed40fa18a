import Kabu.Properties.ChainHead

/-!
# A failed move of the head

A call of `setChainHead` that fails should leave the history as it was, so that the same header
can be tried again.  It never does: the header is inserted, the head moved and the history cut
off before the walk makes its first request.  So a call is atomic exactly when it cannot fail,
and `HeadFails` says when it can: the header is new, the history is not empty, and the walk down
from its parent comes to an unknown block that the client does not give (`WalkFails`).

And the same header is not tried again.  It is known now, so the next call with it returns at
once and reports that it is not new (`setChainHead_after_error`).
-/

namespace Kabu

open BlockHistoryManager BlockHistory

variable {S Block : Type*} [KabuBlock Block]

/-- The two histories have the same head, the same numbers, entries and databases. -/
structure SameHistory (history history' : BlockHistory S Block) : Prop where
  latest : history.latestBlockNumber = history'.latestBlockNumber
  numbers : ∀ n, history.blockNumbers.lookup n = history'.blockNumbers.lookup n
  entries : ∀ h, history.blockEntries.lookup h = history'.blockEntries.lookup h
  states : ∀ h, history.blockStates.lookup h = history'.blockStates.lookup h

/-- The walk from `p` comes to a block that is neither known nor given by the client. -/
inductive WalkFails (client : Client Block) (minBlock : ℕ) :
    BlockHistory S Block → BlockHash → Prop
  | here {history : BlockHistory S Block} {p : BlockHash} {e : Report} :
      history.getBlockHistoryEntry p = none → fetchEntryByHash client p = .error e →
      WalkFails client minBlock history p
  /-- A known block that is not canonical is passed. -/
  | known {history : BlockHistory S Block} {p : BlockHash} {entry : BlockHistoryEntry Block} :
      history.getBlockHistoryEntry p = some entry →
      (history.getBlockHashForBlockNumber entry.number).getD 0 ≠ entry.hash →
      WalkFails client minBlock (history.setBlockNumber entry.number entry.hash)
        entry.parentHash →
      WalkFails client minBlock history p
  /-- A fetched block that is not below the first one is passed. -/
  | fetched {history : BlockHistory S Block} {p : BlockHash} {entry : BlockHistoryEntry Block} :
      history.getBlockHistoryEntry p = none → fetchEntryByHash client p = .ok entry →
      minBlock ≤ entry.number →
      WalkFails client minBlock (history.setEntry entry) entry.parentHash →
      WalkFails client minBlock history p

/-- The header is a new head, and the walk from its parent fails. -/
def HeadFails (client : Client Block) (history : BlockHistory S Block) (header : Header) : Prop :=
  history.containsBlock header.hash = false ∧ history.latestBlockNumber ≤ header.number ∧
    ∃ minBlock, history.getFirstBlockNumber = some minBlock ∧
      WalkFails client minBlock (history.addBlockHeader header).2 header.parentHash

/-! ## The walk -/

section Walk

variable {client : Client Block} {minBlock : ℕ} {history : BlockHistory S Block} {p : BlockHash}

lemma walkFails_of_walkParents {fuel d : ℕ} {e : Report} {history' : BlockHistory S Block}
    (h : walkParents client minBlock fuel history p d = .ok (.error e, history')) :
    WalkFails client minBlock history p := by
  by_contra hnot
  obtain ⟨p', hnot, hend⟩ := walkParents_invariant
    (I := fun history p => ¬ WalkFails client minBlock history p)
    (fun _ _ _ hnot hentry hcan hfails => hnot (.known hentry hcan hfails))
    (fun _ _ _ hnot hentry hfetch hmin hfails => hnot (.fetched hentry hfetch hmin hfails)) h hnot
  obtain ⟨hentry, hfetch⟩ := hend e rfl
  exact hnot (.here hentry hfetch)

lemma walkParents_of_walkFails (h : WalkFails client minBlock history p) (d : ℕ) :
    ∃ fuel e history', walkParents client minBlock fuel history p d =
      .ok (.error e, history') := by
  induction h generalizing d with
  | @here history p e hentry hfetch =>
      refine ⟨1, e, history, ?_⟩
      simp only [walkParents, hentry, hfetch]
  | known hentry hcan _ ih =>
      obtain ⟨fuel, e, history', hwalk⟩ := ih (d + 1)
      refine ⟨fuel + 1, e, history', ?_⟩
      rw [walkParents]
      simp only [hentry, if_neg hcan, hwalk]
  | fetched hentry hfetch hmin _ ih =>
      obtain ⟨fuel, e, history', hwalk⟩ := ih (d + 1)
      refine ⟨fuel + 1, e, history', ?_⟩
      rw [walkParents]
      simp only [hentry, hfetch, if_neg (not_lt.mpr hmin), hwalk]

lemma walkParents_ne_ok_of_walkFails (h : WalkFails client minBlock history p) (fuel d d' : ℕ)
    (history' : BlockHistory S Block) :
    walkParents client minBlock fuel history p d ≠ .ok (.ok d', history') := by
  induction h generalizing fuel d with
  | here hentry hfetch =>
      cases fuel with
      | zero => simp [walkParents]
      | succ fuel => simp [walkParents, hentry, hfetch]
  | known hentry hcan _ ih =>
      cases fuel with
      | zero => simp [walkParents]
      | succ fuel =>
          rw [walkParents]
          simp only [hentry, if_neg hcan]
          exact ih fuel (d + 1)
  | fetched hentry hfetch hmin _ ih =>
      cases fuel with
      | zero => simp [walkParents]
      | succ fuel =>
          rw [walkParents]
          simp only [hentry, hfetch, if_neg (not_lt.mpr hmin)]
          exact ih fuel (d + 1)

lemma walkParents_keeps_entry {fuel d : ℕ} {r : Except Report ℕ}
    {history' : BlockHistory S Block} {k : BlockHash}
    (h : walkParents client minBlock fuel history p d = .ok (r, history'))
    (hk : history.containsBlock k = true) : history'.containsBlock k = true := by
  have hfetched : ∀ (history : BlockHistory S Block) (entry : BlockHistoryEntry Block),
      history.containsBlock k = true → (history.setEntry entry).containsBlock k = true := by
    intro history entry hk
    rw [containsBlock, lookup_setEntry]
    split
    · rfl
    · exact hk
  obtain ⟨-, hkept, -⟩ := walkParents_invariant
    (I := fun history _ => history.containsBlock k = true)
    (fun _ _ _ hk _ _ => hk) (fun history _ entry hk _ _ _ => hfetched history entry hk) h hk
  exact hkept

end Walk

/-! ## The call -/

section Call

variable {client : Client Block} {history history' : BlockHistory S Block} {header : Header}
  {fuel : ℕ} {e : Report}

/-- A call that returns an error made the walk, and the walk failed. -/
lemma walkParents_of_setChainHead_error
    (h : setChainHead fuel client history header = .ok (.error e, history')) :
    history.containsBlock header.hash = false ∧ history.latestBlockNumber ≤ header.number ∧
      ∃ minBlock, history.getFirstBlockNumber = some minBlock ∧
        walkParents client minBlock fuel (history.addBlockHeader header).2 header.parentHash 0 =
          .ok (.error e, history') := by
  generalize hanswer : (.error e : Except Report (Bool × ℕ)) = answer at h
  cases headAnswer_of_setChainHead h with
  | known _ => simp at hanswer
  | added _ _ _ => simp at hanswer
  | @walked added _ r minBlock hcontains hadd _ hle hfirst hwalk =>
      refine ⟨hcontains, hle, minBlock, hfirst, ?_⟩
      cases r with
      | error e' =>
          rw [hadd, Except.error.inj hanswer]
          exact hwalk
      | ok d => simp [Except.map] at hanswer

omit [KabuBlock Block] in
lemma containsBlock_addBlockHeader (h : history.containsBlock header.hash = false) :
    (history.addBlockHeader header).2.containsBlock header.hash = true := by
  obtain ⟨added, hadd, hadded⟩ := addBlockHeader_of_not_contains h
  rw [hadd, containsBlock, hadded.own]
  rfl

lemma containsBlock_of_setChainHead_error
    (h : setChainHead fuel client history header = .ok (.error e, history')) :
    history'.containsBlock header.hash = true := by
  obtain ⟨hcontains, -, minBlock, -, hwalk⟩ := walkParents_of_setChainHead_error h
  exact walkParents_keeps_entry hwalk (containsBlock_addBlockHeader hcontains)

/-- **No second try.**  After an error, a call with the same header and any client returns at
once, reports that the header is not new and changes nothing. -/
theorem setChainHead_after_error
    (h : setChainHead fuel client history header = .ok (.error e, history'))
    (fuel' : ℕ) (client' : Client Block) :
    setChainHead fuel' client' history' header = .ok (.ok (false, 0), history') := by
  rw [setChainHead, addBlockHeader_of_contains (containsBlock_of_setChainHead_error h)]

lemma exists_error_of_headFails (h : HeadFails client history header) :
    ∃ fuel e history', setChainHead fuel client history header = .ok (.error e, history') := by
  obtain ⟨hcontains, hle, minBlock, hfirst, hwalk⟩ := h
  obtain ⟨added, hadd, -⟩ := addBlockHeader_of_not_contains hcontains
  rw [hadd] at hwalk
  obtain ⟨fuel, e, history', hwalk⟩ := walkParents_of_walkFails hwalk 0
  refine ⟨fuel, e, history', ?_⟩
  rw [setChainHead, hadd, hfirst]
  simp only [decide_eq_true hle, if_true, hwalk]
  rfl

/-- A call that has succeeded could not fail. -/
lemma not_headFails_of_ok {answer : Bool × ℕ}
    (h : setChainHead fuel client history header = .ok (.ok answer, history')) :
    ¬ HeadFails client history header := by
  rintro ⟨hcontains, hle, minBlock, hfirst, hwalk⟩
  obtain ⟨added, hadd, -⟩ := addBlockHeader_of_not_contains hcontains
  rw [hadd] at hwalk
  rw [setChainHead, hadd, hfirst] at h
  simp only [decide_eq_true hle, if_true] at h
  obtain ⟨⟨r, walked⟩, hreturned, hmap⟩ := exceptMap_eq_ok h
  obtain ⟨hr, -⟩ := Prod.mk.inj hmap
  obtain ⟨d, rfl, -⟩ := exceptMap_eq_ok hr
  exact walkParents_ne_ok_of_walkFails hwalk fuel 0 d walked hreturned

end Call

/-- **Failed calls.**  A call leaves the history as it was whenever it returns an error exactly
when it cannot return one. -/
theorem setChainHead_atomic_iff (client : Client Block) (history : BlockHistory S Block)
    (header : Header) :
    (∀ fuel e history', setChainHead fuel client history header = .ok (.error e, history') →
      SameHistory history' history) ↔ ¬ HeadFails client history header := by
  constructor
  · intro hatomic hfails
    obtain ⟨fuel, e, history', herror⟩ := exists_error_of_headFails hfails
    have hsame := hatomic fuel e history' herror
    have hknown := containsBlock_of_setChainHead_error herror
    rw [containsBlock, hsame.entries header.hash] at hknown
    exact absurd hknown (by rw [← containsBlock, hfails.1]; simp)
  · intro hnot fuel e history' herror
    obtain ⟨hcontains, hle, minBlock, hfirst, hwalk⟩ := walkParents_of_setChainHead_error herror
    exact absurd ⟨hcontains, hle, minBlock, hfirst, walkFails_of_walkParents hwalk⟩ hnot

/-! ### A reorganisation that fails once -/

/-- The history of the fork with the left block as its head. -/
def leftHistory : BlockHistory Unit Header :=
  ((BlockHistory.new 10).addBlockHeader rootHeader).2.addBlockHeader leftHeader |>.2

/-- The move to the right branch fails when the right block cannot be fetched.  The head is
moved all the same, and trying again with a client that has the block does not help. -/
theorem leftHistory_not_atomic :
    ∃ e history', setChainHead 4 (forkClient fun _ => .error "LOGS") leftHistory tipHeader =
        .ok (.error e, history') ∧ ¬ SameHistory history' leftHistory ∧
      setChainHead 4 (forkClient fun _ => .ok []) history' tipHeader =
        .ok (.ok (false, 0), history') := by
  refine ⟨"LOGS", _, rfl, fun h => ?_, rfl⟩
  have hlatest := h.latest
  exact absurd hlatest (by decide)

/-- There, a client that has every block is not asked. -/
theorem leftHistory_no_second_try : ∃ history' : BlockHistory Unit Header,
    setChainHead 0 (forkClient fun _ => .ok []) history' tipHeader =
      .ok (.ok (false, 0), history') := by
  obtain ⟨history', herror⟩ : ∃ history', setChainHead 4 (forkClient fun _ => .error "LOGS")
      leftHistory tipHeader = .ok (.error "LOGS", history') := ⟨_, rfl⟩
  exact ⟨history', setChainHead_after_error herror 0 _⟩

end Kabu
