import Kabu.Entities.BlockHistoryManager

/-!
# What accepting a header does

`BlockHistory.addBlockHeader` moves the head, cuts the history off at its depth and inserts the
entry of the header, in that order.  `HeaderAdded` says what is left of the numbers and of the
entries afterwards, in terms of lookups alone, and `addBlockHeader_of_not_contains` that this is
what an unknown header does.  A known header changes nothing.  `HeadAnswer` is what a call of
`setChainHead` can have done when it returns.
-/

namespace Kabu

open BlockHistory

variable {S Block : Type*} {history : BlockHistory S Block} {header : Header}

/-- The numbers that are left when a header is accepted. -/
def BlockHistory.keeps (history : BlockHistory S Block) (header : Header) (n : ℕ) :
    Prop :=
  header.number > history.depth → n > header.number - history.depth

/-- The cut-off leaves the numbers that are kept, and the entries of their hashes. -/
structure CutOff (history : BlockHistory S Block) (header : Header)
    (history' : BlockHistory S Block) : Prop where
  depth : history'.depth = history.depth
  latest : history'.latestBlockNumber = history.latestBlockNumber
  numbers : ∀ n h, history'.blockNumbers.lookup n = some h ↔
    history.blockNumbers.lookup n = some h ∧ history.keeps header n
  entries : ∀ h entry, history'.blockEntries.lookup h = some entry →
    history.blockEntries.lookup h = some entry
  kept : ∀ n h entry, history'.blockNumbers.lookup n = some h →
    history.blockEntries.lookup h = some entry → history'.blockEntries.lookup h = some entry

lemma cutOff_ite (history : BlockHistory S Block) (header : Header) :
    CutOff history header (if header.number > history.depth then history.retainAbove header.number
      else history) := by
  by_cases hdepth : header.number > history.depth
  · rw [if_pos hdepth]
    have hnumbers : ∀ n h, (history.retainAbove header.number).blockNumbers.lookup n = some h ↔
        history.blockNumbers.lookup n = some h ∧ n > header.number - history.depth := by
      intro n h
      simp only [retainAbove, AssocMap.mem_lookup_retain, gt_iff_lt, decide_eq_true_eq]
    refine ⟨rfl, rfl, fun n h => ?_, fun h entry he => ?_, fun n h entry hn he => ?_⟩
    · rw [hnumbers]
      simp only [keeps, hdepth, true_implies]
    · exact ((AssocMap.mem_lookup_retain _ _ _ _).mp he).1
    · refine (AssocMap.mem_lookup_retain _ _ _ _).mpr ⟨he, ?_⟩
      rw [List.contains_iff_mem, AssocMap.mem_values]
      exact ⟨n, hn⟩
  · rw [if_neg hdepth]
    refine ⟨rfl, rfl, fun n h => ?_, fun _ _ he => he, fun _ _ _ _ he => he⟩
    simp only [keeps, hdepth, false_implies, and_true]

/-- What accepting an unknown header does to the history. -/
structure HeaderAdded (history : BlockHistory S Block) (header : Header)
    (history' : BlockHistory S Block) : Prop where
  depth : history'.depth = history.depth
  latest : history'.latestBlockNumber = max history.latestBlockNumber header.number
  /-- The kept numbers have the hashes they had, except for the head. -/
  numbers : ∀ n h, history'.blockNumbers.lookup n = some h ↔ history.keeps header n ∧
    if history.latestBlockNumber ≤ header.number ∧ n = header.number then h = header.hash
    else history.blockNumbers.lookup n = some h
  own : history'.blockEntries.lookup header.hash = some (.ofHeader header)
  entries : ∀ h entry, history'.blockEntries.lookup h = some entry →
    (h = header.hash ∧ entry = .ofHeader header) ∨ history.blockEntries.lookup h = some entry
  kept : ∀ n h entry, history'.blockNumbers.lookup n = some h →
    history.blockEntries.lookup h = some entry → history'.blockEntries.lookup h = some entry

lemma addBlockHeader_of_contains (h : history.containsBlock header.hash = true) :
    history.addBlockHeader header = (.error "BLOCK_IS_ALREADY_PROCESSED", history) := by
  rw [addBlockHeader, if_pos h]

lemma moveHead_ite_numbers (history : BlockHistory S Block) (header : Header) (n : ℕ)
    (h : BlockHash) :
    (if history.latestBlockNumber ≤ header.number then history.moveHead header
        else history).blockNumbers.lookup n = some h ↔
      if history.latestBlockNumber ≤ header.number ∧ n = header.number then h = header.hash
      else history.blockNumbers.lookup n = some h := by
  by_cases hle : history.latestBlockNumber ≤ header.number
  · rw [if_pos hle]
    simp only [moveHead, AssocMap.lookup_insert_eq, hle, true_and]
    by_cases hn : n = header.number
    · simp only [if_pos hn, Option.some.injEq]
      exact eq_comm
    · simp only [if_neg hn]
  · rw [if_neg hle]
    simp only [hle, false_and, if_false]

/-- The history before the entry of an unknown header is inserted. -/
def BlockHistory.madeRoom (history : BlockHistory S Block) (header : Header) :
    BlockHistory S Block :=
  let moved := if history.latestBlockNumber ≤ header.number then history.moveHead header
    else history
  if header.number > moved.depth then moved.retainAbove header.number else moved

variable {entry : BlockHistoryEntry Block}

section MadeRoom

variable (history header)

lemma moveHead_ite_latest :
    (if history.latestBlockNumber ≤ header.number then history.moveHead header
      else history).latestBlockNumber = max history.latestBlockNumber header.number := by
  by_cases hle : history.latestBlockNumber ≤ header.number
  · rw [if_pos hle, max_eq_right hle]
    rfl
  · rw [if_neg hle, max_eq_left (le_of_not_ge hle)]

lemma moveHead_ite_depth :
    (if history.latestBlockNumber ≤ header.number then history.moveHead header
      else history).depth = history.depth := by
  split <;> rfl

lemma moveHead_ite_entries :
    (if history.latestBlockNumber ≤ header.number then history.moveHead header
      else history).blockEntries = history.blockEntries := by
  split <;> rfl

lemma latest_madeRoom : (history.madeRoom header).latestBlockNumber =
    max history.latestBlockNumber header.number :=
  (cutOff_ite _ header).latest.trans (moveHead_ite_latest history header)

lemma depth_madeRoom : (history.madeRoom header).depth = history.depth :=
  (cutOff_ite _ header).depth.trans (moveHead_ite_depth history header)

lemma numbers_madeRoom (n : ℕ) (h : BlockHash) :
    (history.madeRoom header).blockNumbers.lookup n = some h ↔ history.keeps header n ∧
      if history.latestBlockNumber ≤ header.number ∧ n = header.number then h = header.hash
      else history.blockNumbers.lookup n = some h := by
  have hkeeps : (if history.latestBlockNumber ≤ header.number then history.moveHead header
      else history).keeps header n ↔ history.keeps header n := by
    rw [keeps, keeps, moveHead_ite_depth]
  rw [← moveHead_ite_numbers, and_comm, ← hkeeps]
  exact (cutOff_ite _ header).numbers n h

variable {history header}

lemma entries_madeRoom {h : BlockHash}
    (he : (history.madeRoom header).blockEntries.lookup h = some entry) :
    history.blockEntries.lookup h = some entry :=
  moveHead_ite_entries history header ▸ (cutOff_ite _ header).entries h entry he

lemma kept_madeRoom {n : ℕ} {h : BlockHash}
    (hn : (history.madeRoom header).blockNumbers.lookup n = some h)
    (he : history.blockEntries.lookup h = some entry) :
    (history.madeRoom header).blockEntries.lookup h = some entry :=
  (cutOff_ite _ header).kept n h entry hn ((moveHead_ite_entries history header).symm ▸ he)

lemma canonical_madeRoom (hdepth : header.number > history.depth) {h : BlockHash}
    (he : (history.madeRoom header).blockEntries.lookup h = some entry) :
    ∃ n, (history.madeRoom header).blockNumbers.lookup n = some h := by
  have hcut : header.number > (if history.latestBlockNumber ≤ header.number then
      history.moveHead header else history).depth := by
    rw [moveHead_ite_depth]
    exact hdepth
  unfold madeRoom at he ⊢
  simp only [if_pos hcut] at he ⊢
  have hmem := ((AssocMap.mem_lookup_retain _ _ _ _).mp he).2
  rw [List.contains_iff_mem, AssocMap.mem_values] at hmem
  exact hmem

end MadeRoom

section

variable (h : history.containsBlock header.hash = false)

include h

/-- An unknown header is inserted after room has been made for it.  The head has been moved by
then, so the second test for a new head never succeeds. -/
lemma addBlockHeader_eq :
    history.addBlockHeader header = (.ok (decide (history.latestBlockNumber ≤ header.number)),
      (history.madeRoom header).writeEntry (.ofHeader header)) := by
  have hnone : (history.madeRoom header).blockEntries.lookup header.hash = none := by
    rw [Option.eq_none_iff_forall_ne_some]
    intro entry he
    have hknown := entries_madeRoom he
    rw [containsBlock, hknown] at h
    simp at h
  have hinsert : (history.getOrInsertEntryWithHeader header).1 =
      (history.madeRoom header).writeEntry (.ofHeader header) := by
    unfold getOrInsertEntryWithHeader
    dsimp only
    split
    · rename_i entry hsome
      cases hnone.symm.trans hsome
    · rfl
  have hlatest : ((history.madeRoom header).writeEntry (.ofHeader header)).latestBlockNumber =
      max history.latestBlockNumber header.number := latest_madeRoom history header
  have hnew : decide (header.number ≥ max history.latestBlockNumber header.number) =
      decide (history.latestBlockNumber ≤ header.number) := decide_eq_decide.mpr (by omega)
  rw [addBlockHeader, h, if_neg (by simp)]
  simp only [hinsert, hlatest]
  rw [if_neg (by omega), hnew]

/-- **Accepting an unknown header.** -/
lemma addBlockHeader_of_not_contains :
    ∃ history', history.addBlockHeader header =
        (.ok (decide (history.latestBlockNumber ≤ header.number)), history') ∧
      HeaderAdded history header history' := by
  have hlookup := lookup_writeEntry (history.madeRoom header) (.ofHeader header)
  refine ⟨_, addBlockHeader_eq h, depth_madeRoom history header, latest_madeRoom history header,
    numbers_madeRoom history header, ?_, fun k entry he => ?_, fun n k entry hn he => ?_⟩
  · exact (hlookup header.hash).trans (if_pos rfl)
  · rw [hlookup] at he
    by_cases hk : k = header.hash
    · exact .inl ⟨hk, Option.some.inj (he.symm.trans (if_pos hk))⟩
    · exact .inr (entries_madeRoom ((if_neg hk).symm.trans he))
  · have hk : k ≠ header.hash := by
      rintro rfl
      rw [containsBlock, he] at h
      simp at h
    exact (hlookup k).trans ((if_neg hk).trans (kept_madeRoom hn he))

/-- Where the history is cut off, the entries that are left are canonical, but for the header's
own. -/
lemma canonical_of_addBlockHeader (hdepth : header.number > history.depth) {k : BlockHash}
    (he : (history.addBlockHeader header).2.blockEntries.lookup k = some entry)
    (hk : k ≠ header.hash) :
    ∃ n, (history.addBlockHeader header).2.blockNumbers.lookup n = some k := by
  rw [addBlockHeader_eq h] at he ⊢
  rw [lookup_writeEntry] at he
  exact canonical_madeRoom hdepth ((if_neg hk).symm.trans he)

end

/-! ## The first block -/

lemma le_of_getFirstBlockNumber {minBlock : ℕ} (h : history.getFirstBlockNumber = some minBlock)
    {k : BlockHash} (he : history.blockEntries.lookup k = some entry) :
    minBlock ≤ entry.number := by
  have hmem : entry.number ∈ history.blockEntries.values.map (·.number) :=
    List.mem_map.mpr ⟨entry, (AssocMap.mem_values _ _).mpr ⟨k, he⟩, rfl⟩
  exact (List.min?_eq_some_iff.mp h).2 _ hmem

lemma getFirstBlockNumber_eq_none_iff :
    history.getFirstBlockNumber = none ↔ ∀ k, history.blockEntries.lookup k = none := by
  rw [getFirstBlockNumber, List.min?_eq_none_iff, List.map_eq_nil_iff, AssocMap.values_eq_nil_iff]

/-! ## A call for a header -/

section Call

open BlockHistoryManager

variable [KabuBlock Block]

/-- What a call of `setChainHead` that returns has done. -/
inductive HeadAnswer (fuel : ℕ) (client : Client Block) (history : BlockHistory S Block)
    (header : Header) : Except Report (Bool × ℕ) → BlockHistory S Block → Prop
  | known : history.containsBlock header.hash = true →
      HeadAnswer fuel client history header (.ok (false, 0)) history
  /-- No walk is made for the first header of all, and for one below the head. -/
  | added {added : BlockHistory S Block} : history.containsBlock header.hash = false →
      (history.addBlockHeader header).2 = added → HeaderAdded history header added →
      HeadAnswer fuel client history header
        (.ok (decide (history.latestBlockNumber ≤ header.number), 0)) added
  | walked {added history' : BlockHistory S Block} {r : Except Report ℕ} {minBlock : ℕ} :
      history.containsBlock header.hash = false → (history.addBlockHeader header).2 = added →
      HeaderAdded history header added → history.latestBlockNumber ≤ header.number →
      history.getFirstBlockNumber = some minBlock →
      walkParents client minBlock fuel added header.parentHash 0 = .ok (r, history') →
      HeadAnswer fuel client history header (r.map fun reorgDepth => (true, reorgDepth)) history'

lemma headAnswer_of_setChainHead {fuel : ℕ} {client : Client Block}
    {history' : BlockHistory S Block} {answer : Except Report (Bool × ℕ)}
    (h : setChainHead fuel client history header = .ok (answer, history')) :
    HeadAnswer fuel client history header answer history' := by
  cases hcontains : history.containsBlock header.hash with
  | true =>
      rw [setChainHead, addBlockHeader_of_contains hcontains] at h
      obtain ⟨rfl, rfl⟩ := Prod.mk.inj (Except.ok.inj h)
      exact .known hcontains
  | false =>
      obtain ⟨added, hadd, hadded⟩ := addBlockHeader_of_not_contains hcontains
      have hsecond : (history.addBlockHeader header).2 = added := by rw [hadd]
      rw [setChainHead, hadd] at h
      cases hfirst : history.getFirstBlockNumber with
      | none =>
          simp only [hfirst] at h
          obtain ⟨rfl, rfl⟩ := Prod.mk.inj (Except.ok.inj h)
          exact .added hcontains hsecond hadded
      | some minBlock =>
          simp only [hfirst] at h
          split_ifs at h with hnew
          · obtain ⟨⟨r, walked⟩, hwalk, hmap⟩ := exceptMap_eq_ok h
            obtain ⟨rfl, rfl⟩ := Prod.mk.inj hmap
            exact .walked hcontains hsecond hadded (of_decide_eq_true hnew) hfirst hwalk
          · obtain ⟨rfl, rfl⟩ := Prod.mk.inj (Except.ok.inj h)
            rw [← Bool.eq_false_iff.mpr hnew]
            exact .added hcontains hsecond hadded

end Call

end Kabu
