import Kabu.Properties.HeadFailure
import Kabu.Properties.MergeRace

/-!
# The worker outlives failures

The provider may fail whenever the worker asks it for something, and a message may bring what is
known already.  A message that cannot be handled for such a reason should be dropped: the worker
goes on, in the state it was in.

`outlives_of_run` says in which runs this holds.  The worker never panics, and it returns only if
a header cannot be made the head.  A failed move of the head is never dropped, since the head has
been moved before the first request (`HeadFits`).  The other failures leave nothing behind, except
in two places.  A block that was there already is entered once more before it is refused, which
may cut the history off; and the update of the latest block is handed to the latest block before
the database is found that it is applied to (`UpdateFits`).
-/

namespace Kabu

open BlockHistoryManager BlockHistory LatestBlock

variable {DB Block : Type*}

/-! ## Messages that fail -/

namespace WorkerState

section Fails

variable [BlockHistoryState DB Block] (fuel : ℕ) (client : Client Block) (w : WorkerState DB Block)

/-- The update of a block whose header has been taken is refused: the block has one already, or
it is the latest block and there is no database to apply the update to. -/
def UpdateFails (blockHeader : Header) (stateUpdate : GethStateUpdateVec) : Prop :=
  if w.latestBlock.blockHash ≠ blockHeader.hash then
    ∃ e history, w.blockHistory.addStateDiff blockHeader.hash stateUpdate =
      some (.error e, history)
  else
    ∃ answer history, w.newMarketStateDb fuel client blockHeader.hash
        (w.latestBlock.parentHash.getD 0) = .ok (answer, history) ∧
      ((∃ e, answer = .error e) ∨
        ∃ e history', history.addStateDiff blockHeader.hash stateUpdate =
          some (.error e, history'))

variable [KabuBlock Block]

omit [BlockHistoryState DB Block] in
/-- The head cannot be moved, or what comes after it fails. -/
def FailsAfterHead (header : Header) (rest : WorkerState DB Block → Prop) : Prop :=
  ∃ answer w₁, w.setChainHead fuel client header = .ok (answer, w₁) ∧
    ((∃ e, answer = .error e) ∨ rest w₁)

/-- Handling the message comes to an error. -/
def Fails : WorkerMessage Block → Prop
  | .header header => w.FailsAfterHead fuel client header fun _ => False
  | .block block => w.FailsAfterHead fuel client (KabuBlock.getHeader block) fun w₁ =>
      ∃ e history, w₁.blockHistory.addBlock block = (.error e, history)
  | .logs blockHeader logs => w.FailsAfterHead fuel client blockHeader fun w₁ =>
      ∃ e history, w₁.blockHistory.addLogs blockHeader.hash logs = some (.error e, history)
  | .stateUpdate blockHeader stateUpdate => w.FailsAfterHead fuel client blockHeader fun w₁ =>
      w₁.UpdateFails fuel client blockHeader stateUpdate

end Fails

end WorkerState

/-! ## Messages that are dropped if they fail -/

/-- The client answers for the block it is asked for, or not at all. -/
def Client.GivesAsked [KabuBlock Block] (client : Client Block) : Prop :=
  ∀ p block, client.getBlockByHash p = .ok (some block) → (KabuBlock.getHeader block).hash = p

/-- A block that is entered once more is below the head and cuts nothing off. -/
def BlockHistory.Uncut (history : BlockHistory DB Block) (header : Header) : Prop :=
  header.number < history.latestBlockNumber ∧
    (header.number > history.depth →
      (∀ n h, history.blockNumbers.lookup n = some h → n > header.number - history.depth) ∧
      ∀ h, history.blockEntries.lookup h ≠ none ∨ history.blockStates.lookup h ≠ none →
        ∃ n, history.blockNumbers.lookup n = some h)

namespace WorkerState

/-- The market stands at the parent of the latest block, or at no block. -/
def AtParent (w : WorkerState DB Block) : Prop :=
  w.marketState.blockHash = 0 ∨ w.marketState.blockHash = w.latestBlock.parentHash.getD 0

/-- The latest block has the update already. -/
def HasUpdate (w : WorkerState DB Block) (header : Header) (stateUpdate : GethStateUpdateVec) :
    Prop :=
  header.number < w.latestBlock.blockNumber ∨
    header.number = w.latestBlock.blockNumber ∧ w.latestBlock.diff = some stateUpdate

/-- The head can be moved to the header. -/
structure HeadFits [KabuBlock Block] (client : Client Block) (w : WorkerState DB Block)
    (header : Header) : Prop where
  asked : client.GivesAsked
  moves : ¬ HeadFails client w.blockHistory header

/-- The update of a block cannot fail, or there is nothing left of it if it does. -/
def UpdateFits (client : Client Block) (w : WorkerState DB Block) (header : Header)
    (stateUpdate : GethStateUpdateVec) : Prop :=
  match w.blockHistory.getBlockHistoryEntry header.hash with
  | none =>
      w.marketState.blockHash = 0 ∨ w.latestBlock.blockHash ≠ header.hash ∧
        (header.number < w.latestBlock.blockNumber ∨
          w.marketState.blockHash = header.parentHash)
  | some entry => w.latestBlock.blockHash = header.hash →
      entry.stateUpdate = none ∧ (w.AtParent ∨ (∃ fetched, FilledIn client entry fetched) ∧
        ∃ path base, ReplayPath w.blockHistory entry.parentHash path base) ∨
      w.HasUpdate header stateUpdate ∧ (w.AtParent ∨
        ∀ path base, ReplayPath w.blockHistory entry.parentHash path base → path = [])

/-- If handling the message fails, the worker drops it. -/
def MessageFits [KabuBlock Block] (client : Client Block) (w : WorkerState DB Block) :
    WorkerMessage Block → Prop
  | .header header => w.HeadFits client header
  | .block block => w.HeadFits client (KabuBlock.getHeader block) ∧
      ∀ entry, w.blockHistory.getBlockHistoryEntry (KabuBlock.getHeader block).hash = some entry →
        entry.block = none ∨ w.blockHistory.Uncut (KabuBlock.getHeader block)
  | .logs blockHeader _ => w.HeadFits client blockHeader
  | .stateUpdate blockHeader stateUpdate => w.HeadFits client blockHeader ∧
      w.UpdateFits client blockHeader stateUpdate

/-- Merges do not fail. -/
def EventKept [KabuBlock Block] (w : WorkerState DB Block) : WorkerEvent Block → Prop
  | .receive _ client message => w.MessageFits client message
  | .merge _ => True

end WorkerState

/-! ## Entries after a move of the head -/

variable {e : Report}

section Entries

variable [KabuBlock Block] {client : Client Block} {history history' : BlockHistory DB Block}
  {header : Header} {fuel : ℕ}

lemma walkParents_lookup (hclient : client.GivesAsked) {minBlock d : ℕ} {p : BlockHash}
    {r : Except Report ℕ} (h : walkParents client minBlock fuel history p d = .ok (r, history'))
    {k : BlockHash} {entry : BlockHistoryEntry Block}
    (hk : history.blockEntries.lookup k = some entry) :
    history'.blockEntries.lookup k = some entry := by
  have hfetched : ∀ (history : BlockHistory DB Block) p (fetched : BlockHistoryEntry Block),
      history.blockEntries.lookup k = some entry → history.getBlockHistoryEntry p = none →
      fetchEntryByHash client p = .ok fetched →
      (history.setEntry fetched).blockEntries.lookup k = some entry := by
    intro history p fetched hk hnone hfetch
    obtain ⟨block, hblock, hheader⟩ := fetchEntryByHash_ok hfetch
    have hhash : fetched.hash = p := (congrArg Header.hash hheader).trans (hclient p block hblock)
    have hne : k ≠ fetched.hash := by
      rintro rfl
      rw [hhash] at hk
      cases hnone.symm.trans hk
    rw [lookup_setEntry, if_neg hne]
    exact hk
  obtain ⟨-, hkept, -⟩ := walkParents_invariant
    (I := fun history _ => history.blockEntries.lookup k = some entry) (fun _ _ _ hk _ _ => hk)
    (fun history p fetched hk hnone hfetch _ => hfetched history p fetched hk hnone hfetch) h hk
  exact hkept

/-- **Moves of the head.**  For a header that is known nothing happens.  One that is not known has
an entry of its own after it, with nothing in it. -/
lemma setChainHead_entry (hclient : client.GivesAsked) {answer : Except Report (Bool × ℕ)}
    (h : BlockHistoryManager.setChainHead fuel client history header = .ok (answer, history')) :
    (∃ entry, history.getBlockHistoryEntry header.hash = some entry) ∧ history' = history ∧
        answer = .ok (false, 0) ∨
      history.getBlockHistoryEntry header.hash = none ∧
        history'.getBlockHistoryEntry header.hash = some (.ofHeader header) := by
  have hnone : history.containsBlock header.hash = false →
      history.getBlockHistoryEntry header.hash = none := fun hcontains =>
    Option.not_isSome_iff_eq_none.mp (Bool.eq_false_iff.mp hcontains)
  cases headAnswer_of_setChainHead h with
  | known hknown => exact Or.inl ⟨Option.isSome_iff_exists.mp hknown, rfl, rfl⟩
  | added hcontains _ hadded => exact Or.inr ⟨hnone hcontains, hadded.own⟩
  | walked hcontains _ hadded _ _ hwalk =>
      exact Or.inr ⟨hnone hcontains, walkParents_lookup hclient hwalk hadded.own⟩

lemma headFails_of_error
    (h : BlockHistoryManager.setChainHead fuel client history header = .ok (.error e, history')) :
    HeadFails client history header := by
  obtain ⟨hcontains, hle, minBlock, hfirst, hwalk⟩ := walkParents_of_setChainHead_error h
  exact ⟨hcontains, hle, minBlock, hfirst, walkFails_of_walkParents hwalk⟩

lemma addBlock_ok {block : Block} {entry : BlockHistoryEntry Block}
    (hentry : history.getBlockHistoryEntry (KabuBlock.getHeader block).hash = some entry)
    (hnone : entry.block = none) : ∃ history', history.addBlock block = (.ok (), history') := by
  have hinserted :
      (history.getOrInsertEntryWithHeader (KabuBlock.getHeader block)).2.block = none := by
    unfold getOrInsertEntryWithHeader
    dsimp only
    split
    · rename_i entry' hlookup
      have hknown := entries_madeRoom hlookup
      rw [← Option.some.inj (hentry.symm.trans hknown)]
      exact hnone
    · rfl
  unfold addBlock
  dsimp only
  rw [hinserted]
  exact ⟨_, rfl⟩

omit [KabuBlock Block] in
lemma madeRoom_of_uncut (h : history.Uncut header) : history.madeRoom header = history := by
  obtain ⟨hbelow, hcut⟩ := h
  unfold madeRoom
  simp only [if_neg (not_le.mpr hbelow)]
  by_cases hdepth : header.number > history.depth
  · obtain ⟨hnumbers, hcanonical⟩ := hcut hdepth
    have hkept : history.blockNumbers.retain
        (fun key _ => decide (key > header.number - history.depth)) = history.blockNumbers :=
      AssocMap.retain_eq_self fun n h hn => decide_eq_true (hnumbers n h hn)
    have hvalues : ∀ h, (∃ n, history.blockNumbers.lookup n = some h) →
        history.blockNumbers.values.contains h = true := fun h hn =>
      List.contains_iff_mem.mpr ((AssocMap.mem_values _ _).mpr hn)
    rw [if_pos hdepth]
    unfold retainAbove
    simp only [hkept]
    ext1
    · rfl
    · rfl
    · exact AssocMap.retain_eq_self fun k db hk =>
        hvalues k (hcanonical k (Or.inr (by rw [hk]; simp)))
    · exact AssocMap.retain_eq_self fun k entry hk =>
        hvalues k (hcanonical k (Or.inl (by rw [hk]; simp)))
    · rfl
  · rw [if_neg hdepth]

/-- A block that is refused leaves a history that it does not cut off as it was. -/
lemma addBlock_uncut {block : Block} {entry : BlockHistoryEntry Block}
    (hentry : history.getBlockHistoryEntry (KabuBlock.getHeader block).hash = some entry)
    (hcut : history.Uncut (KabuBlock.getHeader block))
    (h : history.addBlock block = (.error e, history')) : history' = history := by
  have hinserted : history.getOrInsertEntryWithHeader (KabuBlock.getHeader block) =
      (history, entry) := by
    have hroom := madeRoom_of_uncut hcut
    unfold madeRoom at hroom
    unfold getOrInsertEntryWithHeader
    simp only [hroom]
    simp only [getBlockHistoryEntry] at hentry
    rw [hentry]
  unfold addBlock at h
  simp only [hinserted] at h
  split at h
  · exact (Prod.mk.inj h).2.symm
  · exact absurd (Prod.mk.inj h).1 (by simp)

section Accessors

omit [KabuBlock Block]

variable {k : BlockHash} {entry : BlockHistoryEntry Block}

lemma addLogs_ne_none (hentry : history.getBlockHistoryEntry k = some entry) (logs : List Log) :
    history.addLogs k logs ≠ none := fun hnone =>
  absurd ((Option.map_eq_none_iff.mp hnone).symm.trans hentry) (by simp)

lemma addStateDiff_ne_none (hentry : history.getBlockHistoryEntry k = some entry)
    (stateUpdate : GethStateUpdateVec) : history.addStateDiff k stateUpdate ≠ none := fun hnone =>
  absurd ((Option.map_eq_none_iff.mp hnone).symm.trans hentry) (by simp)

lemma addLogs_error {logs : List Log}
    (h : history.addLogs k logs = some (.error e, history')) :
    history' = history ∧ ∃ entry, history.getBlockHistoryEntry k = some entry ∧
      entry.logs ≠ none := by
  obtain ⟨entry, hentry, hanswer⟩ := Option.map_eq_some_iff.mp h
  split at hanswer
  · exact absurd (Prod.mk.inj hanswer).1 (by simp)
  · rename_i hlogs
    exact ⟨(Prod.mk.inj hanswer).2.symm, entry, hentry, by simpa using hlogs⟩

lemma addStateDiff_error {stateUpdate : GethStateUpdateVec}
    (h : history.addStateDiff k stateUpdate = some (.error e, history')) :
    history' = history ∧ ∃ entry, history.getBlockHistoryEntry k = some entry ∧
      entry.stateUpdate ≠ none := by
  obtain ⟨entry, hentry, hanswer⟩ := Option.map_eq_some_iff.mp h
  split at hanswer
  · exact absurd (Prod.mk.inj hanswer).1 (by simp)
  · rename_i hupdate
    exact ⟨(Prod.mk.inj hanswer).2.symm, entry, hentry, by simpa using hupdate⟩

end Accessors

end Entries

namespace WorkerState

/-! ## The move of the head -/

section Head

variable {client : Client Block} {w w₁ : WorkerState DB Block} {header : Header} {fuel : ℕ}

/-- What a move of the head that succeeds does to the worker. -/
inductive HeadSet (w : WorkerState DB Block) (header : Header) : WorkerState DB Block → Prop
  /-- The header was known. -/
  | known {entry : BlockHistoryEntry Block} :
      w.blockHistory.getBlockHistoryEntry header.hash = some entry → HeadSet w header w
  /-- The header has an entry of its own, and may have become the latest block. -/
  | added {w₁ : WorkerState DB Block} :
      w.blockHistory.getBlockHistoryEntry header.hash = none →
      w₁.blockHistory.getBlockHistoryEntry header.hash = some (.ofHeader header) →
      w₁.running = w.running → w₁.marketState = w.marketState →
      (w₁.latestBlock = w.latestBlock ∨
        ¬ header.number < w.latestBlock.blockNumber ∧ w₁.latestBlock.Is header) →
      HeadSet w header w₁

lemma HeadSet.running_eq (h : HeadSet w header w₁) : w₁.running = w.running := by
  cases h with
  | known _ => rfl
  | added _ _ hrunning _ _ => exact hrunning

lemma HeadSet.exists_entry (h : HeadSet w header w₁) :
    ∃ entry, w₁.blockHistory.getBlockHistoryEntry header.hash = some entry := by
  cases h with
  | known hentry => exact ⟨_, hentry⟩
  | added _ hentry _ _ _ => exact ⟨_, hentry⟩

lemma latestBlock_update (latest : LatestBlock Block) (header : Header) :
    (latest.update header.number header.hash (some header) none none none).2 = latest ∨
      ¬ header.number < latest.blockNumber ∧
        (latest.update header.number header.hash (some header) none none none).2.Is header := by
  by_cases hlt : header.number < latest.blockNumber
  · left
    unfold LatestBlock.update
    rw [if_neg (by omega)]
  · exact Or.inr ⟨hlt, is_update_header hlt⟩

variable [KabuBlock Block]

/-- **The head.**  A head that can be moved is moved. -/
lemma setChainHead_headSet (hfits : w.HeadFits client header)
    {answer : Except Report (Bool × ℕ)}
    (h : w.setChainHead fuel client header = .ok (answer, w₁)) :
    ∃ moved, answer = .ok moved ∧ HeadSet w header w₁ := by
  unfold setChainHead at h
  obtain ⟨⟨answer', history⟩, hset, hanswer⟩ := exceptMap_eq_ok h
  cases answer' with
  | error e => exact absurd (headFails_of_error hset) hfits.moves
  | ok moved =>
      obtain ⟨isNew, reorgDepth⟩ := moved
      obtain ⟨rfl, rfl⟩ := Prod.mk.inj hanswer
      refine ⟨_, rfl, ?_⟩
      rcases setChainHead_entry hfits.asked hset with ⟨⟨entry, hentry⟩, rfl, hok⟩ | ⟨hnone, hown⟩
      · obtain ⟨rfl, -⟩ := Prod.mk.inj (Except.ok.inj hok)
        exact .known hentry
      · refine .added hnone hown rfl rfl ?_
        cases isNew with
        | true => exact latestBlock_update w.latestBlock header
        | false => exact Or.inl rfl

lemma FailsAfterHead.rest {moved : Bool × ℕ} {rest : WorkerState DB Block → Prop}
    (h : w.FailsAfterHead fuel client header rest)
    (hset : w.setChainHead fuel client header = .ok (.ok moved, w₁)) : rest w₁ := by
  obtain ⟨answer, w₁', hset', hfails⟩ := h
  obtain ⟨rfl, rfl⟩ := Prod.mk.inj (Except.ok.inj (hset.symm.trans hset'))
  rcases hfails with ⟨e, he⟩ | hrest
  · simp at he
  · exact hrest

end Head

/-! ## Headers, blocks and logs -/

section Receive

variable [KabuBlock Block] {client : Client Block} {w w' : WorkerState DB Block} {header : Header}
  {fuel : ℕ}

omit [KabuBlock Block] in
lemma updateLatest_running (w : WorkerState DB Block) (header : Header) (block : Option Block)
    (logs : Option (List Log)) : (w.updateLatest header block logs).running = w.running := by
  unfold updateLatest
  split <;> rfl

lemma receiveHeader_kept (hfits : w.HeadFits client header)
    (h : w.receiveHeader fuel client header = .ok w') :
    w'.running = w.running ∧ ¬ w.FailsAfterHead fuel client header fun _ => False := by
  unfold receiveHeader at h
  obtain ⟨⟨answer, w₁⟩, hset, hanswer⟩ := exceptMap_eq_ok h
  obtain ⟨moved, rfl, hhead⟩ := setChainHead_headSet hfits hset
  rw [← hanswer]
  exact ⟨hhead.running_eq, fun hfails => hfails.rest hset⟩

lemma receiveBlock_kept {block : Block}
    (hfits : w.MessageFits client (.block block)) (h : w.receiveBlock fuel client block = .ok w') :
    w'.running = w.running ∧ ((w.FailsAfterHead fuel client (KabuBlock.getHeader block) fun w₁ =>
      ∃ e history, w₁.blockHistory.addBlock block = (.error e, history)) → w' = w) := by
  obtain ⟨hheadFits, hknown⟩ := hfits
  unfold receiveBlock at h
  obtain ⟨⟨answer, w₁⟩, hset, hanswer⟩ := exceptMap_eq_ok h
  obtain ⟨moved, rfl, hhead⟩ := setChainHead_headSet hheadFits hset
  dsimp only at hanswer
  split at hanswer
  · rename_i e history hadd
    rw [← hanswer]
    refine ⟨hhead.running_eq, fun _ => ?_⟩
    cases hhead with
    | @known entry hentry =>
        rcases hknown entry hentry with hnone | hcut
        · obtain ⟨history', hok⟩ := addBlock_ok hentry hnone
          cases hadd.symm.trans hok
        · rw [addBlock_uncut hentry hcut hadd]
    | added _ hown _ _ _ =>
        obtain ⟨history', hok⟩ := addBlock_ok hown rfl
        cases hadd.symm.trans hok
  · rename_i history hadd
    rw [← hanswer]
    refine ⟨(updateLatest_running _ _ _ _).trans hhead.running_eq, fun hfails => ?_⟩
    obtain ⟨e, history', herror⟩ := hfails.rest hset
    cases hadd.symm.trans herror

lemma receiveLogs_kept {logs : List Log} (hfits : w.HeadFits client header)
    (h : w.receiveLogs fuel client header logs = .ok w') :
    w'.running = w.running ∧ ((w.FailsAfterHead fuel client header fun w₁ =>
      ∃ e history, w₁.blockHistory.addLogs header.hash logs = some (.error e, history)) →
        w' = w) := by
  unfold receiveLogs at h
  obtain ⟨⟨answer, w₁⟩, hset, hanswer⟩ := exceptMap_eq_ok h
  obtain ⟨moved, rfl, hhead⟩ := setChainHead_headSet hfits hset
  dsimp only at hanswer
  split at hanswer
  · rename_i hpanic
    obtain ⟨entry, hentry⟩ := hhead.exists_entry
    exact absurd hpanic (addLogs_ne_none hentry logs)
  · rename_i e history hadd
    obtain ⟨rfl, entry, hentry, hlogs⟩ := addLogs_error hadd
    rw [← hanswer]
    refine ⟨hhead.running_eq, fun _ => ?_⟩
    cases hhead with
    | known _ => rfl
    | added _ hown _ _ _ =>
        rw [← Option.some.inj (hown.symm.trans hentry)] at hlogs
        exact absurd rfl hlogs
  · rename_i history hadd
    rw [← hanswer]
    refine ⟨(updateLatest_running _ _ _ _).trans hhead.running_eq, fun hfails => ?_⟩
    obtain ⟨e, history', herror⟩ := hfails.rest hset
    cases hadd.symm.trans herror

end Receive

/-! ## State updates -/

section StateUpdate

variable [BlockHistoryState DB Block] {client : Client Block} {w w' : WorkerState DB Block}
  {header : Header} {fuel : ℕ} {stateUpdate : GethStateUpdateVec}

variable {history : BlockHistory DB Block}

lemma newMarketStateDb_entry {blockHash parentHash : BlockHash} {answer : Except Report DB}
    (h : w.newMarketStateDb fuel client blockHash parentHash = .ok (answer, history))
    (k : BlockHash) :
    history.getBlockHistoryEntry k = w.blockHistory.getBlockHistoryEntry k := by
  cases answer with
  | error e => rw [newMarketStateDb_error h]
  | ok newDb =>
      have hfound : FoundDb client w.marketState w.blockHistory ⟨blockHash, parentHash, 0⟩ newDb
        history := newMarketStateDb_ok h
      exact hfound.getBlockHistoryEntry_eq k

variable {entry : BlockHistoryEntry Block}

section

variable (hentry : w.blockHistory.getBlockHistoryEntry header.hash = some entry)

include hentry

lemma newMarketStateDb_keeps {newDb : DB}
    (hpath : w.AtParent ∨ ∀ path base, ReplayPath w.blockHistory entry.parentHash path base →
      path = [])
    (h : w.newMarketStateDb fuel client header.hash (w.latestBlock.parentHash.getD 0) =
      .ok (.ok newDb, history)) :
    history = w.blockHistory := by
  have hfound : FoundDb client w.marketState w.blockHistory
      ⟨header.hash, w.latestBlock.parentHash.getD 0, 0⟩ newDb history := newMarketStateDb_ok h
  cases hfound with
  | market _ => rfl
  | rebuilt hzero hparent hown _ hreplay hfold =>
      rcases hpath with hat | hnone
      · rcases hat with hat | hat
        · exact absurd hat hzero
        · exact absurd hat hparent
      · obtain rfl := Option.some.inj (hentry.symm.trans hown)
        rw [hnone _ _ hreplay] at hfold
        exact (Prod.mk.inj hfold).2.symm

lemma newMarketStateDb_ne_error
    (hdb : w.AtParent ∨ (∃ fetched, FilledIn client entry fetched) ∧
      ∃ path base, ReplayPath w.blockHistory entry.parentHash path base) :
    w.newMarketStateDb fuel client header.hash (w.latestBlock.parentHash.getD 0) ≠
      .ok (.error e, history) := by
  intro h
  unfold newMarketStateDb at h
  split at h
  · exact absurd (Prod.mk.inj (Except.ok.inj h)).1 (by simp)
  · rename_i hat
    obtain ⟨⟨fetched, hfilled⟩, path, base, hpath⟩ := hdb.resolve_left hat
    have hsame : fetched.parentHash = entry.parentHash :=
      congrArg Header.parentHash hfilled.header_eq
    unfold FilledIn at hfilled
    unfold applyStateUpdateOnParentDb at h
    simp only [hentry, hfilled] at h
    obtain ⟨⟨parent, history'⟩, hget, hanswer⟩ := exceptMap_eq_ok h
    obtain ⟨hparent, rfl⟩ := Prod.mk.inj hanswer
    cases parent with
    | ok parentDb => simp [Except.map] at hparent
    | error e' => exact not_replayPath_of_error hget path base (hsame ▸ hpath)

lemma not_updateFails (hnone : entry.stateUpdate = none)
    (hdb : w.latestBlock.blockHash = header.hash → w.AtParent ∨
      (∃ fetched, FilledIn client entry fetched) ∧
      ∃ path base, ReplayPath w.blockHistory entry.parentHash path base) :
    ¬ w.UpdateFails fuel client header stateUpdate := by
  intro hfails
  unfold UpdateFails at hfails
  split at hfails
  · obtain ⟨e, history, hadd⟩ := hfails
    obtain ⟨-, entry', hentry', hsome⟩ := addStateDiff_error hadd
    exact hsome (Option.some.inj (hentry.symm.trans hentry') ▸ hnone)
  · rename_i hlatest
    obtain ⟨answer, history, hfound, ⟨e, rfl⟩ | ⟨e, history', hadd⟩⟩ := hfails
    · exact newMarketStateDb_ne_error hentry (hdb (not_not.mp hlatest)) hfound
    · obtain ⟨-, entry', hentry', hsome⟩ := addStateDiff_error hadd
      rw [newMarketStateDb_entry hfound, hentry] at hentry'
      exact hsome (Option.some.inj hentry' ▸ hnone)

end

omit [BlockHistoryState DB Block] in
lemma update_of_hasUpdate (hlatest : w.latestBlock.blockHash = header.hash)
    (h : w.HasUpdate header stateUpdate) :
    (w.latestBlock.update header.number header.hash none none none (some stateUpdate)).2 =
      w.latestBlock := by
  unfold LatestBlock.update
  rcases h with hlt | ⟨hnumber, hdiff⟩
  · rw [if_neg (by omega)]
  · rw [if_pos (by omega), if_neg (by rw [hlatest, hnumber]; simp)]
    cases hw : w.latestBlock
    rw [hw] at hdiff
    simp only at hdiff
    simp [hdiff]

/-- An update that the latest block has and for which no database is stored leaves nothing. -/
lemma updateMarket_of_updateFails
    (hentry : w.blockHistory.getBlockHistoryEntry header.hash = some entry)
    (hlatest : w.latestBlock.blockHash = header.hash) (hhas : w.HasUpdate header stateUpdate)
    (hpath : w.AtParent ∨ ∀ path base, ReplayPath w.blockHistory entry.parentHash path base →
      path = [])
    (hfails : w.UpdateFails fuel client header stateUpdate)
    (h : w.updateMarket fuel client header stateUpdate = .ok w') : w' = w := by
  unfold UpdateFails at hfails
  rw [if_neg (not_not.mpr hlatest)] at hfails
  obtain ⟨answer, history, hfound, hfails⟩ := hfails
  unfold updateMarket at h
  simp only [update_of_hasUpdate hlatest hhas, hfound] at h
  cases answer with
  | error e =>
      rw [newMarketStateDb_error hfound] at h
      exact (Except.ok.inj h).symm
  | ok newDb =>
      obtain ⟨e, he⟩ | ⟨e, history', hadd⟩ := hfails
      · simp at he
      · obtain ⟨rfl, -⟩ := addStateDiff_error hadd
        rw [newMarketStateDb_keeps hentry hpath hfound] at hadd h
        simp only [moveMarket, hadd] at h
        exact (Except.ok.inj h).symm

lemma newMarketStateDb_ne_panic {blockHash parentHash : BlockHash}
    (hentry : w.blockHistory.getBlockHistoryEntry blockHash = some entry) :
    w.newMarketStateDb fuel client blockHash parentHash ≠ .error .panic := by
  intro h
  unfold newMarketStateDb at h
  split at h
  · simp at h
  · unfold applyStateUpdateOnParentDb at h
    simp only [hentry] at h
    split at h
    · simp at h
    · rename_i fetched _
      unfold getParentState at h
      cases hfind : findParentDb w.blockHistory w.blockHistory.getFirstBlockNumber fuel
          fetched.parentHash [] with
      | error halt =>
          rw [hfind] at h
          obtain rfl : halt = .panic := Except.error.inj h
          exact findParentDb_ne_panic _ _ _ _ _ hfind
      | ok found =>
          rw [hfind] at h
          simp [Except.map] at h

lemma moveMarket_running {newDb : DB} {number : ℕ}
    (hentry : w.blockHistory.getBlockHistoryEntry header.hash = some entry) :
    (w.moveMarket newDb header number stateUpdate).running = w.running := by
  unfold moveMarket
  split
  · rename_i hpanic
    exact absurd hpanic (addStateDiff_ne_none hentry stateUpdate)
  · rfl
  · split <;> rfl

lemma updateMarket_running (hentry : w.blockHistory.getBlockHistoryEntry header.hash = some entry)
    (h : w.updateMarket fuel client header stateUpdate = .ok w') : w'.running = w.running := by
  unfold updateMarket at h
  dsimp only at h
  split at h
  · simp at h
  · rename_i hpanic
    exact absurd hpanic (newMarketStateDb_ne_panic hentry)
  · rw [← Except.ok.inj h]
  · rename_i newDb history hfound
    rw [← Except.ok.inj h]
    exact moveMarket_running (w := { w with
      latestBlock := _, blockHistory := history }) ((newMarketStateDb_entry hfound _).trans hentry)

lemma HeadSet.eq_of_updateFails {w₁ : WorkerState DB Block} (hhead : HeadSet w header w₁)
    (hfits : w.UpdateFits client header stateUpdate)
    (hfails : w₁.UpdateFails fuel client header stateUpdate) :
    w₁ = w := by
  cases hhead with
  | known _ => rfl
  | added hnone hown _ hmarket hlatest =>
      simp only [UpdateFits, hnone] at hfits
      refine absurd hfails (not_updateFails hown rfl fun hhash => Or.inl ?_)
      unfold AtParent
      rw [hmarket]
      rcases hfits with hzero | ⟨hne, hparent⟩
      · exact Or.inl hzero
      · rcases hlatest with hsame | ⟨hle, his⟩
        · exact absurd (hsame ▸ hhash) hne
        · refine Or.inr ?_
          rw [LatestBlock.parentHash, his.header]
          exact hparent.resolve_left hle

variable [KabuBlock Block]

lemma receiveStateUpdate_kept (hfits : w.MessageFits client (.stateUpdate header stateUpdate))
    (h : w.receiveStateUpdate fuel client header stateUpdate = .ok w') :
    w'.running = w.running ∧ ((w.FailsAfterHead fuel client header fun w₁ =>
      w₁.UpdateFails fuel client header stateUpdate) → w' = w) := by
  obtain ⟨hheadFits, hupdate⟩ := hfits
  unfold receiveStateUpdate at h
  cases hset : w.setChainHead fuel client header with
  | error halt =>
      rw [hset] at h
      simp at h
  | ok result =>
      obtain ⟨answer, w₁⟩ := result
      obtain ⟨moved, rfl, hhead⟩ := setChainHead_headSet hheadFits hset
      obtain ⟨entry, hentry⟩ := hhead.exists_entry
      simp only [hset] at h
      by_cases hlatest : w₁.latestBlock.blockHash = header.hash
      · rw [if_neg (not_not.mpr hlatest)] at h
        refine ⟨(updateMarket_running hentry h).trans hhead.running_eq, fun hfails => ?_⟩
        have hafter := hfails.rest hset
        obtain rfl := HeadSet.eq_of_updateFails hhead hupdate hafter
        simp only [UpdateFits, hentry] at hupdate
        rcases hupdate hlatest with ⟨hnone, hdb⟩ | ⟨hhas, hpath⟩
        · exact absurd hafter (not_updateFails hentry hnone fun _ => hdb)
        · exact updateMarket_of_updateFails hentry hlatest hhas hpath hafter h
      · rw [if_pos hlatest] at h
        split at h
        · rename_i hpanic
          exact absurd hpanic (addStateDiff_ne_none hentry stateUpdate)
        · rename_i result history hadd
          obtain rfl := Except.ok.inj h
          refine ⟨hhead.running_eq, fun hfails => ?_⟩
          have hafter := hfails.rest hset
          obtain rfl := HeadSet.eq_of_updateFails hhead hupdate hafter
          unfold UpdateFails at hafter
          rw [if_pos hlatest] at hafter
          obtain ⟨e, history', herror⟩ := hafter
          obtain ⟨-, rfl⟩ := Prod.mk.inj (Option.some.inj (hadd.symm.trans herror))
          rw [(addStateDiff_error herror).1]

/-! ## Runs -/

/-- **Messages.**  The worker goes on, and is left as it was by a message that fails. -/
lemma receive_kept {message : WorkerMessage Block} (hfits : w.MessageFits client message)
    (h : w.receive fuel client message = .ok w') :
    w'.running = w.running ∧ (w.Fails fuel client message → w' = w) := by
  cases message with
  | header header =>
      obtain ⟨hrunning, hnot⟩ := receiveHeader_kept hfits h
      exact ⟨hrunning, fun hfails => absurd hfails hnot⟩
  | block block => exact receiveBlock_kept hfits h
  | logs header logs => exact receiveLogs_kept hfits h
  | stateUpdate header stateUpdate => exact receiveStateUpdate_kept hfits h

/-- **Failures.**  In a run whose messages all fit, the worker runs at all times, and a message
that fails next leaves it as it was. -/
theorem outlives_of_run [DatabaseKabuExt DB] (depth : ℕ) (marketState : MarketState DB)
    (w : WorkerState DB Block)
    (hrun : Runs.Reached (fun w event w' => workerStep w event = some w') EventKept
      (WorkerState.init depth marketState) w) :
    w.running = true ∧ ∀ fuel client message w', w.MessageFits client message →
      workerStep w (.receive fuel client message) = some w' →
      w'.running = true ∧ (w.Fails fuel client message → w' = w) := by
  have hkept : ∀ (w : WorkerState DB Block) event w', w.running = true → w.EventKept event →
      workerStep w event = some w' → w'.running = true := by
    intro w event w' hw hfits hstep
    cases event with
    | receive fuel client message =>
        exact (receive_kept hfits (receive_of_workerStep hstep)).1.trans hw
    | merge i =>
        obtain ⟨task, -, rfl⟩ := Option.map_eq_some_iff.mp hstep
        exact hw
  have hrunning : w.running = true := Runs.Reached.invariant hkept hrun rfl
  refine ⟨hrunning, fun fuel client message w' hfits hstep => ?_⟩
  obtain ⟨hsame, hdropped⟩ := receive_kept hfits (receive_of_workerStep hstep)
  exact ⟨hsame.trans hrunning, hdropped⟩

end StateUpdate

/-! ### Failures that are dropped and failures that are not -/

/-- The update of the first block arrives a second time, and what the worker asks for is not
given.  Nothing comes of it. -/
theorem firstState_outlives :
    letI := constKeccak
    firstState.Fails 1 silentClient (.stateUpdate firstHeader (writeSlot 1)) ∧
      workerStep firstState firstUpdate = some firstState ∧ firstState.running = true := by
  let _ := constKeccak
  have hasked : silentClient.GivesAsked := fun p block h => absurd h (by simp [silentClient])
  have hrun : Runs.Reached (fun w event w' => workerStep w event = some w') EventKept
      freshState firstState := by
    refine Relation.ReflTransGen.single ⟨firstUpdate, ⟨⟨hasked, ?_⟩, Or.inl rfl⟩, rfl⟩
    rintro ⟨-, -, minBlock, hfirst, -⟩
    have hnone : freshState.blockHistory.getFirstBlockNumber = none := rfl
    cases hnone.symm.trans hfirst
  have hfails : firstState.Fails 1 silentClient (.stateUpdate firstHeader (writeSlot 1)) :=
    ⟨_, _, rfl, Or.inr ⟨_, _, rfl, Or.inl ⟨_, rfl⟩⟩⟩
  have hfits : firstState.MessageFits silentClient (.stateUpdate firstHeader (writeSlot 1)) := by
    refine ⟨⟨hasked, fun hhead => absurd hhead.1 (by decide)⟩, fun _ => Or.inr ⟨Or.inr ⟨rfl, rfl⟩,
      Or.inr fun path base hpath => ?_⟩⟩
    have hparent : firstState.blockHistory.getBlockHistoryEntry 9 = none := rfl
    cases hpath with
    | stored _ _ => rfl
    | missed hentry _ _ => cases hparent.symm.trans hentry
  obtain ⟨hrunning, hnext⟩ := outlives_of_run 10 (MarketState.new untrackedDb) firstState hrun
  obtain ⟨-, hsame⟩ := hnext 1 silentClient _ _ hfits rfl
  exact ⟨hfails, congrArg some (hsame hfails), hrunning⟩

/-- A client that knows the blocks of the fork, and gives no logs. -/
def loglessClient : Client Header := forkClient fun _ => .error "LOGS"

/-- **Failures that are not outlived.**  The right block of the fork cannot be fetched, and the
head is to be moved to the one above it.  If the header of that asks for it, the worker returns.
If logs ask for it they are not dropped: the header that comes later, when the right block can be
fetched, does not become the latest block, as it would have without the logs. -/
theorem failures_not_outlived :
    letI := constKeccak
    ∃ w stopped failed later undisturbed : WorkerState KabuDB Header,
      [.receive 4 loglessClient (.header rootHeader),
          .receive 4 loglessClient (.header leftHeader)].foldlM workerStep
        (WorkerState.init 10 (MarketState.new untrackedDb)) = some w ∧
      workerStep w (.receive 4 loglessClient (.header tipHeader)) = some stopped ∧
      stopped.running = false ∧
      w.Fails 4 loglessClient (.logs tipHeader []) ∧
      workerStep w (.receive 4 loglessClient (.logs tipHeader [])) = some failed ∧
      workerStep failed (.receive 4 (forkClient fun _ => .ok []) (.header tipHeader)) =
        some later ∧
      workerStep w (.receive 4 (forkClient fun _ => .ok []) (.header tipHeader)) =
        some undisturbed ∧
      later.latestBlock.blockHash = leftHeader.hash ∧
      undisturbed.latestBlock.blockHash = tipHeader.hash := by
  let _ := constKeccak
  exact ⟨_, _, _, _, _, rfl, rfl, rfl, ⟨_, _, rfl, Or.inl ⟨_, rfl⟩⟩, rfl, rfl, rfl, rfl, rfl⟩

end WorkerState

end Kabu
