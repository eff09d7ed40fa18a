import Kabu.Core.WorkerSteps
import Kabu.Entities.BlockHistoryState
import Kabu.Framework.Runs
import Kabu.Properties.HeadFailure

/-!
# Two trackers of the head

The worker keeps the head twice: the block history has the number of the head and a hash for it,
and the latest block has both for itself.  They should name the same block after every message
(`HeadsAgree`).

Each of the two decides on its own when to move, and in between the worker makes requests that can
fail.  So they part when the walk from a new header fails, since the history has moved by then and
the latest block never does.  They also part when the full block of a known sibling of the head
arrives: the history takes it for the head again, though the header is not new.  `KeepsHeads` says
that nothing of this happens, and in a run of such messages the trackers agree after each of them
(`headsAgree_of_run`).
-/

namespace Kabu

open BlockHistoryManager BlockHistory

variable {DB Block : Type*}

/-- The head of the history is the given block. -/
def BlockHistory.HeadIs (history : BlockHistory DB Block) (number : ℕ) (hash : BlockHash) : Prop :=
  history.latestBlockNumber = number ∧ history.blockNumbers.lookup number = some hash

/-- The latest block is the head of the history. -/
def HeadsAgree (w : WorkerState DB Block) : Prop :=
  w.blockHistory.HeadIs w.latestBlock.blockNumber w.latestBlock.blockHash

/-! ## When the head is kept -/

section Conditions

variable [KabuBlock Block]

/-- The walk from `p` passes the block of the entry, and makes it canonical. -/
inductive WalkPasses (client : Client Block) (minBlock : ℕ) (passed : BlockHistoryEntry Block) :
    BlockHistory DB Block → BlockHash → Prop
  | known {history : BlockHistory DB Block} {p : BlockHash} :
      history.getBlockHistoryEntry p = some passed →
      (history.getBlockHashForBlockNumber passed.number).getD 0 ≠ passed.hash →
      WalkPasses client minBlock passed history p
  | fetched {history : BlockHistory DB Block} {p : BlockHash} :
      history.getBlockHistoryEntry p = none → fetchEntryByHash client p = .ok passed →
      minBlock ≤ passed.number → WalkPasses client minBlock passed history p
  | afterKnown {history : BlockHistory DB Block} {p : BlockHash}
      {entry : BlockHistoryEntry Block} :
      history.getBlockHistoryEntry p = some entry →
      (history.getBlockHashForBlockNumber entry.number).getD 0 ≠ entry.hash →
      WalkPasses client minBlock passed (history.setBlockNumber entry.number entry.hash)
        entry.parentHash →
      WalkPasses client minBlock passed history p
  | afterFetched {history : BlockHistory DB Block} {p : BlockHash}
      {entry : BlockHistoryEntry Block} :
      history.getBlockHistoryEntry p = none → fetchEntryByHash client p = .ok entry →
      minBlock ≤ entry.number →
      WalkPasses client minBlock passed (history.setEntry entry) entry.parentHash →
      WalkPasses client minBlock passed history p

/-- The header is a new head, and the walk from its parent passes the block. -/
def HeadPasses (client : Client Block) (history : BlockHistory DB Block) (header : Header)
    (passed : BlockHistoryEntry Block) : Prop :=
  history.containsBlock header.hash = false ∧ history.latestBlockNumber ≤ header.number ∧
    ∃ minBlock, history.getFirstBlockNumber = some minBlock ∧
      WalkPasses client minBlock passed (history.addBlockHeader header).2 header.parentHash

/-- Making the header the head succeeds and leaves it there. -/
structure HeadKept (client : Client Block) (history : BlockHistory DB Block) (header : Header) :
    Prop where
  /-- The cut-off spares the head itself. -/
  room : history.latestBlockNumber ≤ header.number → history.keeps header header.number
  served : ¬ HeadFails client history header
  /-- No other block of the head's number is made canonical on the way. -/
  below : ∀ passed, HeadPasses client history header passed → passed.number ≠ header.number

/-- A known block does not claim a higher number than the latest block has under its hash. -/
def NumberFits (w : WorkerState DB Block) (header : Header) : Prop :=
  w.blockHistory.containsBlock header.hash = true → header.hash = w.latestBlock.blockHash →
    header.number ≤ w.latestBlock.blockNumber

/-- The message leaves both trackers at the same head.  A full block must not be one that is known
already and is not the head, though it is not below it. -/
def KeepsHeads (w : WorkerState DB Block) (client : Client Block) : WorkerMessage Block → Prop
  | .header header => HeadKept client w.blockHistory header
  | .block block =>
      HeadKept client w.blockHistory (KabuBlock.getHeader block) ∧
        (w.blockHistory.containsBlock (KabuBlock.getHeader block).hash = true →
          w.blockHistory.latestBlockNumber ≤ (KabuBlock.getHeader block).number →
          w.blockHistory.HeadIs (KabuBlock.getHeader block).number (KabuBlock.getHeader block).hash)
  | .logs header _ => HeadKept client w.blockHistory header ∧ NumberFits w header
  | .stateUpdate header _ => HeadKept client w.blockHistory header ∧ NumberFits w header

/-- The event is a message that keeps the heads, or no message at all. -/
def EventKeepsHeads (w : WorkerState DB Block) : WorkerEvent Block → Prop
  | .receive _ client message => KeepsHeads w client message
  | .merge _ => True

end Conditions

/-! ## The history -/

section History

variable {history history' : BlockHistory DB Block} {header : Header} {n : ℕ} {k : BlockHash}

lemma BlockHistory.HeadIs.of_eq (h : history.HeadIs n k)
    (hlatest : history'.latestBlockNumber = history.latestBlockNumber)
    (hnumbers : history'.blockNumbers = history.blockNumbers) : history'.HeadIs n k := by
  unfold HeadIs
  rw [hlatest, hnumbers]
  exact h

lemma BlockHistory.HeadIs.setBlockNumber (h : history.HeadIs n k) {m : ℕ} (hm : m ≠ n)
    (hash : BlockHash) : (history.setBlockNumber m hash).HeadIs n k := by
  refine ⟨h.1, ?_⟩
  rw [lookup_setBlockNumber, if_neg hm.symm]
  exact h.2

lemma HeaderAdded.headIs_of_le (h : HeaderAdded history header history')
    (hle : history.latestBlockNumber ≤ header.number)
    (hroom : history.keeps header header.number) : history'.HeadIs header.number header.hash := by
  refine ⟨h.latest.trans (max_eq_right hle), ?_⟩
  rw [h.numbers, if_pos ⟨hle, rfl⟩]
  exact ⟨hroom, rfl⟩

lemma HeaderAdded.headIs_of_lt (h : HeaderAdded history header history')
    (hlt : header.number < history.latestBlockNumber) (hhead : history.HeadIs n k) :
    history'.HeadIs n k := by
  obtain ⟨rfl, hk⟩ := hhead
  refine ⟨h.latest.trans (max_eq_left hlt.le), ?_⟩
  rw [h.numbers, if_neg (by omega)]
  refine ⟨fun _ => ?_, hk⟩
  omega

lemma headIs_getOrInsertEntry (hhead : history.HeadIs n k)
    (hroom : history.latestBlockNumber ≤ header.number → history.keeps header header.number)
    (hself : history.latestBlockNumber ≤ header.number →
      history.HeadIs header.number header.hash) :
    (history.getOrInsertEntryWithHeader header).1.HeadIs n k := by
  let moved := if history.latestBlockNumber ≤ header.number then history.moveHead header
    else history
  let cut := if header.number > moved.depth then moved.retainAbove header.number else moved
  have hmoved : moved.HeadIs n k ∧ moved.depth = history.depth := by
    by_cases hle : history.latestBlockNumber ≤ header.number
    · obtain ⟨hlatest, hhash⟩ := hself hle
      obtain rfl : header.number = n := hlatest.symm.trans hhead.1
      obtain rfl : header.hash = k := Option.some.inj (hhash.symm.trans hhead.2)
      simp only [moved, if_pos hle]
      refine ⟨⟨rfl, ?_⟩, rfl⟩
      show (history.blockNumbers.insert header.number header.hash).lookup header.number = _
      rw [AssocMap.lookup_insert_eq, if_pos rfl]
    · have hsame : moved = history := if_neg hle
      rw [hsame]
      exact ⟨hhead, rfl⟩
  have hcut : CutOff moved header cut := cutOff_ite moved header
  have hkeeps : moved.keeps header n := by
    intro hdeep
    rw [hmoved.2] at hdeep ⊢
    by_cases hle : history.latestBlockNumber ≤ header.number
    · obtain rfl : header.number = n := (hself hle).1.symm.trans hhead.1
      exact hroom hle hdeep
    · have hn := hhead.1
      omega
  have hheadcut : cut.HeadIs n k :=
    ⟨hcut.latest.trans hmoved.1.1, (hcut.numbers n k).mpr ⟨hmoved.1.2, hkeeps⟩⟩
  unfold getOrInsertEntryWithHeader
  dsimp only
  split
  · exact hheadcut
  · exact hheadcut.of_eq rfl rfl

lemma headIs_addLogs {blockHash : BlockHash} {logs : List Log} {answer : Except Report Unit}
    (h : history.addLogs blockHash logs = some (answer, history')) (hhead : history.HeadIs n k) :
    history'.HeadIs n k := by
  obtain ⟨entry, -, hentry⟩ := Option.map_eq_some_iff.mp h
  split at hentry <;> (obtain ⟨-, rfl⟩ := Prod.mk.inj hentry; exact hhead.of_eq rfl rfl)

lemma headIs_addStateDiff {blockHash : BlockHash} {stateDiff : GethStateUpdateVec}
    {answer : Except Report Unit}
    (h : history.addStateDiff blockHash stateDiff = some (answer, history'))
    (hhead : history.HeadIs n k) : history'.HeadIs n k := by
  obtain ⟨entry, -, hentry⟩ := Option.map_eq_some_iff.mp h
  split at hentry <;> (obtain ⟨-, rfl⟩ := Prod.mk.inj hentry; exact hhead.of_eq rfl rfl)

variable [KabuBlock Block] {client : Client Block}

lemma headIs_addBlock {block : Block} (hhead : history.HeadIs n k)
    (hroom : history.latestBlockNumber ≤ (KabuBlock.getHeader block).number →
      history.keeps (KabuBlock.getHeader block) (KabuBlock.getHeader block).number)
    (hself : history.latestBlockNumber ≤ (KabuBlock.getHeader block).number →
      history.HeadIs (KabuBlock.getHeader block).number (KabuBlock.getHeader block).hash) :
    (history.addBlock block).2.HeadIs n k := by
  have hinserted := headIs_getOrInsertEntry hhead hroom hself
  unfold addBlock
  dsimp only
  split
  · exact hinserted
  · exact hinserted.of_eq rfl rfl

lemma headIs_walkParents {minBlock fuel d : ℕ} {p : BlockHash} {r : Except Report ℕ}
    (h : walkParents client minBlock fuel history p d = .ok (r, history'))
    (hbelow : ∀ passed, WalkPasses client minBlock passed history p → passed.number ≠ n)
    (hhead : history.HeadIs n k) : history'.HeadIs n k ∧ history'.depth = history.depth := by
  -- the blocks still to be passed are among those that were to be passed at the start
  have hend := walkParents_invariant
    (I := fun history' p => history'.HeadIs n k ∧ history'.depth = history.depth ∧
      ∀ passed, WalkPasses client minBlock passed history' p → passed.number ≠ n)
    (fun history' p entry hI hentry hcan => ?_)
    (fun history' p entry hI hentry hfetch hmin => ?_) h ⟨hhead, rfl, hbelow⟩
  · obtain ⟨-, ⟨hkept, hdepth, -⟩, -⟩ := hend
    exact ⟨hkept, hdepth⟩
  · obtain ⟨hhead, hdepth, hbelow⟩ := hI
    have hne := hbelow entry (.known hentry hcan)
    exact ⟨hhead.setBlockNumber hne _, hdepth,
      fun passed hpassed => hbelow passed (.afterKnown hentry hcan hpassed)⟩
  · obtain ⟨hhead, hdepth, hbelow⟩ := hI
    have hne := hbelow entry (.fetched hentry hfetch hmin)
    exact ⟨(hhead.setBlockNumber hne entry.hash).of_eq rfl rfl, hdepth,
      fun passed hpassed => hbelow passed (.afterFetched hentry hfetch hmin hpassed)⟩

/-- What a call of `setChainHead` that keeps the head can do. -/
inductive HeadMove (history : BlockHistory DB Block) (header : Header) :
    Except Report (Bool × ℕ) → BlockHistory DB Block → Prop
  | known : history.containsBlock header.hash = true →
      HeadMove history header (.ok (false, 0)) history
  | below {history' : BlockHistory DB Block} : history.containsBlock header.hash = false →
      header.number < history.latestBlockNumber → history'.depth = history.depth →
      (∀ n k, history.HeadIs n k → history'.HeadIs n k) →
      HeadMove history header (.ok (false, 0)) history'
  | moved {history' : BlockHistory DB Block} {reorgDepth : ℕ} :
      history.containsBlock header.hash = false → history.latestBlockNumber ≤ header.number →
      history'.depth = history.depth → history'.HeadIs header.number header.hash →
      HeadMove history header (.ok (true, reorgDepth)) history'

lemma headMove_of_setChainHead {fuel : ℕ} {answer : Except Report (Bool × ℕ)}
    (hkept : HeadKept client history header)
    (h : BlockHistoryManager.setChainHead fuel client history header = .ok (answer, history')) :
    HeadMove history header answer history' := by
  cases headAnswer_of_setChainHead h with
  | known hknown => exact .known hknown
  | added hcontains _ hadded =>
      by_cases hle : history.latestBlockNumber ≤ header.number
      · rw [decide_eq_true hle]
        exact .moved hcontains hle hadded.depth (hadded.headIs_of_le hle (hkept.room hle))
      · have hlt : header.number < history.latestBlockNumber := not_le.mp hle
        rw [decide_eq_false hle]
        exact .below hcontains hlt hadded.depth fun n k hhead => hadded.headIs_of_lt hlt hhead
  | @walked added _ r minBlock hcontains hadd hadded hle hfirst hwalk =>
      cases r with
      | error e =>
          refine absurd ⟨hcontains, hle, minBlock, hfirst, ?_⟩ hkept.served
          rw [hadd]
          exact walkFails_of_walkParents hwalk
      | ok reorgDepth =>
          have hhead := hadded.headIs_of_le hle (hkept.room hle)
          obtain ⟨hhead', hdepth⟩ := headIs_walkParents hwalk (fun passed hpassed =>
            hkept.below passed ⟨hcontains, hle, minBlock, hfirst, hadd ▸ hpassed⟩) hhead
          exact .moved hcontains hle (hdepth.trans hadded.depth) hhead'

omit [KabuBlock Block] in
lemma headIs_replay [BlockHistoryState DB Block] {config : MarketStateConfig}
    {blocks : List BlockHash} {db : DB} (hhead : history.HeadIs n k) :
    (replay config blocks db history).2.HeadIs n k := by
  induction blocks generalizing db history with
  | nil => exact hhead
  | cons blockHash blocks ih =>
      rw [replay]
      split
      · exact hhead
      · exact ih (hhead.of_eq rfl rfl)

omit [KabuBlock Block] in
lemma headIs_getParentState [BlockHistoryState DB Block] {config : MarketStateConfig} {fuel : ℕ}
    {p : BlockHash} {answer : Except Report DB}
    (h : getParentState fuel history config p = .ok (answer, history'))
    (hhead : history.HeadIs n k) : history'.HeadIs n k := by
  obtain ⟨found, -, hanswer⟩ := exceptMap_eq_ok h
  split at hanswer
  · obtain ⟨-, rfl⟩ := Prod.mk.inj hanswer
    exact hhead
  · rw [show history' = (answer, history').2 from rfl, ← hanswer]
    exact headIs_replay hhead
  · obtain ⟨-, rfl⟩ := Prod.mk.inj hanswer
    exact hhead

end History

/-! ## Blocks of one tree -/

section Tree

variable [KabuBlock Block] {tree : BlockTree} {client : Client Block}
  {history : BlockHistory DB Block} {passed : BlockHistoryEntry Block} {minBlock : ℕ}
  {p : BlockHash} {header child : Header}

/-- The walk passes ancestors, and they have lower numbers.  It does not matter which requests the
client answers. -/
lemma WalkPasses.number_lt (h : WalkPasses client minBlock passed history p)
    (hgives : tree.Gives client) (hentries : EntriesIn tree history) (hchild : tree.Mem child)
    (hp : p = child.parentHash) : passed.number < child.number := by
  have hlevel : ∀ {entry : BlockHistoryEntry Block} {p : BlockHash} {child : Header},
      tree.Mem entry.header → entry.hash = p → tree.Mem child → p = child.parentHash →
      entry.number < child.number := by
    intro entry p child hmem hhash hchild hp
    have hnumber := tree.level_of_key_eq_parentKey hchild hmem (hhash.trans hp)
    exact Nat.lt_of_succ_le hnumber.ge
  induction h generalizing child with
  | @known history p hentry _ =>
      exact hlevel (hentries p passed hentry) (history.keyed p passed hentry) hchild hp
  | @fetched history p _ hfetch _ =>
      obtain ⟨hmem, hhash⟩ := hgives.mem_of_fetch hfetch
      exact hlevel hmem hhash hchild hp
  | @afterKnown history p entry hentry _ _ ih =>
      have hmem := hentries p entry hentry
      exact (ih hentries hmem rfl).trans
        (hlevel hmem (history.keyed p entry hentry) hchild hp)
  | @afterFetched history p entry _ hfetch _ _ ih =>
      obtain ⟨hmem, hhash⟩ := hgives.mem_of_fetch hfetch
      have hentries' := (madeCanonical_setEntry history entry).entriesIn hentries hmem
      exact (ih hentries' hmem rfl).trans (hlevel hmem hhash hchild hp)

/-- Over the blocks of one tree a new head is kept as soon as the cut-off spares it and no request
of the walk fails. -/
lemma headKept_of_tree (tree : BlockTree) (hgives : tree.Gives client)
    (hentries : EntriesIn tree history) (hheader : tree.Mem header) (hdepth : 1 ≤ history.depth)
    (hserved : ¬ HeadFails client history header) : HeadKept client history header := by
  refine ⟨fun _ hdeep => by omega, hserved, ?_⟩
  rintro passed ⟨hcontains, -, minBlock, -, hwalk⟩
  obtain ⟨added, hadd, hadded⟩ := addBlockHeader_of_not_contains hcontains
  rw [hadd] at hwalk
  have hlt := hwalk.number_lt hgives (hadded.entriesIn hentries hheader) hheader rfl
  exact hlt.ne

end Tree

/-! ## The worker -/

section Worker

variable {w w₁ w' : WorkerState DB Block} {header : Header}

lemma latestBlock_update_same {latest : LatestBlock Block} {number : ℕ} {hash : BlockHash}
    (hnumber : number ≤ latest.blockNumber) (hhash : hash = latest.blockHash)
    (blockHeader : Option Header) (blockWithTxs : Option Block) (logs : Option (List Log))
    (diff : Option GethStateUpdateVec) :
    (latest.update number hash blockHeader blockWithTxs logs diff).2.blockNumber =
        latest.blockNumber ∧
      (latest.update number hash blockHeader blockWithTxs logs diff).2.blockHash =
        latest.blockHash := by
  have hold : ¬ (number > latest.blockNumber ∨ hash ≠ latest.blockHash) := by
    rintro (hgt | hne)
    · omega
    · exact hne hhash
  unfold LatestBlock.update
  rw [if_neg hold]
  split <;> exact ⟨rfl, rfl⟩

/-- Before the first message neither tracker has a head. -/
structure NoHead (w : WorkerState DB Block) : Prop where
  entries : ∀ k, w.blockHistory.blockEntries.lookup k = none
  history : w.blockHistory.latestBlockNumber = 0
  latest : w.latestBlock.blockNumber = 0

/-- The header is not above the latest block if it has its hash. -/
def NotAbove (w : WorkerState DB Block) (header : Header) : Prop :=
  header.hash = w.latestBlock.blockHash → header.number ≤ w.latestBlock.blockNumber

lemma HeadsAgree.updateLatest (h : HeadsAgree w) (hnumber : NotAbove w header)
    (blockWithTxs : Option Block) (logs : Option (List Log)) :
    HeadsAgree (w.updateLatest header blockWithTxs logs) := by
  unfold WorkerState.updateLatest
  split
  · rename_i hhash
    obtain ⟨hn, hk⟩ := latestBlock_update_same (hnumber hhash) hhash none blockWithTxs logs none
    unfold HeadsAgree
    dsimp only
    rw [hn, hk]
    exact h
  · exact h

variable [KabuBlock Block] {client : Client Block} {fuel : ℕ}

/-- The state after the head has been moved for the header.  Unless the header was known, it is
the head or below it. -/
structure HeadSet (w : WorkerState DB Block) (header : Header) (w₁ : WorkerState DB Block) :
    Prop where
  agree : HeadsAgree w₁
  depth : w₁.blockHistory.depth = w.blockHistory.depth
  latest_le : w.blockHistory.latestBlockNumber ≤ w₁.blockHistory.latestBlockNumber
  known : w.blockHistory.containsBlock header.hash = true → w₁ = w
  fresh : w.blockHistory.containsBlock header.hash = false →
    w₁.blockHistory.latestBlockNumber ≤ header.number →
    w₁.blockHistory.HeadIs header.number header.hash

/-- **Moving the head** moves both trackers. -/
lemma headSet_of_setChainHead {answer : Except Report (Bool × ℕ)}
    (hstart : NoHead w ∨ HeadsAgree w) (hkept : HeadKept client w.blockHistory header)
    (h : w.setChainHead fuel client header = .ok (answer, w₁)) :
    (∃ moved, answer = .ok moved) ∧ HeadSet w header w₁ := by
  have hnumber : w.latestBlock.blockNumber = w.blockHistory.latestBlockNumber := by
    rcases hstart with hnone | hagree
    · rw [hnone.latest, hnone.history]
    · exact hagree.1.symm
  unfold WorkerState.setChainHead at h
  obtain ⟨⟨answer', history⟩, hset, hanswer⟩ := exceptMap_eq_ok h
  have hmove := headMove_of_setChainHead hkept hset
  cases hmove with
  | known hcontains =>
      obtain ⟨rfl, rfl⟩ := Prod.mk.inj hanswer
      refine ⟨⟨_, rfl⟩, hstart.resolve_left fun hnone => ?_, rfl, le_rfl, fun _ => rfl,
        fun hnot => ?_⟩
      · rw [containsBlock, hnone.entries] at hcontains
        simp at hcontains
      · cases hcontains.symm.trans hnot
  | below hcontains hlt hdepth hhead =>
      obtain ⟨rfl, rfl⟩ := Prod.mk.inj hanswer
      have hagree : HeadsAgree w := hstart.resolve_left fun hnone => by
        rw [hnone.history] at hlt
        exact absurd hlt (Nat.not_lt_zero _)
      have hagree' := hhead _ _ hagree
      have hlatest : history.latestBlockNumber = w.blockHistory.latestBlockNumber :=
        hagree'.1.trans hnumber
      refine ⟨⟨_, rfl⟩, hagree', hdepth, hlatest.ge, fun hknown => ?_, fun _ hle => ?_⟩
      · cases hcontains.symm.trans hknown
      · dsimp only at hle
        omega
  | moved hcontains hle hdepth hhead =>
      obtain ⟨rfl, rfl⟩ := Prod.mk.inj hanswer
      have his := LatestBlock.is_update_header (show ¬ header.number < w.latestBlock.blockNumber by
        omega)
      refine ⟨⟨_, rfl⟩, ?_, hdepth, hhead.1 ▸ hle, fun hknown => ?_, fun _ _ => hhead⟩
      · unfold HeadsAgree
        simp only [if_true]
        rw [his.number, his.hash]
        exact hhead
      · cases hcontains.symm.trans hknown

omit [KabuBlock Block] in
/-- The header is not above the latest block: if it was known by the condition, and if not because
the head was moved. -/
lemma HeadSet.notAbove (h : HeadSet w header w₁) (hfits : NumberFits w header) :
    NotAbove w₁ header := by
  intro hhash
  cases hcontains : w.blockHistory.containsBlock header.hash with
  | true =>
      rw [h.known hcontains] at hhash ⊢
      exact hfits hcontains hhash
  | false =>
      have hnumber := h.agree.1
      by_contra hlt
      have hhead := h.fresh hcontains (by omega)
      have hself := hhead.1
      omega

lemma headsAgree_receiveHeader (hstart : NoHead w ∨ HeadsAgree w)
    (hkept : HeadKept client w.blockHistory header)
    (h : w.receiveHeader fuel client header = .ok w') : HeadsAgree w' := by
  obtain ⟨⟨answer, w₁⟩, hset, hanswer⟩ := exceptMap_eq_ok h
  obtain ⟨⟨moved, rfl⟩, hmoved⟩ := headSet_of_setChainHead hstart hkept hset
  obtain rfl := hanswer
  exact hmoved.agree

lemma headsAgree_receiveBlock {block : Block} (hstart : NoHead w ∨ HeadsAgree w)
    (hkeeps : KeepsHeads w client (.block block))
    (h : w.receiveBlock fuel client block = .ok w') : HeadsAgree w' := by
  obtain ⟨hkept, hknown⟩ := hkeeps
  obtain ⟨⟨answer, w₁⟩, hset, hanswer⟩ := exceptMap_eq_ok h
  obtain ⟨⟨moved, rfl⟩, hmoved⟩ := headSet_of_setChainHead hstart hkept hset
  have hself : w₁.blockHistory.latestBlockNumber ≤ (KabuBlock.getHeader block).number →
      w₁.blockHistory.HeadIs (KabuBlock.getHeader block).number
        (KabuBlock.getHeader block).hash := by
    intro hle
    cases hcontains : w.blockHistory.containsBlock (KabuBlock.getHeader block).hash with
    | true =>
        rw [hmoved.known hcontains] at hle ⊢
        exact hknown hcontains hle
    | false => exact hmoved.fresh hcontains hle
  have hroom : w₁.blockHistory.latestBlockNumber ≤ (KabuBlock.getHeader block).number →
      w₁.blockHistory.keeps (KabuBlock.getHeader block) (KabuBlock.getHeader block).number := by
    intro hle
    unfold BlockHistory.keeps
    rw [hmoved.depth]
    exact hkept.room (hmoved.latest_le.trans hle)
  have hadded := headIs_addBlock hmoved.agree hroom hself
  have habove : NotAbove w₁ (KabuBlock.getHeader block) := by
    intro _
    by_contra hlt
    have hnumber := hmoved.agree.1
    have hown := (hself (by omega)).1
    omega
  dsimp only at hanswer
  split at hanswer
  · rename_i e history hadd
    obtain rfl := hanswer
    rw [hadd] at hadded
    exact hadded
  · rename_i u history hadd
    obtain rfl := hanswer
    rw [hadd] at hadded
    have hagree : HeadsAgree { w₁ with blockHistory := history } := hadded
    exact hagree.updateLatest habove _ _

lemma headsAgree_receiveLogs {logs : List Log} (hstart : NoHead w ∨ HeadsAgree w)
    (hkeeps : KeepsHeads w client (.logs header logs))
    (h : w.receiveLogs fuel client header logs = .ok w') : HeadsAgree w' := by
  obtain ⟨hkept, hfits⟩ := hkeeps
  obtain ⟨⟨answer, w₁⟩, hset, hanswer⟩ := exceptMap_eq_ok h
  obtain ⟨⟨moved, rfl⟩, hmoved⟩ := headSet_of_setChainHead hstart hkept hset
  dsimp only at hanswer
  split at hanswer
  · obtain rfl := hanswer
    exact hmoved.agree
  · rename_i hadd
    obtain rfl := hanswer
    exact headIs_addLogs hadd hmoved.agree
  · rename_i history hadd
    obtain rfl := hanswer
    have hagree : HeadsAgree { w₁ with blockHistory := history } :=
      headIs_addLogs hadd hmoved.agree
    exact hagree.updateLatest (hmoved.notAbove hfits) _ _

variable [BlockHistoryState DB Block]

omit [KabuBlock Block] in
lemma headIs_newMarketStateDb {blockHash parentHash : BlockHash} {answer : Except Report DB}
    {history : BlockHistory DB Block} {n : ℕ} {k : BlockHash}
    (h : w.newMarketStateDb fuel client blockHash parentHash = .ok (answer, history))
    (hhead : w.blockHistory.HeadIs n k) : history.HeadIs n k := by
  unfold WorkerState.newMarketStateDb at h
  split at h
  · obtain ⟨-, rfl⟩ := Prod.mk.inj (Except.ok.inj h)
    exact hhead
  · unfold applyStateUpdateOnParentDb at h
    split at h
    · simp at h
    · split at h
      · obtain ⟨-, rfl⟩ := Prod.mk.inj (Except.ok.inj h)
        exact hhead
      · obtain ⟨⟨parent, history'⟩, hget, hmap⟩ := exceptMap_eq_ok h
        obtain ⟨-, rfl⟩ := Prod.mk.inj hmap
        exact headIs_getParentState hget hhead

omit [KabuBlock Block] in
lemma headsAgree_moveMarket (hagree : HeadsAgree w) (newDb : DB) (header : Header) (number : ℕ)
    (stateUpdate : GethStateUpdateVec) :
    HeadsAgree (w.moveMarket newDb header number stateUpdate) := by
  unfold WorkerState.moveMarket
  split
  · exact hagree
  · rename_i hadd
    exact headIs_addStateDiff hadd hagree
  · rename_i hadd
    have hadded := headIs_addStateDiff hadd hagree
    split
    · exact hadded
    · exact hadded.of_eq rfl rfl

omit [KabuBlock Block] in
lemma headsAgree_updateMarket {stateUpdate : GethStateUpdateVec} (hagree : HeadsAgree w)
    (habove : NotAbove w header) (hhash : header.hash = w.latestBlock.blockHash)
    (h : w.updateMarket fuel client header stateUpdate = .ok w') : HeadsAgree w' := by
  obtain ⟨hn, hk⟩ := latestBlock_update_same (habove hhash) hhash none none none (some stateUpdate)
  have hagree₁ : HeadsAgree { w with latestBlock := (w.latestBlock.update header.number header.hash
      none none none (some stateUpdate)).2 } := by
    unfold HeadsAgree
    dsimp only
    rw [hn, hk]
    exact hagree
  unfold WorkerState.updateMarket at h
  dsimp only at h
  split at h
  · simp at h
  · obtain rfl := Except.ok.inj h
    exact hagree₁
  · rename_i hfind
    obtain rfl := Except.ok.inj h
    exact headIs_newMarketStateDb hfind hagree₁
  · rename_i newDb history hfind
    obtain rfl := Except.ok.inj h
    have hagree₂ : HeadsAgree { w with
        latestBlock := (w.latestBlock.update header.number header.hash none none none
          (some stateUpdate)).2
        blockHistory := history } := headIs_newMarketStateDb hfind hagree₁
    exact headsAgree_moveMarket hagree₂ _ _ _ _

lemma headsAgree_receiveStateUpdate {stateUpdate : GethStateUpdateVec}
    (hstart : NoHead w ∨ HeadsAgree w)
    (hkeeps : KeepsHeads w client (.stateUpdate header stateUpdate))
    (h : w.receiveStateUpdate fuel client header stateUpdate = .ok w') : HeadsAgree w' := by
  obtain ⟨hkept, hfits⟩ := hkeeps
  unfold WorkerState.receiveStateUpdate at h
  split at h
  · simp at h
  · rename_i hset
    obtain ⟨⟨moved, hmoved⟩, -⟩ := headSet_of_setChainHead hstart hkept hset
    simp at hmoved
  · rename_i w₁ hset
    obtain ⟨-, hmoved⟩ := headSet_of_setChainHead hstart hkept hset
    by_cases hhash : w₁.latestBlock.blockHash ≠ header.hash
    · rw [if_pos hhash] at h
      split at h
      · obtain rfl := Except.ok.inj h
        exact hmoved.agree
      · rename_i hadd
        obtain rfl := Except.ok.inj h
        exact headIs_addStateDiff hadd hmoved.agree
    · rw [if_neg hhash] at h
      exact headsAgree_updateMarket hmoved.agree (hmoved.notAbove hfits) (not_not.mp hhash).symm h

/-- **One message.**  A message that keeps the heads leaves the two trackers at the same one. -/
lemma headsAgree_receive {message : WorkerMessage Block} (hstart : NoHead w ∨ HeadsAgree w)
    (hkeeps : KeepsHeads w client message) (h : w.receive fuel client message = .ok w') :
    HeadsAgree w' := by
  cases message with
  | header header => exact headsAgree_receiveHeader hstart hkeeps h
  | block block => exact headsAgree_receiveBlock hstart hkeeps h
  | logs header logs => exact headsAgree_receiveLogs hstart hkeeps h
  | stateUpdate header stateUpdate => exact headsAgree_receiveStateUpdate hstart hkeeps h

variable [DatabaseKabuExt DB]

lemma headsAgree_workerStep {event : WorkerEvent Block} (hstart : NoHead w ∨ HeadsAgree w)
    (hkeeps : EventKeepsHeads w event) (h : workerStep w event = some w') :
    NoHead w' ∨ HeadsAgree w' := by
  cases event with
  | receive fuel client message =>
      exact Or.inr (headsAgree_receive hstart hkeeps (receive_of_workerStep h))
  | merge i =>
      obtain ⟨task, -, rfl⟩ := Option.map_eq_some_iff.mp h
      rcases hstart with hnone | hagree
      · exact Or.inl ⟨hnone.entries, hnone.history, hnone.latest⟩
      · exact Or.inr hagree

/-- **The trackers agree.**  In every run from the start whose messages all keep the heads, the
latest block is the head of the history after each message. -/
theorem headsAgree_of_run (depth : ℕ) (marketState : MarketState DB)
    (hrun : Runs.Reached (fun w event w' => workerStep w event = some w') EventKeepsHeads
      (WorkerState.init depth marketState) w)
    {message : WorkerMessage Block} (hkeeps : KeepsHeads w client message)
    (hstep : workerStep w (.receive fuel client message) = some w') : HeadsAgree w' := by
  have hinit : NoHead (WorkerState.init depth marketState : WorkerState DB Block) :=
    ⟨fun _ => rfl, rfl, rfl⟩
  have hinv : NoHead w ∨ HeadsAgree w := hrun.invariant
    (fun _ _ _ hinv hkeeps hstep => headsAgree_workerStep hinv hkeeps hstep) (Or.inl hinit)
  exact headsAgree_receive hinv hkeeps (receive_of_workerStep hstep)

end Worker

/-! ### A fork of two blocks -/

section Fork

/-- A client that knows the blocks of the fork and gives no logs for them. -/
def loglessClient : Client Header := forkClient fun _ => .error "LOGS"

def workingClient : Client Header := forkClient fun _ => .ok []

/-- The states of a worker that gets the root, then the left block as the head. -/
def startState : WorkerState KabuDB Header := WorkerState.init 10 (MarketState.new KabuDB.new)
def rootState : WorkerState KabuDB Header :=
  unwrapOr startState (startState.receive 4 workingClient (.header rootHeader))
def leftState : WorkerState KabuDB Header :=
  unwrapOr rootState (rootState.receive 4 workingClient (.header leftHeader))
/-- Then the logs of the tip of the right branch arrive. -/
def tipState : WorkerState KabuDB Header :=
  unwrapOr leftState (leftState.receive 4 workingClient (.logs tipHeader []))

/-- A call that succeeds with the blocks of the fork keeps the head. -/
lemma headKept_fork {history history' : BlockHistory KabuDB Header} {header : Header}
    {answer : Bool × ℕ}
    (hentries : ∀ entry ∈ history.blockEntries.values, entry.header ∈ forkHeaders)
    (hheader : header ∈ forkHeaders) (hdepth : 1 ≤ history.depth)
    (h : BlockHistoryManager.setChainHead 4 workingClient history header =
      .ok (.ok answer, history')) : HeadKept workingClient history header := by
  refine headKept_of_tree forkTree forkClient_honest.gives (fun k entry he => ?_) hheader hdepth
    (not_headFails_of_ok h)
  exact hentries entry ((AssocMap.mem_values _ _).mpr ⟨k, he⟩)

lemma leftState_reached [Keccak] : Runs.Reached (fun w event w' => workerStep w event = some w')
    EventKeepsHeads startState leftState := by
  have hroot : EventKeepsHeads startState (.receive 4 workingClient (.header rootHeader)) :=
    headKept_fork (by decide) (by decide) (by decide) rfl
  have hleft : EventKeepsHeads rootState (.receive 4 workingClient (.header leftHeader)) :=
    headKept_fork (by decide) (by decide) (by decide) rfl
  exact .tail (b := rootState) (.single ⟨_, hroot, rfl⟩) ⟨_, hleft, rfl⟩

lemma keepsHeads_tip : KeepsHeads leftState workingClient (.logs tipHeader []) :=
  ⟨headKept_fork (by decide) (by decide) (by decide) rfl, fun hknown => absurd hknown (by decide)⟩

end Fork

/-- Both trackers follow the reorganisation to the right branch. -/
theorem tip_moves_both :
    letI := constKeccak
    workerStep leftState (.receive 4 workingClient (.logs tipHeader [])) = some tipState ∧
      tipState.latestBlock.blockHash = 4 ∧ HeadsAgree tipState := by
  let _ := constKeccak
  have hstep : workerStep leftState (.receive 4 workingClient (.logs tipHeader [])) =
      some tipState := rfl
  exact ⟨hstep, rfl, headsAgree_of_run 10 (MarketState.new KabuDB.new) leftState_reached
    keepsHeads_tip hstep⟩

/-- **The trackers part.**  Where the right block cannot be fetched, the history moves to the tip
and the latest block stays, and the worker goes on.  And where every request is answered, the full
block of the left sibling moves the history back from the right one. -/
theorem trackers_part :
    letI := constKeccak
    (∃ w : WorkerState KabuDB Header,
      workerStep leftState (.receive 4 loglessClient (.logs tipHeader [])) = some w ∧
        w.running = true ∧ w.blockHistory.latestBlockNumber = 3 ∧ w.latestBlock.blockNumber = 2 ∧
        ¬ HeadsAgree w) ∧
      ∃ w : WorkerState KabuDB Header,
        [WorkerMessage.header rightHeader, .block leftHeader].foldlM
            (fun w message => workerStep w (.receive 4 workingClient message)) leftState = some w ∧
          w.blockHistory.HeadIs 2 2 ∧ w.latestBlock.blockHash = 3 ∧ ¬ HeadsAgree w := by
  let _ := constKeccak
  refine ⟨⟨_, rfl, rfl, rfl, rfl, fun h => ?_⟩, _, rfl, ⟨rfl, rfl⟩, rfl, fun h => ?_⟩
  · exact absurd h.1 (by decide)
  · exact absurd h.2 (by decide)

end Kabu
