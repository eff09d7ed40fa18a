import Kabu.Entities.AddHeader
import Kabu.Framework.LevelTree

/-!
# The canonical chain under reorganisations

`CanonicalChain` is what the map from numbers to hashes should satisfy after any calls of
`setChainHead`: each canonical hash has an entry of its number, no number is above the head, the
head is the last header that was accepted, and two canonical blocks with consecutive numbers are
parent and child.

The headers come from one `BlockTree`, in any order, and the client is `Honest`: it answers a
request for a block of the tree with that block, and a request for its logs with some logs.
Then every call returns, and the invariant holds after each of them, as soon as the history
keeps at least one number (`canonicalChain_of_run`).

Accepting a header leaves one place at which the chain may be broken, between the header and its
parent.  Each round of the walk repairs it and moves it one number down (`WalkInv`), until the chain
below is met or the numbers end.
-/

namespace Kabu

open BlockHistoryManager BlockHistory

/-- The tree that all headers come from. -/
abbrev BlockTree := LevelTree Header.hash Header.parentHash Header.number

variable {S Block : Type*} [KabuBlock Block]

/-- A client that answers every request about a block of the tree, and with that block. -/
structure BlockTree.Honest (tree : BlockTree) (client : Client Block) : Prop where
  answers : ∀ b, tree.Mem b → ∃ block, client.getBlockByHash b.hash = .ok (some block) ∧
    KabuBlock.getHeader block = b
  logs : ∀ b, tree.Mem b → ∃ logs, client.getLogs b.hash = .ok logs
  only : ∀ h block, client.getBlockByHash h = .ok (some block) →
    tree.Mem (KabuBlock.getHeader block) ∧ (KabuBlock.getHeader block).hash = h

/-- A client that may fail, and gives the blocks of the tree when it does not. -/
def BlockTree.Gives (tree : BlockTree) (client : Client Block) : Prop :=
  ∀ h block, client.getBlockByHash h = .ok (some block) →
    tree.Mem (KabuBlock.getHeader block) ∧ (KabuBlock.getHeader block).hash = h

/-- The canonical chain is well formed, with the last accepted header as its head. -/
structure CanonicalChain (history : BlockHistory S Block) (lastNew : Option Header) : Prop where
  /-- Every canonical hash has an entry of its number. -/
  hasEntry : ∀ n h, history.blockNumbers.lookup n = some h →
    ∃ entry, history.blockEntries.lookup h = some entry ∧ entry.number = n
  le_latest : ∀ n h, history.blockNumbers.lookup n = some h → n ≤ history.latestBlockNumber
  head : ∀ header, lastNew = some header →
    history.blockNumbers.lookup history.latestBlockNumber = some header.hash
  /-- Canonical blocks with consecutive numbers are parent and child. -/
  linked : ∀ n h h' entry, history.blockNumbers.lookup n = some h →
    history.blockNumbers.lookup (n + 1) = some h' →
    history.blockEntries.lookup h' = some entry → entry.parentHash = h

/-! ## The walk -/

/-- All entries are blocks of the tree. -/
def EntriesIn (tree : BlockTree) (history : BlockHistory S Block) : Prop :=
  ∀ h entry, history.blockEntries.lookup h = some entry → tree.Mem entry.header

omit [KabuBlock Block] in
lemma EntriesIn.number_eq {tree : BlockTree} {history : BlockHistory S Block}
    (h : EntriesIn tree history) {entry : BlockHistoryEntry Block} (hmem : tree.Mem entry.header)
    {k : BlockHash} {e : BlockHistoryEntry Block} (he : history.blockEntries.lookup k = some e)
    (hk : k = entry.hash) : e.number = entry.number :=
  congrArg Header.number
    (tree.key_inj (h k e he) hmem ((history.keyed k e he).trans hk))

/-- The state of the walk when it looks for the block `p`: the canonical chain is well formed
but for the link below the number `m`, where `p` should stand. -/
structure WalkInv (tree : BlockTree) (minBlock : ℕ) (lastNew : Option Header)
    (history : BlockHistory S Block) (m : ℕ) (p : BlockHash) : Prop where
  depth_pos : 1 ≤ history.depth
  entriesIn : EntriesIn tree history
  hasEntry : ∀ n h, history.blockNumbers.lookup n = some h →
    ∃ entry, history.blockEntries.lookup h = some entry ∧ entry.number = n
  le_latest : ∀ n h, history.blockNumbers.lookup n = some h → n ≤ history.latestBlockNumber
  head : ∀ header, lastNew = some header →
    history.blockNumbers.lookup history.latestBlockNumber = some header.hash
  linked : ∀ n h h' entry, n + 1 ≠ m → history.blockNumbers.lookup n = some h →
    history.blockNumbers.lookup (n + 1) = some h' →
    history.blockEntries.lookup h' = some entry → entry.parentHash = h
  /-- The block at `m` is the child of `p`. -/
  child : ∃ h entry, history.blockNumbers.lookup m = some h ∧
    history.blockEntries.lookup h = some entry ∧ entry.parentHash = p
  /-- No number below is under the first one. -/
  above_min : ∀ n h, n < m → history.blockNumbers.lookup n = some h → minBlock ≤ n

section Walk

variable {tree : BlockTree} {minBlock : ℕ} {lastNew : Option Header}
  {history : BlockHistory S Block} {m : ℕ} {p : BlockHash}

omit [KabuBlock Block]

section

variable (h : WalkInv tree minBlock lastNew history m p)

include h

lemma WalkInv.exists_child :
    ∃ k entry, history.blockNumbers.lookup m = some k ∧
      history.blockEntries.lookup k = some entry ∧ entry.parentHash = p ∧ entry.number = m := by
  obtain ⟨k, entry, hm, hentry, hparent⟩ := h.child
  obtain ⟨entry', hentry', hnumber⟩ := h.hasEntry m k hm
  rw [hentry, Option.some.injEq] at hentry'
  exact ⟨k, entry, hm, hentry, hparent, by rw [hentry', hnumber]⟩

lemma WalkInv.number_of_hash {b : Header} (hb : tree.Mem b) (hp : b.hash = p) :
    b.number + 1 = m := by
  obtain ⟨k, entry, -, hentry, hparent, hnumber⟩ := h.exists_child
  have hlevel := tree.level_of_key_eq_parentKey (h.entriesIn k entry hentry) hb
    (hp.trans hparent.symm)
  exact hlevel.symm.trans hnumber

/-- Where no number stands below `m`, or `p` does, the chain is whole. -/
lemma WalkInv.canonical
    (hbelow : ∀ n k, n + 1 = m → history.blockNumbers.lookup n = some k → k = p) :
    CanonicalChain history lastNew := by
  refine ⟨h.hasEntry, h.le_latest, h.head, fun n k k' entry hn hn' hentry => ?_⟩
  by_cases hm : n + 1 = m
  · obtain ⟨c, childEntry, hc, hchild, hparent⟩ := h.child
    rw [← hm, hn', Option.some.injEq] at hc
    subst hc
    rw [hentry, Option.some.injEq] at hchild
    rw [hchild, hparent, hbelow n k hm hn]
  · exact h.linked n k k' entry hm hn hn' hentry

end

/-- The block of the entry has been made the one of its number. -/
structure MadeCanonical (history : BlockHistory S Block) (entry : BlockHistoryEntry Block)
    (history' : BlockHistory S Block) : Prop where
  depth : history'.depth = history.depth
  latest : history'.latestBlockNumber = history.latestBlockNumber
  numbers : ∀ n, history'.blockNumbers.lookup n =
    if n = entry.number then some entry.hash else history.blockNumbers.lookup n
  entries : ∀ k, history'.blockEntries.lookup k =
    if k = entry.hash then some entry else history.blockEntries.lookup k

section Round

variable {history' : BlockHistory S Block} {entry : BlockHistoryEntry Block}

section

variable (hmade : MadeCanonical history entry history') {n : ℕ} {k : BlockHash}

include hmade

lemma MadeCanonical.entry_cases {e : BlockHistoryEntry Block}
    (he : history'.blockEntries.lookup k = some e) :
    e = entry ∧ k = entry.hash ∨ history.blockEntries.lookup k = some e := by
  rw [hmade.entries] at he
  by_cases hk : k = entry.hash
  · rw [if_pos hk, Option.some.injEq] at he
    exact .inl ⟨he.symm, hk⟩
  · rw [if_neg hk] at he
    exact .inr he

lemma MadeCanonical.number_cases (hn : history'.blockNumbers.lookup n = some k) :
    n = entry.number ∧ k = entry.hash ∨
      n ≠ entry.number ∧ history.blockNumbers.lookup n = some k := by
  rw [hmade.numbers] at hn
  by_cases hne : n = entry.number
  · rw [if_pos hne, Option.some.injEq] at hn
    exact .inl ⟨hne, hn.symm⟩
  · rw [if_neg hne] at hn
    exact .inr ⟨hne, hn⟩

/-- Every number still has an entry: those of the old history survive, since the hash of `entry`
determines the block. -/
lemma MadeCanonical.hasEntry (hentries : EntriesIn tree history) (hmem : tree.Mem entry.header)
    (hhas : ∀ n h, history.blockNumbers.lookup n = some h →
      ∃ e, history.blockEntries.lookup h = some e ∧ e.number = n) (n : ℕ) (k : BlockHash)
    (hn : history'.blockNumbers.lookup n = some k) :
    ∃ e, history'.blockEntries.lookup k = some e ∧ e.number = n := by
  rcases hmade.number_cases hn with ⟨rfl, rfl⟩ | ⟨-, hold⟩
  · exact ⟨entry, by rw [hmade.entries, if_pos rfl], rfl⟩
  · obtain ⟨e, he, hen⟩ := hhas n k hold
    by_cases hk : k = entry.hash
    · refine ⟨entry, by rw [hmade.entries, if_pos hk], ?_⟩
      rw [← hen, hentries.number_eq hmem he hk]
    · exact ⟨e, by rw [hmade.entries, if_neg hk, he], hen⟩

lemma MadeCanonical.entriesIn (hentries : EntriesIn tree history) (hmem : tree.Mem entry.header) :
    EntriesIn tree history' := by
  intro k e he
  rcases hmade.entry_cases he with ⟨rfl, -⟩ | hold
  · exact hmem
  · exact hentries k e hold

end

lemma madeCanonical_setBlockNumber {k : BlockHash}
    (hentry : history.getBlockHistoryEntry k = some entry) :
    MadeCanonical history entry (history.setBlockNumber entry.number entry.hash) := by
  refine ⟨rfl, rfl, lookup_setBlockNumber history entry.number entry.hash, fun h => ?_⟩
  by_cases hh : h = entry.hash
  · rw [if_pos hh, hh, history.keyed k entry hentry]
    exact hentry
  · rw [if_neg hh]
    rfl

lemma madeCanonical_setEntry (history : BlockHistory S Block) (entry : BlockHistoryEntry Block) :
    MadeCanonical history entry (history.setEntry entry) :=
  ⟨rfl, rfl, lookup_setBlockNumber history entry.number entry.hash, lookup_setEntry history entry⟩

/-- Making the block `p` canonical closes the link that was open and opens the one below. -/
lemma WalkInv.linked_of_made (h : WalkInv tree minBlock lastNew history m p)
    (hmem : tree.Mem entry.header) (hp : entry.hash = p)
    (hmade : MadeCanonical history entry history') (n : ℕ) (k k' : BlockHash)
    (e : BlockHistoryEntry Block) (hopen : n + 1 ≠ entry.number)
    (hn : history'.blockNumbers.lookup n = some k)
    (hn' : history'.blockNumbers.lookup (n + 1) = some k')
    (he : history'.blockEntries.lookup k' = some e) : e.parentHash = k := by
  have hnumber : entry.number + 1 = m := h.number_of_hash hmem hp
  have hold' := ((hmade.number_cases hn').resolve_left fun hsame => hopen hsame.1).2
  -- a number above has another block than `entry`, which has its own number
  have hother : k' ≠ entry.hash := by
    intro hk'
    obtain ⟨e', he', hen'⟩ := h.hasEntry (n + 1) k' hold'
    have hown := h.entriesIn.number_eq hmem he' hk'
    omega
  have hlookup := (hmade.entry_cases he).resolve_left fun hsame => hother hsame.2
  rcases hmade.number_cases hn with ⟨hn0, rfl⟩ | ⟨hn0, hold⟩
  · obtain ⟨c, child, hc, hchild, hparent, -⟩ := h.exists_child
    have hm : n + 1 = m := by omega
    rw [hm, hc, Option.some.injEq] at hold'
    rw [← hold', hchild, Option.some.injEq] at hlookup
    rw [← hlookup, hparent, hp]
  · exact h.linked n k k' e (by omega) hold hold' hlookup

/-- **One round of the walk.**  Making the block `p` canonical moves the open link one number
down. -/
lemma WalkInv.step (h : WalkInv tree minBlock lastNew history m p) (hmem : tree.Mem entry.header)
    (hp : entry.hash = p) (hmade : MadeCanonical history entry history') :
    WalkInv tree minBlock lastNew history' entry.number entry.parentHash := by
  have hnumber : entry.number + 1 = m := h.number_of_hash hmem hp
  obtain ⟨c, childEntry, hc, hchild, hparent, hcnumber⟩ := h.exists_child
  have hm : m ≤ history.latestBlockNumber := h.le_latest m c hc
  refine ⟨hmade.depth ▸ h.depth_pos, hmade.entriesIn h.entriesIn hmem,
    hmade.hasEntry h.entriesIn hmem h.hasEntry, fun n k hn => ?_, fun header hheader => ?_,
    h.linked_of_made hmem hp hmade, ⟨entry.hash, entry, ?_, ?_, rfl⟩, fun n k hlt hn => ?_⟩
  · rw [hmade.latest]
    rcases hmade.number_cases hn with ⟨hne, -⟩ | ⟨-, hold⟩
    · omega
    · exact h.le_latest n k hold
  · rw [hmade.latest, hmade.numbers, if_neg (by omega)]
    exact h.head header hheader
  · rw [hmade.numbers, if_pos rfl]
  · rw [hmade.entries, if_pos rfl]
  · rcases hmade.number_cases hn with ⟨hne, -⟩ | ⟨-, hold⟩
    · omega
    · exact h.above_min n k (by omega) hold

end Round

/-- The canonical chain, with every entry in the tree. -/
structure ChainInv (tree : BlockTree) (history : BlockHistory S Block)
    (lastNew : Option Header) : Prop where
  canonical : CanonicalChain history lastNew
  entriesIn : EntriesIn tree history
  depth_pos : 1 ≤ history.depth

end Walk

section WalkRun

variable {tree : BlockTree} {client : Client Block} {minBlock : ℕ} {lastNew : Option Header}

lemma BlockTree.Honest.fetch_of_mem (hc : tree.Honest client) {b : Header} (hb : tree.Mem b) :
    ∃ entry, fetchEntryByHash client b.hash = .ok entry ∧ entry.header = b := by
  obtain ⟨block, hblock, hheader⟩ := hc.answers b hb
  obtain ⟨logs, hlogs⟩ := hc.logs b hb
  refine ⟨⟨KabuBlock.getHeader block, some block, some logs,
    some (unwrapOr [] (client.debugTraceBlock b.hash))⟩, ?_, hheader⟩
  simp only [fetchEntryByHash, hblock, hlogs]

lemma BlockTree.Gives.mem_of_fetch (hc : tree.Gives client) {p : BlockHash}
    {entry : BlockHistoryEntry Block} (h : fetchEntryByHash client p = .ok entry) :
    tree.Mem entry.header ∧ entry.hash = p := by
  obtain ⟨block, hblock, hheader⟩ := fetchEntryByHash_ok h
  rw [BlockHistoryEntry.hash, hheader]
  exact hc p block hblock

lemma BlockTree.Honest.gives (hc : tree.Honest client) : tree.Gives client := hc.only

/-- **The walk repairs the chain.**  With more fuel than the number it starts below, it returns,
and whether it ends well or fails at the end of the tree, the chain is whole. -/
lemma walkParents_inv (hc : tree.Honest client) (fuel : ℕ) {m : ℕ}
    {history : BlockHistory S Block} {p : BlockHash} (hfuel : m < fuel)
    (h : WalkInv tree minBlock lastNew history m p) (d : ℕ) :
    ∃ r history', walkParents client minBlock fuel history p d = .ok (r, history') ∧
      ChainInv tree history' lastNew := by
  induction fuel generalizing m history p d with
  | zero => exact absurd hfuel (by omega)
  | succ fuel ih =>
      rw [walkParents]
      cases hentry : history.getBlockHistoryEntry p with
      | some entry =>
          have hmem : tree.Mem entry.header := h.entriesIn p entry hentry
          have hp : entry.hash = p := history.keyed p entry hentry
          have hnumber : entry.number + 1 = m := h.number_of_hash hmem hp
          by_cases hcan : (history.getBlockHashForBlockNumber entry.number).getD 0 = entry.hash
          · -- the chain below is met
            simp only [if_pos hcan]
            refine ⟨_, _, rfl, h.canonical fun n k hn hk => ?_, h.entriesIn, h.depth_pos⟩
            have hn' : n = entry.number := by omega
            rw [getBlockHashForBlockNumber, ← hn', hk, Option.getD_some] at hcan
            rw [hcan, hp]
          · simp only [if_neg hcan]
            have hstep := h.step hmem hp (madeCanonical_setBlockNumber hentry)
            exact ih (by omega) hstep (d + 1)
      | none =>
          cases hfetch : fetchEntryByHash client p with
          | error e =>
              -- only the parent of the root is missing, and no number is below the root's
              refine ⟨_, _, rfl, h.canonical fun n k hn hk => ?_, h.entriesIn, h.depth_pos⟩
              obtain ⟨c, child, -, hchild, hparent, hcnumber⟩ := h.exists_child
              have hroot : child.header = tree.root := by
                refine tree.eq_root_of_parent_not_mem (h.entriesIn c child hchild) ?_
                intro b hb hbp
                obtain ⟨entry, hok, -⟩ := hc.fetch_of_mem hb
                rw [hbp.trans hparent, hfetch] at hok
                simp at hok
              obtain ⟨e, he, hen⟩ := h.hasEntry n k hk
              have hle : tree.root.number ≤ e.header.number :=
                tree.root_level_le (h.entriesIn k e he)
              rw [← hroot] at hle
              have hlt : child.number ≤ e.number := hle
              omega
          | ok entry =>
              obtain ⟨hmem, hp⟩ := hc.gives.mem_of_fetch hfetch
              have hnumber : entry.number + 1 = m := h.number_of_hash hmem hp
              by_cases hmin : entry.number < minBlock
              · -- the numbers end above this block
                simp only [if_pos hmin]
                refine ⟨_, _, rfl, h.canonical fun n k hn hk => ?_, h.entriesIn, h.depth_pos⟩
                have hge := h.above_min n k (by omega) hk
                omega
              · simp only [if_neg hmin]
                have hstep := h.step hmem hp (madeCanonical_setEntry history entry)
                exact ih (by omega) hstep (d + 1)

end WalkRun

/-! ## One call -/

section Call

variable {tree : BlockTree} {history history' : BlockHistory S Block} {header : Header}
  {lastNew : Option Header}

omit [KabuBlock Block]

lemma HeaderAdded.of_old (h : HeaderAdded history header history')
    (hchain : CanonicalChain history lastNew) {n : ℕ} {k : BlockHash}
    (hn : history'.blockNumbers.lookup n = some k)
    (hold : ¬ (history.latestBlockNumber ≤ header.number ∧ n = header.number)) :
    history.blockNumbers.lookup n = some k ∧ ∃ entry,
      history.blockEntries.lookup k = some entry ∧ history'.blockEntries.lookup k = some entry ∧
        entry.number = n := by
  have hnumbers := ((h.numbers n k).mp hn).2
  rw [if_neg hold] at hnumbers
  obtain ⟨entry, hentry, hnumber⟩ := hchain.hasEntry n k hnumbers
  exact ⟨hnumbers, entry, hentry, h.kept n k entry hn hentry, hnumber⟩

lemma HeaderAdded.entriesIn (h : HeaderAdded history header history')
    (hentries : EntriesIn tree history) (hmem : tree.Mem header) : EntriesIn tree history' := by
  intro k entry he
  rcases h.entries k entry he with ⟨-, rfl⟩ | hold
  · exact hmem
  · exact hentries k entry hold

lemma HeaderAdded.linked_of_old (h : HeaderAdded history header history')
    (hchain : CanonicalChain history lastNew) {n : ℕ} {k k' : BlockHash}
    {entry : BlockHistoryEntry Block} (hn : history'.blockNumbers.lookup n = some k)
    (hn' : history'.blockNumbers.lookup (n + 1) = some k')
    (he : history'.blockEntries.lookup k' = some entry)
    (hold : ¬ (history.latestBlockNumber ≤ header.number ∧ n = header.number))
    (hold' : ¬ (history.latestBlockNumber ≤ header.number ∧ n + 1 = header.number)) :
    entry.parentHash = k := by
  obtain ⟨hk, -⟩ := h.of_old hchain hn hold
  obtain ⟨hk', entry', hentry', hkept, -⟩ := h.of_old hchain hn' hold'
  rw [he, Option.some.injEq] at hkept
  rw [hkept]
  exact hchain.linked n k k' entry' hk hk' hentry'

lemma HeaderAdded.chainInv_of_lt (h : HeaderAdded history header history')
    (hinv : ChainInv tree history lastNew) (hmem : tree.Mem header)
    (hlt : header.number < history.latestBlockNumber) : ChainInv tree history' lastNew := by
  have hlatest : history'.latestBlockNumber = history.latestBlockNumber := by
    rw [h.latest, max_eq_left hlt.le]
  have hold : ∀ n, ¬ (history.latestBlockNumber ≤ header.number ∧ n = header.number) := by
    intro n
    omega
  refine ⟨⟨fun n k hn => ?_, fun n k hn => ?_, fun H hH => ?_, fun n k k' entry hn hn' he => ?_⟩,
    h.entriesIn hinv.entriesIn hmem, h.depth ▸ hinv.depth_pos⟩
  · obtain ⟨-, entry, -, hentry, hnumber⟩ := h.of_old hinv.canonical hn (hold n)
    exact ⟨entry, hentry, hnumber⟩
  · rw [hlatest]
    exact hinv.canonical.le_latest n k (h.of_old hinv.canonical hn (hold n)).1
  · rw [hlatest, h.numbers, if_neg (hold _)]
    refine ⟨fun _ => ?_, hinv.canonical.head H hH⟩
    omega
  · exact h.linked_of_old hinv.canonical hn hn' he (hold n) (hold (n + 1))

section NewHead

variable (h : HeaderAdded history header history') (hinv : ChainInv tree history lastNew)
  (hmem : tree.Mem header) (hle : history.latestBlockNumber ≤ header.number)

include h hinv hle

lemma HeaderAdded.head_number : history'.blockNumbers.lookup header.number = some header.hash := by
  rw [h.numbers, if_pos ⟨hle, rfl⟩]
  refine ⟨fun hdeep => ?_, rfl⟩
  have hpos := hinv.depth_pos
  omega

include hmem

lemma HeaderAdded.walkInv {minBlock : ℕ} (hmin : history.getFirstBlockNumber = some minBlock) :
    WalkInv tree minBlock (some header) history' header.number header.parentHash := by
  have hlatest : history'.latestBlockNumber = header.number := by
    rw [h.latest, max_eq_right hle]
  have hhead := h.head_number hinv hle
  have hle_latest : ∀ n k, history'.blockNumbers.lookup n = some k → n ≤ header.number := by
    intro n k hn
    by_cases hne : n = header.number
    · exact hne.le
    · obtain ⟨hk, -⟩ := h.of_old hinv.canonical hn (by omega)
      have := hinv.canonical.le_latest n k hk
      omega
  refine ⟨h.depth ▸ hinv.depth_pos, h.entriesIn hinv.entriesIn hmem, fun n k hn => ?_,
    fun n k hn => hlatest ▸ hle_latest n k hn, fun H hH => ?_,
    fun n k k' entry hne hn hn' he => ?_, ⟨header.hash, .ofHeader header, hhead, h.own, rfl⟩,
    fun n k hlt hn => ?_⟩
  · by_cases hne : n = header.number
    · rw [hne, hhead, Option.some.injEq] at hn
      exact ⟨.ofHeader header, hn ▸ h.own, hne.symm⟩
    · obtain ⟨-, entry, -, hentry, hnumber⟩ := h.of_old hinv.canonical hn (by omega)
      exact ⟨entry, hentry, hnumber⟩
  · rw [Option.some.injEq] at hH
    rw [hlatest, ← hH, hhead]
  · have hup := hle_latest (n + 1) k' hn'
    exact h.linked_of_old hinv.canonical hn hn' he (by omega) (by omega)
  · obtain ⟨-, entry, hentry, -, hnumber⟩ := h.of_old hinv.canonical hn (by omega)
    rw [← hnumber]
    exact le_of_getFirstBlockNumber hmin hentry

lemma HeaderAdded.chainInv_of_empty (hempty : history.getFirstBlockNumber = none) :
    ChainInv tree history' (some header) := by
  rw [getFirstBlockNumber_eq_none_iff] at hempty
  have hhead := h.head_number hinv hle
  have honly : ∀ n k, history'.blockNumbers.lookup n = some k → n = header.number := by
    intro n k hn
    by_contra hne
    obtain ⟨-, entry, hentry, -⟩ := h.of_old hinv.canonical hn (by omega)
    rw [hempty] at hentry
    simp at hentry
  have hlatest : history'.latestBlockNumber = header.number := by
    rw [h.latest, max_eq_right hle]
  refine ⟨⟨fun n k hn => ?_, fun n k hn => ?_, fun H hH => ?_, fun n k k' entry hn hn' he => ?_⟩,
    h.entriesIn hinv.entriesIn hmem, h.depth ▸ hinv.depth_pos⟩
  · have hne := honly n k hn
    rw [hne, hhead, Option.some.injEq] at hn
    exact ⟨.ofHeader header, hn ▸ h.own, hne.symm⟩
  · rw [hlatest, honly n k hn]
  · rw [Option.some.injEq] at hH
    rw [hlatest, ← hH, hhead]
  · have hne := honly n k hn
    have hne' := honly (n + 1) k' hn'
    omega

end NewHead

end Call

/-- One call of `setChainHead`, with the answers of the client during it. -/
structure HeadCall (Block : Type*) where
  client : Client Block
  header : Header

/-- The history with the last header that was accepted as new. -/
abbrev HeadState (S Block : Type*) := BlockHistory S Block × Option Header

/-- Perform a call, and note the header if it is accepted as new. -/
def headStep (fuel : ℕ) (s : HeadState S Block) (call : HeadCall Block) :
    Except Halt (HeadState S Block) :=
  (setChainHead fuel call.client s.1 call.header).map fun answer =>
    (answer.2, match (s.1.addBlockHeader call.header).1 with
      | .ok true => some call.header
      | _ => s.2)

/-- The invariant of a run of calls. -/
structure HeadInv (tree : BlockTree) (s : HeadState S Block) : Prop where
  chain : ChainInv tree s.1 s.2
  /-- Until a header is accepted the history is empty. -/
  start : s.2 = none → s.1.latestBlockNumber = 0 ∧ s.1.getFirstBlockNumber = none

omit [KabuBlock Block] in
lemma HeadInv.new (tree : BlockTree) {depth : ℕ} (hdepth : 1 ≤ depth) :
    HeadInv tree ((BlockHistory.new depth, none) : HeadState S Block) where
  chain :=
    { canonical := ⟨fun _ _ h => absurd h (by simp [BlockHistory.new]),
        fun _ _ h => absurd h (by simp [BlockHistory.new]), fun _ h => absurd h (by simp),
        fun _ _ _ _ h => absurd h (by simp [BlockHistory.new])⟩
      entriesIn := fun _ _ h => absurd h (by simp [BlockHistory.new])
      depth_pos := hdepth }
  start _ := ⟨rfl, rfl⟩

omit [KabuBlock Block] in
lemma HeadInv.of_chain {tree : BlockTree} {s : HeadState S Block} (h : ChainInv tree s.1 s.2)
    (hnew : s.2 ≠ none) : HeadInv tree s := ⟨h, fun hnone => absurd hnone hnew⟩

section HeadStep

variable {tree : BlockTree} {s : HeadState S Block} {fuel : ℕ} {call : HeadCall Block}
  {history' : BlockHistory S Block}

lemma headStep_of_contains (h : s.1.containsBlock call.header.hash = true) :
    headStep fuel s call = .ok s := by
  rw [headStep, setChainHead, addBlockHeader_of_contains h]
  rfl

lemma headStep_of_lt (hadd : s.1.addBlockHeader call.header = (.ok false, history')) :
    headStep fuel s call = .ok (history', s.2) := by
  rw [headStep, setChainHead, hadd]
  cases s.1.getFirstBlockNumber <;> rfl

lemma headStep_of_first (hadd : s.1.addBlockHeader call.header = (.ok true, history'))
    (hfirst : s.1.getFirstBlockNumber = none) :
    headStep fuel s call = .ok (history', some call.header) := by
  rw [headStep, setChainHead, hadd, hfirst]
  rfl

lemma headStep_of_walk {history'' : BlockHistory S Block} {minBlock : ℕ}
    {r : Except Report ℕ} (hadd : s.1.addBlockHeader call.header = (.ok true, history'))
    (hfirst : s.1.getFirstBlockNumber = some minBlock)
    (hwalk : walkParents call.client minBlock fuel history' call.header.parentHash 0 =
      .ok (r, history'')) :
    headStep fuel s call = .ok (history'', some call.header) := by
  rw [headStep, setChainHead, hadd, hfirst]
  simp only [hwalk, if_true]
  rfl

/-- **One call** returns and keeps the invariant, and after it some header is accepted. -/
lemma headStep_inv (hinv : HeadInv tree s) (hmem : tree.Mem call.header)
    (hc : tree.Honest call.client) (hfuel : call.header.number < fuel) :
    ∃ s', headStep fuel s call = .ok s' ∧ HeadInv tree s' ∧ s'.2 ≠ none := by
  cases hcontains : s.1.containsBlock call.header.hash with
  | true =>
      refine ⟨s, headStep_of_contains hcontains, hinv, fun hnone => ?_⟩
      have hempty := getFirstBlockNumber_eq_none_iff.mp (hinv.start hnone).2 call.header.hash
      rw [containsBlock, hempty] at hcontains
      simp at hcontains
  | false =>
      obtain ⟨history', hadd, hadded⟩ := addBlockHeader_of_not_contains hcontains
      by_cases hle : s.1.latestBlockNumber ≤ call.header.number
      · rw [decide_eq_true hle] at hadd
        cases hfirst : s.1.getFirstBlockNumber with
        | none =>
            have hchain := hadded.chainInv_of_empty hinv.chain hmem hle hfirst
            exact ⟨_, headStep_of_first hadd hfirst, .of_chain hchain (by simp), by simp⟩
        | some minBlock =>
            have hwalkInv := hadded.walkInv hinv.chain hmem hle hfirst
            obtain ⟨r, history'', hwalk, hchain⟩ := walkParents_inv hc fuel hfuel hwalkInv 0
            exact ⟨_, headStep_of_walk hadd hfirst hwalk, .of_chain hchain (by simp), by simp⟩
      · rw [decide_eq_false hle] at hadd
        have hnew : s.2 ≠ none := fun hnone => hle (by rw [(hinv.start hnone).1]; omega)
        have hchain := hadded.chainInv_of_lt hinv.chain hmem (by omega)
        exact ⟨_, headStep_of_lt hadd, .of_chain hchain hnew, hnew⟩

lemma foldlM_headStep_inv (calls : List (HeadCall Block)) (hinv : HeadInv tree s)
    (hcalls : ∀ call ∈ calls, tree.Mem call.header ∧ tree.Honest call.client)
    (hfuel : ∀ call ∈ calls, call.header.number < fuel) :
    ∃ s', calls.foldlM (headStep fuel) s = .ok s' ∧ HeadInv tree s' ∧
      (calls ≠ [] ∨ s.2 ≠ none → s'.2 ≠ none) := by
  induction calls generalizing s with
  | nil => exact ⟨s, rfl, hinv, fun h => h.resolve_left (by simp)⟩
  | cons call calls ih =>
      obtain ⟨hmem, hc⟩ := hcalls call List.mem_cons_self
      obtain ⟨s₁, hstep, hinv₁, hnew₁⟩ := headStep_inv hinv hmem hc (hfuel call List.mem_cons_self)
      obtain ⟨s', hrun, hinv', hnew'⟩ := ih hinv₁
        (fun c hc => hcalls c (List.mem_cons_of_mem _ hc))
        (fun c hc => hfuel c (List.mem_cons_of_mem _ hc))
      refine ⟨s', ?_, hinv', fun _ => hnew' (.inr hnew₁)⟩
      rw [List.foldlM_cons, hstep]
      exact hrun

end HeadStep

/-- **The canonical chain.**  Over the headers of one tree, in any order, and with a client that
answers every request about them, each run of calls returns and leaves a well-formed canonical
chain with the last accepted header as its head, provided the history keeps at least one
number. -/
theorem canonicalChain_of_run (tree : BlockTree) {depth : ℕ} (hdepth : 1 ≤ depth)
    (calls : List (HeadCall Block))
    (hcalls : ∀ call ∈ calls, tree.Mem call.header ∧ tree.Honest call.client)
    {fuel : ℕ} (hfuel : ∀ call ∈ calls, call.header.number < fuel) :
    ∃ s : HeadState S Block, calls.foldlM (headStep fuel) (BlockHistory.new depth, none) = .ok s ∧
      CanonicalChain s.1 s.2 ∧ (calls ≠ [] → s.2 ≠ none) := by
  obtain ⟨s, hrun, hinv, hnew⟩ := foldlM_headStep_inv (s := (BlockHistory.new depth, none)) calls
    (HeadInv.new tree hdepth) hcalls hfuel
  exact ⟨s, hrun, hinv.chain.canonical, fun hne => hnew (.inl hne)⟩

/-! ### A fork of two blocks -/

def rootHeader : Header := ⟨1, 0, 1⟩
def leftHeader : Header := ⟨2, 1, 2⟩
def rightHeader : Header := ⟨3, 1, 2⟩
def tipHeader : Header := ⟨4, 3, 3⟩

def forkHeaders : List Header := [rootHeader, leftHeader, rightHeader, tipHeader]

lemma forkHeaders_hash_inj :
    ∀ a ∈ forkHeaders, ∀ b ∈ forkHeaders, a.hash = b.hash → a = b := by decide

lemma forkHeaders_parent : ∀ a ∈ forkHeaders, a ≠ rootHeader →
    ∃ p ∈ forkHeaders, p.hash = a.parentHash ∧ a.number = p.number + 1 := by decide

lemma forkHeaders_root : ∀ a ∈ forkHeaders, a.hash ≠ rootHeader.parentHash := by decide

def forkTree : BlockTree where
  Mem b := b ∈ forkHeaders
  root := rootHeader
  root_mem := by decide
  key_inj {a b} ha hb := forkHeaders_hash_inj a ha b hb
  parent_mem {a} ha hne := forkHeaders_parent a ha hne
  root_parent {a} ha := forkHeaders_root a ha

/-- A client that knows the blocks of the fork. -/
def forkClient (getLogs : BlockHash → Except Report (List Log)) : Client Header where
  getBlockByHash h := .ok (forkHeaders.find? (·.hash = h))
  getLogs := getLogs
  debugTraceBlock _ := .ok []

lemma forkClient_find : ∀ b ∈ forkHeaders, forkHeaders.find? (·.hash = b.hash) = some b := by
  decide

lemma forkClient_honest : forkTree.Honest (forkClient fun _ => .ok []) where
  answers b hb := ⟨b, congrArg Except.ok (forkClient_find b hb), rfl⟩
  logs _ _ := ⟨[], rfl⟩
  only h block hblock := by
    have hfind : forkHeaders.find? (·.hash = h) = some block := Except.ok.inj hblock
    have hhash : block.hash = h := by simpa using List.find?_some hfind
    exact ⟨List.mem_of_find?_eq_some hfind, hhash⟩

/-- The calls that make the left block the head and then the right branch. -/
def forkCalls (getLogs : BlockHash → Except Report (List Log)) : List (HeadCall Header) :=
  [rootHeader, leftHeader, tipHeader].map fun header => ⟨forkClient getLogs, header⟩

/-- The reorganisation to the right branch leaves a whole chain. -/
theorem forkCalls_canonical :
    ∃ s : HeadState Unit Header,
      (forkCalls fun _ => .ok []).foldlM (headStep 4) (BlockHistory.new 10, none) = .ok s ∧
        CanonicalChain s.1 s.2 ∧ ((forkCalls fun _ => .ok []) ≠ [] → s.2 ≠ none) := by
  refine canonicalChain_of_run forkTree (by decide) _ (fun call hcall => ?_) (fun call hcall => ?_)
  · obtain ⟨header, hheader, rfl⟩ := List.mem_map.mp hcall
    exact ⟨(by decide : ∀ b ∈ [rootHeader, leftHeader, tipHeader], b ∈ forkHeaders) header hheader,
      forkClient_honest⟩
  · obtain ⟨header, hheader, rfl⟩ := List.mem_map.mp hcall
    exact (by decide : ∀ b ∈ [rootHeader, leftHeader, tipHeader], b.number < 4) header hheader

/-- A history of depth zero drops the head it has just accepted.  And at any depth, a client
that knows every block but fails to give the logs stops the walk before the chain is whole. -/
theorem canonicalChain_can_break :
    (∃ s : HeadState Unit Header,
      [(⟨forkClient fun _ => .ok [], rootHeader⟩ : HeadCall Header)].foldlM (headStep 4)
          (BlockHistory.new 0, none) = .ok s ∧ ¬ CanonicalChain s.1 s.2) ∧
      ∃ s : HeadState Unit Header,
        (forkCalls fun _ => .error "LOGS").foldlM (headStep 4) (BlockHistory.new 10, none) =
          .ok s ∧ ¬ CanonicalChain s.1 s.2 := by
  refine ⟨⟨_, rfl, fun h => ?_⟩, _, rfl, fun h => ?_⟩
  · have hhead := h.head rootHeader rfl
    exact absurd hhead (by decide)
  · have hlinked := h.linked 2 2 4 (.ofHeader tipHeader) (by decide) (by decide) rfl
    exact absurd hlinked (by decide)

end Kabu
