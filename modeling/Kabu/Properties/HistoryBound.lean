import Kabu.Framework.Runs
import Kabu.Properties.ChainHead

/-!
# How much the history asks for and keeps

A history of depth `d` is meant to keep the blocks whose numbers are less than `d` below the head,
and to ask for no more than that.  Accepting a header does cut the numbers off, but the walk after
it stops only below the oldest block that was known before the cut.  When the head jumps ahead, the
walk fetches and stores everything in between.

`HeadNear` says when that does not happen: the oldest known block is less than `d` below the new
head, or the walk meets a canonical ancestor there.  An old header that is not new at all is stored
as well, so it must be in the window too.  In a run of such calls every call asks for at most `d`
blocks, and the history never keeps a block outside the window (`history_bounded_of_run`).
-/

namespace Kabu

open BlockHistoryManager BlockHistory

variable {S Block : Type*}

/-- The header is known, or it is below the head by less than the depth, or it is a new head and
the walk from it ends before it leaves the window. -/
inductive HeadNear (tree : BlockTree) (history : BlockHistory S Block) (header : Header) : Prop
  | known : history.containsBlock header.hash = true → HeadNear tree history header
  | below : header.number < history.latestBlockNumber →
      history.latestBlockNumber < header.number + history.depth → HeadNear tree history header
  /-- The oldest known block is in the window. -/
  | first : history.latestBlockNumber ≤ header.number →
      (∀ minBlock, history.getFirstBlockNumber = some minBlock →
        header.number < minBlock + history.depth) → HeadNear tree history header
  /-- A canonical ancestor is in the window. -/
  | meets {a : Header} : history.latestBlockNumber ≤ header.number →
      history.depth < header.number → tree.Ancestor a header →
      header.number < a.number + history.depth →
      history.blockNumbers.lookup a.number = some a.hash → HeadNear tree history header

/-- The entries are blocks of the tree in the window, and every number has its entry. -/
structure WindowInv (tree : BlockTree) (history : BlockHistory S Block) : Prop where
  entriesIn : EntriesIn tree history
  hasEntry : ∀ n h, history.blockNumbers.lookup n = some h →
    ∃ entry, history.blockEntries.lookup h = some entry ∧ entry.number = n
  within : ∀ h entry, history.blockEntries.lookup h = some entry →
    history.latestBlockNumber < entry.number + history.depth

/-! ## The walk -/

section Walk

variable {tree : BlockTree} {history history' : BlockHistory S Block} {minBlock : ℕ}
  {entry : BlockHistoryEntry Block} {child : Header}

lemma WindowInv.made (h : WindowInv tree history) (hmem : tree.Mem entry.header)
    (hmade : MadeCanonical history entry history')
    (hin : history.latestBlockNumber < entry.number + history.depth) :
    WindowInv tree history' := by
  refine ⟨hmade.entriesIn h.entriesIn hmem, hmade.hasEntry h.entriesIn hmem h.hasEntry,
    fun k e he => ?_⟩
  rw [hmade.latest, hmade.depth]
  rcases hmade.entry_cases he with ⟨rfl, -⟩ | hold
  · exact hin
  · exact h.within k e hold

/-- The walk from the parent of `child` ends in the window. -/
def EndsInWindow (tree : BlockTree) (history : BlockHistory S Block) (minBlock : ℕ)
    (child : Header) : Prop :=
  history.latestBlockNumber < minBlock + history.depth ∨
    ∃ a, tree.Ancestor a child ∧ history.latestBlockNumber < a.number + history.depth ∧
      history.blockNumbers.lookup a.number = some a.hash

lemma EndsInWindow.parent (h : EndsInWindow tree history minBlock child)
    (hparent : tree.Parent entry.header child)
    (hnot : history.blockNumbers.lookup entry.number ≠ some entry.hash) :
    EndsInWindow tree history minBlock entry.header := by
  rcases h with hmin | ⟨a, hancestor, hin, hcanonical⟩
  · exact Or.inl hmin
  · rcases tree.ancestor_of_parent hancestor hparent with rfl | hancestor'
    · exact absurd hcanonical hnot
    · exact Or.inr ⟨a, hancestor', hin, hcanonical⟩

lemma EndsInWindow.lt (h : EndsInWindow tree history minBlock child) (hchild : tree.Mem child)
    (hmin : minBlock ≤ child.number) : history.latestBlockNumber < child.number + history.depth := by
  rcases h with hlt | ⟨a, hancestor, hin, -⟩
  · omega
  · have hlevel := hancestor.level_lt tree hchild
    omega

lemma EndsInWindow.made (h : EndsInWindow tree history minBlock entry.header)
    (hmem : tree.Mem entry.header) (hmade : MadeCanonical history entry history') :
    EndsInWindow tree history' minBlock entry.header := by
  unfold EndsInWindow
  rw [hmade.latest, hmade.depth]
  rcases h with hlt | ⟨a, hancestor, hin, hcanonical⟩
  · exact Or.inl hlt
  · have hlevel : a.number < entry.number := hancestor.level_lt tree hmem
    refine Or.inr ⟨a, hancestor, hin, ?_⟩
    rw [hmade.numbers, if_neg hlevel.ne]
    exact hcanonical

variable [KabuBlock Block] {client : Client Block} {p : BlockHash}

/-- **The walk stays in the window.**  It asks for at most one block for each number that is left
of the window below `child`, and stores no block outside. -/
lemma walk_in_window (hgives : tree.Gives client) (fuel : ℕ) (h : WindowInv tree history)
    (hchild : tree.Mem child) (hp : p = child.parentHash)
    (hin : history.latestBlockNumber < child.number + history.depth)
    (hends : EndsInWindow tree history minBlock child) :
    walkRequests client minBlock fuel history p + history.latestBlockNumber ≤
        child.number + history.depth ∧
      ∀ d r history', walkParents client minBlock fuel history p d = .ok (r, history') →
        WindowInv tree history' ∧ history'.depth = history.depth := by
  induction fuel generalizing history child p with
  | zero =>
      refine ⟨?_, fun d r history' hwalk => absurd hwalk (by simp [walkParents])⟩
      rw [walkRequests]
      omega
  | succ fuel ih =>
      rw [walkRequests]
      simp only [walkParents]
      cases hentry : history.getBlockHistoryEntry p with
      | some entry =>
          simp only
          have hmem := h.entriesIn p entry hentry
          have hparent : tree.Parent entry.header child :=
            ⟨hmem, (history.keyed p entry hentry).trans hp⟩
          have hlevel : child.number = entry.number + 1 :=
            tree.level_of_key_eq_parentKey hchild hmem hparent.2
          by_cases hcan : (history.getBlockHashForBlockNumber entry.number).getD 0 = entry.hash
          · simp only [if_pos hcan]
            refine ⟨by omega, fun d r history' hwalk => ?_⟩
            obtain ⟨-, rfl⟩ := Prod.mk.inj (Except.ok.inj hwalk)
            exact ⟨h, rfl⟩
          · simp only [if_neg hcan]
            have hnot : history.blockNumbers.lookup entry.number ≠ some entry.hash := by
              intro hsome
              rw [getBlockHashForBlockNumber, hsome] at hcan
              exact hcan rfl
            have hmade := madeCanonical_setBlockNumber hentry
            have hwithin := h.within p entry hentry
            obtain ⟨hasked, hwalks⟩ := ih (h.made hmem hmade hwithin) hmem rfl hwithin
              ((hends.parent hparent hnot).made hmem hmade)
            have hrequests : walkRequests client minBlock fuel
                (history.setBlockNumber entry.number entry.hash) entry.parentHash +
                  history.latestBlockNumber ≤ entry.number + history.depth := hasked
            exact ⟨by omega, fun d r history' hwalk => hwalks (d + 1) r history' hwalk⟩
      | none =>
          simp only
          cases hfetch : fetchEntryByHash client p with
          | error e =>
              refine ⟨by dsimp only; omega, fun d r history' hwalk => ?_⟩
              obtain ⟨-, rfl⟩ := Prod.mk.inj (Except.ok.inj hwalk)
              exact ⟨h, rfl⟩
          | ok entry =>
              obtain ⟨hmem, hhash⟩ := hgives.mem_of_fetch hfetch
              have hparent : tree.Parent entry.header child := ⟨hmem, hhash.trans hp⟩
              have hlevel : child.number = entry.number + 1 :=
                tree.level_of_key_eq_parentKey hchild hmem hparent.2
              by_cases hmin : entry.number < minBlock
              · simp only [if_pos hmin]
                refine ⟨by omega, fun d r history' hwalk => ?_⟩
                obtain ⟨-, rfl⟩ := Prod.mk.inj (Except.ok.inj hwalk)
                exact ⟨h, rfl⟩
              · simp only [if_neg hmin]
                -- a canonical block has an entry, and this one has none
                have hnot : history.blockNumbers.lookup entry.number ≠ some entry.hash := by
                  intro hsome
                  obtain ⟨e, he, -⟩ := h.hasEntry _ _ hsome
                  rw [hhash] at he
                  cases he.symm.trans hentry
                have hmade := madeCanonical_setEntry history entry
                have hends' := hends.parent hparent hnot
                have hwithin : history.latestBlockNumber < entry.number + history.depth :=
                  hends'.lt hmem (not_lt.mp hmin)
                obtain ⟨hasked, hwalks⟩ := ih (h.made hmem hmade hwithin) hmem rfl hwithin
                  (hends'.made hmem hmade)
                have hrequests : walkRequests client minBlock fuel (history.setEntry entry)
                    entry.parentHash + history.latestBlockNumber ≤ entry.number + history.depth :=
                  hasked
                exact ⟨by omega, fun d r history' hwalk => hwalks (d + 1) r history' hwalk⟩

end Walk

/-! ## One call -/

section Call

variable {tree : BlockTree} {history history' : BlockHistory S Block} {header : Header}

lemma WindowInv.hasEntry_added (h : WindowInv tree history)
    (hadded : HeaderAdded history header history') (n : ℕ) (k : BlockHash)
    (hn : history'.blockNumbers.lookup n = some k) :
    ∃ entry, history'.blockEntries.lookup k = some entry ∧ entry.number = n := by
  have hnumber := ((hadded.numbers n k).mp hn).2
  by_cases hhead : history.latestBlockNumber ≤ header.number ∧ n = header.number
  · rw [if_pos hhead] at hnumber
    exact ⟨.ofHeader header, hnumber ▸ hadded.own, hhead.2.symm⟩
  · rw [if_neg hhead] at hnumber
    obtain ⟨entry, hentry, hnum⟩ := h.hasEntry n k hnumber
    exact ⟨entry, hadded.kept n k entry hn hentry, hnum⟩

/-- An entry that survives the cut-off is in the window of the new head. -/
lemma WindowInv.lt_of_cutOff (h : WindowInv tree history)
    (hcontains : history.containsBlock header.hash = false)
    (hdepth : history.depth < header.number) {k : BlockHash} {entry : BlockHistoryEntry Block}
    (hk : k ≠ header.hash)
    (he : (history.addBlockHeader header).2.blockEntries.lookup k = some entry) :
    header.number < entry.number + history.depth := by
  obtain ⟨added, hadd, hadded⟩ := addBlockHeader_of_not_contains hcontains
  obtain ⟨n, hn⟩ := canonical_of_addBlockHeader hcontains hdepth he hk
  rw [hadd] at he hn
  obtain ⟨e, he', hnumber⟩ := h.hasEntry_added hadded n k hn
  obtain rfl := Option.some.inj (he.symm.trans he')
  have hkeeps := ((hadded.numbers n k).mp hn).1 hdepth
  omega

lemma WindowInv.added (h : WindowInv tree history) (hmem : tree.Mem header)
    (hdepth : 1 ≤ history.depth) (hcontains : history.containsBlock header.hash = false)
    (hnear : HeadNear tree history header) :
    WindowInv tree (history.addBlockHeader header).2 := by
  have hcut := fun hdeep k entry hk he =>
    @WindowInv.lt_of_cutOff _ _ tree history header h hcontains hdeep k entry hk he
  obtain ⟨added, hadd, hadded⟩ := addBlockHeader_of_not_contains hcontains
  rw [hadd] at hcut ⊢
  refine ⟨hadded.entriesIn h.entriesIn hmem, h.hasEntry_added hadded, fun k entry he => ?_⟩
  rw [hadded.latest, hadded.depth]
  by_cases hk : k = header.hash
  · obtain rfl : entry = .ofHeader header := by
      rw [hk, hadded.own] at he
      exact (Option.some.inj he).symm
    show max history.latestBlockNumber header.number < header.number + history.depth
    cases hnear with
    | known hknown => cases hcontains.symm.trans hknown
    | below hlt hin => omega
    | first hle _ => omega
    | meets hle _ _ _ _ => omega
  · have hold := (hadded.entries k entry he).resolve_left fun hown => hk hown.1
    cases hnear with
    | known hknown => cases hcontains.symm.trans hknown
    | below hlt _ =>
        rw [max_eq_left hlt.le]
        exact h.within k entry hold
    | first hle hfirst =>
        rw [max_eq_right hle]
        cases hmin : history.getFirstBlockNumber with
        | none =>
            have hnone := getFirstBlockNumber_eq_none_iff.mp hmin k
            cases hnone.symm.trans hold
        | some minBlock =>
            have hlt := hfirst minBlock hmin
            have hle' := le_of_getFirstBlockNumber hmin hold
            omega
    | meets hle hdeep _ _ _ =>
        rw [max_eq_right hle]
        exact hcut hdeep k entry hk he

lemma HeaderAdded.endsInWindow (hadded : HeaderAdded history header history')
    (hmem : tree.Mem header) (hcontains : history.containsBlock header.hash = false)
    (hle : history.latestBlockNumber ≤ header.number) (hnear : HeadNear tree history header)
    {minBlock : ℕ} (hmin : history.getFirstBlockNumber = some minBlock) :
    EndsInWindow tree history' minBlock header := by
  unfold EndsInWindow
  rw [hadded.latest, hadded.depth, max_eq_right hle]
  cases hnear with
  | known hknown => cases hcontains.symm.trans hknown
  | below hlt _ => exact absurd hle (not_le.mpr hlt)
  | first _ hfirst => exact Or.inl (hfirst minBlock hmin)
  | @meets a _ hdeep hancestor hin hcanonical =>
      have hlevel : a.number < header.number := hancestor.level_lt tree hmem
      refine Or.inr ⟨a, hancestor, hin, (hadded.numbers _ _).mpr ⟨fun _ => by omega, ?_⟩⟩
      rw [if_neg (by omega)]
      exact hcanonical

variable [KabuBlock Block] {client : Client Block}

/-- **One call** with a header in the window asks for at most as many blocks as the depth, and
keeps the window. -/
lemma setChainHead_in_window (hgives : tree.Gives client) (h : WindowInv tree history)
    (hdepth : 1 ≤ history.depth) (hmem : tree.Mem header) (hnear : HeadNear tree history header)
    (fuel : ℕ) :
    headRequests fuel client history header ≤ history.depth ∧
      ∀ answer history', setChainHead fuel client history header = .ok (answer, history') →
        WindowInv tree history' ∧ history'.depth = history.depth := by
  unfold headRequests setChainHead
  cases hcontains : history.containsBlock header.hash with
  | true =>
      rw [addBlockHeader_of_contains hcontains]
      refine ⟨Nat.zero_le _, fun answer history' hcall => ?_⟩
      obtain ⟨-, rfl⟩ := Prod.mk.inj (Except.ok.inj hcall)
      exact ⟨h, rfl⟩
  | false =>
      have hwindow := h.added hmem hdepth hcontains hnear
      obtain ⟨added, hadd, hadded⟩ := addBlockHeader_of_not_contains hcontains
      rw [hadd] at hwindow ⊢
      dsimp only at hwindow
      cases hmin : history.getFirstBlockNumber with
      | none =>
          refine ⟨Nat.zero_le _, fun answer history' hcall => ?_⟩
          obtain ⟨-, rfl⟩ := Prod.mk.inj (Except.ok.inj hcall)
          exact ⟨hwindow, hadded.depth⟩
      | some minBlock =>
          dsimp only
          by_cases hle : history.latestBlockNumber ≤ header.number
          · simp only [decide_eq_true hle, if_true]
            have hlatest : added.latestBlockNumber = header.number :=
              hadded.latest.trans (max_eq_right hle)
            have hin : added.latestBlockNumber < header.number + added.depth := by
              rw [hlatest, hadded.depth]
              omega
            obtain ⟨hrequests, hwalks⟩ := walk_in_window hgives fuel hwindow hmem rfl hin
              (hadded.endsInWindow hmem hcontains hle hnear hmin)
            rw [hlatest, hadded.depth] at hrequests
            refine ⟨by omega, fun answer history' hcall => ?_⟩
            obtain ⟨⟨r, walked⟩, hwalk, hmap⟩ := exceptMap_eq_ok hcall
            obtain ⟨-, rfl⟩ := Prod.mk.inj hmap
            obtain ⟨hinv, hsame⟩ := hwalks 0 r walked hwalk
            exact ⟨hinv, hsame.trans hadded.depth⟩
          · simp only [decide_eq_false hle, Bool.false_eq_true, if_false]
            refine ⟨Nat.zero_le _, fun answer history' hcall => ?_⟩
            obtain ⟨-, rfl⟩ := Prod.mk.inj (Except.ok.inj hcall)
            exact ⟨hwindow, hadded.depth⟩

/-- A call with a header of the tree, and a client that gives its blocks or fails. -/
structure CallOf (tree : BlockTree) (call : HeadCall Block) : Prop where
  mem : tree.Mem call.header
  gives : tree.Gives call.client

/-- The call returns and leaves the history. -/
def HeadCalled (history : BlockHistory S Block) (call : HeadCall Block)
    (history' : BlockHistory S Block) : Prop :=
  ∃ fuel answer, setChainHead fuel call.client history call.header = .ok (answer, history')

end Call

/-- **The history is bounded.**  In every run of calls with headers of one tree that are all near
the head they meet, each call asks for at most `depth` blocks, however far it has come, and after
it every entry is less than `depth` below the head. -/
theorem history_bounded_of_run [KabuBlock Block] (tree : BlockTree) {depth : ℕ} (hdepth : 1 ≤ depth)
    {history : BlockHistory S Block}
    (hrun : Runs.Reached HeadCalled
      (fun history call => CallOf tree call ∧ HeadNear tree history call.header)
      (BlockHistory.new depth) history)
    {call : HeadCall Block} (hcall : CallOf tree call)
    (hnear : HeadNear tree history call.header) :
    (∀ fuel, headRequests fuel call.client history call.header ≤ depth) ∧
      ∀ history', HeadCalled history call history' → ∀ h entry,
        history'.blockEntries.lookup h = some entry →
          history'.latestBlockNumber < entry.number + depth := by
  have hnew : WindowInv tree (BlockHistory.new depth : BlockHistory S Block) :=
    ⟨fun _ _ h => absurd h (by simp [BlockHistory.new]),
      fun _ _ h => absurd h (by simp [BlockHistory.new]),
      fun _ _ h => absurd h (by simp [BlockHistory.new])⟩
  have hstep : ∀ (s : BlockHistory S Block) (c : HeadCall Block) (s' : BlockHistory S Block),
      WindowInv tree s ∧ s.depth = depth → CallOf tree c ∧ HeadNear tree s c.header →
      HeadCalled s c s' → WindowInv tree s' ∧ s'.depth = depth := by
    rintro s c s' ⟨hs, hsame⟩ ⟨hc, hnear⟩ ⟨fuel, answer, hset⟩
    obtain ⟨hwindow, hsame'⟩ := (setChainHead_in_window hc.gives hs (hsame ▸ hdepth) hc.mem hnear
      fuel).2 answer s' hset
    exact ⟨hwindow, hsame'.trans hsame⟩
  have hinv : WindowInv tree history ∧ history.depth = depth := hrun.invariant hstep ⟨hnew, rfl⟩
  obtain ⟨hwindow, rfl⟩ := hinv
  refine ⟨fun fuel => (setChainHead_in_window hcall.gives hwindow hdepth hcall.mem hnear fuel).1,
    fun history' hcalled h entry he => ?_⟩
  obtain ⟨fuel, answer, hset⟩ := hcalled
  obtain ⟨hwindow', hsame⟩ :=
    (setChainHead_in_window hcall.gives hwindow hdepth hcall.mem hnear fuel).2 answer history' hset
  rw [← hsame]
  exact hwindow'.within h entry he

/-! ### A chain without forks -/

def lineHeaders : List Header := [⟨1, 0, 1⟩, ⟨2, 1, 2⟩, ⟨3, 2, 3⟩, ⟨4, 3, 4⟩, ⟨5, 4, 5⟩, ⟨6, 5, 6⟩]

lemma lineHeaders_hash_inj :
    ∀ a ∈ lineHeaders, ∀ b ∈ lineHeaders, a.hash = b.hash → a = b := by decide

lemma lineHeaders_parent : ∀ a ∈ lineHeaders, a ≠ ⟨1, 0, 1⟩ →
    ∃ p ∈ lineHeaders, p.hash = a.parentHash ∧ a.number = p.number + 1 := by decide

lemma lineHeaders_root : ∀ a ∈ lineHeaders, a.hash ≠ 0 := by decide

def lineTree : BlockTree where
  Mem b := b ∈ lineHeaders
  root := ⟨1, 0, 1⟩
  root_mem := by decide
  key_inj {a b} ha hb := lineHeaders_hash_inj a ha b hb
  parent_mem {a} ha hne := lineHeaders_parent a ha hne
  root_parent {a} ha := lineHeaders_root a ha

def lineClient : Client Header where
  getBlockByHash h := .ok (lineHeaders.find? (·.hash = h))
  getLogs _ := .ok []
  debugTraceBlock _ := .ok []

lemma callOf_lineClient {header : Header} (h : header ∈ lineHeaders) :
    CallOf lineTree ⟨lineClient, header⟩ where
  mem := h
  gives hash block hblock := by
    have hfind : lineHeaders.find? (·.hash = hash) = some block := Except.ok.inj hblock
    have hhash : block.hash = hash := by simpa using List.find?_some hfind
    exact ⟨List.mem_of_find?_eq_some hfind, hhash⟩

/-- The history of depth two that starts at block two. -/
def secondHistory : BlockHistory Unit Header :=
  ((BlockHistory.new 2).addBlockHeader ⟨2, 1, 2⟩).2

def thirdHistory : BlockHistory Unit Header := (secondHistory.addBlockHeader ⟨3, 2, 3⟩).2

lemma thirdHistory_reached : Runs.Reached HeadCalled
    (fun history call => CallOf lineTree call ∧ HeadNear lineTree history call.header)
    (BlockHistory.new 2) thirdHistory := by
  have hsecond : HeadCalled (BlockHistory.new 2) ⟨lineClient, ⟨2, 1, 2⟩⟩ secondHistory :=
    ⟨1, .ok (true, 0), rfl⟩
  have hthird : HeadCalled secondHistory ⟨lineClient, ⟨3, 2, 3⟩⟩ thirdHistory :=
    ⟨1, .ok (true, 0), rfl⟩
  have hnear : HeadNear lineTree (BlockHistory.new 2 : BlockHistory Unit Header) ⟨2, 1, 2⟩ :=
    .first (by decide) nofun
  have hnear' : HeadNear lineTree secondHistory ⟨3, 2, 3⟩ := by
    refine .first (by decide) fun minBlock hmin => ?_
    obtain rfl : 2 = minBlock := Option.some.inj hmin
    decide
  exact (Relation.ReflTransGen.single ⟨_, ⟨callOf_lineClient (by decide), hnear⟩, hsecond⟩).tail
    ⟨_, ⟨callOf_lineClient (by decide), hnear'⟩, hthird⟩

/-- The next block of the chain is near: its parent is canonical. -/
theorem fourth_in_window :
    headRequests 2 lineClient thirdHistory ⟨4, 3, 4⟩ ≤ 2 ∧
      ∃ history', HeadCalled thirdHistory ⟨lineClient, ⟨4, 3, 4⟩⟩ history' ∧
        ∀ h entry, history'.blockEntries.lookup h = some entry →
          history'.latestBlockNumber < entry.number + 2 := by
  have hmem : (⟨3, 2, 3⟩ : Header) ∈ lineHeaders := by decide
  have hparent : lineTree.Ancestor ⟨3, 2, 3⟩ ⟨4, 3, 4⟩ := .single ⟨hmem, rfl⟩
  have hnear : HeadNear lineTree thirdHistory ⟨4, 3, 4⟩ :=
    .meets (by decide) (by decide) hparent (by decide) rfl
  obtain ⟨hrequests, hwithin⟩ := history_bounded_of_run lineTree (by decide) thirdHistory_reached
    (callOf_lineClient (by decide)) hnear
  exact ⟨hrequests 2, _, ⟨1, .ok (true, 0), rfl⟩, hwithin _ ⟨1, .ok (true, 0), rfl⟩⟩

/-- **A jump of the head.**  From block two to block six a history of depth two asks for five
blocks, and in the end it has all of them. -/
theorem jump_fetches_gap :
    HeadCalled (BlockHistory.new 2) ⟨lineClient, ⟨2, 1, 2⟩⟩ secondHistory ∧
      CallOf lineTree ⟨lineClient, ⟨2, 1, 2⟩⟩ ∧ CallOf lineTree ⟨lineClient, ⟨6, 5, 6⟩⟩ ∧
      headRequests 6 lineClient secondHistory ⟨6, 5, 6⟩ = 5 ∧
      ∃ history', HeadCalled secondHistory ⟨lineClient, ⟨6, 5, 6⟩⟩ history' ∧
        history'.latestBlockNumber = 6 ∧
        ∃ entry, history'.blockEntries.lookup 2 = some entry ∧ entry.number = 2 := by
  refine ⟨⟨1, .ok (true, 0), rfl⟩, callOf_lineClient (by decide), callOf_lineClient (by decide),
    rfl, _, ⟨6, .ok (true, 4), rfl⟩, rfl, ?_⟩
  exact ⟨⟨⟨2, 1, 2⟩, some ⟨2, 1, 2⟩, some [], some []⟩, rfl, rfl⟩

end Kabu
