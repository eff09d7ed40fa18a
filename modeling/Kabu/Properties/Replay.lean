import Kabu.Entities.BlockHistoryState
import Kabu.Entities.ParentState

/-!
# Replaying blocks whose update has not arrived

The state of a block's parent should be the stored database of the nearest ancestor that has
one, with the updates of all the blocks in between, each of which must be there.  The replay
does not look: an entry of which only the header has arrived is passed over by `applyUpdate`, and
the unchanged database is stored as the block's own.

`getParentState_complete_iff` says exactly when the answer is right: when no block of the path is
without its update.
-/

namespace Kabu

open BlockHistoryManager BlockHistory

variable {S Block : Type*} [BlockHistoryState S Block]

/-- The database is the state of the block: the updates of the blocks down to it, all of which
have arrived, on the nearest stored database. -/
def IsParentState (history : BlockHistory S Block) (config : MarketStateConfig) (p : BlockHash)
    (db : S) : Prop :=
  ∃ path base, ReplayPath history p path base ∧
    db = path.foldl (fun db entry => BlockHistoryState.applyUpdate db entry config) base ∧
    ∀ entry ∈ path, entry.stateUpdate ≠ none

/-- **Replay.**  `getParentState` returns nothing but the state of the block exactly when every
block it replays has its update. -/
theorem getParentState_complete_iff (history : BlockHistory S Block) (config : MarketStateConfig)
    (p : BlockHash) :
    (∀ fuel db history', getParentState fuel history config p = .ok (.ok db, history') →
      IsParentState history config p db) ↔
      ∀ path base, ReplayPath history p path base → ∀ entry ∈ path, entry.stateUpdate ≠ none := by
  constructor
  · intro hall path base hpath
    obtain ⟨fuel, hget⟩ := exists_fuel_getParentState config hpath
    obtain ⟨path', base', hpath', -, hupdates⟩ := hall fuel _ _ hget
    obtain ⟨rfl, -⟩ := hpath.unique hpath'
    exact hupdates
  · intro hupdates fuel db history' hget
    obtain ⟨path, base, hpath, hfold⟩ := getParentState_ok hget
    refine ⟨path, base, hpath, ?_, hupdates path base hpath⟩
    rw [← replayStep_foldl_fst config path (base, history), hfold]

/-! ### A header on its own -/

def oneSlotDb (value : U256) : KabuDB := KabuDB.new.insertAccountStorage 1 0 value

/-- A block whose database is stored, and its child, of which only the header has arrived. -/
def headerOnlyHistory : BlockHistory KabuDB Unit :=
  ((((BlockHistory.new 10).addBlockHeader ⟨1, 0, 1⟩).2.addDb 1 (oneSlotDb 7)).addBlockHeader
    ⟨2, 1, 2⟩).2

/-- The child's update is not there, and the replay stores the parent's database as the
child's. -/
theorem headerOnly_skipped :
    ∃ db history', getParentState 2 headerOnlyHistory default 2 = .ok (.ok db, history') ∧
      history'.getBlockState 2 = some (oneSlotDb 7) ∧
      ¬ IsParentState headerOnlyHistory default 2 db := by
  refine ⟨_, _, rfl, rfl, ?_⟩
  rintro ⟨path, base, hpath, -, hupdates⟩
  have hparent : ReplayPath headerOnlyHistory 1 [] (oneSlotDb 7) :=
    @ReplayPath.stored _ _ _ 1 (.ofHeader ⟨1, 0, 1⟩) _ rfl rfl
  have hchild : ReplayPath headerOnlyHistory 2 [.ofHeader ⟨2, 1, 2⟩] (oneSlotDb 7) :=
    @ReplayPath.missed _ _ _ 2 (.ofHeader ⟨2, 1, 2⟩) [] _ rfl rfl hparent
  obtain ⟨rfl, -⟩ := hchild.unique hpath
  exact hupdates _ (List.mem_singleton_self _) rfl

end Kabu
