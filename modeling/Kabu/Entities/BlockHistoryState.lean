import Kabu.Entities.BlockHistory
import Kabu.Evm.Tracked

/-!
# How the database takes the update of a block

The market's database holds a part of the chain state, and the update of a block changes that
part alone.  A balance or a nonce is written if the account is in the writable or the read-only
layer, a slot if it is there; anything else is not tracked, and is left to the external layer.
The accounts that the configuration forces are the exception, and their slots are written always.
An entry whose update has not arrived changes nothing.

So a slot that is held has after an update the value the update leaves in it
(`Holds.applyUpdate`), and a database that tracks nothing is left alone
(`applyUpdate_of_untracked`).
-/

namespace Kabu

namespace KabuDB

/-- Change the info of an account that is tracked, and of no other. -/
def updateTrackedInfo (db : KabuDB) (address : Address) (change : AccountInfo → AccountInfo) :
    KabuDB :=
  if db.isRwRoAccount address then
    let loaded := db.loadRoRwAccount address
    loaded.1.setAccount address { loaded.2 with info := change loaded.2.info }
  else db

/-- Write a slot that is tracked, or whose account is forced. -/
def updateTrackedSlot (config : MarketStateConfig) (address : Address) (db : KabuDB)
    (slot value : U256) : KabuDB :=
  if config.isForceInsert address then db.insertAccountStorage address slot value
  else if db.isRwRoSlot address slot then db.insertAccountStorage address slot value
  else db

/-- The body of the loop over the accounts of a diff. -/
def updateAccount (config : MarketStateConfig) (db : KabuDB) (address : Address)
    (accountState : GethAccountState) : KabuDB :=
  let db := match accountState.balance with
    | some balance => db.updateTrackedInfo address fun info => { info with balance := balance }
    | none => db
  let db := match accountState.nonce with
    | some nonce => db.updateTrackedInfo address fun info => { info with nonce := nonce }
    | none => db
  accountState.storage.foldl (updateTrackedSlot config address) db

def applyDiff (config : MarketStateConfig) (db : KabuDB) (stateDiff : GethStateUpdate) : KabuDB :=
  stateDiff.foldl (updateAccount config) db

def applyUpdate {Block : Type*} (db : KabuDB) (entry : BlockHistoryEntry Block)
    (config : MarketStateConfig) : KabuDB :=
  match entry.stateUpdate with
  | some stateUpdate => stateUpdate.foldl (applyDiff config) db
  | none => db

lemma applyUpdate_congr {Block : Type*} (db : KabuDB) {entry entry' : BlockHistoryEntry Block}
    (h : entry.stateUpdate = entry'.stateUpdate) (config : MarketStateConfig) :
    db.applyUpdate entry config = db.applyUpdate entry' config := by
  rw [applyUpdate, applyUpdate, h]

/-! ## Slots that are held -/

section Held

variable {config : MarketStateConfig} {db : KabuDB} {a b : Address} {s t v x : U256}

variable (h : Holds db a s v)

include h

lemma Holds.updateTrackedInfo (b : Address) (change : AccountInfo → AccountInfo) :
    Holds (db.updateTrackedInfo b change) a s v := by
  unfold KabuDB.updateTrackedInfo
  split
  · have hset : Holds (db.setAccount b { (db.loadRoRwAccount b).2 with
        info := change (db.loadRoRwAccount b).2.info }) a s v := by
      refine h.setAccount (fun hab => ?_) (fun _ => rfl)
      subst hab
      exact h.loadRoRwAccount
    refine hset.congr ?_ (loadRoRwAccount_readOnlyDb db b)
    rw [setAccount_lookup, setAccount_lookup]
    by_cases hab : a = b
    · rw [if_pos hab, if_pos hab]
    · rw [if_neg hab, if_neg hab, loadRoRwAccount_lookup_ne db hab]
  · exact h

lemma Holds.updateTrackedSlot_same (x : U256) :
    Holds (db.updateTrackedSlot config a s x) a s x := by
  have hwritten := h.insertAccountStorage a s x
  rw [if_pos ⟨rfl, rfl⟩] at hwritten
  unfold KabuDB.updateTrackedSlot
  rw [h.isRwRoSlot_eq, if_pos rfl, ite_self]
  exact hwritten

lemma Holds.updateTrackedSlot_other (hne : ¬ (a = b ∧ s = t)) :
    Holds (db.updateTrackedSlot config b t x) a s v := by
  have hwritten := h.insertAccountStorage b t x
  rw [if_neg hne] at hwritten
  unfold KabuDB.updateTrackedSlot
  split
  · exact hwritten
  · split
    · exact hwritten
    · exact h

lemma Holds.updateInfos (b : Address) (accountState : GethAccountState) :
    let db := match accountState.balance with
      | some balance => db.updateTrackedInfo b fun info => { info with balance := balance }
      | none => db
    Holds (match accountState.nonce with
      | some nonce => db.updateTrackedInfo b fun info => { info with nonce := nonce }
      | none => db) a s v := by
  cases accountState.balance <;> cases accountState.nonce
  · exact h
  · exact h.updateTrackedInfo b _
  · exact h.updateTrackedInfo b _
  · exact (h.updateTrackedInfo b _).updateTrackedInfo b _

lemma Holds.updateAccount_same (accountState : GethAccountState) :
    Holds (db.updateAccount config a accountState) a s
      ((accountState.storage.lookup s).getD v) := by
  have hslots := AssocMap.foldl_at (KabuDB.updateTrackedSlot config a) s (fun x _ => x)
    (P := fun v db => Holds db a s v) (fun db x v h => h.updateTrackedSlot_same x)
    (fun db t x v hts h => h.updateTrackedSlot_other fun hboth => hts hboth.2.symm)
    accountState.storage (h.updateInfos a accountState)
  have hvalue : AssocMap.applyAt (fun x _ => x) (accountState.storage.lookup s) v =
      (accountState.storage.lookup s).getD v := by
    cases accountState.storage.lookup s <;> rfl
  rw [hvalue] at hslots
  exact hslots

lemma Holds.updateAccount_other (hab : b ≠ a) (accountState : GethAccountState) :
    Holds (db.updateAccount config b accountState) a s v :=
  AssocMap.foldl_invariant (KabuDB.updateTrackedSlot config b) (P := fun db => Holds db a s v)
    (fun _ _ _ h => h.updateTrackedSlot_other fun hboth => hab hboth.1.symm) accountState.storage
    (h.updateInfos b accountState)

lemma Holds.applyDiff (diff : GethStateUpdate) :
    Holds (db.applyDiff config diff) a s ((slotWrite a s diff).getD v) := by
  have haccounts := AssocMap.foldl_at (KabuDB.updateAccount config) a
    (fun accountState v => (accountState.storage.lookup s).getD v)
    (P := fun v db => Holds db a s v) (fun _ accountState _ h => h.updateAccount_same accountState)
    (fun _ _ accountState _ hab h => h.updateAccount_other hab accountState) diff h
  have hvalue : AssocMap.applyAt (fun (accountState : GethAccountState) v =>
      (accountState.storage.lookup s).getD v) (diff.lookup a) v = (slotWrite a s diff).getD v := by
    unfold slotWrite
    cases diff.lookup a <;> rfl
  rw [hvalue] at haccounts
  exact haccounts

/-- **Updates reach the slots that are held.**  After the update of a block, a slot that is held
has the last value the update writes, or its old one. -/
lemma Holds.applyUpdate {Block : Type*} {entry : BlockHistoryEntry Block}
    {stateUpdate : GethStateUpdateVec} (hentry : entry.stateUpdate = some stateUpdate) :
    Holds (db.applyUpdate entry config) a s
      ((LastWrite.lastWrite (slotWrite a s) stateUpdate).getD v) := by
  rw [KabuDB.applyUpdate, hentry]
  exact LastWrite.foldl_holds (KabuDB.applyDiff config) (slotWrite a s)
    (P := fun v db => Holds db a s v) (fun _ diff _ h => h.applyDiff diff) h stateUpdate

end Held

/-! ## Databases that track nothing -/

section Untracked

variable {config : MarketStateConfig} {db : KabuDB}

lemma isRwRoSlot_of_untracked {a : Address} (h : db.isRwRoAccount a = false) (s : U256) :
    db.isRwRoSlot a s = false := by
  obtain ⟨hrw, hro⟩ := Bool.or_eq_false_iff.mp h
  rw [Option.isSome_eq_false_iff, Option.isNone_iff_eq_none] at hrw
  unfold isRwRoSlot
  rw [hrw]
  simp only [Bool.false_eq_true, if_false]
  split
  · rename_i ro hsome
    rw [hsome] at hro
    simp only [Option.isSome_eq_false_iff, Option.isNone_iff_eq_none] at hro
    rw [hro]
  · rfl

/-- A database that tracks no account is left alone by every update, if no account is forced. -/
lemma applyUpdate_of_untracked {Block : Type*} (hconfig : ∀ a, config.isForceInsert a = false)
    (hdb : ∀ a, db.isRwRoAccount a = false) (entry : BlockHistoryEntry Block) :
    db.applyUpdate entry config = db := by
  have hinfo : ∀ a change, db.updateTrackedInfo a change = db := by
    intro a change
    rw [updateTrackedInfo, hdb a]
    rfl
  have hslot : ∀ a s v, db.updateTrackedSlot config a s v = db := by
    intro a s v
    rw [updateTrackedSlot, hconfig a, isRwRoSlot_of_untracked (hdb a) s]
    rfl
  have haccount : ∀ a accountState, db.updateAccount config a accountState = db := by
    intro a accountState
    unfold updateAccount
    cases accountState.balance <;> cases accountState.nonce <;> simp only [hinfo] <;>
      exact AssocMap.foldl_fixed _ (hslot a) accountState.storage
  have hdiff : ∀ diff, db.applyDiff config diff = db := fun diff =>
    AssocMap.foldl_fixed _ haccount diff
  unfold applyUpdate
  split
  · exact List.foldl_fixed' hdiff _
  · rfl

end Untracked

end KabuDB

instance {Block : Type*} : BlockHistoryState KabuDB Block := ⟨KabuDB.applyUpdate⟩

end Kabu
