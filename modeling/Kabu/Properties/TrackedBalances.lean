import Kabu.Broadcast.AccountMonitor
import Kabu.Framework.Accounting

/-!
# Tracked balances stay within the true ones

The monitor follows the balances of its accounts by the transfers in the logs.  It may know of less
than an account has, since it has not seen where the account's tokens have come from.  So a transfer
may be more than what is tracked, and then the monitor takes nothing off.

Seen from one account and one token, transfers are movements of a balance, and what the monitor does
is to track it with checked arithmetic.  `tracked_within_iff` follows from the accounting of that:
what is tracked stays within the true balance exactly if what was not taken off is made up for by
the tokens that the monitor did not know of.
-/

namespace Kabu

open Accounting

namespace AccountMonitor

/-! ## The true balances -/

/-- The balance of each account, for each token. -/
abbrev Ledger := Address → Address → ℕ

def Ledger.settle (ledger : Ledger) (transfer : Transfer) : Ledger := fun token account =>
  let left := if account = transfer.sender ∧ token = transfer.token
    then ledger token account - transfer.amount.toNat else ledger token account
  if account = transfer.receiver ∧ token = transfer.token
    then left + transfer.amount.toNat else left

/-- Each sender owns what it sends. -/
def Ledger.Valid : Ledger → List Transfer → Prop
  | _, [] => True
  | ledger, transfer :: transfers =>
      transfer.amount.toNat ≤ ledger transfer.token transfer.sender ∧
        (ledger.settle transfer).Valid transfers

/-- What a transfer is to an account. -/
def movementsOf (account token : Address) (transfer : Transfer) : List Movement :=
  (if account = transfer.sender ∧ token = transfer.token
    then [.sent transfer.amount.toNat] else []) ++
  (if account = transfer.receiver ∧ token = transfer.token
    then [.received transfer.amount.toNat] else [])

def movements (account token : Address) (transfers : List Transfer) : List Movement :=
  transfers.flatMap (movementsOf account token)

lemma foldl_side {p : Prop} [Decidable p] (f : ℕ → Movement → ℕ) (movement : Movement)
    (balance : ℕ) : (if p then [movement] else []).foldl f balance =
      if p then f balance movement else balance := by
  split <;> rfl

section Ledger

variable (account token : Address)

lemma settle_eq_foldl (ledger : Ledger) (transfer : Transfer) :
    ledger.settle transfer token account =
      (movementsOf account token transfer).foldl settle (ledger token account) := by
  unfold movementsOf
  rw [List.foldl_append, foldl_side, foldl_side]
  rfl

lemma settled_eq_foldl (ledger : Ledger) (transfers : List Transfer) :
    transfers.foldl Ledger.settle ledger token account =
      (movements account token transfers).foldl settle (ledger token account) := by
  unfold movements
  induction transfers generalizing ledger with
  | nil => rfl
  | cons transfer transfers ih =>
      rw [List.foldl_cons, ih, List.flatMap_cons, List.foldl_append, settle_eq_foldl]

lemma owned_of_valid {ledger : Ledger} {transfers : List Transfer} (h : ledger.Valid transfers) :
    Owned (ledger token account) (movements account token transfers) := by
  unfold movements
  induction transfers generalizing ledger with
  | nil => trivial
  | cons transfer transfers ih =>
      obtain ⟨howns, hrest⟩ := h
      rw [List.flatMap_cons, owned_append, ← settle_eq_foldl]
      refine ⟨?_, ih hrest⟩
      refine owned_append.mpr ⟨?_, ?_⟩
      · by_cases hsender : account = transfer.sender ∧ token = transfer.token
        · rw [if_pos hsender, hsender.1, hsender.2]
          refine ⟨fun amount hamount => ?_, trivial⟩
          cases Movement.sent.inj hamount
          exact howns
        · rw [if_neg hsender]
          trivial
      · by_cases hreceiver : account = transfer.receiver ∧ token = transfer.token
        · rw [if_pos hreceiver]
          exact ⟨fun amount hamount => absurd hamount (by simp), trivial⟩
        · rw [if_neg hreceiver]
          trivial

end Ledger

/-! ## What is tracked -/

def trackedAt (state : AccountNonceAndBalanceState) (account token : Address) : Option ℕ :=
  (state.getAccount account).map fun data => (data.getBalance token).toNat

lemma getBalance_subBalance (data : AccountNonceAndBalances) (token token' : Address)
    (amount : U256) : ((data.subBalance token amount).getBalance token').toNat =
      if token' = token then track (2 ^ 256) (data.getBalance token').toNat (.sent amount.toNat)
      else (data.getBalance token').toNat := by
  unfold AccountNonceAndBalances.subBalance AccountNonceAndBalances.getBalance
  rw [AssocMap.lookup_upsert]
  by_cases htoken : token' = token
  · subst htoken
    rw [if_pos rfl, if_pos rfl, Option.getD_some]
    unfold U256.checkedSub
    by_cases hle : amount.toNat ≤ ((data.balance.lookup token').getD 0).toNat
    · rw [if_pos hle, Option.getD_some, track, if_pos hle]
      exact BitVec.toNat_sub_of_le (BitVec.le_def.mpr hle)
    · rw [if_neg hle, Option.getD_none, track, if_neg hle]
  · rw [if_neg htoken, if_neg htoken]

lemma getBalance_addBalance (data : AccountNonceAndBalances) (token token' : Address)
    (amount : U256) : ((data.addBalance token amount).getBalance token').toNat =
      if token' = token then track (2 ^ 256) (data.getBalance token').toNat (.received amount.toNat)
      else (data.getBalance token').toNat := by
  unfold AccountNonceAndBalances.addBalance AccountNonceAndBalances.getBalance
  rw [AssocMap.lookup_upsert]
  by_cases htoken : token' = token
  · subst htoken
    rw [if_pos rfl, if_pos rfl, Option.getD_some]
    unfold U256.checkedAdd
    by_cases hlt : ((data.balance.lookup token').getD 0).toNat + amount.toNat < 2 ^ 256
    · rw [if_pos hlt, Option.getD_some, track, if_pos hlt]
      exact BitVec.toNat_add_of_lt hlt
    · rw [if_neg hlt, Option.getD_none, track, if_neg hlt]
  · rw [if_neg htoken, if_neg htoken]

lemma trackedAt_side (state : AccountNonceAndBalanceState) (side : Address) {token' : Address}
    {write : AccountNonceAndBalances → AccountNonceAndBalances} {movement : Movement}
    (hwrite : ∀ data token, ((write data).getBalance token).toNat =
      if token = token' then track (2 ^ 256) (data.getBalance token).toNat movement
      else (data.getBalance token).toNat) (account token : Address) :
    trackedAt (if state.isMonitored side then state.modifyAccount side write else state) account
        token =
      (trackedAt state account token).map fun tracked =>
        (if account = side ∧ token = token' then [movement] else []).foldl (track (2 ^ 256))
          tracked := by
  unfold trackedAt
  simp only [foldl_side]
  by_cases hside : account = side
  · subst hside
    by_cases hmonitored : state.isMonitored account = true
    · rw [if_pos hmonitored, AccountNonceAndBalanceState.getAccount_modifyAccount, if_pos rfl,
        Option.map_map, Option.map_map]
      congr 1
      funext data
      simpa using hwrite data token
    · have hnone : state.getAccount account = none := Option.not_isSome_iff_eq_none.mp hmonitored
      rw [if_neg hmonitored, hnone]
      rfl
  · have hsame : (if state.isMonitored side then state.modifyAccount side write
        else state).getAccount account = state.getAccount account := by
      split
      · rw [AccountNonceAndBalanceState.getAccount_modifyAccount, if_neg hside]
      · rfl
    rw [hsame, Option.map_map]
    simp only [hside, false_and, if_false]
    rfl

/-- **One transfer.** -/
lemma trackedAt_applyTransfer (state : AccountNonceAndBalanceState) (transfer : Transfer)
    (account token : Address) : trackedAt (applyTransfer state transfer) account token =
      (trackedAt state account token).map fun tracked =>
        (movementsOf account token transfer).foldl (track (2 ^ 256)) tracked := by
  have hsub := trackedAt_side state transfer.sender
    (fun data token => getBalance_subBalance data transfer.token token transfer.amount)
    account token
  unfold applyTransfer
  rw [trackedAt_side _ transfer.receiver (fun data token =>
    getBalance_addBalance data transfer.token token transfer.amount) account token, hsub,
    Option.map_map]
  congr 1
  funext tracked
  unfold movementsOf
  rw [List.foldl_append]
  rfl

section Logs

variable [Keccak]

def transfersOf (logs : List Log) : List Transfer := logs.filterMap decodeTransfer

/-- **All logs.** -/
lemma trackedAt_updateBalancesFromLogs (state : AccountNonceAndBalanceState) (logs : List Log)
    (account token : Address) :
    trackedAt (updateBalancesFromLogs state logs) account token =
      (trackedAt state account token).map fun tracked =>
        (movements account token (transfersOf logs)).foldl (track (2 ^ 256)) tracked := by
  unfold updateBalancesFromLogs transfersOf movements
  induction logs generalizing state with
  | nil => exact Option.map_id'.symm
  | cons log logs ih =>
      rw [List.foldl_cons, ih, List.filterMap_cons]
      cases decodeTransfer log with
      | none => rfl
      | some transfer =>
          show Option.map _ (trackedAt (applyTransfer state transfer) account token) = _
          rw [trackedAt_applyTransfer, Option.map_map, List.flatMap_cons]
          congr 1
          funext tracked
          exact List.foldl_append.symm

/-- What is tracked is within the true balances. -/
def Within (state : AccountNonceAndBalanceState) (ledger : Ledger) : Prop :=
  ∀ account token tracked, trackedAt state account token = some tracked →
    tracked ≤ ledger token account

/-- What the accounts have sent beyond what was tracked of it is made up for by what was not
tracked in the first place, and by what they have received beyond the limit. -/
def MissesCovered (state : AccountNonceAndBalanceState) (ledger : Ledger)
    (transfers : List Transfer) : Prop :=
  ∀ account token tracked, trackedAt state account token = some tracked →
    missedOut (2 ^ 256) tracked (movements account token transfers) ≤
      ledger token account - tracked +
        missedIn (2 ^ 256) tracked (movements account token transfers)

/-- **Balances.** -/
theorem tracked_within_iff (state : AccountNonceAndBalanceState) (ledger : Ledger)
    (logs : List Log) (hstart : Within state ledger) (hvalid : ledger.Valid (transfersOf logs)) :
    Within (updateBalancesFromLogs state logs)
        ((transfersOf logs).foldl Ledger.settle ledger) ↔
      MissesCovered state ledger (transfersOf logs) := by
  refine forall_congr' fun account => forall_congr' fun token => ?_
  rw [trackedAt_updateBalancesFromLogs, settled_eq_foldl]
  have howned := owned_of_valid account token hvalid
  have hle := hstart account token
  cases htracked : trackedAt state account token with
  | none => simp
  | some tracked =>
      simp only [Option.map_some, Option.some.injEq, forall_eq']
      exact tracked_le_iff (hle tracked htracked) howned

end Logs

/-- A log of a transfer, where the signature is that of `constKeccak`. -/
def transferLog (token sender receiver : Address) (amount : ℕ) : Log :=
  ⟨token, [1, sender.setWidth 256, receiver.setWidth 256], Wire.toBe 32 amount⟩

/-- One account, of which a balance of one token is tracked. -/
def oneAccount (account token : Address) (balance : U256) : AccountNonceAndBalanceState :=
  (AccountNonceAndBalanceState.new.addAccount account).modifyAccount account fun data =>
    data.setBalance token balance

lemma trackedAt_oneAccount (account token : Address) (balance : U256) (a t : Address) :
    trackedAt (oneAccount account token balance) a t =
      if a = account then some (if t = token then balance.toNat else 0) else none := by
  unfold trackedAt oneAccount AccountNonceAndBalanceState.addAccount
  rw [AccountNonceAndBalanceState.getAccount_modifyAccount]
  unfold AccountNonceAndBalanceState.getAccount
  rw [AssocMap.lookup_upsert]
  by_cases ha : a = account
  · rw [if_pos ha, if_pos ha, if_pos ha]
    simp only [Option.map_some, AccountNonceAndBalances.setBalance,
      AccountNonceAndBalances.getBalance, AssocMap.lookup_upsert]
    by_cases ht : t = token
    · rw [if_pos ht, if_pos ht, Option.getD_some]
    · rw [if_neg ht, if_neg ht]
      rfl
  · rw [if_neg ha, if_neg ha, if_neg ha]
    rfl

/-- Of ten tokens six are tracked, and when eight are sent, nothing is taken off. -/
theorem missed_transfer_overstates :
    letI := constKeccak
    transfersOf [transferLog 5 7 8 8] = [⟨5, 7, 8, 8⟩] ∧
      trackedAt (oneAccount 7 5 6) 7 5 = some 6 ∧
      trackedAt (updateBalancesFromLogs (oneAccount 7 5 6) [transferLog 5 7 8 8]) 7 5 = some 6 ∧
      Ledger.settle (fun _ account => if account = 7 then 10 else 0) ⟨5, 7, 8, 8⟩ 5 7 = 2 := by
  decide +kernel

/-- Of twenty tokens six are tracked, so that a transfer of eight may be missed. -/
theorem missed_transfer_covered :
    letI := constKeccak
    Within (updateBalancesFromLogs (oneAccount 7 5 6) [transferLog 5 7 8 8])
      ((transfersOf [transferLog 5 7 8 8]).foldl Ledger.settle
        fun _ account => if account = 7 then 20 else 0) := by
  let _ := constKeccak
  have htransfers : transfersOf [transferLog 5 7 8 8] = [⟨5, 7, 8, 8⟩] := by decide +kernel
  refine (tracked_within_iff (oneAccount 7 5 6) (fun _ account => if account = 7 then 20 else 0)
    [transferLog 5 7 8 8] (fun account token tracked h => ?_) ?_).mpr
    fun account token tracked h => ?_
  · rw [trackedAt_oneAccount] at h
    split at h
    · rename_i haccount
      cases Option.some.inj h
      subst haccount
      show (if token = 5 then 6 else 0) ≤ 20
      split <;> decide
    · simp at h
  · rw [htransfers]
    exact ⟨by decide, trivial⟩
  · rw [htransfers]
    rw [trackedAt_oneAccount] at h
    split at h
    · rename_i haccount
      cases Option.some.inj h
      subst haccount
      by_cases htoken : token = 5
      · subst htoken
        decide
      · have hnone : movements 7 token [⟨5, 7, 8, 8⟩] = [] := by
          unfold movements movementsOf
          rw [List.flatMap_singleton, if_neg fun h => htoken h.2, if_neg fun h => htoken h.2]
          rfl
        rw [hnone]
        exact Nat.zero_le _
    · simp at h

end AccountMonitor

end Kabu
