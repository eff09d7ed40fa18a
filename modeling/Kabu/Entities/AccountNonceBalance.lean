import Mathlib.Algebra.Group.Nat.Defs
import Kabu.Evm.Account

/-!
# Nonces and balances of accounts

What the node keeps of its own accounts: the nonce of the next transaction, and a balance for each
token, with the native token under the address zero.  A balance that would wrap is left as it is.
-/

namespace Kabu

def U256.checkedAdd (x y : U256) : Option U256 :=
  if x.toNat + y.toNat < 2 ^ 256 then some (x + y) else none

def U256.checkedSub (x y : U256) : Option U256 :=
  if y.toNat ≤ x.toNat then some (x - y) else none

structure AccountNonceAndBalances where
  nonce : UInt64
  balance : AssocMap Address U256

namespace AccountNonceAndBalances

def new : AccountNonceAndBalances := ⟨0, ∅⟩

variable (self : AccountNonceAndBalances)

def setNonce (nonce : UInt64) : AccountNonceAndBalances := { self with nonce := nonce }

def setBalance (token : Address) (balance : U256) : AccountNonceAndBalances :=
  { self with balance := self.balance.upsert token 0 fun _ => balance }

def addBalance (token : Address) (balance : U256) : AccountNonceAndBalances :=
  { self with balance := self.balance.upsert token 0 fun entry =>
      (U256.checkedAdd entry balance).getD entry }

def subBalance (token : Address) (balance : U256) : AccountNonceAndBalances :=
  { self with balance := self.balance.upsert token 0 fun entry =>
      (U256.checkedSub entry balance).getD entry }

def getBalance (token : Address) : U256 := (self.balance.lookup token).getD 0

def getEthBalance : U256 := self.getBalance 0

end AccountNonceAndBalances

structure AccountNonceAndBalanceState where
  accounts : AssocMap Address AccountNonceAndBalances

namespace AccountNonceAndBalanceState

def new : AccountNonceAndBalanceState := ⟨∅⟩

variable (self : AccountNonceAndBalanceState)

def addAccount (account : Address) : AccountNonceAndBalanceState :=
  ⟨self.accounts.upsert account .new id⟩

def getAccount (account : Address) : Option AccountNonceAndBalances :=
  self.accounts.lookup account

/-- A write through the source's `get_mut_account`. -/
def modifyAccount (account : Address)
    (write : AccountNonceAndBalances → AccountNonceAndBalances) : AccountNonceAndBalanceState :=
  match self.accounts.lookup account with
  | some data => ⟨self.accounts.insert account (write data)⟩
  | none => self

def isMonitored (account : Address) : Bool := (self.accounts.lookup account).isSome

variable {self}

lemma getAccount_modifyAccount (account a : Address)
    (write : AccountNonceAndBalances → AccountNonceAndBalances) :
    (self.modifyAccount account write).getAccount a =
      if a = account then (self.getAccount a).map write else self.getAccount a := by
  unfold modifyAccount getAccount
  cases hdata : self.accounts.lookup account with
  | none =>
      by_cases ha : a = account
      · rw [if_pos ha, ha, hdata]
        rfl
      · rw [if_neg ha]
  | some data =>
      rw [AssocMap.lookup_insert_eq]
      by_cases ha : a = account
      · rw [if_pos ha, if_pos ha, ha, hdata]
        rfl
      · rw [if_neg ha, if_neg ha]

end AccountNonceAndBalanceState

end Kabu
