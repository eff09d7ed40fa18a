import Kabu.Entities.AccountNonceBalance
import Kabu.Entities.BlockHistory
import Kabu.Framework.Wire

/-!
# The account monitor

The monitor keeps the nonces and the balances of the node's accounts up to date, in two ways.  It
reads them off the blocks and the logs that come in, and from time to time it asks the provider.

The second is done by a task of its own.  It asks for the transaction count of an account without a
lock, and when the answer is there, it writes it.  `MonitorState` is the system of the chain, the
monitor and the task, and `MonitorState.step` is what can happen in it.  The chain only grows, and
the nonces of an account's transactions on it are 0, 1, 2 and so on.

The router takes the nonce of a transaction from what is kept (`composeNonce`).
-/

namespace Kabu

/-- The part of a transaction that the monitor looks at. -/
structure MonitoredTx where
  sender : Address
  nonce : UInt64
  deriving DecidableEq, Repr

namespace AccountMonitor

/-! ## What comes in -/

/-- One transaction of a block. -/
def updateNonce (state : AccountNonceAndBalanceState) (tx : MonitoredTx) :
    AccountNonceAndBalanceState :=
  if state.isMonitored tx.sender then
    state.modifyAccount tx.sender fun data =>
      if data.nonce ≤ tx.nonce then data.setNonce (tx.nonce + 1) else data
  else state

def updateNoncesFromBlock (state : AccountNonceAndBalanceState) (txs : List MonitoredTx) :
    AccountNonceAndBalanceState :=
  txs.foldl updateNonce state

section Logs

variable [Keccak]

def transferSignature : B256 :=
  keccak256 "Transfer(address,address,uint256)".toUTF8.toList

structure Transfer where
  token : Address
  sender : Address
  receiver : Address
  amount : U256
  deriving DecidableEq, Repr

/-- The transfer of a log.  The addresses are the low bytes of the topics, and what is not 32 bytes
long is no amount. -/
def decodeTransfer (log : Log) : Option Transfer :=
  match log.topics with
  | signature :: sender :: receiver :: _ =>
      if signature = transferSignature ∧ log.data.length = 32 then
        some ⟨log.address, sender.setWidth 160, receiver.setWidth 160,
          BitVec.ofNat 256 (Wire.fromBe log.data)⟩
      else none
  | _ => none

def applyTransfer (state : AccountNonceAndBalanceState) (transfer : Transfer) :
    AccountNonceAndBalanceState :=
  let state := if state.isMonitored transfer.sender then
      state.modifyAccount transfer.sender fun data =>
        data.subBalance transfer.token transfer.amount
    else state
  if state.isMonitored transfer.receiver then
    state.modifyAccount transfer.receiver fun data =>
      data.addBalance transfer.token transfer.amount
  else state

def updateBalancesFromLogs (state : AccountNonceAndBalanceState) (logs : List Log) :
    AccountNonceAndBalanceState :=
  logs.foldl (fun state log =>
    match decodeTransfer log with
    | some transfer => applyTransfer state transfer
    | none => state) state

end Logs

/-! ## What is asked for -/

/-- The first answers.  An account for which a request fails keeps what it has. -/
def initializeAccount (getTransactionCount : Address → Except Report UInt64)
    (getBalance : Address → Except Report U256) (state : AccountNonceAndBalanceState)
    (account : Address) : AccountNonceAndBalanceState :=
  let state := state.addAccount account
  let state := match getTransactionCount account with
    | .ok nonce => state.modifyAccount account fun data => data.setNonce nonce
    | .error _ => state
  match getBalance account with
  | .ok balance => state.modifyAccount account fun data => data.setBalance 0 balance
  | .error _ => state

def initializeAccounts (getTransactionCount : Address → Except Report UInt64)
    (getBalance : Address → Except Report U256) (accounts : List Address) :
    AccountNonceAndBalanceState :=
  accounts.foldl (initializeAccount getTransactionCount getBalance) .new

/-- The task has an answer for the nonce of an account. -/
def refreshNonce (state : AccountNonceAndBalanceState) (account : Address) (nonce : UInt64) :
    AccountNonceAndBalanceState :=
  state.modifyAccount account fun data =>
    if nonce ≠ data.nonce then data.setNonce nonce else data

/-- The task has an answer for the balance of an account. -/
def refreshBalance (state : AccountNonceAndBalanceState) (account : Address) (balance : U256) :
    AccountNonceAndBalanceState :=
  state.modifyAccount account fun data =>
    if balance ≠ data.getEthBalance then data.setBalance 0 balance else data

/-- The nonce that the router gives to a transaction.  It panics for an account that is not
monitored. -/
def composeNonce (state : AccountNonceAndBalanceState) (signer : Address) : Option UInt64 :=
  (state.getAccount signer).map AccountNonceAndBalances.nonce

/-! ## The system -/

def txCount (txs : List MonitoredTx) (account : Address) : ℕ :=
  txs.countP fun tx => decide (tx.sender = account)

/-- The transactions can follow the ones before them.  The largest nonce is not used. -/
def validAfter (past : List MonitoredTx) : List MonitoredTx → Bool
  | [] => true
  | tx :: txs => decide (tx.nonce.toNat = txCount past tx.sender ∧ tx.nonce.toNat + 1 < 2 ^ 64) &&
      validAfter (past ++ [tx]) txs

structure MonitorState where
  chain : List (List MonitoredTx)
  /-- the number of the first block that has not come in -/
  nextBlock : ℕ
  /-- the transactions of the blocks that have been processed -/
  processed : List MonitoredTx
  /-- an answer of the provider that has not been written yet -/
  fetched : Option (Address × UInt64)
  state : AccountNonceAndBalanceState

inductive MonitorEvent
  | mine (block : List MonitoredTx)
  | handleBlock (number : ℕ)
  | handleLogs (logs : List Log)
  | fetchNonce (account : Address)
  | storeNonce
  | storeBalance (account : Address) (balance : U256)
  deriving DecidableEq, Repr

namespace MonitorState

variable [Keccak]

/-- The provider's answer is the true one at the time of the request.  Blocks come in in order, but
some may be missed.  An event that cannot happen changes nothing. -/
def step (s : MonitorState) : MonitorEvent → MonitorState
  | .mine block =>
      if validAfter s.chain.flatten block then { s with chain := s.chain ++ [block] } else s
  | .handleBlock number =>
      match s.chain[number]? with
      | some block =>
          if s.nextBlock ≤ number then
            { s with
              nextBlock := number + 1
              processed := s.processed ++ block
              state := updateNoncesFromBlock s.state block }
          else s
      | none => s
  | .handleLogs logs => { s with state := updateBalancesFromLogs s.state logs }
  | .fetchNonce account =>
      match s.fetched with
      | some _ => s
      | none => { s with
          fetched := some (account, UInt64.ofNat (txCount s.chain.flatten account)) }
  | .storeNonce =>
      match s.fetched with
      | some (account, nonce) =>
          { s with fetched := none, state := refreshNonce s.state account nonce }
      | none => s
  | .storeBalance account balance => { s with state := refreshBalance s.state account balance }

/-- The monitor has asked for the accounts, and no block has come in. -/
def start (chain : List (List MonitoredTx)) (nextBlock : ℕ) (accounts : List Address)
    (fails : Address → Bool) (getBalance : Address → Except Report U256) : MonitorState where
  chain := chain
  nextBlock := nextBlock
  processed := []
  fetched := none
  state := initializeAccounts (fun account =>
    if fails account then .error "TRANSPORT_ERROR"
    else .ok (UInt64.ofNat (txCount chain.flatten account))) getBalance accounts

end MonitorState

end AccountMonitor

end Kabu
