import Kabu.Entities.BlockHistory

/-!
# Pools

A pool is known to the node by the answers it gives: its id, its class, its tokens, the
directions it swaps in, and the state that has to be loaded before it can be priced.  The source
has a trait for this with an implementation for each protocol.  `Pool` is the record of those
answers that the market and the loaders ask for.  What a pool quotes and how a swap in it is encoded
are described where they are used.

Two pools are the same to the source when their ids are.
-/

namespace Kabu

/-- A pool is identified by its contract, or by an id inside a shared contract. -/
inductive PoolId
  | address (address : Address)
  | b256 (id : B256)
  deriving DecidableEq, Repr

def PoolId.addressOrZero : PoolId → Address
  | .address a => a
  | .b256 _ => 0

inductive PoolClass
  | unknown
  | uniswapV2
  | uniswapV3
  | uniswapV4
  | maverick
  | maverickV2
  | pancakeV3
  | curve
  | lidoStEth
  | lidoWstEth
  | rocketPool
  | balancerV1
  | balancerV2
  | custom (id : ℕ)
  deriving DecidableEq, Repr

/-- A swap from one token to another. -/
structure SwapDirection where
  tokenFrom : Address
  tokenTo : Address
  deriving DecidableEq, Repr

/-- What has to be loaded for a pool: the state some calls touch, some slots, and some slots
that are taken to be zero. -/
structure RequiredState where
  calls : List (Address × Bytes)
  slots : List (Address × U256)
  emptySlots : List (Address × U256)

structure Pool where
  getClass : PoolClass
  getAddress : PoolId
  getPoolId : PoolId
  getTokens : List Address
  getSwapDirections : List SwapDirection
  getReadOnlyCellVec : List U256
  getStateRequired : Except Report RequiredState

end Kabu
