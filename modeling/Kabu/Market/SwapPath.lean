import Kabu.Framework.KeyedSet
import Kabu.Market.Pool

/-!
# Tokens and swap paths

A swap path is a list of tokens with the pools between them.  The source compares tokens by
address, pools by id and paths by their tokens and pools, so the data that decides whether two
paths are equal is `SwapPath.key`; what is disabled of a path does not count.  A set of paths is
a `KeyedSet` for that key.

A hop is added at either end of a path, if it is connected to it.
-/

namespace Kabu

/-- A token.  The source has a flag for the wrapped native token that none of its constructors
sets and nothing changes. -/
structure Token where
  address : Address
  weth : Bool
  basic : Bool
  weth_eq : weth = false

namespace Token

def newWithData (address : Address) (basic : Bool) : Token := ⟨address, false, basic, rfl⟩

def new (address : Address) : Token := newWithData address false

def zero : Token := newWithData 0 false

end Token

structure SwapPath where
  tokens : List Token
  pools : List Pool
  disabled : Bool
  disabledPool : List PoolId

namespace SwapPath

/-- What the source compares paths by. -/
def key (path : SwapPath) : List Address × List PoolId :=
  (path.tokens.map Token.address, path.pools.map Pool.getPoolId)

def isEmpty (path : SwapPath) : Bool := path.tokens.isEmpty && path.pools.isEmpty

def newSwap (tokenFrom tokenTo : Token) (pool : Pool) : SwapPath :=
  ⟨[tokenFrom, tokenTo], [pool], false, []⟩

/-- Add a hop at the end. -/
def pushSwapHope (path : SwapPath) (tokenFrom tokenTo : Token) (pool : Pool) :
    Except Report SwapPath :=
  if path.isEmpty then .ok { path with tokens := [tokenFrom, tokenTo], pools := [pool] }
  else if tokenFrom.address ≠ (path.tokens.getLast?.getD Token.zero).address then
    .error "NEW_SWAP_NOT_CONNECTED"
  else .ok { path with tokens := path.tokens ++ [tokenTo], pools := path.pools ++ [pool] }

/-- Add a hop at the start. -/
def insertSwapHope (path : SwapPath) (tokenFrom tokenTo : Token) (pool : Pool) :
    Except Report SwapPath :=
  if path.isEmpty then .ok { path with tokens := [tokenFrom, tokenTo], pools := [pool] }
  else if tokenTo.address ≠ (path.tokens.head?.getD Token.zero).address then
    .error "NEW_SWAP_NOT_CONNECTED"
  else .ok { path with tokens := tokenFrom :: path.tokens, pools := pool :: path.pools }

def containsPool (path : SwapPath) (pool : Pool) : Bool :=
  path.pools.any fun p => decide (p.getPoolId = pool.getPoolId)

/-- The hops of a path: its pools, each with the tokens it stands between. -/
def hops (path : SwapPath) : List (Pool × SwapDirection) :=
  path.pools.zip (path.tokens.zipWith (fun a b => ⟨a.address, b.address⟩) path.tokens.tail)

/-! ## Connected hops -/

lemma pushSwapHope_of_last {path : SwapPath} {tokens : List Token} {token : Token}
    (h : path.tokens = tokens ++ [token]) (tokenTo : Token) (pool : Pool) :
    path.pushSwapHope token tokenTo pool =
      .ok { path with tokens := path.tokens ++ [tokenTo], pools := path.pools ++ [pool] } := by
  have hfull : path.isEmpty = false := by
    unfold isEmpty
    rw [h]
    simp
  unfold pushSwapHope
  rw [hfull, h, List.getLast?_concat]
  simp

lemma insertSwapHope_of_head {path : SwapPath} {tokens : List Token} {token : Token}
    (h : path.tokens = token :: tokens) (tokenFrom : Token) (pool : Pool) :
    path.insertSwapHope tokenFrom token pool =
      .ok { path with tokens := tokenFrom :: path.tokens, pools := pool :: path.pools } := by
  have hfull : path.isEmpty = false := by
    unfold isEmpty
    rw [h]
    simp
  unfold insertSwapHope
  rw [hfull, h, List.head?_cons]
  simp

lemma containsPool_eq_false_iff (path : SwapPath) (pool : Pool) :
    path.containsPool pool = false ↔ ∀ p ∈ path.pools, p.getPoolId ≠ pool.getPoolId := by
  unfold containsPool
  rw [List.any_eq_false]
  simp

end SwapPath

end Kabu
