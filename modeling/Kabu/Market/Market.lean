import Kabu.Market.SwapPath

/-!
# The market

The market has the tokens and pools it was told of, and three indices of the directions its pools
swap in: the pools from one token to another, the tokens that can be swapped to from a token, and
the pools that swap from a token.  An index lists a pool once for each direction that the pool
gives, so entries can repeat.

`Market.Indexed` says that the indices list what the pools say.  It holds of the empty market, a
call keeps it (`Indexed.call`), and so it holds of every market that calls build (`indexed_run`).
-/

namespace Kabu

structure Market where
  pools : AssocMap PoolId Pool
  poolsDisabled : AssocMap PoolId Bool
  tokens : AssocMap Address Token
  tokenTokens : AssocMap Address (List Address)
  tokenTokenPools : AssocMap Address (AssocMap Address (List PoolId))
  tokenPools : AssocMap Address (List PoolId)

namespace Market

instance : Inhabited Market := ⟨⟨∅, ∅, ∅, ∅, ∅, ∅⟩⟩

def addToken (market : Market) (token : Token) : Market :=
  { market with tokens := market.tokens.insert token.address token }

def isBasicToken (market : Market) (address : Address) : Bool :=
  match market.tokens.lookup address with
  | some token => token.basic
  | none => false

def isWethToken (market : Market) (address : Address) : Bool :=
  match market.tokens.lookup address with
  | some token => token.weth
  | none => false

def getTokenOrDefault (market : Market) (address : Address) : Token :=
  (market.tokens.lookup address).getD (Token.new address)

/-- Enter one direction of a pool in the indices. -/
def addDirection (poolId : PoolId) (market : Market) (direction : SwapDirection) : Market :=
  { market with
    tokenTokenPools := market.tokenTokenPools.upsert direction.tokenFrom ∅
      (AssocMap.pushAt · direction.tokenTo poolId)
    tokenTokens := market.tokenTokens.pushAt direction.tokenFrom direction.tokenTo
    tokenPools := market.tokenPools.pushAt direction.tokenFrom poolId }

/-- A pool with a known id is refused. -/
def addPool (market : Market) (pool : Pool) : Except Report Market :=
  match market.pools.lookup pool.getPoolId with
  | some known => .error ("Pool already exists " ++ reprStr known.getPoolId)
  | none =>
      let market := pool.getSwapDirections.foldl (addDirection pool.getPoolId) market
      .ok { market with pools := market.pools.insert pool.getPoolId pool }

/-- The pool, unless its class is unknown. -/
def getPool (market : Market) (poolId : PoolId) : Option Pool :=
  (market.pools.lookup poolId).filter fun pool => decide (pool.getClass ≠ .unknown)

def isPoolDisabled (market : Market) (poolId : PoolId) : Bool :=
  match market.poolsDisabled.lookup poolId with
  | some disabled => disabled
  | none => false

def getTokenTokenPools (market : Market) (tokenFrom tokenTo : Address) : Option (List PoolId) :=
  (market.tokenTokenPools.lookup tokenFrom).bind fun pools => pools.lookup tokenTo

def getTokenTokens (market : Market) (tokenFrom : Address) : Option (List Address) :=
  market.tokenTokens.lookup tokenFrom

def getTokenPoolsLen (market : Market) (token : Address) : ℕ :=
  match market.tokenPools.lookup token with
  | some pools => pools.length
  | none => 0

/-! ## The calls that build a market -/

inductive Call
  | addToken (token : Token)
  | addPool (pool : Pool)

/-- A pool that is refused leaves the market as it is. -/
def call (market : Market) : Call → Market
  | .addToken token => market.addToken token
  | .addPool pool =>
      match market.addPool pool with
      | .ok market' => market'
      | .error _ => market

def run (calls : List Call) : Market := calls.foldl call default

/-! ## What the indices list -/

/-- The pool is one of the market's, and swaps in the direction. -/
def Swaps (market : Market) (pool : Pool) (tokenFrom tokenTo : Address) : Prop :=
  market.pools.lookup pool.getPoolId = some pool ∧ ⟨tokenFrom, tokenTo⟩ ∈ pool.getSwapDirections

/-- The pools that the index has from one token to another. -/
def pairPools (market : Market) (tokenFrom tokenTo : Address) : List PoolId :=
  (market.getTokenTokenPools tokenFrom tokenTo).getD []

/-- The tokens and the pools are found under their own addresses and ids, and the indices list
the directions of the pools. -/
structure Indexed (market : Market) : Prop where
  token_address : ∀ a token, market.tokens.lookup a = some token → token.address = a
  pool_id : ∀ id pool, market.pools.lookup id = some pool → pool.getPoolId = id
  no_disabled : ∀ id, market.isPoolDisabled id = false
  pairs : ∀ a b id, id ∈ market.pairPools a b ↔ ∃ pool, pool.getPoolId = id ∧ market.Swaps pool a b
  nexts : ∀ a b, b ∈ market.tokenTokens.listAt a ↔ ∃ pool, market.Swaps pool a b
  froms : ∀ a id, id ∈ market.tokenPools.listAt a ↔
    ∃ pool b, pool.getPoolId = id ∧ market.Swaps pool a b

section Directions

variable (id : PoolId) (market : Market)

lemma mem_pairPools_addDirection (d : SwapDirection) (a b : Address) (x : PoolId) :
    x ∈ (addDirection id market d).pairPools a b ↔
      x ∈ market.pairPools a b ∨ d = ⟨a, b⟩ ∧ x = id := by
  unfold pairPools getTokenTokenPools addDirection
  dsimp only
  rw [AssocMap.lookup_upsert]
  obtain ⟨tokenFrom, tokenTo⟩ := d
  by_cases ha : a = tokenFrom
  · rw [if_pos ha, ha, Option.bind_some]
    have hpush := AssocMap.mem_listAt_pushAt ((market.tokenTokenPools.lookup tokenFrom).getD ∅)
      tokenTo b id x
    have hinner : ((market.tokenTokenPools.lookup tokenFrom).getD ∅).listAt b =
        ((market.tokenTokenPools.lookup tokenFrom).bind fun pools => pools.lookup b).getD [] := by
      cases market.tokenTokenPools.lookup tokenFrom <;> rfl
    rw [hinner] at hpush
    refine hpush.trans (or_congr_right (and_congr_left' ?_))
    rw [SwapDirection.mk.injEq]
    constructor
    · rintro rfl
      exact ⟨rfl, rfl⟩
    · rintro ⟨-, rfl⟩
      rfl
  · rw [if_neg ha]
    have hne : (⟨tokenFrom, tokenTo⟩ : SwapDirection) ≠ ⟨a, b⟩ := fun h =>
      ha (SwapDirection.mk.inj h).1.symm
    simp [hne]

/-- The loop over the directions of a pool touches the three indices only, and enters each
direction. -/
lemma foldl_addDirection_fields (ds : List SwapDirection) :
    (ds.foldl (addDirection id) market).pools = market.pools ∧
      (ds.foldl (addDirection id) market).poolsDisabled = market.poolsDisabled ∧
      (ds.foldl (addDirection id) market).tokens = market.tokens := by
  induction ds generalizing market with
  | nil => exact ⟨rfl, rfl, rfl⟩
  | cons d ds ih => exact ih (addDirection id market d)

lemma mem_pairPools_foldl (ds : List SwapDirection) (a b : Address) (x : PoolId) :
    x ∈ (ds.foldl (addDirection id) market).pairPools a b ↔
      x ∈ market.pairPools a b ∨ ⟨a, b⟩ ∈ ds ∧ x = id := by
  induction ds generalizing market with
  | nil => simp
  | cons d ds ih =>
      rw [List.foldl_cons, ih, mem_pairPools_addDirection, List.mem_cons, or_assoc, ← or_and_right,
        eq_comm]

lemma mem_tokenTokens_foldl (ds : List SwapDirection) (a b : Address) :
    b ∈ (ds.foldl (addDirection id) market).tokenTokens.listAt a ↔
      b ∈ market.tokenTokens.listAt a ∨ ⟨a, b⟩ ∈ ds := by
  induction ds generalizing market with
  | nil => simp
  | cons d ds ih =>
      have hpush : b ∈ (addDirection id market d).tokenTokens.listAt a ↔
          b ∈ market.tokenTokens.listAt a ∨ a = d.tokenFrom ∧ b = d.tokenTo :=
        AssocMap.mem_listAt_pushAt _ _ _ _ _
      have hdirection : (a = d.tokenFrom ∧ b = d.tokenTo) ↔ (⟨a, b⟩ : SwapDirection) = d := by
        obtain ⟨tokenFrom, tokenTo⟩ := d
        rw [SwapDirection.mk.injEq]
      rw [List.foldl_cons, ih, hpush, hdirection, List.mem_cons, or_assoc]

lemma mem_tokenPools_foldl (ds : List SwapDirection) (a : Address) (x : PoolId) :
    x ∈ (ds.foldl (addDirection id) market).tokenPools.listAt a ↔
      x ∈ market.tokenPools.listAt a ∨ (∃ b, ⟨a, b⟩ ∈ ds) ∧ x = id := by
  induction ds generalizing market with
  | nil => simp
  | cons d ds ih =>
      have hpush : x ∈ (addDirection id market d).tokenPools.listAt a ↔
          x ∈ market.tokenPools.listAt a ∨ a = d.tokenFrom ∧ x = id :=
        AssocMap.mem_listAt_pushAt _ _ _ _ _
      have hdirection : a = d.tokenFrom ↔ ∃ b, (⟨a, b⟩ : SwapDirection) = d := by
        obtain ⟨tokenFrom, tokenTo⟩ := d
        simp only [SwapDirection.mk.injEq, exists_and_left, exists_eq, and_true]
      rw [List.foldl_cons, ih, hpush, hdirection, or_assoc, ← or_and_right]
      simp only [List.mem_cons, exists_or]

end Directions

namespace Indexed

variable {market market' : Market}

lemma swaps_insert {pool p : Pool} (hnew : market.pools.lookup pool.getPoolId = none)
    (hpools : market'.pools = market.pools.insert pool.getPoolId pool) (a b : Address) :
    market'.Swaps p a b ↔
      market.Swaps p a b ∨ p = pool ∧ ⟨a, b⟩ ∈ pool.getSwapDirections := by
  unfold Swaps
  rw [hpools, AssocMap.lookup_insert_eq]
  by_cases hid : p.getPoolId = pool.getPoolId
  · rw [if_pos hid, hid, hnew]
    constructor
    · rintro ⟨hsome, hdirection⟩
      obtain rfl := Option.some.inj hsome
      exact Or.inr ⟨rfl, hdirection⟩
    · rintro (⟨hold, -⟩ | ⟨rfl, hdirection⟩)
      · simp at hold
      · exact ⟨rfl, hdirection⟩
  · rw [if_neg hid]
    constructor
    · exact Or.inl
    · rintro (hold | ⟨rfl, -⟩)
      · exact hold
      · exact absurd rfl hid

lemma addToken (h : market.Indexed) (token : Token) : (market.addToken token).Indexed := by
  refine ⟨fun a t hlookup => ?_, h.pool_id, h.no_disabled, h.pairs, h.nexts, h.froms⟩
  rw [Market.addToken, AssocMap.lookup_insert_eq] at hlookup
  split at hlookup
  · rename_i ha
    rw [← Option.some.inj hlookup, ha]
  · exact h.token_address a t hlookup

lemma addPool (h : market.Indexed) {pool : Pool} (hadd : market.addPool pool = .ok market') :
    market'.Indexed := by
  unfold Market.addPool at hadd
  split at hadd
  · simp at hadd
  · rename_i hnew
    obtain ⟨hpools, hdisabled, htokens⟩ :=
      foldl_addDirection_fields pool.getPoolId market pool.getSwapDirections
    have hpair := mem_pairPools_foldl pool.getPoolId market pool.getSwapDirections
    have hnext := mem_tokenTokens_foldl pool.getPoolId market pool.getSwapDirections
    have hfrom := mem_tokenPools_foldl pool.getPoolId market pool.getSwapDirections
    dsimp only at hadd
    generalize pool.getSwapDirections.foldl (addDirection pool.getPoolId) market = entered
      at hadd hpools hdisabled htokens hpair hnext hfrom
    obtain rfl := Except.ok.inj hadd
    have hswaps : ∀ p a b, ({ entered with
        pools := entered.pools.insert pool.getPoolId pool } : Market).Swaps p a b ↔
        market.Swaps p a b ∨ p = pool ∧ ⟨a, b⟩ ∈ pool.getSwapDirections := fun p a b =>
      swaps_insert hnew (by rw [hpools]) a b
    refine ⟨?_, ?_, ?_, ?_, ?_, ?_⟩
    · rw [htokens]
      exact h.token_address
    · intro id p hlookup
      rw [hpools, AssocMap.lookup_insert_eq] at hlookup
      split at hlookup
      · rename_i hid
        rw [← Option.some.inj hlookup, hid]
      · exact h.pool_id id p hlookup
    · intro id
      have hold := h.no_disabled id
      unfold isPoolDisabled at hold ⊢
      rw [hdisabled]
      exact hold
    · intro a b id
      refine (hpair a b id).trans ?_
      rw [h.pairs]
      simp only [hswaps, and_or_left, exists_or]
      refine or_congr_right ⟨?_, ?_⟩
      · rintro ⟨hdirection, rfl⟩
        exact ⟨pool, rfl, rfl, hdirection⟩
      · rintro ⟨p, hid, rfl, hdirection⟩
        exact ⟨hdirection, hid.symm⟩
    · intro a b
      refine (hnext a b).trans ?_
      rw [h.nexts]
      simp only [hswaps, exists_or, exists_eq_left]
    · intro a id
      refine (hfrom a id).trans ?_
      rw [h.froms]
      simp only [hswaps, and_or_left, exists_or]
      refine or_congr_right ⟨?_, ?_⟩
      · rintro ⟨⟨b, hdirection⟩, rfl⟩
        exact ⟨pool, b, rfl, rfl, hdirection⟩
      · rintro ⟨p, b, hid, rfl, hdirection⟩
        exact ⟨⟨b, hdirection⟩, hid.symm⟩

lemma call (h : market.Indexed) (c : Call) : (market.call c).Indexed := by
  cases c with
  | addToken token => exact h.addToken token
  | addPool pool =>
      rw [Market.call]
      split
      · rename_i hadd
        exact h.addPool hadd
      · exact h

lemma empty : (default : Market).Indexed := by
  have hnone : ∀ p a b, ¬ (default : Market).Swaps p a b := by
    rintro p a b ⟨hlookup, -⟩
    simp [default] at hlookup
  refine ⟨fun a t h => absurd h (by simp [default]), fun id p h => absurd h (by simp [default]),
    fun _ => rfl, fun a b id => ?_, fun a b => ?_, fun a id => ?_⟩
  all_goals simp only [hnone, and_false, exists_false, iff_false]
  all_goals exact List.not_mem_nil

end Indexed

/-- The indices of every market that calls build list the directions of its pools. -/
lemma indexed_run (calls : List Call) : (run calls).Indexed :=
  List.foldlRecOn calls call Indexed.empty fun _ h c _ => h.call c

end Market

end Kabu
