import Kabu.Market.Market

/-!
# Cycles of a market

What a path builder should find.  `IsCycle` says of a path that it is a cycle of a market: two or
three hops, from a basic token back to it, through different pools, each hop a direction of its
pool.  A cycle of two hops is given by its two tokens and pools (`TwoHops`), one of three by its
three (`ThreeHops`), and `isCycle_iff` says that there are no others.

The markets in question are the `Reversible` ones: their indices are right and every pool swaps
back where it swaps to.  In a `Regular` one, in addition, no pool is of the unknown class, which
lookups skip.
-/

namespace Kabu

/-- The pool swaps in both directions or in none. -/
def Pool.Symmetric (pool : Pool) : Prop :=
  ∀ a b, (⟨a, b⟩ : SwapDirection) ∈ pool.getSwapDirections ↔ ⟨b, a⟩ ∈ pool.getSwapDirections

/-- The pools of the path are of a known class, the given one apart. -/
def SwapPath.OthersKnown (pool : Pool) (path : SwapPath) : Prop :=
  ∀ p ∈ path.pools, p.getPoolId ≠ pool.getPoolId → p.getClass ≠ .unknown

namespace Market

/-- The path through the market's tokens at the addresses. -/
def pathOf (market : Market) (addresses : List Address) (pools : List Pool) : SwapPath :=
  ⟨addresses.map market.getTokenOrDefault, pools, false, []⟩

structure Reversible (market : Market) : Prop extends market.Indexed where
  symmetric : ∀ id pool, market.pools.lookup id = some pool → pool.Symmetric

structure Regular (market : Market) : Prop extends market.Indexed where
  symmetric : ∀ id pool, market.pools.lookup id = some pool → pool.Symmetric
  known : ∀ id pool, market.pools.lookup id = some pool → pool.getClass ≠ .unknown

/-- The path is a cycle of the market, with its tokens and pools. -/
structure IsCycle (market : Market) (path : SwapPath) : Prop where
  length : path.pools.length = 2 ∨ path.pools.length = 3
  tokens_length : path.tokens.length = path.pools.length + 1
  tokens : ∀ token ∈ path.tokens, market.getTokenOrDefault token.address = token
  pools : ∀ pool ∈ path.pools, market.pools.lookup pool.getPoolId = some pool
  enabled : path.disabled = false ∧ path.disabledPool = []
  closed : path.tokens.head? = path.tokens.getLast?
  basic : ∀ token ∈ path.tokens.head?, market.isBasicToken token.address = true
  distinct : (path.pools.map Pool.getPoolId).Nodup
  directions : ∀ hop ∈ path.hops, hop.2 ∈ hop.1.getSwapDirections

/-- Out through `p` and back through `q`. -/
structure TwoHops (market : Market) (t x : Address) (p q : Pool) (path : SwapPath) : Prop where
  first : market.Swaps p t x
  second : market.Swaps q x t
  distinct : ([p, q].map Pool.getPoolId).Nodup
  path_eq : path = market.pathOf [t, x, t] [p, q]

structure ThreeHops (market : Market) (t x y : Address) (p q r : Pool) (path : SwapPath) :
    Prop where
  first : market.Swaps p t x
  second : market.Swaps q x y
  third : market.Swaps r y t
  distinct : ([p, q, r].map Pool.getPoolId).Nodup
  path_eq : path = market.pathOf [t, x, y, t] [p, q, r]

variable {market : Market} {path : SwapPath}

lemma Regular.reversible (h : market.Regular) : market.Reversible := ⟨h.toIndexed, h.symmetric⟩

lemma Indexed.address_getTokenOrDefault (h : market.Indexed) (a : Address) :
    (market.getTokenOrDefault a).address = a := by
  unfold getTokenOrDefault
  cases hlookup : market.tokens.lookup a with
  | none => rfl
  | some token => exact h.token_address a token hlookup

lemma isBasicToken_eq_basic (market : Market) (a : Address) :
    (market.getTokenOrDefault a).basic = market.isBasicToken a := by
  unfold getTokenOrDefault isBasicToken
  cases market.tokens.lookup a <;> rfl

/-! ## The two kinds of cycle -/

section OthersKnown

variable {t x y : Address} {p q r : Pool}

lemma TwoHops.othersKnown_first (h : market.TwoHops t x p q path) :
    path.OthersKnown p ↔ q.getClass ≠ .unknown := by
  obtain ⟨-, -, hdistinct, rfl⟩ := h
  have hne : q.getPoolId ≠ p.getPoolId := by simpa [eq_comm] using hdistinct
  simp [SwapPath.OthersKnown, pathOf, hne]

lemma TwoHops.othersKnown_second (h : market.TwoHops t x p q path) :
    path.OthersKnown q ↔ p.getClass ≠ .unknown := by
  obtain ⟨-, -, hdistinct, rfl⟩ := h
  have hne : p.getPoolId ≠ q.getPoolId := by simpa using hdistinct
  simp [SwapPath.OthersKnown, pathOf, hne]

variable (h : market.ThreeHops t x y p q r path)

include h

lemma ThreeHops.othersKnown_first :
    path.OthersKnown p ↔ q.getClass ≠ .unknown ∧ r.getClass ≠ .unknown := by
  obtain ⟨-, -, -, hdistinct, rfl⟩ := h
  obtain ⟨⟨hpq, hpr⟩, -⟩ : (p.getPoolId ≠ q.getPoolId ∧ p.getPoolId ≠ r.getPoolId) ∧
      q.getPoolId ≠ r.getPoolId := by simpa using hdistinct
  simp [SwapPath.OthersKnown, pathOf, hpq.symm, hpr.symm]

lemma ThreeHops.othersKnown_second :
    path.OthersKnown q ↔ p.getClass ≠ .unknown ∧ r.getClass ≠ .unknown := by
  obtain ⟨-, -, -, hdistinct, rfl⟩ := h
  obtain ⟨⟨hpq, -⟩, hqr⟩ : (p.getPoolId ≠ q.getPoolId ∧ p.getPoolId ≠ r.getPoolId) ∧
      q.getPoolId ≠ r.getPoolId := by simpa using hdistinct
  simp [SwapPath.OthersKnown, pathOf, hpq, hqr.symm]

lemma ThreeHops.othersKnown_third :
    path.OthersKnown r ↔ p.getClass ≠ .unknown ∧ q.getClass ≠ .unknown := by
  obtain ⟨-, -, -, hdistinct, rfl⟩ := h
  obtain ⟨⟨-, hpr⟩, hqr⟩ : (p.getPoolId ≠ q.getPoolId ∧ p.getPoolId ≠ r.getPoolId) ∧
      q.getPoolId ≠ r.getPoolId := by simpa using hdistinct
  simp [SwapPath.OthersKnown, pathOf, hpr, hqr]

end OthersKnown

section

variable (h : market.Indexed)

include h

lemma Indexed.hops_pathOf_two (t x : Address) (p q : Pool) :
    (market.pathOf [t, x, t] [p, q]).hops = [(p, ⟨t, x⟩), (q, ⟨x, t⟩)] := by
  simp [SwapPath.hops, pathOf, h.address_getTokenOrDefault]

lemma Indexed.hops_pathOf_three (t x y : Address) (p q r : Pool) :
    (market.pathOf [t, x, y, t] [p, q, r]).hops =
      [(p, ⟨t, x⟩), (q, ⟨x, y⟩), (r, ⟨y, t⟩)] := by
  simp [SwapPath.hops, pathOf, h.address_getTokenOrDefault]

lemma Indexed.tokens_pathOf (addresses : List Address) (pools : List Pool) :
    ∀ token ∈ (market.pathOf addresses pools).tokens,
      market.getTokenOrDefault token.address = token := by
  intro token hmem
  obtain ⟨a, -, rfl⟩ := List.mem_map.mp hmem
  rw [h.address_getTokenOrDefault]

lemma TwoHops.isCycle {t x : Address} {p q : Pool}
    (hpath : market.TwoHops t x p q path) (ht : market.isBasicToken t = true) :
    market.IsCycle path := by
  obtain ⟨hp, hq, hdistinct, rfl⟩ := hpath
  refine ⟨Or.inl rfl, rfl, h.tokens_pathOf _ _, ?_, ⟨rfl, rfl⟩, rfl, ?_, hdistinct, ?_⟩
  · intro pool hpool
    rcases List.mem_pair.mp hpool with rfl | rfl
    · exact hp.1
    · exact hq.1
  · intro token htoken
    obtain rfl := Option.some.inj htoken
    rw [h.address_getTokenOrDefault]
    exact ht
  · intro hop hhop
    rw [h.hops_pathOf_two] at hhop
    rcases List.mem_pair.mp hhop with rfl | rfl
    · exact hp.2
    · exact hq.2

lemma ThreeHops.isCycle {t x y : Address} {p q r : Pool}
    (hpath : market.ThreeHops t x y p q r path) (ht : market.isBasicToken t = true) :
    market.IsCycle path := by
  obtain ⟨hp, hq, hr, hdistinct, rfl⟩ := hpath
  refine ⟨Or.inr rfl, rfl, h.tokens_pathOf _ _, ?_, ⟨rfl, rfl⟩, rfl, ?_, hdistinct, ?_⟩
  · intro pool hpool
    have hcases : pool = p ∨ pool = q ∨ pool = r := by simpa [pathOf] using hpool
    rcases hcases with rfl | rfl | rfl
    · exact hp.1
    · exact hq.1
    · exact hr.1
  · intro token htoken
    obtain rfl := Option.some.inj htoken
    rw [h.address_getTokenOrDefault]
    exact ht
  · intro hop hhop
    rw [h.hops_pathOf_three] at hhop
    have hcases : hop = (p, ⟨t, x⟩) ∨ hop = (q, ⟨x, y⟩) ∨ hop = (r, ⟨y, t⟩) := by
      simpa using hhop
    rcases hcases with rfl | rfl | rfl
    · exact hp.2
    · exact hq.2
    · exact hr.2

end

/-- A path whose tokens are the market's and of which nothing is disabled is given by its
addresses and pools. -/
lemma IsCycle.eq_pathOf (h : market.IsCycle path) :
    path = market.pathOf (path.tokens.map Token.address) path.pools := by
  obtain ⟨tokens, pools, disabled, disabledPool⟩ := path
  obtain ⟨rfl, rfl⟩ : disabled = false ∧ disabledPool = [] := h.enabled
  have htokens : tokens = (tokens.map Token.address).map market.getTokenOrDefault := by
    rw [List.map_map]
    exact (List.map_id tokens).symm.trans (List.map_congr_left fun token hmem =>
      (h.tokens token hmem).symm)
  exact congrArg (SwapPath.mk · pools false []) htokens

lemma IsCycle.swaps (h : market.IsCycle path) {pool : Pool} {a b : Address}
    (hpool : pool ∈ path.pools) (hhop : (pool, (⟨a, b⟩ : SwapDirection)) ∈ path.hops) :
    market.Swaps pool a b :=
  ⟨h.pools pool hpool, h.directions _ hhop⟩

lemma IsCycle.twoHops (h : market.IsCycle path)
    (hlength : path.pools.length = 2) :
    ∃ t x p q, market.isBasicToken t = true ∧ market.TwoHops t x p q path := by
  have heq := h.eq_pathOf
  obtain ⟨p, q, hpools⟩ := List.length_eq_two.mp hlength
  obtain ⟨u, v, w, htokens⟩ := List.length_eq_three.mp (h.tokens_length.trans
    (congrArg (· + 1) hlength))
  have hclosed := h.closed
  have hdistinct := h.distinct
  rw [htokens] at hclosed
  obtain rfl : u = w := Option.some.inj hclosed
  have hbasic := h.basic u (by rw [htokens]; rfl)
  have hhops : path.hops = [(p, ⟨u.address, v.address⟩), (q, ⟨v.address, u.address⟩)] := by
    simp [SwapPath.hops, hpools, htokens]
  rw [hpools] at hdistinct
  refine ⟨u.address, v.address, p, q, hbasic, ?_, ?_, hdistinct, ?_⟩
  · exact h.swaps (by simp [hpools]) (by simp [hhops])
  · exact h.swaps (by simp [hpools]) (by simp [hhops])
  · rw [htokens, hpools] at heq
    exact heq

lemma IsCycle.threeHops (h : market.IsCycle path)
    (hlength : path.pools.length = 3) :
    ∃ t x y p q r, market.isBasicToken t = true ∧ market.ThreeHops t x y p q r path := by
  have heq := h.eq_pathOf
  obtain ⟨p, q, r, hpools⟩ := List.length_eq_three.mp hlength
  obtain ⟨u, v, w, z, htokens⟩ : ∃ u v w z, path.tokens = [u, v, w, z] := by
    have hfour : path.tokens.length = 4 := h.tokens_length.trans (congrArg (· + 1) hlength)
    match htokens : path.tokens with
    | [u, v, w, z] => exact ⟨u, v, w, z, rfl⟩
    | [] | [_] | [_, _] | [_, _, _] | _ :: _ :: _ :: _ :: _ :: _ =>
        rw [htokens] at hfour
        simp at hfour
  have hclosed := h.closed
  have hdistinct := h.distinct
  rw [htokens] at hclosed
  obtain rfl : u = z := Option.some.inj hclosed
  have hbasic := h.basic u (by rw [htokens]; rfl)
  have hhops : path.hops = [(p, ⟨u.address, v.address⟩), (q, ⟨v.address, w.address⟩),
      (r, ⟨w.address, u.address⟩)] := by
    simp [SwapPath.hops, hpools, htokens]
  rw [hpools] at hdistinct
  refine ⟨u.address, v.address, w.address, p, q, r, hbasic, ?_, ?_, ?_, hdistinct, ?_⟩
  · exact h.swaps (by simp [hpools]) (by simp [hhops])
  · exact h.swaps (by simp [hpools]) (by simp [hhops])
  · exact h.swaps (by simp [hpools]) (by simp [hhops])
  · rw [htokens, hpools] at heq
    exact heq

lemma isCycle_iff (h : market.Indexed) (path : SwapPath) :
    market.IsCycle path ↔
      (∃ t x p q, market.isBasicToken t = true ∧ market.TwoHops t x p q path) ∨
        ∃ t x y p q r, market.isBasicToken t = true ∧ market.ThreeHops t x y p q r path := by
  constructor
  · intro hcycle
    exact hcycle.length.imp hcycle.twoHops hcycle.threeHops
  · rintro (⟨t, x, p, q, ht, hpath⟩ | ⟨t, x, y, p, q, r, ht, hpath⟩)
    · exact hpath.isCycle h ht
    · exact hpath.isCycle h ht

lemma IsCycle.map_some_pools (h : market.IsCycle path) :
    path.pools.map some = (path.pools.map Pool.getPoolId).map (market.pools.lookup ·) := by
  rw [List.map_map]
  exact List.map_congr_left fun pool hmem => (h.pools pool hmem).symm

/-- The cycles of a market are told apart by what the source compares paths by. -/
lemma IsCycle.eq_of_key {path' : SwapPath} (hpath : market.IsCycle path)
    (hpath' : market.IsCycle path') (hkey : path.key = path'.key) : path = path' := by
  obtain ⟨haddresses, hids⟩ := Prod.mk.inj hkey
  have hpools : path.pools = path'.pools := by
    refine List.map_injective_iff.mpr (fun _ _ h => Option.some.inj h) ?_
    rw [hpath.map_some_pools, hpath'.map_some_pools, hids]
  rw [hpath.eq_pathOf, hpath'.eq_pathOf, haddresses, hpools]

end Market

end Kabu
