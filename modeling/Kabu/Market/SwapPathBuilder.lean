import Kabu.Market.Cycles

/-!
# Building swap paths

The builder is given directions of pools and looks for the cycles through them.  A direction can
be the first hop of a cycle, its last, or the one in the middle, and there is a function for each
position and length.  They walk the indices of the market, with early exits for tokens that no
cycle can pass through, and they ignore hops that do not connect.

The set that collects the paths is a hash set, and the result is read from it in the order of its
table.  Here it is read in the order the paths came; no statement depends on it.

For each function there is a lemma saying what it builds, in a market whose indices are right
(`Builds`).  The pools that the functions look up are of a known class.  The pool they are given may
be of any, and need not be the market's.  `Found` is what they build together, with the early exits
as conditions, and no hop fails to connect.
-/

namespace Kabu

open Market

namespace SwapPathBuilder

abbrev SwapPathSet := KeyedSet SwapPath.key

/-- The loops over two lists of pools, which are left out if either list is missing.  Disabled
pools and pools that the market does not give out are skipped. -/
def forPools (market : Market) (ids1 ids2 : Option (List PoolId))
    (body : Pool → Pool → Option SwapPath) : List SwapPath :=
  match ids1, ids2 with
  | some ids1, some ids2 =>
      ids1.flatMap fun id1 =>
        if market.isPoolDisabled id1 then []
        else ids2.filterMap fun id2 =>
          if market.isPoolDisabled id2 then none
          else (market.getPool id1).bind fun pool1 =>
            (market.getPool id2).bind fun pool2 => body pool1 pool2
  | _, _ => []

/-- Add a hop through a pool that the path does not have yet.  That the hop does not connect is
ignored. -/
def tryHope (swap : SwapPath) (pool : Pool) (added : Except Report SwapPath) : Option SwapPath :=
  if swap.containsPool pool then none else some (unwrapOr swap added)

/-- The direction, then back. -/
def buildSwapPathTwoHopesBasicIn (market : Market) (pool : Pool)
    (tokenFromAddress tokenToAddress : Address) : Except Report (List SwapPath) :=
  match market.getTokenTokenPools tokenToAddress tokenFromAddress with
  | none => .ok []
  | some tokenTokenPools =>
      let tokenFrom := market.getTokenOrDefault tokenFromAddress
      let tokenTo := market.getTokenOrDefault tokenToAddress
      tokenTokenPools.foldlM (fun ret poolAddress =>
        if market.isPoolDisabled poolAddress then Except.ok ret
        else match market.getPool poolAddress with
          | none => .ok ret
          | some loopPool =>
              let swapPath := SwapPath.newSwap tokenFrom tokenTo pool
              if swapPath.containsPool loopPool then .ok ret
              else (swapPath.pushSwapHope tokenTo tokenFrom loopPool).map (ret ++ [·])) []

/-- The direction, then back through a third token. -/
def buildSwapPathThreeHopesBasicIn (market : Market) (pool : Pool)
    (tokenFromAddress tokenToAddress : Address) : Except Report (List SwapPath) :=
  if market.getTokenPoolsLen tokenToAddress < 2 then .ok []
  else match market.getTokenTokens tokenToAddress with
    | none => .ok []
    | some tokenTokens => .ok <| tokenTokens.flatMap fun tokenMiddleAddress =>
        if market.getTokenPoolsLen tokenMiddleAddress < 2 then []
        else
          let tokenFrom := market.getTokenOrDefault tokenFromAddress
          let tokenTo := market.getTokenOrDefault tokenToAddress
          let tokenMiddle := market.getTokenOrDefault tokenMiddleAddress
          forPools market (market.getTokenTokenPools tokenToAddress tokenMiddleAddress)
            (market.getTokenTokenPools tokenMiddleAddress tokenFromAddress) fun pool1 pool2 =>
              let swap := SwapPath.newSwap tokenFrom tokenTo pool
              (tryHope swap pool1 (swap.pushSwapHope tokenTo tokenMiddle pool1)).bind fun swap =>
                tryHope swap pool2 (swap.pushSwapHope tokenMiddle tokenFrom pool2)

/-- There, then the direction. -/
def buildSwapPathTwoHopesBasicOut (market : Market) (pool : Pool)
    (tokenFromAddress tokenToAddress : Address) : Except Report (List SwapPath) :=
  if market.getTokenPoolsLen tokenFromAddress < 2 then .ok []
  else match market.getTokenTokenPools tokenToAddress tokenFromAddress with
    | none => .ok []
    | some tokenTokenPools =>
        let tokenFrom := market.getTokenOrDefault tokenFromAddress
        let tokenTo := market.getTokenOrDefault tokenToAddress
        .ok <| tokenTokenPools.filterMap fun poolAddress =>
          if market.isPoolDisabled poolAddress then none
          else (market.getPool poolAddress).bind fun loopPool =>
            let swap := SwapPath.newSwap tokenFrom tokenTo pool
            tryHope swap loopPool (swap.insertSwapHope tokenTo tokenFrom loopPool)

/-- There through a third token, then the direction. -/
def buildSwapPathThreeHopesBasicOut (market : Market) (pool : Pool)
    (tokenFromAddress tokenToAddress : Address) : Except Report (List SwapPath) :=
  match market.getTokenTokens tokenFromAddress with
  | none => .ok []
  | some tokenTokens =>
      if market.getTokenPoolsLen tokenFromAddress < 2 then .ok []
      else .ok <| tokenTokens.flatMap fun tokenMiddleAddress =>
        if market.getTokenPoolsLen tokenMiddleAddress < 2 then []
        else
          let tokenFrom := market.getTokenOrDefault tokenFromAddress
          let tokenTo := market.getTokenOrDefault tokenToAddress
          let tokenMiddle := market.getTokenOrDefault tokenMiddleAddress
          forPools market (market.getTokenTokenPools tokenToAddress tokenMiddleAddress)
            (market.getTokenTokenPools tokenMiddleAddress tokenFromAddress) fun pool1 pool2 =>
              let swap := SwapPath.newSwap tokenFrom tokenTo pool
              (tryHope swap pool2 (swap.insertSwapHope tokenMiddle tokenFrom pool2)).bind
                fun swap => tryHope swap pool1 (swap.insertSwapHope tokenTo tokenMiddle pool1)

/-- The direction between two hops from and to a basic token. -/
def buildSwapPathThreeHopesNoBasic (market : Market) (pool : Pool)
    (tokenFromAddress tokenToAddress : Address) : Except Report (List SwapPath) :=
  match market.getTokenTokens tokenFromAddress with
  | none => .ok []
  | some tokenTokens => .ok <| tokenTokens.flatMap fun tokenBasicAddress =>
      let tokenBasic := market.getTokenOrDefault tokenBasicAddress
      if !tokenBasic.basic then []
      else
        let tokenFrom := market.getTokenOrDefault tokenFromAddress
        let tokenTo := market.getTokenOrDefault tokenToAddress
        forPools market (market.getTokenTokenPools tokenBasicAddress tokenFromAddress)
          (market.getTokenTokenPools tokenToAddress tokenBasicAddress) fun pool1 pool2 =>
            let swap := SwapPath.newSwap tokenFrom tokenTo pool
            (tryHope swap pool1 (swap.insertSwapHope tokenBasic tokenFrom pool1)).bind fun swap =>
              tryHope swap pool2 (swap.pushSwapHope tokenTo tokenBasic pool2)

/-- Collect the paths through one direction of a pool. -/
def extendDirection (market : Market) (pool : Pool) (retMap : SwapPathSet)
    (direction : SwapDirection) : Except Report SwapPathSet :=
  let tokenFrom := direction.tokenFrom
  let tokenTo := direction.tokenTo
  let basicFrom := market.isBasicToken tokenFrom
  let basicTo := market.isBasicToken tokenTo
  let noWeth := !market.isWethToken tokenFrom && !market.isWethToken tokenTo
  (((((retMap.extendIf basicTo (buildSwapPathTwoHopesBasicOut market pool tokenFrom tokenTo)).bind
    (KeyedSet.extendIf basicTo
      (buildSwapPathThreeHopesBasicOut market pool tokenFrom tokenTo))).bind
    (KeyedSet.extendIf basicFrom (buildSwapPathTwoHopesBasicIn market pool tokenFrom tokenTo))).bind
    (KeyedSet.extendIf basicFrom
      (buildSwapPathThreeHopesBasicIn market pool tokenFrom tokenTo))).bind
    (KeyedSet.extendIf ((!basicFrom && !basicTo) || noWeth)
      (buildSwapPathThreeHopesNoBasic market pool tokenFrom tokenTo)))

/-- The directions are given as the entries of a map from pools. -/
def buildSwapPathVec (market : Market) (directions : List (Pool × List SwapDirection)) :
    Except Report (List SwapPath) :=
  (directions.foldlM (fun retMap (entry : Pool × List SwapDirection) =>
    entry.2.foldlM (extendDirection market entry.1) retMap) KeyedSet.empty).map (·.elems)

/-! ## What the loops find -/

section Loops

variable {market : Market}

/-- The pool has the direction, and the market gives it out. -/
def Gives (market : Market) (pool : Pool) (a b : Address) : Prop :=
  market.Swaps pool a b ∧ pool.getClass ≠ .unknown

section

variable (h : market.Indexed)

include h

/-- The pools that the market gives out for the ids of an index are those with the direction that
are of a known class. -/
lemma exists_getPool_iff (a b : Address) (Q : Pool → Prop) :
    (∃ id ∈ market.pairPools a b, ∃ pool, market.getPool id = some pool ∧ Q pool) ↔
      ∃ pool, Gives market pool a b ∧ Q pool := by
  constructor
  · rintro ⟨id, hid, pool, hget, hQ⟩
    obtain ⟨pool', rfl, hswaps⟩ := (h.pairs a b id).mp hid
    obtain ⟨hlookup, hknown⟩ := Option.filter_eq_some_iff.mp hget
    obtain rfl := Option.some.inj (hlookup.symm.trans hswaps.1)
    exact ⟨pool, ⟨hswaps, of_decide_eq_true hknown⟩, hQ⟩
  · rintro ⟨pool, ⟨hswaps, hknown⟩, hQ⟩
    have hget : market.getPool pool.getPoolId = some pool :=
      Option.filter_eq_some_iff.mpr ⟨hswaps.1, decide_eq_true hknown⟩
    exact ⟨pool.getPoolId, (h.pairs a b _).mpr ⟨pool, rfl, hswaps⟩, pool, hget, hQ⟩

lemma mem_forPools (a b c d : Address) (body : Pool → Pool → Option SwapPath) (path : SwapPath) :
    path ∈ forPools market (market.getTokenTokenPools a b) (market.getTokenTokenPools c d) body ↔
      ∃ pool1 pool2, Gives market pool1 a b ∧ Gives market pool2 c d ∧
        body pool1 pool2 = some path := by
  have hloops : path ∈ forPools market (market.getTokenTokenPools a b)
      (market.getTokenTokenPools c d) body ↔
      ∃ id1 ∈ market.pairPools a b, ∃ pool1, market.getPool id1 = some pool1 ∧
        ∃ id2 ∈ market.pairPools c d, ∃ pool2, market.getPool id2 = some pool2 ∧
          body pool1 pool2 = some path := by
    unfold forPools pairPools
    cases market.getTokenTokenPools a b with
    | none => simp
    | some ids1 =>
        cases market.getTokenTokenPools c d with
        | none => simp
        | some ids2 =>
            simp only [h.no_disabled, Bool.false_eq_true, if_false, List.mem_flatMap,
              List.mem_filterMap, Option.bind_eq_some_iff, Option.getD_some]
            constructor
            · rintro ⟨id1, hid1, id2, hid2, pool1, hpool1, pool2, hpool2, hbody⟩
              exact ⟨id1, hid1, pool1, hpool1, id2, hid2, pool2, hpool2, hbody⟩
            · rintro ⟨id1, hid1, pool1, hpool1, id2, hid2, pool2, hpool2, hbody⟩
              exact ⟨id1, hid1, id2, hid2, pool1, hpool1, pool2, hpool2, hbody⟩
  rw [hloops, exists_getPool_iff h]
  simp only [exists_getPool_iff h, exists_and_left]

lemma mem_filterMap_pools {a b : Address} {ids : List PoolId}
    (hids : market.getTokenTokenPools a b = some ids) (body : Pool → Option SwapPath)
    (path : SwapPath) :
    path ∈ (ids.filterMap fun id =>
        if market.isPoolDisabled id then none else (market.getPool id).bind body) ↔
      ∃ pool, Gives market pool a b ∧ body pool = some path := by
  have hpairs : market.pairPools a b = ids := by
    rw [pairPools, hids]
    rfl
  rw [← exists_getPool_iff h, hpairs]
  simp only [h.no_disabled, Bool.false_eq_true, if_false, List.mem_filterMap,
    Option.bind_eq_some_iff]

lemma not_swaps_of_none {a b : Address} (hnone : market.getTokenTokenPools a b = none)
    (pool : Pool) :
    ¬ market.Swaps pool a b := by
  intro hswaps
  have hmem := (h.pairs a b _).mpr ⟨pool, rfl, hswaps⟩
  rw [pairPools, hnone] at hmem
  exact List.not_mem_nil hmem

lemma mem_tokenTokens {a : Address} {tokens : List Address}
    (htokens : market.getTokenTokens a = some tokens) (b : Address) :
    b ∈ tokens ↔ ∃ pool, market.Swaps pool a b := by
  rw [← h.nexts, AssocMap.listAt, show market.tokenTokens.lookup a = some tokens from htokens]
  rfl

lemma not_swaps_of_no_tokens {a : Address} (hnone : market.getTokenTokens a = none) (pool : Pool)
    (b : Address) :
    ¬ market.Swaps pool a b := by
  intro hswaps
  have hmem := (h.nexts a b).mpr ⟨pool, hswaps⟩
  rw [AssocMap.listAt, show market.tokenTokens.lookup a = none from hnone] at hmem
  exact List.not_mem_nil hmem

lemma two_le_getTokenPoolsLen {p q : Pool} {a b c : Address} (hp : market.Swaps p a b)
    (hq : market.Swaps q a c) (hne : p.getPoolId ≠ q.getPoolId) :
    2 ≤ market.getTokenPoolsLen a := by
  have hlength : market.getTokenPoolsLen a = (market.tokenPools.listAt a).length := by
    unfold getTokenPoolsLen AssocMap.listAt
    cases market.tokenPools.lookup a <;> rfl
  have hpmem := (h.froms a p.getPoolId).mpr ⟨p, b, rfl, hp⟩
  have hqmem := (h.froms a q.getPoolId).mpr ⟨q, c, rfl, hq⟩
  have hsub : [p.getPoolId, q.getPoolId] ⊆ market.tokenPools.listAt a := by
    intro id hid
    rcases List.mem_pair.mp hid with rfl | rfl
    · exact hpmem
    · exact hqmem
  have hnodup : [p.getPoolId, q.getPoolId].Nodup := List.nodup_cons.mpr
    ⟨fun hmem => hne (List.mem_singleton.mp hmem), List.nodup_singleton _⟩
  rw [hlength]
  exact (List.subperm_of_subset hnodup hsub).length_le

end

lemma swaps_symm (h : market.Reversible) {p : Pool} {a b : Address} (hp : market.Swaps p a b) :
    market.Swaps p b a :=
  ⟨hp.1, (h.symmetric _ p hp.1 a b).mp hp.2⟩

end Loops

/-! ## Adding hops -/

lemma tryHope_push {swap path : SwapPath} {tokens : List Token} {token tokenTo : Token}
    {pool : Pool} (h : swap.tokens = tokens ++ [token]) :
    tryHope swap pool (swap.pushSwapHope token tokenTo pool) = some path ↔
      (∀ p ∈ swap.pools, p.getPoolId ≠ pool.getPoolId) ∧
        path = { swap with tokens := swap.tokens ++ [tokenTo], pools := swap.pools ++ [pool] } := by
  rw [SwapPath.pushSwapHope_of_last h, tryHope, ← SwapPath.containsPool_eq_false_iff]
  cases swap.containsPool pool with
  | true => simp
  | false => simp [eq_comm]

lemma tryHope_insert {swap path : SwapPath} {tokens : List Token} {token tokenFrom : Token}
    {pool : Pool} (h : swap.tokens = token :: tokens) :
    tryHope swap pool (swap.insertSwapHope tokenFrom token pool) = some path ↔
      (∀ p ∈ swap.pools, p.getPoolId ≠ pool.getPoolId) ∧
        path = { swap with tokens := tokenFrom :: swap.tokens, pools := pool :: swap.pools } := by
  rw [SwapPath.insertSwapHope_of_head h, tryHope, ← SwapPath.containsPool_eq_false_iff]
  cases swap.containsPool pool with
  | true => simp
  | false => simp [eq_comm]

lemma nodup_ids_pair (p q : Pool) :
    ([p, q].map Pool.getPoolId).Nodup ↔ p.getPoolId ≠ q.getPoolId := by
  simp

lemma nodup_ids_triple (p q r : Pool) :
    ([p, q, r].map Pool.getPoolId).Nodup ↔ p.getPoolId ≠ q.getPoolId ∧
      p.getPoolId ≠ r.getPoolId ∧ q.getPoolId ≠ r.getPoolId := by
  simp [and_assoc]

section TwoMore

variable {u v w : Token} {pool pool1 pool2 : Pool} {path : SwapPath}

lemma tryHope_push_push :
    ((tryHope (.newSwap u v pool) pool1 ((SwapPath.newSwap u v pool).pushSwapHope v w pool1)).bind
        fun swap => tryHope swap pool2 (swap.pushSwapHope w u pool2)) = some path ↔
      ([pool, pool1, pool2].map Pool.getPoolId).Nodup ∧
        path = ⟨[u, v, w, u], [pool, pool1, pool2], false, []⟩ := by
  rw [Option.bind_eq_some_iff, nodup_ids_triple]
  constructor
  · rintro ⟨swap, hfirst, hsecond⟩
    obtain ⟨hne, rfl⟩ := (tryHope_push (show (SwapPath.newSwap u v pool).tokens = [u] ++ [v]
      from rfl)).mp hfirst
    obtain ⟨hne', rfl⟩ := (tryHope_push rfl).mp hsecond
    exact ⟨⟨hne pool (by simp [SwapPath.newSwap]), hne' pool (by simp [SwapPath.newSwap]),
      hne' pool1 (by simp [SwapPath.newSwap])⟩, rfl⟩
  · rintro ⟨⟨h01, h02, h12⟩, rfl⟩
    refine ⟨_, (tryHope_push (show (SwapPath.newSwap u v pool).tokens = [u] ++ [v] from rfl)).mpr
      ⟨?_, rfl⟩, (tryHope_push rfl).mpr ⟨?_, rfl⟩⟩
    · simpa [SwapPath.newSwap] using h01
    · simpa [SwapPath.newSwap] using ⟨h02, h12⟩

lemma tryHope_insert_insert :
    ((tryHope (.newSwap u v pool) pool2 ((SwapPath.newSwap u v pool).insertSwapHope w u pool2)).bind
        fun swap => tryHope swap pool1 (swap.insertSwapHope v w pool1)) = some path ↔
      ([pool1, pool2, pool].map Pool.getPoolId).Nodup ∧
        path = ⟨[v, w, u, v], [pool1, pool2, pool], false, []⟩ := by
  rw [Option.bind_eq_some_iff, nodup_ids_triple]
  constructor
  · rintro ⟨swap, hfirst, hsecond⟩
    obtain ⟨hne, rfl⟩ := (tryHope_insert rfl).mp hfirst
    obtain ⟨hne', rfl⟩ := (tryHope_insert rfl).mp hsecond
    exact ⟨⟨(hne' pool2 (by simp [SwapPath.newSwap])).symm,
      (hne' pool (by simp [SwapPath.newSwap])).symm, (hne pool (by simp [SwapPath.newSwap])).symm⟩,
      rfl⟩
  · rintro ⟨⟨h12, h10, h20⟩, rfl⟩
    refine ⟨_, (tryHope_insert rfl).mpr ⟨?_, rfl⟩, (tryHope_insert rfl).mpr ⟨?_, rfl⟩⟩
    · simpa [SwapPath.newSwap] using h20.symm
    · simpa [SwapPath.newSwap] using ⟨h12.symm, h10.symm⟩

lemma tryHope_insert_push :
    ((tryHope (.newSwap u v pool) pool1 ((SwapPath.newSwap u v pool).insertSwapHope w u pool1)).bind
        fun swap => tryHope swap pool2 (swap.pushSwapHope v w pool2)) = some path ↔
      ([pool1, pool, pool2].map Pool.getPoolId).Nodup ∧
        path = ⟨[w, u, v, w], [pool1, pool, pool2], false, []⟩ := by
  rw [Option.bind_eq_some_iff, nodup_ids_triple]
  constructor
  · rintro ⟨swap, hfirst, hsecond⟩
    obtain ⟨hne, rfl⟩ := (tryHope_insert rfl).mp hfirst
    obtain ⟨hne', rfl⟩ := (tryHope_push (show [w, u, v] = [w, u] ++ [v] from rfl)).mp hsecond
    exact ⟨⟨(hne pool (by simp [SwapPath.newSwap])).symm, hne' pool1 (by simp [SwapPath.newSwap]),
      hne' pool (by simp [SwapPath.newSwap])⟩, rfl⟩
  · rintro ⟨⟨h10, h12, h02⟩, rfl⟩
    refine ⟨_, (tryHope_insert rfl).mpr ⟨?_, rfl⟩,
      (tryHope_push (show [w, u, v] = [w, u] ++ [v] from rfl)).mpr ⟨?_, rfl⟩⟩
    · simpa [SwapPath.newSwap] using h10.symm
    · simpa [SwapPath.newSwap] using ⟨h12, h02⟩

end TwoMore

/-! ## What the builders build -/

/-- The function succeeds, with the paths that have the property. -/
def Builds (built : Except Report (List SwapPath)) (R : SwapPath → Prop) : Prop :=
  ∃ paths, built = .ok paths ∧ ∀ path, path ∈ paths ↔ R path

/-- **What is found** through a direction of a pool, in any market and for any pool.  The direction
is the last hop, the first, or the one in the middle, and the rest are the early exits: how many
directions of pools the tokens on the way have, and which tokens are looked at in between. -/
inductive Found (market : Market) (pool : Pool) (a b : Address) : SwapPath → Prop
  | twoOut (loop : Pool) (basic : market.isBasicToken b = true)
      (exits : 2 ≤ market.getTokenPoolsLen a) (gives : Gives market loop b a)
      (distinct : ([loop, pool].map Pool.getPoolId).Nodup) :
      Found market pool a b (market.pathOf [b, a, b] [loop, pool])
  | threeOut (m : Address) (p q : Pool) (basic : market.isBasicToken b = true)
      (exits : 2 ≤ market.getTokenPoolsLen a ∧ 2 ≤ market.getTokenPoolsLen m)
      (next : ∃ r, market.Swaps r a m) (first : Gives market p b m) (second : Gives market q m a)
      (distinct : ([p, q, pool].map Pool.getPoolId).Nodup) :
      Found market pool a b (market.pathOf [b, m, a, b] [p, q, pool])
  | twoIn (loop : Pool) (basic : market.isBasicToken a = true) (gives : Gives market loop b a)
      (distinct : ([pool, loop].map Pool.getPoolId).Nodup) :
      Found market pool a b (market.pathOf [a, b, a] [pool, loop])
  | threeIn (m : Address) (p q : Pool) (basic : market.isBasicToken a = true)
      (exits : 2 ≤ market.getTokenPoolsLen b ∧ 2 ≤ market.getTokenPoolsLen m)
      (second : Gives market p b m) (third : Gives market q m a)
      (distinct : ([pool, p, q].map Pool.getPoolId).Nodup) :
      Found market pool a b (market.pathOf [a, b, m, a] [pool, p, q])
  | middle (t : Address) (p q : Pool) (basic : market.isBasicToken t = true)
      (next : ∃ r, market.Swaps r a t) (first : Gives market p t a) (third : Gives market q b t)
      (distinct : ([p, pool, q].map Pool.getPoolId).Nodup) :
      Found market pool a b (market.pathOf [t, a, b, t] [p, pool, q])

section Builders

variable {market : Market} (pool : Pool) (a b : Address)

/-- A function that leaves early builds what there is to build if there is nothing. -/
lemma builds_nil {R : SwapPath → Prop} (h : ∀ path, ¬ R path) : Builds (.ok []) R :=
  ⟨[], rfl, fun path => ⟨fun hmem => absurd hmem List.not_mem_nil, fun hR => absurd hR (h path)⟩⟩

lemma builds_twoHopesBasicOut (h : market.Indexed) :
    Builds (buildSwapPathTwoHopesBasicOut market pool a b) fun path =>
      2 ≤ market.getTokenPoolsLen a ∧ ∃ loop, Gives market loop b a ∧
        ([loop, pool].map Pool.getPoolId).Nodup ∧
          path = market.pathOf [b, a, b] [loop, pool] := by
  unfold buildSwapPathTwoHopesBasicOut
  split
  · rename_i hlen
    exact builds_nil fun path hpath => absurd hpath.1 (Nat.not_le.mpr hlen)
  · rename_i hlen
    rw [Nat.not_lt] at hlen
    split
    · rename_i hnone
      refine builds_nil ?_
      rintro path ⟨-, loop, hloop, -⟩
      exact not_swaps_of_none h hnone loop hloop.1
    · rename_i ids hids
      refine ⟨_, rfl, fun path => (mem_filterMap_pools h hids _ path).trans
        (Iff.trans ?_ (and_iff_right hlen).symm)⟩
      refine exists_congr fun loop => and_congr_right fun _ => (tryHope_insert rfl).trans ?_
      rw [nodup_ids_pair]
      simp [SwapPath.newSwap, pathOf, eq_comm]

/-- A loop whose body pushes at most one element and does not fail. -/
lemma foldlM_push {A B : Type*} {body : List B → A → Except Report (List B)} {f : A → Option B}
    (h : ∀ ret x, body ret x = .ok (ret ++ (f x).toList)) (l : List A) (ret : List B) :
    l.foldlM body ret = .ok (ret ++ l.filterMap f) := by
  induction l generalizing ret with
  | nil => exact congrArg Except.ok (List.append_nil ret).symm
  | cons x l ih =>
      rw [List.foldlM_cons, h]
      refine (ih _).trans ?_
      cases hx : f x <;> simp [hx]

variable (h : market.Indexed)

include h

/-- This function lets a hop that does not connect be an error.  There is none. -/
lemma builds_twoHopesBasicIn :
    Builds (buildSwapPathTwoHopesBasicIn market pool a b) fun path =>
      ∃ loop, Gives market loop b a ∧ ([pool, loop].map Pool.getPoolId).Nodup ∧
        path = market.pathOf [a, b, a] [pool, loop] := by
  unfold buildSwapPathTwoHopesBasicIn
  split
  · rename_i hnone
    refine builds_nil ?_
    rintro path ⟨loop, hloop, -⟩
    exact not_swaps_of_none h hnone loop hloop.1
  · rename_i ids hids
    let swap := SwapPath.newSwap (market.getTokenOrDefault a) (market.getTokenOrDefault b) pool
    have hlast : swap.tokens = [market.getTokenOrDefault a] ++ [market.getTokenOrDefault b] := rfl
    let body : Pool → Option SwapPath := fun loop => tryHope swap loop
      (swap.pushSwapHope (market.getTokenOrDefault b) (market.getTokenOrDefault a) loop)
    refine ⟨_, foldlM_push (f := fun id =>
      if market.isPoolDisabled id then none else (market.getPool id).bind body) ?_ ids [],
      fun path => ?_⟩
    · intro ret id
      rw [h.no_disabled]
      cases market.getPool id with
      | none => exact congrArg Except.ok (List.append_nil ret).symm
      | some loop =>
          show (if swap.containsPool loop then Except.ok ret else (swap.pushSwapHope _ _ loop).map
            (ret ++ [·])) = .ok (ret ++ (body loop).toList)
          unfold body tryHope
          rw [SwapPath.pushSwapHope_of_last hlast]
          cases swap.containsPool loop with
          | true => exact congrArg Except.ok (List.append_nil ret).symm
          | false => rfl
    · rw [List.nil_append, mem_filterMap_pools h hids]
      refine exists_congr fun loop => and_congr_right fun _ => (tryHope_push hlast).trans ?_
      rw [nodup_ids_pair]
      simp [swap, SwapPath.newSwap, pathOf]

/-- The loop over a third token between `b` and `a`. -/
lemma mem_middle_loop {tokens : List Address} {body : Address → Pool → Pool → Option SwapPath}
    (path : SwapPath) :
    (path ∈ tokens.flatMap fun m =>
        if market.getTokenPoolsLen m < 2 then []
        else forPools market (market.getTokenTokenPools b m) (market.getTokenTokenPools m a)
          (body m)) ↔
      ∃ m p q, (m ∈ tokens ∧ 2 ≤ market.getTokenPoolsLen m) ∧ Gives market p b m ∧
        Gives market q m a ∧ body m p q = some path := by
  rw [List.mem_flatMap]
  refine exists_congr fun m => ?_
  simp only [exists_and_left, and_assoc]
  refine and_congr_right fun _ => ?_
  by_cases hlen : market.getTokenPoolsLen m < 2
  · rw [if_pos hlen]
    refine ⟨fun hmem => absurd hmem List.not_mem_nil, fun hpath => ?_⟩
    exact absurd hpath.1 (Nat.not_le.mpr hlen)
  · rw [if_neg hlen, mem_forPools h, and_iff_right (Nat.not_lt.mp hlen)]
    simp only [exists_and_left]

lemma builds_threeHopesBasicIn :
    Builds (buildSwapPathThreeHopesBasicIn market pool a b) fun path =>
      ∃ m p q, (2 ≤ market.getTokenPoolsLen b ∧ 2 ≤ market.getTokenPoolsLen m) ∧
        Gives market p b m ∧ Gives market q m a ∧ ([pool, p, q].map Pool.getPoolId).Nodup ∧
          path = market.pathOf [a, b, m, a] [pool, p, q] := by
  unfold buildSwapPathThreeHopesBasicIn
  split
  · rename_i hlen
    refine builds_nil ?_
    rintro path ⟨m, p, q, hexits, -⟩
    exact absurd hexits.1 (Nat.not_le.mpr hlen)
  · rename_i hlen
    rw [Nat.not_lt] at hlen
    split
    · rename_i hnone
      refine builds_nil ?_
      rintro path ⟨m, p, q, -, hp, -⟩
      exact not_swaps_of_no_tokens h hnone p m hp.1
    · rename_i tokens htokens
      refine ⟨_, rfl, fun path => (mem_middle_loop a b h path).trans ?_⟩
      refine exists_congr fun m => exists_congr fun p => exists_congr fun q => ?_
      rw [mem_tokenTokens h htokens, tryHope_push_push, and_iff_right hlen, and_assoc]
      -- the first of the two pools shows that the token is looked at
      refine ⟨fun hpath => hpath.2, fun hpath => ⟨⟨p, hpath.2.1.1⟩, hpath⟩⟩

lemma builds_threeHopesBasicOut :
    Builds (buildSwapPathThreeHopesBasicOut market pool a b) fun path =>
      ∃ m p q, (2 ≤ market.getTokenPoolsLen a ∧ 2 ≤ market.getTokenPoolsLen m) ∧
        (∃ r, market.Swaps r a m) ∧ Gives market p b m ∧ Gives market q m a ∧
          ([p, q, pool].map Pool.getPoolId).Nodup ∧
            path = market.pathOf [b, m, a, b] [p, q, pool] := by
  unfold buildSwapPathThreeHopesBasicOut
  split
  · rename_i hnone
    refine builds_nil ?_
    rintro path ⟨m, p, q, -, ⟨r, hr⟩, -⟩
    exact not_swaps_of_no_tokens h hnone r m hr
  · rename_i tokens htokens
    split
    · rename_i hlen
      refine builds_nil ?_
      rintro path ⟨m, p, q, hexits, -⟩
      exact absurd hexits.1 (Nat.not_le.mpr hlen)
    · rename_i hlen
      rw [Nat.not_lt] at hlen
      refine ⟨_, rfl, fun path => (mem_middle_loop a b h path).trans ?_⟩
      refine exists_congr fun m => exists_congr fun p => exists_congr fun q => ?_
      rw [mem_tokenTokens h htokens, tryHope_insert_insert, and_iff_right hlen, and_assoc,
        and_left_comm]
      rfl

lemma builds_threeHopesNoBasic :
    Builds (buildSwapPathThreeHopesNoBasic market pool a b) fun path =>
      ∃ t p q, market.isBasicToken t = true ∧ (∃ r, market.Swaps r a t) ∧ Gives market p t a ∧
        Gives market q b t ∧ ([p, pool, q].map Pool.getPoolId).Nodup ∧
          path = market.pathOf [t, a, b, t] [p, pool, q] := by
  unfold buildSwapPathThreeHopesNoBasic
  split
  · rename_i hnone
    refine builds_nil ?_
    rintro path ⟨t, p, q, -, ⟨r, hr⟩, -⟩
    exact not_swaps_of_no_tokens h hnone r t hr
  · rename_i tokens htokens
    refine ⟨_, rfl, fun path => List.mem_flatMap.trans (exists_congr fun t => ?_)⟩
    dsimp only
    rw [isBasicToken_eq_basic, mem_tokenTokens h htokens]
    cases market.isBasicToken t with
    | false => simp
    | true =>
        simp only [Bool.not_true, Bool.false_eq_true, if_false, mem_forPools h,
          tryHope_insert_push, true_and, exists_and_left]
        rfl

end Builders

end SwapPathBuilder

end Kabu
