import Kabu.Market.SwapPathBuilder

/-!
# The swap paths that are built

For a market that calls have built, whose pools swap in both directions and are of a known class,
and for directions of its pools, the builder returns the cycles of the market through one of the
directions, each once (`buildSwapPathVec_exact`).

The argument is by the position of the direction in the cycle.  For one direction, the five
functions together add what is found through it (`adds_extendDirection`): a first hop leaves a basic
token, a last hop arrives at one, and the function for the hop in the middle is called for every
direction, since no token has the flag that would exclude it.  In a market whose pools swap in both
directions these are the cycles with that hop (`found_iff_of_reversible`).
-/

namespace Kabu

open Market SwapPathBuilder

/-- Some hop of the path is one of the given directions of its pool. -/
def SwapPath.Through (directions : List (Pool × List SwapDirection)) (path : SwapPath) : Prop :=
  ∃ hop ∈ path.hops, ∃ entry ∈ directions, entry.1 = hop.1 ∧ hop.2 ∈ entry.2

variable {market : Market}

lemma Market.isWethToken_eq_false (market : Market) (a : Address) :
    market.isWethToken a = false := by
  unfold Market.isWethToken
  split
  · rename_i token _
    exact token.weth_eq
  · rfl

lemma hop_inj {p q : Pool} {a b c d : Address}
    (h : (p, (⟨a, b⟩ : SwapDirection)) = (q, ⟨c, d⟩)) : p = q ∧ a = c ∧ b = d := by
  obtain ⟨hpool, hdirection⟩ := Prod.mk.inj h
  exact ⟨hpool, SwapDirection.mk.inj hdirection⟩

/-- The cycles that have the direction of the pool as a hop, by the position of the hop. -/
lemma isCycle_and_hop_iff (h : market.Indexed) (pool : Pool) (a b : Address) (path : SwapPath) :
    market.IsCycle path ∧ (pool, (⟨a, b⟩ : SwapDirection)) ∈ path.hops ↔
      ((((market.isBasicToken b = true ∧ ∃ loop, market.TwoHops b a loop pool path) ∨
        market.isBasicToken b = true ∧ ∃ m p q, market.ThreeHops b m a p q pool path) ∨
        market.isBasicToken a = true ∧ ∃ loop, market.TwoHops a b pool loop path) ∨
        market.isBasicToken a = true ∧ ∃ m p q, market.ThreeHops a b m pool p q path) ∨
        ∃ t p q, market.isBasicToken t = true ∧ market.ThreeHops t a b p pool q path := by
  constructor
  · rintro ⟨hcycle, hhop⟩
    rcases (isCycle_iff h path).mp hcycle with ⟨t, x, p, q, ht, hpath⟩ |
      ⟨t, x, y, p, q, r, ht, hpath⟩
    · rw [hpath.path_eq, h.hops_pathOf_two] at hhop
      rcases List.mem_pair.mp hhop with heq | heq
      · obtain ⟨rfl, rfl, rfl⟩ := hop_inj heq
        exact Or.inl (Or.inl (Or.inr ⟨ht, q, hpath⟩))
      · obtain ⟨rfl, rfl, rfl⟩ := hop_inj heq
        exact Or.inl (Or.inl (Or.inl (Or.inl ⟨ht, p, hpath⟩)))
    · rw [hpath.path_eq, h.hops_pathOf_three] at hhop
      have hcases : (pool, (⟨a, b⟩ : SwapDirection)) = (p, ⟨t, x⟩) ∨
          (pool, (⟨a, b⟩ : SwapDirection)) = (q, ⟨x, y⟩) ∨
          (pool, (⟨a, b⟩ : SwapDirection)) = (r, ⟨y, t⟩) := by
        simpa only [List.mem_cons, List.not_mem_nil, or_false] using hhop
      rcases hcases with heq | heq | heq
      · obtain ⟨rfl, rfl, rfl⟩ := hop_inj heq
        exact Or.inl (Or.inr ⟨ht, y, q, r, hpath⟩)
      · obtain ⟨rfl, rfl, rfl⟩ := hop_inj heq
        exact Or.inr ⟨t, p, r, ht, hpath⟩
      · obtain ⟨rfl, rfl, rfl⟩ := hop_inj heq
        exact Or.inl (Or.inl (Or.inl (Or.inr ⟨ht, x, p, q, hpath⟩)))
  · rintro ((((⟨ht, loop, hpath⟩ | ⟨ht, m, p, q, hpath⟩) | ⟨ht, loop, hpath⟩) |
      ⟨ht, m, p, q, hpath⟩) | ⟨t, p, q, ht, hpath⟩)
    all_goals refine ⟨hpath.isCycle h ht, ?_⟩
    · simp [hpath.path_eq, h.hops_pathOf_two]
    · simp [hpath.path_eq, h.hops_pathOf_three]
    · simp [hpath.path_eq, h.hops_pathOf_two]
    · simp [hpath.path_eq, h.hops_pathOf_three]
    · simp [hpath.path_eq, h.hops_pathOf_three]

/-- **One direction.**  The five functions add what is found through it, in a domain on which the
keys of paths tell them apart. -/
lemma adds_extendDirection (h : market.Indexed) {P : SwapPath → Prop}
    (hkey : ∀ path path', P path → P path' → path.key = path'.key → path = path') (pool : Pool)
    (direction : SwapDirection)
    (hP : ∀ path, Found market pool direction.tokenFrom direction.tokenTo path → P path) :
    KeyedSet.Adds P (Found market pool direction.tokenFrom direction.tokenTo)
      fun retMap => extendDirection market pool retMap direction := by
  obtain ⟨a, b⟩ := direction
  have htwoOut := KeyedSet.adds_extendIf hkey (market.isBasicToken b)
    (builds_twoHopesBasicOut pool a b h) fun hb path ⟨he, loop, hg, hd, heq⟩ =>
      hP path (heq ▸ .twoOut loop hb he hg hd)
  have hthreeOut := KeyedSet.adds_extendIf hkey (market.isBasicToken b)
    (builds_threeHopesBasicOut pool a b h) fun hb path ⟨m, p, q, he, hr, hp, hq, hd, heq⟩ =>
      hP path (heq ▸ .threeOut m p q hb he hr hp hq hd)
  have htwoIn := KeyedSet.adds_extendIf hkey (market.isBasicToken a)
    (builds_twoHopesBasicIn pool a b h) fun ha path ⟨loop, hg, hd, heq⟩ =>
      hP path (heq ▸ .twoIn loop ha hg hd)
  have hthreeIn := KeyedSet.adds_extendIf hkey (market.isBasicToken a)
    (builds_threeHopesBasicIn pool a b h) fun ha path ⟨m, p, q, he, hp, hq, hd, heq⟩ =>
      hP path (heq ▸ .threeIn m p q ha he hp hq hd)
  have hmiddle := fun condition => KeyedSet.adds_extendIf hkey condition
    (builds_threeHopesNoBasic pool a b h) fun _ path ⟨t, p, q, ht, hr, hp, hq, hd, heq⟩ =>
      hP path (heq ▸ .middle t p q ht hr hp hq hd)
  refine ((((htwoOut.bind hthreeOut).bind htwoIn).bind hthreeIn).bind (hmiddle _)).congr
    fun path => ?_
  rw [market.isWethToken_eq_false, market.isWethToken_eq_false]
  simp only [Bool.not_false, Bool.and_true, Bool.or_true, true_and]
  constructor
  · rintro ((((⟨hb, he, loop, hg, hd, rfl⟩ | ⟨hb, m, p, q, he, hr, hp, hq, hd, rfl⟩) |
      ⟨ha, loop, hg, hd, rfl⟩) | ⟨ha, m, p, q, he, hp, hq, hd, rfl⟩) |
      ⟨t, p, q, ht, hr, hp, hq, hd, rfl⟩)
    · exact .twoOut loop hb he hg hd
    · exact .threeOut m p q hb he hr hp hq hd
    · exact .twoIn loop ha hg hd
    · exact .threeIn m p q ha he hp hq hd
    · exact .middle t p q ht hr hp hq hd
  · intro hfound
    cases hfound with
    | twoOut loop hb he hg hd =>
        exact Or.inl (Or.inl (Or.inl (Or.inl ⟨hb, he, loop, hg, hd, rfl⟩)))
    | threeOut m p q hb he hr hp hq hd =>
        exact Or.inl (Or.inl (Or.inl (Or.inr ⟨hb, m, p, q, he, hr, hp, hq, hd, rfl⟩)))
    | twoIn loop ha hg hd => exact Or.inl (Or.inl (Or.inr ⟨ha, loop, hg, hd, rfl⟩))
    | threeIn m p q ha he hp hq hd =>
        exact Or.inl (Or.inr ⟨ha, m, p, q, he, hp, hq, hd, rfl⟩)
    | middle t p q ht hr hp hq hd => exact Or.inr ⟨t, p, q, ht, hr, hp, hq, hd, rfl⟩

/-- The path has the market's tokens, and its pools are the given one and, with other ids, the
market's. -/
def OwnPath (market : Market) (pool : Pool) (path : SwapPath) : Prop :=
  ∃ addresses pools, path = market.pathOf addresses pools ∧ ∀ p ∈ pools,
    p = pool ∨ p.getPoolId ≠ pool.getPoolId ∧ market.pools.lookup p.getPoolId = some p

lemma OwnPath.eq_of_key (h : market.Indexed) {pool : Pool} {path path' : SwapPath}
    (hpath : OwnPath market pool path) (hpath' : OwnPath market pool path')
    (hkey : path.key = path'.key) : path = path' := by
  obtain ⟨addresses, pools, rfl, hpools⟩ := hpath
  obtain ⟨addresses', pools', rfl, hpools'⟩ := hpath'
  have haddresses : ∀ l : List Address, (l.map market.getTokenOrDefault).map Token.address = l :=
    fun l => by
      rw [List.map_map]
      exact (List.map_congr_left fun a _ => h.address_getTokenOrDefault a).trans (List.map_id l)
  -- an id that is not the given pool's is looked up
  have hread : ∀ l : List Pool, (∀ p ∈ l, p = pool ∨ p.getPoolId ≠ pool.getPoolId ∧
      market.pools.lookup p.getPoolId = some p) →
      l = (l.map Pool.getPoolId).map fun id =>
        if id = pool.getPoolId then pool else (market.pools.lookup id).getD pool := by
    intro l hl
    rw [List.map_map]
    refine (List.map_id l).symm.trans (List.map_congr_left fun p hp => ?_)
    dsimp only [id, Function.comp_apply]
    rcases hl p hp with rfl | ⟨hne, hlookup⟩
    · rw [if_pos rfl]
    · rw [if_neg hne, hlookup, Option.getD_some]
  obtain ⟨htokens, hids⟩ := Prod.mk.inj hkey
  dsimp only [pathOf] at htokens hids
  rw [haddresses, haddresses] at htokens
  rw [htokens, hread pools hpools, hread pools' hpools', hids]

lemma SwapPathBuilder.Found.ownPath {pool : Pool} {a b : Address} {path : SwapPath}
    (hfound : Found market pool a b path) : OwnPath market pool path := by
  cases hfound with
  | twoOut loop hb he hg hd =>
      have hne := (nodup_ids_pair _ _).mp hd
      refine ⟨_, _, rfl, List.forall_mem_cons.mpr ⟨Or.inr ⟨hne, hg.1.1⟩, ?_⟩⟩
      exact List.forall_mem_singleton.mpr (Or.inl rfl)
  | threeOut m p q hb he hr hp hq hd =>
      obtain ⟨-, hppool, hqpool⟩ := (nodup_ids_triple _ _ _).mp hd
      refine ⟨_, _, rfl, List.forall_mem_cons.mpr ⟨Or.inr ⟨hppool, hp.1.1⟩, ?_⟩⟩
      refine List.forall_mem_cons.mpr ⟨Or.inr ⟨hqpool, hq.1.1⟩, ?_⟩
      exact List.forall_mem_singleton.mpr (Or.inl rfl)
  | twoIn loop ha hg hd =>
      have hne := (nodup_ids_pair _ _).mp hd
      refine ⟨_, _, rfl, List.forall_mem_cons.mpr ⟨Or.inl rfl, ?_⟩⟩
      exact List.forall_mem_singleton.mpr (Or.inr ⟨hne.symm, hg.1.1⟩)
  | threeIn m p q ha he hp hq hd =>
      obtain ⟨hpoolp, hpoolq, -⟩ := (nodup_ids_triple _ _ _).mp hd
      refine ⟨_, _, rfl, List.forall_mem_cons.mpr ⟨Or.inl rfl, ?_⟩⟩
      refine List.forall_mem_cons.mpr ⟨Or.inr ⟨hpoolp.symm, hp.1.1⟩, ?_⟩
      exact List.forall_mem_singleton.mpr (Or.inr ⟨hpoolq.symm, hq.1.1⟩)
  | middle t p q ht hr hp hq hd =>
      obtain ⟨hppool, -, hpoolq⟩ := (nodup_ids_triple _ _ _).mp hd
      refine ⟨_, _, rfl, List.forall_mem_cons.mpr ⟨Or.inr ⟨hppool, hp.1.1⟩, ?_⟩⟩
      refine List.forall_mem_cons.mpr ⟨Or.inl rfl, ?_⟩
      exact List.forall_mem_singleton.mpr (Or.inr ⟨hpoolq.symm, hq.1.1⟩)

/-- **What is built for one pool**, whatever the market and the pool. -/
lemma buildSwapPathVec_single (h : market.Indexed) (entry : Pool × List SwapDirection) :
    ∃ paths, buildSwapPathVec market [entry] = .ok paths ∧ ∀ path, path ∈ paths ↔
      ∃ direction ∈ entry.2, Found market entry.1 direction.tokenFrom direction.tokenTo path := by
  have hkey : ∀ path path', OwnPath market entry.1 path → OwnPath market entry.1 path' →
      path.key = path'.key → path = path' := fun _ _ hpath hpath' => hpath.eq_of_key h hpath'
  have hloop := KeyedSet.Adds.foldlM (l := [entry]) fun x hx =>
    KeyedSet.Adds.foldlM (l := x.2) fun direction _ =>
      adds_extendDirection h hkey x.1 direction fun _ hpath =>
        List.mem_singleton.mp hx ▸ hpath.ownPath
  obtain ⟨set, hset, hmem⟩ := hloop.adds KeyedSet.empty fun x hx => absurd hx List.not_mem_nil
  refine ⟨set.elems, congrArg (Except.map fun s : SwapPathSet => s.elems) hset,
    fun path => (hmem path).trans ?_⟩
  refine (or_iff_right List.not_mem_nil).trans ?_
  simp only [List.mem_singleton, exists_eq_left]

/-- In a reversible market the early exits lose nothing: what is found through a direction of one
of its pools are the cycles with that hop whose other pools are of a known class. -/
lemma found_iff_of_reversible (h : market.Reversible) {pool : Pool} {a b : Address}
    (hpool : market.Swaps pool a b) (path : SwapPath) :
    Found market pool a b path ↔
      (market.IsCycle path ∧ (pool, (⟨a, b⟩ : SwapDirection)) ∈ path.hops) ∧
        path.OthersKnown pool := by
  have hindexed := h.toIndexed
  rw [isCycle_and_hop_iff hindexed]
  constructor
  · intro hfound
    cases hfound with
    | twoOut loop hb he hg hd =>
        have hpath : market.TwoHops b a loop pool _ := ⟨hg.1, hpool, hd, rfl⟩
        exact ⟨Or.inl (Or.inl (Or.inl (Or.inl ⟨hb, loop, hpath⟩))),
          hpath.othersKnown_second.mpr hg.2⟩
    | threeOut m p q hb he hr hp hq hd =>
        have hpath : market.ThreeHops b m a p q pool _ := ⟨hp.1, hq.1, hpool, hd, rfl⟩
        exact ⟨Or.inl (Or.inl (Or.inl (Or.inr ⟨hb, m, p, q, hpath⟩))),
          hpath.othersKnown_third.mpr ⟨hp.2, hq.2⟩⟩
    | twoIn loop ha hg hd =>
        have hpath : market.TwoHops a b pool loop _ := ⟨hpool, hg.1, hd, rfl⟩
        exact ⟨Or.inl (Or.inl (Or.inr ⟨ha, loop, hpath⟩)), hpath.othersKnown_first.mpr hg.2⟩
    | threeIn m p q ha he hp hq hd =>
        have hpath : market.ThreeHops a b m pool p q _ := ⟨hpool, hp.1, hq.1, hd, rfl⟩
        exact ⟨Or.inl (Or.inr ⟨ha, m, p, q, hpath⟩), hpath.othersKnown_first.mpr ⟨hp.2, hq.2⟩⟩
    | middle t p q ht hr hp hq hd =>
        have hpath : market.ThreeHops t a b p pool q _ := ⟨hp.1, hpool, hq.1, hd, rfl⟩
        exact ⟨Or.inr ⟨t, p, q, ht, hpath⟩, hpath.othersKnown_second.mpr ⟨hp.2, hq.2⟩⟩
  · -- two different pools of the cycle swap from each of the tokens that an exit looks at
    have hexit : ∀ {p q : Pool} {x y z : Address}, market.Swaps p y x → market.Swaps q x z →
        p.getPoolId ≠ q.getPoolId → 2 ≤ market.getTokenPoolsLen x := fun hp hq hne =>
      two_le_getTokenPoolsLen hindexed (swaps_symm h hp) hq hne
    rintro ⟨(((⟨hb, loop, hpath⟩ | ⟨hb, m, p, q, hpath⟩) | ⟨ha, loop, hpath⟩) |
      ⟨ha, m, p, q, hpath⟩) | ⟨t, p, q, ht, hpath⟩, hothers⟩
    · have hknown := hpath.othersKnown_second.mp hothers
      obtain ⟨hloop, -, hd, rfl⟩ := hpath
      exact .twoOut loop hb (hexit hloop hpool ((nodup_ids_pair _ _).mp hd)) ⟨hloop, hknown⟩ hd
    · obtain ⟨hknown, hknown'⟩ := hpath.othersKnown_third.mp hothers
      obtain ⟨hp, hq, -, hd, rfl⟩ := hpath
      obtain ⟨hpq, -, hqpool⟩ := (nodup_ids_triple _ _ _).mp hd
      exact .threeOut m p q hb ⟨hexit hq hpool hqpool, hexit hp hq hpq⟩ ⟨q, swaps_symm h hq⟩
        ⟨hp, hknown⟩ ⟨hq, hknown'⟩ hd
    · have hknown := hpath.othersKnown_first.mp hothers
      obtain ⟨-, hloop, hd, rfl⟩ := hpath
      exact .twoIn loop ha ⟨hloop, hknown⟩ hd
    · obtain ⟨hknown, hknown'⟩ := hpath.othersKnown_first.mp hothers
      obtain ⟨-, hp, hq, hd, rfl⟩ := hpath
      obtain ⟨hpool1, -, hpq⟩ := (nodup_ids_triple _ _ _).mp hd
      exact .threeIn m p q ha ⟨hexit hpool hp hpool1, hexit hp hq hpq⟩ ⟨hp, hknown⟩
        ⟨hq, hknown'⟩ hd
    · obtain ⟨hknown, hknown'⟩ := hpath.othersKnown_second.mp hothers
      obtain ⟨hp, -, hq, hd, rfl⟩ := hpath
      exact .middle t p q ht ⟨p, swaps_symm h hp⟩ ⟨hp, hknown⟩ ⟨hq, hknown'⟩ hd

/-- The builder collects the cycles through a given direction whose pools, the one of that
direction apart, are of a known class. -/
lemma buildSwapPathVec_of_reversible (h : market.Reversible)
    (directions : List (Pool × List SwapDirection))
    (hdirections : ∀ entry ∈ directions, market.pools.lookup entry.1.getPoolId = some entry.1 ∧
      ∀ direction ∈ entry.2, direction ∈ entry.1.getSwapDirections) :
    ∃ paths, buildSwapPathVec market directions = .ok paths ∧ (paths.map SwapPath.key).Nodup ∧
      ∀ path, path ∈ paths ↔ ∃ entry ∈ directions, ∃ direction ∈ entry.2,
        (market.IsCycle path ∧ (entry.1, direction) ∈ path.hops) ∧ path.OthersKnown entry.1 := by
  have hloop := KeyedSet.Adds.foldlM (l := directions) fun entry hentry =>
    KeyedSet.Adds.foldlM (l := entry.2) fun direction hdirection =>
      have hpool : market.Swaps entry.1 direction.tokenFrom direction.tokenTo :=
        ⟨(hdirections entry hentry).1, (hdirections entry hentry).2 direction hdirection⟩
      have hfound := found_iff_of_reversible h hpool
      (adds_extendDirection h.toIndexed (fun _ _ hpath hpath' => hpath.eq_of_key hpath') entry.1
        direction fun path hpath => ((hfound path).mp hpath).1.1).congr hfound
  obtain ⟨set, hset, hmem⟩ := hloop.adds KeyedSet.empty fun x hx => absurd hx List.not_mem_nil
  refine ⟨set.elems, congrArg (Except.map fun s : SwapPathSet => s.elems) hset, set.nodup,
    fun path => (hmem path).trans ?_⟩
  exact or_iff_right List.not_mem_nil

/-- **Path building is exact.**  For directions of the pools of a market that calls have built,
whose pools swap in both directions and are of a known class, the paths are the market's cycles
through a given direction, each once. -/
theorem buildSwapPathVec_exact (calls : List Market.Call)
    (directions : List (Pool × List SwapDirection))
    (hsymmetric : ∀ id pool, (Market.run calls).pools.lookup id = some pool → pool.Symmetric)
    (hknown : ∀ id pool, (Market.run calls).pools.lookup id = some pool →
      pool.getClass ≠ .unknown)
    (hdirections : ∀ entry ∈ directions,
      (Market.run calls).pools.lookup entry.1.getPoolId = some entry.1 ∧
        ∀ direction ∈ entry.2, direction ∈ entry.1.getSwapDirections) :
    ∃ paths, buildSwapPathVec (Market.run calls) directions = .ok paths ∧
      (paths.map SwapPath.key).Nodup ∧
      ∀ path, path ∈ paths ↔ (Market.run calls).IsCycle path ∧ path.Through directions := by
  have h : (Market.run calls).Regular := ⟨indexed_run calls, hsymmetric, hknown⟩
  obtain ⟨paths, hbuilt, hnodup, hmem⟩ := buildSwapPathVec_of_reversible h.reversible _
    hdirections
  refine ⟨paths, hbuilt, hnodup, fun path => (hmem path).trans ?_⟩
  constructor
  · rintro ⟨entry, hentry, direction, hdirection, ⟨hcycle, hhop⟩, -⟩
    exact ⟨hcycle, (entry.1, direction), hhop, entry, hentry, rfl, hdirection⟩
  · rintro ⟨hcycle, ⟨pool, direction⟩, hhop, entry, hentry, rfl, hdirection⟩
    exact ⟨entry, hentry, direction, hdirection, ⟨hcycle, hhop⟩,
      fun p hp _ => h.known _ p (hcycle.pools p hp)⟩

/-! ### Three pools in a triangle -/

section Triangle

def pairPool (id a b : Address) : Pool where
  getClass := .uniswapV2
  getAddress := .address id
  getPoolId := .address id
  getTokens := [a, b]
  getSwapDirections := [⟨a, b⟩, ⟨b, a⟩]
  getReadOnlyCellVec := []
  getStateRequired := .ok ⟨[], [], []⟩

lemma pairPool_symmetric (id a b : Address) : (pairPool id a b).Symmetric := by
  have hback : ∀ x y : Address, (⟨x, y⟩ : SwapDirection) ∈ [⟨a, b⟩, ⟨b, a⟩] →
      (⟨y, x⟩ : SwapDirection) ∈ [⟨a, b⟩, ⟨b, a⟩] := by
    simp only [List.mem_pair, SwapDirection.mk.injEq]
    rintro x y (⟨rfl, rfl⟩ | ⟨rfl, rfl⟩)
    · exact Or.inr ⟨rfl, rfl⟩
    · exact Or.inl ⟨rfl, rfl⟩
  exact fun x y => ⟨hback x y, hback y x⟩

/-- A basic token, and pools between it and two others. -/
def triangleCalls : List Market.Call :=
  [.addToken (Token.newWithData 1 true), .addPool (pairPool 12 1 2), .addPool (pairPool 23 2 3),
    .addPool (pairPool 31 3 1)]

/-- The pool that does not have the basic token, in both directions. -/
def farDirections : List (Pool × List SwapDirection) := [(pairPool 23 2 3, [⟨2, 3⟩, ⟨3, 2⟩])]

lemma triangle_pools {id : PoolId} {pool : Pool}
    (h : (Market.run triangleCalls).pools.lookup id = some pool) :
    pool = pairPool 31 3 1 ∨ pool = pairPool 23 2 3 ∨ pool = pairPool 12 1 2 := by
  have hpools : (Market.run triangleCalls).pools = (((∅ : AssocMap PoolId Pool).insert
      (.address 12) (pairPool 12 1 2)).insert (.address 23) (pairPool 23 2 3)).insert (.address 31)
      (pairPool 31 3 1) := rfl
  rw [hpools, AssocMap.lookup_insert_eq, AssocMap.lookup_insert_eq, AssocMap.lookup_insert_eq] at h
  split_ifs at h
  · exact Or.inl (Option.some.inj h).symm
  · exact Or.inr (Or.inl (Option.some.inj h).symm)
  · exact Or.inr (Or.inr (Option.some.inj h).symm)
  · simp at h

/-- The triangle is found both ways round. -/
theorem triangle_paths :
    (buildSwapPathVec (Market.run triangleCalls) farDirections).map (·.map SwapPath.key) =
        .ok [([1, 2, 3, 1], [.address 12, .address 23, .address 31]),
          ([1, 3, 2, 1], [.address 31, .address 23, .address 12])] ∧
      ∃ paths, buildSwapPathVec (Market.run triangleCalls) farDirections = .ok paths ∧
        (paths.map SwapPath.key).Nodup ∧
        ∀ path, path ∈ paths ↔
          (Market.run triangleCalls).IsCycle path ∧ path.Through farDirections := by
  refine ⟨rfl, buildSwapPathVec_exact triangleCalls farDirections (fun id pool hpool => ?_)
    (fun id pool hpool => ?_) (fun entry hentry => ?_)⟩
  · rcases triangle_pools hpool with rfl | rfl | rfl
    all_goals exact pairPool_symmetric _ _ _
  · rcases triangle_pools hpool with rfl | rfl | rfl
    all_goals exact PoolClass.noConfusion
  · rw [List.mem_singleton.mp hentry]
    exact ⟨rfl, fun direction hdirection => hdirection⟩

end Triangle

end Kabu
