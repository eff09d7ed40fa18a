import Kabu.Defi.LogsParser

/-!
# Every pool in the logs is requested

A pool that is found in a batch of logs should be requested once, with the class from the first log
that it is found in.  What is requested is what each contract announces first, so this holds if each
pool is what one contract announces first, and only one (`requests_each_iff`).  It holds for pools
with contracts of their own.  Of the pools of a shared contract only the first is requested.
-/

namespace Kabu

namespace LogsParser

variable (loaders : PoolLoaders) (logEntries : List Log)

/-- The class from the first log in which the pool is found. -/
def firstClass (id : PoolId) : Option PoolClass :=
  ((announcements loaders logEntries).find? fun entry => decide (entry.pool.1 = id)).map
    fun entry => entry.pool.2

/-- The pool in the first log of the contract in which there is one. -/
def firstOf (contract : Address) : Option (PoolId × PoolClass) :=
  ((announcements loaders logEntries).find? fun entry => decide (entry.contract = contract)).map
    Announcement.pool

/-- Each pool is requested once, with the class from its first log. -/
def RequestsEach : Prop :=
  ∀ id poolClass, firstClass loaders logEntries id = some poolClass →
    (processLogEntries loaders logEntries).filter (fun pool => decide (pool.1 = id)) =
      [(id, poolClass)]

/-- Each pool is what one contract announces first, and only one. -/
structure AnnouncedFirst : Prop where
  some_contract : ∀ id poolClass, firstClass loaders logEntries id = some poolClass →
    ∃ contract, firstOf loaders logEntries contract = some (id, poolClass)
  one_contract : ∀ contract contract' id poolClass poolClass',
    firstOf loaders logEntries contract = some (id, poolClass) →
    firstOf loaders logEntries contract' = some (id, poolClass') → contract = contract'

variable {loaders logEntries}

lemma mem_kept_iff (entry : Announcement) :
    entry ∈ ((KeyedSet.empty : KeyedSet Announcement.contract).extend
      (announcements loaders logEntries)).elems ↔
      firstOf loaders logEntries entry.contract = some entry.pool := by
  rw [KeyedSet.mem_extend_empty_iff]
  unfold firstOf
  rw [Option.map_eq_some_iff]
  constructor
  · exact fun h => ⟨entry, h, rfl⟩
  · rintro ⟨first, hfirst, hpool⟩
    have hcontract : first.contract = entry.contract := by simpa using List.find?_some hfirst
    have hsame : first = entry := by
      cases first
      cases entry
      cases hcontract
      cases hpool
      rfl
    exact hsame ▸ hfirst

lemma mem_processLogEntries_iff (pool : PoolId × PoolClass) :
    pool ∈ processLogEntries loaders logEntries ↔
      ∃ contract, firstOf loaders logEntries contract = some pool := by
  rw [processLogEntries_eq, List.mem_map]
  constructor
  · rintro ⟨entry, hentry, rfl⟩
    exact ⟨entry.contract, (mem_kept_iff entry).mp hentry⟩
  · rintro ⟨contract, hfirst⟩
    exact ⟨⟨contract, pool⟩, (mem_kept_iff ⟨contract, pool⟩).mpr hfirst, rfl⟩

/-- A pool is requested twice if two contracts announce it first. -/
lemma nodup_processLogEntries_iff :
    ((processLogEntries loaders logEntries).map Prod.fst).Nodup ↔
      ∀ contract contract' id poolClass poolClass',
        firstOf loaders logEntries contract = some (id, poolClass) →
        firstOf loaders logEntries contract' = some (id, poolClass') → contract = contract' := by
  rw [processLogEntries_eq, List.map_map,
    List.nodup_map_iff_inj_on (List.Nodup.of_map _ (KeyedSet.nodup _))]
  constructor
  · intro h contract contract' id poolClass poolClass' hfirst hfirst'
    have hsame := h ⟨contract, id, poolClass⟩ ((mem_kept_iff _).mpr hfirst)
      ⟨contract', id, poolClass'⟩ ((mem_kept_iff _).mpr hfirst') rfl
    exact congrArg Announcement.contract hsame
  · intro h entry hentry entry' hentry' hid
    have hfirst := (mem_kept_iff entry).mp hentry
    have hfirst' := (mem_kept_iff entry').mp hentry'
    have hid' : entry.pool.1 = entry'.pool.1 := hid
    have hcontract := h entry.contract entry'.contract entry.pool.1 entry.pool.2 entry'.pool.2
      hfirst (by rw [hid']; exact hfirst')
    rw [hcontract, hfirst'] at hfirst
    have hpool := Option.some.inj hfirst
    cases entry
    cases entry'
    cases hcontract
    cases hpool
    rfl

lemma exists_firstClass {pool : PoolId × PoolClass}
    (h : pool ∈ processLogEntries loaders logEntries) :
    ∃ poolClass, firstClass loaders logEntries pool.1 = some poolClass := by
  obtain ⟨contract, hfirst⟩ := (mem_processLogEntries_iff pool).mp h
  obtain ⟨entry, hentry, rfl⟩ := Option.map_eq_some_iff.mp hfirst
  have hmem := List.mem_of_find?_eq_some hentry
  unfold firstClass
  cases hfind : (announcements loaders logEntries).find? fun e => decide (e.pool.1 = entry.pool.1)
    with
  | none => exact absurd (decide_eq_true rfl) (List.find?_eq_none.mp hfind entry hmem)
  | some first => exact ⟨first.pool.2, rfl⟩

/-- **Requested pools.** -/
theorem requests_each_iff (loaders : PoolLoaders) (logEntries : List Log) :
    RequestsEach loaders logEntries ↔ AnnouncedFirst loaders logEntries := by
  constructor
  · intro h
    refine ⟨fun id poolClass hclass => ?_, nodup_processLogEntries_iff.mp ?_⟩
    · have hmem : (id, poolClass) ∈ (processLogEntries loaders logEntries).filter
          (fun pool => decide (pool.1 = id)) := h id poolClass hclass ▸ List.mem_singleton_self _
      exact (mem_processLogEntries_iff _).mp (List.mem_filter.mp hmem).1
    · refine List.nodup_iff_count_eq_one.mpr fun id hid => ?_
      obtain ⟨pool, hpool, rfl⟩ := List.mem_map.mp hid
      obtain ⟨poolClass, hclass⟩ := exists_firstClass hpool
      rw [List.count_eq_countP, List.countP_map, List.countP_eq_length_filter]
      have hone := congrArg List.length (h pool.1 poolClass hclass)
      exact hone
  · intro h id poolClass hclass
    have hnodup := nodup_processLogEntries_iff.mpr h.one_contract
    have hmem : (id, poolClass) ∈ processLogEntries loaders logEntries :=
      (mem_processLogEntries_iff _).mpr (h.some_contract id poolClass hclass)
    exact KeyedSet.filter_eq_singleton hnodup hmem

/-- A loader for the pools of a shared contract, whose logs have the pool's id as a topic. -/
def managerLoaders : PoolLoaders where
  map := (∅ : AssocMap PoolClass (Log → Option (PoolId × PoolClass))).insert .uniswapV4
    fun logEntry => logEntry.topics[1]?.map fun id => (.b256 id, .uniswapV4)

/-- Of two pools of one contract the second is not requested. -/
theorem second_pool_not_requested :
    firstClass managerLoaders [⟨7, [1, 20], []⟩, ⟨7, [1, 21], []⟩] (.b256 21) = some .uniswapV4 ∧
      processLogEntries managerLoaders [⟨7, [1, 20], []⟩, ⟨7, [1, 21], []⟩] =
        [(.b256 20, .uniswapV4)] :=
  ⟨rfl, rfl⟩

end LogsParser

end Kabu
