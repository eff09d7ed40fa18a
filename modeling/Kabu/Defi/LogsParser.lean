import Kabu.Framework.KeyedSet
import Kabu.Market.Pool

/-!
# Pools in logs

A pool makes itself known by the logs of its contract.  The loaders say which pool a log is of, and
of which class, and the pools that were found in a batch of logs are sent on to be fetched.

No pool is to be sent twice, so the source notes what it has sent.  What it notes are the contracts
and not the pools: `processLogEntries_eq` says that what is sent is what each contract announces
first.
-/

namespace Kabu

/-- The loaders, by the class they are for. -/
structure PoolLoaders where
  map : AssocMap PoolClass (Log → Option (PoolId × PoolClass))

/-- The first loader to recognise the log. -/
def PoolLoaders.determinePoolClass (loaders : PoolLoaders) (logEntry : Log) :
    Option (PoolId × PoolClass) :=
  loaders.map.values.findSome? fun getPoolClassByLog => getPoolClassByLog logEntry

namespace LogsParser

structure Progress where
  poolToFetch : List (PoolId × PoolClass)
  processedPools : AssocMap Address Bool

variable (loaders : PoolLoaders)

def processLogEntry (progress : Progress) (logEntry : Log) : Progress :=
  match loaders.determinePoolClass logEntry with
  | none => progress
  | some pool =>
      { poolToFetch := if (progress.processedPools.lookup logEntry.address).isSome
          then progress.poolToFetch else progress.poolToFetch ++ [pool]
        processedPools := progress.processedPools.insert logEntry.address true }

/-- The list that is sent. -/
def processLogEntries (logEntries : List Log) : List (PoolId × PoolClass) :=
  (logEntries.foldl (processLogEntry loaders) ⟨[], ∅⟩).poolToFetch

/-! ## Announcements -/

/-- A pool that is found in a log, with the contract that the log is from. -/
structure Announcement where
  contract : Address
  pool : PoolId × PoolClass
  deriving DecidableEq, Repr

def announcement (logEntry : Log) : Option Announcement :=
  (loaders.determinePoolClass logEntry).map fun pool => ⟨logEntry.address, pool⟩

def announcements (logEntries : List Log) : List Announcement :=
  logEntries.filterMap (announcement loaders)

/-- What the source keeps is what it has sent and the contracts of that. -/
structure Keeps (progress : Progress) (kept : KeyedSet Announcement.contract) : Prop where
  sent : progress.poolToFetch = kept.elems.map Announcement.pool
  processed : ∀ a,
    (progress.processedPools.lookup a).isSome = true ↔ a ∈ kept.elems.map Announcement.contract

lemma Keeps.processLogEntry {progress : Progress} {kept : KeyedSet Announcement.contract}
    (h : Keeps progress kept) (logEntry : Log) :
    Keeps (processLogEntry loaders progress logEntry)
      (kept.extend (announcement loaders logEntry).toList) := by
  unfold LogsParser.processLogEntry announcement
  cases loaders.determinePoolClass logEntry with
  | none => exact h
  | some pool =>
      refine ⟨?_, fun a => ?_⟩
      · show (if (progress.processedPools.lookup logEntry.address).isSome
            then progress.poolToFetch else progress.poolToFetch ++ [pool]) =
          (kept.insert ⟨logEntry.address, pool⟩).elems.map Announcement.pool
        by_cases hmem : logEntry.address ∈ kept.elems.map Announcement.contract
        · rw [if_pos ((h.processed _).mpr hmem), h.sent, KeyedSet.insert, dif_pos hmem]
        · rw [if_neg fun hsome => hmem ((h.processed _).mp hsome), h.sent, KeyedSet.insert,
            dif_neg hmem, List.map_append, List.map_singleton]
      · show ((progress.processedPools.insert logEntry.address true).lookup a).isSome = true ↔
          a ∈ (kept.insert ⟨logEntry.address, pool⟩).elems.map Announcement.contract
        rw [KeyedSet.mem_keys_insert, ← h.processed a, AssocMap.lookup_insert_eq]
        by_cases ha : a = logEntry.address
        · simp [ha]
        · simp [ha]

/-- **What is sent** is what each contract announces first. -/
lemma processLogEntries_eq (logEntries : List Log) :
    processLogEntries loaders logEntries =
      ((KeyedSet.empty : KeyedSet Announcement.contract).extend
        (announcements loaders logEntries)).elems.map Announcement.pool := by
  have hrun : ∀ (progress : Progress) (kept : KeyedSet Announcement.contract),
      Keeps progress kept →
        Keeps (logEntries.foldl (processLogEntry loaders) progress)
          (kept.extend (announcements loaders logEntries)) := by
    induction logEntries with
    | nil => exact fun _ _ h => h
    | cons logEntry logEntries ih =>
        intro progress kept h
        have hrest := ih _ _ (h.processLogEntry loaders logEntry)
        have happend : announcements loaders (logEntry :: logEntries) =
            (announcement loaders logEntry).toList ++ announcements loaders logEntries := by
          unfold announcements
          rw [List.filterMap_cons]
          cases announcement loaders logEntry <;> rfl
        rw [happend]
        unfold KeyedSet.extend at hrest ⊢
        rw [List.foldl_append]
        exact hrest
  exact (hrun ⟨[], ∅⟩ KeyedSet.empty ⟨rfl, fun a => by simp [KeyedSet.empty]⟩).sent

end LogsParser

end Kabu
