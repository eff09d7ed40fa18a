import Kabu.Broadcast.AccountMonitor
import Kabu.Framework.Runs

/-!
# The tracked nonce never goes back

A block only raises the nonce of an account, above the nonces of its transactions in the block.  An
answer of the provider replaces the nonce, whatever it is, and by the time it is written it may be
older than what the blocks have brought.  `nonce_never_back_iff` says that this is the only way for
a nonce to go back, and for the router to use one again: both never happen, in any run, exactly if
no answer is less than the nonce that it replaces (`NotStale`).
-/

namespace Kabu

open Runs

namespace AccountMonitor

/-! ## Nonces after an update -/

section Nonces

variable {state : AccountNonceAndBalanceState}

lemma composeNonce_modifyAccount (account a : Address)
    {write : AccountNonceAndBalances → AccountNonceAndBalances} {f : UInt64 → UInt64}
    (hwrite : ∀ data, (write data).nonce = f data.nonce) :
    composeNonce (state.modifyAccount account write) a =
      if a = account then (composeNonce state a).map f else composeNonce state a := by
  unfold composeNonce
  rw [AccountNonceAndBalanceState.getAccount_modifyAccount]
  by_cases ha : a = account
  · rw [if_pos ha, if_pos ha, Option.map_map, Option.map_map]
    congr 1
    exact funext hwrite
  · rw [if_neg ha, if_neg ha]

lemma composeNonce_modifyAccount_same (account : Address)
    {write : AccountNonceAndBalances → AccountNonceAndBalances}
    (hwrite : ∀ data, (write data).nonce = data.nonce) :
    composeNonce (state.modifyAccount account write) = composeNonce state := by
  funext a
  rw [composeNonce_modifyAccount account a (f := id) hwrite, Option.map_id]
  exact ite_self _

/-- What a transaction does to the nonce of its account. -/
def raise (txNonce nonce : UInt64) : UInt64 := if nonce ≤ txNonce then txNonce + 1 else nonce

lemma composeNonce_updateNonce (tx : MonitoredTx) (a : Address) :
    composeNonce (updateNonce state tx) a =
      if a = tx.sender then (composeNonce state a).map (raise tx.nonce)
      else composeNonce state a := by
  unfold updateNonce
  by_cases hmonitored : state.isMonitored tx.sender = true
  · rw [if_pos hmonitored]
    refine composeNonce_modifyAccount tx.sender a fun data => ?_
    unfold raise
    split <;> rfl
  · rw [if_neg hmonitored]
    by_cases ha : a = tx.sender
    · have hnone : state.getAccount a = none := by
        rw [ha]
        exact Option.not_isSome_iff_eq_none.mp hmonitored
      rw [if_pos ha]
      unfold composeNonce
      rw [hnone]
      rfl
    · rw [if_neg ha]

lemma composeNonce_refreshNonce (account a : Address) (nonce : UInt64) :
    composeNonce (refreshNonce state account nonce) a =
      if a = account then (composeNonce state a).map fun _ => nonce else composeNonce state a := by
  refine composeNonce_modifyAccount account a fun data => ?_
  by_cases h : nonce = data.nonce
  · rw [if_neg (not_not.mpr h)]
    exact h.symm
  · rw [if_pos h]
    rfl

lemma composeNonce_refreshBalance (account : Address) (balance : U256) :
    composeNonce (refreshBalance state account balance) = composeNonce state := by
  refine composeNonce_modifyAccount_same account fun data => ?_
  split <;> rfl

lemma composeNonce_applyTransfer (transfer : Transfer) :
    composeNonce (applyTransfer state transfer) = composeNonce state := by
  have hif : ∀ (state : AccountNonceAndBalanceState) (account : Address)
      (write : AccountNonceAndBalances → AccountNonceAndBalances),
      (∀ data, (write data).nonce = data.nonce) →
      composeNonce (if state.isMonitored account then state.modifyAccount account write
        else state) = composeNonce state := by
    intro state account write hwrite
    split
    · exact composeNonce_modifyAccount_same account hwrite
    · rfl
  have hsub := hif state transfer.sender
    (fun data => data.subBalance transfer.token transfer.amount) fun _ => rfl
  exact (hif _ transfer.receiver (fun data => data.addBalance transfer.token transfer.amount)
    fun _ => rfl).trans hsub

lemma composeNonce_updateBalancesFromLogs [Keccak] (logs : List Log) :
    composeNonce (updateBalancesFromLogs state logs) = composeNonce state := by
  unfold updateBalancesFromLogs
  induction logs generalizing state with
  | nil => rfl
  | cons log logs ih =>
      rw [List.foldl_cons, ih]
      cases decodeTransfer log with
      | none => rfl
      | some transfer => exact composeNonce_applyTransfer transfer

end Nonces

/-! ## Blocks -/

/-- No nonce is less than before. -/
def NeverBack (before after : AccountNonceAndBalanceState) : Prop :=
  ∀ a nonce, composeNonce before a = some nonce →
    ∃ nonce', composeNonce after a = some nonce' ∧ nonce.toNat ≤ nonce'.toNat

/-- The nonces are above those of the transactions. -/
def Above (txs : List MonitoredTx) (state : AccountNonceAndBalanceState) : Prop :=
  ∀ a nonce, composeNonce state a = some nonce →
    ∀ tx ∈ txs, tx.sender = a → tx.nonce.toNat + 1 ≤ nonce.toNat

lemma NeverBack.refl (state : AccountNonceAndBalanceState) : NeverBack state state :=
  fun _ nonce h => ⟨nonce, h, le_rfl⟩

lemma NeverBack.trans {s s' s'' : AccountNonceAndBalanceState} (h : NeverBack s s')
    (h' : NeverBack s' s'') : NeverBack s s'' := by
  intro a nonce hnonce
  obtain ⟨nonce', hnonce', hle⟩ := h a nonce hnonce
  obtain ⟨nonce'', hnonce'', hle'⟩ := h' a nonce' hnonce'
  exact ⟨nonce'', hnonce'', hle.trans hle'⟩

lemma neverBack_of_eq {s s' : AccountNonceAndBalanceState} (h : composeNonce s' = composeNonce s) :
    NeverBack s s' :=
  fun a nonce hnonce => ⟨nonce, by rw [h]; exact hnonce, le_rfl⟩

lemma raise_spec {txNonce : UInt64} (hlast : txNonce.toNat + 1 < 2 ^ 64) (nonce : UInt64) :
    nonce.toNat ≤ (raise txNonce nonce).toNat ∧
      txNonce.toNat + 1 ≤ (raise txNonce nonce).toNat := by
  have hsucc : (txNonce + 1).toNat = txNonce.toNat + 1 := by
    rw [UInt64.toNat_add]
    exact Nat.mod_eq_of_lt hlast
  unfold raise
  by_cases h : nonce ≤ txNonce
  · rw [if_pos h, hsucc]
    have hle := UInt64.le_iff_toNat_le.mp h
    omega
  · rw [if_neg h]
    have hlt := UInt64.lt_iff_toNat_lt.mp (UInt64.not_le.mp h)
    omega

/-- **One transaction** raises the nonce of its account above its own. -/
lemma updateNonce_spec {txs : List MonitoredTx} {state : AccountNonceAndBalanceState}
    (h : Above txs state) {tx : MonitoredTx} (hlast : tx.nonce.toNat + 1 < 2 ^ 64) :
    NeverBack state (updateNonce state tx) ∧ Above (txs ++ [tx]) (updateNonce state tx) := by
  have hsender : ∀ nonce, composeNonce state tx.sender = some nonce →
      composeNonce (updateNonce state tx) tx.sender = some (raise tx.nonce nonce) := by
    intro nonce hnonce
    rw [composeNonce_updateNonce, if_pos rfl, hnonce]
    rfl
  have hother : ∀ a, a ≠ tx.sender →
      composeNonce (updateNonce state tx) a = composeNonce state a := by
    intro a ha
    rw [composeNonce_updateNonce, if_neg ha]
  constructor
  · intro a nonce hnonce
    by_cases ha : a = tx.sender
    · subst ha
      exact ⟨_, hsender nonce hnonce, (raise_spec hlast nonce).1⟩
    · exact ⟨nonce, (hother a ha).trans hnonce, le_rfl⟩
  · intro a nonce' hnonce' tx' htx' ha'
    by_cases ha : a = tx.sender
    · subst ha
      cases hnonce : composeNonce state tx.sender with
      | none =>
          rw [composeNonce_updateNonce, if_pos rfl, hnonce] at hnonce'
          simp at hnonce'
      | some nonce =>
          cases Option.some.inj (hnonce'.symm.trans (hsender nonce hnonce))
          obtain ⟨hraised, habove⟩ := raise_spec hlast nonce
          rcases List.mem_append.mp htx' with hold | hnew
          · exact (h _ nonce hnonce tx' hold ha').trans hraised
          · cases List.mem_singleton.mp hnew
            exact habove
    · rw [hother a ha] at hnonce'
      rcases List.mem_append.mp htx' with hold | hnew
      · exact h a nonce' hnonce' tx' hold ha'
      · cases List.mem_singleton.mp hnew
        exact absurd ha'.symm ha

/-- **One block.** -/
lemma updateNoncesFromBlock_spec {txs block : List MonitoredTx}
    {state : AccountNonceAndBalanceState} (h : Above txs state)
    (hlast : ∀ tx ∈ block, tx.nonce.toNat + 1 < 2 ^ 64) :
    NeverBack state (updateNoncesFromBlock state block) ∧
      Above (txs ++ block) (updateNoncesFromBlock state block) := by
  induction block generalizing txs state with
  | nil =>
      rw [List.append_nil]
      exact ⟨.refl state, h⟩
  | cons tx block ih =>
      obtain ⟨htx, hblock⟩ := List.forall_mem_cons.mp hlast
      obtain ⟨hback, habove⟩ := updateNonce_spec h htx
      obtain ⟨hback', habove'⟩ := ih habove hblock
      rw [List.append_assoc] at habove'
      exact ⟨hback.trans hback', habove'⟩

/-! ## Runs -/

namespace MonitorState

/-- The router does not use the nonce of a transaction that the monitor has seen. -/
def ComposesUnused (s : MonitorState) : Prop :=
  ∀ signer nonce, composeNonce s.state signer = some nonce →
    ∀ tx ∈ s.processed, tx.sender = signer → tx.nonce ≠ nonce

/-- A step after which no nonce has gone back, and all are above what has been processed. -/
def KeepsNonces (s : MonitorState) (_ : MonitorEvent) (s' : MonitorState) : Prop :=
  NeverBack s.state s'.state ∧ Above s'.processed s'.state ∧ ComposesUnused s'

/-- An answer that is written is not less than the nonce it replaces. -/
def NotStale (s : MonitorState) (event : MonitorEvent) : Prop :=
  event = .storeNonce → ∀ account fetched nonce, s.fetched = some (account, fetched) →
    composeNonce s.state account = some nonce → nonce.toNat ≤ fetched.toNat

lemma composesUnused_of_above {s : MonitorState} (h : Above s.processed s.state) :
    ComposesUnused s := by
  rintro signer nonce hnonce tx htx hsender rfl
  have hlt := h signer tx.nonce hnonce tx htx hsender
  omega

/-- The nonces on the chain can be raised. -/
def NoncesFit (s : MonitorState) : Prop := ∀ tx ∈ s.chain.flatten, tx.nonce.toNat + 1 < 2 ^ 64

variable {s : MonitorState}

lemma lt_of_validAfter {past txs : List MonitoredTx} (h : validAfter past txs = true) :
    ∀ tx ∈ txs, tx.nonce.toNat + 1 < 2 ^ 64 := by
  induction txs generalizing past with
  | nil => exact fun _ htx => absurd htx (by simp)
  | cons tx txs ih =>
      rw [validAfter, Bool.and_eq_true, decide_eq_true_eq] at h
      exact List.forall_mem_cons.mpr ⟨h.1.2, ih h.2⟩

lemma noncesFit_step [Keccak] (h : s.NoncesFit) (event : MonitorEvent) :
    (s.step event).NoncesFit := by
  cases event with
  | mine block =>
      simp only [step]
      split
      · rename_i hvalid
        intro tx htx
        rw [show ({ s with chain := s.chain ++ [block] } : MonitorState).chain.flatten =
          s.chain.flatten ++ block by simp] at htx
        rcases List.mem_append.mp htx with hold | hnew
        · exact h tx hold
        · exact lt_of_validAfter hvalid tx hnew
      · exact h
  | handleBlock number =>
      simp only [step]
      split
      · split <;> exact h
      · exact h
  | handleLogs logs => exact h
  | fetchNonce account =>
      simp only [step]
      split <;> exact h
  | storeNonce =>
      simp only [step]
      split <;> exact h
  | storeBalance account balance => exact h

lemma keepsNonces_of_eq {s' : MonitorState} {event : MonitorEvent} (h : Above s.processed s.state)
    (hstate : composeNonce s'.state = composeNonce s.state)
    (hprocessed : s'.processed = s.processed) : KeepsNonces s event s' := by
  have habove : Above s'.processed s'.state := by
    unfold Above
    rw [hstate, hprocessed]
    exact h
  exact ⟨neverBack_of_eq hstate, habove, composesUnused_of_above habove⟩

/-- An answer that is written takes the place of the nonce. -/
lemma keepsNonces_store_iff (h : Above s.processed s.state) {account : Address} {fetched : UInt64}
    (hfetched : s.fetched = some (account, fetched)) :
    KeepsNonces s .storeNonce
        { s with fetched := none, state := refreshNonce s.state account fetched } ↔
      NotStale s .storeNonce := by
  constructor
  · rintro ⟨hback, -⟩ - account' fetched' nonce hfetched' hnonce
    cases Option.some.inj (hfetched.symm.trans hfetched')
    obtain ⟨nonce', hnonce', hle⟩ := hback account nonce hnonce
    rw [composeNonce_refreshNonce, if_pos rfl, hnonce] at hnonce'
    cases Option.some.inj hnonce'
    exact hle
  · intro hstale
    have habove : Above s.processed (refreshNonce s.state account fetched) := by
      intro a nonce' hnonce' tx htx hsender
      rw [composeNonce_refreshNonce] at hnonce'
      split at hnonce'
      · rename_i ha
        obtain ⟨nonce, hnonce, rfl⟩ := Option.map_eq_some_iff.mp hnonce'
        exact (h a nonce hnonce tx htx hsender).trans
          (hstale rfl account fetched nonce hfetched (ha ▸ hnonce))
      · exact h a nonce' hnonce' tx htx hsender
    refine ⟨fun a nonce hnonce => ?_, habove, composesUnused_of_above habove⟩
    show ∃ nonce', composeNonce (refreshNonce s.state account fetched) a = some nonce' ∧ _
    rw [composeNonce_refreshNonce, hnonce]
    by_cases ha : a = account
    · rw [if_pos ha]
      exact ⟨fetched, rfl, hstale rfl account fetched nonce hfetched (ha ▸ hnonce)⟩
    · rw [if_neg ha]
      exact ⟨nonce, rfl, le_rfl⟩

/-- **One step.** -/
lemma keepsNonces_step_iff [Keccak] (hfit : s.NoncesFit) (h : Above s.processed s.state)
    (event : MonitorEvent) : KeepsNonces s event (s.step event) ↔ NotStale s event := by
  cases event with
  | mine block =>
      refine iff_of_true ?_ fun h => absurd h (by simp)
      simp only [step]
      split <;> exact keepsNonces_of_eq h rfl rfl
  | handleBlock number =>
      refine iff_of_true ?_ fun h => absurd h (by simp)
      simp only [step]
      split
      · rename_i block hblock
        split
        · have hlast : ∀ tx ∈ block, tx.nonce.toNat + 1 < 2 ^ 64 := fun tx htx =>
            hfit tx (List.mem_flatten.mpr ⟨block, List.mem_of_getElem? hblock, htx⟩)
          obtain ⟨hback, habove⟩ := updateNoncesFromBlock_spec h hlast
          exact ⟨hback, habove, composesUnused_of_above habove⟩
        · exact keepsNonces_of_eq h rfl rfl
      · exact keepsNonces_of_eq h rfl rfl
  | handleLogs logs =>
      exact iff_of_true (keepsNonces_of_eq h (composeNonce_updateBalancesFromLogs logs) rfl)
        fun h => absurd h (by simp)
  | fetchNonce account =>
      refine iff_of_true ?_ fun h => absurd h (by simp)
      simp only [step]
      split <;> exact keepsNonces_of_eq h rfl rfl
  | storeNonce =>
      simp only [step]
      split
      · rename_i account fetched hfetched
        exact keepsNonces_store_iff h hfetched
      · rename_i hfetched
        refine iff_of_true (keepsNonces_of_eq h rfl rfl) ?_
        rintro - account fetched nonce hfetched'
        cases hfetched.symm.trans hfetched'
  | storeBalance account balance =>
      exact iff_of_true (keepsNonces_of_eq h (composeNonce_refreshBalance account balance) rfl)
        fun h => absurd h (by simp)

/-- **Nonces.** -/
theorem nonce_never_back_iff [Keccak] (chain : List (List MonitoredTx)) (nextBlock : ℕ)
    (accounts : List Address) (fails : Address → Bool)
    (getBalance : Address → Except Report U256) (hchain : validAfter [] chain.flatten = true)
    (events : List MonitorEvent) :
    EveryStep step KeepsNonces (start chain nextBlock accounts fails getBalance) events ↔
      EveryStep step (fun s event _ => NotStale s event)
        (start chain nextBlock accounts fails getBalance) events :=
  everyStep_congr_of_inv (I := fun s => s.NoncesFit ∧ Above s.processed s.state)
    (P := fun _ => True)
    (fun _ event hs _ => keepsNonces_step_iff hs.1 hs.2 event)
    (fun _ event hs _ hkeeps => ⟨noncesFit_step hs.1 event, hkeeps.2.1⟩)
    ⟨lt_of_validAfter hchain, fun _ _ _ _ htx => absurd htx (by simp [start])⟩
    fun _ _ => trivial

/-- The count is fetched, then a transaction of the account comes in with a block, and then the
count is written: the nonce of the transaction is used again. -/
theorem stale_answer_goes_back :
    letI := constKeccak
    let s := start [] 0 [7] (fun _ => false) fun _ => .ok 0
    let before := [.fetchNonce 7, .mine [⟨7, 0⟩], .handleBlock 0].foldl step s
    composeNonce before.state 7 = some 1 ∧
      composeNonce (before.step .storeNonce).state 7 = some 0 ∧
      ⟨7, 0⟩ ∈ (before.step .storeNonce).processed := by
  decide

/-- An answer that is written before the next block comes in. -/
theorem fresh_answer_kept :
    letI := constKeccak
    EveryStep step KeepsNonces (start [[⟨7, 0⟩]] 0 [7] (fun _ => true) fun _ => .ok 0)
      [.fetchNonce 7, .storeNonce, .mine [⟨7, 1⟩], .handleBlock 1] := by
  let _ := constKeccak
  refine (nonce_never_back_iff [[⟨7, 0⟩]] 0 [7] (fun _ => true) (fun _ => .ok 0) (by decide) _).mpr
    ⟨fun h => absurd h (by simp), ?_, fun h => absurd h (by simp), fun h => absurd h (by simp),
      trivial⟩
  rintro - account fetched nonce hfetched hnonce
  cases Option.some.inj hfetched
  cases Option.some.inj hnonce
  decide

end MonitorState

end AccountMonitor

end Kabu
