import Kabu.Framework.Rounds
import Kabu.Framework.ServeLoop
import Kabu.Entities.AccountNonceBalance
import Kabu.Events.BestTxCompose
import Kabu.Strategy.ArbSearcher

/-!
# The swap router

The router takes the requests that are to be prepared off the channel of swap requests, gives each
one a signer with the nonce and the balance of its account, and sends it on for estimation.  A
request may name its signer; otherwise one is drawn.

Each message is handled in a state of its own, since the signers and the accounts are shared with
other components.  `RouterTurn` is a message together with what it meets.  Sending does not fail:
the router holds a receiver of the channel it sends to.

Requests should be routed independently of each other.  They are not, since the router ends with the
first request that it cannot serve.  `routesIndependently_iff` says for which messages the
difference does not show.
-/

namespace Kabu

open ServeLoop

/-! ## Signers -/

structure TxSigner where
  address : Address
  deriving DecidableEq, Repr

/-- The signers by address, in the order in which they were added. -/
structure TxSigners where
  signers : KeyedSet TxSigner.address

namespace TxSigners

variable (self : TxSigners)

def isEmpty : Bool := self.signers.elems.isEmpty

/-- The signer at a position that is drawn. -/
def getRandomSigner (draw : ℕ) : Option TxSigner :=
  if self.isEmpty then none else self.signers.elems[draw % self.signers.elems.length]?

def getSignerByAddress (address : Address) : Except Report TxSigner :=
  match self.signers.elems.find? fun signer => signer.address = address with
  | some signer => .ok signer
  | none => .error "SIGNER_NOT_FOUND"

/-- There is a signer with the address. -/
def Knows (address : Address) : Prop := ∃ signer ∈ self.signers.elems, signer.address = address

variable {self} {address : Address} {signer : TxSigner}

lemma getSignerByAddress_ok (h : self.getSignerByAddress address = .ok signer) :
    signer ∈ self.signers.elems ∧ signer.address = address := by
  unfold getSignerByAddress at h
  split at h
  · next found hfound =>
      cases Except.ok.inj h
      exact ⟨List.mem_of_find?_eq_some hfound,
        of_decide_eq_true (List.find?_some (p := fun s : TxSigner => s.address = address) hfound)⟩
  · simp at h

lemma exists_getSignerByAddress_iff :
    (∃ signer, self.getSignerByAddress address = .ok signer) ↔ self.Knows address := by
  constructor
  · rintro ⟨signer, h⟩
    exact ⟨signer, getSignerByAddress_ok h⟩
  · rintro ⟨signer, hmem, haddress⟩
    unfold getSignerByAddress
    cases hfind : self.signers.elems.find? fun signer => signer.address = address with
    | some found => exact ⟨found, rfl⟩
    | none =>
        have hnone := List.find?_eq_none.mp hfind signer hmem
        exact absurd (decide_eq_true haddress) hnone

lemma mem_of_getRandomSigner {draw : ℕ} (h : self.getRandomSigner draw = some signer) :
    signer ∈ self.signers.elems := by
  unfold getRandomSigner at h
  split_ifs at h
  exact List.mem_of_getElem? h

lemma exists_getRandomSigner_iff {draw : ℕ} :
    (∃ signer, self.getRandomSigner draw = some signer) ↔ self.isEmpty = false := by
  unfold getRandomSigner
  cases hempty : self.isEmpty with
  | true => simp
  | false =>
      have hlen : 0 < self.signers.elems.length := by
        rw [List.length_pos_iff, ← List.isEmpty_eq_false_iff]
        exact hempty
      rw [if_neg Bool.false_ne_true]
      exact ⟨fun _ => rfl, fun _ => ⟨_, List.getElem?_eq_getElem (Nat.mod_lt draw hlen)⟩⟩

end TxSigners

/-! ## The router -/

/-- The part of a request that the router reads and writes. -/
structure RouteRequest extends SwapComposeData where
  eoa : Option Address
  signer : Option TxSigner
  nonce : UInt64
  ethBalance : U256
  nextBlockBaseFee : UInt64

inductive SwapComposeMessage
  | prepare (data : RouteRequest)
  | estimate (data : RouteRequest)
  | ready (data : RouteRequest)

/-- A message, what the router shares when it handles the message, and the draw for it. -/
structure RouterTurn where
  message : SwapComposeMessage
  signers : TxSigners
  accountNonceBalance : AccountNonceAndBalanceState
  draw : ℕ

namespace SwapRouterComponent

variable (signers : TxSigners) (accountNonceBalance : AccountNonceAndBalanceState) (draw : ℕ)

def chooseSigner (eoa : Option Address) : Except (Failure Report) TxSigner :=
  match eoa with
  | some eoa => Failure.lift (signers.getSignerByAddress eoa)
  | none =>
      match signers.getRandomSigner draw with
      | some signer => .ok signer
      | none => .error (.error "NO_SIGNER")

/-- The message that is sent on for a request. -/
def handleEncode (routeRequest : RouteRequest) : Except (Failure Report) SwapComposeMessage := do
  let signer ← chooseSigner signers draw routeRequest.eoa
  let account ← Failure.ofOption (accountNonceBalance.getAccount signer.address)
  if routeRequest.nextBlockBaseFee = 0 then .error (.error "NO_BLOCK_GAS_FEE")
  else
    return .estimate { routeRequest with
      signer := some signer
      nonce := account.nonce
      ethBalance := account.getEthBalance
      gas := routeRequest.swap.preEstimateGas * 2 }

/-- One turn of the loop: the messages that are sent, or how the loop ends. -/
def receive : Except RecvError RouterTurn → Except (Failure Report) (List SwapComposeMessage)
  | .ok ⟨.prepare swapCompose, signers, accountNonceBalance, draw⟩ =>
      (handleEncode signers accountNonceBalance draw swapCompose).map fun sent => [sent]
  | .ok _ => .ok []
  | .error _ => .error (.error "Swap compose channel closed")

def run (received : List (Except RecvError RouterTurn)) :
    List SwapComposeMessage × Except (Failure Report) Unit :=
  serve receive received

/-! ## Requests that can be served -/

section Served

variable {signers accountNonceBalance draw} {request : RouteRequest}

/-- The signer of the request can be told, and its account is monitored. -/
def SignerServes (signers : TxSigners) (accountNonceBalance : AccountNonceAndBalanceState)
    (draw : ℕ) : Option Address → Prop
  | some eoa => signers.Knows eoa ∧ accountNonceBalance.isMonitored eoa = true
  | none => ∃ signer, signers.getRandomSigner draw = some signer ∧
      accountNonceBalance.isMonitored signer.address = true

lemma chooseSigner_ok_of_some {eoa : Address} {signer : TxSigner} :
    chooseSigner signers draw (some eoa) = .ok signer ↔
      signers.getSignerByAddress eoa = .ok signer := by
  change Failure.lift (signers.getSignerByAddress eoa) = _ ↔ _
  cases signers.getSignerByAddress eoa <;> simp [Failure.lift]

lemma chooseSigner_ok_of_none {signer : TxSigner} :
    chooseSigner signers draw none = .ok signer ↔ signers.getRandomSigner draw = some signer := by
  unfold chooseSigner
  cases signers.getRandomSigner draw <;> simp

/-- The signer that is chosen is one of the signers, and the one that is named. -/
lemma chooseSigner_ok {eoa : Option Address} {signer : TxSigner}
    (h : chooseSigner signers draw eoa = .ok signer) :
    signer ∈ signers.signers.elems ∧ ∀ named, eoa = some named → signer.address = named := by
  cases eoa with
  | none =>
      exact ⟨TxSigners.mem_of_getRandomSigner (chooseSigner_ok_of_none.mp h), fun _ h => nomatch h⟩
  | some eoa =>
      obtain ⟨hmem, haddress⟩ := TxSigners.getSignerByAddress_ok (chooseSigner_ok_of_some.mp h)
      exact ⟨hmem, fun named hnamed => haddress.trans (Option.some.inj hnamed)⟩

lemma signerServes_iff {eoa : Option Address} :
    SignerServes signers accountNonceBalance draw eoa ↔
      ∃ signer account, chooseSigner signers draw eoa = .ok signer ∧
        accountNonceBalance.getAccount signer.address = some account := by
  simp only [← Option.isSome_iff_exists, exists_and_left]
  cases eoa with
  | none =>
      simp only [chooseSigner_ok_of_none]
      rfl
  | some eoa =>
      simp only [SignerServes, chooseSigner_ok_of_some, ← TxSigners.exists_getSignerByAddress_iff]
      constructor
      · rintro ⟨⟨signer, h⟩, hmonitored⟩
        exact ⟨signer, h, (TxSigners.getSignerByAddress_ok h).2.symm ▸ hmonitored⟩
      · rintro ⟨signer, h, hmonitored⟩
        exact ⟨⟨signer, h⟩, (TxSigners.getSignerByAddress_ok h).2 ▸ hmonitored⟩

/-- A request is sent on with a signer and with what is known of the account of the signer. -/
def SentWith (accountNonceBalance : AccountNonceAndBalanceState) (request : RouteRequest)
    (signer : TxSigner) (sent : SwapComposeMessage) : Prop :=
  ∃ account, accountNonceBalance.getAccount signer.address = some account ∧
    sent = .estimate { request with
      signer := some signer
      nonce := account.nonce
      ethBalance := account.getEthBalance
      gas := request.swap.preEstimateGas * 2 }

lemma handleEncode_ok_iff {sent : SwapComposeMessage} :
    handleEncode signers accountNonceBalance draw request = .ok sent ↔
      request.nextBlockBaseFee ≠ 0 ∧
        ∃ signer, chooseSigner signers draw request.eoa = .ok signer ∧
          SentWith accountNonceBalance request signer sent := by
  unfold handleEncode SentWith
  simp only [Rounds.bind_ok_iff]
  by_cases hfee : request.nextBlockBaseFee = 0
  · simp [hfee]
  · constructor
    · rintro ⟨signer, hsigner, account, haccount, hsent⟩
      rw [if_neg hfee] at hsent
      refine ⟨hfee, signer, hsigner, account, ?_, (Except.ok.inj hsent).symm⟩
      cases hget : accountNonceBalance.getAccount signer.address with
      | none => simp [hget, Failure.ofOption] at haccount
      | some found =>
          rw [hget] at haccount
          rw [Except.ok.inj haccount]
    · rintro ⟨-, signer, hsigner, account, haccount, rfl⟩
      refine ⟨signer, hsigner, account, ?_, ?_⟩
      · rw [haccount]
        rfl
      · rw [if_neg hfee]
        rfl

/-- A request is answered if it has a base fee and a signer with a monitored account. -/
lemma exists_handleEncode_iff :
    (∃ sent, handleEncode signers accountNonceBalance draw request = .ok sent) ↔
      request.nextBlockBaseFee ≠ 0 ∧
        SignerServes signers accountNonceBalance draw request.eoa := by
  simp only [handleEncode_ok_iff, signerServes_iff]
  constructor
  · rintro ⟨sent, hfee, signer, hsigner, account, haccount, -⟩
    exact ⟨hfee, signer, account, hsigner, haccount⟩
  · rintro ⟨hfee, signer, account, hsigner, haccount⟩
    exact ⟨_, hfee, signer, hsigner, account, haccount, rfl⟩

end Served

end SwapRouterComponent

/-! ## Independence -/

namespace RouterTurn

open SwapRouterComponent

/-- The message is a request that is to be served whatever came before: it has a base fee, and it
names a signer that is known and monitored, or it names none while there are signers and all of them
are monitored. -/
def Eligible (turn : RouterTurn) (request : RouteRequest) : Prop :=
  turn.message = .prepare request ∧ request.nextBlockBaseFee ≠ 0 ∧
    ((∃ eoa, request.eoa = some eoa ∧ turn.signers.Knows eoa ∧
        turn.accountNonceBalance.isMonitored eoa = true) ∨
      request.eoa = none ∧ turn.signers.isEmpty = false ∧
        ∀ signer ∈ turn.signers.signers.elems,
          turn.accountNonceBalance.isMonitored signer.address = true)

/-- The request is sent on, signed by a signer that is the one it names if it names one. -/
def SentOn (turn : RouterTurn) (request : RouteRequest) (sent : SwapComposeMessage) : Prop :=
  ∃ signer ∈ turn.signers.signers.elems, (∀ eoa, request.eoa = some eoa → signer.address = eoa) ∧
    SentWith turn.accountNonceBalance request signer sent

/-- If the message is a request, it can be served. -/
def Servable (turn : RouterTurn) : Prop :=
  ∀ request, turn.message = .prepare request → request.nextBlockBaseFee ≠ 0 ∧
    SignerServes turn.signers turn.accountNonceBalance turn.draw request.eoa

variable {turn : RouterTurn} {request : RouteRequest}

lemma exists_receive_iff :
    (∃ answers, receive (.ok turn) = .ok answers) ↔ turn.Servable := by
  obtain ⟨message, signers, accountNonceBalance, draw⟩ := turn
  cases message with
  | prepare request =>
      have hservable : Servable ⟨.prepare request, signers, accountNonceBalance, draw⟩ ↔
          ∃ sent, handleEncode signers accountNonceBalance draw request = .ok sent := by
        rw [exists_handleEncode_iff]
        refine ⟨fun h => h request rfl, fun h request' hrequest => ?_⟩
        cases hrequest
        exact h
      rw [hservable, receive]
      cases handleEncode signers accountNonceBalance draw request <;> simp [Except.map]
  | _ => exact ⟨fun _ _ h => (nomatch h), fun _ => ⟨[], rfl⟩⟩

/-- A request that is to be served, and that is handled, is sent on. -/
lemma Eligible.exists_receive (h : turn.Eligible request) :
    ∃ sent, receive (.ok turn) = .ok [sent] ∧ turn.SentOn request sent := by
  obtain ⟨message, signers, accountNonceBalance, draw⟩ := turn
  obtain ⟨rfl, hfee, hsigner⟩ := h
  have hserves : SignerServes signers accountNonceBalance draw request.eoa := by
    rcases hsigner with ⟨eoa, heoa, hknown⟩ | ⟨heoa, hempty, hall⟩
    · rw [heoa]
      exact hknown
    · rw [heoa]
      obtain ⟨signer, hdrawn⟩ := TxSigners.exists_getRandomSigner_iff.mpr hempty
      exact ⟨signer, hdrawn, hall signer (TxSigners.mem_of_getRandomSigner hdrawn)⟩
  obtain ⟨sent, hsent⟩ := exists_handleEncode_iff.mpr ⟨hfee, hserves⟩
  obtain ⟨-, signer, hchosen, hwith⟩ := handleEncode_ok_iff.mp hsent
  obtain ⟨hmem, hnamed⟩ := chooseSigner_ok hchosen
  refine ⟨sent, ?_, signer, hmem, hnamed, hwith⟩
  rw [receive, hsent]
  rfl

end RouterTurn

namespace SwapRouterComponent

open RouterTurn

/-- No message ends the router, and each request that is to be served is sent on when it comes. -/
def RoutesIndependently (turns : List RouterTurn) : Prop :=
  (run (turns.map .ok)).2 = .ok () ∧
    ∀ before turn after request, turns = before ++ turn :: after → turn.Eligible request →
      ∃ sent, turn.SentOn request sent ∧
        (run ((before ++ [turn]).map .ok)).1 = (run (before.map .ok)).1 ++ [sent]

lemma run_ok_iff {turns : List RouterTurn} :
    (run (turns.map .ok)).2 = .ok () ↔ ∀ turn ∈ turns, turn.Servable := by
  rw [run, serve_ok_iff, List.forall_mem_map]
  exact forall₂_congr fun turn _ => exists_receive_iff

/-- **Requests are routed independently as long as every request can be served.** -/
theorem routesIndependently_iff (turns : List RouterTurn) :
    RoutesIndependently turns ↔ ∀ turn ∈ turns, turn.Servable := by
  refine ⟨fun h => run_ok_iff.mp h.1, fun h => ⟨run_ok_iff.mpr h, ?_⟩⟩
  rintro before turn after request rfl heligible
  have hbefore : (run (before.map .ok)).2 = .ok () :=
    run_ok_iff.mpr fun turn hturn => h turn (List.mem_append_left _ hturn)
  obtain ⟨sent, hreceive, hsent⟩ := heligible.exists_receive
  refine ⟨sent, hsent, ?_⟩
  rw [List.map_append, List.map_singleton, run, serve_append_singleton hbefore hreceive]
  rfl

/-! ### A request that ends the router -/

/-- One signer, at the address one. -/
def oneSigner : TxSigners := ⟨⟨[⟨1⟩], List.nodup_singleton _⟩⟩

/-- A request without a swap, for the signer at an address. -/
def requestFor (eoa : Address) : RouteRequest :=
  { swap := .none, tips := none, gas := 0, eoa := some eoa, signer := none, nonce := 0,
    ethBalance := 0, nextBlockBaseFee := 1 }

def turnFor (eoa : Address) : RouterTurn :=
  ⟨.prepare (requestFor eoa), oneSigner, AccountNonceAndBalanceState.new.addAccount 1, 0⟩

/-- A request for a signer that is not known ends the router, and the next request, which is to be
served, is not sent on. -/
theorem unknown_signer_ends_router :
    (turnFor 1).Eligible (requestFor 1) ∧ (run ([turnFor 1].map .ok)).1.length = 1 ∧
      run ([turnFor 2, turnFor 1].map .ok) = ([], .error (.error "SIGNER_NOT_FOUND")) ∧
      ¬ RoutesIndependently [turnFor 2, turnFor 1] := by
  have hrun : run ([turnFor 2, turnFor 1].map .ok) =
      ([], .error (.error "SIGNER_NOT_FOUND")) := rfl
  refine ⟨⟨rfl, by decide, Or.inl ⟨1, rfl, ⟨⟨1⟩, List.mem_singleton_self _, rfl⟩, rfl⟩⟩, rfl, hrun,
    fun h => ?_⟩
  rw [RoutesIndependently, hrun] at h
  exact absurd h.1 (by simp)

end SwapRouterComponent

end Kabu
