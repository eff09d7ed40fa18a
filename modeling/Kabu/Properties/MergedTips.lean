import Kabu.Properties.SwapTips

/-!
# Tips of several swaps

The tips of several swaps are put together and paid at once.  For a swap in the wrapped native token
the profit itself pays; what goes beyond it is sent along, and has to be there.  So the question is
whether what is sent along is at most the balance.

It is cut to nine tenths of the balance if it is more than there is, but then, in every case, 100
wei are added.  `merged_tips_affordable_iff` says when this is still within the balance: if the
balance is 100 wei more than the excess, or if the cut is made and a tenth of the balance is more
than 99.  Without swaps the source divides by zero.

`CollectedTips` is what the loop over the swaps leaves: entries with distinct tokens, whose sums are
those of the swaps, whatever the order in which they are visited.
-/

namespace Kabu

namespace Tips

/-! ## The sums -/

/-- The sum of a field over the entries of some tokens. -/
def fieldSum (p : Address → Bool) (f : Tips → U256) (entries : List Tips) : ℕ :=
  (entries.map fun entry => if p entry.tokenIn.address then (f entry).toNat else 0).sum

section Sums

variable {p : Address → Bool} {f : Tips → U256}

lemma fieldSum_cons (entry : Tips) (entries : List Tips) : fieldSum p f (entry :: entries) =
    (if p entry.tokenIn.address then (f entry).toNat else 0) + fieldSum p f entries := rfl

lemma fieldSum_perm {entries entries' : List Tips} (h : entries.Perm entries') :
    fieldSum p f entries = fieldSum p f entries' := (h.map _).sum_nat

lemma fieldSum_add_not (entries : List Tips) :
    fieldSum p f entries + fieldSum (fun a => !p a) f entries =
      fieldSum (fun _ => true) f entries := by
  induction entries with
  | nil => rfl
  | cons entry entries ih =>
      rw [fieldSum_cons, fieldSum_cons, fieldSum_cons, ← ih]
      cases p entry.tokenIn.address <;> simp <;> omega

lemma fieldSum_le_all (entries : List Tips) :
    fieldSum p f entries ≤ fieldSum (fun _ => true) f entries := by
  rw [← fieldSum_add_not (p := p)]
  exact Nat.le_add_right _ _

lemma toNat_foldl_add {words : List U256} {start : U256}
    (h : start.toNat + (words.map BitVec.toNat).sum < 2 ^ 256) :
    (words.foldl (· + ·) start).toNat = start.toNat + (words.map BitVec.toNat).sum := by
  induction words generalizing start with
  | nil => rfl
  | cons word words ih =>
      rw [List.map_cons, List.sum_cons] at h ⊢
      have hadd : (start + word).toNat = start.toNat + word.toNat :=
        BitVec.toNat_add_of_lt (by omega)
      rw [List.foldl_cons, ih (by omega), hadd]
      omega

lemma sum_filter_map (q : Tips → Bool) (hq : ∀ entry, q entry = p entry.tokenIn.address)
    (entries : List Tips) :
    (((entries.filter q).map f).map BitVec.toNat).sum = fieldSum p f entries := by
  induction entries with
  | nil => rfl
  | cons entry entries ih =>
      rw [List.filter_cons, fieldSum_cons, ← hq, ← ih]
      cases q entry <;> simp

lemma toNat_sumOf {q : Tips → Bool} (hq : ∀ entry, q entry = p entry.tokenIn.address)
    {entries : List Tips} (h : fieldSum p f entries < 2 ^ 256) :
    (sumOf q f entries).toNat = fieldSum p f entries := by
  have hsum := sum_filter_map (f := f) q hq entries
  unfold sumOf
  rw [toNat_foldl_add (by rw [hsum]; exact (Nat.zero_add _).symm ▸ h), hsum]
  exact Nat.zero_add _

end Sums

/-! ## Collecting the records -/

section Collect

/-- Each entry is that of its own token. -/
def Keyed (entries : AssocMap Address Tips) : Prop :=
  ∀ token entry, entries.lookup token = some entry → entry.tokenIn.address = token

variable {entries : AssocMap Address Tips}

lemma keyed_collect (h : Keyed entries) (record : Tips) :
    Keyed (collect entries record) := by
  intro token entry hentry
  unfold collect at hentry
  rw [AssocMap.lookup_upsert] at hentry
  split at hentry
  · rename_i htoken
    cases Option.some.inj hentry
    cases hold : entries.lookup record.tokenIn.address with
    | none => exact htoken.symm
    | some old => exact (h _ _ hold).trans htoken.symm
  · exact h token entry hentry

/-- A field that is added up. -/
structure Additive (f : Tips → U256) : Prop where
  add : ∀ entry record : Tips, f (entry.add record) = f entry + f record
  new : ∀ token (record : Tips), f (Tips.add ⟨token, 0, 0, 0, 0⟩ record) = f record

lemma additive_tips : Additive Tips.tips :=
  ⟨fun _ _ => rfl, fun _ record => BitVec.zero_add record.tips⟩

lemma additive_profitEth : Additive Tips.profitEth :=
  ⟨fun _ _ => rfl, fun _ record => BitVec.zero_add record.profitEth⟩

variable {p : Address → Bool} {f : Tips → U256}

lemma fieldSum_collect (hf : Additive f) (hkeyed : Keyed entries) (record : Tips)
    (hlt : fieldSum (fun _ => true) f entries.values + (f record).toNat < 2 ^ 256) :
    fieldSum p f (collect entries record).values =
      fieldSum p f entries.values +
        if p record.tokenIn.address then (f record).toNat else 0 := by
  have hsum := AssocMap.sum_values_insert
    (fun entry => if p entry.tokenIn.address then (f entry).toNat else 0) entries
    record.tokenIn.address
    (((entries.lookup record.tokenIn.address).getD ⟨record.tokenIn, 0, 0, 0, 0⟩).add record)
  cases hold : entries.lookup record.tokenIn.address with
  | none =>
      rw [hold, Option.getD_none, hf.new] at hsum
      unfold fieldSum collect AssocMap.upsert
      rw [hold, Option.getD_none]
      exact hsum
  | some old =>
      have haddress := hkeyed _ _ hold
      have hmem : old ∈ entries.values := (AssocMap.mem_values _ _).mpr ⟨_, hold⟩
      have hle : (f old).toNat ≤ fieldSum (fun _ => true) f entries.values :=
        List.le_sum_of_mem (List.mem_map_of_mem hmem)
      have hadd : (f old + f record).toNat = (f old).toNat + (f record).toNat :=
        BitVec.toNat_add_of_lt (by omega)
      rw [hold, Option.getD_some, hf.add, hadd, Option.map_some, Option.getD_some] at hsum
      unfold fieldSum collect AssocMap.upsert
      rw [hold, Option.getD_some]
      have hsame : (old.add record).tokenIn.address = record.tokenIn.address := haddress
      rw [hsame, haddress] at hsum
      cases hp : p record.tokenIn.address with
      | false =>
          rw [hp] at hsum
          simpa using hsum
      | true =>
          rw [hp] at hsum
          simp only [if_true] at hsum ⊢
          omega

lemma fieldSum_foldl_collect (hf : Additive f) (records : List Tips) (hkeyed : Keyed entries)
    (hlt : fieldSum (fun _ => true) f entries.values + fieldSum (fun _ => true) f records <
      2 ^ 256) :
    Keyed (records.foldl collect entries) ∧
      fieldSum p f (records.foldl collect entries).values =
        fieldSum p f entries.values + fieldSum p f records := by
  induction records generalizing entries with
  | nil => exact ⟨hkeyed, rfl⟩
  | cons record records ih =>
      rw [fieldSum_cons, if_pos rfl] at hlt
      have hall := fieldSum_collect (p := fun _ => true) hf hkeyed record (by omega)
      have hone := fieldSum_collect (p := p) hf hkeyed record (by omega)
      rw [if_pos rfl] at hall
      obtain ⟨hkeyed', hsum⟩ := ih (keyed_collect hkeyed record) (by omega)
      refine ⟨hkeyed', ?_⟩
      rw [List.foldl_cons, hsum, hone, fieldSum_cons]
      omega

end Collect

/-! ## Spreading the tips -/

section Spread

variable {prices : TokenPrices} {ethBalance due profitEth : U256}

/-- What is sent along, before the 100 wei, for a sum of tips and a profit that pays for a part of
it. -/
def paidOf (weth : Bool) (due profit balance : ℕ) : ℕ :=
  if weth then (if balance < due - profit then balance * 9000 / 10000 else due - profit)
  else if balance ≤ due then balance * 9000 / 10000 else due

lemma tips_map_zero (entries : List Tips) :
    ((entries.map fun entry => { entry with tips := 0 }).map fun entry => entry.tips.toNat).sum =
      0 := by
  induction entries with
  | nil => rfl
  | cons entry entries ih =>
      rw [List.map_cons, List.map_cons, List.sum_cons, ih]
      rfl

variable {entries : List Tips}

lemma wethTips_of_none (h : ∀ entry ∈ entries, prices.isWeth entry.tokenIn = false) (value : U256) :
    wethTips prices due profitEth ethBalance entries value =
      .ok (entries.map fun entry => { entry with tips := 0 }, value) := by
  induction entries with
  | nil => rfl
  | cons entry entries ih =>
      obtain ⟨hentry, hentries⟩ := List.forall_mem_cons.mp h
      rw [wethTips, hentry, ih hentries]
      rfl

/-- What goes beyond the profit. -/
def excessOf (due profitEth : U256) : U256 := if profitEth < due then due - profitEth else 0

lemma toNat_excessOf (due profitEth : U256) :
    (excessOf due profitEth).toNat = due.toNat - profitEth.toNat := by
  unfold excessOf
  split
  · rename_i h
    exact BitVec.toNat_sub_of_le (BitVec.le_def.mpr (Nat.le_of_lt (BitVec.lt_def.mp h)))
  · rename_i h
    have hle := BitVec.le_def.mp (BitVec.not_lt.mp h)
    show 0 = due.toNat - profitEth.toNat
    omega

/-- The one entry in the wrapped native token takes it all. -/
lemma wethTips_of_one {before after : List Tips} {entry : Tips}
    (hbefore : ∀ entry ∈ before, prices.isWeth entry.tokenIn = false)
    (hentry : prices.isWeth entry.tokenIn = true)
    (hafter : ∀ entry ∈ after, prices.isWeth entry.tokenIn = false) :
    wethTips prices due profitEth ethBalance (before ++ entry :: after) 0 =
      .ok ((before.map fun entry => { entry with tips := 0 }) ++
        { entry with tips := if ethBalance < excessOf due profitEth then
            due - excessOf due profitEth + nineTenths ethBalance else due } ::
        after.map fun entry => { entry with tips := 0 },
        if ethBalance < excessOf due profitEth then nineTenths ethBalance
          else excessOf due profitEth) := by
  induction before with
  | nil =>
      have hle : ¬ due < excessOf due profitEth := by
        rw [BitVec.lt_def, toNat_excessOf]
        omega
      have hvalue : (if profitEth < due then due - profitEth else (0 : U256)) =
          excessOf due profitEth := rfl
      simp only [List.nil_append, wethTips, hentry, if_true, hvalue, if_neg hle,
        wethTips_of_none hafter, bind, Except.bind]
      split <;> rfl
  | cons first before ih =>
      obtain ⟨hfirst, hbefore⟩ := List.forall_mem_cons.mp hbefore
      rw [List.cons_append, wethTips, hfirst, ih hbefore]
      rfl

lemma tips_plainTips {value : U256} (entries : List Tips) :
    ((plainTips value entries).map fun entry => entry.tips.toNat).sum ≤ value.toNat := by
  cases entries with
  | nil => exact Nat.zero_le _
  | cons entry entries =>
      rw [plainTips, List.map_cons, List.sum_cons, tips_map_zero]
      exact Nat.le_refl _

lemma exists_split_weth (hnodup : (entries.map fun entry => entry.tokenIn.address).Nodup)
    (hweth : (entries.any fun entry => prices.isWeth entry.tokenIn) = true) :
    ∃ before entry after, entries = before ++ entry :: after ∧
      prices.isWeth entry.tokenIn = true ∧
      (∀ entry ∈ before, prices.isWeth entry.tokenIn = false) ∧
      ∀ entry ∈ after, prices.isWeth entry.tokenIn = false := by
  obtain ⟨entry, hmem, hentry⟩ := List.any_eq_true.mp hweth
  obtain ⟨before, after, rfl⟩ := List.append_of_mem hmem
  have haddress : prices.weth = some entry.tokenIn.address := of_decide_eq_true hentry
  have hother : ∀ other : Tips, other.tokenIn.address ≠ entry.tokenIn.address →
      prices.isWeth other.tokenIn = false := by
    intro other hne
    refine decide_eq_false fun h => hne ?_
    exact Option.some.inj (h.symm.trans haddress)
  rw [List.map_append, List.map_cons, List.nodup_append] at hnodup
  obtain ⟨-, hafter, hdisjoint⟩ := hnodup
  refine ⟨before, entry, after, rfl, hentry, fun other hin => hother other ?_,
    fun other hin => hother other ?_⟩
  · exact hdisjoint _ (List.mem_map_of_mem hin) _ List.mem_cons_self
  · intro heq
    exact (List.nodup_cons.mp hafter).1 (heq ▸ List.mem_map_of_mem hin)

lemma exists_wethTips (hnodup : (entries.map fun entry => entry.tokenIn.address).Nodup)
    (hweth : (entries.any fun entry => prices.isWeth entry.tokenIn) = true)
    (hbalance : ethBalance.toNat < 2 ^ 120) (hdue : due.toNat < 2 ^ 250) :
    ∃ tips value, wethTips prices due profitEth ethBalance entries 0 = .ok (tips, value) ∧
      value.toNat = paidOf true due.toNat profitEth.toNat ethBalance.toNat ∧
      (tips.map fun entry => entry.tips.toNat).sum ≤ value.toNat + profitEth.toNat := by
  have hnine := toNat_nineTenths hbalance
  have hexcess := toNat_excessOf due profitEth
  obtain ⟨before, entry, after, rfl, hentry, hbefore, hafter⟩ := exists_split_weth hnodup hweth
  refine ⟨_, _, wethTips_of_one hbefore hentry hafter, ?_⟩
  rw [paidOf, if_pos rfl, ← hexcess, List.map_append, List.map_cons, List.sum_append, List.sum_cons,
    tips_map_zero, tips_map_zero]
  by_cases hcap : ethBalance < excessOf due profitEth
  · have hsub : (due - excessOf due profitEth).toNat =
        due.toNat - (excessOf due profitEth).toNat :=
      BitVec.toNat_sub_of_le (BitVec.le_def.mpr (by omega))
    have hsum : (due - excessOf due profitEth + nineTenths ethBalance).toNat =
        due.toNat - (excessOf due profitEth).toNat + (nineTenths ethBalance).toNat := by
      rw [BitVec.toNat_add_of_lt (by omega), hsub]
    rw [if_pos hcap, if_pos hcap, if_pos (BitVec.lt_def.mp hcap), hsum]
    exact ⟨hnine, by omega⟩
  · rw [if_neg hcap, if_neg hcap, if_neg (fun h => hcap (BitVec.lt_def.mpr h))]
    refine ⟨rfl, ?_⟩
    show 0 + (due.toNat + 0) ≤ (excessOf due profitEth).toNat + profitEth.toNat
    omega

lemma exists_plainTips (hbalance : ethBalance.toNat < 2 ^ 120) (total : U256)
    (entries : List Tips) :
    (if ethBalance ≤ total then nineTenths ethBalance else total).toNat =
        paidOf false total.toNat 0 ethBalance.toNat ∧
      ((plainTips (if ethBalance ≤ total then nineTenths ethBalance else total) entries).map
        fun entry => entry.tips.toNat).sum ≤
          (if ethBalance ≤ total then nineTenths ethBalance else total).toNat := by
  refine ⟨?_, tips_plainTips entries⟩
  rw [paidOf, if_neg Bool.false_ne_true]
  by_cases hcap : ethBalance ≤ total
  · rw [if_pos hcap, if_pos (BitVec.le_def.mp hcap)]
    exact toNat_nineTenths hbalance
  · rw [if_neg hcap, if_neg (fun h => hcap (BitVec.le_def.mpr h))]

/-- The tokens with the flag, by address. -/
def wethAddress (prices : TokenPrices) (a : Address) : Bool := decide (prices.weth = some a)

lemma fieldSum_of_none {f : Tips → U256}
    (hweth : (entries.any fun entry => prices.isWeth entry.tokenIn) = false) :
    fieldSum (wethAddress prices) f entries = 0 := by
  refine List.sum_eq_zero fun x hx => ?_
  obtain ⟨entry, hentry, rfl⟩ := List.mem_map.mp hx
  exact if_neg (List.any_eq_false.mp hweth entry hentry)

/-- **What is paid out of the entries.** -/
lemma exists_spreadTips (hnodup : (entries.map fun entry => entry.tokenIn.address).Nodup)
    (hbalance : ethBalance.toNat < 2 ^ 120)
    (hdue : fieldSum (fun _ => true) Tips.tips entries < 2 ^ 250)
    (hprofit : fieldSum (wethAddress prices) Tips.profitEth entries < 2 ^ 250) :
    ∃ tips value, spreadTips prices ethBalance entries = .ok (tips, value) ∧
      value.toNat = paidOf (entries.any fun entry => prices.isWeth entry.tokenIn)
        (fieldSum (fun _ => true) Tips.tips entries)
        (fieldSum (wethAddress prices) Tips.profitEth entries) ethBalance.toNat ∧
      (tips.map fun entry => entry.tips.toNat).sum ≤ value.toNat +
        fieldSum (wethAddress prices) Tips.profitEth entries := by
  unfold spreadTips
  cases hweth : entries.any fun entry => prices.isWeth entry.tokenIn with
  | false =>
      have htotal : (sumOf (fun _ => true) Tips.tips entries).toNat =
          fieldSum (fun _ => true) Tips.tips entries :=
        toNat_sumOf (p := fun _ => true) (fun _ => rfl) (hdue.trans (by decide))
      obtain ⟨hvalue, hsum⟩ :=
        exists_plainTips hbalance (sumOf (fun _ => true) Tips.tips entries) entries
      rw [htotal] at hvalue
      rw [fieldSum_of_none hweth]
      exact ⟨_, _, rfl, hvalue, hsum⟩
  | true =>
      have hsplit := fieldSum_add_not (p := wethAddress prices) (f := Tips.tips) entries
      have hltEth : fieldSum (wethAddress prices) Tips.tips entries < 2 ^ 256 := by omega
      have hltNon : fieldSum (fun a => !wethAddress prices a) Tips.tips entries < 2 ^ 256 := by
        omega
      have heth := toNat_sumOf (q := fun entry => prices.isWeth entry.tokenIn) (fun _ => rfl) hltEth
      have hnon := toNat_sumOf (q := fun entry => !prices.isWeth entry.tokenIn) (fun _ => rfl)
        hltNon
      have hgain := toNat_sumOf (q := fun entry => prices.isWeth entry.tokenIn) (fun _ => rfl)
        (hprofit.trans (by decide))
      have hadd := BitVec.toNat_add_of_lt (x := sumOf (fun entry => prices.isWeth entry.tokenIn)
        Tips.tips entries) (y := sumOf (fun entry => !prices.isWeth entry.tokenIn)
        Tips.tips entries) (by omega)
      rw [heth, hnon, hsplit] at hadd
      rw [← hgain, ← hadd]
      exact exists_wethTips hnodup hweth hbalance (by omega)

end Spread

/-! ## The swaps -/

section Swaps

variable (prices : TokenPrices)

/-- The swap is in the token with the flag. -/
def inWeth (swap : Swap) : Bool := swap.getFirstToken.any prices.isWeth

/-- The profit that is made in the token with the flag. -/
def wethProfit (swaps : List Swap) : ℕ :=
  (swaps.map fun swap => if inWeth prices swap then (swap.arbProfitEth prices).toNat else 0).sum

/-- The tip of a swap that pays its part of the gas. -/
def swapTip (tipsPct gasPerRecord : ℕ) (swap : Swap) : ℕ :=
  ((swap.arbProfitEth prices).toNat - gasPerRecord) * tipsPct / 10000

def totalTip (tipsPct gasPerRecord : ℕ) (swaps : List Swap) : ℕ :=
  (swaps.map (swapTip prices tipsPct gasPerRecord)).sum

def totalProfit (swaps : List Swap) : ℕ :=
  (swaps.map fun swap => (swap.arbProfitEth prices).toNat).sum

/-- The swap has a profit, in a token with a price, and the profit pays its part of the gas. -/
structure PaysGas (gasPerRecord : ℕ) (swap : Swap) : Prop where
  priced : ∃ token price, swap.getFirstToken = some token ∧ prices.getEthPrice token = some price
  profit : swap.arbProfit ≠ 0
  gas : gasPerRecord ≤ (swap.arbProfitEth prices).toNat

/-- What is recorded of a swap. -/
structure IsRecord (tipsPct gasPerRecord : ℕ) (swap : Swap) (record : Tips) : Prop where
  token : swap.getFirstToken = some record.tokenIn
  profitEth_eq : record.profitEth = swap.arbProfitEth prices
  profitEth_lt : record.profitEth.toNat < 2 ^ 180
  tips_eq : record.tips.toNat = swapTip prices tipsPct gasPerRecord swap

variable {prices} {tipsPct : ℕ} {gasPerRecord : U256}

lemma IsRecord.inWeth_eq {gas : ℕ} {swap : Swap} {record : Tips}
    (h : IsRecord prices tipsPct gas swap record) :
    inWeth prices swap = wethAddress prices record.tokenIn.address := by
  rw [inWeth, h.token]
  rfl

lemma recordTips_cases {swap : Swap} (hswap : swap.IsBackrun)
    (hprofit : swap.arbProfit.toNat < 2 ^ 120) (hpct : tipsPct ≤ 10000) :
    (¬ PaysGas prices gasPerRecord.toNat swap ∧
      ∃ message, recordTips prices tipsPct gasPerRecord swap = .error (.error message)) ∨
    PaysGas prices gasPerRecord.toNat swap ∧
      ∃ record, recordTips prices tipsPct gasPerRecord swap = .ok record ∧
        IsRecord prices tipsPct gasPerRecord.toNat swap record := by
  have hvalue := Swap.arbProfitEth_of_isBackrun prices hswap
  unfold recordTips TokenPrices.calcEthValue TokenPrices.calcTokenValueFromEth
  unfold TokenPrices.calcEthValue at hvalue
  simp only [okOr, bind, Except.bind]
  cases htoken : swap.getFirstToken with
  | none =>
      refine Or.inl ⟨fun h => ?_, _, rfl⟩
      obtain ⟨token, price, h, -⟩ := h.priced
      cases htoken.symm.trans h
  | some token =>
    by_cases hzero : swap.arbProfit = 0
    · exact Or.inl ⟨fun h => h.profit hzero, _, if_pos hzero⟩
    simp only [if_neg hzero]
    cases hprice : prices.getEthPrice token with
    | none =>
        refine Or.inl ⟨fun h => ?_, _, rfl⟩
        obtain ⟨token', price, htoken', hprice'⟩ := h.priced
        cases Option.some.inj (htoken.symm.trans htoken')
        cases hprice.symm.trans hprice'
    | some price =>
      rw [htoken, Option.bind_some, hprice, Option.map_some, Option.getD_some] at hvalue
      simp only [Option.map_some, Failure.ofOption]
      by_cases hless : swap.arbProfit * oneEther / price < gasPerRecord
      · refine Or.inl ⟨fun h => ?_, _, if_pos hless⟩
        have hgas := h.gas
        rw [hvalue] at hgas
        exact absurd (BitVec.lt_def.mp hless) (by omega)
      · have hgas := BitVec.not_lt.mp hless
        have hwords := tipWords hprofit hpct hgas
        obtain ⟨hvalue', hlt⟩ := toNat_calcEthValue hprofit price
        refine Or.inr ⟨⟨⟨token, price, htoken, hprice⟩, hzero, ?_⟩, _, if_neg hless, htoken,
          hvalue.symm, ?_, ?_⟩
        · rw [hvalue]
          exact BitVec.le_def.mp hgas
        · show (swap.arbProfit * oneEther / price).toNat < 2 ^ 180
          omega
        · rw [swapTip, hvalue, hwords.profitEth_eq]
          exact hwords.full_eq

lemma collectFrom_cases (prices : TokenPrices) {swaps : List Swap}
    (hswaps : ∀ swap ∈ swaps, swap.IsBackrun ∧ swap.arbProfit.toNat < 2 ^ 120)
    (hpct : tipsPct ≤ 10000) (gasPerRecord : U256) (entries : AssocMap Address Tips) :
    (¬ (∀ swap ∈ swaps, PaysGas prices gasPerRecord.toNat swap) ∧ ∃ message,
      collectFrom prices tipsPct gasPerRecord entries swaps = .error (.error message)) ∨
    (∀ swap ∈ swaps, PaysGas prices gasPerRecord.toNat swap) ∧ ∃ records,
      collectFrom prices tipsPct gasPerRecord entries swaps = .ok (records.foldl collect entries) ∧
      List.Forall₂ (IsRecord prices tipsPct gasPerRecord.toNat) swaps records := by
  unfold collectFrom
  induction swaps generalizing entries with
  | nil => exact Or.inr ⟨by simp, [], rfl, .nil⟩
  | cons swap swaps ih =>
      obtain ⟨hswap, hswaps⟩ := List.forall_mem_cons.mp hswaps
      rw [List.foldlM_cons, List.forall_mem_cons]
      rcases recordTips_cases hswap.1 hswap.2 hpct with
        ⟨hnot, message, herror⟩ | ⟨hpays, record, hok, hrecord⟩
      · rw [herror]
        exact Or.inl ⟨fun h => hnot h.1, message, rfl⟩
      · rw [hok]
        rcases ih hswaps (collect entries record) with
          ⟨hnot, message, herror⟩ | ⟨hall, records, hok', hrecords⟩
        · exact Or.inl ⟨fun h => hnot h.2, message, herror⟩
        · exact Or.inr ⟨⟨hpays, hall⟩, record :: records, hok', .cons hrecord hrecords⟩

/-! ## The sums of the records -/

section Records

variable {gas : ℕ} {swaps : List Swap} {records : List Tips}

section

variable (h : List.Forall₂ (IsRecord prices tipsPct gas) swaps records)

include h

lemma fieldSum_tips_records :
    fieldSum (fun _ => true) Tips.tips records = totalTip prices tipsPct gas swaps := by
  induction h with
  | nil => rfl
  | cons hrecord _ ih =>
      rw [fieldSum_cons, if_pos rfl, ih, hrecord.tips_eq]
      rfl

lemma fieldSum_profitEth_records :
    fieldSum (wethAddress prices) Tips.profitEth records = wethProfit prices swaps := by
  induction h with
  | nil => rfl
  | @cons swap record swaps records hrecord _ ih =>
      rw [fieldSum_cons, ih, ← hrecord.inWeth_eq, hrecord.profitEth_eq]
      rfl

lemma any_inWeth_iff :
    swaps.any (inWeth prices) = true ↔
      ∃ record ∈ records, wethAddress prices record.tokenIn.address = true := by
  induction h with
  | nil => simp
  | @cons swap record swaps records hrecord _ ih =>
      rw [List.any_cons, Bool.or_eq_true, ih, hrecord.inWeth_eq]
      simp

end

lemma fieldSum_le_length_mul {p : Address → Bool} {f : Tips → U256} {bound : ℕ}
    (h : ∀ record ∈ records, (f record).toNat ≤ bound) :
    fieldSum p f records ≤ records.length * bound := by
  induction records with
  | nil => exact Nat.zero_le _
  | cons record records ih =>
      obtain ⟨hrecord, hrecords⟩ := List.forall_mem_cons.mp h
      have hrest := ih hrecords
      rw [fieldSum_cons, List.length_cons, Nat.succ_mul]
      split <;> omega

lemma bounds_of_records (hpct : tipsPct ≤ 10000)
    (h : List.Forall₂ (IsRecord prices tipsPct gas) swaps records) :
    ∀ record ∈ records, record.tips.toNat ≤ 2 ^ 180 ∧ record.profitEth.toNat ≤ 2 ^ 180 := by
  induction h with
  | nil => simp
  | @cons swap record swaps records hrecord _ ih =>
      refine List.forall_mem_cons.mpr ⟨⟨?_, hrecord.profitEth_lt.le⟩, ih⟩
      have hlt := hrecord.profitEth_lt
      rw [hrecord.profitEth_eq] at hlt
      have hle := share_le (x := (swap.arbProfitEth prices).toNat - gas) hpct
      rw [hrecord.tips_eq, swapTip]
      omega

end Records

/-! ## The entries -/

section Entries

variable {records : List Tips} {entries : AssocMap Address Tips}

lemma isSome_lookup_foldl_collect (a : Address) :
    ((records.foldl collect entries).lookup a).isSome = true ↔
      (entries.lookup a).isSome = true ∨ ∃ record ∈ records, record.tokenIn.address = a := by
  induction records generalizing entries with
  | nil => simp
  | cons record records ih =>
      have hone : ((collect entries record).lookup a).isSome = true ↔
          (entries.lookup a).isSome = true ∨ record.tokenIn.address = a := by
        unfold collect
        rw [AssocMap.lookup_upsert]
        by_cases ha : a = record.tokenIn.address
        · simp [ha]
        · simp [ha, Ne.symm ha]
      rw [List.foldl_cons, ih, hone, or_assoc]
      simp

lemma map_address_values (h : Keyed entries) :
    (entries.values.map fun entry => entry.tokenIn.address) = entries.keys := by
  unfold AssocMap.values AList.keys List.keys
  rw [List.map_map]
  refine List.map_congr_left fun e he => ?_
  exact h e.1 e.2 (AList.mem_lookup_iff.mpr he)

lemma any_isWeth_values (h : Keyed entries) :
    (entries.values.any fun entry => prices.isWeth entry.tokenIn) = true ↔
      ∃ a, wethAddress prices a = true ∧ (entries.lookup a).isSome = true := by
  rw [List.any_eq_true]
  constructor
  · rintro ⟨entry, hentry, hweth⟩
    obtain ⟨a, ha⟩ := (AssocMap.mem_values _ _).mp hentry
    have haddress := h a entry ha
    exact ⟨a, haddress ▸ hweth, Option.isSome_iff_exists.mpr ⟨entry, ha⟩⟩
  · rintro ⟨a, hweth, hsome⟩
    obtain ⟨entry, hentry⟩ := Option.isSome_iff_exists.mp hsome
    have haddress := h a entry hentry
    refine ⟨entry, (AssocMap.mem_values _ _).mpr ⟨a, hentry⟩, ?_⟩
    show wethAddress prices entry.tokenIn.address = true
    rw [haddress]
    exact hweth

end Entries

/-- What the loop over the swaps leaves, in the order in which it is visited. -/
structure CollectedTips (prices : TokenPrices) (tipsPct gas : ℕ) (swaps : List Swap)
    (entries : List Tips) : Prop where
  distinct : (entries.map fun entry => entry.tokenIn.address).Nodup
  tips : fieldSum (fun _ => true) Tips.tips entries = totalTip prices tipsPct gas swaps
  tips_lt : fieldSum (fun _ => true) Tips.tips entries < 2 ^ 250
  profit : fieldSum (wethAddress prices) Tips.profitEth entries = wethProfit prices swaps
  profit_lt : fieldSum (wethAddress prices) Tips.profitEth entries < 2 ^ 250
  weth : (entries.any fun entry => prices.isWeth entry.tokenIn) = swaps.any (inWeth prices)

lemma collectedTips (order : IterationOrder) {gas : ℕ} {swaps : List Swap} {records : List Tips}
    (hlength : swaps.length < 2 ^ 64) (hpct : tipsPct ≤ 10000)
    (h : List.Forall₂ (IsRecord prices tipsPct gas) swaps records) :
    CollectedTips prices tipsPct gas swaps
      (order.visit (records.foldl collect ∅ : AssocMap Address Tips).values) := by
  have hbounds := bounds_of_records hpct h
  have hcount : records.length < 2 ^ 64 := h.length_eq ▸ hlength
  have htips : fieldSum (fun _ => true) Tips.tips records ≤ records.length * 2 ^ 180 :=
    fieldSum_le_length_mul fun record hrecord => (hbounds record hrecord).1
  have hprofit : fieldSum (fun _ => true) Tips.profitEth records ≤ records.length * 2 ^ 180 :=
    fieldSum_le_length_mul fun record hrecord => (hbounds record hrecord).2
  have hempty : Keyed (∅ : AssocMap Address Tips) := fun _ _ hlookup => absurd hlookup (by simp)
  have hperm := order.perm (records.foldl collect ∅ : AssocMap Address Tips).values
  have hnone : ∀ (p : Address → Bool) (f : Tips → U256),
      fieldSum p f (∅ : AssocMap Address Tips).values = 0 := fun _ _ => rfl
  obtain ⟨hkeyed, hsumTips⟩ := fieldSum_foldl_collect (p := fun _ => true) additive_tips records
    hempty (by rw [hnone]; omega)
  obtain ⟨-, hsumProfit⟩ := fieldSum_foldl_collect (p := wethAddress prices) additive_profitEth
    records hempty (by rw [hnone]; omega)
  rw [hnone, Nat.zero_add] at hsumTips hsumProfit
  have hprofit' := (fieldSum_le_all (p := wethAddress prices) (f := Tips.profitEth) records).trans
    hprofit
  refine ⟨?_, ?_, ?_, ?_, ?_, ?_⟩
  · rw [(hperm.map _).nodup_iff, map_address_values hkeyed]
    exact AList.keys_nodup _
  · rw [fieldSum_perm hperm, hsumTips, fieldSum_tips_records h]
  · rw [fieldSum_perm hperm, hsumTips]
    omega
  · rw [fieldSum_perm hperm, hsumProfit, fieldSum_profitEth_records h]
  · rw [fieldSum_perm hperm, hsumProfit]
    omega
  · rw [hperm.any_eq, Bool.eq_iff_iff, any_isWeth_values hkeyed, any_inWeth_iff h]
    simp only [isSome_lookup_foldl_collect]
    simp [and_comm]

/-! ## What is sent along -/

/-- What is sent along is within the balance: there are 100 wei more than the excess, or the excess
is cut and a tenth of the balance is more than 99. -/
def TipsFit (prices : TokenPrices) (tipsPct gas balance : ℕ) (swaps : List Swap) : Prop :=
  let excess := totalTip prices tipsPct (gas / swaps.length) swaps - wethProfit prices swaps
  excess + 100 ≤ balance ∨ 990 < balance ∧
    (balance < excess ∨ balance = excess ∧ swaps.any (inWeth prices) = false)

lemma paidOf_fit_iff {weth : Bool} {due profit balance : ℕ} (h : weth = false → profit = 0) :
    paidOf weth due profit balance + 100 ≤ balance ↔
      due - profit + 100 ≤ balance ∨ 990 < balance ∧
        (balance < due - profit ∨ balance = due - profit ∧ weth = false) := by
  unfold paidOf
  cases weth with
  | true =>
      simp only [if_true, Bool.true_eq_false, and_false, or_false]
      split <;> omega
  | false =>
      rw [h rfl]
      simp only [Bool.false_eq_true, if_false, and_true, Nat.sub_zero]
      split <;> omega

lemma wethProfit_of_none {swaps : List Swap} (h : swaps.any (inWeth prices) = false) :
    wethProfit prices swaps = 0 := by
  refine List.sum_eq_zero fun x hx => ?_
  obtain ⟨swap, hswap, rfl⟩ := List.mem_map.mp hx
  exact if_neg (List.any_eq_false.mp h swap hswap)

lemma paidOf_le (weth : Bool) (due profit balance : ℕ) :
    paidOf weth due profit balance ≤ due + balance := by
  unfold paidOf
  split <;> split <;> omega

/-- The swaps that are paid for. -/
structure Payable (prices : TokenPrices) (gas : ℕ) (swaps : List Swap) : Prop where
  total : gas ≤ totalProfit prices swaps
  each : ∀ swap ∈ swaps, PaysGas prices (gas / swaps.length) swap

variable {gasCost : Option U256}

lemma lessThanGas_eq_true_iff {profitEth : U256} :
    lessThanGas profitEth gasCost = true ↔ profitEth.toNat < (gasCost.getD 0).toNat := by
  cases gasCost with
  | none => simp [lessThanGas]
  | some gas => simp [lessThanGas, BitVec.lt_def]

lemma arbProfitEth_lt (prices : TokenPrices) {swap : Swap} (hswap : swap.IsBackrun)
    (hprofit : swap.arbProfit.toNat < 2 ^ 120) : (swap.arbProfitEth prices).toNat < 2 ^ 180 := by
  rw [Swap.arbProfitEth_of_isBackrun prices hswap]
  have hzero : (0 : U256).toNat < 2 ^ 180 := by decide
  cases htoken : swap.getFirstToken with
  | none => exact hzero
  | some token =>
      rw [Option.bind_some, TokenPrices.calcEthValue]
      cases prices.getEthPrice token with
      | none => exact hzero
      | some price =>
          obtain ⟨hvalue, hlt⟩ := toNat_calcEthValue hprofit price
          rw [Option.map_some, Option.getD_some]
          omega

lemma totalProfit_le (prices : TokenPrices) {swaps : List Swap}
    (hswaps : ∀ swap ∈ swaps, swap.IsBackrun ∧ swap.arbProfit.toNat < 2 ^ 120) :
    totalProfit prices swaps ≤ swaps.length * 2 ^ 180 ∧
      (swaps.length < 2 ^ 64 →
        (Swap.arbProfitsEth prices swaps).toNat = totalProfit prices swaps) := by
  induction swaps with
  | nil => exact ⟨Nat.zero_le _, fun _ => rfl⟩
  | cons swap swaps ih =>
      obtain ⟨hswap, hswaps⟩ := List.forall_mem_cons.mp hswaps
      obtain ⟨hle, heq⟩ := ih hswaps
      have hlt := arbProfitEth_lt prices hswap.1 hswap.2
      have hcons : totalProfit prices (swap :: swaps) =
          (swap.arbProfitEth prices).toNat + totalProfit prices swaps := rfl
      rw [hcons, List.length_cons, Swap.arbProfitsEth]
      refine ⟨by omega, fun hlength => ?_⟩
      rw [BitVec.toNat_add_of_lt (by rw [heq (by omega)]; omega), heq (by omega)]

lemma lessThanGas_multiple_iff {swaps : List Swap}
    (hswaps : ∀ swap ∈ swaps, swap.IsBackrun ∧ swap.arbProfit.toNat < 2 ^ 120)
    (hlength : swaps.length < 2 ^ 64) :
    lessThanGas ((Swap.multiple swaps).arbProfitEth prices) gasCost = true ↔
      totalProfit prices swaps < (gasCost.getD 0).toNat := by
  rw [lessThanGas_eq_true_iff, Swap.arbProfitEth, (totalProfit_le prices hswaps).2 hlength]

/-- **What the source does with several swaps.** -/
lemma multipleTips_cases (order : IterationOrder) {swaps : List Swap} {ethBalance : U256}
    (hne : swaps ≠ []) (hswaps : ∀ swap ∈ swaps, swap.IsBackrun ∧ swap.arbProfit.toNat < 2 ^ 120)
    (hlength : swaps.length < 2 ^ 64) (hbalance : ethBalance.toNat < 2 ^ 120)
    (hpct : tipsPct ≤ 10000) (htotal : (gasCost.getD 0).toNat ≤ totalProfit prices swaps) :
    (¬ Payable prices (gasCost.getD 0).toNat swaps ∧ ∃ message,
      multipleTips prices order swaps tipsPct gasCost ethBalance = .error (.error message)) ∨
    Payable prices (gasCost.getD 0).toNat swaps ∧ ∃ tips value,
      multipleTips prices order swaps tipsPct gasCost ethBalance = .ok (tips, value) ∧
      value.toNat = paidOf (swaps.any (inWeth prices))
        (totalTip prices tipsPct ((gasCost.getD 0).toNat / swaps.length) swaps)
        (wethProfit prices swaps) ethBalance.toNat + 100 ∧
      (tips.map fun entry => entry.tips.toNat).sum ≤ value.toNat + wethProfit prices swaps := by
  have hless : lessThanGas ((Swap.multiple swaps).arbProfitEth prices) gasCost = false := by
    rw [Bool.eq_false_iff, Ne, lessThanGas_multiple_iff hswaps hlength]
    omega
  have hgas : (gasCost.getD 0 / BitVec.ofNat 256 swaps.length).toNat =
      (gasCost.getD 0).toNat / swaps.length := by
    rw [BitVec.toNat_udiv, BitVec.toNat_ofNat, Nat.mod_eq_of_lt (by omega)]
  have hlen : ¬ swaps.length = 0 := fun h => hne (List.length_eq_zero_iff.mp h)
  have hloop := collectFrom_cases prices hswaps hpct
    (gasCost.getD 0 / BitVec.ofNat 256 swaps.length) ∅
  rw [hgas] at hloop
  rcases hloop with ⟨hnot, message, herror⟩ | ⟨hall, records, hok, hrecords⟩
  · refine Or.inl ⟨fun h => hnot h.each, message, ?_⟩
    simp only [multipleTips, hless, Bool.false_eq_true, if_false, if_neg hlen, herror, bind,
      Except.bind]
  · refine Or.inr ⟨⟨htotal, hall⟩, ?_⟩
    have hcollected := collectedTips order hlength hpct hrecords
    obtain ⟨tips, value, hspread, hvalue, hsum⟩ :=
      exists_spreadTips hcollected.distinct hbalance hcollected.tips_lt hcollected.profit_lt
    rw [hcollected.weth, hcollected.tips, hcollected.profit] at hvalue
    rw [hcollected.profit] at hsum
    have hlt := hcollected.tips_lt
    rw [hcollected.tips] at hlt
    have hle := paidOf_le (swaps.any (inWeth prices))
      (totalTip prices tipsPct ((gasCost.getD 0).toNat / swaps.length) swaps)
      (wethProfit prices swaps) ethBalance.toNat
    have hadd : (value + 100).toNat = value.toNat + 100 :=
      BitVec.toNat_add_of_lt (show value.toNat + 100 < 2 ^ 256 by omega)
    refine ⟨tips, value + 100, ?_, by omega, by omega⟩
    simp only [multipleTips, hless, Bool.false_eq_true, if_false, if_neg hlen, hok, hspread, bind,
      Except.bind]
    rfl

/-- The source does not panic, what is sent along is there, and it pays for the tips together with
what is earned in the token with the flag. -/
def Affordable (prices : TokenPrices) (order : IterationOrder) (swaps : List Swap) (tipsPct : ℕ)
    (gasCost : Option U256) (ethBalance : U256) (draw : ℕ) : Prop :=
  tipsAndValueForSwapType prices order (.multiple swaps) (some tipsPct) gasCost ethBalance draw ≠
      .error .panic ∧
    ∀ tips value, tipsAndValueForSwapType prices order (.multiple swaps) (some tipsPct) gasCost
        ethBalance draw = .ok (tips, value) →
      value.toNat ≤ ethBalance.toNat ∧
        (tips.map fun entry => entry.tips.toNat).sum ≤ value.toNat + wethProfit prices swaps

/-- **Tips of several swaps.** -/
theorem merged_tips_affordable_iff (prices : TokenPrices) (order : IterationOrder)
    (swaps : List Swap) (tipsPct : ℕ) (gasCost : Option U256) (ethBalance : U256) (draw : ℕ)
    (hswaps : ∀ swap ∈ swaps, swap.IsBackrun ∧ swap.arbProfit.toNat < 2 ^ 120)
    (hlength : swaps.length < 2 ^ 64) (hbalance : ethBalance.toNat < 2 ^ 120)
    (hlow : 50 ≤ tipsPct) (hhigh : tipsPct ≤ 10000) :
    Affordable prices order swaps tipsPct gasCost ethBalance draw ↔
      (swaps = [] → 0 < (gasCost.getD 0).toNat) ∧
      (Payable prices (gasCost.getD 0).toNat swaps →
        TipsFit prices (tipsPct - draw % 50) (gasCost.getD 0).toNat ethBalance.toNat swaps) := by
  have hgasIff : lessThanGas ((Swap.multiple swaps).arbProfitEth prices) gasCost = true ↔
      totalProfit prices swaps < (gasCost.getD 0).toNat := lessThanGas_multiple_iff hswaps hlength
  obtain ⟨advanced, hadvanced, -, -⟩ :=
    exists_tipsPctAdvanced ((Swap.multiple swaps).arbProfitEth prices)
  have hpct : tipsPct - draw % 50 ≤ 10000 := by omega
  have hresult : tipsAndValueForSwapType prices order (.multiple swaps) (some tipsPct) gasCost
      ethBalance draw = if lessThanGas ((Swap.multiple swaps).arbProfitEth prices) gasCost then
        .error (.error "NOT_ENOUGH_PROFIT")
      else multipleTips prices order swaps (tipsPct - draw % 50) gasCost ethBalance := by
    simp only [tipsAndValueForSwapType, hadvanced, Option.getD_some,
      randomizeTipsPct_of_le hlow draw, Failure.ofOption, bind, Except.bind]
  unfold Affordable
  rw [hresult]
  by_cases hless : lessThanGas ((Swap.multiple swaps).arbProfitEth prices) gasCost = true
  · -- refused before the swaps are looked at
    rw [if_pos hless]
    rw [hgasIff] at hless
    refine iff_of_true ⟨by simp, fun _ _ h => absurd h (by simp)⟩ ⟨fun _ => by omega, fun h => ?_⟩
    exact absurd h.total (by omega)
  · rw [if_neg hless]
    by_cases hne : swaps = []
    · subst hne
      have hzero : totalProfit prices [] = 0 := rfl
      have hempty : multipleTips prices order [] (tipsPct - draw % 50) gasCost ethBalance =
          .error .panic := by
        have hgas := Bool.eq_false_iff.mpr hless
        simp only [multipleTips, hgas, Bool.false_eq_true, if_false, List.length_nil, if_true]
      rw [hgasIff] at hless
      rw [hempty]
      exact iff_of_false (fun h => h.1 rfl) fun h => absurd (h.1 rfl) (by omega)
    · rw [hgasIff, not_lt] at hless
      rcases multipleTips_cases order hne hswaps hlength hbalance hpct hless with
        ⟨hnot, message, herror⟩ | ⟨hpays, tips, value, hok, hvalue, hsum⟩
      · rw [herror]
        exact iff_of_true ⟨by simp, fun _ _ h => absurd h (by simp)⟩
          ⟨fun h => absurd h hne, fun h => absurd h hnot⟩
      · have hfit : TipsFit prices (tipsPct - draw % 50) (gasCost.getD 0).toNat ethBalance.toNat
            swaps ↔ value.toNat ≤ ethBalance.toNat := by
          rw [hvalue, paidOf_fit_iff wethProfit_of_none]
          rfl
        rw [hok, hfit]
        constructor
        · rintro ⟨-, h⟩
          exact ⟨fun h => absurd h hne, fun _ => (h tips value rfl).1⟩
        · rintro ⟨-, h⟩
          refine ⟨by simp, fun tips' value' heq => ?_⟩
          cases Except.ok.inj heq
          exact ⟨h hpays, hsum⟩

/-- Without swaps the source divides by zero, and a swap whose tips come close to the balance sends
more along than there is. -/
theorem merged_tips_exceed_balance :
    tipsAndValueForSwapType flatPrices plainOrder (.multiple []) (some 9000) none 1000 0 =
        .error .panic ∧
      ∃ tips value, tipsAndValueForSwapType flatPrices plainOrder
          (.multiple [roundTrip 1 2 1000 2000]) (some 10000) none 1050 0 = .ok (tips, value) ∧
        1050 < value.toNat :=
  ⟨rfl, _, _, rfl, by decide⟩

theorem two_round_trips_affordable :
    Affordable flatPrices plainOrder [roundTrip 1 2 1000 2000, roundTrip 3 4 500 900] 9000
      (some 100) 100000 5 :=
  (merged_tips_affordable_iff flatPrices plainOrder
    [roundTrip 1 2 1000 2000, roundTrip 3 4 500 900] 9000 (some 100) 100000 5
    (List.forall_mem_cons.mpr ⟨⟨trivial, by decide⟩,
      List.forall_mem_singleton.mpr ⟨trivial, by decide⟩⟩)
    (by decide) (by decide) (by decide) (by decide)).mpr
    ⟨fun h => absurd h (by simp), fun _ => Or.inl (by decide)⟩

end Swaps

end Tips

end Kabu
