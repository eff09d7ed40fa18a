import Kabu.Properties.GethFrame

/-!
# Two ways to apply diffs

The database can apply a list of diffs by writing the fields that are given, or by building a new
info for every account that a diff mentions.  The two should leave databases that answer alike, and
a balance or a nonce that a diff does not give should stay.

Storage agrees always.  Building the info anew sets a balance or a nonce that is not given to zero,
takes a code of less than two bytes for none, and starts from the code that the read-only layer has,
where the other way starts from that of all layers below.  So they agree exactly if balances and
nonces are left out only where they are zero, and the code comes out the same: `appliers_agree_iff`.
-/

namespace Kabu

open KabuDBHelper LastWrite DatabaseHelpers

/-- The code that a diff gives an account, if it gives one. -/
def codeWrite (a : Address) (diff : GethStateUpdate) : Option Bytes :=
  (diff.lookup a).bind (·.code)

namespace KabuDB

/-- The balance, the nonce and the code that are read. -/
def infoAnswer (db : KabuDB) (a : Address) : Option (U256 × ℕ × Option Bytecode) :=
  (unwrapOr none (db.basicRef a)).map fun info => (info.balance, info.nonce, info.code)

/-- The databases have the same balances, nonces, codes and slots. -/
structure SameAnswers (db db' : KabuDB) : Prop where
  info : ∀ a, db.infoAnswer a = db'.infoAnswer a
  storage : ∀ a s, db.storageRef a s = db'.storageRef a s

/-- A balance or a nonce that a diff of the list does not give is the one from before the diff.  A
missing account counts as the default one. -/
def KeepsAbsent (apply : KabuDB → GethStateUpdateVec → KabuDB) (db : KabuDB)
    (diffs : GethStateUpdateVec) : Prop :=
  ∀ a, KeepsField (fun diff => diff.lookup a) (fun state => state.balance)
      (fun l => (baseInfo (apply db l).toRef a).balance) diffs ∧
    KeepsField (fun diff => diff.lookup a) (fun state => state.nonce)
      (fun l => (baseInfo (apply db l).toRef a).nonce) diffs

/-- Balances and nonces are left out only where they are zero: where the last one given by an
earlier diff, or else the one of the account in the database, is. -/
def AbsentIsZero (db : KabuDB) (diffs : GethStateUpdateVec) : Prop :=
  ∀ a, a ≠ 0 → ∀ past diff rest state, diffs = past ++ diff :: rest → diff.lookup a = some state →
    (state.balance = none → (lastWrite (balanceWrite a) past).getD
        (db.loadRoRwExtAccount a).2.info.balance = 0) ∧
      (state.nonce = none → (lastWrite (nonceWrite a) past).getD
        (db.loadRoRwExtAccount a).2.info.nonce = 0)

/-- If the last code given to the account has less than two bytes, it is the one the account has
already, and none of the others is longer.  If no code is given, the read-only layer has the same
code for the account as all layers together. -/
structure CodeMatches (db : KabuDB) (diffs : GethStateUpdateVec) (a : Address) : Prop where
  short : ∀ code, lastWrite (codeWrite a) diffs = some code → code.length < 2 →
    (∀ diff ∈ diffs, ∀ c, codeWrite a diff = some c → c.length < 2) ∧
      (db.loadRoRwAccount a).2.info.code = some (Bytecode.newRaw code)
  absent : lastWrite (codeWrite a) diffs = none →
    (db.loadRoRwAccount a).2.info.code = (db.loadRoRwExtAccount a).2.info.code

variable [Keccak] {db : KabuDB} {a : Address}

/-! ## Storage -/

lemma storageRef_appliers (db : KabuDB) (diffs : GethStateUpdateVec) (a : Address) (s : U256) :
    (db.applyGethStateUpdate diffs true false).storageRef a s =
      (db.applyGethUpdateVec diffs).storageRef a s := by
  rw [(hasRecord_applyGethStateUpdate db a diffs false).storageRef_eq,
    (hasRecord_applyGethUpdateVec db a diffs).storageRef_eq]
  cases hlast : lastWrite (fun diff : GethStateUpdate => diff.lookup a) diffs with
  | none => rw [recordAfter_of_none db _ hlast, recordAfter_of_none db _ hlast]
  | some state =>
      have hgeth := recordAfter_cell db a (f := db.gethRecord a) (db.extLoaded a)
        (fun account => account.storage.lookup s) (fun state => state.storage.lookup s)
        (fun record state => AssocMap.lookup_extend _ _ s) diffs
      have hstate := recordAfter_cell db a (f := db.stateRecord a) (db.roLoaded a)
        (fun account => account.storage.lookup s) (fun state => state.storage.lookup s)
        (fun record state => AssocMap.lookup_extend _ _ s) diffs
      have hloaded : ((db.accounts.lookup a).getD (db.extLoaded a)).storage =
          ((db.accounts.lookup a).getD (db.roLoaded a)).storage := by
        cases db.accounts.lookup a with
        | none => rw [Option.getD_none, Option.getD_none, storage_extLoaded, storage_roLoaded]
        | some account => rfl
      obtain ⟨record, hrecord⟩ := recordAfter_of_some db (db.gethRecord a) hlast
      obtain ⟨record', hrecord'⟩ := recordAfter_of_some db (db.stateRecord a) hlast
      rw [hrecord, Option.getD_some] at hgeth
      rw [hrecord', Option.getD_some] at hstate
      have hslots := hstate.trans (hloaded ▸ hgeth.symm)
      rw [hrecord, hrecord']
      simp only [readStorage, hslots]
      rfl

/-! ## Balances and nonces -/

omit [Keccak] in
lemma baseInfo_of_recordAfter {db' : KabuDB} {diffs : GethStateUpdateVec}
    {f : Option FastDbAccount → GethAccountState → FastDbAccount} (ha : a ≠ 0)
    (h : HasRecord db a (db.recordAfter a f diffs) db')
    (hf : ∀ record state, (f record state).info? = some (f record state).info)
    (loaded : FastDbAccount) :
    baseInfo db'.toRef a =
      (lastWrite (fun diff => diff.lookup a) diffs).elim (baseInfo db.toRef a) fun _ =>
        ((db.recordAfter a f diffs).getD loaded).info := by
  rw [baseInfo, show db'.toRef.basicRef a = _ from h.basicRef_eq ha]
  cases hlast : lastWrite (fun diff : GethStateUpdate => diff.lookup a) diffs with
  | none =>
      rw [recordAfter_of_none db _ hlast, Option.elim_none, baseInfo_toRef db ha]
      rfl
  | some state =>
      obtain ⟨record, hrecord⟩ := recordAfter_of_some db f hlast
      rw [hrecord]
      exact congrArg (Option.getD · default) (hf record state)

lemma info?_gethRecord (db : KabuDB) (record : Option FastDbAccount) (state : GethAccountState) :
    (db.gethRecord a record state).info? = some (db.gethRecord a record state).info :=
  FastDbAccount.info?_of_ne (by simp [gethRecord])

lemma info?_stateRecord (db : KabuDB) (record : Option FastDbAccount) (state : GethAccountState) :
    (db.stateRecord a record state).info? = some (db.stateRecord a record state).info :=
  FastDbAccount.info?_of_ne (by simp [stateRecord])

section Field

variable {B : Type*} {get : AccountInfo → B} {field : GethAccountState → Option B}

lemma get_applyGethUpdateVec (ha : a ≠ 0)
    (hget : ∀ info state, get (updateInfo info state) = (field state).getD (get info))
    (diffs : GethStateUpdateVec) :
    get (baseInfo (db.applyGethUpdateVec diffs).toRef a) =
      keptField (fun diff : GethStateUpdate => diff.lookup a) field
        (get (db.loadRoRwExtAccount a).2.info) (get (baseInfo db.toRef a)) diffs := by
  have hcell := recordAfter_cell db a (f := db.gethRecord a) (db.extLoaded a)
    (fun account => some (get account.info)) field (fun record state => by
      rw [gethRecord, hget]
      cases field state <;> rfl) diffs
  rw [← loadRoRwExtAccount_snd] at hcell
  rw [baseInfo_of_recordAfter ha (hasRecord_applyGethUpdateVec db a diffs) db.info?_gethRecord
    (db.extLoaded a), keptField]
  cases lastWrite (fun diff : GethStateUpdate => diff.lookup a) diffs with
  | none => rfl
  | some state =>
      rw [Option.elim_some, Option.elim_some]
      refine Option.some.inj (hcell.trans ?_)
      cases lastWrite (fun diff : GethStateUpdate => (diff.lookup a).bind field) diffs <;> rfl

lemma get_applyGethStateUpdate (ha : a ≠ 0)
    (hget : ∀ info state, get (contractInfo (btreeInfo info state)) =
      (field state).getD (get default))
    (diffs : GethStateUpdateVec) :
    get (baseInfo (db.applyGethStateUpdate diffs true false).toRef a) =
      resetField (fun diff : GethStateUpdate => diff.lookup a) field
        (get (baseInfo db.toRef a)) (get default) diffs := by
  rw [baseInfo_of_recordAfter ha (hasRecord_applyGethStateUpdate db a diffs false)
    db.info?_stateRecord (db.roLoaded a), resetField]
  cases hlast : lastWrite (fun diff : GethStateUpdate => diff.lookup a) diffs with
  | none => rfl
  | some state =>
      obtain ⟨record, hrecord⟩ := recordAfter_of_some db (db.stateRecord a) hlast
      rw [hrecord]
      exact hget _ state

omit [Keccak] in
lemma get_baseInfo (ha : a ≠ 0) (get : AccountInfo → B) :
    get (baseInfo db.toRef a) = get (db.loadRoRwExtAccount a).2.info ∨
      get (baseInfo db.toRef a) = get default := by
  rw [baseInfo_toRef db ha, loadRoRwExtAccount_snd]
  cases db.accounts.lookup a with
  | none =>
      unfold readBasic extLoaded
      cases unwrapOr none (getOrFetchBasic db.readOnlyRef db.extDb a) with
      | none => exact Or.inr rfl
      | some info => exact Or.inl rfl
  | some account =>
      by_cases hstate : account.accountState = .notExisting
      · rw [readBasic, FastDbAccount.info?_of_eq hstate]
        exact Or.inr rfl
      · rw [readBasic, FastDbAccount.info?_of_ne hstate]
        exact Or.inl rfl

variable (ha : a ≠ 0)
  (hgeth : ∀ info state, get (updateInfo info state) = (field state).getD (get info))
  (hstate : ∀ info state, get (contractInfo (btreeInfo info state)) =
    (field state).getD (get default))

include ha hgeth hstate

/-- Both ways keep the field exactly if it is left out only where it is the default one. -/
lemma keepsField_appliers_iff (diffs : GethStateUpdateVec) :
    KeepsField (fun diff : GethStateUpdate => diff.lookup a) field
          (fun l => get (baseInfo (db.applyGethStateUpdate l true false).toRef a)) diffs ∧
        KeepsField (fun diff : GethStateUpdate => diff.lookup a) field
          (fun l => get (baseInfo (db.applyGethUpdateVec l).toRef a)) diffs ↔
      ∀ past diff rest state, diffs = past ++ diff :: rest → diff.lookup a = some state →
        field state = none →
          (lastWrite (fun diff : GethStateUpdate => (diff.lookup a).bind field) past).getD
            (get (db.loadRoRwExtAccount a).2.info) = get default := by
  simp only [get_applyGethUpdateVec ha hgeth, get_applyGethStateUpdate ha hstate]
  exact and_comm.trans (keepsField_iff (get_baseInfo ha get))

lemma get_appliers_eq {diffs : GethStateUpdateVec}
    (hstateUpdate : KeepsField (fun diff : GethStateUpdate => diff.lookup a) field
      (fun l => get (baseInfo (db.applyGethStateUpdate l true false).toRef a)) diffs)
    (hupdateVec : KeepsField (fun diff : GethStateUpdate => diff.lookup a) field
      (fun l => get (baseInfo (db.applyGethUpdateVec l).toRef a)) diffs) :
    get (baseInfo (db.applyGethStateUpdate diffs true false).toRef a) =
      get (baseInfo (db.applyGethUpdateVec diffs).toRef a) := by
  simp only [get_applyGethUpdateVec ha hgeth, get_applyGethStateUpdate ha hstate] at *
  exact (keptField_eq_resetField hupdateVec hstateUpdate (List.append_nil diffs).symm).symm

end Field

/-! ## Codes -/

/-- The code that a diff gives an account, unless it counts as none. -/
def longWrite (a : Address) (diff : GethStateUpdate) : Option Bytes :=
  (codeWrite a diff).bind fun code => if code.length < 2 then none else some code

lemma code_gethRecords (db : KabuDB) (a : Address) (diffs : GethStateUpdateVec) :
    ((db.recordAfter a (db.gethRecord a) diffs).getD (db.extLoaded a)).info.code =
      ((lastWrite (codeWrite a) diffs).map Bytecode.newRaw).or
        (db.loadRoRwExtAccount a).2.info.code := by
  have hcell := recordAfter_cell db a (f := db.gethRecord a) (db.extLoaded a)
    (fun account => account.info.code) (fun state => state.code.map Bytecode.newRaw)
    (fun record state => (infoGiven_updateInfo _ state).code) diffs
  rw [hcell, ← lastWrite_map, loadRoRwExtAccount_snd]
  refine congrArg (fun write => (lastWrite write diffs).or _) (funext fun diff => ?_)
  unfold codeWrite
  cases diff.lookup a <;> rfl

lemma code_stateRecords (db : KabuDB) (a : Address) (diffs : GethStateUpdateVec) :
    ((db.recordAfter a (db.stateRecord a) diffs).getD (db.roLoaded a)).info.code =
      ((lastWrite (longWrite a) diffs).map Bytecode.newRaw).or
        (db.loadRoRwAccount a).2.info.code := by
  have hcell := recordAfter_cell db a (f := db.stateRecord a) (db.roLoaded a)
    (fun account => account.info.code)
    (fun state => (state.code.bind fun code =>
      if code.length < 2 then none else some code).map Bytecode.newRaw)
    (fun record state => by
      show (btreeInfo _ state).code = _
      unfold btreeInfo
      cases state.code with
      | none => rfl
      | some code =>
          by_cases hlength : code.length < 2
          · simp only [Option.bind_some, if_pos hlength]
            rfl
          · simp only [Option.bind_some, if_neg hlength]
            rfl) diffs
  rw [hcell, ← lastWrite_map, loadRoRwAccount_snd]
  refine congrArg (fun write => (lastWrite write diffs).or _) (funext fun diff => ?_)
  unfold longWrite codeWrite
  cases diff.lookup a <;> rfl

omit [Keccak] in
/-- Whether leaving out short codes, and starting from another code, makes a difference. -/
lemma codeMatches_iff (db : KabuDB) (diffs : GethStateUpdateVec) (a : Address) :
    ((lastWrite (longWrite a) diffs).map Bytecode.newRaw).or (db.loadRoRwAccount a).2.info.code =
        ((lastWrite (codeWrite a) diffs).map Bytecode.newRaw).or
          (db.loadRoRwExtAccount a).2.info.code ↔
      CodeMatches db diffs a := by
  have hlong : lastWrite (longWrite a) diffs = none ↔
      ∀ diff ∈ diffs, ∀ c, codeWrite a diff = some c → c.length < 2 := by
    rw [lastWrite_eq_none_iff]
    refine forall₂_congr fun diff _ => ?_
    unfold longWrite
    cases codeWrite a diff <;> simp
  have hlast_long : ∀ code, lastWrite (longWrite a) diffs = some code → ¬ code.length < 2 := by
    intro code hcode
    obtain ⟨past, diff, rest, -, hdiff, -⟩ := (lastWrite_eq_some_iff _ _ _).mp hcode
    obtain ⟨c, -, hc⟩ := Option.bind_eq_some_iff.mp hdiff
    split at hc
    · simp at hc
    · rename_i hlength
      rwa [← Option.some.inj hc]
  cases hcode : lastWrite (codeWrite a) diffs with
  | none =>
      have hnone : lastWrite (longWrite a) diffs = none := lastWrite_bind_of_none _ hcode
      rw [hnone]
      refine ⟨fun h => ⟨fun code hsome => ?_, fun _ => h⟩, fun h => h.absent hcode⟩
      cases hcode.symm.trans hsome
  | some code =>
      rw [Option.map_some, Option.some_or]
      by_cases hlength : code.length < 2
      · cases hlast : lastWrite (longWrite a) diffs with
        | none =>
            refine ⟨fun h => ⟨fun c hc _ => ⟨hlong.mp hlast, ?_⟩, fun hnone => ?_⟩, fun h => ?_⟩
            · rw [← Option.some.inj (hcode.symm.trans hc)]
              exact h
            · cases hcode.symm.trans hnone
            · exact (h.short code hcode hlength).2
        | some c =>
            refine iff_of_false (fun h => ?_) fun h => ?_
            · have hsame : c = code := congrArg Bytecode.bytes (Option.some.inj h)
              exact hlast_long c hlast (hsame ▸ hlength)
            · rw [hlong.mpr (h.short code hcode hlength).1] at hlast
              simp at hlast
      · -- the last code given is long, so it is the last long one
        obtain ⟨past, diff, rest, heq, hdiff, hrest⟩ := (lastWrite_eq_some_iff _ _ _).mp hcode
        have hlast : lastWrite (longWrite a) diffs = some code :=
          (lastWrite_eq_some_iff _ _ _).mpr ⟨past, diff, rest, heq, by
            rw [longWrite, hdiff, Option.bind_some, if_neg hlength], fun later hlater => by
            rw [longWrite, hrest later hlater, Option.bind_none]⟩
        rw [hlast]
        refine iff_of_true rfl ⟨fun c hc hshort => ?_, fun hnone => ?_⟩
        · exact absurd (Option.some.inj (hcode.symm.trans hc) ▸ hshort) hlength
        · cases hcode.symm.trans hnone

/-! ## When the two ways agree -/

omit [Keccak] in
lemma keepsField_zero {B : Type*} (apply : KabuDB → GethStateUpdateVec → KabuDB)
    (get : AccountInfo → B) (field : GethAccountState → Option B) (diffs : GethStateUpdateVec) :
    KeepsField (fun diff : GethStateUpdate => diff.lookup 0) field
      (fun l => get (baseInfo (apply db l).toRef 0)) diffs := by
  have hzero : ∀ db : KabuDB, baseInfo db.toRef 0 = default := fun db => by
    rw [baseInfo, show db.toRef.basicRef 0 = _ from db.basicRef_zero]
    rfl
  intro past diff rest state _ _ _
  dsimp only
  rw [hzero, hzero]

/-- Balances and nonces that are not given stay, both ways, exactly if they are zero. -/
lemma keepsAbsent_iff (db : KabuDB) (diffs : GethStateUpdateVec) :
    KeepsAbsent (fun db diffs => db.applyGethStateUpdate diffs true false) db diffs ∧
        KeepsAbsent applyGethUpdateVec db diffs ↔
      AbsentIsZero db diffs := by
  constructor
  · rintro ⟨hstate, hgeth⟩ a ha past diff rest state heq hlookup
    refine ⟨fun hnone => ?_, fun hnone => ?_⟩
    · exact (keepsField_appliers_iff ha balance_updateInfo (fun _ _ => rfl) diffs).mp
        ⟨(hstate a).1, (hgeth a).1⟩ past diff rest state heq hlookup hnone
    · exact (keepsField_appliers_iff ha nonce_updateInfo (fun _ _ => rfl) diffs).mp
        ⟨(hstate a).2, (hgeth a).2⟩ past diff rest state heq hlookup hnone
  · intro h
    have hboth := fun (a : Address) (ha : a ≠ 0) =>
      And.intro
        ((keepsField_appliers_iff ha balance_updateInfo (fun _ _ => rfl) diffs).mpr
          fun past diff rest state heq hlookup => (h a ha past diff rest state heq hlookup).1)
        ((keepsField_appliers_iff ha nonce_updateInfo (fun _ _ => rfl) diffs).mpr
          fun past diff rest state heq hlookup => (h a ha past diff rest state heq hlookup).2)
    refine ⟨fun a => ?_, fun a => ?_⟩
    · by_cases ha : a = 0
      · subst ha
        exact ⟨keepsField_zero _ _ _ diffs, keepsField_zero _ _ _ diffs⟩
      · exact ⟨(hboth a ha).1.1, (hboth a ha).2.1⟩
    · by_cases ha : a = 0
      · subst ha
        exact ⟨keepsField_zero _ _ _ diffs, keepsField_zero _ _ _ diffs⟩
      · exact ⟨(hboth a ha).1.2, (hboth a ha).2.2⟩

/-- What is read of an account that a diff mentions. -/
lemma infoAnswer_appliers_iff (ha : a ≠ 0) (diffs : GethStateUpdateVec) :
    (db.applyGethStateUpdate diffs true false).infoAnswer a =
        (db.applyGethUpdateVec diffs).infoAnswer a ↔
      ((∃ diff ∈ diffs, (diff.lookup a).isSome = true) →
        (baseInfo (db.applyGethStateUpdate diffs true false).toRef a).balance =
            (baseInfo (db.applyGethUpdateVec diffs).toRef a).balance ∧
          (baseInfo (db.applyGethStateUpdate diffs true false).toRef a).nonce =
            (baseInfo (db.applyGethUpdateVec diffs).toRef a).nonce ∧ CodeMatches db diffs a) := by
  have hstate := hasRecord_applyGethStateUpdate db a diffs false
  have hgeth := hasRecord_applyGethUpdateVec db a diffs
  rw [← lastWrite_isSome_iff (fun diff : GethStateUpdate => diff.lookup a), infoAnswer, infoAnswer,
    hstate.basicRef_eq ha, hgeth.basicRef_eq ha,
    baseInfo_of_recordAfter ha hgeth db.info?_gethRecord (db.extLoaded a),
    baseInfo_of_recordAfter ha hstate db.info?_stateRecord (db.roLoaded a), ← codeMatches_iff,
    ← code_gethRecords, ← code_stateRecords]
  cases hlast : lastWrite (fun diff : GethStateUpdate => diff.lookup a) diffs with
  | none => simp [recordAfter_of_none db _ hlast]
  | some state =>
      obtain ⟨record, hrecord⟩ := recordAfter_of_some db (db.gethRecord a) hlast
      obtain ⟨record', hrecord'⟩ := recordAfter_of_some db (db.stateRecord a) hlast
      rw [hrecord, hrecord']
      simp [readBasic, info?_gethRecord, info?_stateRecord]

end KabuDB

open KabuDB

/-- **When the two ways to apply diffs agree.**  For every database and every list of diffs, the two
ways leave the same balances, nonces, codes and slots, and keep what a diff does not give, exactly
if balances and nonces are left out only where they are zero and, for every account but the zero
address that a diff mentions, the code matches. -/
theorem appliers_agree_iff [Keccak] (db : KabuDB) (diffs : GethStateUpdateVec) :
    (SameAnswers (db.applyGethStateUpdate diffs true false) (db.applyGethUpdateVec diffs) ∧
        KeepsAbsent (fun db diffs => db.applyGethStateUpdate diffs true false) db diffs ∧
        KeepsAbsent applyGethUpdateVec db diffs) ↔
      AbsentIsZero db diffs ∧ ∀ a, a ≠ 0 → (∃ diff ∈ diffs, (diff.lookup a).isSome = true) →
        CodeMatches db diffs a := by
  rw [← keepsAbsent_iff db diffs]
  constructor
  · rintro ⟨⟨hinfo, -⟩, hstate, hgeth⟩
    exact ⟨⟨hstate, hgeth⟩, fun a ha hmentions =>
      ((infoAnswer_appliers_iff ha diffs).mp (hinfo a) hmentions).2.2⟩
  · rintro ⟨⟨hstate, hgeth⟩, hcode⟩
    refine ⟨⟨fun a => ?_, fun a s => storageRef_appliers db diffs a s⟩, hstate, hgeth⟩
    by_cases ha : a = 0
    · rw [ha, infoAnswer, infoAnswer, basicRef_zero, basicRef_zero]
    · refine (infoAnswer_appliers_iff ha diffs).mpr fun hmentions => ⟨?_, ?_, hcode a ha hmentions⟩
      · exact get_appliers_eq ha balance_updateInfo (fun _ _ => rfl) (hstate a).1 (hgeth a).1
      · exact get_appliers_eq ha nonce_updateInfo (fun _ _ => rfl) (hstate a).2 (hgeth a).2

/-! ### A balance that is lost -/

/-- An account with a balance, and a diff that writes one of its slots. -/
def richDb : KabuDB :=
  { KabuDB.new with accounts := AList.singleton 1 (.ofInfo { (default : AccountInfo) with
      balance := 100 }) }

def slotDiff : GethStateUpdate := AList.singleton 1 ⟨none, none, none, AList.singleton 7 1⟩

/-- **A lost balance.**  Building the info anew leaves nothing of the balance. -/
theorem state_update_loses_balance :
    letI := constKeccak
    (richDb.infoAnswer 1).map (·.1) = some 100 ∧
      ((richDb.applyGethUpdateVec [slotDiff]).infoAnswer 1).map (·.1) = some 100 ∧
      ((richDb.applyGethStateUpdate [slotDiff] true false).infoAnswer 1).map (·.1) = some 0 ∧
      ¬ SameAnswers (richDb.applyGethStateUpdate [slotDiff] true false)
        (richDb.applyGethUpdateVec [slotDiff]) := by
  have hgeth : ((@applyGethUpdateVec constKeccak richDb [slotDiff]).infoAnswer 1).map (·.1) =
      some 100 := by decide +kernel
  have hstate : ((@applyGethStateUpdate constKeccak richDb [slotDiff] true false).infoAnswer
      1).map (·.1) = some 0 := by decide +kernel
  refine ⟨by decide +kernel, hgeth, hstate, fun h => ?_⟩
  rw [h.info 1, hgeth] at hstate
  exact absurd hstate (by decide)

end Kabu
