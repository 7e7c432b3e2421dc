import Mathlib.Data.Rat.Cast.Defs
import OmniagentPlus.Foundation.Dictionary
import OmniagentPlus.Foundation.Text
import OmniagentPlus.Foundation.Transition
import OmniagentPlus.CoreContracts.IdentityProfile

/-! `active-turns.ts`: how many turns are active, overall and for each profile, provider and session.
The totals of `ActiveTurnAccounting` count the turns that were begun and not yet settled. -/
namespace OmniagentPlus.Coordinator
open OmniagentPlus.Foundation OmniagentPlus.CoreContracts

/-- A number of the language. -/
inductive Number
  | finite (value : ℚ)
  | nan
  | infinity (negative : Bool)
  deriving DecidableEq

namespace Number

@[irreducible] def maxSafeInteger : ℕ := 9007199254740991

def ofCount (n : ℕ) : Number := finite n

/-- So many more. -/
def plus : Number → ℕ → Number
  | finite value, n => finite (value + n)
  | number, _ => number

end Number

/-- A number that may count turns, where it is one; no entry counts none. -/
def normalizeCount : Option Number → Except String ℕ
  | none => .ok 0
  | some (.finite value) =>
    if value.den = 1 ∧ 0 ≤ value.num ∧ value.num ≤ Number.maxSafeInteger then .ok value.num.toNat
    else .error "Active turn counts must be nonnegative safe integers"
  | some _ => .error "Active turn counts must be nonnegative safe integers"

structure ActiveTurnSnapshot where
  totalActiveTurns : Number
  byProfileId : Dictionary Text Number
  byProvider : Dictionary ProviderFamilyId Number
  bySessionId : Dictionary Text Number
  deriving DecidableEq

def createEmptyActiveTurnSnapshot : ActiveTurnSnapshot := ⟨.ofCount 0,.empty,.empty,.empty⟩

structure ActiveTurnOptions where
  profileId : Text
  provider : ProviderFamilyId
  sessionId : Option Text
  delta : Option Number
  deriving DecidableEq

section Counting

/-- `normalizeCount(normalizeCount(count) + delta)` -/
def addCount (count : Option Number) (delta : ℕ) : Except String Number := do
  let sum ← normalizeCount (some (.ofCount ((← normalizeCount count) + delta)))
  return .ofCount sum

/-- The same for a total of several. -/
def addTo {κ : Type} [DecidableEq κ] (counts : Dictionary κ Number) (key : κ) (delta : ℕ) :
    Except String (Dictionary κ Number) := do
  return counts.set key (← addCount (counts.get? key) delta)

def incrementActiveTurns (snapshot : ActiveTurnSnapshot) (options : ActiveTurnOptions) :
    Except String ActiveTurnSnapshot := do
  let delta ← normalizeCount (some (options.delta.getD (.ofCount 1)))
  let byProfileId ← addTo snapshot.byProfileId options.profileId delta
  let byProvider ← addTo snapshot.byProvider options.provider delta
  let bySessionId ← options.sessionId.elim (pure snapshot.bySessionId) fun sessionId =>
    addTo snapshot.bySessionId sessionId delta
  return ⟨← addCount (some snapshot.totalActiveTurns) delta,byProfileId,byProvider,bySessionId⟩

def decrementActiveTurns (snapshot : ActiveTurnSnapshot) (options : ActiveTurnOptions) :
    Except String ActiveTurnSnapshot := do
  let delta ← normalizeCount (some (options.delta.getD (.ofCount 1)))
  let profile ← normalizeCount (snapshot.byProfileId.get? options.profileId)
  let provider ← normalizeCount (snapshot.byProvider.get? options.provider)
  let session ← options.sessionId.elim (pure 0) fun sessionId => normalizeCount (snapshot.bySessionId.get? sessionId)
  let total ← normalizeCount (some snapshot.totalActiveTurns)
  if profile < delta ∨ provider < delta ∨ total < delta ∨ options.sessionId.isSome ∧ session < delta then
    throw "Active turn settlement exceeds owned counts"
  else
    return ⟨.ofCount (total - delta),snapshot.byProfileId.set options.profileId (.ofCount (profile - delta)),
      snapshot.byProvider.set options.provider (.ofCount (provider - delta)),
      options.sessionId.elim snapshot.bySessionId fun sessionId =>
        snapshot.bySessionId.set sessionId (.ofCount (session - delta))⟩

end Counting

section Accounting

structure OwnedTurn where
  options : ActiveTurnOptions
  settled : Bool
  deriving DecidableEq

/-- `JSON.stringify([sessionId ?? null, turnId])`, by what it is made of. -/
abbrev TurnAccountingKey := Option Text × Text

structure ActiveTurnAccounting where
  current : ActiveTurnSnapshot
  turns : Dictionary TurnAccountingKey OwnedTurn
  deriving DecidableEq

namespace ActiveTurnAccounting

/-- `new ActiveTurnAccounting(snapshot)` -/
def init (snapshot : ActiveTurnSnapshot) : ActiveTurnAccounting := ⟨snapshot,.empty⟩

/-- What a call returns or throws, and the accounting after it. -/
def begin (accounting : ActiveTurnAccounting) (turnId : Text) (options : ActiveTurnOptions) :
    Except String ActiveTurnSnapshot × ActiveTurnAccounting :=
  let key := (options.sessionId,turnId)
  if turnId.isEmpty || (accounting.turns.get? key).isSome then (.error "Turn accounting identity must be new",accounting)
  else
    let owned := { options with delta := some (.ofCount 1) }
    match incrementActiveTurns accounting.current owned with
    | .error error => (.error error,accounting)
    | .ok current => (.ok current,⟨current,accounting.turns.set key ⟨owned,false⟩⟩)

def settle (accounting : ActiveTurnAccounting) (turnId : Text) (sessionId : Option Text) :
    Except String ActiveTurnSnapshot × ActiveTurnAccounting :=
  match accounting.turns.get? (sessionId,turnId) with
  | none => (.error "Turn accounting identity is not owned",accounting)
  | some turn =>
    if turn.settled then (.ok accounting.current,accounting)
    else
      match decrementActiveTurns accounting.current turn.options with
      | .error error => (.error error,accounting)
      | .ok current =>
        (.ok current,⟨current,accounting.turns.set (sessionId,turnId) { turn with settled := true }⟩)

end ActiveTurnAccounting

/-- A call; the keys are those of the turns. -/
inductive AccountingCall
  | begin (turnId : Text) (options : ActiveTurnOptions)
  | settle (turnId : Text) (sessionId : Option Text)
  deriving DecidableEq

namespace AccountingCall

def perform (accounting : ActiveTurnAccounting) : AccountingCall → Except String ActiveTurnSnapshot × ActiveTurnAccounting
  | begin turnId options => accounting.begin turnId options
  | settle turnId sessionId => accounting.settle turnId sessionId

def key : AccountingCall → TurnAccountingKey
  | begin turnId options => (options.sessionId,turnId)
  | settle turnId sessionId => (sessionId,turnId)

def isBegin : AccountingCall → Bool
  | begin _ _ => true
  | settle _ _ => false

end AccountingCall

/-- The calls that are accepted one after another, and the accounting after them all. -/
def acceptedCalls (accounting : ActiveTurnAccounting) : List AccountingCall → List AccountingCall × ActiveTurnAccounting
  | [] => ([],accounting)
  | call :: calls =>
    let next := call.perform accounting
    let rest := acceptedCalls next.2 calls
    (if next.1.isOk then call :: rest.1 else rest.1,rest.2)

/-- A turn that is begun is active until it is settled. -/
def noteTurn (active : Dictionary TurnAccountingKey ActiveTurnOptions) :
    AccountingCall → Dictionary TurnAccountingKey ActiveTurnOptions
  | .begin turnId options => active.set (options.sessionId,turnId) options
  | .settle turnId sessionId => active.erase (sessionId,turnId)

/-- The turns begun and not yet settled. -/
def activeTurns (accepted : List AccountingCall) : Dictionary TurnAccountingKey ActiveTurnOptions :=
  accepted.foldl noteTurn .empty

end Accounting

section Totals

/-- The totals that a snapshot has. -/
inductive Account
  | overall
  | profile (profileId : Text)
  | provider (provider : ProviderFamilyId)
  | session (sessionId : Text)
  deriving DecidableEq

/-- What the snapshot has for a total, if anything. -/
def ActiveTurnSnapshot.entry (snapshot : ActiveTurnSnapshot) : Account → Option Number
  | .overall => some snapshot.totalActiveTurns
  | .profile profileId => snapshot.byProfileId.get? profileId
  | .provider provider => snapshot.byProvider.get? provider
  | .session sessionId => snapshot.bySessionId.get? sessionId

/-- No entry is a total of none. -/
def ActiveTurnSnapshot.total (snapshot : ActiveTurnSnapshot) (account : Account) : Number :=
  (snapshot.entry account).getD (.ofCount 0)

/-- A turn belongs to a total. -/
def ActiveTurnOptions.belongs (options : ActiveTurnOptions) : Account → Bool
  | .overall => true
  | .profile profileId => options.profileId == profileId
  | .provider provider => options.provider == provider
  | .session sessionId => options.sessionId == some sessionId

theorem Number.ofCount_inj {m n : ℕ} : Number.ofCount m = .ofCount n ↔ m = n := by simp [Number.ofCount]

theorem Number.plus_zero (number : Number) : number.plus 0 = number := by cases number <;> simp [Number.plus]

theorem Number.plus_succ (number : Number) (n : ℕ) : number.plus (n + 1) = (number.plus n).plus 1 := by
  cases number <;> simp [Number.plus, add_assoc]

theorem Number.ofCount_plus (m n : ℕ) : (Number.ofCount m).plus n = .ofCount (m + n) := by
  simp [Number.ofCount, Number.plus]

theorem Number.plus_cancel {number : Number} {k : ℕ} (h : number.plus 1 = .ofCount (k + 1)) : number = .ofCount k := by
  cases number <;> simp_all [Number.ofCount, Number.plus]

/-- Only a whole number in range is read as a count. -/
theorem normalizeCount_eq_ok {count : Option Number} {n : ℕ} :
    normalizeCount count = .ok n ↔ count.getD (.ofCount 0) = .ofCount n ∧ n ≤ Number.maxSafeInteger := by
  cases count with
  | none =>
    simp only [normalizeCount, Except.ok.injEq, Option.getD_none, Number.ofCount_inj]
    exact ⟨fun h => ⟨h,by omega⟩,And.left⟩
  | some number =>
    cases number with
    | nan => simp [normalizeCount, Number.ofCount]
    | infinity negative => simp [normalizeCount, Number.ofCount]
    | finite value =>
      simp only [normalizeCount, Option.getD_some]
      split_ifs with h
      · obtain ⟨hden,hnum,hle⟩ := h
        obtain ⟨n,rfl⟩ : ∃ n : ℕ, value = n := by
          refine ⟨value.num.toNat,?_⟩
          rw [← Int.cast_natCast, Int.toNat_of_nonneg hnum, Rat.coe_int_num_of_den_eq_one hden]
        rw [Rat.num_natCast] at hle ⊢
        rw [Int.toNat_natCast, Except.ok.injEq]
        constructor
        · rintro rfl
          exact ⟨rfl,by omega⟩
        · rintro ⟨heq,-⟩
          exact Number.ofCount_inj.mp heq
      · refine iff_of_false (by simp) ?_
        rintro ⟨heq,hle⟩
        cases heq
        exact h ⟨by simp,by simp,by simpa using hle⟩

theorem addCount_eq_ok {count : Option Number} {number : Number} : addCount count 1 = .ok number ↔
    ∃ n, normalizeCount count = .ok n ∧ n + 1 ≤ Number.maxSafeInteger ∧ number = .ofCount (n + 1) := by
  unfold addCount
  rw [except_bind_eq_ok]
  constructor
  · rintro ⟨n,hn,h⟩
    obtain ⟨sum,hsum,h⟩ := except_bind_eq_ok.mp h
    obtain ⟨heq,hle⟩ := normalizeCount_eq_ok.mp hsum
    cases h
    exact ⟨n,hn,Number.ofCount_inj.mp heq ▸ hle,congrArg _ (Number.ofCount_inj.mp heq).symm⟩
  · rintro ⟨n,hn,hle,rfl⟩
    refine ⟨n,hn,except_bind_eq_ok.mpr ⟨n + 1,normalizeCount_eq_ok.mpr ⟨rfl,hle⟩,rfl⟩⟩

section Entries
variable {snapshot next : ActiveTurnSnapshot} {options : ActiveTurnOptions}

theorem normalizeCount_one {delta : Option Number} (h : delta = some (.ofCount 1)) :
    normalizeCount (some (delta.getD (.ofCount 1))) = .ok 1 := by
  subst h
  exact normalizeCount_eq_ok.mpr ⟨rfl,by rw [Number.maxSafeInteger]; omega⟩

theorem addTo_ok {κ : Type} [DecidableEq κ] {counts counts' : Dictionary κ Number} {key : κ}
    (h : addTo counts key 1 = .ok counts') (k : κ) :
    if key = k then ∃ n, normalizeCount (counts.get? k) = .ok n ∧ n + 1 ≤ Number.maxSafeInteger ∧
      counts'.get? k = some (.ofCount (n + 1))
    else counts'.get? k = counts.get? k := by
  obtain ⟨number,hnumber,h⟩ := except_bind_eq_ok.mp h
  cases h
  obtain ⟨n,hn,hle,rfl⟩ := addCount_eq_ok.mp hnumber
  split_ifs with hk
  · subst hk
    exact ⟨n,hn,hle,Dictionary.get?_set_self _ _ _⟩
  · exact Dictionary.get?_set_of_ne _ _ (Ne.symm hk)

theorem setCount_ok {κ : Type} [DecidableEq κ] {counts : Dictionary κ Number} {key : κ} {n : ℕ}
    (h : normalizeCount (counts.get? key) = .ok (n + 1)) (k : κ) :
    if key = k then ∃ n', normalizeCount (counts.get? k) = .ok (n' + 1) ∧
      (counts.set key (.ofCount n)).get? k = some (.ofCount n')
    else (counts.set key (.ofCount n)).get? k = counts.get? k := by
  split_ifs with hk
  · subst hk
    exact ⟨n,h,Dictionary.get?_set_self _ _ _⟩
  · exact Dictionary.get?_set_of_ne _ _ (Ne.symm hk)

/-- One turn more in every total that it belongs to. -/
theorem incrementActiveTurns_ok (hdelta : options.delta = some (.ofCount 1))
    (h : incrementActiveTurns snapshot options = .ok next) (account : Account) :
    if options.belongs account then ∃ n, normalizeCount (snapshot.entry account) = .ok n ∧
      n + 1 ≤ Number.maxSafeInteger ∧ next.entry account = some (.ofCount (n + 1))
    else next.entry account = snapshot.entry account := by
  obtain ⟨delta,hone,h⟩ := except_bind_eq_ok.mp h
  obtain rfl : 1 = delta := Except.ok.inj ((normalizeCount_one hdelta).symm.trans hone)
  obtain ⟨byProfileId,hprofile,h⟩ := except_bind_eq_ok.mp h
  obtain ⟨byProvider,hprovider,h⟩ := except_bind_eq_ok.mp h
  obtain ⟨bySessionId,hsession,h⟩ := except_bind_eq_ok.mp h
  obtain ⟨overall,hoverall,h⟩ := except_bind_eq_ok.mp h
  cases h
  cases account with
  | overall =>
    obtain ⟨n,hn,hle,rfl⟩ := addCount_eq_ok.mp hoverall
    exact ⟨n,hn,hle,rfl⟩
  | profile profileId => simpa [ActiveTurnOptions.belongs, ActiveTurnSnapshot.entry] using addTo_ok hprofile profileId
  | provider family => simpa [ActiveTurnOptions.belongs, ActiveTurnSnapshot.entry] using addTo_ok hprovider family
  | session sessionId =>
    cases hid : options.sessionId with
    | none =>
      rw [hid] at hsession
      cases hsession
      simp [ActiveTurnOptions.belongs, ActiveTurnSnapshot.entry, hid]
    | some id =>
      rw [hid] at hsession
      simpa [ActiveTurnOptions.belongs, ActiveTurnSnapshot.entry, hid] using addTo_ok hsession sessionId

/-- A turn that every total has of those that it belongs to can be taken back. -/
theorem decrementActiveTurns_ok (hdelta : options.delta = some (.ofCount 1))
    (h : ∀ account, options.belongs account = true → ∃ n, normalizeCount (snapshot.entry account) = .ok (n + 1)) :
    ∃ next, decrementActiveTurns snapshot options = .ok next ∧ ∀ account,
      if options.belongs account then ∃ n, normalizeCount (snapshot.entry account) = .ok (n + 1) ∧
        next.entry account = some (.ofCount n)
      else next.entry account = snapshot.entry account := by
  obtain ⟨profile,hprofile⟩ := h (.profile options.profileId) (by simp [ActiveTurnOptions.belongs])
  obtain ⟨provider,hprovider⟩ := h (.provider options.provider) (by simp [ActiveTurnOptions.belongs])
  obtain ⟨overall,hoverall⟩ := h .overall rfl
  obtain ⟨session,hsession,hleft⟩ : ∃ session, options.sessionId.elim (pure 0) (fun sessionId =>
      normalizeCount (snapshot.bySessionId.get? sessionId)) = Except.ok session ∧
        ∀ id ∈ options.sessionId, normalizeCount (snapshot.bySessionId.get? id) = .ok (session - 1 + 1) ∧ 1 ≤ session := by
    cases hid : options.sessionId with
    | none => exact ⟨0,rfl,by simp⟩
    | some id =>
      obtain ⟨n,hn⟩ := h (.session id) (by simp [ActiveTurnOptions.belongs, hid])
      refine ⟨n + 1,hn,?_⟩
      rintro _ ⟨⟩
      exact ⟨hn,by omega⟩
  refine ⟨⟨.ofCount overall,snapshot.byProfileId.set options.profileId (.ofCount profile),
    snapshot.byProvider.set options.provider (.ofCount provider),
    options.sessionId.elim snapshot.bySessionId fun sessionId =>
      snapshot.bySessionId.set sessionId (.ofCount (session - 1))⟩,?_,fun account => ?_⟩
  · refine except_bind_eq_ok.mpr ⟨1,normalizeCount_one hdelta,?_⟩
    refine except_bind_eq_ok.mpr ⟨profile + 1,hprofile,?_⟩
    refine except_bind_eq_ok.mpr ⟨provider + 1,hprovider,?_⟩
    refine except_bind_eq_ok.mpr ⟨session,hsession,?_⟩
    refine except_bind_eq_ok.mpr ⟨overall + 1,hoverall,?_⟩
    have hroom : options.sessionId.isSome = true → 1 ≤ session := by
      intro hsome
      obtain ⟨id,hid⟩ := Option.isSome_iff_exists.mp hsome
      exact (hleft id hid).2
    rw [if_neg (by rintro (h | h | h | ⟨hsome,h⟩) <;> [skip; skip; skip; have := hroom hsome] <;> omega)]
    rfl
  · cases account with
    | overall => exact ⟨overall,hoverall,rfl⟩
    | profile profileId => simpa [ActiveTurnOptions.belongs, ActiveTurnSnapshot.entry] using setCount_ok hprofile profileId
    | provider family => simpa [ActiveTurnOptions.belongs, ActiveTurnSnapshot.entry] using setCount_ok hprovider family
    | session sessionId =>
      cases hid : options.sessionId with
      | none => simp [ActiveTurnOptions.belongs, ActiveTurnSnapshot.entry, hid]
      | some id =>
        simpa [ActiveTurnOptions.belongs, ActiveTurnSnapshot.entry, hid] using setCount_ok (hleft id hid).1 sessionId

end Entries

end Totals

section Runs

/-- The total counts so many turns over its initial value; a total that counts turns can be read. -/
def Counts (initial : Number) (n : ℕ) (entry : Option Number) : Prop :=
  entry.getD (.ofCount 0) = initial.plus n ∧ (0 < n → ∃ k, normalizeCount entry = .ok k ∧ n ≤ k)

theorem Counts.more {initial : Number} {n k : ℕ} {entry entry' : Option Number} (h : Counts initial n entry)
    (hk : normalizeCount entry = .ok k) (hle : k + 1 ≤ Number.maxSafeInteger) (hentry : entry' = some (.ofCount (k + 1))) :
    Counts initial (n + 1) entry' := by
  obtain ⟨hvalue,hroom⟩ := h
  subst hentry
  have hread : normalizeCount (some (.ofCount (k + 1))) = .ok (k + 1) := normalizeCount_eq_ok.mpr ⟨rfl,hle⟩
  refine ⟨?_,fun _ => ⟨k + 1,hread,?_⟩⟩
  · rw [Number.plus_succ, ← hvalue, (normalizeCount_eq_ok.mp hk).1, Number.ofCount_plus]
    rfl
  · rcases Nat.eq_zero_or_pos n with rfl | hn
    · omega
    · obtain ⟨k',hk',hnk⟩ := hroom hn
      obtain rfl : k = k' := Except.ok.inj (hk.symm.trans hk')
      omega

theorem Counts.less {initial : Number} {n k : ℕ} {entry entry' : Option Number} (h : Counts initial (n + 1) entry)
    (hk : normalizeCount entry = .ok (k + 1)) (hentry : entry' = some (.ofCount k)) : Counts initial n entry' := by
  obtain ⟨hvalue,hroom⟩ := h
  subst hentry
  obtain ⟨hread,hle⟩ := normalizeCount_eq_ok.mp hk
  have hback : normalizeCount (some (.ofCount k)) = .ok k := normalizeCount_eq_ok.mpr ⟨rfl,by omega⟩
  refine ⟨?_,fun _ => ⟨k,hback,?_⟩⟩
  · rw [hread, Number.plus_succ] at hvalue
    exact (Number.plus_cancel hvalue.symm).symm
  · obtain ⟨k',hk',hnk⟩ := hroom (by omega)
    obtain rfl : k + 1 = k' := Except.ok.inj (hk.symm.trans hk')
    omega

/-- The books after the accepted calls. -/
structure Accounted (initial : ActiveTurnSnapshot) (accepted : List AccountingCall) (accounting : ActiveTurnAccounting) :
    Prop where
  owned : ∀ call ∈ accepted, (accounting.turns.get? call.key).isSome = true
  settled : ∀ call ∈ accepted, call.isBegin = false → ∃ turn, accounting.turns.get? call.key = some turn ∧ turn.settled = true
  active : ∀ key, (activeTurns accepted).get? key = none ↔ ∀ turn, accounting.turns.get? key = some turn → turn.settled = true
  turns : ∀ key options, (activeTurns accepted).get? key = some options →
    ∃ turn, accounting.turns.get? key = some turn ∧ turn.settled = false ∧
      turn.options = { options with delta := some (.ofCount 1) }
  counts : ∀ account, Counts (initial.total account)
    ((activeTurns accepted).values.countP fun options => options.belongs account) (accounting.current.entry account)

theorem accounted_init (initial : ActiveTurnSnapshot) : Accounted initial [] (.init initial) where
  owned := by simp
  settled := by simp
  active key := by simp [activeTurns, ActiveTurnAccounting.init]
  turns key options h := by simp [activeTurns] at h
  counts account := ⟨by simp [activeTurns, Dictionary.empty, Dictionary.values, Number.plus_zero]; rfl,
    by simp [activeTurns, Dictionary.empty, Dictionary.values]⟩

theorem activeTurns_concat (accepted : List AccountingCall) (call : AccountingCall) :
    activeTurns (accepted ++ [call]) = noteTurn (activeTurns accepted) call := by
  simp [activeTurns]

variable {initial : ActiveTurnSnapshot} {accepted : List AccountingCall} {accounting : ActiveTurnAccounting}

/-- A begin is accepted and counted, or it leaves the accounting as it was. -/
theorem Accounted.begin (h : Accounted initial accepted accounting) (turnId : Text) (options : ActiveTurnOptions) :
    (∃ error, accounting.begin turnId options = (.error error,accounting)) ∨
      ∃ current accounting', accounting.begin turnId options = (.ok current,accounting') ∧
        Accounted initial (accepted ++ [.begin turnId options]) accounting' := by
  unfold ActiveTurnAccounting.begin
  dsimp only
  split_ifs with hnew
  · exact .inl ⟨_,rfl⟩
  cases hincrement : incrementActiveTurns accounting.current { options with delta := some (.ofCount 1) } with
  | error error => exact .inl ⟨error,rfl⟩
  | ok current =>
    refine .inr ⟨current,_,rfl,?_⟩
    have hnone : accounting.turns.get? (options.sessionId,turnId) = none := by
      simp only [Bool.or_eq_true, not_or, Option.not_isSome_iff_eq_none] at hnew
      exact hnew.2
    have hinactive : (activeTurns accepted).get? (options.sessionId,turnId) = none := by
      refine (h.active _).mpr fun turn hturn => ?_
      rw [hnone] at hturn
      cases hturn
    have hset := Dictionary.get?_set accounting.turns (options.sessionId,turnId)
    constructor
    · intro call hcall
      rw [hset]
      split_ifs with hkey
      · rfl
      · rcases List.mem_append.mp hcall with hcall | hcall
        · exact h.owned call hcall
        · exact absurd (congrArg AccountingCall.key (List.mem_singleton.mp hcall)) hkey
    · intro call hcall hbegin
      rcases List.mem_append.mp hcall with hcall | hcall
      · obtain ⟨turn,hturn,hsettled⟩ := h.settled call hcall hbegin
        refine ⟨turn,?_,hsettled⟩
        rw [hset, if_neg, hturn]
        intro hkey
        rw [hkey, hnone] at hturn
        cases hturn
      · rw [List.mem_singleton.mp hcall] at hbegin
        cases hbegin
    · intro key
      rw [activeTurns_concat, noteTurn, Dictionary.get?_set, hset]
      split_ifs with hkey
      · simp
      · exact h.active key
    · intro key options' hkey'
      rw [activeTurns_concat, noteTurn, Dictionary.get?_set] at hkey'
      rw [hset]
      split_ifs at hkey' ⊢ with hkey
      · cases hkey'
        exact ⟨_,rfl,rfl,rfl⟩
      · exact h.turns key options' hkey'
    · intro account
      have hentry := incrementActiveTurns_ok rfl hincrement account
      rw [activeTurns_concat, noteTurn, Dictionary.countP_set _ hinactive]
      have hbelongs : ActiveTurnOptions.belongs { options with delta := some (.ofCount 1) } account = options.belongs account := by
        cases account <;> rfl
      rw [hbelongs] at hentry
      split_ifs at hentry ⊢ with hcharged
      · obtain ⟨k,hk,hle,hentry⟩ := hentry
        exact (h.counts account).more hk hle hentry
      · rw [hentry]
        exact h.counts account

/-- A settlement of an owned turn is accepted; a settled turn's leaves the accounting as it was. -/
theorem Accounted.settle (h : Accounted initial accepted accounting) (turnId : Text) (sessionId : Option Text) :
    (accounting.turns.get? (sessionId,turnId) = none ∧
      ∃ error, accounting.settle turnId sessionId = (.error error,accounting)) ∨
      ∃ turn current accounting', accounting.turns.get? (sessionId,turnId) = some turn ∧
        accounting.settle turnId sessionId = (.ok current,accounting') ∧
        Accounted initial (accepted ++ [.settle turnId sessionId]) accounting' ∧
        (turn.settled = true → accounting' = accounting) := by
  unfold ActiveTurnAccounting.settle
  cases hturn : accounting.turns.get? (sessionId,turnId) with
  | none => exact .inl ⟨rfl,_,rfl⟩
  | some turn =>
    dsimp only
    split_ifs with hsettled
    · refine .inr ⟨turn,_,_,rfl,rfl,?_,fun _ => rfl⟩
      have hnone : (activeTurns accepted).get? (sessionId,turnId) = none := by
        refine (h.active _).mpr fun turn' hturn' => ?_
        rw [hturn] at hturn'
        cases hturn'
        exact hsettled
      have hsame : activeTurns (accepted ++ [.settle turnId sessionId]) = activeTurns accepted := by
        rw [activeTurns_concat, noteTurn, Dictionary.erase_of_none _ hnone]
      exact {
        owned := fun call hcall => by
          rcases List.mem_append.mp hcall with hcall | hcall
          · exact h.owned call hcall
          · rw [List.mem_singleton.mp hcall]
            exact Option.isSome_iff_exists.mpr ⟨turn,hturn⟩
        settled := fun call hcall hbegin => by
          rcases List.mem_append.mp hcall with hcall | hcall
          · exact h.settled call hcall hbegin
          · rw [List.mem_singleton.mp hcall]
            exact ⟨turn,hturn,hsettled⟩
        active := by rw [hsame]; exact h.active
        turns := by rw [hsame]; exact h.turns
        counts := by rw [hsame]; exact h.counts }
    · have hactive : ∃ options, (activeTurns accepted).get? (sessionId,turnId) = some options ∧
          turn.options = { options with delta := some (.ofCount 1) } := by
        cases hget : (activeTurns accepted).get? (sessionId,turnId) with
        | none => exact absurd ((h.active _).mp hget turn hturn) hsettled
        | some options =>
          obtain ⟨turn',hturn',-,hoptions⟩ := h.turns _ _ hget
          rw [hturn] at hturn'
          cases hturn'
          exact ⟨options,rfl,hoptions⟩
      obtain ⟨options,hget,hoptions⟩ := hactive
      have hbelongs : ∀ account, turn.options.belongs account = options.belongs account := by
        intro account
        rw [hoptions]
        cases account <;> rfl
      have hcount := fun account => Dictionary.countP_erase (activeTurns accepted) hget fun options => options.belongs account
      have hroom : ∀ account, turn.options.belongs account = true →
          ∃ n, normalizeCount (accounting.current.entry account) = .ok (n + 1) := by
        intro account hcharged
        have hpositive := hcount account
        rw [← hbelongs, if_pos hcharged] at hpositive
        obtain ⟨k,hk,hle⟩ := (h.counts account).2 (by omega)
        obtain ⟨n,rfl⟩ : ∃ n, k = n + 1 := ⟨k - 1,by omega⟩
        exact ⟨n,hk⟩
      obtain ⟨next,hnext,hentries⟩ := decrementActiveTurns_ok (by rw [hoptions]) hroom
      rw [hnext]
      refine .inr ⟨turn,_,_,rfl,rfl,?_,fun htrue => absurd htrue hsettled⟩
      have hset := Dictionary.get?_set accounting.turns (sessionId,turnId)
      constructor
      · intro call hcall
        rw [hset]
        split_ifs with hkey
        · rfl
        · rcases List.mem_append.mp hcall with hcall | hcall
          · exact h.owned call hcall
          · exact absurd (congrArg AccountingCall.key (List.mem_singleton.mp hcall)) hkey
      · intro call hcall hbegin
        rw [hset]
        split_ifs with hkey
        · exact ⟨_,rfl,rfl⟩
        · rcases List.mem_append.mp hcall with hcall | hcall
          · exact h.settled call hcall hbegin
          · exact absurd (congrArg AccountingCall.key (List.mem_singleton.mp hcall)) hkey
      · intro key
        rw [activeTurns_concat, noteTurn, Dictionary.get?_erase, hset]
        split_ifs with hkey
        · simp
        · exact h.active key
      · intro key options' hkey'
        rw [activeTurns_concat, noteTurn, Dictionary.get?_erase] at hkey'
        rw [hset]
        split_ifs at hkey' ⊢ with hkey
        exact h.turns key options' hkey'
      · intro account
        have hentry := hentries account
        have hless := hcount account
        rw [hbelongs] at hentry
        rw [activeTurns_concat, noteTurn]
        split_ifs at hentry hless with hcharged
        · obtain ⟨k,hk,hentry⟩ := hentry
          have hbefore := h.counts account
          rw [← hless] at hbefore
          exact hbefore.less hk hentry
        · rw [hentry]
          rw [Nat.add_zero] at hless
          rw [hless]
          exact h.counts account

/-- Every sequence of calls keeps the books. -/
theorem Accounted.run (h : Accounted initial accepted accounting) (calls : List AccountingCall) :
    Accounted initial (accepted ++ (acceptedCalls accounting calls).1) (acceptedCalls accounting calls).2 := by
  induction calls generalizing accepted accounting with
  | nil => simpa [acceptedCalls] using h
  | cons call calls ih =>
    have hnext : ∀ {r : Except String ActiveTurnSnapshot × ActiveTurnAccounting}, call.perform accounting = r →
        Accounted initial (accepted ++ if r.1.isOk then [call] else []) r.2 →
          Accounted initial (accepted ++ (acceptedCalls accounting (call :: calls)).1)
            (acceptedCalls accounting (call :: calls)).2 := by
      rintro r rfl hr
      have hrest := ih hr
      rw [acceptedCalls]
      split_ifs at hrest with hok
      · simpa [hok] using hrest
      · simpa [hok] using hrest
    cases call with
    | begin turnId options =>
      rcases h.begin turnId options with ⟨error,heq⟩ | ⟨current,accounting',heq,hstep⟩
      · exact hnext heq (by simpa [Except.isOk, Except.toBool] using h)
      · exact hnext heq (by simpa [Except.isOk, Except.toBool] using hstep)
    | settle turnId sessionId =>
      rcases h.settle turnId sessionId with ⟨-,error,heq⟩ | ⟨turn,current,accounting',-,heq,hstep,-⟩
      · exact hnext heq (by simpa [Except.isOk, Except.toBool] using h)
      · exact hnext heq (by simpa [Except.isOk, Except.toBool] using hstep)

variable (initial) in
/-- After every sequence of calls each total is its initial value and the number of the turns, begun and not yet settled,
that belong to it. An owned turn is settled, a settled one without effect, and a rejected begin changes nothing. -/
theorem activeTurns_accounted (calls : List AccountingCall) :
    let accepted := (acceptedCalls (.init initial) calls).1
    let accounting := (acceptedCalls (.init initial) calls).2
    (∀ account, accounting.current.total account = (initial.total account).plus
      ((activeTurns accepted).values.countP fun options => options.belongs account)) ∧
    (∀ call ∈ accepted, ∃ current, (accounting.settle call.key.2 call.key.1).1 = .ok current) ∧
    (∀ call ∈ accepted, call.isBegin = false →
      accounting.settle call.key.2 call.key.1 = (.ok accounting.current,accounting)) ∧
    (∀ turnId options error, (accounting.begin turnId options).1 = .error error →
      (accounting.begin turnId options).2 = accounting) := by
  have h := (accounted_init initial).run calls
  rw [List.nil_append] at h
  refine ⟨fun account => (h.counts account).1,?_,?_,?_⟩
  · intro call hcall
    rcases h.settle call.key.2 call.key.1 with ⟨hnone,-⟩ | ⟨turn,current,accounting',-,heq,-⟩
    · have howned := h.owned call hcall
      rw [hnone] at howned
      cases howned
    · exact ⟨current,by rw [heq]⟩
  · intro call hcall hbegin
    obtain ⟨turn,hturn,hsettled⟩ := h.settled call hcall hbegin
    simp [ActiveTurnAccounting.settle, hturn, hsettled]
  · intro turnId options error herror
    rcases h.begin turnId options with ⟨error',heq⟩ | ⟨current,accounting',heq,-⟩
    · rw [heq]
    · rw [heq] at herror
      cases herror

end Runs
end OmniagentPlus.Coordinator
