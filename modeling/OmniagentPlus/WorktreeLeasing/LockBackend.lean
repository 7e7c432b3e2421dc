import OmniagentPlus.StateLedger.FilesystemLock
import OmniagentPlus.CoreContracts.Worktree

/-! `locks.ts`: calls of a `FilesystemLockBackend` for one resource, from any number of processes, over the steps of
`withFilesystemLock`. The holder file beside the lock says whose callback is under way. -/
namespace OmniagentPlus.WorktreeLeasing.FilesystemLockBackend
open OmniagentPlus.Foundation OmniagentPlus.CoreContracts OmniagentPlus.StateLedger
open FilesystemLock (Stage)

section Metadata

structure DurableLockMetadata where
  resourceId : String
  fencingToken : String
  holder : LeaseHolder
  acquiredAt : String
  expiresAt : String
  lockPath : String
  deriving DecidableEq, Repr

/-- What the code takes from the standard library: datetimes as the schema has them, `Date.parse` and `toISOString`. -/
structure Clock where
  isDatetime : String → Bool
  parse : String → Option ℤ
  toISOString : ℤ → Option String

/-- The resource that a backend locks and the path of its lock. -/
structure LockPlace where
  resourceId : String
  lockPath : String
  deriving DecidableEq, Repr

structure LockAttempt where
  holder : LeaseHolder
  fencingToken : String
  now : String
  ttlSeconds : ℤ

inductive AttemptError
  | invalidTime
  | schema
  | invalidTtl
  | lockIdentity
  deriving DecidableEq, Repr

variable (clock : Clock) (place : LockPlace)

/-- `metadataSchema` -/
def DurableLockMetadata.allowed (m : DurableLockMetadata) : Bool :=
  m.resourceId != "" && m.fencingToken != "" && m.holder.host != "" && m.holder.sessionId != some "" &&
    m.holder.turnId != some "" && clock.isDatetime m.acquiredAt && clock.isDatetime m.expiresAt && m.lockPath != ""

def parseMetadata (m : DurableLockMetadata) : Except AttemptError DurableLockMetadata :=
  if m.allowed clock then .ok m else .error .schema

def buildExpiresAt (now : String) (ttlSeconds : ℤ) : Except AttemptError String :=
  match (clock.parse now).bind fun t => clock.toISOString (t + ttlSeconds * 1000) with
  | some text => .ok text
  | none => .error .invalidTime

/-- `tryExclusiveLock` up to its call of `withFilesystemLock`. -/
def buildMetadata (attempt : LockAttempt) : Except AttemptError DurableLockMetadata := do
  let expiresAt ← buildExpiresAt clock attempt.now attempt.ttlSeconds
  let metadata ← parseMetadata clock
    ⟨place.resourceId,attempt.fencingToken,attempt.holder,attempt.now,expiresAt,place.lockPath⟩
  if attempt.ttlSeconds ≤ 0 ∨ 9007199254740992 ≤ attempt.ttlSeconds then .error .invalidTtl else .ok metadata

/-- `readLockMetadata` of what is in the holder file. -/
def readLockMetadata (file : Option DurableLockMetadata) : Except AttemptError (Option DurableLockMetadata) :=
  match file with
  | none => .ok none
  | some m => do
    let metadata ← parseMetadata clock m
    if metadata.resourceId ≠ place.resourceId ∨ metadata.lockPath ≠ place.lockPath then .error .lockIdentity
    else .ok (some metadata)

/-- A holder file that this backend has written, if there is one. -/
def OfPlace (file : Option DurableLockMetadata) : Prop :=
  ∀ m ∈ file, m.allowed clock = true ∧ m.resourceId = place.resourceId ∧ m.lockPath = place.lockPath

variable {clock place}

lemma parseMetadata_eq_ok {m n : DurableLockMetadata} : parseMetadata clock m = .ok n ↔ m.allowed clock = true ∧ n = m := by
  unfold parseMetadata
  cases m.allowed clock with
  | true => exact ⟨fun h => ⟨rfl,(Except.ok.inj h).symm⟩,fun h => congrArg Except.ok h.2.symm⟩
  | false => exact ⟨fun h => (by cases h),fun h => (by cases h.1)⟩

lemma buildMetadata_ofPlace {attempt : LockAttempt} {m : DurableLockMetadata} (h : buildMetadata clock place attempt = .ok m) :
    OfPlace clock place (some m) := by
  obtain ⟨expiresAt,-,h⟩ := except_bind_eq_ok.mp h
  obtain ⟨metadata,hparse,h⟩ := except_bind_eq_ok.mp h
  obtain ⟨hallowed,rfl⟩ := parseMetadata_eq_ok.mp hparse
  split_ifs at h
  cases h
  intro n hn
  cases hn
  exact ⟨hallowed,rfl,rfl⟩

lemma readLockMetadata_ofPlace {file : Option DurableLockMetadata} (h : OfPlace clock place file) :
    readLockMetadata clock place file = .ok file := by
  cases file with
  | none => rfl
  | some m =>
    obtain ⟨hallowed,hresource,hpath⟩ := h m rfl
    rw [readLockMetadata, parseMetadata_eq_ok.mpr ⟨hallowed,rfl⟩]
    change (if m.resourceId ≠ place.resourceId ∨ m.lockPath ≠ place.lockPath then _ else _) = _
    rw [hresource, hpath, if_neg (by simp)]

end Metadata

/-- How far the callback of `withFilesystemLock` is: not begun, `entered` set, the holder file replaced, the caller's
callback called, and resolved. -/
inductive Phase (β : Type)
  | apart
  | entered
  | written
  | working
  | returned (result : β)

/-- The holder file has been replaced for this call. -/
def Phase.named {β : Type} : Phase β → Bool
  | .apart | .entered => false
  | _ => true

inductive LockError
  | timedOut
  | other
  deriving DecidableEq, Repr

/-- What `tryExclusiveLock` answers. -/
inductive Ending (β : Type)
  | acquired (metadata : DurableLockMetadata) (result : β)
  | refused (metadata : Option DurableLockMetadata)
  | thrown

/-- A call beside its stage in `withFilesystemLock`; `failure` is what that will throw. -/
structure Attempt (β : Type) where
  phase : Phase β
  failure : Option LockError
  ending : Option (Ending β)

def Attempt.init {β : Type} : Attempt β := ⟨.apart,none,none⟩

structure State (P C β : Type) where
  lock : FilesystemLock.State P C
  holderFile : Option DurableLockMetadata
  attempt : C → Attempt β

inductive Action (P C β : Type)
  /-- a step of `withFilesystemLock`, with the error that it may raise -/
  | lock (a : FilesystemLock.Action P C) (error : Option LockError)
  /-- `writeJsonAtomic` of the metadata has replaced the file -/
  | write (c : C)
  | work (c : C)
  | resolve (c : C) (result : β)
  /-- the answer of `tryExclusiveLock` to what `withFilesystemLock` came to; `false` where the file cannot be read -/
  | answer (c : C) (readable : Bool)

section System
variable {P C β : Type} [DecidableEq P] [DecidableEq C] (clock : Clock) (place : LockPlace) (owner : C → P)
  (metadata : C → DurableLockMetadata)

def State.init (file : Option FilesystemLock.Inode) (holderFile : Option DurableLockMetadata) : State P C β :=
  ⟨.init file,holderFile,fun _ => .init⟩

def State.setAttempt (s : State P C β) (c : C) (l : Attempt β) : State P C β :=
  { s with attempt := Function.update s.attempt c l }

/-- The steps at which an error may be raised. -/
def raises (a : FilesystemLock.Action P C) (error : Option LockError) : Bool :=
  match a with
  | .refuse _ | .fail _ _ => error.isSome
  | .rollback _ took | .close _ took => !took || error.isNone
  | _ => error.isNone

/-- `withFilesystemLock` starts its callback when the lock's path has been checked, and it goes on when that resolves. -/
def Attempt.moved (l : Attempt β) (a : FilesystemLock.Action P C) (error : Option LockError) : Option (Attempt β) :=
  match a with
  | .check _ => some { l with phase := .entered, failure := error.or l.failure }
  | .finish _ => match l.phase with
    | .returned _ => some l
    | _ => none
  | _ => some { l with failure := error.or l.failure }

/-- The answer, once `withFilesystemLock` has settled. -/
def Attempt.answer (l : Attempt β) (metadata : DurableLockMetadata) (file : Except AttemptError (Option DurableLockMetadata)) :
    Ending β :=
  match l.failure, l.phase with
  | none, .returned result => .acquired metadata result
  | some .timedOut, .apart => match file with
    | .ok found => .refused found
    | .error _ => .thrown
  | _, _ => .thrown

def step (s : State P C β) : Action P C β → Option (State P C β)
  | .lock a error =>
    if raises a error then
      (FilesystemLock.step owner s.lock a).bind fun lock => match a.actor with
        | none => some { s with lock }
        | some c => ((s.attempt c).moved a error).map fun l => { s.setAttempt c l with lock }
    else none
  | .write c => match s.lock.stage c, (s.attempt c).phase with
    | .running, .entered => some { s.setAttempt c { s.attempt c with phase := .written } with holderFile := some (metadata c) }
    | _, _ => none
  | .work c => match s.lock.stage c, (s.attempt c).phase with
    | .running, .written => some (s.setAttempt c { s.attempt c with phase := .working })
    | _, _ => none
  | .resolve c result => match s.lock.stage c, (s.attempt c).phase with
    | .running, .working => some (s.setAttempt c { s.attempt c with phase := .returned result })
    | _, _ => none
  | .answer c readable => match s.lock.stage c, (s.attempt c).ending with
    | .settled, none => some (s.setAttempt c { s.attempt c with ending := some ((s.attempt c).answer (metadata c)
        (if readable then readLockMetadata clock place s.holderFile else .error .schema)) })
    | _, _ => none

end System
section Moves
variable {P C : Type} [DecidableEq C] {owner : C → P} {s t : FilesystemLock.State P C}

/-- Before the callback of `withFilesystemLock`. -/
def early : Stage → Bool
  | .running | .rechecking | .unwinding | .closing | .leaving | .settled | .dead => false
  | _ => true

/-- From which stage to which one an action takes its call. -/
def Moves (a : FilesystemLock.Action P C) (g h : Stage) : Prop :=
  match a with
  | .refuse _ => g = .waiting ∧ h = .settled
  | .fail _ _ => g.tried = true ∧ h = .unwinding
  | .check _ => g = .checking ∧ h = .running
  | .finish _ => g = .running ∧ h = .rechecking
  | .recheck _ => g = .rechecking ∧ h = .unwinding
  | .rollback _ _ => g = .unwinding ∧ h = .closing
  | .close _ _ => g = .closing ∧ h = .leaving
  | .leave _ => g = .leaving ∧ h = .settled
  | _ => early g = true ∧ early h = true

lemma stage_goto (c : C) (g : Stage) : (s.goto c g).stage c = g := by
  simp [FilesystemLock.State.goto, FilesystemLock.State.stage]

lemma stage_setCall (c : C) (l : FilesystemLock.Call) : (s.setCall c l).stage c = l.stage := by
  simp [FilesystemLock.State.stage]

variable [DecidableEq P]

lemma step_moves {a : FilesystemLock.Action P C} {c : C} (h : FilesystemLock.step owner s a = some t)
    (ha : a.actor = some c) : Moves a (s.stage c) (t.stage c) := by
  cases a <;> simp only [FilesystemLock.Action.actor, Option.some.injEq, reduceCtorEq] at ha <;> subst ha <;>
    simp only [FilesystemLock.step, Option.ite_none_right_eq_some, Option.some.injEq] at h
  case refuse => obtain ⟨hc,rfl⟩ := h; exact ⟨hc,stage_goto _ _⟩
  case enter =>
    obtain ⟨⟨hc,-⟩,rfl⟩ := h
    exact ⟨by rw [hc]; rfl,by change early ((s.goto _ _).stage _) = true; rw [stage_goto]; rfl⟩
  case prepare => obtain ⟨hc,rfl⟩ := h; exact ⟨by rw [hc]; rfl,by rw [stage_goto]; rfl⟩
  case inspect =>
    obtain ⟨hc,rfl⟩ := h
    refine ⟨by rw [hc]; rfl,?_⟩
    rw [stage_goto]
    split_ifs <;> rfl
  case create =>
    obtain ⟨hc,rfl⟩ := h
    exact ⟨by rw [hc]; rfl,by change early ((s.setCall _ _).stage _) = true; rw [stage_setCall]; rfl⟩
  case closeCandidate => obtain ⟨hc,rfl⟩ := h; exact ⟨by rw [hc]; rfl,by rw [stage_goto]; rfl⟩
  case link =>
    obtain ⟨hc,rfl⟩ := h
    exact ⟨by rw [hc]; rfl,by change early ((s.goto _ _).stage _) = true; rw [stage_goto]; rfl⟩
  case unlink => obtain ⟨hc,rfl⟩ := h; exact ⟨by rw [hc]; rfl,by rw [stage_setCall]; rfl⟩
  case identify => obtain ⟨⟨hc,-⟩,rfl⟩ := h; exact ⟨by rw [hc]; rfl,by rw [stage_setCall]; rfl⟩
  case openReadonly => obtain ⟨hc,rfl⟩ := h; exact ⟨by rw [hc]; rfl,by rw [stage_goto]; rfl⟩
  case closeReadonly => obtain ⟨hc,rfl⟩ := h; exact ⟨by rw [hc]; rfl,by rw [stage_goto]; rfl⟩
  case connect => obtain ⟨hc,rfl⟩ := h; exact ⟨by rw [hc]; rfl,by rw [stage_setCall]; rfl⟩
  case begin =>
    split at h
    · cases h
    · simp only [Option.ite_none_right_eq_some, Option.some.injEq] at h
      obtain ⟨⟨hc,-⟩,rfl⟩ := h
      exact ⟨by rw [hc]; rfl,by change early ((s.setCall _ _).stage _) = true; rw [stage_setCall]; rfl⟩
  case retry => obtain ⟨hc,rfl⟩ := h; exact ⟨by rw [hc]; rfl,by rw [hc]; rfl⟩
  case check => obtain ⟨⟨hc,-⟩,rfl⟩ := h; exact ⟨hc,stage_setCall _ _⟩
  case finish => obtain ⟨hc,rfl⟩ := h; exact ⟨hc,stage_goto _ _⟩
  case recheck => obtain ⟨⟨hc,-⟩,rfl⟩ := h; exact ⟨hc,stage_goto _ _⟩
  case fail => obtain ⟨hc,rfl⟩ := h; exact ⟨hc,stage_goto _ _⟩
  case rollback =>
    obtain ⟨hc,h⟩ := h
    split_ifs at h <;> cases h
    · exact ⟨hc,stage_setCall _ _⟩
    · exact ⟨hc,stage_goto _ _⟩
  case close =>
    obtain ⟨hc,h⟩ := h
    split_ifs at h <;> cases h
    · exact ⟨hc,stage_setCall _ _⟩
    · exact ⟨hc,stage_goto _ _⟩
  case leave =>
    obtain ⟨hc,rfl⟩ := h
    exact ⟨hc,by change (s.goto _ _).stage _ = _; rw [stage_goto]⟩

end Moves
section Invariant
variable {P C β : Type} {clock : Clock} {place : LockPlace} {owner : C → P}
  {metadata : C → DurableLockMetadata} {first : Option DurableLockMetadata}

/-- What a call's stage says of its callback and of its failure. -/
def Standing (l : Attempt β) : Stage → Prop
  | .running => (∀ e, l.ending ≠ some e) ∧ l.failure = none ∧ l.phase ≠ .apart
  | .rechecking => (∀ e, l.ending ≠ some e) ∧ l.failure = none ∧ ∃ result, l.phase = .returned result
  | .unwinding | .closing | .leaving => (∀ e, l.ending ≠ some e) ∧ (l.failure = none → ∃ result, l.phase = .returned result)
  | .settled => l.failure = none → ∃ result, l.phase = .returned result
  | .dead => True
  | _ => (∀ e, l.ending ≠ some e) ∧ l.failure = none ∧ l.phase = .apart

lemma standing_early {l : Attempt β} {g : Stage} (hg : early g = true) :
    Standing l g ↔ (∀ e, l.ending ≠ some e) ∧ l.failure = none ∧ l.phase = .apart := by
  cases g with
  | running | rechecking | unwinding | closing | leaving | settled | dead => cases hg
  | _ => rfl

variable (metadata first) in
/-- The file of the start, or one of a call whose callback has begun. -/
def Named (s : State P C β) (file : Option DurableLockMetadata) : Prop :=
  file = first ∨ ∃ d, (s.attempt d).phase.named = true ∧ file = some (metadata d)

variable (metadata first) in
/-- What an answer says. -/
structure Told (s : State P C β) (c : C) (l : Attempt β) : Prop where
  acquired : ∀ m result, l.ending = some (.acquired m result) → m = metadata c ∧ l.phase = .returned result
  refused : ∀ file, l.ending = some (.refused file) → l.phase = .apart ∧ Named metadata first s file
  thrown : l.ending = some .thrown → l.failure ≠ none

variable (owner metadata first) in
structure Inv (s : State P C β) : Prop where
  lock : FilesystemLock.Inv owner s.lock
  standing : ∀ c, Standing (s.attempt c) (s.lock.stage c)
  told : ∀ c, Told metadata first s c (s.attempt c)
  file : Named metadata first s s.holderFile
  mine : ∀ c, s.lock.stage c = .running → (s.attempt c).phase.named = true → s.holderFile = some (metadata c)

lemma Inv.init (file : Option FilesystemLock.Inode) : Inv owner metadata first (State.init file first : State P C β) where
  lock := FilesystemLock.inv_init owner file
  standing c := ⟨fun e h => (by cases h),rfl,rfl⟩
  told c := ⟨fun m result h => (by cases h),fun file h => (by cases h),fun h => (by cases h)⟩
  file := .inl rfl
  mine c h := by cases h

lemma Named.grown {s t : State P C β} {file : Option DurableLockMetadata} (h : Named metadata first s file)
    (hphase : ∀ d, (s.attempt d).phase.named = true → (t.attempt d).phase.named = true) : Named metadata first t file := by
  obtain hfirst | ⟨d,hd,hfile⟩ := h
  · exact .inl hfirst
  · exact .inr ⟨d,hphase d hd,hfile⟩

lemma Told.grown {s t : State P C β} {c : C} {l : Attempt β} (h : Told metadata first s c l)
    (hphase : ∀ d, (s.attempt d).phase.named = true → (t.attempt d).phase.named = true) : Told metadata first t c l :=
  { h with refused := fun file hfile => ⟨(h.refused file hfile).1,(h.refused file hfile).2.grown hphase⟩ }

/-- No answer yet. -/
lemma Told.pending {s : State P C β} {c : C} {l : Attempt β} (h : ∀ e, l.ending ≠ some e) : Told metadata first s c l :=
  ⟨fun _ _ he => absurd he (h _),fun _ he => absurd he (h _),fun he => absurd he (h _)⟩

lemma Named.ofPlace {s : State P C β} {file : Option DurableLockMetadata} (h : Named metadata first s file)
    (hfirst : OfPlace clock place first) (hplace : ∀ c, OfPlace clock place (some (metadata c))) : OfPlace clock place file := by
  obtain rfl | ⟨d,-,rfl⟩ := h
  · exact hfirst
  · exact hplace d

/-- What a step of `withFilesystemLock` does to a call. -/
structure Moved (l l' : Attempt β) (h : Stage) : Prop where
  standing : Standing l' h
  ending : l'.ending = l.ending
  phase : l'.phase = l.phase ∨ (∀ e, l.ending ≠ some e) ∧ l.phase.named = false
  failure : l.failure ≠ none → l'.failure ≠ none
  fresh : h = .running → l'.phase.named = false

lemma or_ne_none {e f : Option LockError} (h : f ≠ none) : e.or f ≠ none := by
  cases e with
  | none => exact h
  | some e => simp

lemma standing_pending {l : Attempt β} {g : Stage} (h : Standing l g) (hg : g ≠ .settled) (hdead : g ≠ .dead)
    (e : Ending β) : l.ending ≠ some e := by
  cases g with
  | settled => exact absurd rfl hg
  | dead => exact absurd rfl hdead
  | _ => exact h.1 e

/-- A step that leaves the phase as it is. -/
lemma moved_same {l : Attempt β} {e : Option LockError} {h : Stage} (hstanding : Standing { l with failure := e.or l.failure } h)
    (hfresh : h ≠ .running) : Moved l { l with failure := e.or l.failure } h :=
  ⟨hstanding,rfl,.inl rfl,or_ne_none,fun hrunning => absurd hrunning hfresh⟩

lemma moved_of_step {a : FilesystemLock.Action P C} {e : Option LockError} {l l' : Attempt β} {g h : Stage}
    (hstanding : Standing l g) (hmoves : Moves a g h) (hraises : raises a e = true) (hmoved : l.moved a e = some l') :
    Moved l l' h := by
  cases a with
  | check c =>
    obtain ⟨rfl,rfl⟩ := hmoves
    cases hmoved
    obtain rfl : e = none := by simpa [raises] using hraises
    obtain ⟨hending,hfailure,hphase⟩ := hstanding
    exact ⟨⟨hending,hfailure,by simp⟩,rfl,.inr ⟨hending,by rw [hphase]; rfl⟩,id,fun _ => rfl⟩
  | finish c =>
    obtain ⟨rfl,rfl⟩ := hmoves
    unfold Attempt.moved at hmoved
    dsimp only at hmoved
    split at hmoved
    · next result hphase =>
      cases hmoved
      exact ⟨⟨hstanding.1,hstanding.2.1,result,hphase⟩,rfl,.inl rfl,id,fun h => by cases h⟩
    · cases hmoved
  | refuse c =>
    obtain ⟨rfl,rfl⟩ := hmoves
    cases hmoved
    obtain ⟨error,rfl⟩ := Option.isSome_iff_exists.mp hraises
    exact moved_same (fun h => by cases h) (by simp)
  | fail c took =>
    obtain ⟨htried,rfl⟩ := hmoves
    cases hmoved
    obtain ⟨error,rfl⟩ := Option.isSome_iff_exists.mp hraises
    have hpending := standing_pending hstanding (by rintro rfl; cases htried) (by rintro rfl; cases htried)
    exact moved_same ⟨hpending,fun h => by cases h⟩ (by simp)
  | recheck c =>
    obtain ⟨rfl,rfl⟩ := hmoves
    cases hmoved
    exact moved_same ⟨hstanding.1,fun _ => hstanding.2.2⟩ (by simp)
  | rollback c took =>
    obtain ⟨rfl,rfl⟩ := hmoves
    cases hmoved
    exact moved_same ⟨hstanding.1,fun hnone => hstanding.2 (Option.or_eq_none_iff.mp hnone).2⟩ (by simp)
  | close c took =>
    obtain ⟨rfl,rfl⟩ := hmoves
    cases hmoved
    exact moved_same ⟨hstanding.1,fun hnone => hstanding.2 (Option.or_eq_none_iff.mp hnone).2⟩ (by simp)
  | leave c =>
    obtain ⟨rfl,rfl⟩ := hmoves
    cases hmoved
    exact moved_same (fun hnone => hstanding.2 (Option.or_eq_none_iff.mp hnone).2) (by simp)
  | _ =>
    obtain ⟨hg,hh⟩ := hmoves
    cases hmoved
    obtain rfl : e = none := by simpa [raises] using hraises
    refine moved_same ((standing_early hh).mpr ((standing_early hg).mp hstanding)) ?_
    rintro rfl
    cases hh

lemma Moved.named {l l' : Attempt β} {h : Stage} (hmoved : Moved l l' h) (hnamed : l.phase.named = true) :
    l'.phase.named = true := by
  obtain hsame | ⟨-,hfresh⟩ := hmoved.phase
  · rwa [hsame]
  · rw [hfresh] at hnamed
    cases hnamed

lemma Moved.told {s : State P C β} {c : C} {l l' : Attempt β} {h : Stage} (hmoved : Moved l l' h)
    (htold : Told metadata first s c l) : Told metadata first s c l' := by
  obtain hsame | ⟨hpending,-⟩ := hmoved.phase
  · refine ⟨fun m result he => ?_,fun file he => ?_,fun he => hmoved.failure (htold.thrown (hmoved.ending ▸ he))⟩
    · rw [hsame]
      exact htold.acquired m result (hmoved.ending ▸ he)
    · rw [hsame]
      exact htold.refused file (hmoved.ending ▸ he)
  · exact .pending fun e => hmoved.ending ▸ hpending e

variable [DecidableEq C]

/-- A step of one call, which alone may replace the holder file and only while its callback is under way. -/
lemma Inv.updated {s : State P C β} (hs : Inv owner metadata first s) {c : C} {l : Attempt β}
    {lock : FilesystemLock.State P C} {file : Option DurableLockMetadata} (hlock : FilesystemLock.Inv owner lock)
    (hstage : ∀ d, d ≠ c → lock.stage d = s.lock.stage d) (hstanding : Standing l (lock.stage c))
    (hphase : (s.attempt c).phase.named = true → l.phase.named = true) (htold : Told metadata first s c l)
    (hfile : file = s.holderFile ∨ lock.stage c = .running ∧ l.phase.named = true)
    (hmine : lock.stage c = .running → l.phase.named = true → file = some (metadata c)) :
    Inv owner metadata first ⟨lock,file,Function.update s.attempt c l⟩ := by
  have hgrown : ∀ d, (s.attempt d).phase.named = true → (Function.update s.attempt c l d).phase.named = true := by
    intro d hd
    by_cases hdc : d = c
    · rw [hdc, Function.update_self]
      exact hphase (hdc ▸ hd)
    · rwa [Function.update_of_ne hdc]
  refine ⟨hlock,fun d => ?_,fun d => ?_,?_,fun d hd hnamed => ?_⟩
  · by_cases hdc : d = c
    · rw [hdc]
      simpa using hstanding
    · simpa [hdc, hstage d hdc] using hs.standing d
  · by_cases hdc : d = c
    · rw [hdc]
      simpa using htold.grown hgrown
    · simpa [hdc] using (hs.told d).grown hgrown
  · obtain hsame | ⟨hrunning,hnamed⟩ := hfile
    · rw [hsame]
      exact hs.file.grown hgrown
    · exact .inr ⟨c,by simpa using hnamed,hmine hrunning hnamed⟩
  · by_cases hdc : d = c
    · rw [hdc] at hd hnamed ⊢
      exact hmine hd (by simpa using hnamed)
    · obtain hsame | ⟨hrunning,-⟩ := hfile
      · rw [hsame]
        exact hs.mine d (hstage d hdc ▸ hd) (by simpa [hdc] using hnamed)
      · exact absurd (hlock.exclusive hd hrunning) hdc

/-- A step of a callback that is under way. -/
lemma Inv.progressed {s : State P C β} (hs : Inv owner metadata first s) {c : C} (hstage : s.lock.stage c = .running)
    {phase : Phase β} (hphase : phase.named = true) {file : Option DurableLockMetadata} (hfile : file = some (metadata c)) :
    Inv owner metadata first ⟨s.lock,file,Function.update s.attempt c { s.attempt c with phase }⟩ := by
  have hstanding := hs.standing c
  rw [hstage] at hstanding
  refine hs.updated hs.lock (fun _ _ => rfl) ?_ (fun _ => hphase) (.pending hstanding.1) (.inr ⟨hstage,hphase⟩) fun _ _ => hfile
  rw [hstage]
  refine ⟨hstanding.1,hstanding.2.1,?_⟩
  rintro (rfl : phase = _)
  cases hphase

variable [DecidableEq P]

lemma Inv.locked {s t : State P C β} (hs : Inv owner metadata first s) {a : FilesystemLock.Action P C}
    {e : Option LockError} (h : step clock place owner metadata s (.lock a e) = some t) : Inv owner metadata first t := by
  simp only [step, Option.ite_none_right_eq_some] at h
  obtain ⟨hraises,h⟩ := h
  obtain ⟨lock,hlock,h⟩ := Option.bind_eq_some_iff.mp h
  have hinv := hs.lock.of_step hlock
  cases hactor : a.actor with
  | some c =>
    rw [hactor] at h
    obtain ⟨l,hmoved,rfl⟩ := Option.map_eq_some_iff.mp h
    have hmoved := moved_of_step (hs.standing c) (step_moves hlock hactor) hraises hmoved
    refine hs.updated hinv (fun d hd => ?_) hmoved.standing hmoved.named (hmoved.told (hs.told c)) (.inl rfl)
      fun hrunning hnamed => ?_
    · exact congrArg FilesystemLock.Call.stage (hs.lock.frame hlock hactor hd).1
    · rw [hmoved.fresh hrunning] at hnamed
      cases hnamed
  | none =>
    rw [hactor] at h
    cases h
    cases a with
    | crash p =>
      cases hlock
      refine ⟨hinv,fun c => ?_,fun c => (hs.told c).grown fun _ hd => hd,hs.file,fun c hrunning hnamed => ?_⟩
      · change Standing (s.attempt c) (if owner c = p then { s.lock.call c with stage := Stage.dead } else s.lock.call c).stage
        split_ifs
        · trivial
        · exact hs.standing c
      · change (if owner c = p then { s.lock.call c with stage := Stage.dead } else s.lock.call c).stage = .running at hrunning
        split_ifs at hrunning
        exact hs.mine c hrunning hnamed
    | _ => cases hactor

lemma answer_acquired {l : Attempt β} {m m' : DurableLockMetadata} {result : β}
    {file : Except AttemptError (Option DurableLockMetadata)} (h : l.answer m file = .acquired m' result) :
    m' = m ∧ l.phase = .returned result := by
  unfold Attempt.answer at h
  split at h
  · next result' _ hphase =>
    cases h
    exact ⟨rfl,hphase⟩
  · split at h <;> cases h
  · cases h

lemma answer_refused {l : Attempt β} {m : DurableLockMetadata} {found : Option DurableLockMetadata}
    {file : Except AttemptError (Option DurableLockMetadata)} (h : l.answer m file = .refused found) :
    l.phase = .apart ∧ file = .ok found := by
  unfold Attempt.answer at h
  split at h
  · cases h
  · next hphase =>
    split at h
    · cases h
      exact ⟨hphase,rfl⟩
    · cases h
  · cases h

lemma answer_thrown {l : Attempt β} {m : DurableLockMetadata} {file : Except AttemptError (Option DurableLockMetadata)}
    (hstanding : l.failure = none → ∃ result, l.phase = .returned result) (h : l.answer m file = .thrown) : l.failure ≠ none := by
  intro hfailure
  obtain ⟨result,hphase⟩ := hstanding hfailure
  unfold Attempt.answer at h
  split at h
  · cases h
  · next hfail _ =>
    rw [hfailure] at hfail
    cases hfail
  · next hne _ => exact hne result hfailure hphase

theorem Inv.of_step (hfirst : OfPlace clock place first) (hplace : ∀ c, OfPlace clock place (some (metadata c)))
    {s t : State P C β} (hs : Inv owner metadata first s) {a : Action P C β}
    (h : step clock place owner metadata s a = some t) : Inv owner metadata first t := by
  cases a with
  | lock a e => exact hs.locked h
  | write c =>
    simp only [step] at h
    split at h
    · next hstage _ =>
      cases h
      exact hs.progressed hstage rfl rfl
    · cases h
  | work c =>
    simp only [step] at h
    split at h
    · next hstage hphase =>
      cases h
      exact hs.progressed hstage rfl (hs.mine c hstage (by rw [hphase]; rfl))
    · cases h
  | resolve c result =>
    simp only [step] at h
    split at h
    · next hstage hphase =>
      cases h
      exact hs.progressed hstage rfl (hs.mine c hstage (by rw [hphase]; rfl))
    · cases h
  | answer c readable =>
    simp only [step] at h
    split at h
    · next hstage _ =>
      cases h
      have hstanding := hs.standing c
      rw [hstage] at hstanding
      refine hs.updated hs.lock (fun _ _ => rfl) (by rw [hstage]; exact hstanding) id ?_ (.inl rfl) fun hrunning => ?_
      · refine ⟨fun m result he => answer_acquired (Option.some.inj he),fun file he => ?_,
          fun he => answer_thrown hstanding (Option.some.inj he)⟩
        obtain ⟨hphase,hread⟩ := answer_refused (Option.some.inj he)
        refine ⟨hphase,?_⟩
        cases readable with
        | true =>
          obtain rfl : s.holderFile = file :=
            Except.ok.inj ((readLockMetadata_ofPlace (hs.file.ofPlace hfirst hplace)).symm.trans hread)
          exact hs.file
        | false => cases hread
      · cases hstage.symm.trans hrunning
    · cases h

variable (clock place owner metadata first) in
/-- In every run: a callback under way is the only one and the holder file names its call; a call that is answered with
the lock ran its callback to the end; a call that is refused never began it, and is told of the file of the start or of
another call's; one that throws failed; and the holder file can always be read. -/
theorem holders_named {file : Option FilesystemLock.Inode} (hfirst : OfPlace clock place first)
    (hbuilt : ∀ c, ∃ attempt, buildMetadata clock place attempt = .ok (metadata c)) {as : List (Action P C β)}
    {s : State P C β} (h : run (step clock place owner metadata) (State.init file first) as = some s) :
    (∀ c, s.lock.stage c = .running → (s.attempt c).phase = .working →
      s.holderFile = some (metadata c) ∧ ∀ d, s.lock.stage d = .running → d = c) ∧
    (∀ c m result, (s.attempt c).ending = some (.acquired m result) →
      m = metadata c ∧ (s.attempt c).phase = .returned result) ∧
    (∀ c found, (s.attempt c).ending = some (.refused found) → (s.attempt c).phase = .apart ∧
      (found = first ∨ ∃ d, d ≠ c ∧ (s.attempt d).phase.named = true ∧ found = some (metadata d))) ∧
    (∀ c, (s.attempt c).ending = some .thrown → (s.attempt c).failure ≠ none) ∧
    readLockMetadata clock place s.holderFile = .ok s.holderFile := by
  have hplace : ∀ c, OfPlace clock place (some (metadata c)) := fun c => by
    obtain ⟨attempt,hattempt⟩ := hbuilt c
    exact buildMetadata_ofPlace hattempt
  have hs : Inv owner metadata first s := run_invariant _ (fun _ _ _ hs hstep => hs.of_step hfirst hplace hstep) (.init file) h
  refine ⟨fun c hstage hphase => ⟨hs.mine c hstage (by rw [hphase]; rfl),fun d hd => hs.lock.exclusive hd hstage⟩,
    fun c => (hs.told c).acquired,fun c found he => ?_,fun c => (hs.told c).thrown,
    readLockMetadata_ofPlace (hs.file.ofPlace hfirst hplace)⟩
  obtain ⟨hphase,hfound⟩ := (hs.told c).refused found he
  refine ⟨hphase,hfound.imp_right ?_⟩
  rintro ⟨d,hd,rfl⟩
  refine ⟨d,?_,hd,rfl⟩
  rintro rfl
  rw [hphase] at hd
  cases hd

end Invariant
section Sample

def sampleClock : Clock := ⟨fun _ => true,fun _ => some 0,fun t => some (toString t)⟩

def samplePlace : LockPlace := ⟨"repo","/locks/repo.lock"⟩

/-- Call 0 of process 0 and call 1 of process 1. -/
def sampleAttempt (c : Bool) : LockAttempt := ⟨⟨if c then 1 else 0,"host",none,none⟩,if c then "b" else "a","",300⟩

def sampleMetadata (c : Bool) : DurableLockMetadata :=
  ⟨"repo",if c then "b" else "a",⟨if c then 1 else 0,"host",none,none⟩,"","300000","/locks/repo.lock"⟩

/-- The first call works under the lock while the second one times out. -/
def sampleRun : List (Action Bool Bool Unit) :=
  ([.enter false,.enter true,.prepare false,.inspect false,.identify false,.openReadonly false,.closeReadonly false,
    .connect false,.begin false,.check false].map fun a => .lock a none) ++
  [.write false,.work false] ++
  ([.prepare true,.inspect true,.identify true,.openReadonly true,.closeReadonly true,.connect true,.retry true].map
    fun a => .lock a none) ++
  [.lock (.fail true false) (some .timedOut),.lock (.rollback true false) none,.lock (.close true true) none,
   .lock (.leave true) none,.answer true true]

theorem holders_named_contended : ∃ s,
    run (step sampleClock samplePlace id sampleMetadata) (State.init (some 0) none) sampleRun = some s ∧
      (s.attempt true).ending = some (.refused (some (sampleMetadata false))) ∧ s.lock.stage false = .running ∧
      s.holderFile = some (sampleMetadata false) := by
  have hrun : ∃ s, run (step sampleClock samplePlace id sampleMetadata) (State.init (some 0) none) sampleRun = some s ∧
      (s.attempt true).ending = some (.refused (some (sampleMetadata false))) ∧
      s.lock.stage false = .running ∧ (s.attempt false).phase = .working := ⟨_,rfl,rfl,rfl,rfl⟩
  obtain ⟨s,hs,hending,hstage,hphase⟩ := hrun
  have hnamed := holders_named sampleClock samplePlace id sampleMetadata none (by simp [OfPlace])
    (fun c => ⟨sampleAttempt c,by cases c <;> rfl⟩) hs
  exact ⟨s,hs,hending,hstage,(hnamed.1 false hstage hphase).1⟩

end Sample
end OmniagentPlus.WorktreeLeasing.FilesystemLockBackend
