import OmniagentPlus.Foundation.Transition
import Mathlib.Logic.Function.Basic

/-! `withFilesystemLock` on one resolved lock path. Any number of processes make any
number of overlapping calls; a step of the model is one call running to its next await
point, one call's connection opening or closing, or one process dying.
SQLite is a map from inodes to the call whose connection has the reservation, and the
rule that closing a connection drops every lock its process has on that inode. -/
namespace OmniagentPlus.StateLedger.FilesystemLock
open OmniagentPlus.Foundation

abbrev Inode := ℕ

/-- Where a call stands, in the order of the source. -/
inductive Stage
  /-- `while (activePaths.has(lockPath)) await retry()` -/
  | waiting
  /-- `ensureParentDirectory` -/
  | preparing
  /-- `publishLock`: the first `stat` -/
  | inspecting
  /-- `publishLock`: `open(candidate, "wx")` -/
  | creating
  /-- `publishLock`: the candidate's connection is open -/
  | building
  /-- `publishLock`: the candidate is closed and synced, not yet linked -/
  | linking
  /-- `publishLock`: syncing the directory and unlinking the candidate -/
  | unlinking
  /-- `before = await stat(lockPath)` -/
  | identifying
  /-- about to open the read-only connection -/
  | validating
  /-- the read-only connection is open -/
  | reading
  /-- the read-only connection is closed, `db` is about to be opened -/
  | connecting
  /-- the loop around `BEGIN IMMEDIATE` -/
  | acquiring
  /-- the first `checkPath` -/
  | checking
  /-- the callback -/
  | running
  /-- the second `checkPath` -/
  | rechecking
  /-- `finally`: `if (reserved) db.exec("ROLLBACK")` -/
  | unwinding
  /-- `finally`: `db?.close()` -/
  | closing
  /-- `finally`: `activePaths.delete(lockPath)` -/
  | leaving
  | settled
  /-- the process of the call died -/
  | dead
  deriving DecidableEq, Repr

/-- Between `activePaths.add` and `activePaths.delete`. -/
def Stage.inside : Stage → Bool
  | .waiting | .settled | .dead => false
  | _ => true

/-- Inside the `try` block, where a throw leads to the `finally` block. -/
def Stage.tried : Stage → Bool
  | .waiting | .unwinding | .closing | .leaving | .settled | .dead => false
  | _ => true

/-- From a granted `BEGIN IMMEDIATE` to the `finally` block. -/
def Stage.granted : Stage → Bool
  | .checking | .running | .rechecking => true
  | _ => false

/-- Stages no call comes back from: the `finally` block and what follows it. -/
def Stage.over : Stage → Bool
  | .unwinding | .closing | .leaving | .settled | .dead => true
  | _ => false

/-- The locals of one call. `ran`, `rolledBack` and `closed` only record what happened:
callback starts, a `ROLLBACK` and a `close` of `db` that took effect. -/
structure Call where
  stage : Stage
  candidate : Option Inode
  before : Option Inode
  db : Option Inode
  reserved : Bool
  ran : ℕ
  rolledBack : Bool
  closed : Bool
  deriving DecidableEq, Repr

def Call.init : Call := ⟨.waiting,none,none,none,false,0,false,false⟩

variable {P C : Type}

section Steps
variable [DecidableEq P] [DecidableEq C]

structure State (P C : Type) where
  /-- the inode at the lock path, never replaced once published -/
  file : Option Inode
  nextInode : Inode
  /-- `activePaths.has(lockPath)` in each process -/
  active : P → Bool
  /-- SQLite's reservation of each inode -/
  reservation : Inode → Option C
  call : C → Call

def State.init (file : Option Inode) : State P C :=
  ⟨file,file.elim 0 (· + 1),fun _ => false,fun _ => none,fun _ => Call.init⟩

namespace State

def stage (s : State P C) (c : C) : Stage := (s.call c).stage

def setCall (s : State P C) (c : C) (l : Call) : State P C :=
  { s with call := Function.update s.call c l }

def goto (s : State P C) (c : C) (g : Stage) : State P C :=
  s.setCall c { s.call c with stage := g }

/-- Closing a connection of process `p` to inode `i`. -/
def dropLocks (owner : C → P) (s : State P C) (p : P) (i : Option Inode) : State P C :=
  { s with reservation := fun j =>
      if some j = i then (s.reservation j).filter (fun c => decide (owner c ≠ p))
      else s.reservation j }

/-- `ROLLBACK` on the connection of call `c`. -/
def giveBack (s : State P C) (c : C) : State P C :=
  { s with reservation := fun i => if s.reservation i = some c then none else s.reservation i }

end State

/-- What can happen next. The `Bool` of a close or a rollback says whether it took effect. -/
inductive Action (P C : Type)
  | refuse (c : C)
  | enter (c : C)
  | prepare (c : C)
  | inspect (c : C)
  | create (c : C)
  | closeCandidate (c : C)
  | link (c : C)
  | unlink (c : C)
  | identify (c : C)
  | openReadonly (c : C)
  | closeReadonly (c : C)
  | connect (c : C)
  | begin (c : C)
  | retry (c : C)
  | check (c : C)
  | finish (c : C)
  | recheck (c : C)
  | fail (c : C) (took : Bool)
  | rollback (c : C) (took : Bool)
  | close (c : C) (took : Bool)
  | leave (c : C)
  | crash (p : P)
  deriving DecidableEq, Repr

def Action.actor : Action P C → Option C
  | .refuse c | .enter c | .prepare c | .inspect c | .create c | .closeCandidate c | .link c
  | .unlink c | .identify c | .openReadonly c | .closeReadonly c | .connect c | .begin c
  | .retry c | .check c | .finish c | .recheck c | .fail c _ | .rollback c _ | .close c _
  | .leave c => some c
  | .crash _ => none

/-- The connection a throw closes on its way to the outer `finally` block: the candidate's
in `publishLock`, the read-only one while its identity is being validated. -/
def State.throwCloses (s : State P C) (c : C) : Option Inode :=
  match s.stage c with
  | .building => (s.call c).candidate
  | .reading => s.file
  | _ => none

open State in
/-- One step of `withFilesystemLock` by one call, or the death of one process. -/
def step (owner : C → P) (s : State P C) : Action P C → Option (State P C)
  -- invalid limits, or the deadline passed while another call of the process is inside:
  -- the throw is before the `try`, so nothing is released
  | .refuse c => if s.stage c = .waiting then some (s.goto c .settled) else none
  | .enter c =>
    if s.stage c = .waiting ∧ s.active (owner c) = false then
      some { s.goto c .preparing with active := Function.update s.active (owner c) true }
    else none
  | .prepare c => if s.stage c = .preparing then some (s.goto c .inspecting) else none
  | .inspect c =>
    if s.stage c = .inspecting then
      some (s.goto c (if s.file.isSome then .identifying else .creating))
    else none
  | .create c =>
    if s.stage c = .creating then
      some { s.setCall c { s.call c with stage := .building, candidate := some s.nextInode } with
        nextInode := s.nextInode + 1 }
    else none
  | .closeCandidate c =>
    if s.stage c = .building then
      some ((s.dropLocks owner (owner c) (s.call c).candidate).goto c .linking)
    else none
  -- `EEXIST` is swallowed: another caller published first
  | .link c =>
    if s.stage c = .linking then
      some { s.goto c .unlinking with file := s.file.or (s.call c).candidate }
    else none
  | .unlink c =>
    if s.stage c = .unlinking then
      some (s.setCall c { s.call c with stage := .identifying, candidate := none })
    else none
  | .identify c =>
    if s.stage c = .identifying ∧ s.file.isSome then
      some (s.setCall c { s.call c with stage := .validating, before := s.file })
    else none
  | .openReadonly c => if s.stage c = .validating then some (s.goto c .reading) else none
  | .closeReadonly c =>
    if s.stage c = .reading then
      some ((s.dropLocks owner (owner c) s.file).goto c .connecting)
    else none
  | .connect c =>
    if s.stage c = .connecting then
      some (s.setCall c { s.call c with stage := .acquiring, db := s.file })
    else none
  | .begin c =>
    match (s.call c).db with
    | none => none
    | some i =>
      if s.stage c = .acquiring ∧ s.reservation i = none then
        some { s.setCall c { s.call c with stage := .checking, reserved := true } with
          reservation := Function.update s.reservation i (some c) }
      else none
  -- busy, and the deadline has not passed
  | .retry c => if s.stage c = .acquiring then some s else none
  | .check c =>
    if s.stage c = .checking ∧ s.file = (s.call c).before then
      some (s.setCall c { s.call c with stage := .running, ran := (s.call c).ran + 1 })
    else none
  | .finish c => if s.stage c = .running then some (s.goto c .rechecking) else none
  | .recheck c =>
    if s.stage c = .rechecking ∧ s.file = (s.call c).before then
      some (s.goto c .unwinding)
    else none
  -- any throw inside the `try`, the callback's and the deadline's included
  | .fail c took =>
    if (s.stage c).tried then
      some ((if took then s.dropLocks owner (owner c) (s.throwCloses c) else s).goto c .unwinding)
    else none
  | .rollback c took =>
    if s.stage c = .unwinding then
      if (s.call c).reserved ∧ took then
        some ((s.giveBack c).setCall c { s.call c with stage := .closing, rolledBack := true })
      else some (s.goto c .closing)
    else none
  | .close c took =>
    if s.stage c = .closing then
      if took ∧ (s.call c).db.isSome then
        some ((s.dropLocks owner (owner c) (s.call c).db).setCall c
          { s.call c with stage := .leaving, closed := true })
      else some (s.goto c .leaving)
    else none
  | .leave c =>
    if s.stage c = .leaving then
      some { s.goto c .settled with active := Function.update s.active (owner c) false }
    else none
  -- the kernel drops the locks of a dead process and its memory is gone
  | .crash p =>
    some { s with
      active := Function.update s.active p false
      reservation := fun i => (s.reservation i).filter (fun c => decide (owner c ≠ p))
      call := fun c => if owner c = p then { s.call c with stage := .dead } else s.call c }

end Steps
namespace State

section Calls
variable [DecidableEq C]

@[simp] theorem setCall_file (s : State P C) (c : C) (l : Call) : (s.setCall c l).file = s.file := rfl
@[simp] theorem setCall_active (s : State P C) (c : C) (l : Call) :
    (s.setCall c l).active = s.active := rfl
@[simp] theorem setCall_reservation (s : State P C) (c : C) (l : Call) :
    (s.setCall c l).reservation = s.reservation := rfl
@[simp] theorem setCall_call_self (s : State P C) (c : C) (l : Call) :
    (s.setCall c l).call c = l := by simp [setCall]
theorem setCall_call_of_ne (s : State P C) {c d : C} (l : Call) (h : d ≠ c) :
    (s.setCall c l).call d = s.call d := by simp [setCall, h]

theorem reservation_of_giveBack {s : State P C} {c d : C} {i : Inode}
    (h : (s.giveBack c).reservation i = some d) : d ≠ c ∧ s.reservation i = some d := by
  simp only [giveBack] at h
  split_ifs at h with hc
  exact ⟨fun hd => hc (hd ▸ h),h⟩

theorem giveBack_reservation_of_ne {s : State P C} {c d : C} {i : Inode}
    (h : s.reservation i = some d) (hd : d ≠ c) : (s.giveBack c).reservation i = some d := by
  simp [giveBack, h, hd]

end Calls
section Locks
variable [DecidableEq P]

@[simp] theorem dropLocks_file (owner : C → P) (s : State P C) (p : P) (i : Option Inode) :
    (s.dropLocks owner p i).file = s.file := rfl
@[simp] theorem dropLocks_active (owner : C → P) (s : State P C) (p : P) (i : Option Inode) :
    (s.dropLocks owner p i).active = s.active := rfl
@[simp] theorem dropLocks_call (owner : C → P) (s : State P C) (p : P) (i : Option Inode) :
    (s.dropLocks owner p i).call = s.call := rfl

/-- Dropping locks only ever removes reservations. -/
theorem reservation_of_dropLocks {owner : C → P} {s : State P C} {p : P} {i : Option Inode}
    {j : Inode} {c : C} (h : (s.dropLocks owner p i).reservation j = some c) :
    s.reservation j = some c ∧ (some j = i → owner c ≠ p) := by
  simp only [dropLocks] at h
  split_ifs at h with hj
  · obtain ⟨h,hc⟩ := Option.filter_eq_some_iff.mp h
    exact ⟨h,fun _ => by simpa using hc⟩
  · exact ⟨h,fun he => absurd he hj⟩

/-- A process's close leaves the reservations of other processes alone. -/
theorem dropLocks_reservation_of_ne {owner : C → P} {s : State P C} {p : P} {i : Option Inode}
    {j : Inode} {c : C} (h : s.reservation j = some c) (hp : owner c ≠ p) :
    (s.dropLocks owner p i).reservation j = some c := by
  simp only [dropLocks]
  split_ifs
  · exact Option.filter_eq_some_iff.mpr ⟨h,by simpa using hp⟩
  · exact h

end Locks
end State

/-- What a call's locals say about its own past. -/
structure Call.Ok (file : Option Inode) (l : Call) : Prop where
  db : ∀ i, l.db = some i → file = some i
  early : l.stage.granted = false → l.stage.over = false → l.reserved = false
  open_ : l.stage.over = false → l.rolledBack = false ∧ l.closed = false
  late : l.stage = .unwinding → l.rolledBack = false ∧ l.closed = false
  once : l.ran ≤ 1
  unstarted : l.stage.over = false → l.stage ≠ .running → l.stage ≠ .rechecking → l.ran = 0
  ran : 0 < l.ran → l.reserved = true

/-- The relation between the process's set, the file and the reservation. -/
structure Inv (owner : C → P) (s : State P C) : Prop where
  sole : ∀ c d, (s.stage c).inside = true → (s.stage d).inside = true → owner c = owner d → c = d
  claimed : ∀ p, s.active p = true ↔ ∃ c, owner c = p ∧ (s.stage c).inside = true
  granted : ∀ c, (s.stage c).granted = true → ∃ i, s.file = some i ∧ s.reservation i = some c
  holder : ∀ i c, s.reservation i = some c → (s.call c).db = some i ∧ (s.call c).reserved = true ∧
    (s.call c).rolledBack = false ∧ (s.call c).closed = false ∧ s.stage c ≠ .dead
  local_ : ∀ c, (s.call c).Ok s.file

theorem inv_init (owner : C → P) (file : Option Inode) : Inv owner (State.init file : State P C) where
  sole c d hc := by simp [State.init, State.stage, Call.init, Stage.inside] at hc
  claimed p := by simp [State.init, State.stage, Call.init, Stage.inside]
  granted c hc := by simp [State.init, State.stage, Call.init, Stage.granted] at hc
  holder i c hc := by simp [State.init] at hc
  local_ c := by constructor <;> simp [State.init, Call.init, Stage.granted, Stage.over]

theorem Stage.inside_of_granted {g : Stage} (h : g.granted = true) : g.inside = true := by
  cases g <;> simp_all [Stage.granted, Stage.inside]

theorem Stage.inside_of_tried {g : Stage} (h : g.tried = true) : g.inside = true := by
  cases g <;> simp_all [Stage.tried, Stage.inside]

/-- A call that leaves or dies without a reservation of its own. -/
theorem Inv.remove {owner : C → P} {s t : State P C} (hs : Inv owner s) (gone : C → Prop)
    (hfile : t.file = s.file) (hcall : ∀ c, ¬ gone c → t.call c = s.call c)
    (hgone : ∀ c, gone c → (t.stage c).inside = false ∧ (t.call c).Ok t.file)
    (hactive : ∀ p, t.active p = true ↔ ∃ c, owner c = p ∧ ¬ gone c ∧ (s.stage c).inside = true)
    (hres : ∀ i c, t.reservation i = some c → s.reservation i = some c ∧
      (gone c → (t.call c).db = (s.call c).db ∧ (t.call c).reserved = (s.call c).reserved ∧
        (t.call c).rolledBack = (s.call c).rolledBack ∧ (t.call c).closed = (s.call c).closed ∧
        t.stage c ≠ .dead))
    (hkeep : ∀ i c, ¬ gone c → s.reservation i = some c → t.reservation i = some c) : Inv owner t := by
  have hin : ∀ c, (t.stage c).inside = true → ¬ gone c ∧ (s.stage c).inside = true := by
    intro c hc
    have hg : ¬ gone c := fun hg => by simp [(hgone c hg).1] at hc
    exact ⟨hg,by simpa only [State.stage, hcall c hg] using hc⟩
  refine ⟨?_,?_,?_,?_,?_⟩
  · intro c d hc hd
    exact hs.sole c d (hin c hc).2 (hin d hd).2
  · intro p
    rw [hactive]
    refine exists_congr fun c => and_congr_right fun _ => ⟨?_,hin c⟩
    rintro ⟨hg,hc⟩
    simpa only [State.stage, hcall c hg] using hc
  · intro c hc
    have hg := (hin c (Stage.inside_of_granted hc)).1
    obtain ⟨i,hi,hr⟩ := hs.granted c (by simpa only [State.stage, hcall c hg] using hc)
    exact ⟨i,hfile ▸ hi,hkeep i c hg hr⟩
  · intro i c hc
    obtain ⟨hr,hg⟩ := hres i c hc
    have h := hs.holder i c hr
    by_cases hgc : gone c
    · obtain ⟨h₁,h₂,h₃,h₄,h₅⟩ := hg hgc
      exact ⟨h₁ ▸ h.1,h₂ ▸ h.2.1,h₃ ▸ h.2.2.1,h₄ ▸ h.2.2.2.1,h₅⟩
    · simpa only [State.stage, hcall c hgc] using h
  · intro c
    by_cases hg : gone c
    · exact (hgone c hg).2
    · rw [hcall c hg, hfile]; exact hs.local_ c

/-- Two callbacks that run at once are the same one: both have SQLite's reservation of the
inode at the lock path. -/
theorem Inv.exclusive {owner : C → P} {s : State P C} (hs : Inv owner s) {c d : C}
    (hc : s.stage c = .running) (hd : s.stage d = .running) : c = d := by
  obtain ⟨i,hi,hci⟩ := hs.granted c (by rw [hc]; rfl)
  obtain ⟨j,hj,hdj⟩ := hs.granted d (by rw [hd]; rfl)
  cases hi.symm.trans hj
  exact Option.some.inj (hci.symm.trans hdj)

/-- A settled call whose rollback or close took effect, if it had reserved, holds nothing. -/
theorem Inv.settled_holds_nothing {owner : C → P} {s : State P C} (hs : Inv owner s) {c : C}
    (hc : s.stage c = .settled)
    (hgiven : (s.call c).reserved = true → (s.call c).rolledBack = true ∨ (s.call c).closed = true) :
    (∀ i, s.reservation i ≠ some c) ∧
      (s.active (owner c) = true → ∃ d, d ≠ c ∧ owner d = owner c ∧ (s.stage d).inside = true) := by
  constructor
  · intro i hi
    obtain ⟨-,hr,h₁,h₂,-⟩ := hs.holder i c hi
    rcases hgiven hr with h | h
    · simp [h₁] at h
    · simp [h₂] at h
  · intro ha
    obtain ⟨d,ho,hd⟩ := (hs.claimed (owner c)).mp ha
    refine ⟨d,?_,ho,hd⟩
    rintro rfl
    simp [hc, Stage.inside] at hd

section Processes
variable [DecidableEq P]

/-- A connection closed by a call that is inside and not granted takes nobody's claim:
it is the only call of its process that could have one. -/
theorem Inv.dropLocks {owner : C → P} {s : State P C} (hs : Inv owner s) (c : C) (i : Option Inode)
    (hin : (s.stage c).inside = true) (hgr : (s.stage c).granted = false) :
    Inv owner (s.dropLocks owner (owner c) i) where
  sole := hs.sole
  claimed := hs.claimed
  granted d hd := by
    obtain ⟨j,hj,hr⟩ := hs.granted d hd
    refine ⟨j,hj,State.dropLocks_reservation_of_ne hr ?_⟩
    intro ho
    have hdc := hs.sole d c (Stage.inside_of_granted hd) hin ho
    subst hdc
    have hd' : (s.stage d).granted = true := hd
    simp [hgr] at hd'
  holder j d hd := hs.holder j d (State.reservation_of_dropLocks hd).1
  local_ := hs.local_

/-- A process that dies takes its set and its reservations along. -/
theorem Inv.crash {owner : C → P} {s : State P C} (hs : Inv owner s) (p : P) :
    Inv owner { s with
      active := Function.update s.active p false
      reservation := fun i => (s.reservation i).filter (fun c => decide (owner c ≠ p))
      call := fun c => if owner c = p then { s.call c with stage := .dead } else s.call c } := by
  refine hs.remove (owner · = p) rfl (fun c hc => if_neg hc) ?_ ?_ ?_ ?_
  · intro c hc
    have hl := hs.local_ c
    simp only [State.stage, if_pos hc]
    exact ⟨rfl,hl.db,by simp [Stage.over],by simp [Stage.over],by simp,hl.once,
      by simp [Stage.over],hl.ran⟩
  · intro q
    by_cases hq : q = p
    · subst hq
      simp only [Function.update_self, Bool.false_eq_true, false_iff]
      rintro ⟨c,ho,hc,_⟩
      exact hc ho
    · simp only [Function.update_of_ne hq, hs.claimed]
      refine exists_congr fun c => and_congr_right fun ho => ?_
      simp [ho, hq]
  · intro i c hc
    obtain ⟨hr,ho⟩ := Option.filter_eq_some_iff.mp hc
    exact ⟨hr,fun hg => absurd hg (by simpa using ho)⟩
  · intro i c hc hr
    exact Option.filter_eq_some_iff.mpr ⟨hr,by simpa using hc⟩

end Processes

variable [DecidableEq C]

/-- A call that moves on without entering, leaving or newly holding the reservation. -/
theorem Inv.advance {owner : C → P} {s t : State P C} (hs : Inv owner s) (c : C) {l : Call}
    (hcall : t.call = Function.update s.call c l) (hactive : t.active = s.active)
    (hres : t.reservation = s.reservation) (hfile : ∀ i, s.file = some i → t.file = some i)
    (hin : l.stage.inside = (s.stage c).inside) (hgr : l.stage.granted = true → (s.stage c).granted = true)
    (hdead : l.stage ≠ .dead) (hdb : ∀ i, (s.call c).db = some i → l.db = some i)
    (hreserved : l.reserved = (s.call c).reserved) (hrolled : l.rolledBack = (s.call c).rolledBack)
    (hclosed : l.closed = (s.call c).closed) (hl : l.Ok t.file) : Inv owner t := by
  have hself : t.call c = l := by simp [hcall]
  have hne : ∀ d, d ≠ c → t.call d = s.call d := fun d hd => by simp [hcall, hd]
  have hinside : ∀ d, (t.stage d).inside = (s.stage d).inside := by
    intro d
    by_cases hd : d = c
    · subst hd; simp only [State.stage, hself]; exact hin
    · simp only [State.stage, hne d hd]
  refine ⟨?_,?_,?_,?_,?_⟩
  · intro d e hd he
    rw [hinside] at hd he
    exact hs.sole d e hd he
  · intro p
    simp only [hactive, hinside]
    exact hs.claimed p
  · intro d hd
    have hd' : (s.stage d).granted = true := by
      by_cases h : d = c
      · subst h; simp only [State.stage, hself] at hd; exact hgr hd
      · simpa only [State.stage, hne d h] using hd
    obtain ⟨i,hi,hr⟩ := hs.granted d hd'
    exact ⟨i,hfile i hi,by rw [hres]; exact hr⟩
  · intro i d hd
    rw [hres] at hd
    have h := hs.holder i d hd
    by_cases he : d = c
    · subst he
      simp only [State.stage, hself]
      exact ⟨hdb i h.1,hreserved.trans h.2.1,hrolled.trans h.2.2.1,hclosed.trans h.2.2.2.1,hdead⟩
    · simpa only [State.stage, hne d he] using h
  · intro d
    by_cases he : d = c
    · subst he; rw [hself]; exact hl
    · rw [hne d he]
      have h := hs.local_ d
      exact ⟨fun i hi => hfile i (h.db i hi),h.early,h.open_,h.late,h.once,h.unstarted,h.ran⟩

/-- Moves between stages that neither enter nor leave, and neither gain nor return anything. -/
def Stage.mayGoto (g h : Stage) : Bool :=
  h.inside == g.inside && (!h.granted || g.granted) && h != .dead && (h.over || !g.over)
    && (h.granted || h.over || !g.granted) && (h != .unwinding || !g.over)
    && (h.over || h == .running || h == .rechecking || (g != .running && g != .rechecking))

theorem Call.Ok.goto {file : Option Inode} {l : Call} (hl : l.Ok file) {h : Stage}
    (hm : l.stage.mayGoto h = true) : Call.Ok file { l with stage := h } := by
  simp only [Stage.mayGoto, Bool.and_eq_true, Bool.or_eq_true, Bool.not_eq_true', bne_iff_ne,
    beq_iff_eq] at hm
  obtain ⟨⟨⟨⟨⟨⟨-,-⟩,-⟩,hover⟩,hgr⟩,hun⟩,hrun⟩ := hm
  refine ⟨hl.db,?_,?_,?_,hl.once,?_,hl.ran⟩
  · intro hg ho
    exact hl.early (by simp_all) (by simp_all)
  · intro ho
    exact hl.open_ (by simp_all)
  · intro hu
    exact hl.open_ (by simp_all)
  · intro ho h₁ h₂
    exact hl.unstarted (by simp_all) (by simp_all) (by simp_all)

theorem Inv.goto {owner : C → P} {s : State P C} (hs : Inv owner s) (c : C) {g h : Stage}
    (hc : s.stage c = g) (hm : g.mayGoto h = true) : Inv owner (s.goto c h) := by
  subst hc
  have hm' := hm
  simp only [Stage.mayGoto, Bool.and_eq_true, Bool.or_eq_true, Bool.not_eq_true', bne_iff_ne,
    beq_iff_eq] at hm'
  obtain ⟨⟨⟨⟨⟨⟨hin,hgr⟩,hdead⟩,-⟩,-⟩,-⟩,-⟩ := hm'
  exact hs.advance c rfl rfl rfl (fun i hi => hi) hin (fun h => hgr.resolve_left (by simp [h])) hdead
    (fun i hi => hi) rfl rfl rfl ((hs.local_ c).goto hm)

/-- SQLite grants the reservation of an inode that nobody has. -/
theorem Inv.begin {owner : C → P} {s : State P C} (hs : Inv owner s) (c : C) (i : Inode)
    (hdb : (s.call c).db = some i) (ha : s.stage c = .acquiring) (hfree : s.reservation i = none) :
    Inv owner { s.setCall c { s.call c with stage := .checking, reserved := true } with
      reservation := Function.update s.reservation i (some c) } := by
  have hl := hs.local_ c
  have hst : (s.call c).stage = .acquiring := ha
  have hne : ∀ d, d ≠ c → (s.setCall c { s.call c with stage := .checking, reserved := true }).call d
      = s.call d := fun d hd => State.setCall_call_of_ne s _ hd
  have hinside : ∀ d, (((s.setCall c { s.call c with stage := .checking, reserved := true }).call d).stage).inside
      = (s.stage d).inside := by
    intro d
    by_cases hd : d = c
    · subst hd; simp [ha, Stage.inside]
    · simp only [hne d hd, State.stage]
  have hother : ∀ j d, d ≠ c → s.reservation j = some d →
      Function.update s.reservation i (some c) j = some d := by
    intro j d _ hj
    by_cases hji : j = i
    · subst hji; simp [hfree] at hj
    · simpa [hji] using hj
  refine ⟨?_,?_,?_,?_,?_⟩
  · intro d e hd he
    exact hs.sole d e ((hinside d).symm.trans hd) ((hinside e).symm.trans he)
  · intro p
    refine (hs.claimed p).trans (exists_congr fun d => and_congr_right fun _ => ?_)
    rw [← hinside d]; rfl
  · intro d hd
    by_cases hdc : d = c
    · subst hdc; exact ⟨i,hl.db i hdb,by simp⟩
    · obtain ⟨j,hj,hr⟩ := hs.granted d (by simpa only [State.stage, hne d hdc] using hd)
      exact ⟨j,hj,hother j d hdc hr⟩
  · intro j d hd
    by_cases hji : j = i
    · subst hji
      have hdc : d = c := by simpa using hd.symm
      subst hdc
      have ho := hl.open_ (by simp [hst, Stage.over])
      simp [State.stage, hdb, ho]
    · simp only [Function.update_of_ne hji] at hd
      have h := hs.holder j d hd
      by_cases hdc : d = c
      · subst hdc
        exact absurd (hdb.symm.trans h.1) (by simpa using fun h => hji h.symm)
      · simpa only [State.stage, hne d hdc] using h
  · intro d
    by_cases hdc : d = c
    · subst hdc
      have ho := hl.open_ (by simp [hst, Stage.over])
      have hr := hl.unstarted (by simp [hst, Stage.over]) (by simp [hst]) (by simp [hst])
      change Call.Ok s.file _
      rw [State.setCall_call_self]
      exact ⟨hl.db,by simp [Stage.granted],fun _ => ho,by simp,hl.once,fun _ _ _ => hr,by simp⟩
    · have h := hs.local_ d
      rw [← hne d hdc] at h
      exact h

/-- A call that moves on in the `finally` block once its own reservation is gone. -/
theorem Inv.advanceOver {owner : C → P} {s : State P C} (hs : Inv owner s) (c : C) {l : Call}
    (hin : (s.stage c).inside = true) (hgr : (s.stage c).granted = false)
    (hl : l.stage = .closing ∨ l.stage = .leaving) (hfree : ∀ i, s.reservation i ≠ some c)
    (hok : l.Ok s.file) : Inv owner (s.setCall c l) := by
  have hne : ∀ d, d ≠ c → (s.setCall c l).call d = s.call d :=
    fun d hd => State.setCall_call_of_ne _ _ hd
  have hinside : ∀ d, ((s.setCall c l).stage d).inside = (s.stage d).inside := by
    intro d
    by_cases hd : d = c
    · subst hd
      rw [hin, State.stage, State.setCall_call_self]
      rcases hl with hl | hl <;> simp [hl, Stage.inside]
    · simp only [State.stage, hne d hd]
  refine ⟨?_,?_,?_,?_,?_⟩
  · intro d e hd he
    rw [hinside] at hd he
    exact hs.sole d e hd he
  · intro p
    simp only [hinside]
    exact hs.claimed p
  · intro d hd
    by_cases hdc : d = c
    · subst hdc
      rw [State.stage, State.setCall_call_self] at hd
      rcases hl with hl | hl <;> simp [hl, Stage.granted] at hd
    · exact hs.granted d (by simpa only [State.stage, hne d hdc] using hd)
  · intro i d hd
    have hdc : d ≠ c := fun h => hfree i (h ▸ hd)
    simpa only [State.stage, hne d hdc] using hs.holder i d hd
  · intro d
    by_cases hdc : d = c
    · subst hdc; rw [State.setCall_call_self]; exact hok
    · rw [hne d hdc]; exact hs.local_ d

/-- `ROLLBACK` gives up the call's own reservation and nothing else. -/
theorem Inv.rollback {owner : C → P} {s : State P C} (hs : Inv owner s) (c : C)
    (hu : s.stage c = .unwinding) :
    Inv owner ((s.giveBack c).setCall c { s.call c with stage := .closing, rolledBack := true }) := by
  have hl := hs.local_ c
  have hgr : (s.stage c).granted = false := by simp [hu, Stage.granted]
  have hmid : Inv owner (s.giveBack c) := by
    refine ⟨hs.sole,hs.claimed,?_,fun i d hd => hs.holder i d (State.reservation_of_giveBack hd).2,
      hs.local_⟩
    intro d hd
    obtain ⟨i,hi,hr⟩ := hs.granted d hd
    refine ⟨i,hi,State.giveBack_reservation_of_ne hr ?_⟩
    rintro rfl
    exact absurd (hgr.symm.trans hd) (by simp)
  refine hmid.advanceOver c (by change (s.stage c).inside = true; simp [hu, Stage.inside]) hgr
    (Or.inl rfl) (fun i h => (State.reservation_of_giveBack h).1 rfl) ?_
  exact ⟨hl.db,by simp [Stage.granted, Stage.over],by simp [Stage.over],by simp,hl.once,
    by simp [Stage.over],hl.ran⟩

variable [DecidableEq P]

/-- Entering is exclusive within the process: the set had no claim on the path. -/
theorem Inv.enter {owner : C → P} {s : State P C} (hs : Inv owner s) (c : C)
    (hw : s.stage c = .waiting) (ha : s.active (owner c) = false) :
    Inv owner { s.goto c .preparing with active := Function.update s.active (owner c) true } := by
  have hnone : ∀ d, (s.stage d).inside = true → owner d ≠ owner c := by
    intro d hd ho
    have := (hs.claimed (owner c)).mpr ⟨d,ho,hd⟩
    simp [ha] at this
  have hself : ((s.goto c .preparing).call c) = { s.call c with stage := .preparing } := by
    simp [State.goto]
  have hne : ∀ d, d ≠ c → (s.goto c .preparing).call d = s.call d :=
    fun d hd => State.setCall_call_of_ne s _ hd
  have hcases : ∀ d, (((s.goto c .preparing).call d).stage).inside = true ↔
      d = c ∨ (s.stage d).inside = true := by
    intro d
    by_cases hd : d = c
    · subst hd; simp [hself, Stage.inside]
    · simp [hne d hd, hd, State.stage]
  refine ⟨?_,?_,?_,?_,?_⟩
  · intro d e hd he ho
    rcases (hcases d).mp hd with rfl | hd' <;> rcases (hcases e).mp he with rfl | he'
    · rfl
    · exact absurd ho.symm (hnone e he')
    · exact absurd ho (hnone d hd')
    · exact hs.sole d e hd' he' ho
  · intro p
    by_cases hp : p = owner c
    · subst hp
      simp only [Function.update_self, true_iff]
      exact ⟨c,rfl,(hcases c).mpr (Or.inl rfl)⟩
    · simp only [Function.update_of_ne hp, hs.claimed p]
      refine exists_congr fun d => and_congr_right fun hd => ?_
      have hdc : d ≠ c := fun h => hp (h ▸ hd.symm)
      exact ⟨fun h => (hcases d).mpr (Or.inr h),fun h => ((hcases d).mp h).resolve_left hdc⟩
  · intro d hd
    by_cases hdc : d = c
    · subst hdc; simp [State.stage, hself, Stage.granted] at hd
    · exact hs.granted d (by simpa only [State.stage, hne d hdc] using hd)
  · intro i d hd
    have h := hs.holder i d hd
    by_cases hdc : d = c
    · subst hdc
      simpa [State.stage, hself] using ⟨h.1,h.2.1,h.2.2.1,h.2.2.2.1⟩
    · simpa only [State.stage, hne d hdc] using h
  · intro d
    by_cases hdc : d = c
    · subst hdc
      have hl := hs.local_ d
      have hst : (s.call d).stage = .waiting := hw
      change Call.Ok s.file _
      rw [hself]
      exact ⟨hl.db,fun _ _ => hl.early (by simp [hst, Stage.granted]) (by simp [hst, Stage.over]),
        fun _ => hl.open_ (by simp [hst, Stage.over]),by simp,hl.once,
        fun _ _ _ => hl.unstarted (by simp [hst, Stage.over]) (by simp [hst]) (by simp [hst]),hl.ran⟩
    · have h := hs.local_ d
      rw [← hne d hdc] at h
      exact h

/-- Closing `db` gives up the call's own reservation, rolled back or not. -/
theorem Inv.close {owner : C → P} {s : State P C} (hs : Inv owner s) (c : C)
    (hc : s.stage c = .closing) :
    Inv owner ((s.dropLocks owner (owner c) (s.call c).db).setCall c
      { s.call c with stage := .leaving, closed := true }) := by
  have hl := hs.local_ c
  have hin : (s.stage c).inside = true := by simp [hc, Stage.inside]
  have hgr : (s.stage c).granted = false := by simp [hc, Stage.granted]
  refine (hs.dropLocks c (s.call c).db hin hgr).advanceOver c hin hgr (Or.inr rfl) ?_ ?_
  · intro i h
    obtain ⟨hr,ho⟩ := State.reservation_of_dropLocks h
    exact ho (hs.holder i c hr).1.symm rfl
  · exact ⟨hl.db,by simp [Stage.granted, Stage.over],by simp [Stage.over],by simp,hl.once,
      by simp [Stage.over],hl.ran⟩

/-- The last step of the `finally` block: the only call of its process that was inside. -/
theorem Inv.leave {owner : C → P} {s : State P C} (hs : Inv owner s) (c : C)
    (hc : s.stage c = .leaving) :
    Inv owner { s.goto c .settled with active := Function.update s.active (owner c) false } := by
  have hl := hs.local_ c
  have hin : (s.stage c).inside = true := by simp [hc, Stage.inside]
  have hself : (s.goto c .settled).call c = { s.call c with stage := .settled } := by
    simp [State.goto]
  refine hs.remove (· = c) rfl (fun d hd => State.setCall_call_of_ne s _ hd) ?_ ?_ ?_ (fun i d _ h => h)
  · rintro d rfl
    change ((s.goto d .settled).call d).stage.inside = false ∧ Call.Ok s.file _
    rw [hself]
    exact ⟨rfl,hl.db,by simp [Stage.over],by simp [Stage.over],by simp,hl.once,
      by simp [Stage.over],hl.ran⟩
  · intro p
    by_cases hp : p = owner c
    · subst hp
      simp only [Function.update_self, Bool.false_eq_true, false_iff]
      rintro ⟨d,ho,hd,hi⟩
      exact hd (hs.sole d c hi hin ho)
    · simp only [Function.update_of_ne hp, hs.claimed]
      refine exists_congr fun d => and_congr_right fun ho => ?_
      have hdc : d ≠ c := fun h => hp (h ▸ ho.symm)
      simp [hdc]
  · intro i d hd
    refine ⟨hd,?_⟩
    rintro rfl
    simp only [State.stage, hself]
    exact ⟨trivial,trivial,trivial,trivial,by simp⟩

/-- Any throw inside the `try` block; the connection it closes was opened by this call. -/
theorem Inv.fail {owner : C → P} {s : State P C} (hs : Inv owner s) (c : C) (took : Bool)
    (ht : (s.stage c).tried = true) :
    Inv owner ((if took then s.dropLocks owner (owner c) (s.throwCloses c) else s).goto c .unwinding) := by
  have hm : (s.stage c).mayGoto .unwinding = true := by
    cases h : s.stage c <;> simp_all [Stage.tried] <;> decide
  have hdrop : Inv owner (s.dropLocks owner (owner c) (s.throwCloses c)) := by
    by_cases hg : (s.stage c).granted = true
    · have hnone : s.throwCloses c = none := by
        unfold State.throwCloses
        cases h : s.stage c <;> simp_all [Stage.granted]
      have hsame : s.dropLocks owner (owner c) (s.throwCloses c) = s := by simp [hnone, State.dropLocks]
      rw [hsame]; exact hs
    · exact hs.dropLocks c _ (Stage.inside_of_tried ht) (by simpa using hg)
  cases took with
  | true => exact hdrop.goto c rfl hm
  | false => exact hs.goto c rfl hm

/-- Every step keeps the invariant. -/
theorem Inv.of_step {owner : C → P} {s t : State P C} {a : Action P C} (hs : Inv owner s)
    (h : step owner s a = some t) : Inv owner t := by
  cases a <;> simp only [step, Option.ite_none_right_eq_some, Option.some.injEq] at h
  case refuse c => obtain ⟨hc,rfl⟩ := h; exact hs.goto c hc rfl
  case enter c => obtain ⟨⟨hw,ha⟩,rfl⟩ := h; exact hs.enter c hw ha
  case prepare c => obtain ⟨hc,rfl⟩ := h; exact hs.goto c hc rfl
  case inspect c =>
    obtain ⟨hc,rfl⟩ := h
    split_ifs
    · exact hs.goto c hc rfl
    · exact hs.goto c hc rfl
  case create c =>
    obtain ⟨hc,rfl⟩ := h
    have hst : (s.call c).stage = .creating := hc
    have hl := (hs.local_ c).goto (h := .building) (by rw [hst]; rfl)
    exact hs.advance c rfl rfl rfl (fun i hi => hi) (by rw [hc]; rfl) (by simp [Stage.granted]) (by simp)
      (fun i hi => hi) rfl rfl rfl ⟨hl.db,hl.early,hl.open_,hl.late,hl.once,hl.unstarted,hl.ran⟩
  case closeCandidate c =>
    obtain ⟨hc,rfl⟩ := h
    exact (hs.dropLocks c _ (by rw [hc]; rfl) (by rw [hc]; rfl)).goto c hc rfl
  case link c =>
    obtain ⟨hc,rfl⟩ := h
    have hst : (s.call c).stage = .linking := hc
    have hl := (hs.local_ c).goto (h := .unlinking) (by rw [hst]; rfl)
    have hfile : ∀ i, s.file = some i → s.file.or (s.call c).candidate = some i :=
      fun i hi => by simp [hi]
    exact hs.advance c rfl rfl rfl hfile (by rw [hc]; rfl) (by simp [Stage.granted]) (by simp)
      (fun i hi => hi) rfl rfl rfl
      ⟨fun i hi => hfile i (hl.db i hi),hl.early,hl.open_,hl.late,hl.once,hl.unstarted,hl.ran⟩
  case unlink c =>
    obtain ⟨hc,rfl⟩ := h
    have hst : (s.call c).stage = .unlinking := hc
    have hl := (hs.local_ c).goto (h := .identifying) (by rw [hst]; rfl)
    exact hs.advance c rfl rfl rfl (fun i hi => hi) (by rw [hc]; rfl) (by simp [Stage.granted]) (by simp)
      (fun i hi => hi) rfl rfl rfl ⟨hl.db,hl.early,hl.open_,hl.late,hl.once,hl.unstarted,hl.ran⟩
  case identify c =>
    obtain ⟨⟨hc,-⟩,rfl⟩ := h
    have hst : (s.call c).stage = .identifying := hc
    have hl := (hs.local_ c).goto (h := .validating) (by rw [hst]; rfl)
    exact hs.advance c rfl rfl rfl (fun i hi => hi) (by rw [hc]; rfl) (by simp [Stage.granted]) (by simp)
      (fun i hi => hi) rfl rfl rfl ⟨hl.db,hl.early,hl.open_,hl.late,hl.once,hl.unstarted,hl.ran⟩
  case openReadonly c => obtain ⟨hc,rfl⟩ := h; exact hs.goto c hc rfl
  case closeReadonly c =>
    obtain ⟨hc,rfl⟩ := h
    exact (hs.dropLocks c _ (by rw [hc]; rfl) (by rw [hc]; rfl)).goto c hc rfl
  case connect c =>
    obtain ⟨hc,rfl⟩ := h
    have hst : (s.call c).stage = .connecting := hc
    have hl := (hs.local_ c).goto (h := .acquiring) (by rw [hst]; rfl)
    exact hs.advance c rfl rfl rfl (fun i hi => hi) (by rw [hc]; rfl) (by simp [Stage.granted]) (by simp)
      (fun i hi => (hs.local_ c).db i hi) rfl rfl rfl
      ⟨fun i hi => hi,hl.early,hl.open_,hl.late,hl.once,hl.unstarted,hl.ran⟩
  case begin c =>
    split at h
    · contradiction
    · rename_i i hdb
      simp only [Option.ite_none_right_eq_some, Option.some.injEq] at h
      obtain ⟨⟨ha,hfree⟩,rfl⟩ := h
      exact hs.begin c i hdb ha hfree
  case retry c => obtain ⟨-,rfl⟩ := h; exact hs
  case check c =>
    obtain ⟨⟨hc,-⟩,rfl⟩ := h
    have hst : (s.call c).stage = .checking := hc
    have hl := hs.local_ c
    have hran := hl.unstarted (by rw [hst]; rfl) (by simp [hst]) (by simp [hst])
    obtain ⟨i,-,hr⟩ := hs.granted c (by rw [hc]; rfl)
    refine hs.advance c rfl rfl rfl (fun i hi => hi) (by rw [hc]; rfl) (fun _ => by rw [hc]; rfl)
      (by simp) (fun i hi => hi) rfl rfl rfl ?_
    exact ⟨hl.db,by simp [Stage.granted],fun _ => hl.open_ (by rw [hst]; rfl),by simp,by simp [hran],
      by simp,fun _ => (hs.holder i c hr).2.1⟩
  case finish c => obtain ⟨hc,rfl⟩ := h; exact hs.goto c hc rfl
  case recheck c => obtain ⟨⟨hc,-⟩,rfl⟩ := h; exact hs.goto c hc rfl
  case fail c took => obtain ⟨ht,rfl⟩ := h; exact hs.fail c took ht
  case rollback c took =>
    obtain ⟨hu,h⟩ := h
    split_ifs at h <;> cases h
    · exact hs.rollback c hu
    · exact hs.goto c hu rfl
  case close c took =>
    obtain ⟨hc,h⟩ := h
    split_ifs at h <;> cases h
    · exact hs.close c hc
    · exact hs.goto c hc rfl
  case leave c => obtain ⟨hc,rfl⟩ := h; exact hs.leave c hc
  case crash p => subst h; exact hs.crash p

theorem reachable_inv {owner : C → P} {file : Option Inode} {as : List (Action P C)} {s : State P C}
    (h : run (step owner) (State.init file) as = some s) : Inv owner s :=
  run_invariant (step owner) (fun _ _ _ hs ht => hs.of_step ht) (inv_init owner file) h

/-- The frame of a step by call `c`: every other call keeps its locals, and one that is still
inside keeps its reservation. -/
theorem Inv.frame {owner : C → P} {s t : State P C} {a : Action P C} {c d : C} (hs : Inv owner s)
    (h : step owner s a = some t) (ha : a.actor = some c) (hd : d ≠ c) :
    t.call d = s.call d ∧
      ((s.stage d).inside = true → ∀ i, s.reservation i = some d → t.reservation i = some d) := by
  have hset : ∀ (u : State P C) (l : Call), (u.setCall c l).call d = u.call d :=
    fun u l => State.setCall_call_of_ne u l hd
  -- a call that closes a connection is inside, so no other call of its process is
  have hdrop : (s.stage c).inside = true → ∀ j, (s.stage d).inside = true → ∀ i,
      s.reservation i = some d → (s.dropLocks owner (owner c) j).reservation i = some d :=
    fun hc j hin i hi => State.dropLocks_reservation_of_ne hi
      fun ho => hd (hs.sole d c hin hc ho)
  cases a <;> simp only [Action.actor, Option.some.injEq, reduceCtorEq] at ha <;> subst ha <;>
    simp only [step, Option.ite_none_right_eq_some, Option.some.injEq] at h
  case closeCandidate => obtain ⟨hc,rfl⟩ := h; exact ⟨hset _ _,hdrop (by rw [hc]; rfl) _⟩
  case closeReadonly => obtain ⟨hc,rfl⟩ := h; exact ⟨hset _ _,hdrop (by rw [hc]; rfl) _⟩
  case begin =>
    split at h
    · contradiction
    · rename_i j hdb
      simp only [Option.ite_none_right_eq_some, Option.some.injEq] at h
      obtain ⟨⟨-,hfree⟩,rfl⟩ := h
      refine ⟨hset _ _,fun _ i hi => ?_⟩
      have hij : i ≠ j := by rintro rfl; simp [hfree] at hi
      simpa [hij] using hi
  case retry => obtain ⟨-,rfl⟩ := h; exact ⟨rfl,fun _ i hi => hi⟩
  case fail took =>
    obtain ⟨ht,rfl⟩ := h
    cases took with
    | true => exact ⟨hset _ _,hdrop (Stage.inside_of_tried ht) _⟩
    | false => exact ⟨hset _ _,fun _ i hi => hi⟩
  case rollback =>
    obtain ⟨-,h⟩ := h
    split_ifs at h <;> cases h
    · exact ⟨hset _ _,fun _ i hi => State.giveBack_reservation_of_ne hi hd⟩
    · exact ⟨hset _ _,fun _ i hi => hi⟩
  case close =>
    obtain ⟨hc,h⟩ := h
    split_ifs at h <;> cases h
    · exact ⟨hset _ _,hdrop (by rw [hc]; rfl) _⟩
    · exact ⟨hset _ _,fun _ i hi => hi⟩
  all_goals
    obtain ⟨-,rfl⟩ := h
    exact ⟨hset _ _,fun _ i hi => hi⟩

/-- Exclusion of `withFilesystemLock` at the end of every run: at most one callback runs, none
runs twice or without a reservation, no step of one call takes what another call that has not
settled holds, and a settled call holds nothing. -/
theorem withFilesystemLock_exclusive (owner : C → P) (file : Option Inode) (as : List (Action P C))
    (s : State P C) (h : run (step owner) (State.init file) as = some s) :
    (∀ c d, s.stage c = .running → s.stage d = .running → c = d) ∧
    (∀ c, (s.call c).ran ≤ 1 ∧ ((s.call c).reserved = false → (s.call c).ran = 0)) ∧
    (∀ a t c d, step owner s a = some t → a.actor = some c → d ≠ c → (s.stage d).inside = true →
      t.call d = s.call d ∧ t.active (owner d) = true ∧
        ∀ i, s.reservation i = some d → t.reservation i = some d) ∧
    (∀ c, s.stage c = .settled →
      ((s.call c).reserved = true → (s.call c).rolledBack = true ∨ (s.call c).closed = true) →
      (∀ i, s.reservation i ≠ some c) ∧
        (s.active (owner c) = true → ∃ d, d ≠ c ∧ owner d = owner c ∧ (s.stage d).inside = true)) := by
  have hs := reachable_inv h
  refine ⟨fun c d hc hd => hs.exclusive hc hd,fun c => ⟨(hs.local_ c).once,?_⟩,?_,
    fun c hc hg => hs.settled_holds_nothing hc hg⟩
  · intro hr
    by_contra hran
    have := (hs.local_ c).ran (Nat.pos_of_ne_zero hran)
    simp [hr] at this
  · intro a t c d ht ha hd hin
    obtain ⟨hcall,hres⟩ := hs.frame ht ha hd
    refine ⟨hcall,((hs.of_step ht).claimed (owner d)).mpr ⟨d,rfl,?_⟩,hres hin⟩
    simpa only [State.stage, hcall] using hin

/-- Two processes publish at once, one callback runs, the other caller is refused SQLite's
reservation and waits. -/
def contendedRun : List (Action Bool (Bool × ℕ)) :=
  let a : Bool × ℕ := (false,0)
  let b : Bool × ℕ := (true,0)
  [.enter a,.enter b,.prepare a,.prepare b,.inspect a,.inspect b,.create a,.create b,
   .closeCandidate a,.closeCandidate b,.link b,.link a,.unlink a,.unlink b,.identify a,.identify b,
   .openReadonly a,.closeReadonly a,.connect a,.begin a,.openReadonly b,.closeReadonly b,.connect b,
   .retry b,.check a]

def contendedState : State Bool (Bool × ℕ) :=
  (run (step Prod.fst) (State.init none) contendedRun).getD (State.init none)

theorem withFilesystemLock_exclusive_contended :
    contendedState.stage (false,0) = .running ∧ contendedState.stage (true,0) ≠ .running := by
  refine ⟨rfl,fun hd => ?_⟩
  have h := withFilesystemLock_exclusive Prod.fst none contendedRun contendedState rfl
  exact absurd (h.1 (true,0) (false,0) hd rfl) (by decide)

end OmniagentPlus.StateLedger.FilesystemLock
