import OmniagentPlus.Foundation.Transition

/-! Processes that act on a shared state one action at a time, any number of them side by side, and
rely-guarantee reasoning: what a process knows has to survive the steps of the others. -/
namespace OmniagentPlus.Foundation

/-- A process stops at each action; what it does next depends on the answer to it. -/
inductive Process (A : Type → Type 1) (α : Type) : Type 1
  | done (result : α)
  | act {β : Type} (action : A β) (next : β → Process A α)

namespace Process
variable {A : Type → Type 1} {α β ε : Type}

def bind : Process A α → (α → Process A β) → Process A β
  | done a, f => f a
  | act x next, f => act x (fun b => (next b).bind f)

instance instMonadProcess : Monad (Process A) where
  pure := done
  bind := bind

/-- One action. -/
def action (x : A β) : Process A β := act x done

/-- What a process that may throw comes to, as a value. -/
def attempt (x : ExceptT ε (Process A) α) : ExceptT ε (Process A) (Except ε α) := ExceptT.lift x.run

/-- Goes on with an outcome. -/
def settleWith (outcome : Except ε α) : ExceptT ε (Process A) α := ExceptT.mk (done outcome)

/-- `try { x } finally { cleanup }`; what the cleanup throws comes instead. -/
def finally' (x : ExceptT ε (Process A) α) (cleanup : ExceptT ε (Process A) Unit) : ExceptT ε (Process A) α := do
  let outcome ← attempt x
  cleanup
  settleWith outcome

end Process

/-- The answers to the actions of a process that runs an operation, and what they do to the state; the
environment chooses. -/
structure Interpreter (A : Type → Type 1) (ω σ C : Type) where
  perform : {β : Type} → ℕ → ω → A β → σ → C → Option (β × σ)

/-- What always holds of the state, and what a step of a process that runs an operation does to it. -/
structure Contract (ω σ : Type) where
  Invariant : σ → Prop
  Guarantee : ℕ → ω → σ → σ → Prop

namespace Contract
variable {A : Type → Type 1} {ω σ C α β ε : Type} (contract : Contract ω σ) (I : Interpreter A ω σ C)

/-- No step of another process makes `P` false. -/
def Stable (pid : ℕ) (P : σ → Prop) : Prop :=
  ∀ other op s t, other ≠ pid → contract.Invariant s → contract.Guarantee other op s t → P s → P t

theorem stable_true (pid : ℕ) : contract.Stable pid (fun _ => True) := fun _ _ _ _ _ _ _ _ => trivial

theorem Stable.and {pid : ℕ} {P Q : σ → Prop} (hP : contract.Stable pid P) (hQ : contract.Stable pid Q) :
    contract.Stable pid (fun s => P s ∧ Q s) :=
  fun other op s t hne hs hg h => ⟨hP other op s t hne hs hg h.1,hQ other op s t hne hs hg h.2⟩

/-- From a state that meets `P` the process keeps its contract, and ends where `Q` holds. Between two
actions it knows something that the others leave true. -/
def Keeps (pid : ℕ) (op : ω) (Q : α → σ → Prop) : Process A α → (σ → Prop) → Prop
  | .done a, P => ∀ s, contract.Invariant s → P s → Q a s
  | .act x next, P => ∀ s c b t, contract.Invariant s → P s → I.perform pid op x s c = some (b,t) →
      contract.Invariant t ∧ contract.Guarantee pid op s t ∧
        ∃ P', contract.Stable pid P' ∧ P' t ∧ Keeps pid op Q (next b) P'

variable {contract I} {pid : ℕ} {op : ω} {Q R : α → σ → Prop} {P P' : σ → Prop}

theorem Keeps.strengthen {x : Process A α} (h : contract.Keeps I pid op Q x P)
    (hP : ∀ s, contract.Invariant s → P' s → P s) : contract.Keeps I pid op Q x P' := by
  cases x with
  | done a => exact fun s hs hp => h s hs (hP s hs hp)
  | act x next => exact fun s c b t hs hp => h s c b t hs (hP s hs hp)

theorem Keeps.weaken {x : Process A α} (h : contract.Keeps I pid op Q x P)
    (hQ : ∀ a s, contract.Invariant s → Q a s → R a s) : contract.Keeps I pid op R x P := by
  induction x generalizing P with
  | done a => exact fun s hs hp => hQ a s hs (h s hs hp)
  | act x next ih =>
    intro s c b t hs hp hx
    obtain ⟨ht,hg,K,hstable,hK,hnext⟩ := h s c b t hs hp hx
    exact ⟨ht,hg,K,hstable,hK,ih b hnext⟩

/-- What no step makes false, of this process or another, outlasts the process. -/
theorem Keeps.frame {F : σ → Prop} {x : Process A α}
    (hF : ∀ other op s t, contract.Invariant s → contract.Guarantee other op s t → F s → F t)
    (h : contract.Keeps I pid op Q x P) :
    contract.Keeps I pid op (fun a s => Q a s ∧ F s) x (fun s => P s ∧ F s) := by
  induction x generalizing P with
  | done a => exact fun s hs hp => ⟨h s hs hp.1,hp.2⟩
  | act x next ih =>
    intro s c b t hs hp hx
    obtain ⟨ht,hg,K,hstable,hK,hnext⟩ := h s c b t hs hp.1 hx
    refine ⟨ht,hg,fun s => K s ∧ F s,?_,⟨hK,hF pid op s t hs hg hp.2⟩,ih b hnext⟩
    exact hstable.and contract fun other op s t _ => hF other op s t

/-- A fact that is no matter of the state may be assumed. -/
theorem Keeps.assume {c : Prop} {x : Process A α} (h : c → contract.Keeps I pid op Q x P) :
    contract.Keeps I pid op Q x (fun s => c ∧ P s) := by
  cases x with
  | done a => exact fun s hs hp => h hp.1 s hs hp.2
  | act x next => exact fun s d b t hs hp => h hp.1 s d b t hs hp.2

/-- Sequencing: what the first part ends with has to stay true while the others take steps. -/
theorem Keeps.bind {x : Process A β} {f : β → Process A α} {K : β → σ → Prop}
    (hx : contract.Keeps I pid op K x P) (hf : ∀ b, contract.Keeps I pid op Q (f b) (K b)) :
    contract.Keeps I pid op Q (x.bind f) P := by
  induction x generalizing P with
  | done b => exact (hf b).strengthen hx
  | act x next ih =>
    intro s c b t hs hp hstep
    obtain ⟨ht,hg,K',hstable,hK',hnext⟩ := hx s c b t hs hp hstep
    exact ⟨ht,hg,K',hstable,hK',ih b hnext⟩

/-- One action, by what it does. -/
theorem keeps_action {x : A α}
    (h : ∀ s c b t, contract.Invariant s → P s → I.perform pid op x s c = some (b,t) →
      contract.Invariant t ∧ contract.Guarantee pid op s t ∧ Q b t)
    (hstable : ∀ b, contract.Stable pid (Q b)) : contract.Keeps I pid op Q (Process.action x) P := by
  intro s c b t hs hp hx
  obtain ⟨ht,hg,hQ⟩ := h s c b t hs hp hx
  exact ⟨ht,hg,Q b,hstable b,hQ,fun _ _ h => h⟩

section Exceptions
variable {E : Except ε α → σ → Prop} {K : Except ε β → σ → Prop}

theorem keeps_pure (a : α) (h : ∀ s, contract.Invariant s → P s → E (.ok a) s) :
    contract.Keeps I pid op E (pure a : ExceptT ε (Process A) α).run P := h

theorem keeps_throw (e : ε) (h : ∀ s, contract.Invariant s → P s → E (.error e) s) :
    contract.Keeps I pid op E (throw e : ExceptT ε (Process A) α).run P := h

/-- Sequencing of parts that may throw. -/
theorem Keeps.exceptBind {x : ExceptT ε (Process A) β} {f : β → ExceptT ε (Process A) α}
    (hx : contract.Keeps I pid op K x.run P) (hf : ∀ b, contract.Keeps I pid op E (f b).run (K (.ok b)))
    (hthrow : ∀ e s, contract.Invariant s → K (.error e) s → E (.error e) s) :
    contract.Keeps I pid op E (x >>= f).run P := by
  refine Keeps.bind (x := x) hx fun outcome => ?_
  cases outcome with
  | ok b => exact hf b
  | error e => exact hthrow e

/-- The outcome of an attempt, which itself never throws. -/
def Caught (K : Except ε α → σ → Prop) : Except ε (Except ε α) → σ → Prop
  | .ok outcome, s => K outcome s
  | .error _, _ => False

theorem Keeps.attempt {x : ExceptT ε (Process A) α} {K : Except ε α → σ → Prop}
    (hx : contract.Keeps I pid op K x.run P) :
    contract.Keeps I pid op (Caught K) (Process.attempt x).run P :=
  Keeps.bind (x := x) hx fun _ _ _ hK => hK

/-- What follows an attempt knows how it came out. -/
theorem Keeps.attemptBind {x : ExceptT ε (Process A) β} {f : Except ε β → ExceptT ε (Process A) α}
    (hx : contract.Keeps I pid op K x.run P)
    (hf : ∀ outcome, contract.Keeps I pid op E (f outcome).run (K outcome)) :
    contract.Keeps I pid op E (Process.attempt x >>= f).run P :=
  Keeps.exceptBind (K := Caught K) hx.attempt hf fun _ _ _ h => h.elim

/-- The cleanup comes after either outcome, and throws its own error or leaves the outcome. -/
theorem Keeps.finally' {x : ExceptT ε (Process A) α} {cleanup : ExceptT ε (Process A) Unit} {K : Except ε α → σ → Prop}
    {D : Except ε α → Except ε Unit → σ → Prop} (hx : contract.Keeps I pid op K x.run P)
    (hcleanup : ∀ outcome, contract.Keeps I pid op (D outcome) cleanup.run (K outcome))
    (hdone : ∀ outcome s, contract.Invariant s → D outcome (.ok ()) s → E outcome s)
    (hthrow : ∀ outcome e s, contract.Invariant s → D outcome (.error e) s → E (.error e) s) :
    contract.Keeps I pid op E (Process.finally' x cleanup).run P := by
  refine hx.attemptBind fun outcome => ?_
  refine (hcleanup outcome).exceptBind (fun _ => ?_) (hthrow outcome)
  exact hdone outcome

theorem keeps_settleWith (outcome : Except ε α) (h : ∀ s, contract.Invariant s → P s → E outcome s) :
    contract.Keeps I pid op E (Process.settleWith (A := A) outcome).run P := h

end Exceptions
end Contract

section Guard
open Classical
variable {A : Type → Type 1} {ω σ C : Type} (I : Interpreter A ω σ C) (ok : ω → σ → Prop)

/-- Only the answers after which the state is as it should be for the operation. -/
noncomputable def Interpreter.guarded : Interpreter A ω σ C where
  perform pid op x s c := (I.perform pid op x s c).filter (fun r => decide (ok op r.2))

theorem Interpreter.guarded_perform {pid : ℕ} {op : ω} {β : Type} {x : A β} {s : σ} {c : C} {r : β × σ} :
    (I.guarded ok).perform pid op x s c = some r ↔ I.perform pid op x s c = some r ∧ ok op r.2 := by
  simp [Interpreter.guarded, Option.filter_eq_some_iff]

end Guard

/-- An action with the answer to it. -/
structure Exchange (A : Type → Type 1) : Type 1 where
  Reply : Type
  action : A Reply
  reply : Reply

namespace Process
variable {A : Type → Type 1} {ω σ C α β ε : Type} (I : Interpreter A ω σ C) (pid : ℕ) (op : ω)

/-- A process runs to its end, and nothing else moves meanwhile. -/
inductive Alone : Process A α → σ → List (Exchange A) → α → σ → Prop
  | done (a : α) (s : σ) : Alone (.done a) s [] a s
  | act {γ : Type} {x : A γ} {next : γ → Process A α} {s t u : σ} {c : C} {b : γ} {trace : List (Exchange A)} {a : α}
      (h : I.perform pid op x s c = some (b,t)) (hnext : Alone (next b) t trace a u) :
      Alone (.act x next) s (⟨γ,x,b⟩ :: trace) a u

/-- The run alone under given answers, where they fit. -/
def runAlone : Process A α → σ → List C → Option (List (Exchange A) × α × σ)
  | .done a, s, _ => some ([],a,s)
  | .act _ _, _, [] => none
  | .act x next, s, c :: answers => (I.perform pid op x s c).bind fun r =>
    (runAlone (next r.1) r.2 answers).map fun run => (⟨_,x,r.1⟩ :: run.1,run.2)

theorem alone_runAlone {x : Process A α} {s : σ} {answers : List C} {run : List (Exchange A) × α × σ}
    (h : runAlone I pid op x s answers = some run) : Alone I pid op x s run.1 run.2.1 run.2.2 := by
  induction x generalizing s answers run with
  | done a =>
    cases h
    exact .done a s
  | act x next ih =>
    cases answers with
    | nil => cases h
    | cons c answers =>
      obtain ⟨r,hr,hrest⟩ := Option.bind_eq_some_iff.mp h
      obtain ⟨rest,hrun,rfl⟩ := Option.map_eq_some_iff.mp hrest
      exact .act hr (ih r.1 hrun)

/-- What every run of a process alone from the state comes to. -/
def AloneEnsures (x : Process A α) (s : σ) (Q : List (Exchange A) → α → σ → Prop) : Prop :=
  ∀ trace a t, Alone I pid op x s trace a t → Q trace a t

variable {I pid op} {s : σ} {Q R : List (Exchange A) → α → σ → Prop}

theorem AloneEnsures.weaken {x : Process A α} (h : AloneEnsures I pid op x s Q) (hQ : ∀ trace a t, Q trace a t → R trace a t) :
    AloneEnsures I pid op x s R := fun trace a t hrun => hQ trace a t (h trace a t hrun)

theorem aloneEnsures_done {a : α} (h : Q [] a s) : AloneEnsures I pid op (.done a) s Q := by
  intro trace b t hrun
  cases hrun
  exact h

theorem aloneEnsures_act {x : A β} {next : β → Process A α}
    (h : ∀ c b t, I.perform pid op x s c = some (b,t) →
      AloneEnsures I pid op (next b) t (fun trace => Q (⟨β,x,b⟩ :: trace))) :
    AloneEnsures I pid op (.act x next) s Q := by
  intro trace a u hrun
  cases hrun with
  | act hx hnext => exact h _ _ _ hx _ _ _ hnext

theorem AloneEnsures.bind {x : Process A β} {f : β → Process A α} {K : List (Exchange A) → β → σ → Prop}
    (hx : AloneEnsures I pid op x s K)
    (hf : ∀ trace b t, K trace b t → AloneEnsures I pid op (f b) t (fun rest => Q (trace ++ rest))) :
    AloneEnsures I pid op (x.bind f) s Q := by
  induction x generalizing s K Q with
  | done b => exact hf [] b s (hx [] b s (.done b s))
  | act y next ih =>
    refine aloneEnsures_act fun c b t hy => ?_
    refine ih b (K := fun trace => K (⟨_,y,b⟩ :: trace)) ?_ ?_
    · exact fun trace a u hrun => hx _ a u (.act hy hrun)
    · exact fun trace a u hK => hf _ a u hK

section Exceptions
variable {E : List (Exchange A) → Except ε α → σ → Prop}

theorem aloneEnsures_pure {a : α} (h : E [] (.ok a) s) :
    AloneEnsures I pid op (pure a : ExceptT ε (Process A) α).run s E := aloneEnsures_done h

theorem aloneEnsures_throw {e : ε} (h : E [] (.error e) s) :
    AloneEnsures I pid op (throw e : ExceptT ε (Process A) α).run s E := aloneEnsures_done h

theorem aloneEnsures_action {x : A (Except ε α)}
    (h : ∀ c outcome t, I.perform pid op x s c = some (outcome,t) → E [⟨_,x,outcome⟩] outcome t) :
    AloneEnsures I pid op (ExceptT.mk (action x)).run s E :=
  aloneEnsures_act fun c outcome t hx => aloneEnsures_done (h c outcome t hx)

/-- The second part runs where the first one does not throw. -/
theorem AloneEnsures.exceptBind {x : ExceptT ε (Process A) β} {f : β → ExceptT ε (Process A) α}
    {K : List (Exchange A) → Except ε β → σ → Prop} (hx : AloneEnsures I pid op x.run s K)
    (hok : ∀ trace b t, K trace (.ok b) t → AloneEnsures I pid op (f b).run t (fun rest => E (trace ++ rest)))
    (herror : ∀ trace e t, K trace (.error e) t → E trace (.error e) t) :
    AloneEnsures I pid op (x >>= f).run s E := by
  refine AloneEnsures.bind (x := x) hx fun trace outcome t hK => ?_
  cases outcome with
  | ok b => exact hok trace b t hK
  | error e =>
    refine aloneEnsures_done ?_
    rw [List.append_nil]
    exact herror trace e t hK

theorem AloneEnsures.attemptBind {x : ExceptT ε (Process A) β} {f : Except ε β → ExceptT ε (Process A) α}
    {K : List (Exchange A) → Except ε β → σ → Prop} (hx : AloneEnsures I pid op x.run s K)
    (hf : ∀ trace outcome t, K trace outcome t → AloneEnsures I pid op (f outcome).run t (fun rest => E (trace ++ rest))) :
    AloneEnsures I pid op (attempt x >>= f).run s E := by
  refine AloneEnsures.exceptBind (K := fun trace outcome t => ∃ inner, outcome = .ok inner ∧ K trace inner t) ?_ ?_ ?_
  · refine AloneEnsures.bind (x := x) hx fun trace outcome t hK => aloneEnsures_done ?_
    rw [List.append_nil]
    exact ⟨outcome,rfl,hK⟩
  · rintro trace outcome t ⟨_,⟨⟩,hK⟩
    exact hf trace outcome t hK
  · rintro trace e t ⟨_,⟨⟩,-⟩

end Exceptions
end Process

/-- Processes side by side on a shared state, each with the operation that it runs. -/
structure Concurrent (A : Type → Type 1) (ω σ α : Type) where
  shared : σ
  processes : List (ω × Process A α)

inductive Move (ω C : Type)
  | start (op : ω)
  | resume (pid : ℕ) (answer : C)

namespace Concurrent
variable {A : Type → Type 1} {ω σ C α : Type} (I : Interpreter A ω σ C) (boot : ω → Process A α)

/-- An operation starts, or a process takes its next action. -/
def step (w : Concurrent A ω σ α) : Move ω C → Option (Concurrent A ω σ α)
  | .start op => some { w with processes := w.processes ++ [(op,boot op)] }
  | .resume pid answer =>
    match w.processes[pid]? with
    | some (op,.act x next) => (I.perform pid op x w.shared answer).map (fun r =>
        ⟨r.2,w.processes.set pid (op,next r.1)⟩)
    | _ => none

variable {I boot} {contract : Contract ω σ} {Q : ω → α → σ → Prop}

/-- The invariant holds, and each process is at a point from which it keeps its contract. -/
structure Outlined (I : Interpreter A ω σ C) (contract : Contract ω σ) (Q : ω → α → σ → Prop)
    (w : Concurrent A ω σ α) : Prop where
  inv : contract.Invariant w.shared
  outline : ∀ pid op x, w.processes[pid]? = some (op,x) →
    ∃ P, contract.Stable pid P ∧ P w.shared ∧ contract.Keeps I pid op (Q op) x P

theorem outlined_start {w : Concurrent A ω σ α} (h : w.Outlined I contract Q)
    {op : ω} (hboot : ∀ pid, contract.Keeps I pid op (Q op) (boot op) (fun _ => True)) :
    Outlined I contract Q { w with processes := w.processes ++ [(op,boot op)] } where
  inv := h.inv
  outline pid op' x hx := by
    dsimp only at hx
    rw [List.getElem?_append] at hx
    split_ifs at hx with hlt
    · exact h.outline pid op' x hx
    · obtain ⟨hpid,rfl,rfl⟩ : pid = w.processes.length ∧ op = op' ∧ boot op = x := by
        have hi := List.getElem?_eq_some_iff.mp hx
        obtain ⟨hi,heq⟩ := hi
        simp only [List.length_cons, List.length_nil] at hi
        simp only [List.getElem_singleton, Prod.mk.injEq] at heq
        exact ⟨by omega,heq.1,heq.2⟩
      exact ⟨fun _ => True,contract.stable_true pid,trivial,hboot pid⟩

/-- What a step of a process does is what it guarantees. -/
theorem resume_spec {w w' : Concurrent A ω σ α} {pid : ℕ} {answer : C} (h : w.Outlined I contract Q)
    (hstep : w.step I boot (.resume pid answer) = some w') :
    w'.Outlined I contract Q ∧ ∃ op x, w.processes[pid]? = some (op,x) ∧
      contract.Guarantee pid op w.shared w'.shared := by
  rw [step] at hstep
  split at hstep
  case h_2 => cases hstep
  case h_1 op β x next hpid =>
    obtain ⟨⟨b,t⟩,hx,rfl⟩ := Option.map_eq_some_iff.mp hstep
    obtain ⟨P,hstable,hP,hkeeps⟩ := h.outline pid op _ hpid
    obtain ⟨ht,hg,P',hstable',hP',hnext⟩ := hkeeps w.shared answer b t h.inv hP hx
    refine ⟨⟨ht,fun other op' y hy => ?_⟩,op,_,hpid,hg⟩
    by_cases hother : other = pid
    · subst hother
      rw [List.getElem?_set_self (List.getElem?_eq_some_iff.mp hpid).1] at hy
      cases hy
      exact ⟨P',hstable',hP',hnext⟩
    · rw [List.getElem?_set_ne (Ne.symm hother)] at hy
      obtain ⟨P₀,hs₀,hP₀,hk₀⟩ := h.outline other op' y hy
      exact ⟨P₀,hs₀,hs₀ pid op _ _ (Ne.symm hother) h.inv hg hP₀,hk₀⟩

theorem step_outlined {w w' : Concurrent A ω σ α} {m : Move ω C} (h : w.Outlined I contract Q)
    (hboot : ∀ pid op, contract.Keeps I pid op (Q op) (boot op) (fun _ => True))
    (hstep : w.step I boot m = some w') : w'.Outlined I contract Q := by
  cases m with
  | start op =>
    cases hstep
    exact outlined_start h fun pid => hboot pid op
  | resume pid answer => exact (resume_spec h hstep).1

theorem run_outlined {w w' : Concurrent A ω σ α} {ms : List (Move ω C)} (h : w.Outlined I contract Q)
    (hboot : ∀ pid op, contract.Keeps I pid op (Q op) (boot op) (fun _ => True))
    (hrun : run (step I boot) w ms = some w') : w'.Outlined I contract Q :=
  run_invariant (step I boot) (fun _ _ _ hw hstep => step_outlined hw hboot hstep) h hrun

/-- The operations that the run starts are the only ones that matter. -/
theorem run_outlined_started {w w' : Concurrent A ω σ α} {ms : List (Move ω C)} (h : w.Outlined I contract Q)
    (hboot : ∀ pid op, Move.start op ∈ ms → contract.Keeps I pid op (Q op) (boot op) (fun _ => True))
    (hrun : run (step I boot) w ms = some w') : w'.Outlined I contract Q := by
  refine run_invariant_of_meets (step I boot) (P := fun _ m => m ∈ ms) (fun u m v hu hm hstep => ?_) h
    (meets_of_forall (step I boot) (fun _ => id) w) hrun
  cases m with
  | start op =>
    cases hstep
    exact outlined_start hu fun pid => hboot pid op hm
  | resume pid answer => exact (resume_spec hu hstep).1

/-- A relation that no step leaves holds between the ends of a run. -/
theorem run_guarantee {w w' : Concurrent A ω σ α} {ms : List (Move ω C)} {T : σ → σ → Prop}
    (hrefl : ∀ s, T s s) (htrans : ∀ s t u, T s t → T t u → T s u)
    (hT : ∀ pid op s t, contract.Guarantee pid op s t → T s t) (h : w.Outlined I contract Q)
    (hboot : ∀ pid op, contract.Keeps I pid op (Q op) (boot op) (fun _ => True))
    (hrun : run (step I boot) w ms = some w') : T w.shared w'.shared := by
  induction ms generalizing w with
  | nil =>
    cases hrun
    exact hrefl _
  | cons m ms ih =>
    obtain ⟨u,hstep,hrest⟩ := (run_cons_eq_some _).mp hrun
    have hu := ih (step_outlined h hboot hstep) hrest
    cases m with
    | start op =>
      cases hstep
      exact hu
    | resume pid answer =>
      obtain ⟨-,op,-,-,hg⟩ := resume_spec h hstep
      exact htrans _ _ _ (hT pid op _ _ hg) hu

/-- A process goes on with the operation that it runs. -/
theorem step_processes {w w' : Concurrent A ω σ α} {m : Move ω C} (h : w.step I boot m = some w') {pid : ℕ} {op : ω}
    {x : Process A α} (hpid : w.processes[pid]? = some (op,x)) : ∃ x', w'.processes[pid]? = some (op,x') := by
  have hlt := (List.getElem?_eq_some_iff.mp hpid).1
  cases m with
  | start op =>
    cases h
    exact ⟨x,by rw [List.getElem?_append_left hlt]; exact hpid⟩
  | resume other answer =>
    rw [step] at h
    split at h
    case h_2 => cases h
    case h_1 op' β y next hother =>
      obtain ⟨r,hr,rfl⟩ := Option.map_eq_some_iff.mp h
      by_cases hne : other = pid
      · subst hne
        rw [hpid] at hother
        cases hother
        exact ⟨next r.1,List.getElem?_set_self hlt⟩
      · exact ⟨x,by rw [List.getElem?_set_ne hne]; exact hpid⟩

section Guarded
variable (I boot) {ok : ω → σ → Prop}

/-- The state is as it should be for every process. -/
def Suits (ok : ω → σ → Prop) (w : Concurrent A ω σ α) : Prop :=
  ∀ (pid : ℕ) op x, w.processes[pid]? = some (op,x) → ok op w.shared

theorem step_guarded {w w' : Concurrent A ω σ α} {m : Move ω C} (h : w.step I boot m = some w') (hok : w'.Suits ok) :
    w.step (I.guarded ok) boot m = some w' := by
  cases m with
  | start op => exact h
  | resume pid answer =>
    rw [step] at h ⊢
    split at h
    case h_2 => cases h
    case h_1 op β x next hpid =>
      obtain ⟨r,hr,rfl⟩ := Option.map_eq_some_iff.mp h
      refine Option.map_eq_some_iff.mpr ⟨r,(I.guarded_perform ok).mpr ⟨hr,hok pid op (next r.1) ?_⟩,rfl⟩
      exact List.getElem?_set_self (List.getElem?_eq_some_iff.mp hpid).1

/-- A run to where the state is as it should be, where it was so all along. -/
theorem run_guarded {w w' : Concurrent A ω σ α} {ms : List (Move ω C)}
    (hback : ∀ w w' : Concurrent A ω σ α, ∀ m, w.step I boot m = some w' → w'.Suits ok → w.Suits ok)
    (hrun : run (step I boot) w ms = some w') (hok : w'.Suits ok) :
    run (step (I.guarded ok) boot) w ms = some w' ∧ w.Suits ok := by
  induction ms generalizing w with
  | nil =>
    cases hrun
    exact ⟨rfl,hok⟩
  | cons m ms ih =>
    obtain ⟨u,hstep,hrest⟩ := (run_cons_eq_some _).mp hrun
    obtain ⟨hguarded,hu⟩ := ih hrest
    exact ⟨(run_cons_eq_some _).mpr ⟨u,step_guarded I boot hstep hu,hguarded⟩,hback w u m hstep hu⟩

end Guarded

/-- A process that has finished has the result it is to have. -/
theorem Outlined.finished {w : Concurrent A ω σ α} {pid : ℕ} {op : ω} {a : α} (h : w.Outlined I contract Q)
    (hpid : w.processes[pid]? = some (op,.done a)) : Q op a w.shared := by
  obtain ⟨P,-,hP,hkeeps⟩ := h.outline pid op _ hpid
  exact hkeeps w.shared h.inv hP

end Concurrent
end OmniagentPlus.Foundation
