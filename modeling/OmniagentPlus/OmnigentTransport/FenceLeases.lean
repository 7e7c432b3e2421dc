import OmniagentPlus.OmnigentTransport.ProviderSystem
import OmniagentPlus.OmnigentTransport.SessionSteps

/-! A session that is closed stays closed, whatever is under way when it is: what each call of a
provider relies on and guarantees under exclusive leases and fresh session ids. -/
namespace OmniagentPlus.OmnigentTransport
open OmniagentPlus.Foundation OmniagentPlus.CoreContracts
variable {ν : Type}

/-- The session as the client tracks it. -/
def World.tracked (w : World ν) (client : ℕ) (sessionId : Text) : Option (AgentSessionInfo ν) :=
  (w.providers client).sessions.get? sessionId

/-- What is tracked as closed has no active turn, and a fence that will not open again. -/
structure FencesClosed (options : ℕ → OmnigentHttpClientOptions) (w : World ν) : Prop where
  tidy : ∀ client, Tidy (w.providers client)
  closed : ∀ client sessionId info, w.tracked client sessionId = some info → info.state = .closed →
    w.isSealed sessionId = true ∧ (options client).withExclusiveSessionLease = true
  fence : ∀ sessionId, w.isSealed sessionId = true → (w.fences sessionId).closed = true
  created : ∀ sessionId, w.created sessionId = none → ∀ client, w.tracked client sessionId = none

/-- What no step of a process does to what the others rely on. -/
structure LeavesClosed (pid : ℕ) (w w' : World ν) : Prop where
  isSealed : ∀ sessionId, w.isSealed sessionId = true → w'.isSealed sessionId = true
  held : ∀ sessionId other, other ≠ pid → w.leases sessionId = some other →
    w'.leases sessionId = some other ∧ w'.fences sessionId = w.fences sessionId ∧
      w'.isSealed sessionId = w.isSealed sessionId
  created : ∀ sessionId other, w.created sessionId = some other → w'.created sessionId = some other
  untracked : ∀ client sessionId, w.created sessionId ≠ some pid → w.tracked client sessionId = none →
    w'.tracked client sessionId = none
  closed : ∀ client sessionId info, w.tracked client sessionId = some info → info.state = .closed →
    ∃ info', w'.tracked client sessionId = some info' ∧ info'.state = .closed ∧ info'.activeTurnId = none

def closedContract (options : ℕ → OmnigentHttpClientOptions) : Contract Operation (World ν) where
  Invariant := FencesClosed options
  Guarantee pid _ := LeavesClosed pid

section Steps
variable {options : ℕ → OmnigentHttpClientOptions} {w : World ν} {pid client : ℕ}

theorem FencesClosed.leaves (h : FencesClosed options w) (pid : ℕ) : LeavesClosed pid w w where
  isSealed _ := id
  held _ _ _ hl := ⟨hl,rfl,rfl⟩
  created _ _ := id
  untracked _ _ _ := id
  closed c s info hi hc := ⟨info,hi,hc,h.tidy c s info hi hc⟩

/-- Where only the fences and the leases change, the sessions stay as they are. -/
theorem FencesClosed.leaves_of_providers_eq (h : FencesClosed options w) {w' : World ν} (hproviders : w'.providers = w.providers)
    (hsealed : ∀ s, w.isSealed s = true → w'.isSealed s = true)
    (hheld : ∀ s other, other ≠ pid → w.leases s = some other →
      w'.leases s = some other ∧ w'.fences s = w.fences s ∧ w'.isSealed s = w.isSealed s)
    (hcreated : ∀ s other, w.created s = some other → w'.created s = some other) : LeavesClosed pid w w' where
  isSealed := hsealed
  held := hheld
  created := hcreated
  untracked c s _ hn := by
    rw [World.tracked, hproviders]
    exact hn
  closed c s info hi hc := by
    rw [World.tracked, hproviders]
    exact ⟨info,hi,hc,h.tidy c s info hi hc⟩

/-- The sessions that a client may close are those whose fence is closed for good. -/
def sealedFor (options : ℕ → OmnigentHttpClientOptions) (w : World ν) (client : ℕ) (sessionId : Text) : Prop :=
  w.isSealed sessionId = true ∧ (options client).withExclusiveSessionLease = true

theorem tracked_setProvider (q : OmnigentHttpProvider ν) (c : ℕ) (s : Text) :
    (w.setProvider client q).tracked c s = if c = client then q.sessions.get? s else w.tracked c s := by
  unfold World.tracked World.setProvider
  dsimp only
  rw [Function.update_apply]
  split_ifs <;> rfl

/-- A stretch of code that steps safely keeps the invariant and leaves closed sessions closed. -/
theorem FencesClosed.sync (h : FencesClosed options w) {q : OmnigentHttpProvider ν}
    (hstep : SafeStep (sealedFor options w client) (w.providers client) q) :
    FencesClosed options (w.setProvider client q) ∧ LeavesClosed pid w (w.setProvider client q) := by
  have htidy := h.tidy client
  constructor
  · refine ⟨fun c => ?_,fun c s info hi hc => ?_,h.fence,fun s hs c => ?_⟩
    · by_cases hcl : c = client
      · subst hcl
        simpa [World.setProvider] using hstep.tidy htidy
      · simpa [World.setProvider, Function.update_of_ne hcl] using h.tidy c
    · rw [tracked_setProvider] at hi
      split_ifs at hi with hcl
      · subst hcl
        obtain ⟨a,ha,hab⟩ := hstep.before htidy hi
        exact (hab.closes hc).elim (fun hclosed => h.closed c s a ha hclosed) id
      · exact h.closed c s info hi hc
    · rw [tracked_setProvider]
      split_ifs with hcl
      · exact (hstep htidy s).1 (h.created s hs client)
      · exact h.created s hs c
  · refine ⟨fun _ => id,fun _ _ _ hl => ⟨hl,rfl,rfl⟩,fun _ _ => id,fun c s _ hn => ?_,fun c s info hi hc => ?_⟩
    · rw [tracked_setProvider]
      split_ifs with hcl
      · subst hcl
        exact (hstep htidy s).1 hn
      · exact hn
    · rw [tracked_setProvider]
      split_ifs with hcl
      · subst hcl
        obtain ⟨b,hb,hab⟩ := (hstep htidy s).2 info hi
        exact ⟨b,hb,hab.stays hc,hab.tidy (hab.stays hc)⟩
      · exact ⟨info,hi,hc,h.tidy c s info hi hc⟩

end Steps

section Rules
variable {options : ℕ → OmnigentHttpClientOptions} {pid : ℕ} {op : Operation} {α β : Type} {P : World ν → Prop}

/-- An answer of the orderly world is one that it admits. -/
theorem orderlyWorld_perform {γ : Type} {x : Action ν γ} {w w' : World ν} {c : Answer ν} {b : γ}
    (h : (orderlyWorld ν).perform pid op x w c = some (b,w')) :
    World.admits x w c = true ∧ World.answer pid op.client x w c = some (b,w') := by
  simp only [orderlyWorld] at h
  split_ifs at h with hadmits
  exact ⟨hadmits,h⟩

/-- What the code of a client does not touch. -/
def Blind (P : World ν → Prop) : Prop := ∀ w client q, P w → P (w.setProvider client q)

/-- A stretch of code, by what it does to the client and what is known after it. -/
theorem keeps_sync {segment : Segment ν α} {Q : Except (ProviderError ν) α → World ν → Prop}
    (hstep : ∀ w, FencesClosed options w → P w →
      SafeStep (sealedFor options w op.client) (w.providers op.client) (segment (w.providers op.client)).2)
    (hQ : ∀ w, FencesClosed options w → P w →
      Q (segment (w.providers op.client)).1 (w.setProvider op.client (segment (w.providers op.client)).2))
    (hstable : ∀ r, (closedContract options).Stable pid (Q r)) :
    (closedContract options).Keeps (orderlyWorld ν) pid op Q (Async.sync segment).run P := by
  refine Contract.keeps_action (fun w c b w' hw hP h => ?_) hstable
  obtain ⟨-,hanswer⟩ := orderlyWorld_perform h
  cases c <;> simp only [World.answer, Option.some.injEq, Prod.mk.injEq, reduceCtorEq] at hanswer
  obtain ⟨rfl,rfl⟩ := hanswer
  exact and_assoc.mp ⟨FencesClosed.sync hw (hstep w hw hP),hQ w hw hP⟩

/-- A process that leaves what is known of the fences and the leases as it is. -/
def Neutral (options : ℕ → OmnigentHttpClientOptions) (op : Operation) (x : Async ν α) : Prop :=
  ∀ pid P, (closedContract options).Stable pid P → Blind P →
    (closedContract options).Keeps (orderlyWorld ν) pid op (fun _ => P) x.run P

theorem neutral_pure (a : α) : Neutral (ν := ν) options op (pure a) := fun _ _ _ _ => Contract.keeps_pure a fun _ _ h => h

theorem neutral_throw (e : ProviderError ν) : Neutral (α := α) options op (throw e) :=
  fun _ _ _ _ => Contract.keeps_throw e fun _ _ h => h

theorem Neutral.bind {x : Async ν β} {f : β → Async ν α} (hx : Neutral options op x) (hf : ∀ b, Neutral options op (f b)) :
    Neutral options op (x >>= f) :=
  fun pid P hstable hblind => (hx pid P hstable hblind).exceptBind (fun b => hf b pid P hstable hblind) fun _ _ _ h => h

theorem Neutral.attempt {x : Async ν α} (hx : Neutral options op x) : Neutral options op (Process.attempt x) :=
  fun pid P hstable hblind => Contract.Keeps.bind (x := x) (hx pid P hstable hblind) fun _ _ _ h => h

theorem neutral_perform {x : Action ν (Except (ProviderError ν) α)} (hx : x.isQuiet = true) :
    Neutral options op (perform x) := by
  intro pid P hstable _
  refine Contract.keeps_action (fun w c b w' hw hP h => ?_) fun _ => hstable
  obtain ⟨-,hanswer⟩ := orderlyWorld_perform h
  obtain rfl := World.answer_quiet hx hanswer
  exact ⟨hw,hw.leaves pid,hP⟩

theorem neutral_sync {segment : Segment ν α} (h : segment.Within (closing fun _ => False)) :
    Neutral options op (Async.sync segment) := by
  intro pid P hstable hblind
  refine keeps_sync (fun w _ _ => ?_) (fun w _ hP => hblind _ _ _ hP) fun _ => hstable
  exact SafeStep.mono (h _) fun _ => False.elim

end Rules

section Leases
variable {options : ℕ → OmnigentHttpClientOptions} {pid : ℕ} {op : Operation} {α β : Type} {sessionId : Text}
  {A B : OmnigentSessionMutationFenceState → Bool → Prop}

/-- The process holds the session's lease, and knows `A` of its fence and of whether it is closed for good. -/
def Holds (pid : ℕ) (sessionId : Text) (A : OmnigentSessionMutationFenceState → Bool → Prop) (w : World ν) : Prop :=
  w.leases sessionId = some pid ∧ A (w.fences sessionId) (w.isSealed sessionId)

theorem stable_holds : (closedContract options).Stable pid (Holds (ν := ν) pid sessionId A) := by
  intro other _ w w' hne _ hleaves h
  obtain ⟨hl,hf,hs⟩ := hleaves.held sessionId pid (Ne.symm hne) h.1
  exact ⟨hl,by rw [hf, hs]; exact h.2⟩

theorem blind_holds : Blind (Holds (ν := ν) pid sessionId A) := fun _ _ _ h => h

/-- What is known is known of a world in which more fences are closed for good. -/
def SealsOnly (Q : World ν → Prop) : Prop :=
  ∀ w w' : World ν, (∀ s, w.isSealed s = true → w'.isSealed s = true) → Q w → Q w'

theorem SealsOnly.stable {Q : World ν → Prop} (h : SealsOnly Q) : (closedContract options).Stable pid Q :=
  fun _ _ w w' _ _ hleaves hQ => h w w' hleaves.isSealed hQ

section Worlds
variable {w : World ν}

theorem FencesClosed.acquire (h : FencesClosed options w) (hfree : w.leases sessionId = none) :
    FencesClosed options (w.acquire pid sessionId) ∧ LeavesClosed pid w (w.acquire pid sessionId) := by
  have hsealed : ∀ s, w.isSealed s = true → (w.acquire pid sessionId).isSealed s = true := by
    intro s hs
    simp only [World.acquire, Function.update_apply]
    split_ifs with hss
    · subst hss
      exact h.fence s hs
    · exact hs
  constructor
  · refine ⟨h.tidy,fun c s info hi hc => ⟨hsealed s (h.closed c s info hi hc).1,(h.closed c s info hi hc).2⟩,fun s hs => ?_,
      h.created⟩
    simp only [World.acquire, Function.update_apply] at hs ⊢
    split_ifs at hs with hss
    · subst hss
      exact hs
    · exact h.fence s hs
  · refine h.leaves_of_providers_eq rfl hsealed (fun s other hne hl => ?_) fun _ _ => id
    have hss : s ≠ sessionId := by
      rintro rfl
      rw [hfree] at hl
      cases hl
    simp only [World.acquire, Function.update_of_ne hss]
    exact ⟨hl,trivial,trivial⟩

theorem FencesClosed.release (h : FencesClosed options w) (hheld : w.leases sessionId = some pid) :
    FencesClosed options (w.release pid sessionId) ∧ LeavesClosed pid w (w.release pid sessionId) := by
  rw [World.release, if_pos hheld]
  refine ⟨⟨h.tidy,h.closed,h.fence,h.created⟩,h.leaves_of_providers_eq rfl (fun _ => id) (fun s other hne hl => ?_)
    fun _ _ => id⟩
  have hss : s ≠ sessionId := by
    rintro rfl
    rw [hheld] at hl
    exact hne (Option.some.inj hl).symm
  simp only [Function.update_of_ne hss]
  exact ⟨hl,trivial,trivial⟩

/-- The holder of the lease writes a fence; one that is closed for good it writes closed. -/
theorem FencesClosed.writeFence (h : FencesClosed options w) (hheld : w.leases sessionId = some pid)
    {state : OmnigentSessionMutationFenceState} (hstate : w.isSealed sessionId = true → state.closed = true) :
    FencesClosed options (w.writeFence sessionId state) ∧ LeavesClosed pid w (w.writeFence sessionId state) := by
  constructor
  · refine ⟨h.tidy,h.closed,fun s hs => ?_,h.created⟩
    simp only [World.writeFence, Function.update_apply]
    split_ifs with hss
    · subst hss
      exact hstate hs
    · exact h.fence s hs
  · refine h.leaves_of_providers_eq rfl (fun _ => id) (fun s other hne hl => ?_) fun _ _ => id
    have hss : s ≠ sessionId := by
      rintro rfl
      rw [hheld] at hl
      exact hne (Option.some.inj hl).symm
    simp only [World.writeFence, Function.update_of_ne hss]
    exact ⟨hl,trivial,trivial⟩

theorem FencesClosed.acknowledgeWrite (h : FencesClosed options w) (hheld : w.leases sessionId = some pid)
    {state : OmnigentSessionMutationFenceState} (hstate : w.isSealed sessionId = true → state.closed = true) :
    FencesClosed options (w.acknowledgeWrite sessionId state) ∧
      LeavesClosed pid w (w.acknowledgeWrite sessionId state) := by
  have hsealed : ∀ s, w.isSealed s = true → (w.acknowledgeWrite sessionId state).isSealed s = true := by
    intro s hs
    simp only [World.acknowledgeWrite, World.writeFence, Function.update_apply]
    split_ifs with hss
    · subst hss
      rw [hs]
      rfl
    · exact hs
  constructor
  · refine ⟨h.tidy,fun c s info hi hc => ⟨hsealed s (h.closed c s info hi hc).1,(h.closed c s info hi hc).2⟩,fun s hs => ?_,
      h.created⟩
    simp only [World.acknowledgeWrite, World.writeFence, Function.update_apply] at hs ⊢
    split_ifs at hs ⊢ with hss
    · subst hss
      exact (Bool.or_eq_true _ _ ▸ hs).elim hstate id
    · exact h.fence s hs
  · refine h.leaves_of_providers_eq rfl hsealed (fun s other hne hl => ?_) fun _ _ => id
    have hss : s ≠ sessionId := by
      rintro rfl
      rw [hheld] at hl
      exact hne (Option.some.inj hl).symm
    simp only [World.acknowledgeWrite, World.writeFence, Function.update_of_ne hss]
    exact ⟨hl,trivial,trivial⟩

end Worlds

theorem keeps_acquireLease :
    (closedContract options).Keeps (orderlyWorld ν) pid op
      (fun r w => ∀ u, r = .ok u → Holds pid sessionId (fun f b => b = f.closed) w)
      (perform (.acquireLease sessionId) : Async ν Unit).run (fun _ => True) := by
  refine Contract.keeps_action (fun w c b w' hw _ h => ?_) fun r => ?_
  · obtain ⟨hadmits,hanswer⟩ := orderlyWorld_perform h
    cases c <;> simp only [World.answer, Option.some.injEq, Prod.mk.injEq, reduceCtorEq] at hanswer
    case proceeds =>
      obtain ⟨rfl,rfl⟩ := hanswer
      exact and_assoc.mp ⟨hw.acquire (Option.isNone_iff_eq_none.mp hadmits),fun _ _ => by simp [Holds, World.acquire]⟩
    case fails e =>
      obtain ⟨rfl,rfl⟩ := hanswer
      exact ⟨hw,hw.leaves pid,fun _ hu => by cases hu⟩
  · intro other q w w' hne hw hleaves hP u hu
    exact stable_holds other q w w' hne hw hleaves (hP u hu)

theorem keeps_releaseLease {Q : World ν → Prop} (hQ : SealsOnly Q) :
    (closedContract options).Keeps (orderlyWorld ν) pid op (fun _ => Q)
      (perform (.releaseLease sessionId) : Async ν Unit).run (fun w => w.leases sessionId = some pid ∧ Q w) := by
  refine Contract.keeps_action (fun w c b w' hw hP h => ?_) fun _ => hQ.stable
  obtain ⟨-,hanswer⟩ := orderlyWorld_perform h
  obtain ⟨hinv,hleaves⟩ := hw.release hP.1
  have hkept := hQ w (w.release pid sessionId) hleaves.isSealed hP.2
  cases c <;> simp only [World.answer, Option.some.injEq, Prod.mk.injEq, reduceCtorEq] at hanswer
  all_goals
    obtain ⟨rfl,rfl⟩ := hanswer
    exact ⟨hinv,hleaves,hkept⟩

/-- While a process holds a lease the fence is its own; what it learns of the seals lasts. -/
theorem keeps_withLease {operation : Async ν α} {Q : Except (ProviderError ν) α → World ν → Prop}
    (hQ : ∀ r, SealsOnly (Q r)) (herror : ∀ e w, Q (.error e) w)
    (hbody : (closedContract options).Keeps (orderlyWorld ν) pid op
      (fun r w => w.leases sessionId = some pid ∧ Q r w) operation.run (Holds pid sessionId fun f b => b = f.closed)) :
    (closedContract options).Keeps (orderlyWorld ν) pid op Q (withExclusiveSessionLease sessionId operation).run
      (fun _ => True) := by
  refine keeps_acquireLease.exceptBind (fun u => ?_) fun e w _ _ => herror e w
  refine Contract.Keeps.finally' (D := fun r _ => Q r) (hbody.strengthen fun w _ h => h u rfl)
    (fun r => keeps_releaseLease (hQ r)) (fun r w _ h => h) fun r e w _ _ => herror e w

theorem keeps_readFence :
    (closedContract options).Keeps (orderlyWorld ν) pid op
      (fun r => Holds pid sessionId (fun f b => A f b ∧ ∀ state, r = .ok state → f = state))
      (perform (.readFence sessionId) : Async ν _).run (Holds pid sessionId A) := by
  refine Contract.keeps_action (fun w c b w' hw hP h => ?_) fun _ => stable_holds
  obtain ⟨-,hanswer⟩ := orderlyWorld_perform h
  cases c <;> simp only [World.answer, Option.some.injEq, Prod.mk.injEq, reduceCtorEq] at hanswer
  case proceeds =>
    obtain ⟨rfl,rfl⟩ := hanswer
    exact ⟨hw,hw.leaves pid,hP.1,hP.2,fun state hstate => by cases hstate; rfl⟩
  case fails e =>
    obtain ⟨rfl,rfl⟩ := hanswer
    exact ⟨hw,hw.leaves pid,hP.1,hP.2,fun state hstate => by cases hstate⟩

/-- The holder of the lease writes a fence: acknowledged, failed, or with its reply lost. -/
theorem keeps_writeFence {state : OmnigentSessionMutationFenceState}
    {B : Except (ProviderError ν) Unit → OmnigentSessionMutationFenceState → Bool → Prop}
    (hA : ∀ f b, A f b → (b = true → f.closed = true) → b = true → state.closed = true) (hok : ∀ f b, A f b → B (.ok ()) state (b || state.closed))
    (hfails : ∀ e f b, A f b → B (.error e) f b) (hloses : ∀ e f b, A f b → B (.error e) state b) :
    (closedContract options).Keeps (orderlyWorld ν) pid op (fun r => Holds pid sessionId (B r))
      (perform (.writeFence sessionId state) : Async ν Unit).run (Holds pid sessionId A) := by
  refine Contract.keeps_action (fun w c b w' hw hP h => ?_) fun _ => stable_holds
  obtain ⟨-,hanswer⟩ := orderlyWorld_perform h
  obtain ⟨hheld,hknown⟩ := hP
  cases c <;> simp only [World.answer, Option.some.injEq, Prod.mk.injEq, reduceCtorEq] at hanswer
  case proceeds =>
    obtain ⟨rfl,rfl⟩ := hanswer
    obtain ⟨hinv,hleaves⟩ := hw.acknowledgeWrite hheld (hA _ _ hknown (hw.fence sessionId))
    refine ⟨hinv,hleaves,hheld,?_⟩
    simpa [World.acknowledgeWrite, World.writeFence] using hok _ _ hknown
  case fails e =>
    obtain ⟨rfl,rfl⟩ := hanswer
    exact ⟨hw,hw.leaves pid,hheld,hfails e _ _ hknown⟩
  case losesReply e =>
    obtain ⟨rfl,rfl⟩ := hanswer
    obtain ⟨hinv,hleaves⟩ := hw.writeFence hheld (hA _ _ hknown (hw.fence sessionId))
    refine ⟨hinv,hleaves,hheld,?_⟩
    simpa [World.writeFence] using hloses e _ _ hknown

end Leases
end OmniagentPlus.OmnigentTransport
