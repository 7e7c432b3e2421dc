import OmniagentPlus.StateLedger.ExclusiveLeases
import OmniagentPlus.StateLedger.InboxPages

/-! `setProviderCooldown` writes the map before the ledger, whose checks may still refuse the
cooldown: exactly when the two stay together. -/
namespace OmniagentPlus.StateLedger.CoordinationStore
open OmniagentPlus.Foundation OmniagentPlus.CoreContracts
variable {P : Type} {c : StoreFormat} {s t : State P}

def State.cooldownMap (s : State P) : Dictionary String ProviderFamilyCooldown := s.cooldowns.getD .empty

/-- The ledger is sound and the map of the cooldowns can be read. -/
structure State.Regular (c : StoreFormat) (s : State P) : Prop where
  ledger : s.ledger.Sound (.core c.toLedgerFormat)
  entries : ∀ k d, s.cooldownMap.get? k = some d → cooldownAllowed d = true ∧ k = d.provider.name

namespace State.Regular

theorem init : Regular c (State.init : State P) where
  ledger := AppendOnlyStore.State.Sound.init
  entries k d h := by simp [State.cooldownMap, State.init] at h

theorem putLedger (h : Regular c s) {l : AppendOnlyStore.State P} (hl : l.Sound (.core c.toLedgerFormat)) : Regular c (s.putLedger l) :=
  ⟨hl,h.entries⟩

theorem putCooldown (h : Regular c s) {d : ProviderFamilyCooldown} (hd : cooldownAllowed d = true) :
    Regular c (s.putCooldowns (s.cooldownMap.set d.provider.name d)) := by
  refine ⟨h.ledger,fun k e he => ?_⟩
  have he : (s.cooldownMap.set d.provider.name d).get? k = some e := he
  rw [Dictionary.get?_set] at he
  split_ifs at he with hk
  · cases he
    exact ⟨hd,hk⟩
  · exact h.entries k e he

/-- The map of the cooldowns passes the checks of a read. -/
theorem readMap_eq (h : Regular c s) :
    readMap (fun cooldown : ProviderFamilyCooldown => cooldown.provider.name) cooldownAllowed s.cooldowns = .ok s.cooldownMap := by
  have hall : s.cooldownMap.entries.all (fun e => cooldownAllowed e.2 && e.1 == e.2.provider.name) = true := by
    refine List.all_eq_true.mpr fun e he => ?_
    obtain ⟨hallowed,hkey⟩ := h.entries e.1 e.2 ((s.cooldownMap.mem_entries_iff e.1 e.2).mp he)
    rw [hallowed, Bool.true_and, beq_iff_eq]
    exact hkey
  simp only [readMap, State.cooldownMap] at hall ⊢
  rw [if_pos hall]

end State.Regular

section Programs
variable {a : Surroundings P}

/-- A read of the leases changes nothing, whatever it finds. -/
theorem readLeaseMap_silent {R : State P → State P → Prop}
    {Q : Except CoordinationStoreError (Dictionary String WorktreeLease) → State P → Prop} (hQ : ∀ x, Q x s) :
    Program.Wp R readLeaseMap Q s := by
  simp only [readLeaseMap, Program.wp_bind, Program.wp_reads, Program.then_ok, Program.wp_ofExcept]
  exact hQ _

theorem getProviderCooldown_eq (h : s.Regular c) (provider : String) :
    (getProviderCooldown provider s).2 = .ok (s.cooldownMap.get? provider) := by
  have hspec : Program.Wp (fun _ _ => True) (getProviderCooldown provider)
      (fun x _ => x = .ok (s.cooldownMap.get? provider)) s := by
    simp only [getProviderCooldown, readCooldownMap, Program.wp_bind, Program.wp_reads, Program.then_ok,
      Program.wp_ofExcept, h.readMap_eq, Program.wp_pure]
  exact hspec.2

/-- A call of the ledger by its specification. -/
theorem onLedger_spec {α : Type} {p : AppendOnlyStore.StoreProgram P α} (h : s.Regular c)
    {S : AppendOnlyStore.State P → AppendOnlyStore.State P → Prop}
    {T : Except StoreError α → AppendOnlyStore.State P → Prop} (hp : Program.Wp S p T s.ledger)
    (hS : ∀ l m, S l m → m.Sound (.core c.toLedgerFormat)) {Q : Except CoordinationStoreError α → State P → Prop}
    (hQ : ∀ x l, T x l → Q (x.mapError .ledger) (s.putLedger l)) : Program.Wp (fun _ u => u.Regular c) (onLedger p) Q s :=
  Program.wp_zoom rfl hp (fun l m hm => h.putLedger (hS l m hm)) hQ

/-- The ledger would write the record of this cooldown, with this manifest as the last one. -/
def LedgerWrites (c : StoreFormat) (a : Surroundings P) (cooldown : ProviderFamilyCooldown) (s : State P) (m : StoreManifest)
    (r : StateLedgerEntry) : Prop :=
  s.ledger.Lands c a.options a.process (cooldownInput cooldown) a.clock a.generatedId m r

/-- The state after the map of the cooldowns has been written, and the ledger has done its part. -/
def State.afterCooldown (s : State P) (cooldown : ProviderFamilyCooldown) (l : AppendOnlyStore.State P) : State P :=
  (s.putCooldowns (s.cooldownMap.set cooldown.provider.name cooldown)).putLedger l

variable [DecidableEq P]

/-- The three ends of `setProviderCooldown` for a valid cooldown: it is set and recorded; the ledger
refuses it before the write; it is recorded but the manifest is refused. -/
theorem setProviderCooldown_spec (h : s.Regular c) {cooldown : ProviderFamilyCooldown}
    (hallowed : cooldownAllowed cooldown = true) :
    Program.Wp (fun _ u => u.Regular c) (setProviderCooldown c a cooldown)
      (fun x t => ∃ l, t = s.afterCooldown cooldown l ∧ l.Sound (.core c.toLedgerFormat) ∧
        ((x = .ok cooldown ∧ ∃ m r, LedgerWrites c a cooldown s m r ∧ (s.ledger.nextManifest m a.clock).allowed = true ∧
            r.payload = .providerCooldown cooldown ∧ l.readable = s.ledger.readable ++ [r]) ∨
          (∃ e, x = .error e) ∧ (∀ m r, ¬ LedgerWrites c a cooldown s m r) ∧ l.readable = s.ledger.readable ∨
          (∃ e, x = .error e) ∧ ∃ m r, LedgerWrites c a cooldown s m r ∧ (s.ledger.nextManifest m a.clock).allowed = false ∧
            l.readable = s.ledger.readable ++ [r])) s := by
  simp only [setProviderCooldown, readCooldownMap, Program.wp_bind, Program.wp_reads, Program.then_ok,
    Program.wp_ofExcept, Program.wp_throwIf, Program.then_error, h.readMap_eq, Program.wp_write, hallowed]
  refine ⟨fun hno => (by cases hno),fun _ => ⟨h.putCooldown hallowed,?_⟩⟩
  have hput := h.putCooldown hallowed
  refine onLedger_spec hput (AppendOnlyStore.appendRecord_outcome hput.ledger a.process (RecordView.core_takes _) a.clock
    a.generatedId a.torn) (fun _ _ hm => hm.1) ?_
  rintro (e | r) l ⟨hl,hok,herror⟩
  · refine ⟨l,rfl,hl,Or.inr ?_⟩
    rcases herror e rfl with ⟨-,hno,hleft⟩ | ⟨-,m,r,hlands,hrefused,hread⟩
    · exact Or.inl ⟨⟨_,rfl⟩,hno,hleft.readable⟩
    · exact Or.inr ⟨⟨_,rfl⟩,m,r,hlands,hrefused,hread⟩
  · rw [Except.mapError, Program.then_ok, Program.wp_pure]
    obtain ⟨-,hpayload,-,hread,m,hlands,hmanifest,-⟩ := hok r rfl
    exact ⟨l,rfl,hl,Or.inl ⟨rfl,m,r,hlands,hmanifest,hpayload.eq (by simp [cooldownInput, LedgerPayload.kind]),hread⟩⟩

theorem appendToLedger_regular (h : s.Regular c) (input : AppendRecordInput)
    {Q : Except CoordinationStoreError StateLedgerEntry → State P → Prop}
    (hQ : ∀ x l, l.Sound (.core c.toLedgerFormat) → Q x (s.putLedger l)) : Program.Wp (fun _ u => u.Regular c) (appendToLedger c a input) Q s :=
  onLedger_spec h (AppendOnlyStore.appendRecord_spec h.ledger a.process (RecordView.core_takes _) a.clock a.generatedId a.torn)
    (fun _ _ hm => hm.1) fun _ l hl => hQ _ l hl.1

theorem acquireExclusiveLease_regular (h : s.Regular c) (request : WorktreeLeaseRequest) (holder : LeaseHolder)
    (options : LeaseAcquisitionOptions) :
    Program.Wp (fun _ u => u.Regular c) (acquireExclusiveLease c a request holder options)
      (fun _ t => t.Regular c) s := by
  simp only [acquireExclusiveLease, Program.wp_bind, Program.wp_throwIf, Program.wp_reads, Program.then_ok,
    Program.then_error]
  refine ⟨fun _ => h,fun _ => ⟨fun _ => h,fun _ => readLeaseMap_silent ?_⟩⟩
  rintro (e | leases)
  · exact h
  simp only [Program.then_ok]
  cases (clearReleasedLeases leases).values.find? (standsAgainst a request (claimPath a request options)) with
  | some existing =>
    rw [Program.wp_pure]
    exact h
  | none =>
    simp only [Program.wp_bind, Program.wp_ofExcept]
    cases claimExpiry (options.now.getD a.clock) (claimTtl request options) with
    | error e => exact h
    | ok expiresAt =>
      simp only [Program.then_ok, Program.wp_throwIf, Program.then_error]
      refine ⟨fun _ => h,fun _ => appendToLedger_regular h _ ?_⟩
      rintro (e | r) l hl
      · exact h.putLedger hl
      · simp only [Program.then_ok, Program.wp_write, Program.wp_pure, and_self]
        exact ⟨hl,h.entries⟩

end Programs

section Runs
variable [DecidableEq P]

theorem program_regular (h : s.Regular c) (x : Action P) :
    Program.Wp (fun _ u => u.Regular c) (x.program c) (fun _ t => t.Regular c) s := by
  obtain ⟨a,operation,ending⟩ := x
  cases operation with
  | opening =>
    rw [Action.program, Program.wp_bind]
    refine onLedger_spec h (AppendOnlyStore.initializeStore_spec h.ledger a.process a.clock) (fun _ _ hm => hm.1) ?_
    rintro x l ⟨hl,-⟩
    exact Program.then_pure (h.putLedger hl)
  | ledger operation =>
    rw [Action.program, Program.wp_bind]
    refine onLedger_spec h (AppendOnlyStore.program_spec h.ledger (AppendOnlyStore.Action.core_takes _)) (fun _ _ hm => hm) ?_
    rintro x l ⟨hl,-⟩
    exact Program.then_pure (h.putLedger hl)
  | getProviderCooldown provider =>
    simp only [Action.program, getProviderCooldown, readCooldownMap, Program.wp_bind, Program.wp_reads, Program.then_ok,
      Program.wp_ofExcept, h.readMap_eq, Program.wp_pure]
    exact h
  | setProviderCooldown cooldown =>
    rw [Action.program, Program.wp_bind]
    cases hallowed : cooldownAllowed cooldown with
    | false =>
      simp only [setProviderCooldown, Program.wp_bind, Program.wp_throwIf, Program.then_error, hallowed]
      exact ⟨fun _ => h,fun hno => by cases hno⟩
    | true =>
      refine (setProviderCooldown_spec h hallowed).mono (fun _ _ hu => hu) ?_
      rintro x t ⟨l,rfl,hl,-⟩
      exact Program.then_pure ((h.putCooldown hallowed).putLedger hl)
  | acquireExclusiveLease request holder options =>
    rw [Action.program, Program.wp_bind]
    refine (acquireExclusiveLease_regular h request holder options).mono (fun _ _ hu => hu) ?_
    rintro x t ht
    exact Program.then_pure ht
  | listActiveLeases =>
    simp only [Action.program, listActiveLeases, Program.wp_bind]
    refine readLeaseMap_silent ?_
    rintro (e | r)
    · exact h
    · simp only [Program.then_ok, Program.wp_pure]
      exact h

theorem step_regular (h : s.Regular c) {x : Action P} (hx : step c s x = some t) : t.Regular c := by
  have hspec := program_regular h x
  unfold step at hx
  split at hx
  · split at hx
    · cases hx
      exact ⟨hspec.2.ledger,hspec.2.entries⟩
    · cases hx
      exact hspec.2
  · cases hx
    exact hspec.crash (fun _ _ hu _ => hu) h _
  · next n _ =>
    cases hx
    have hcrash := hspec.crash (fun _ _ hu _ => hu) h n
    exact hcrash.putLedger (hcrash.ledger.dropCache _)

/-- The cooldowns of a provider that the records tell, in order. -/
def cooldownsOf (rs : List StateLedgerEntry) (provider : ProviderFamilyId) : List ProviderFamilyCooldown :=
  rs.filterMap fun r => match r.payload with
    | .providerCooldown d => if d.provider = provider then some d else none
    | _ => none

theorem cooldownsOf_append {rs : List StateLedgerEntry} {r : StateLedgerEntry} {d : ProviderFamilyCooldown}
    (h : r.payload = .providerCooldown d) : (cooldownsOf (rs ++ [r]) d.provider).getLast? = some d := by
  simp [cooldownsOf, h]

/-- A call that is rejected leaves every cooldown and the records of the ledger, and the cooldown
that a call has stored is the last that the ledger tells of its provider. -/
structure SetsAtomically (c : StoreFormat) (a : Surroundings P) (cooldown : ProviderFamilyCooldown) (s : State P) : Prop where
  rejected : ∀ e, (setProviderCooldown c a cooldown s).2 = .error e →
    (∀ provider, (getProviderCooldown provider ((setProviderCooldown c a cooldown).final s)).2 = (getProviderCooldown provider s).2) ∧
      ((setProviderCooldown c a cooldown).final s).ledger.readable = s.ledger.readable
  stored : ∀ d, (setProviderCooldown c a cooldown s).2 = .ok d →
    (getProviderCooldown d.provider.name ((setProviderCooldown c a cooldown).final s)).2 = .ok (some d) ∧
      (cooldownsOf ((setProviderCooldown c a cooldown).final s).ledger.readable d.provider).getLast? = some d

/-- A call is atomic exactly where the schema of a cooldown refuses its argument, the ledger takes the
record with its manifest, or the map has this very cooldown already and the ledger refuses the
record before it writes it. -/
theorem setProviderCooldown_atomic_iff (c : StoreFormat) {xs : List (Action P)} {s : State P}
    (h : run (step c) State.init xs = some s) (a : Surroundings P) (cooldown : ProviderFamilyCooldown) :
    SetsAtomically c a cooldown s ↔ cooldownAllowed cooldown = false ∨
      (∃ m r, LedgerWrites c a cooldown s m r ∧ (s.ledger.nextManifest m a.clock).allowed = true) ∨
      s.cooldownMap.get? cooldown.provider.name = some cooldown ∧ ∀ m r, ¬ LedgerWrites c a cooldown s m r := by
  have hs : s.Regular c := run_invariant (step c) (fun _ _ _ hs hx => step_regular hs hx) State.Regular.init h
  cases hallowed : cooldownAllowed cooldown with
  | false =>
    have hspec : Program.Wp (fun _ _ => True) (setProviderCooldown c a cooldown) (fun x t => x = .error .schema ∧ t = s) s := by
      simp only [setProviderCooldown, Program.wp_bind, Program.wp_throwIf, Program.then_error, hallowed]
      simp
    refine ⟨fun _ => Or.inl rfl,fun _ => ⟨fun e _ => ?_,fun d hd => ?_⟩⟩
    · simp only [hspec.2.2, implies_true, and_self]
    · cases hspec.2.1.symm.trans hd
  | true =>
    obtain ⟨l,hfinal,hl,hend⟩ := (setProviderCooldown_spec (a := a) hs hallowed).2
    have hnext : (s.afterCooldown cooldown l).Regular c := (hs.putCooldown hallowed).putLedger hl
    have hmap : ∀ provider, (getProviderCooldown provider (s.afterCooldown cooldown l)).2 =
        .ok ((s.cooldownMap.set cooldown.provider.name cooldown).get? provider) := fun provider => getProviderCooldown_eq hnext provider
    have hledger : (s.afterCooldown cooldown l).ledger = l := rfl
    simp only [Bool.true_eq_false, false_or]
    rcases hend with ⟨hx,m,r,hlands,hmanifest,hpayload,hread⟩ | ⟨⟨e,hx⟩,hno,hread⟩ | ⟨⟨e,hx⟩,m,r,hlands,hrefused,hread⟩
    · refine ⟨fun _ => Or.inl ⟨m,r,hlands,hmanifest⟩,fun _ => ⟨fun e he => ?_,fun d hd => ?_⟩⟩
      · cases hx.symm.trans he
      · obtain rfl := Except.ok.inj (hx.symm.trans hd)
        rw [hfinal, hledger, hread]
        exact ⟨by rw [hmap, Dictionary.get?_set_self],cooldownsOf_append hpayload⟩
    · constructor
      · intro hatomic
        have hsame := (hatomic.rejected e hx).1 cooldown.provider.name
        rw [hfinal, hmap, Dictionary.get?_set_self, getProviderCooldown_eq hs] at hsame
        exact Or.inr ⟨(Except.ok.inj hsame).symm,hno⟩
      · rintro (⟨m,r,hlands,-⟩ | ⟨hthere,-⟩)
        · exact absurd hlands (hno m r)
        · refine ⟨fun e' _ => ?_,fun d hd => ?_⟩
          · rw [hfinal, hledger]
            refine ⟨fun provider => ?_,hread⟩
            rw [hmap, Dictionary.set_of_get? _ hthere, getProviderCooldown_eq hs]
          · cases hx.symm.trans hd
    · constructor
      · intro hatomic
        have hsame := (hatomic.rejected e hx).2
        rw [hfinal, hledger, hread] at hsame
        simp at hsame
      · rintro (⟨m',r',hlands',hmanifest⟩ | ⟨-,hno⟩)
        · obtain rfl := Option.some.inj (hlands'.manifest.symm.trans hlands.manifest)
          rw [hrefused] at hmanifest
          cases hmanifest
        · exact absurd hlands (hno m r)

def sampleCooldown (reason : String) : ProviderFamilyCooldown := ⟨⟨true,reason,none⟩,.openai,some 0,.manual⟩

/-- A cooldown that the ledger takes. -/
theorem setProviderCooldown_atomic_manual :
    ∃ s, run (step AppendOnlyStore.sampleFormat) State.init [⟨sampleSurroundings,.opening,.returns⟩] = some s ∧
      SetsAtomically AppendOnlyStore.sampleFormat sampleSurroundings (sampleCooldown "manual pause") s := by
  have hrun : ∃ s, run (step AppendOnlyStore.sampleFormat) State.init [⟨sampleSurroundings,.opening,.returns⟩] = some s :=
    ⟨_,rfl⟩
  obtain ⟨s,hs⟩ := hrun
  refine ⟨s,hs,(setProviderCooldown_atomic_iff AppendOnlyStore.sampleFormat hs sampleSurroundings _).mpr
    (Or.inr (Or.inl ?_))⟩
  cases hs
  exact ⟨⟨0,0,some 0,some 0,0⟩,⟨"record",1,1,some 0,none,none,none,.providerCooldown (sampleCooldown "manual pause")⟩,
    ⟨rfl,rfl,Or.inl ⟨_,rfl,rfl⟩,by decide,fun n hn => (by cases hn),rfl,by decide,by decide,by decide⟩,by decide⟩

end Runs

section Scan
variable {ν : Type}

def textValue (text : String) : JsValue ν := .string (Text.of text)

def presentText (key : String) (text : Option String) : List (Text × JsValue ν) :=
  text.toList.map fun t => (Text.of key,textValue t)

/-- A cooldown as a value, its times written by `iso`. -/
def cooldownValue (iso : Instant → String) (d : ProviderFamilyCooldown) : JsValue ν :=
  .object ([(Text.of "schema",textValue "provider_family_cooldown.v0.1"),(Text.of "provider",textValue d.provider.name),
    (Text.of "scope",textValue "provider_family"),(Text.of "active",.bool d.active),(Text.of "reason",textValue d.reason),
    (Text.of "observedAt",textValue (iso d.observedAt))] ++ presentText "resetAt" (d.resetAt.map iso) ++
    [(Text.of "source",textValue d.source.name)]) []

/-- The record of a cooldown as the value that `metadataSchemaCheck` scans. -/
def cooldownRecordValue (iso : Instant → String) (number : ℕ → ν) (r : StateLedgerEntry) (d : ProviderFamilyCooldown) :
    JsValue ν :=
  .object ([(Text.of "schema",textValue "state_ledger_record.v0.1"),(Text.of "recordId",textValue r.recordId),
    (Text.of "sequence",.number (number r.sequence)),(Text.of "schemaVersion",.number (number r.schemaVersion)),
    (Text.of "recordedAt",textValue (iso r.recordedAt))] ++ presentText "sessionId" r.sessionId ++
    presentText "turnId" r.turnId ++ presentText "taskId" r.taskId ++
    [(Text.of "kind",textValue "provider_cooldown"),(Text.of "payload",cooldownValue iso d)]) []

/-- The record schema for the kind of a cooldown. -/
def cooldownRecordAllowed (r : StateLedgerEntry) : Bool :=
  match r.payload with
  | .providerCooldown d => r.envelopeAllowed && cooldownAllowed d &&
      metadataSafe (fun _ => true) (cooldownRecordValue (fun _ => "2026-06-30T00:00:00.000Z") (fun _ => ()) r d)
  | _ => true

theorem normalizeLedgerScope_cooldown {r q : StateLedgerEntry} {d : ProviderFamilyCooldown} (hr : r.payload = .providerCooldown d)
    (h : normalizeLedgerScope r = some q) : q = r := by
  obtain ⟨recordId,sequence,schemaVersion,recordedAt,sessionId,turnId,taskId,payload⟩ := r
  obtain rfl : payload = .providerCooldown d := hr
  simp only [normalizeLedgerScope, LedgerPayload.scope, Option.ite_none_left_eq_some, Option.some.injEq,
    Option.or_none] at h
  exact h.2.symm

/-- A ledger with the record schema of cooldowns. -/
def scanningFormat : StoreFormat where
  parse r := if cooldownRecordAllowed r then some r else none
  parse_eq r p h := by
    obtain rfl := Option.some.inj (Option.ite_none_right_eq_some.mp h).2
    exact ⟨rfl,.same _⟩
  parse_normalized r q h hq := by
    have hr := (Option.ite_none_right_eq_some.mp h).1
    refine if_pos ?_
    cases hp : r.payload with
    | providerCooldown d => rwa [normalizeLedgerScope_cooldown hp hq]
    | _ =>
      have hpayload := (normalizeLedgerScope_scope hq).1.trans hp
      simp only [cooldownRecordAllowed, hpayload]
  recordByteLength _ := 10
  manifestByteLength _ := 100
  payloadByteLength _ := 5
  metadataSafe _ := true

/-- A reason that reads like a secret is stored before the ledger refuses it. -/
theorem secretReason_stored :
    ¬ ∀ (xs : List (Action Bool)) (s : State Bool), run (step scanningFormat) State.init xs = some s →
      ∀ a cooldown, SetsAtomically scanningFormat a cooldown s := by
  intro hatomic
  have hrun : ∃ s : State Bool, run (step scanningFormat) State.init [⟨sampleSurroundings,.opening,.returns⟩] = some s ∧
      (setProviderCooldown scanningFormat sampleSurroundings (sampleCooldown "token=abc") s).2.toOption = none ∧
      (getProviderCooldown "openai" s).2.toOption = some none ∧
      (getProviderCooldown "openai" ((setProviderCooldown scanningFormat sampleSurroundings
        (sampleCooldown "token=abc")).final s)).2.toOption = some (some (sampleCooldown "token=abc")) :=
    ⟨_,rfl,by decide +kernel⟩
  obtain ⟨s,hs,hrejected,hbefore,hafter⟩ := hrun
  cases he : (setProviderCooldown scanningFormat sampleSurroundings (sampleCooldown "token=abc") s).2 with
  | ok d => simp [he, Except.toOption] at hrejected
  | error e =>
    have hsame := ((hatomic _ s hs sampleSurroundings (sampleCooldown "token=abc")).rejected e he).1 "openai"
    rw [hsame, hbefore] at hafter
    cases hafter

end Scan

end OmniagentPlus.StateLedger.CoordinationStore
