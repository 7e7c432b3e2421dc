import OmniagentPlus.WorktreeLeasing.LeaseBackends

/-! Refusals of `renew` and `release`: only the holder gets through in either backend, and the
codes differ exactly where the database still has a row of a lease that is over. -/
namespace OmniagentPlus.WorktreeLeasing
open OmniagentPlus.Foundation OmniagentPlus.CoreContracts OmniagentPlus.StateLedger

/-- The tables have a row of the lease that was released, has expired, or is past its expiry. -/
def DeadRow (t : CoordinationTables) (k : Text) (now : ℤ) : Prop :=
  ∃ c, t.leases.get? k = some c ∧ (c.isActive && !c.isPast now) = false

def LeaseReleaseResult.answer (r : LeaseReleaseResult) : Bool × Option LeaseStoreFailure :=
  (r.released,if r.released then none else r.failure)

def LeaseRenewResult.refused (r : LeaseRenewResult) : Option LeaseStoreFailure :=
  if r.renewed then none else r.failure

/-- Both backends answer the holder's `release` alike, and refuse a `renew` with one code. -/
structure CodesAgree (s : Backends) (k holder : Text) (ttl : Option ℤ) (clock : ℤ) (uuids : ℕ → ℕ) : Prop where
  release : (release s.file k holder none clock).map (fun r => r.1.answer) =
    (SupabaseLeaseStore.release s.tables k holder clock uuids).map (fun r => r.1.answer)
  renew : (renew s.file k holder ttl none clock).map (fun r => r.1.refused) =
    (SupabaseLeaseStore.renew s.tables k holder ttl clock uuids).map (fun r => r.1.refused)

/-- A caller who is not the holder of the unexpired lease `m` is not told that it is released,
and leaves it as it is. -/
structure HolderOnly (s : Backends) (k holder : Text) (ttl : Option ℤ) (clock : ℤ) (uuids : ℕ → ℕ) : Prop where
  release : ∀ m r w, localLive s.file (toContractTimestamp clock) k = some m → m.holder ≠ holder →
    release s.file k holder none clock = .ok (r,w) →
      r.released = false ∧ localLive (w.or s.file) (toContractTimestamp clock) k = some m
  renew : ∀ m r w, localLive s.file (toContractTimestamp clock) k = some m → m.holder ≠ holder →
    renew s.file k holder ttl none clock = .ok (r,w) →
      localLive (w.or s.file) (toContractTimestamp clock) k = some m
  sqlRelease : ∀ m r u, sqlLive s.tables (toContractTimestamp clock) k = some m → m.holder ≠ holder →
    SupabaseLeaseStore.release s.tables k holder clock uuids = .ok (r,u) →
      r.released = false ∧ sqlLive u (toContractTimestamp clock) k = some m
  sqlRenew : ∀ m r u, sqlLive s.tables (toContractTimestamp clock) k = some m → m.holder ≠ holder →
    SupabaseLeaseStore.renew s.tables k holder ttl clock uuids = .ok (r,u) →
      sqlLive u (toContractTimestamp clock) k = some m

/-- Both backends have room for the two operations. -/
def RoomFor (s : Backends) (k holder : Text) (ttl : Option ℤ) (clock : ℤ) (uuids : ℕ → ℕ) : Prop :=
  BelowCapacity s (.release k holder none clock,uuids) ∧
    BelowCapacity s (.renew k holder ttl none clock,uuids)

section Codes
variable {file : Option LocalLeaseStoreState} {t : CoordinationTables} {k holder : Text} {ttl : Option ℤ} {now : ℤ}

/-- Without a dead row a lease that is not live has no row. -/
lemma row_of_not_dead (h : ¬ DeadRow t k now) :
    (t.leases.get? k = none ∧ sqlLive t now k = none) ∨
      ∃ c, t.leases.get? k = some c ∧ c.isActive = true ∧ c.isPast now = false ∧
        sqlLive t now k = some c.toLeaseFields := by
  cases hget : t.leases.get? k with
  | none => exact Or.inl ⟨rfl,by simp [sqlLive, LiveLeases.liveAt, sqlStored, hget]⟩
  | some c =>
    have hlive : (c.isActive && !c.isPast now) = true := by
      by_contra hno
      exact h ⟨c,hget,by simpa using hno⟩
    simp only [Bool.and_eq_true, Bool.not_eq_true'] at hlive
    have hbefore : now < c.heartbeat_at + c.ttl_seconds := by
      simpa [LeaseRow.isPast] using hlive.2
    refine Or.inr ⟨c,rfl,hlive.1,hlive.2,?_⟩
    simp [sqlLive, LiveLeases.liveAt, sqlStored, hget, Option.filter, hlive.1, hbefore]

/-- A dead row is none of the live leases. -/
lemma not_live_of_dead (h : DeadRow t k now) : sqlLive t now k = none := by
  obtain ⟨c,hc,hdead⟩ := h
  by_cases hactive : c.isActive = true
  · have hpast : c.heartbeat_at + c.ttl_seconds ≤ now := by
      simpa [hactive, LeaseRow.isPast] using hdead
    simp [sqlLive, LiveLeases.liveAt, sqlStored, hc, Option.filter, hactive, hpast]
  · simp [sqlLive, LiveLeases.liveAt, sqlStored, hc, Option.filter, hactive]

/-- The codes of the two backends for a refused `renew`, where there is no dead row. -/
lemma refusal_eq {u : CoordinationTables} (hs : Simulates file t now) (hu : Swept t now u)
    (h : ¬ DeadRow t k now) : (localLive file now).refusal k = rowRefusal u k := by
  rw [hs.live]
  unfold LiveLeases.refusal rowRefusal
  rcases row_of_not_dead h with ⟨hnone,hlive⟩ | ⟨c,hget,hactive,hpast,hlive⟩
  · have hgone : u.leases.get? k = none := by
      cases hget : u.leases.get? k with
      | none => rfl
      | some c =>
        obtain ⟨old,hold,-⟩ := hu.sub k c hget
        cases hnone.symm.trans hold
    simp [hlive, hgone]
  · have hstored : sqlStored u k = some c.toLeaseFields := by rw [hu.stored, hlive]
    obtain ⟨d,hd,hdactive,-⟩ := sqlStored_eq_some.mp hstored
    simp [hlive, hd, hdactive]

/-- A dead row that the sweep leaves is reported as expired. -/
lemma refusal_of_dead {u : CoordinationTables} (hu : Swept t now u) (h : DeadRow t k now)
    (hfew : t.leases.entries.length ≤ 10000) : rowRefusal u k = .expired := by
  obtain ⟨c,hc,hdead⟩ := h
  have hgone : (expireRow now c).isActive = false := by
    unfold expireRow
    split_ifs with hlive
    · rfl
    · simp only [Bool.and_eq_true, not_and, Bool.not_eq_true] at hlive
      by_contra hactive
      rw [Bool.not_eq_false] at hactive
      simp [hactive, hlive hactive] at hdead
  simp [rowRefusal, hu.same hfew, hc, hgone]

/-- The row of a live lease. -/
lemma row_of_live {m : LeaseFields} (h : sqlLive t now k = some m) :
    ∃ c, t.leases.get? k = some c ∧ c.toLeaseFields = m := by
  obtain ⟨c,hc,-,hm⟩ := sqlStored_eq_some.mp (Option.filter_eq_some_iff.mp h).1
  exact ⟨c,hc,hm⟩

lemma not_holds {A : LiveLeases} {m : LeaseFields} (hk : A k = some m) (hne : m.holder ≠ holder) :
    A.holds k holder = false := by
  simp [LiveLeases.holds, hk, hne]

/-- Nobody but the holder gets through in either backend. -/
lemma holderOnly_of_simulates {s : Backends} {clock : ℤ} {uuids : ℕ → ℕ}
    (hs : Simulates s.file s.tables (toContractTimestamp clock))
    (hiso : isoTimestampSeconds (toContractTimestamp clock) = true)
    (htexts : (jsonbText k && jsonbText holder) = true) (hroom : RoomFor s k holder ttl clock uuids) :
    HolderOnly s k holder ttl clock uuids := by
  have hlocal : ∀ m r w, localLive s.file (toContractTimestamp clock) k = some m → m.holder ≠ holder →
      release s.file k holder none clock = .ok (r,w) →
        r.released = false ∧ localLive (w.or s.file) (toContractTimestamp clock) k = some m := by
    intro m r w hk hne hok
    cases hargs : checkArguments k holder none with
    | error e =>
      unfold release at hok
      rw [hargs] at hok
      cases hok
    | ok _ =>
      have hnow : (none : Option ℤ).getD clock = clock := rfl
      have hyields := release_yields hs.readable hnow hiso hargs
      rw [hok] at hyields
      obtain ⟨hreleased,-,-,hlive⟩ := hyields
      refine ⟨?_,?_⟩
      · rw [hreleased, hk, not_holds hk hne]
        rfl
      · rw [hlive, LiveLeases.release, LiveLeases.change_of_not_holds (not_holds hk hne)]
        exact hk
  have hlocal' : ∀ m r w, localLive s.file (toContractTimestamp clock) k = some m → m.holder ≠ holder →
      renew s.file k holder ttl none clock = .ok (r,w) →
        localLive (w.or s.file) (toContractTimestamp clock) k = some m := by
    intro m r w hk hne hok
    cases hargs : checkArguments k holder ttl with
    | error e =>
      unfold renew at hok
      rw [hargs] at hok
      cases hok
    | ok _ =>
      have hnow : (none : Option ℤ).getD clock = clock := rfl
      have hyields := renew_yields hs.readable hnow hiso hargs
      rw [hok] at hyields
      rw [hyields.2.2.2, LiveLeases.renew, LiveLeases.change_of_not_holds (not_holds hk hne)]
      exact hk
  refine ⟨hlocal,hlocal',fun m r' u hk hne hok => ?_,fun m r' u hk hne hok => ?_⟩
  · rcases release_together htexts hs hiso rfl hroom.1.1 hroom.1.2 with ⟨e,-,herr⟩ | ⟨r,w,r'',u',hr,hr',hR,hu⟩
    · cases herr.symm.trans hok
    · cases hr'.symm.trans hok
      obtain ⟨c,hc,hm⟩ := row_of_live hk
      refine ⟨?_,?_⟩
      · rw [hR.2.1, hc]
        simpa [← hm] using hne
      · rw [← hu.live]
        exact (hlocal m r w (by rw [hs.live]; exact hk) hne hr).2
  · rcases renew_together htexts hs hiso rfl hroom.2.1 hroom.2.2 with
      ⟨e,-,herr⟩ | ⟨r,w,r'',u',hr,hr',-,hu⟩
    · cases herr.symm.trans hok
    · cases hr'.symm.trans hok
      rw [← hu.live]
      exact hlocal' m r w (by rw [hs.live]; exact hk) hne hr

/-- Where there is no dead row the codes agree. -/
lemma codesAgree_of_not_dead {s : Backends} {clock : ℤ} {uuids : ℕ → ℕ}
    (hs : Simulates s.file s.tables (toContractTimestamp clock))
    (hiso : isoTimestampSeconds (toContractTimestamp clock) = true)
    (htexts : (jsonbText k && jsonbText holder) = true) (hroom : RoomFor s k holder ttl clock uuids)
    (hdead : ¬ DeadRow s.tables k (toContractTimestamp clock)) : CodesAgree s k holder ttl clock uuids := by
  constructor
  · apply (release_together htexts hs hiso rfl hroom.1.1 hroom.1.2).map_eq
    rintro r r' ⟨hr,hr',hcode,hcode'⟩
    have hsame : r.released = r'.released := by
      rw [hr, hr', hs.live]
      rcases row_of_not_dead hdead with ⟨hnone,hlive⟩ | ⟨c,hget,-,-,hlive⟩
      · rw [hnone, hlive]
        rfl
      · simp [hget, hlive, LiveLeases.holds]
    unfold LeaseReleaseResult.answer
    cases hreleased : r.released with
    | true => simp [← hsame, hreleased]
    | false => simp [← hsame, hreleased, hcode hreleased, hcode' (hsame.symm.trans hreleased)]
  · apply (renew_together htexts hs hiso rfl hroom.2.1 hroom.2.2).map_eq
    rintro r r' ⟨hsame,hcode⟩
    unfold LeaseRenewResult.refused
    cases hrenewed : r.renewed with
    | true => simp [← hsame, hrenewed]
    | false =>
      obtain ⟨hlocal,u,hu,hsql⟩ := hcode hrenewed
      rw [refusal_eq hs hu hdead] at hlocal
      simp [← hsame, hrenewed, hlocal, hsql]

/-- A dead row that is not pruned sets the codes of `renew` apart. -/
lemma not_codesAgree_of_dead {s : Backends} {clock : ℤ} {uuids : ℕ → ℕ}
    (hs : Simulates s.file s.tables (toContractTimestamp clock))
    (hiso : isoTimestampSeconds (toContractTimestamp clock) = true)
    (htexts : (jsonbText k && jsonbText holder) = true) (hroom : RoomFor s k holder ttl clock uuids)
    (hholder : holder ≠ []) (httl : ttl.all (fun t => decide (1 ≤ t ∧ t ≤ 7200)) = true)
    (hdead : DeadRow s.tables k (toContractTimestamp clock))
    (hfew : s.tables.leases.entries.length ≤ 10000) : ¬ CodesAgree s k holder ttl clock uuids := by
  intro hagree
  have hnone := not_live_of_dead hdead
  obtain ⟨c,hc,-⟩ := id hdead
  have hargs : checkArguments k holder ttl = .ok () := by
    refine checkArguments_eq_ok.mpr ⟨?_,hholder,httl⟩
    have hallowed := (hs.sound k c hc).allowed
    rw [← (hs.sound k c hc).keyed]
    exact (lease_names ⟨c.toLeaseFields,hallowed⟩).1
  have hrenew := hagree.renew
  rcases renew_together htexts hs hiso rfl hroom.2.1 hroom.2.2 with
    ⟨e,-,herr⟩ | ⟨r,w,r',u,hr,hr',⟨hsame,hcode⟩,-⟩
  · unfold SupabaseLeaseStore.renew at herr
    rw [hargs] at herr
    simp only [bind, Except.bind] at herr
    cases hsql : coordinationRenewLease s.tables k holder ttl clock clock uuids <;>
      rw [hsql] at herr <;> cases herr
  · have hnow : (none : Option ℤ).getD clock = clock := rfl
    have hyields := renew_yields hs.readable hnow hiso hargs
    rw [hr] at hyields
    have hrefused : r.renewed = false := by
      rw [hyields.1, hs.live]
      simp [LiveLeases.holds, hnone]
    obtain ⟨hlocal,v,hv,hsql⟩ := hcode hrefused
    rw [hs.live] at hlocal
    rw [hr, hr'] at hrenew
    have hcodes : r.refused = r'.refused := Except.ok.inj hrenew
    simp [LeaseRenewResult.refused, hrefused, ← hsame, hlocal, hsql, LiveLeases.refusal, hnone,
      refusal_of_dead hv hdead hfew] at hcodes

end Codes

/-- In every state that the two backends reach together only the holder gets through, and their
codes agree where there is no dead row; a dead row in a table that is not pruned sets them apart. -/
theorem refusals_agree (start : ℤ) (as : List BackendAction) (s : Backends)
    (hm : Meets Backends.step Comparable (Backends.empty start) as)
    (h : run Backends.step (Backends.empty start) as = some s) (k holder : Text)
    (ttl : Option ℤ) (clock : ℤ) (uuids : ℕ → ℕ) (hholder : holder ≠ [])
    (htexts : (jsonbText k && jsonbText holder) = true)
    (httl : ttl.all (fun t => decide (1 ≤ t ∧ t ≤ 7200)) = true) (hclock : s.clock ≤ clock)
    (htime : sqlTimestamp (toContractTimestamp clock) = true) (hroom : RoomFor s k holder ttl clock uuids) :
    HolderOnly s k holder ttl clock uuids ∧
    (¬ DeadRow s.tables k (toContractTimestamp clock) → CodesAgree s k holder ttl clock uuids) ∧
    (DeadRow s.tables k (toContractTimestamp clock) → s.tables.leases.entries.length ≤ 10000 →
      ¬ CodesAgree s k holder ttl clock uuids) := by
  have hs : s.Simulated := run_invariant_of_meets Backends.step (I := Backends.Simulated)
    (fun _ _ _ hs ha h => step_simulated hs ha h) (simulated_empty start) hm h
  have hlater : Simulates s.file s.tables (toContractTimestamp clock) :=
    hs.later (toContractTimestamp_mono hclock)
  have hiso := isoTimestamp_of_sqlTimestamp htime
  exact ⟨holderOnly_of_simulates hlater hiso htexts hroom,codesAgree_of_not_dead hlater hiso htexts hroom,
    not_codesAgree_of_dead hlater hiso htexts hroom hholder httl⟩

/-- A lease of a minute, and another one that its holder has released. -/
def refusalHistory : List BackendAction :=
  [softAcquire "lease:a" 60,softAcquire "lease:b" 60,(.release (Text.of "lease:b") (Text.of "agent") none 0,id)]

instance (t : CoordinationTables) (k : Text) (now : ℤ) : Decidable (DeadRow t k now) :=
  match h : t.leases.get? k with
  | none => isFalse fun ⟨c,hc,_⟩ => by cases h.symm.trans hc
  | some c => decidable_of_iff ((c.isActive && !c.isPast now) = false)
      ⟨fun hd => ⟨c,h,hd⟩,fun ⟨d,hd,hdead⟩ => by cases h.symm.trans hd; exact hdead⟩

instance (s : Backends) (k holder : Text) (ttl : Option ℤ) (clock : ℤ) (uuids : ℕ → ℕ) :
    Decidable (RoomFor s k holder ttl clock uuids) := by
  unfold RoomFor
  infer_instance

/-- The history is one of comparable operations, and `lease:a` has no dead row in it. -/
theorem refusals_agree_sample : ∃ s, run Backends.step (Backends.empty 0) refusalHistory = some s ∧
    HolderOnly s (Text.of "lease:a") (Text.of "other") none 1000 id ∧
    CodesAgree s (Text.of "lease:a") (Text.of "other") none 1000 id := by
  have hm : Meets Backends.step Comparable (Backends.empty 0) refusalHistory := by decide +kernel
  have hfacts : (run Backends.step (Backends.empty 0) refusalHistory).map (fun s => decide (s.clock ≤ 1000 ∧
      RoomFor s (Text.of "lease:a") (Text.of "other") none 1000 id ∧ ¬ DeadRow s.tables (Text.of "lease:a") 1)) =
      some true := by decide +kernel
  obtain ⟨s,hs,hfacts⟩ := Option.map_eq_some_iff.mp hfacts
  obtain ⟨hclock,hroom,hdead⟩ := of_decide_eq_true hfacts
  have hagree := refusals_agree 0 refusalHistory s hm hs (Text.of "lease:a") (Text.of "other") none 1000 id
    (by decide +kernel) (by decide +kernel) rfl hclock (by decide) hroom
  exact ⟨s,hs,hagree.1,hagree.2.1 hdead⟩

/-- Without the condition it fails: `lease:b` has been released, which the database remembers. -/
theorem refusals_disagree : ¬ ∀ (start : ℤ) (as : List BackendAction) (s : Backends),
    Meets Backends.step Comparable (Backends.empty start) as →
    run Backends.step (Backends.empty start) as = some s →
    ∀ (k holder : Text) (ttl : Option ℤ) (clock : ℤ) (uuids : ℕ → ℕ), holder ≠ [] → s.clock ≤ clock →
      RoomFor s k holder ttl clock uuids → CodesAgree s k holder ttl clock uuids := by
  intro h
  have hm : Meets Backends.step Comparable (Backends.empty 0) refusalHistory := by decide +kernel
  have hfacts : (run Backends.step (Backends.empty 0) refusalHistory).map (fun s => decide (s.clock ≤ 1000 ∧
      RoomFor s (Text.of "lease:b") (Text.of "other") none 1000 id ∧
      (release s.file (Text.of "lease:b") (Text.of "other") none 1000).map (fun r => r.1.answer) ≠
        (SupabaseLeaseStore.release s.tables (Text.of "lease:b") (Text.of "other") 1000 id).map
          (fun r => r.1.answer))) = some true := by decide +kernel
  obtain ⟨s,hs,hfacts⟩ := Option.map_eq_some_iff.mp hfacts
  obtain ⟨hclock,hroom,hdiffer⟩ := of_decide_eq_true hfacts
  have hagree := h 0 refusalHistory s hm hs (Text.of "lease:b") (Text.of "other") none 1000 id (by decide +kernel)
    hclock hroom
  exact hdiffer hagree.release

end OmniagentPlus.WorktreeLeasing
