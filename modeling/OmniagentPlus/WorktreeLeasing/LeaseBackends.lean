import OmniagentPlus.WorktreeLeasing.SupabaseLive

/-! Both lease backends under one sequence of operations with the same clock readings: they
answer alike because each keeps the same live leases. -/
namespace OmniagentPlus.WorktreeLeasing
open OmniagentPlus.Foundation OmniagentPlus.CoreContracts OmniagentPlus.StateLedger

/-- The file, the tables, and the last clock reading. -/
structure Backends where
  file : Option LocalLeaseStoreState
  tables : CoordinationTables
  clock : ℤ

/-- An operation, and the event ids that the database draws for it. -/
abbrev BackendAction := LeaseStoreAction × (ℕ → ℕ)

def LeaseStoreAction.clock : LeaseStoreAction → ℤ
  | .acquire _ _ clock _ => clock
  | .renew _ _ _ _ clock => clock
  | .release _ _ _ clock => clock
  | .query _ clock => clock
  | .expire instant => instant

/-- The `now` that the caller passes. -/
def LeaseStoreAction.now : LeaseStoreAction → Option ℤ
  | .acquire request _ _ _ => request.now
  | .renew _ _ _ requested _ => requested
  | .release _ _ requested _ => requested
  | .query q _ => q.now
  | .expire _ => none

namespace Backends

def empty (clock : ℤ) : Backends := ⟨none,⟨.empty,[]⟩,clock⟩

def step (s : Backends) (a : BackendAction) : Option Backends :=
  (leaseStoreStep s.file a.1).map fun file => ⟨file,SupabaseLeaseStore.step s.tables a.2 a.1,a.1.clock⟩

end Backends

/-- The clock does not go back, both backends write its reading alike, and a `now` that the caller
passes is that reading. -/
def WellTimed (s : Backends) (a : BackendAction) : Prop :=
  s.clock ≤ a.1.clock ∧ sqlTimestamp (toContractTimestamp a.1.clock) = true ∧
    a.1.now.getD a.1.clock = a.1.clock

/-- The texts that the caller of an operation has chosen are ones that the database takes. -/
def LeaseStoreAction.Storable : LeaseStoreAction → Prop
  | .acquire request _ _ _ => ([request.holder,request.phase] ++ request.scope.selector).all jsonbText = true
  | .renew leaseId holder _ _ _ | .release leaseId holder _ _ => (jsonbText leaseId && jsonbText holder) = true
  | .query q _ => (q.texts q.page.cursor).all jsonbText = true
  | .expire _ => True

/-- Neither backend refuses the operation for want of room. -/
def BelowCapacity (s : Backends) (a : BackendAction) : Prop :=
  match a.1 with
  | .acquire request prepared clock uuid =>
    acquire s.file request prepared clock uuid ≠ .error .capacity ∧
    ∀ lease, createLeaseFromAcquireRequest
        { request with scope := normalizeLeaseScope request.scope } prepared uuid = .ok lease →
      coordinationAcquireLease s.tables (acquireRpc lease) clock clock [] a.2 ≠ .error .protectedCapacity
  | .renew leaseId holder ttl requested clock =>
    renew s.file leaseId holder ttl requested clock ≠ .error .capacity ∧
      coordinationRenewLease s.tables leaseId holder ttl clock clock a.2 ≠ .error .protectedCapacity
  | .release leaseId holder requested clock =>
    release s.file leaseId holder requested clock ≠ .error .capacity ∧
      coordinationReleaseLease s.tables leaseId holder clock a.2 ≠ .error .protectedCapacity
  | .query _ _ => True
  | .expire instant =>
    expire s.file instant ≠ .error .capacity ∧
      coordinationExpireLeases s.tables instant a.2 ≠ .error .protectedCapacity

/-- Both backends can read what they have stored, and the same leases are live in them. -/
structure Simulates (file : Option LocalLeaseStoreState) (t : CoordinationTables) (now : ℤ) : Prop where
  readable : ReadableFile file
  sound : Sound t
  live : localLive file now = sqlLive t now

def Backends.Simulated (s : Backends) : Prop := Simulates s.file s.tables (toContractTimestamp s.clock)

section Together
variable {file : Option LocalLeaseStoreState} {t : CoordinationTables} {clock : ℤ} {uuids : ℕ → ℕ}

lemma Simulates.later {now later : ℤ} (h : Simulates file t now) (hle : now ≤ later) :
    Simulates file t later := by
  refine ⟨h.readable,h.sound,?_⟩
  have hlive := congrArg (fun A : LiveLeases => A.liveAt later) h.live
  simpa only [localLive, sqlLive, LiveLeases.liveAt_liveAt _ hle] using hlive

lemma toContractTimestamp_mono {a b : ℤ} (h : a ≤ b) : toContractTimestamp a ≤ toContractTimestamp b := by
  unfold toContractTimestamp
  omega

/-- Both backends refuse the arguments, or both answer, `R` relates the answers, and the same
leases are live afterwards. -/
def Together {ρ ρ' : Type} (file : Option LocalLeaseStoreState) (now : ℤ)
    (x : Except LeaseStoreError (ρ × Option LocalLeaseStoreState))
    (y : Except LeaseStoreError (ρ' × CoordinationTables)) (R : ρ → ρ' → Prop) : Prop :=
  (∃ e, x = .error e ∧ y = .error e) ∨
    ∃ r w r' u, x = .ok (r,w) ∧ y = .ok (r',u) ∧ R r r' ∧ Simulates (w.or file) u now

lemma yields_ok {ε α : Type} {e : ε} {P : α → Prop} {x : Except ε α} (h : Yields (· = e) P x)
    (hx : x ≠ .error e) : ∃ a, x = .ok a ∧ P a := by
  cases x with
  | error e' => exact absurd (by rw [show e' = e from h]) hx
  | ok a => exact ⟨a,rfl,h⟩

lemma stored_ok {ρ : Type} {r : ρ} {w : Option LocalLeaseStoreState} :
    stored file (.ok (r,w)) = w.or file := by
  cases w <;> rfl

lemma decodeAcquire_of_allowed {answer : SqlAnswer} {m : LeaseFields} (h : answer.lease = some m)
    (hm : m.allowed = true) : ∃ r, decodeAcquire answer = some r ∧ r.granted = answer.done := by
  have hparse : consiliencyLeaseSchema m = some ⟨m,hm⟩ := consiliencyLeaseSchema_eq_some.mpr rfl
  simp only [decodeAcquire, h, hparse, Option.map_some]
  cases answer.done
  · exact ⟨_,rfl,rfl⟩
  · exact ⟨_,rfl,rfl⟩

lemma decodeRenew_of_allowed {answer : SqlAnswer}
    (h : answer.done = true → ∃ m, answer.lease = some m ∧ m.allowed = true) :
    ∃ r, decodeRenew answer = some r ∧ r.renewed = answer.done ∧
      (answer.done = false → r.failure = answer.failure) := by
  unfold decodeRenew
  cases hdone : answer.done with
  | false => exact ⟨_,rfl,rfl,fun _ => rfl⟩
  | true =>
    obtain ⟨m,hm,hallowed⟩ := h hdone
    have hparse : consiliencyLeaseSchema m = some ⟨m,hallowed⟩ := consiliencyLeaseSchema_eq_some.mpr rfl
    simp only [hm, Option.bind_some, hparse, Option.map_some, if_true]
    exact ⟨_,rfl,rfl,fun h => (by cases h)⟩

/-- What is sent for a request that the database can store. -/
lemma acquireRpc_texts {request : LeaseAcquireRequest} {prepared : ℤ} {uuid : Text} {draft : ConsiliencyLease}
    (h : createLeaseFromAcquireRequest request prepared uuid = .ok draft)
    (htexts : ([request.holder,request.phase] ++ request.scope.selector).all jsonbText = true) :
    (acquireRpc draft).texts.all jsonbText = true := by
  obtain ⟨hnames,hselector⟩ := Bool.and_eq_true_iff.mp ((List.all_append (f := jsonbText)).symm.trans htexts)
  have hid : jsonbText draft.lease_id = true := by
    have hallowed := draft.allowed
    simp only [LeaseFields.allowed, Bool.and_eq_true] at hallowed
    exact jsonbText_of_leaseId hallowed.1.1.1.1.1.1
  have hfields := createLease_fields h
  have hholder : draft.holder = request.holder := congrArg LeaseFields.holder hfields
  have hphase : draft.phase = request.phase := congrArg LeaseFields.phase hfields
  have hscope : draft.scope = normalizeLeaseScope request.scope := congrArg LeaseFields.scope hfields
  change ([draft.lease_id] ++ [draft.holder,draft.phase] ++ draft.scope.selector).all jsonbText = true
  rw [List.all_append, List.all_append, hholder, hphase, hscope, hnames, List.all_cons, hid]
  exact jsonbText_normalizeSelector hselector

theorem acquire_together {request : LeaseAcquireRequest} {prepared : ℤ} {uuid : Text}
    (htexts : ([request.holder,request.phase] ++ request.scope.selector).all jsonbText = true)
    (hs : Simulates file t (toContractTimestamp clock))
    (hiso : isoTimestampSeconds (toContractTimestamp clock) = true)
    (hclock : request.now.getD clock = clock)
    (hlocal : acquire file request prepared clock uuid ≠ .error .capacity)
    (hsql : ∀ lease, createLeaseFromAcquireRequest
        { request with scope := normalizeLeaseScope request.scope } prepared uuid = .ok lease →
      coordinationAcquireLease t (acquireRpc lease) clock clock [] uuids ≠ .error .protectedCapacity) :
    Together file (toContractTimestamp clock) (acquire file request prepared clock uuid)
      (SupabaseLeaseStore.acquire t request prepared clock uuid uuids)
      (fun r r' => r.granted = r'.granted) := by
  have hsame : createLeaseFromAcquireRequest { request with scope := normalizeLeaseScope request.scope } prepared
      uuid = createLeaseFromAcquireRequest request prepared uuid := by
    unfold createLeaseFromAcquireRequest
    rw [normalizeLeaseScope_idem]
  rw [hsame] at hsql
  unfold SupabaseLeaseStore.acquire
  rw [hsame]
  cases hdraft : createLeaseFromAcquireRequest request prepared uuid with
  | error e =>
    refine Or.inl ⟨e,?_,rfl⟩
    unfold acquire
    rw [hdraft]
    rfl
  | ok draft =>
    obtain ⟨⟨r,w⟩,hr,hgrant,hfile,hlive⟩ :=
      yields_ok (acquire_yields hs.readable hclock hiso hdraft) hlocal
    have hscope : Normal draft.scope := by
      rw [createLease_fields hdraft]
      exact normalizeLeaseScope_idem request.scope
    obtain ⟨⟨answer,u⟩,hanswer,hgrant',⟨m,hm,hallowed⟩,hu,hlive'⟩ :=
      yields_ok (sqlAcquire_yields hs.sound draft hscope (acquireRpc_texts hdraft htexts) hiso) (hsql draft hdraft)
    obtain ⟨r',hdecode,hdone⟩ := decodeAcquire_of_allowed hm hallowed
    -- both asked for the same lease, and the same leases were live
    have hl : { draft.toLeaseFields with
        acquired_at := toContractTimestamp clock, heartbeat_at := toContractTimestamp clock } =
        askedLease request uuid (toContractTimestamp clock) := by
      rw [createLease_fields hdraft]
      rfl
    rw [hl, ← hs.live] at hgrant' hlive'
    have hsamegrant : r.granted = answer.done := Bool.eq_iff_iff.mpr (hgrant.trans hgrant'.symm)
    refine Or.inr ⟨r,w,r',u,hr,?_,hsamegrant.trans hdone.symm,hfile,hu,?_⟩
    · simp only [bind, Except.bind, hanswer, hdecode, Option.getD_some]
      rfl
    · rw [hlive, hlive']
      simp only [hsamegrant]

theorem renew_together {k holder : Text} {ttl requested : Option ℤ}
    (htexts : (jsonbText k && jsonbText holder) = true) (hs : Simulates file t (toContractTimestamp clock))
    (hiso : isoTimestampSeconds (toContractTimestamp clock) = true) (hclock : requested.getD clock = clock)
    (hlocal : renew file k holder ttl requested clock ≠ .error .capacity)
    (hsql : coordinationRenewLease t k holder ttl clock clock uuids ≠ .error .protectedCapacity) :
    Together file (toContractTimestamp clock) (renew file k holder ttl requested clock)
      (SupabaseLeaseStore.renew t k holder ttl clock uuids) (fun r r' => r.renewed = r'.renewed ∧
        (r.renewed = false → r.failure = some ((localLive file (toContractTimestamp clock)).refusal k) ∧
          ∃ u, Swept t (toContractTimestamp clock) u ∧ r'.failure = some (rowRefusal u k))) := by
  unfold SupabaseLeaseStore.renew
  cases hargs : checkArguments k holder ttl with
  | error e =>
    refine Or.inl ⟨e,?_,rfl⟩
    unfold renew
    rw [hargs]
    rfl
  | ok _ =>
    obtain ⟨-,hname,httl⟩ := checkArguments_eq_ok.mp hargs
    obtain ⟨⟨r,w⟩,hr,hrenewed,hcode,hfile,hlive⟩ := yields_ok (renew_yields hs.readable hclock hiso hargs) hlocal
    obtain ⟨⟨answer,u⟩,hanswer,hdone,hlease,⟨v,hv,hcode'⟩,hu,hlive'⟩ :=
      yields_ok (sqlRenew_yields hs.sound htexts hname httl hiso) hsql
    obtain ⟨r',hdecode,hrenewed',hfailure⟩ := decodeRenew_of_allowed hlease
    rw [← hs.live] at hdone hlive'
    have hsame : r.renewed = answer.done := hrenewed.trans hdone.symm
    refine Or.inr ⟨r,w,r',u,hr,?_,⟨hsame.trans hrenewed'.symm,fun hno => ⟨hcode hno,v,hv,?_⟩⟩,hfile,hu,?_⟩
    · simp only [bind, Except.bind, hanswer, hdecode, Option.getD_some]
      rfl
    · have hrefused : answer.done = false := hsame.symm.trans hno
      rw [hfailure hrefused]
      exact hcode' hrefused
    · rw [hlive, hlive']

theorem release_together {k holder : Text} {requested : Option ℤ}
    (htexts : (jsonbText k && jsonbText holder) = true) (hs : Simulates file t (toContractTimestamp clock))
    (hiso : isoTimestampSeconds (toContractTimestamp clock) = true) (hclock : requested.getD clock = clock)
    (hlocal : release file k holder requested clock ≠ .error .capacity)
    (hsql : coordinationReleaseLease t k holder clock uuids ≠ .error .protectedCapacity) :
    Together file (toContractTimestamp clock) (release file k holder requested clock)
      (SupabaseLeaseStore.release t k holder clock uuids) (fun r r' =>
        r.released = ((localLive file (toContractTimestamp clock) k).isNone ||
          (localLive file (toContractTimestamp clock)).holds k holder) ∧
        r'.released = ((t.leases.get? k).all fun c => c.holder = holder) ∧
        (r.released = false → r.failure = some .notHolder) ∧
        (r'.released = false → r'.failure = some .notHolder)) := by
  unfold SupabaseLeaseStore.release
  cases hargs : checkArguments k holder none with
  | error e =>
    refine Or.inl ⟨e,?_,rfl⟩
    unfold release
    rw [hargs]
    rfl
  | ok _ =>
    obtain ⟨-,hname,-⟩ := checkArguments_eq_ok.mp hargs
    obtain ⟨⟨r,w⟩,hr,hreleased,hcode,hfile,hlive⟩ :=
      yields_ok (release_yields hs.readable hclock hiso hargs) hlocal
    obtain ⟨⟨r',u⟩,hanswer,hreleased',hcode',hu,hlive'⟩ :=
      yields_ok (sqlRelease_yields hs.sound htexts hname) hsql
    rw [← hs.live] at hlive'
    refine Or.inr ⟨r,w,r',u,hr,?_,⟨hreleased,hreleased',hcode,hcode'⟩,hfile,hu,hlive.trans hlive'.symm⟩
    simp only [bind, Except.bind, hanswer]
    rfl

theorem expire_together (hs : Simulates file t (toContractTimestamp clock))
    (hiso : isoTimestampSeconds (toContractTimestamp clock) = true)
    (hlocal : expire file clock ≠ .error .capacity)
    (hsql : coordinationExpireLeases t clock uuids ≠ .error .protectedCapacity) :
    Together file (toContractTimestamp clock) (expire file clock) (SupabaseLeaseStore.expire t clock uuids)
      (fun _ _ => True) := by
  obtain ⟨⟨n,w⟩,hr,hfile,hlive⟩ := yields_ok (expire_yields hs.readable hiso) hlocal
  obtain ⟨⟨n',u⟩,hanswer,hu⟩ := yields_ok (sqlExpire_yields hs.sound) hsql
  refine Or.inr ⟨n,w,n',u,hr,?_,trivial,hfile,hu.sound,?_⟩
  · unfold SupabaseLeaseStore.expire
    rw [hanswer]
  · rw [hlive, hs.live]
    exact (sqlLive_eq hu.stored fun _ _ h => live_of_sqlLive h).symm

/-- The database reads the timestamp of the page's cursor. -/
def PrintedCursor (q : LeaseQuery) : Prop :=
  ∀ c ∈ q.page.cursor, sqlTimestamp (toContractTimestamp c.timestamp) = true

lemma mapM_schema {ls : List LeaseFields} (h : ∀ m ∈ ls, m.allowed = true) :
    ∃ leases : List ConsiliencyLease, ls.mapM consiliencyLeaseSchema = some leases ∧
      leases.map (·.toLeaseFields) = ls := by
  induction ls with
  | nil => exact ⟨[],rfl,rfl⟩
  | cons m ls ih =>
    obtain ⟨leases,hleases,hfields⟩ := ih fun m' hm' => h m' (List.mem_cons_of_mem m hm')
    have hparse : consiliencyLeaseSchema m = some ⟨m,h m List.mem_cons_self⟩ :=
      consiliencyLeaseSchema_eq_some.mpr rfl
    refine ⟨⟨m,h m List.mem_cons_self⟩ :: leases,?_,?_⟩
    · rw [List.mapM_cons, hparse, hleases]
      rfl
    · rw [List.map_cons, hfields]

lemma toLeaseFields_injective : Function.Injective ConsiliencyLease.toLeaseFields := by
  rintro ⟨a,ha⟩ ⟨b,hb⟩ h
  cases h
  rfl

lemma validatePage_eq_some {page : CoordinationPage} {limit : ℕ} {cursor : Option CoordinationTuple}
    (h : validateCoordinationPage page = some (limit,cursor)) :
    1 ≤ limit ∧ limit ≤ 500 ∧ (limit : ℤ) = page.limit.getD 100 ∧ (∀ c ∈ cursor, c.id ≠ []) ∧
      cursor = page.cursor.map fun c => { c with timestamp := toContractTimestamp c.timestamp } := by
  unfold validateCoordinationPage at h
  dsimp only at h
  split_ifs at h with hpage
  cases h
  obtain ⟨hlow,hhigh,hids⟩ := hpage
  refine ⟨by omega,by omega,by omega,fun c hc => ?_,rfl⟩
  obtain ⟨d,hd,rfl⟩ := Option.map_eq_some_iff.mp hc
  rw [hd] at hids
  simpa using hids

/-- What both backends answer to a query: pages of what each has stored. -/
theorem query_together {now : ℤ} {q : LeaseQuery} (htexts : (q.texts q.page.cursor).all jsonbText = true) (hs : Simulates file t now)
    (hclock : q.now.getD clock = clock) (hcursor : PrintedCursor q) :
    (query file q clock = .error .validation ∧ SupabaseLeaseStore.query t q clock = .error .validation) ∨
    ∃ (ls ms : List ConsiliencyLease) (limit : ℕ) (cursor : Option CoordinationTuple),
      query file q clock = .ok ls ∧ SupabaseLeaseStore.query t q clock = .ok ms ∧
      (limit : ℤ) = q.page.limit.getD 100 ∧
      IsPage (Selected (scanned (localStored file) q (toContractTimestamp clock)) q cursor) limit
        (ls.map (·.toLeaseFields)) ∧
      IsPage (Selected (scanned (sqlStored t) q (toContractTimestamp clock)) q cursor) limit
        (ms.map (·.toLeaseFields)) := by
  unfold SupabaseLeaseStore.query
  cases hpage : validateCoordinationPage q.page with
  | none =>
    refine Or.inl ⟨?_,rfl⟩
    unfold query
    rw [hpage]
    rfl
  | some page =>
    obtain ⟨limit,cursor⟩ := page
    obtain ⟨hlow,hhigh,hlimit,hids,hcuts⟩ := validatePage_eq_some hpage
    have hprinted : ∀ c ∈ cursor, c.id ≠ [] ∧ sqlTimestamp c.timestamp = true := by
      intro c hc
      refine ⟨hids c hc,?_⟩
      rw [hcuts] at hc
      obtain ⟨d,hd,rfl⟩ := Option.map_eq_some_iff.mp hc
      exact hcursor d hd
    let sent : LeaseQuery := { q with scope := q.scope.map normalizeLeaseScope }
    have hnormal : ∀ s ∈ sent.scope, Normal s := by
      intro s hs
      obtain ⟨raw,-,rfl⟩ := Option.map_eq_some_iff.mp hs
      exact normalizeLeaseScope_idem raw
    have hsentTexts : (sent.texts cursor).all jsonbText = true := by
      rw [LeaseQuery.texts, List.all_append, List.all_append, Bool.and_eq_true, Bool.and_eq_true] at htexts ⊢
      obtain ⟨⟨hid,hscope⟩,hafter⟩ := htexts
      refine ⟨⟨hid,?_⟩,?_⟩
      · change ((q.scope.map normalizeLeaseScope).elim [] (·.selector)).all jsonbText = true
        cases hq : q.scope with
        | none => rfl
        | some s =>
          rw [hq] at hscope
          exact jsonbText_normalizeSelector hscope
      · rw [hcuts, Option.map_map]
        exact hafter
    have hsent : ∀ A m, Selected A sent cursor m ↔ Selected A q cursor m := by
      intro A m
      have hscope : sent.scope.all (leaseScopesOverlap m.scope) = q.scope.all (leaseScopesOverlap m.scope) := by
        change (q.scope.map normalizeLeaseScope).all _ = _
        cases q.scope with
        | none => rfl
        | some s => simp only [Option.map_some, Option.all_some, leaseScopesOverlap, normalizeLeaseScope_idem]
      simp only [Selected, hscope]
      rfl
    have hlocal := query_yields (E := fun _ => False) hs.readable hclock hpage
    have hbounds : (1 : ℤ) ≤ limit ∧ (limit : ℤ) ≤ 500 := by omega
    have hsql : ∃ ls, coordinationQueryLeases t sent limit cursor clock = .ok ls ∧ (∀ m ∈ ls, m.allowed = true) ∧
        IsPage (Selected (scanned (sqlStored t) q (toContractTimestamp clock)) sent cursor) limit ls :=
      sqlQuery_page hs.sound hsentTexts hbounds hprinted hnormal
    obtain ⟨found,hfound,hallowed,hfields⟩ := hsql
    obtain ⟨ms,hms,hmfields⟩ := mapM_schema hallowed
    cases hanswer : query file q clock with
    | error e =>
      rw [hanswer] at hlocal
      exact hlocal.elim
    | ok ls =>
      rw [hanswer] at hlocal
      refine Or.inr ⟨ls,ms,limit,cursor,rfl,?_,hlimit,hlocal,by rw [hmfields]; exact hfields.congr (hsent _)⟩
      simp only [bind, Except.bind, Option.elim_some]
      rw [hfound]
      simp only [hms]
      rfl

end Together

/-- What is asked of both backends' answers to an operation: an `acquire` or `renew` succeeds in
both or neither; a query that leaves expired leases out has one answer; and any query finds the
same live leases while its pages are not full. -/
def BackendsAgree (s : Backends) (a : BackendAction) : Prop :=
  match a.1 with
  | .acquire request prepared clock uuid =>
    (acquire s.file request prepared clock uuid).map (·.1.granted) =
      (SupabaseLeaseStore.acquire s.tables request prepared clock uuid a.2).map (·.1.granted)
  | .renew leaseId holder ttl requested clock =>
    (renew s.file leaseId holder ttl requested clock).map (·.1.renewed) =
      (SupabaseLeaseStore.renew s.tables leaseId holder ttl clock a.2).map (·.1.renewed)
  | .query q clock => PrintedCursor q →
    (q.includeExpired = false → query s.file q clock = SupabaseLeaseStore.query s.tables q clock) ∧
    ∀ ls ms, query s.file q clock = .ok ls → SupabaseLeaseStore.query s.tables q clock = .ok ms →
      (ls.length : ℤ) < q.page.limit.getD 100 → (ms.length : ℤ) < q.page.limit.getD 100 →
      ∀ l, isLeaseExpired l (toContractTimestamp clock) = false → (l ∈ ls ↔ l ∈ ms)
  | _ => True

/-- An operation of the runs compared: at a clock reading that does not go back, of texts that the
database takes, and with room in both stores. -/
def Comparable (s : Backends) (a : BackendAction) : Prop := WellTimed s a ∧ a.1.Storable ∧ BelowCapacity s a

lemma Together.map_eq {ρ ρ' β : Type} {file : Option LocalLeaseStoreState} {now : ℤ}
    {x : Except LeaseStoreError (ρ × Option LocalLeaseStoreState)}
    {y : Except LeaseStoreError (ρ' × CoordinationTables)} {R : ρ → ρ' → Prop} (h : Together file now x y R)
    {f : ρ → β} {g : ρ' → β} (hfg : ∀ r r', R r r' → f r = g r') :
    x.map (fun r => f r.1) = y.map (fun r => g r.1) := by
  rcases h with ⟨e,rfl,rfl⟩ | ⟨r,w,r',u,rfl,rfl,hR,-⟩
  · rfl
  · exact congrArg Except.ok (hfg r r' hR)

/-- The states after an operation that both backends refuse or answer together. -/
lemma Together.simulates {ρ ρ' : Type} {file : Option LocalLeaseStoreState} {t : CoordinationTables} {now : ℤ}
    {x : Except LeaseStoreError (ρ × Option LocalLeaseStoreState)}
    {y : Except LeaseStoreError (ρ' × CoordinationTables)} {R : ρ → ρ' → Prop} (h : Together file now x y R)
    (hs : Simulates file t now) :
    Simulates (stored file x) (SupabaseLeaseStore.committed t y) now := by
  rcases h with ⟨e,rfl,rfl⟩ | ⟨r,w,r',u,rfl,rfl,-,hu⟩
  · exact hs
  · rw [stored_ok]
    exact hu

/-- Every operation keeps the same leases live in both backends. -/
theorem step_simulated {s s' : Backends} {a : BackendAction} (hs : s.Simulated) (ha : Comparable s a)
    (h : s.step a = some s') : s'.Simulated := by
  obtain ⟨⟨hclock,htime,hnow⟩,htexts,hroom⟩ := ha
  have hiso := isoTimestamp_of_sqlTimestamp htime
  obtain ⟨act,uuids⟩ := a
  have hlater := hs.later (toContractTimestamp_mono hclock)
  cases act with
  | acquire request prepared clock uuid =>
    cases h
    exact (acquire_together htexts hlater hiso hnow hroom.1 hroom.2).simulates hlater
  | renew leaseId holder ttl requested clock =>
    cases h
    exact (renew_together htexts hlater hiso hnow hroom.1 hroom.2).simulates hlater
  | release leaseId holder requested clock =>
    cases h
    exact (release_together htexts hlater hiso hnow hroom.1 hroom.2).simulates hlater
  | query q clock =>
    cases h
    exact hlater
  | expire instant =>
    cases h
    exact (expire_together hlater hiso hroom.1 hroom.2).simulates hlater

theorem simulated_empty (clock : ℤ) : (Backends.empty clock).Simulated :=
  ⟨fun s hs => (by cases hs),fun k c hc => (by cases hc),rfl⟩

/-- In related states both backends answer an operation alike. -/
theorem simulated_agree {s : Backends} {a : BackendAction} (hs : s.Simulated) (ha : Comparable s a) :
    BackendsAgree s a := by
  obtain ⟨⟨hclock,htime,hnow⟩,htexts,hroom⟩ := ha
  have hiso := isoTimestamp_of_sqlTimestamp htime
  obtain ⟨act,uuids⟩ := a
  have hlater := hs.later (toContractTimestamp_mono hclock)
  cases act with
  | acquire request prepared clock uuid =>
    exact (acquire_together htexts hlater hiso hnow hroom.1 hroom.2).map_eq fun _ _ h => h
  | renew leaseId holder ttl requested clock =>
    exact (renew_together htexts hlater hiso hnow hroom.1 hroom.2).map_eq fun _ _ h => h.1
  | release leaseId holder requested clock => trivial
  | expire instant => trivial
  | query q clock =>
    intro hcursor
    change q.now.getD clock = clock at hnow
    change Simulates s.file s.tables (toContractTimestamp clock) at hlater
    have hA : localLive s.file (toContractTimestamp clock) = sqlLive s.tables (toContractTimestamp clock) :=
      hlater.live
    rcases query_together htexts hlater hnow hcursor with
      ⟨hl,hm⟩ | ⟨ls,ms,limit,cursor,hl,hm,hlimit,hpage,hpage'⟩
    · exact ⟨fun _ => hl.trans hm.symm,fun ls ms hls => by cases hl.symm.trans hls⟩
    · refine ⟨fun hlive => ?_,?_⟩
      · have hkeyed : Keyed (sqlLive s.tables (toContractTimestamp clock)) := fun k m hk =>
          keyed_sqlStored hlater.sound k m (Option.filter_eq_some_iff.mp hk).1
        simp only [scanned, hlive, Bool.false_eq_true, if_false] at hpage hpage'
        change IsPage (Selected (localLive s.file (toContractTimestamp clock)) q cursor) limit _ at hpage
        rw [hA] at hpage
        have heq := isPage_unique hkeyed hpage hpage'
        rw [hl, hm, List.map_injective_iff.mpr toLeaseFields_injective heq]
      · intro ls' ms' hls hms hshort hshort' l hlive
        cases hl.symm.trans hls
        cases hm.symm.trans hms
        have hmem := mem_of_isPage hpage (by rw [List.length_map]; omega) l.toLeaseFields
        have hmem' := mem_of_isPage hpage' (by rw [List.length_map]; omega) l.toLeaseFields
        rw [List.mem_map_of_injective toLeaseFields_injective] at hmem hmem'
        rw [hmem, hmem']
        have hstill := isLeaseExpired_eq_false.mp hlive
        have hboth : ∀ k, localStored s.file k = some l.toLeaseFields ↔
            sqlStored s.tables k = some l.toLeaseFields := by
          intro k
          have hk := congrFun hA k
          simp only [localLive, sqlLive, LiveLeases.liveAt] at hk
          have hiff := congrArg (· = some l.toLeaseFields) hk
          simpa [Option.filter_eq_some_iff, hstill] using hiff
        simp only [Selected, scanned_eq_some, hboth]

/-- Over every run of comparable operations the two backends agree at every step. -/
theorem backends_agree (clock : ℤ) (as : List BackendAction)
    (hm : Meets Backends.step Comparable (Backends.empty clock) as) :
    Meets Backends.step BackendsAgree (Backends.empty clock) as :=
  meets_of_invariant Backends.step (I := Backends.Simulated)
    (fun _ _ _ hs ha h => step_simulated hs ha h) (fun _ _ hs ha => simulated_agree hs ha)
    (simulated_empty clock) hm

instance (s : Backends) (a : BackendAction) : Decidable (WellTimed s a) := by unfold WellTimed; infer_instance

instance decidableOk {α ε : Type} (x : Except ε α) (P : α → Prop) [DecidablePred P] : Decidable (∀ a, x = .ok a → P a) :=
  match x with
  | .ok a => decidable_of_iff (P a) ⟨fun h b hb => by cases hb; exact h,fun h => h a rfl⟩
  | .error _ => isTrue fun _ h => by cases h

instance (s : Backends) (a : BackendAction) : Decidable (BelowCapacity s a) := by
  obtain ⟨act,uuids⟩ := a
  cases act <;> unfold BelowCapacity <;> infer_instance

instance (a : LeaseStoreAction) : Decidable a.Storable := by
  cases a <;> unfold LeaseStoreAction.Storable <;> infer_instance

instance (s : Backends) (a : BackendAction) : Decidable (Comparable s a) := by
  unfold Comparable
  infer_instance

def softAcquire (leaseId : String) (ttlSeconds : ℤ) : BackendAction :=
  (.acquire ⟨some (Text.of leaseId),Text.of "agent",ttlSeconds,.soft,⟨.symbol,[Text.of "f"]⟩,
    Text.of "work",none⟩ 0 0 [],id)

/-- One lease of a second, one of a minute, and the release of a third when the first is over. -/
def sampleHistory : List BackendAction :=
  [softAcquire "lease:a" 1,softAcquire "lease:b" 60,(.release (Text.of "lease:c") (Text.of "agent") none 5000,id)]

def firstOf (includeExpired : Bool) : LeaseQuery := ⟨none,none,includeExpired,none,none,⟨some 1,none⟩⟩

/-- The history meets the condition, and so do a renewal and a query at its end. -/
theorem backends_agree_sample : Meets Backends.step BackendsAgree (Backends.empty 0)
    (sampleHistory ++ [(.renew (Text.of "lease:b") (Text.of "agent") none none 6000,id),
      (.query (firstOf false) 6000,id)]) :=
  backends_agree 0 _ (by decide +kernel)

/-- An `acquire` or `renew` succeeds in both backends or in neither, and every query finds the
same live leases in both. -/
def AnswerAlike (s : Backends) (a : BackendAction) : Prop :=
  match a.1 with
  | .query q clock => ∀ ls ms, query s.file q clock = .ok ls →
      SupabaseLeaseStore.query s.tables q clock = .ok ms →
      ∀ l, isLeaseExpired l (toContractTimestamp clock) = false → (l ∈ ls ↔ l ∈ ms)
  | _ => BackendsAgree s a

lemma toOption_eq_some {α ε : Type} {x : Except ε α} {a : α} : x.toOption = some a ↔ x = .ok a := by
  cases x with
  | error e => exact ⟨fun h => (by cases h),fun h => (by cases h)⟩
  | ok b => exact ⟨fun h => congrArg Except.ok (Option.some.inj h),fun h => congrArg some (Except.ok.inj h)⟩

/-- A page that expired leases fill: only `LocalLeaseStore.release` has swept them. -/
lemma sampleHistory_disagrees : ¬ ∀ (clock : ℤ) (as : List BackendAction),
    Meets Backends.step Comparable (Backends.empty clock) as →
      Meets Backends.step AnswerAlike (Backends.empty clock) as := by
  intro h
  have hlast := h 0 (sampleHistory ++ [(.query (firstOf true) 5000,id)]) (by decide +kernel)
  have hanswers : (run Backends.step (Backends.empty 0) sampleHistory).map (fun s =>
      ((query s.file (firstOf true) 5000).toOption.map (·.map fun l => (l.lease_id,isLeaseExpired l 5)),
        (SupabaseLeaseStore.query s.tables (firstOf true) 5000).toOption.map (·.map (·.lease_id)))) =
      some (some [(Text.of "lease:b",false)],some [Text.of "lease:a"]) := by decide +kernel
  obtain ⟨s,hs,hboth⟩ := Option.map_eq_some_iff.mp hanswers
  have halike := meets_at Backends.step hlast hs
  obtain ⟨hl,hm⟩ := Prod.mk.inj hboth
  obtain ⟨ls,hls,hids⟩ := Option.map_eq_some_iff.mp hl
  obtain ⟨ms,hms,hids'⟩ := Option.map_eq_some_iff.mp hm
  obtain ⟨l,rfl,hlive⟩ := List.map_eq_singleton_iff.mp hids
  have hmem := (halike _ _ (toOption_eq_some.mp hls) (toOption_eq_some.mp hms) l (Prod.mk.inj hlive).2).mp
    List.mem_cons_self
  have hid := List.mem_map_of_mem (f := fun l : ConsiliencyLease => l.lease_id) hmem
  rw [hids', (Prod.mk.inj hlive).1] at hid
  have hne : Text.of "lease:b" ∉ [Text.of "lease:a"] := by decide +kernel
  exact hne hid

/-- A holder that the database cannot store. -/
def nulHolder : LeaseAcquireRequest :=
  ⟨some (Text.of "lease:a"),[0],60,.soft,⟨.symbol,[Text.of "f"]⟩,Text.of "work",none⟩

/-- The lease is granted by the one and refused by the other. -/
lemma nulHolder_disagrees : ¬ ∀ (clock : ℤ) (as : List BackendAction),
    Meets Backends.step (fun s a => WellTimed s a ∧ BelowCapacity s a) (Backends.empty clock) as →
      Meets Backends.step BackendsAgree (Backends.empty clock) as := by
  intro h
  have hagree := h 0 [(.acquire nulHolder 0 0 [],id)] (by decide +kernel)
  have hgranted : (acquire none nulHolder 0 0 []).map (fun r => r.1.granted) ≠
      (SupabaseLeaseStore.acquire ⟨.empty,[]⟩ nulHolder 0 0 [] id).map (fun r => r.1.granted) := by decide +kernel
  exact hgranted hagree.1

/-- A page after the start of the year 0. -/
def afterYearZero : LeaseQuery :=
  ⟨none,none,false,none,none,⟨none,some ⟨-62167219200000,Text.of "lease:a"⟩⟩⟩

/-- Both backends give a query that leaves expired leases out one answer, wherever its page starts. -/
def QueriesAlike (s : Backends) (a : BackendAction) : Prop :=
  ∀ q clock, a.1 = .query q clock → q.includeExpired = false → query s.file q clock = SupabaseLeaseStore.query s.tables q clock

/-- The database does not read the timestamp that such a page starts at. -/
lemma afterYearZero_disagrees : ¬ ∀ (clock : ℤ) (as : List BackendAction),
    Meets Backends.step Comparable (Backends.empty clock) as →
      Meets Backends.step QueriesAlike (Backends.empty clock) as := by
  intro h
  have hagree := h 0 [(.query afterYearZero 0,id)] (by decide +kernel)
  have hanswers : (query none afterYearZero 0).isOk ≠ (SupabaseLeaseStore.query ⟨.empty,[]⟩ afterYearZero 0).isOk := by
    decide +kernel
  exact hanswers (congrArg Except.isOk (hagree.1 afterYearZero 0 rfl rfl))

/-- The two backends differ at a page that expired leases fill, at a text with a NUL, and at a cursor
in the year 0. -/
theorem backends_disagree :
    (¬ ∀ (clock : ℤ) (as : List BackendAction), Meets Backends.step Comparable (Backends.empty clock) as →
      Meets Backends.step AnswerAlike (Backends.empty clock) as) ∧
    (¬ ∀ (clock : ℤ) (as : List BackendAction),
      Meets Backends.step (fun s a => WellTimed s a ∧ BelowCapacity s a) (Backends.empty clock) as →
        Meets Backends.step BackendsAgree (Backends.empty clock) as) ∧
    ¬ ∀ (clock : ℤ) (as : List BackendAction), Meets Backends.step Comparable (Backends.empty clock) as →
      Meets Backends.step QueriesAlike (Backends.empty clock) as :=
  ⟨sampleHistory_disagrees,nulHolder_disagrees,afterYearZero_disagrees⟩

end OmniagentPlus.WorktreeLeasing
